import Unjar.Proofs.FileSystem.Creation
import Unjar.Proofs.FileSystem.Nodes
import Unjar.Proofs.Run.Visit

/-!
What an output that could not be made leaves behind. Text from the decompiler is written when it is there as a whole,
but a copy makes its target before it reads the source, and a directory can be opened and not be read.

That nothing else is left half made rests on the room on the disk: a file that could be opened takes what is written to
it. Nothing is claimed of a disk that is full.
-/

namespace Unjar

namespace Run

open FileSystem ClassFile

variable {d : Decompiler} {file out : Path} {name : Bytes} {w w' : World}

/-- A copy that makes its target and has nothing to put into it: what is to be copied is a directory, which may be
opened. -/
structure HalfMade (fs : FileSystem) (file out : Path) : Prop where
  copied : out.extension ≠ some sourceExtension
  source : ∃ l, fs.openToRead file = .ok l ∧ fs.isDirectoryAt l = true
  opens : ∃ l opened, fs.openToWrite out = .ok (l, opened)

/-- The files when the decompiler was asked for an output, where it is asked at all. -/
def filesAsked (d : Decompiler) (file : Path) (name : Bytes) (out : Path) (w : World) : FileSystem :=
  if out.extension = some sourceExtension then (Task.left (d.ask file name w)).files else w.files

/-- A quiet decompiler leaves the files as they were. -/
theorem filesAsked_quiet (quiet : d.Quiet) (file : Path) (name : Bytes) (out : Path) (w : World) :
    filesAsked d file name out w = w.files := by
  unfold filesAsked
  split
  · cases asked : d.ask file name w with
    | ok data w' =>
      obtain ⟨_, _, _, _, same, _⟩ := ask_ok quiet asked
      exact same
    | error tool w' =>
      rcases Task.bind_error asked with failed | ⟨_, w₁, recorded, refused⟩
      · cases failed
      · cases recorded
        exact (quiet.error refused).1
  · rfl

/-- A directory is opened to be read like a file, and told apart when it is read. -/
theorem HalfMade.copyFile (half : HalfMade w.files file out) (sound : w.files.Sound) (absent : w.files.has out = false) :
    ∃ l, w.files.node? l = none ∧
      (∀ data, (w.files.put l (.file fileMode data)).locate .use out = .ok l) ∧
      copyFile file out w = .error .isADirectory { w with files := w.files.put l (.file fileMode []) } := by
  obtain ⟨l, opened, opens⟩ := half.opens
  obtain ⟨vacant, rfl, found⟩ := sound.openToWrite_absent absent opens
  obtain ⟨input, source, isDirectory⟩ := half.source
  obtain ⟨mode, directory⟩ := isDirectoryAt_iff.mp isDirectory
  have apart : input ≠ l := by
    rintro rfl
    rw [vacant] at directory
    cases directory
  refine ⟨l, vacant, found, ?_⟩
  have unread : (w.files.put l (.file fileMode [])).contents input = .error .isADirectory := by
    rw [contents, node?_put, if_neg apart, directory]
  rw [copyFile_run absent]
  simp only [source, opens, unread]

/-- A copy that fails and is not such a one fails before the target is made. -/
theorem files_of_copyFile_error (sound : w.files.Sound) (absent : w.files.has out = false)
    (copied : out.extension ≠ some sourceExtension) {cause : Fault} (failed : copyFile file out w = .error cause w')
    (clean : ¬ HalfMade w.files file out) : w'.files = w.files := by
  rcases (copyFile_error absent failed).2 with same | ⟨input, l, isInput, opened, unread⟩
  · exact same
  exfalso
  obtain ⟨vacant, put, _⟩ := sound.openToWrite_absent absent opened
  have there := sound.isSome_of_locate (openToRead_ok.mp isInput).1
  have apart : input ≠ l := by
    rintro rfl
    rw [vacant] at there
    cases there
  rw [put, contents, node?_put, if_neg apart] at unread
  cases atInput : w.files.node? input with
  | none => rw [atInput] at there; cases there
  | some node =>
    rw [atInput] at unread
    cases node with
    | directory mode =>
      exact clean ⟨copied, ⟨_, isInput, isDirectoryAt_iff.mpr ⟨mode, atInput⟩⟩, l, _, opened⟩
    | file mode data | link target | device => cases unread

theorem produce_of_has (d : Decompiler) (file : Path) (name : Bytes) (there : w.files.has out = true) :
    produce d file name out w = .ok .skipped { w with events := w.events ++ [.outputExists out] } :=
  produces_iff.mpr (.skipped there)

/-- An output that could not be made leaves no more than the decompiler left, and nothing if that is quiet, unless a
directory was to be copied. Then there is an empty file in the place of the output, where nothing was, and from there
on the output is skipped. -/
theorem failed_produce {cause : ProduceError} (sound : w.files.Sound)
    (failed : produce d file name out w = .error cause w') :
    (w'.files = filesAsked d file name out w ↔ ¬ HalfMade w.files file out) ∧
    (d.Quiet → ¬ HalfMade w.files file out → w'.files = w.files ∧ w'.files.has out = false) ∧
    (HalfMade w.files file out → cause = .copy file out .isADirectory ∧ ∃ l, w.files.node? l = none ∧
      w'.files = w.files.put l (.file fileMode []) ∧ w'.files.locate .use out = .ok l ∧
      ∀ d' file' name' again, again.files = w'.files →
        produce d' file' name' out again = .ok .skipped { again with events := again.events ++ [.outputExists out] }) := by
  obtain ⟨absent, ⟨isSource, asked⟩ | ⟨copied, fault, rfl, refused⟩⟩ := produce_failed failed
  · have same : w'.files = filesAsked d file name out w := by
      rw [filesAsked, if_pos isSource]
      rcases asked with ⟨tool, _, asked⟩ | ⟨fault, data, _, asked⟩
      · rw [asked]; rfl
      · rw [asked]; rfl
    refine ⟨iff_of_true same fun half => half.copied isSource, fun quiet _ => ?_,
      fun half => absurd isSource half.copied⟩
    rw [same, filesAsked_quiet quiet]
    exact ⟨rfl, absent⟩
  · have unasked : filesAsked d file name out w = w.files := if_neg copied
    by_cases half : HalfMade w.files file out
    · obtain ⟨l, vacant, found, copies⟩ := half.copyFile sound absent
      rw [copies] at refused
      cases refused
      have put : (w.files.put l (.file fileMode [])).node? l = some (.file fileMode []) := by rw [node?_put, if_pos rfl]
      refine ⟨iff_of_false ?_ (not_not.mpr half), fun _ clean => absurd half clean, fun _ =>
        ⟨rfl, l, vacant, rfl, found [], fun d' file' name' again same => produce_of_has d' file' name' ?_⟩⟩
      · intro same
        have none := same.trans unasked ▸ vacant
        rw [put] at none
        cases none
      · rw [same, has, stat?, found []]
        simp only [put, Option.isSome_some]
    · have same := files_of_copyFile_error sound absent copied refused half
      refine ⟨iff_of_true (same.trans unasked.symm) half, fun _ _ => ?_, fun h => absurd h half⟩
      rw [same]
      exact ⟨rfl, absent⟩

/-- A place to work in where a link to a directory was staged. -/
def Sample.linked : World :=
  { files :=
    { nodes := [([], .directory 0o755), ([ascii "s"], .directory 0o755), ([ascii "s", ascii "l"], .link ⟨ascii "."⟩)]
      here := [] } }

theorem failed_produce_sample : Sample.linked.files.Sound ∧
    HalfMade Sample.linked.files ⟨ascii "s/l"⟩ ⟨ascii "l"⟩ ∧
    ∃ after l, produce (.ofAnswers fun _ name => .ok name) ⟨ascii "s/l"⟩ (ascii "l") ⟨ascii "l"⟩ Sample.linked =
        .error (.copy ⟨ascii "s/l"⟩ ⟨ascii "l"⟩ .isADirectory) after ∧
      Sample.linked.files.node? l = none ∧ after.files = Sample.linked.files.put l (.file fileMode []) ∧
      after.files.locate .use ⟨ascii "l"⟩ = .ok l := by
  have sound : Sample.linked.files.Sound := .of_nodes (by decide +kernel) (by decide) (by decide) (by decide)
  have half : HalfMade Sample.linked.files ⟨ascii "s/l"⟩ ⟨ascii "l"⟩ := 
    ⟨by decide, ⟨_, rfl, by decide +kernel⟩, _, _, rfl⟩
  have failed : produce (.ofAnswers fun _ name => .ok name) ⟨ascii "s/l"⟩ (ascii "l") ⟨ascii "l"⟩ Sample.linked =
      .error (.copy ⟨ascii "s/l"⟩ ⟨ascii "l"⟩ .isADirectory) _ := Task.error_of_outcome (by decide +kernel)
  obtain ⟨_, l, vacant, put, found, _⟩ := (failed_produce sound failed).2.2 half
  exact ⟨sound, half, _, l, failed, vacant, put, found⟩

end Run

end Unjar
