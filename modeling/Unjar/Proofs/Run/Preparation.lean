import Unjar.Proofs.FileSystem.Ancestry
import Unjar.Proofs.FileSystem.Nodes
import Unjar.Proofs.Run.Visit

/-!
What is done before an output is made: the directory that it is put into is made, and those above it. Nothing else
changes, whatever links are on the way, and where it ends well, nothing is left to be done the next time.
-/

namespace Unjar

namespace Run

open FileSystem ClassFile

variable {file staging out target directory p : Path} {w w' : World} {fault : Fault}

/-- The empty path counts as the current directory. -/
def orHere (p : Path) : Path :=
  if p.text = [] then ⟨[dot]⟩ else p

/-- What a preparation leaves is the world as it was and new directories on the way to the output: each is what a front
of the path of its parent leads to. -/
structure OnlyDirectories (file staging out : Path) (w w' : World) : Prop where
  others : ∃ files events, w' = { w with files, events }
  added : w.files.AddsDirectories w'.files fun l => ∃ target directory front,
    outputPath file staging out = some target ∧ target.parent = some directory ∧
      directory.startsWith front = true ∧ w'.files.locate .use front = .ok l

/-- The output can be made where it goes, and it is there if it was there before. -/
structure Prepared (file staging out p : Path) (w w' : World) : Prop where
  placed : outputPath file staging out = some p
  parent : ∀ directory, p.parent = some directory → w'.files.isDirectory (orHere directory) = true
  same : w'.files.has p = w.files.has p
  again : ∃ w'', prepareOutput file staging out w' = .ok p w'' ∧ w''.files = w'.files

theorem isDirectory_here (sound : w.files.Sound) : w.files.isDirectory ⟨[dot]⟩ = true :=
  Leads.isDirectory ⟨rfl, sound.here⟩ rfl

/-- A file whose output has no parent needs no preparation. -/
theorem prepareOutput_top (placed : outputPath file staging out = some target) (top : target.parent = none) (w : World) :
    prepareOutput file staging out w = .ok target w := by
  unfold prepareOutput
  simp only [placed, top]
  rfl

theorem prepareOutput_outside (outside : outputPath file staging out = none) (w : World) :
    prepareOutput file staging out w = .error (.outsideStaging file staging) w := by
  unfold prepareOutput
  simp only [outside]
  rfl

theorem prepareOutput_onlyDirectories (sound : w.files.Sound) (file staging out : Path) :
    OnlyDirectories file staging out w (Task.left (prepareOutput file staging out w)) := by
  cases placed : outputPath file staging out with
  | none =>
    rw [prepareOutput_outside placed]
    exact ⟨⟨w.files, w.events, rfl⟩, .refl _⟩
  | some target =>
    cases above : target.parent with
    | none =>
      rw [prepareOutput_top placed above]
      exact ⟨⟨w.files, w.events, rfl⟩, .refl _⟩
    | some directory =>
      have adds := sound.makeDirectories_located directory
      obtain ⟨events, prepares⟩ := prepareOutput_placed placed above w
      rw [prepares]
      rcases made : w.files.makeDirectories directory with ⟨result, prepared⟩
      rw [made] at adds
      have added : w.files.AddsDirectories prepared fun l => ∃ target directory front,
          outputPath file staging out = some target ∧ target.parent = some directory ∧
            directory.startsWith front = true ∧ prepared.locate .use front = .ok l :=
        adds.weaken fun l ⟨front, starts, located⟩ => ⟨target, directory, front, placed, above, starts, located⟩
      cases result <;> exact ⟨⟨prepared, events, rfl⟩, added⟩

theorem prepareOutput_ready (sound : w.files.Sound) (straight : .up ∉ file.components) (straightOut : .up ∉ out.components)
    (ran : prepareOutput file staging out w = .ok p w') : Prepared file staging out p w w' := by
  cases placed : outputPath file staging out with
  | none =>
    rw [prepareOutput_outside placed] at ran
    cases ran
  | some target =>
    cases above : target.parent with
    | none =>
      have unchanged := prepareOutput_top placed above w
      rw [unchanged] at ran
      cases ran
      refine ⟨placed, fun directory isParent => ?_, rfl, w, unchanged, rfl⟩
      rw [above] at isParent
      cases isParent
    | some directory =>
      obtain ⟨events, prepares⟩ := prepareOutput_placed placed above w
      rw [ran] at prepares
      rcases made : w.files.makeDirectories directory with ⟨result, prepared⟩
      rw [made] at prepares
      cases result with
      | error fault => cases prepares
      | ok _ =>
        cases prepares
        have sound' : prepared.Sound := by
          have left : (w.files.makeDirectories directory).2.Sound := sound.of_makeLineage _
          rwa [made] at left
        refine ⟨placed, fun parent isParent => ?_, ?_, ?_⟩
        · obtain rfl : parent = directory := Option.some.inj (isParent.symm.trans above)
          unfold orHere
          split
          · exact @isDirectory_here { w with files := prepared, events } sound'
          · rename_i some
            exact sound.isDirectory_of_makeDirectories made fun none =>
              some ((Path.components_eq_nil_iff parent).mp none)
        · exact sound.has_of_makeDirectories (up_notMem_outputPath placed straight straightOut) above made
        · obtain ⟨events', again⟩ := prepareOutput_placed placed above { w with files := prepared, events }
          simp only [sound.makeDirectories_made made] at again
          exact ⟨_, again, rfl⟩

/-- Preparing an output makes the directories it needs and does nothing else. A file outside of the staging directory
is refused with the world as it was. However it ends, whatever is new is a directory on the way to the parent of the
output. Where it ends well, the parent is a directory, the output is there just if it was there before, and doing it
once more changes nothing. -/
theorem prepareOutput_prepares (sound : w.files.Sound) (staging : Path) (straight : .up ∉ file.components)
    (straightOut : .up ∉ out.components) :
    (∀ source base w', prepareOutput file staging out w = .error (.outsideStaging source base) w' → w' = w) ∧
    OnlyDirectories file staging out w (Task.left (prepareOutput file staging out w)) ∧
    ∀ p w', prepareOutput file staging out w = .ok p w' → Prepared file staging out p w w' := by
  refine ⟨fun source base w' ran => ?_, prepareOutput_onlyDirectories sound file staging out, fun p w' ran =>
    prepareOutput_ready sound straight straightOut ran⟩
  cases placed : outputPath file staging out with
  | none =>
    rw [prepareOutput_outside placed] at ran
    cases ran
    rfl
  | some target =>
    cases above : target.parent with
    | none =>
      rw [prepareOutput_top placed above] at ran
      cases ran
    | some directory =>
      obtain ⟨events, prepares⟩ := prepareOutput_placed placed above w
      rw [ran] at prepares
      rcases made : w.files.makeDirectories directory with ⟨result, prepared⟩
      rw [made] at prepares
      cases result <;> cases prepares

/-- An output root that is a link, with nothing in the directory it leads to. -/
def Sample.distant : World :=
  { files :=
    { nodes := [([], .directory 0o755), ([ascii "r"], .directory 0o2755), ([ascii "o"], .link ⟨ascii "./r/"⟩)]
      here := [] } }

theorem prepares_sample : Sample.distant.files.Sound ∧ .up ∉ (Path.mk (ascii "s/d/e/X.class")).components ∧
    .up ∉ (Path.mk (ascii "o")).components ∧
    ∃ w', prepareOutput ⟨ascii "s/d/e/X.class"⟩ ⟨ascii "s"⟩ ⟨ascii "o"⟩ Sample.distant = .ok ⟨ascii "o/d/e/X.java"⟩ w' ∧
      (∀ source base w'', prepareOutput ⟨ascii "s/d/e/X.class"⟩ ⟨ascii "s"⟩ ⟨ascii "o"⟩ Sample.distant ≠
        .error (.outsideStaging source base) w'') ∧
      w'.files.node? [ascii "r", ascii "d", ascii "e"] = some (.directory 0o2755) ∧
      OnlyDirectories ⟨ascii "s/d/e/X.class"⟩ ⟨ascii "s"⟩ ⟨ascii "o"⟩ Sample.distant w' ∧
      Prepared ⟨ascii "s/d/e/X.class"⟩ ⟨ascii "s"⟩ ⟨ascii "o"⟩ ⟨ascii "o/d/e/X.java"⟩ Sample.distant w' := by
  have sound : Sample.distant.files.Sound := .of_nodes (by decide +kernel) (by decide) (by decide) (by decide)
  have straight : .up ∉ (Path.mk (ascii "s/d/e/X.class")).components := by decide
  have straightOut : .up ∉ (Path.mk (ascii "o")).components := by decide
  obtain ⟨_, only, ready⟩ := prepareOutput_prepares sound ⟨ascii "s"⟩ straight straightOut
  have ran : prepareOutput ⟨ascii "s/d/e/X.class"⟩ ⟨ascii "s"⟩ ⟨ascii "o"⟩ Sample.distant =
      .ok ⟨ascii "o/d/e/X.java"⟩ _ := Task.ok_of_outcome (by decide +kernel)
  refine ⟨sound, straight, straightOut, _, ran, fun source base w'' refused => ?_, by decide +kernel, only, ready _ _ ran⟩
  rw [ran] at refused
  cases refused

end Run

end Unjar
