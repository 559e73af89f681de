import Unjar.Proofs.ClassFile.Derivation
import Unjar.Proofs.Run.Steady
import Unjar.Proofs.Run.Workplace

/-!
The names a decompiler is told. Each is the name of a class, made of the names that lead to its file, or else what is
shown of the stem of the file. Either way there is a name, and it is no path.
-/

namespace Unjar

/-- A decompiler that leaves a file system behind, and the record of the questions to those who ask. -/
def Decompiler.Orderly (d : Decompiler) : Prop :=
  ∀ file name (w : World), w.files.Sound →
    (Task.left (d file name w)).files.Sound ∧ (Task.left (d file name w)).calls = w.calls

theorem Decompiler.Quiet.orderly {d : Decompiler} (quiet : d.Quiet) : d.Orderly := by
  intro file name w sound
  cases answered : d file name w with
  | ok data w' =>
    obtain ⟨files, calls⟩ := quiet.ok answered
    exact ⟨files ▸ sound, calls⟩
  | error cause w' =>
    obtain ⟨files, calls⟩ := quiet.error answered
    exact ⟨files ▸ sound, calls⟩

/-- A name that can stand for a class: there is something of it, and it leads nowhere. -/
structure Telling (name : Bytes) : Prop where
  some : name ≠ []
  clean : slash ∉ name

theorem IsName.telling {name : Bytes} (valid : IsName name) : Telling name :=
  ⟨valid.1, valid.2.2.2⟩

namespace Telling

variable {name : Bytes} {parts : List Bytes}

theorem joinWith_dot (some : parts ≠ []) (each : ∀ part ∈ parts, Telling part) : Telling (Bytes.joinWith dot parts) :=
  ⟨Bytes.joinWith_ne_nil dot some fun part member => (each part member).some,
    Bytes.notMem_joinWith (by decide) fun part member => (each part member).clean⟩

theorem stem (telling : Telling name) : Telling (Path.splitName name).1 := by
  obtain ⟨starts, some⟩ := Path.splitName_stem name
  exact ⟨some telling.some, fun member => telling.clean (starts.subset member)⟩

/-- The replacement of what is no UTF-8 takes no name away, and brings no slash. -/
theorem lossy (telling : Telling name) : Telling (Utf8.lossy name) := by
  refine ⟨Utf8.lossy_ne_nil telling.some, fun member => telling.clean ?_⟩
  have same := @Utf8.contains_lossy slash (by decide) name
  rwa [List.contains_iff_mem.mpr member, eq_comm, List.contains_iff_mem] at same

/-- What is left of the parts without a release is some of them. -/
theorem dropRelease (some : parts ≠ []) (each : ∀ part ∈ parts, Telling part) :
    Telling (Bytes.joinWith dot (ClassFile.dropRelease parts)) := by
  obtain ⟨suffix, left⟩ := ClassFile.dropRelease_suffix some
  exact joinWith_dot left fun part member => each part (suffix.subset member)

end Telling

namespace ClassFile

theorem telling_of_derive {names : List Bytes} (valid : AllNames names) (down : names ≠ []) {told : Bytes}
    (named : derive ((Path.mk []).descendant names) = some told) : Telling told := by
  obtain ⟨front, name, rfl⟩ := (List.eq_nil_or_concat' names).resolve_left down
  have spelled : ((Path.mk []).descendant (front ++ [name])).components = (front ++ [name]).map .name :=
    Path.components_descendant _ valid
  have segments : ((Path.mk []).descendant (front ++ [name])).segments = front ++ [name] :=
    Path.segments_descendant _ valid down
  have last : ((Path.mk []).descendant (front ++ [name])).segments.getLast? = some name := by
    rw [segments, List.getLast?_concat]
  obtain ⟨stem, rfl, isName⟩ := stem_of_derive spelled (Or.inl last) named
  obtain ⟨_, rfl⟩ := (derive_of_stem spelled isName).mp named
  have parts : AllNames (front ++ [stem]) := valid.left.append (.singleton isName)
  exact .dropRelease (by simp) fun part member => (parts part member).telling

end ClassFile

namespace Run

open FileSystem ClassFile

variable {plan : Plan} {d : Decompiler} {names : List Bytes} {w : World}

/-- A staged file has a name to be told, also where it gets none as a class: its own name has a stem. -/
theorem telling_toldName (staging : Path) (valid : AllNames names) (down : names ≠ []) :
    Telling (toldName .perFile staging (staging.descendant names)) := by
  rw [toldName, Path.stripPrefix?_descendant staging valid down, Option.getD_some, Naming.className]
  cases named : derive ((Path.mk []).descendant names) with
  | some told => exact telling_of_derive valid down named
  | none =>
    obtain ⟨front, name, rfl⟩ := (List.eq_nil_or_concat' names).resolve_left down
    have isName : IsName name := valid name (by simp)
    rw [Option.getD_none, Path.stem, Path.fileName_descendant staging valid]
    exact isName.telling.stem.lossy

/-- What is kept while a run asks: the questions since the ones there were tell names. -/
structure Asking (before : List (Path × Bytes)) (w : World) : Prop where
  sound : w.files.Sound
  calls : ∃ made, w.calls = before ++ made ∧ ∀ call ∈ made, Telling call.2

variable {before : List (Path × Bytes)}

theorem steady_asking (before : List (Path × Bytes)) : Steady (Asking before) := by
  refine ⟨Asking.sound, fun asking evolves kept => ⟨evolves.sound, ?_⟩⟩
  rw [kept]
  exact asking.calls

theorem Asking.ask (asking : Asking before w) (orderly : d.Orderly) (file : Path) {name : Bytes}
    (telling : Telling name) : Asking before (Task.left (d.ask file name w)) := by
  obtain ⟨made, split, each⟩ := asking.calls
  obtain ⟨sound, kept⟩ := orderly file name { w with calls := w.calls ++ [(file, name)] } asking.sound
  refine ⟨sound, made ++ [(file, name)], ?_, ?_⟩
  · rw [← List.append_assoc, ← split]
    exact kept
  · rintro call member
    rcases List.mem_append.mp member with earlier | here
    · exact each call earlier
    · rw [List.mem_singleton.mp here]
      exact telling

/-- A run whose classes are named file by file tells the decompiler names, and no paths: whatever lies in the staging
directory, whatever the decompiler answers and leaves behind, and however the run ends. -/
theorem runIn_tells_names (perFile : plan.naming = .perFile) (orderly : d.Orderly) (sound : w.files.Sound)
    (staging : Path) : ∃ made, (Task.left (runIn plan d staging w)).calls = w.calls ++ made ∧
      ∀ call ∈ made, call.2 ≠ [] ∧ slash ∉ call.2 := by
  have asks : ∀ names, names ≠ [] → AllNames names → ∀ v, Asking w.calls v → Task.Ends
      (d.ask (staging.descendant names) (toldName plan.naming staging (staging.descendant names))) v
      (fun _ => Asking w.calls) fun _ v' => Asking w.calls v' ∧ True := by
    intro names down valid v asking
    have asked := asking.ask orderly (staging.descendant names)
      (perFile ▸ telling_toldName staging valid down)
    refine .intro (fun _ _ ran => ?_) fun _ _ ran => ⟨?_, trivial⟩ <;> rwa [ran] at asked
  have start : Asking w.calls w := ⟨sound, [], (List.append_nil _).symm, List.forall_mem_nil _⟩
  have ended := (steady_asking w.calls).runIn (G := fun _ _ => True) start asks
  have left := Task.Ends.left (ended.mono (fun _ _ asking => asking) fun _ _ both => both.1)
  obtain ⟨made, split, each⟩ := left.calls
  exact ⟨made, split, fun call member => ⟨(each call member).some, (each call member).clean⟩⟩

/-- A staging directory with files that name no class: two stems of dots, and one that is no UTF-8. -/
def Sample.odd : World :=
  { files :=
    { nodes := [([], .directory 0o755), ([ascii "j"], .file 0o644 (Archive.stored [(ascii "d/X.java", ascii "x")])),
        ([ascii "s"], .directory 0o755), ([ascii "s", ascii "..class"], .file 0o644 []),
        ([ascii "s", ascii "...class"], .file 0o644 []), ([ascii "s", 0xFF :: ascii ".class"], .file 0o644 [])]
      here := [] } }

theorem tells_names_sample : Sample.plan.naming = .perFile ∧ Sample.answering.Orderly ∧ Sample.odd.files.Sound ∧
    ∃ made, (Task.left (runIn Sample.plan Sample.answering Sample.staging Sample.odd)).calls = Sample.odd.calls ++ made ∧
      ∀ call ∈ made, call.2 ≠ [] ∧ slash ∉ call.2 := by
  have orderly : Sample.answering.Orderly := (Decompiler.quiet_ofAnswers _).orderly
  have sound : Sample.odd.files.Sound := .of_nodes (by decide +kernel) (by decide) (by decide) (by decide)
  exact ⟨rfl, orderly, sound, runIn_tells_names rfl orderly sound Sample.staging⟩

example : (Task.left (runIn Sample.plan Sample.answering Sample.staging Sample.odd)).calls.map Prod.snd =
    [[dot, dot], [dot], ascii "X", Utf8.replacement] := by decide +kernel

end Run

end Unjar
