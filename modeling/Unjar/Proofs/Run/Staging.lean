import Unjar.Proofs.FileSystem.Removal
import Unjar.Proofs.Run.Tame
import Unjar.Proofs.Run.Workplace

/-!
The staging directory of a run. It is made where there is nothing, in the directory for temporary files, and however
the run ends it is gone afterwards, with all that was unpacked into it.
-/

namespace Unjar

open FileSystem

theorem isName_stagingName (count : Nat) : IsName (stagingName count) := by
  have digits : slash ∉ ascii (toString (100000 + count)) := by
    intro member
    obtain ⟨c, inText, same⟩ := List.mem_map.mp member
    change c ∈ (String.ofList (Nat.toDigits 10 (100000 + count))).toList at inText
    rw [String.toList_ofList] at inText
    have digit := Nat.isDigit_of_mem_toDigits (by omega) (by omega) inText
    rw [Char.isDigit, Bool.and_eq_true, decide_eq_true_eq, decide_eq_true_eq] at digit
    have low : 48 ≤ c.toNat := digit.1
    have high : c.toNat ≤ 57 := digit.2
    have value := congrArg UInt8.toNat same
    simp [slash, Nat.toUInt8] at value
    omega
  refine ⟨by simp [stagingName, ascii], by simp [stagingName, ascii], by simp [stagingName, ascii], ?_⟩
  rw [stagingName, List.mem_append, not_or]
  exact ⟨by decide, digits⟩

theorem freshStaging_child (fs : FileSystem) (temporary : Path) (tries count : Nat) :
    ∃ number, freshStaging fs temporary tries count = temporary.child (stagingName number) := by
  induction tries generalizing count with
  | zero => exact ⟨count, rfl⟩
  | succ tries ih =>
    rw [freshStaging]
    cases fs.locate .inspect (temporary.child (stagingName count)) with
    | ok l => exact ih (count + 1)
    | error fault => exact ⟨count, rfl⟩

namespace Run

/-- The staging directory that a run takes in a world. -/
def nextStaging (w : World) : Path :=
  freshStaging w.files w.temporary w.files.nodes.length 0

/-- A staging directory that was made for a run: it lies in the directory for temporary files, where there was
nothing, and it is all that is new. -/
structure Lodged (w : World) (staging : Path) (l : Location) (start : World) : Prop where
  made : w.files.makeDirectory staging = .ok start.files
  inside : ∃ t name, w.files.Leads w.temporary t ∧ staging = w.temporary.child name ∧ l = t ++ [name]
  fresh : ∀ names, w.files.node? (l ++ names) = none
  alone : ∃ mode, start = { w with files := w.files.put l (.directory mode) }

/-- How a run ends whose staging directory is removed: as it did before that, and with all the same but for what lay
there, which is gone. -/
structure Cleared (l : Location) (inner outer : EStateM.Result RunError World Summary) : Prop where
  outcome : Task.outcome outer = Task.outcome inner
  gone : ∀ names, (Task.left outer).files.node? (l ++ names) = none
  elsewhere : ∀ m, ¬ l <+: m → (Task.left outer).files.node? m = (Task.left inner).files.node? m
  others : ∃ nodes, Task.left outer =
    { Task.left inner with files := { (Task.left inner).files with nodes := nodes } }

/-- How a run with a staging directory of its own ends: that could not be made, and nothing is done; or the run is one
in a fresh directory that is empty, and the directory is gone afterwards. -/
inductive Housed (plan : Plan) (d : Decompiler) (w : World) : EStateM.Result RunError World Summary → Prop
  | refused {fault : Fault} : w.files.makeDirectory (nextStaging w) = .error fault →
      Housed plan d w (.error (.staging fault) w)
  | lodged {l : Location} {start : World} {outer : EStateM.Result RunError World Summary} :
      Lodged w (nextStaging w) l start → Cleared l (runIn plan d (nextStaging w) start) outer → Housed plan d w outer

section Housing

variable {plan : Plan} {d : Decompiler} {staging : Path} {l : Location} {w : World} {files : FileSystem}

theorem makeStaging_run (w : World) : makeStaging w = match w.files.makeDirectory (nextStaging w) with
    | .ok files => .ok (nextStaging w) { w with files }
    | .error fault => .error (.staging fault) w := by
  have first : makeStaging w =
      (Task.change (fun fs => (fs.makeDirectory (nextStaging w)).mapError .staging) >>= fun _ =>
        (pure (nextStaging w) : Task RunError Path)) w := rfl
  rw [first]
  simp only [bind, EStateM.bind, Task.change_run]
  cases w.files.makeDirectory (nextStaging w) <;> rfl

theorem run_of_refused {fault : Fault} (refused : w.files.makeDirectory (nextStaging w) = .error fault) :
    run plan d w = .error (.staging fault) w := by
  refine Task.bind_of_error _ ?_
  rw [makeStaging_run, refused]

/-- What is removed after a task is the staging directory with all below it. -/
theorem cleared_of_removed {task : Task RunError Summary} {start : World}
    (removed : (Task.left (task start)).files.removeTree staging = .ok ((Task.left (task start)).files.prune l)) :
    Cleared l (task start) (task.followedBy (removeStaging staging) start) := by
  have gone : ∀ (fs : FileSystem) names, (fs.prune l).node? (l ++ names) = none := by
    intro fs names
    rw [node?_prune, if_pos (List.prefix_append l names)]
  have elsewhere : ∀ (fs : FileSystem) m, ¬ l <+: m → (fs.prune l).node? m = fs.node? m := by
    intro fs m outside
    rw [node?_prune, if_neg outside]
  have removes : ∀ v, Task.left (task start) = v →
      (removeStaging staging : Task RunError Unit) v = .ok () { v with files := v.files.prune l } := by
    rintro v rfl
    unfold removeStaging
    rw [Task.bind_of_ok _ (Task.files_run _), removed]
    rfl
  unfold Task.followedBy
  cases ended : task start with
  | ok summary v =>
    simp only [removes v (by rw [ended]; rfl)]
    exact ⟨rfl, gone v.files, elsewhere v.files, _, rfl⟩
  | error e v =>
    simp only [removes v (by rw [ended]; rfl)]
    exact ⟨rfl, gone v.files, elsewhere v.files, _, rfl⟩

/-- With its staging directory made, a run goes on in it, and removes it in the end. -/
theorem run_of_made (tame : d.Tame) (sound : w.files.Sound)
    (made : w.files.makeDirectory (nextStaging w) = .ok files) :
    ∃ l, Lodged w (nextStaging w) l { w with files } ∧
      Cleared l (runIn plan d (nextStaging w) { w with files }) (run plan d w) := by
  obtain ⟨number, named⟩ := freshStaging_child w.files w.temporary w.files.nodes.length 0
  have valid := isName_stagingName number
  have named : nextStaging w = w.temporary.child (stagingName number) := named
  have evolves := Evolves.makeDirectory sound made
  have ran : run plan d w =
      (runIn plan d (nextStaging w)).followedBy (removeStaging (nextStaging w)) { w with files } := by
    refine Task.bind_of_ok _ ?_
    rw [makeStaging_run, made]
  rw [named] at made ran ⊢
  obtain ⟨t, leads, vacancy, rfl, spelled⟩ := sound.makeDirectory_child valid made
  refine ⟨t ++ [stagingName number], ⟨made, ⟨t, _, leads, rfl, rfl⟩, ?_, _, rfl⟩, ?_⟩
  · intro names
    by_cases top : names = []
    · rw [top, List.append_nil, vacancy.free]
    · refine sound.below_none ?_ top
      rw [isDirectoryAt, vacancy.free]
      rfl
  · rw [ran]
    generalize made : w.files.put (t ++ [stagingName number]) (.directory (w.files.modeBelow t)) = files at evolves ⊢
    have directory : files.isDirectoryAt (t ++ [stagingName number]) = true := by
      rw [← made, isDirectoryAt_put, if_pos rfl]
      rfl
    have since := since_runIn (w := { w with files }) tame plan (w.temporary.child (stagingName number)) evolves.sound
    exact cleared_of_removed (((leads.mono evolves.keeps).mono since.keeps).removeTree_child since.sound valid spelled
      (since.keeps.directories _ directory))

/-- A run leaves nothing of its staging directory, however it ends, and all else is as a run in a directory of its
own leaves it. -/
theorem run_housed (tame : d.Tame) (sound : w.files.Sound) : Housed plan d w (run plan d w) := by
  cases made : w.files.makeDirectory (nextStaging w) with
  | error fault =>
    rw [run_of_refused made]
    exact .refused made
  | ok files =>
    obtain ⟨l, lodged, cleared⟩ := run_of_made tame sound made
    exact .lodged lodged cleared

end Housing

/-- The place to work in, with a directory for temporary files. -/
def Sample.lodging : World :=
  { Sample.world with
    files := Sample.world.files.put [ascii "t"] (.directory 0o1777)
    temporary := ⟨ascii "t"⟩ }

theorem housed_sample : Sample.failing.Tame ∧ Sample.lodging.files.Sound ∧
    Task.outcome (run Sample.plan Sample.failing Sample.lodging) =
      .error (.produce (.decompile ⟨ascii "t/cfr100000/B.class"⟩ .interrupted)) ∧
    Housed Sample.plan Sample.failing Sample.lodging (run Sample.plan Sample.failing Sample.lodging) := by
  have tame : Sample.failing.Tame := (Decompiler.quiet_ofAnswers _).tame
  have sound : Sample.lodging.files.Sound := .of_nodes (by decide +kernel) (by decide) (by decide) (by decide)
  exact ⟨tame, sound, by decide +kernel, run_housed tame sound⟩

end Run

end Unjar
