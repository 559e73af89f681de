import Unjar.Proofs.Extract.Frame
import Unjar.Proofs.Run.Turn
import Unjar.Proofs.Run.Workplace

/-!
What a run leaves alone. It writes below its staging directory, and elsewhere it only adds: directories on the way
to the staging directory and to the output root, and what lies below that.
-/

namespace Unjar

namespace Run

open FileSystem ClassFile

variable {plan : Plan} {d : Decompiler} {staging : Path} {w : World}

/-- What was outside the staging directory is there as it was. What is new there lies below the output root, or is a
directory that the staging directory or the output root is in, or one of the two. -/
structure Spares (plan : Plan) (staging : Path) (before after : FileSystem) : Prop where
  kept : ∀ m node, ¬ Below (before.place staging) m → before.node? m = some node → after.node? m = some node
  new : ∀ m node, ¬ Below (before.place staging) m → before.node? m = none → after.node? m = some node →
    Below (before.place plan.out) m ∨
      node.isDirectory = true ∧ (m <+: before.place staging ∨ m ∈ before.trail plan.out)

/-- The stages of a run, each as far as it came. -/
theorem Spares.of_stages {fs unpacked ready after : FileSystem} (framed : Extract.Frame staging fs unpacked)
    (adds : unpacked.AddsDirectories ready (· ∈ fs.trail plan.out)) (grown : ready.Grows after)
    (outside : ∀ m, ¬ Below (fs.place plan.out) m → after.node? m = ready.node? m) : Spares plan staging fs after := by
  refine ⟨fun m node elsewhere there => ?_, fun m node elsewhere vacant there => ?_⟩
  · have same := (framed.outside m elsewhere).resolve_right fun ⟨vacant, _, _⟩ => by rw [vacant] at there; cases there
    exact grown.kept (adds.kept (same.trans there))
  · refine or_iff_not_imp_left.mpr fun above => ?_
    rw [outside m above] at there
    have ofDirectory : ∀ {other : FileSystem}, other.node? m = some node → other.isDirectoryAt m = true →
        node.isDirectory = true := by
      intro other atNode directory
      rwa [isDirectoryAt, atNode] at directory
    rcases adds.nodes m with same | ⟨_, passed, directory⟩
    · rw [same] at there
      rcases framed.outside m elsewhere with same' | ⟨_, isFront, directory⟩
      · rw [same', vacant] at there
        cases there
      · exact ⟨ofDirectory there directory, Or.inl isFront⟩
    · exact ⟨ofDirectory there directory, Or.inr passed⟩

/-- The visits of a run add to the output tree, however they end. -/
theorem walk_running {s o : Location} (running : Running staging plan.out s o w.files w.files) (quiet : d.Quiet)
    (apart : Apart s o) : Running staging plan.out s o w.files
      (Task.left (finish (Walk.fold (visit plan d staging) staging {} w))).files := by
  have kept := Task.Ends.congr (fold_eq_foldlM running quiet apart) (ends_visits
    (fun _ member => Walk.proper_of_mem running.rooted member) quiet running {})
  have left := kept.left (P := fun v => Running staging plan.out s o w.files v.files)
  cases ended : Walk.fold (visit plan d staging) staging {} w with
  | ok summary v => rw [ended] at left; exact left
  | error e v => rw [ended] at left; exact left

/-- However a run ends, it damages nothing that was there outside its staging directory. -/
theorem run_spares (quiet : d.Quiet) (sound : w.files.Sound) (straight : staging.Straight)
    (staging_plain : w.files.Plain staging) (staging_free : w.files.LinkFree (w.files.place staging))
    (out_plain : w.files.Plain plan.out) (out_free : w.files.LinkFree (w.files.place plan.out))
    (apart : Apart (w.files.place staging) (w.files.place plan.out)) :
    Spares plan staging w.files (Task.left (runIn plan d staging w)).files := by
  have unpacks := Extract.ends_framed plan.jar sound straight staging_plain staging_free
  rw [runIn_run]
  cases extracted : extract plan.jar staging w with
  | error e w₁ => exact .of_stages (unpacks.of_error extracted) (.refl _) (.refl _) fun _ _ => rfl
  | ok entries w₁ =>
    obtain ⟨framed, staged₁⟩ := unpacks.of_ok extracted
    obtain ⟨evolves, _⟩ := Extract.leads_of_extract sound extracted
    have here := evolves.keeps.here
    have plain₁ := evolves.plain out_plain
    have free₁ := evolves.linkFree out_free
    obtain ⟨soundReady, adds⟩ := evolves.sound.makeDirectories plain₁
    have leadsOut : ∀ ready, w₁.files.makeDirectories plan.out = (.ok (), ready) →
        ready.Leads plan.out (w.files.place plan.out) := by
      intro ready made
      rw [← place_congr here]
      exact (evolves.sound.leads_of_makeDirectories plain₁ made).1
    rw [trail_congr here] at adds
    simp only [afterExtraction]
    rcases made : w₁.files.makeDirectories plan.out with ⟨result, ready⟩
    rw [made] at adds soundReady
    cases result with
    | error fault => exact .of_stages framed adds (.refl _) fun _ _ => rfl
    | ok _ =>
      have start := Running.start soundReady (staged₁.mono adds.keeps) (leadsOut ready made) (free₁.of_adds adds)
      generalize events : w₁.events ++ [.unzipped entries staging] ++ [.outputDirectory plan.out] ++
        [.extractingClasses] = told
      have walked := walk_running (w := { w₁ with files := ready, events := told }) start quiet apart
      exact .of_stages framed adds walked.grown walked.within.outside

/-- A place to work in where an output is there already. -/
def Sample.populated : World :=
  { Sample.world with
    files := (Sample.world.files.put [ascii "o"] (.directory 0o700)).put [ascii "o", ascii "A.java"]
      (.file 0o600 (ascii "kept")) }

theorem spares_sample : Sample.failing.Quiet ∧ Sample.populated.files.Sound ∧ Sample.staging.Straight ∧
    Sample.populated.files.Plain Sample.staging ∧
    Sample.populated.files.LinkFree (Sample.populated.files.place Sample.staging) ∧
    Sample.populated.files.Plain Sample.plan.out ∧
    Sample.populated.files.LinkFree (Sample.populated.files.place Sample.plan.out) ∧
    Apart (Sample.populated.files.place Sample.staging) (Sample.populated.files.place Sample.plan.out) ∧
    Spares Sample.plan Sample.staging Sample.populated.files
      (Task.left (runIn Sample.plan Sample.failing Sample.staging Sample.populated)).files := by
  have quiet : Sample.failing.Quiet := Decompiler.quiet_ofAnswers _
  have sound : Sample.populated.files.Sound := .of_nodes (by decide +kernel) (by decide) (by decide) (by decide)
  have straight : Sample.staging.Straight := ⟨[], [ascii "s"], by simp, by simp, by decide⟩
  have unlinked : Sample.populated.files.Unlinked := by decide
  have apart : Apart (Sample.populated.files.place Sample.staging) (Sample.populated.files.place Sample.plan.out) :=
    ⟨by decide, by decide⟩
  exact ⟨quiet, sound, straight, unlinked.plain _, unlinked.linkFree _, unlinked.plain _, unlinked.linkFree _, apart,
    run_spares quiet sound straight (unlinked.plain _) (unlinked.linkFree _) (unlinked.plain _) (unlinked.linkFree _)
      apart⟩

end Run

end Unjar
