import Unjar.Proofs.Run.Tour
import Unjar.Proofs.Run.Workplace

/-!
Whether the output of a visited file is there after a run. It is a file then, unless something else was in its place:
the visit takes whatever it finds there for the output, and nothing of a run takes anything away.
-/

namespace Unjar

namespace FileSystem

variable {fs fs' : FileSystem} {p : Path}

/-- Something other than a file is in the place. -/
def Blocked (fs : FileSystem) (p : Path) : Prop :=
  fs.has p = true ∧ fs.isFile p = false

theorem Grows.isFile_eq (grows : fs.Grows fs') (there : fs.has p = true) : fs'.isFile p = fs.isFile p := by
  obtain ⟨node, stands⟩ := Option.isSome_iff_exists.mp there
  rw [isFile, isFile, grows.stat? stands, stands]

end FileSystem

namespace Run

open FileSystem ClassFile

variable {plan : Plan} {d : Decompiler} {staging file out : Path} {s : Location} {name : Bytes} {names : List Bytes}
  {produced : Produced} {summary : Summary} {w w' : World}

/-- Whatever was at the path of an output that is made, there is something there; it is a file just if nothing else was
there. -/
theorem isFile_of_produce (sound : w.files.Sound) (quiet : d.Quiet) (ran : produce d file name out w = .ok produced w') :
    w'.files.has out = true ∧ (w'.files.isFile out = true ↔ ¬ w.files.Blocked out) ∧
      (produced = .skipped ↔ w.files.has out = true) := by
  rcases produce_cases sound quiet ran with ⟨there, rfl, same⟩ | ⟨absent, made, m, data, _, _, put, leads⟩
  · rw [same, Blocked, there]
    simp
  · have stands : w'.files.stat? out = some (.file fileMode data) := by
      rw [FileSystem.stat?, leads, put]
      simp only [node?_put, if_true]
    have isFile : w'.files.isFile out = true := by rw [FileSystem.isFile, stands]; rfl
    refine ⟨by rw [FileSystem.has, stands]; rfl, ⟨fun _ blocked => ?_, fun _ => isFile⟩, ⟨fun same => absurd same made, ?_⟩⟩
    · rw [blocked.1] at absent
      cases absent
    · rw [absent]
      rintro ⟨⟩

/-- What the visit of a file finds when the files before it are visited and the directory for its output is there, and
what it reports. -/
def Finds (plan : Plan) (d : Decompiler) (staging : Path) (u : World) (front : List (List Bytes)) (names : List Bytes)
    (found : FileSystem) (produced : Produced) : Prop :=
  ∃ soFar w w', (front.map fun names => Except.ok (staging.descendant names)).foldlM (visit plan d staging) {} u =
      .ok soFar w ∧
    w.files.makeDirectories (plan.out.enclosing (productNames names)) = (.ok (), found) ∧
    visit plan d staging soFar (.ok (staging.descendant names)) w = .ok (soFar.record produced) w'

/-- What a visit reports, and whether there is a file in the end, is settled by what it finds. -/
theorem Toured.finds {u v : World} {front back : List (List Bytes)}
    (toured : Toured plan d staging s u v summary (front ++ names :: back)) (sound : u.files.Sound) (quiet : d.Quiet) :
    ∃ found produced, Finds plan d staging u front names found produced ∧
      (v.files.isFile (plan.out.descendant (productNames names)) = true ↔
        ¬ found.Blocked (plan.out.descendant (productNames names))) ∧
      (produced = .skipped ↔ found.has (plan.out.descendant (productNames names)) = true) := by
  obtain ⟨soFar, after, w, w', before, visited, later⟩ := toured.turn
  have validFront : ∀ other ∈ front, other ≠ [] ∧ AllNames other := fun other member =>
    toured.valid other (List.mem_append_left _ member)
  have validBack : ∀ other ∈ back, other ≠ [] ∧ AllNames other := fun other member =>
    toured.valid other (List.mem_append_right _ (List.mem_cons_of_mem _ member))
  obtain ⟨down, valid⟩ := toured.valid names (by simp)
  obtain ⟨soundBefore, _⟩ := visits_grow quiet validFront sound before
  obtain ⟨found, events, produced, made, done, rfl⟩ := visit_cases valid down visited
  have soundFound := (Evolves.makeDirectories soundBefore (plan.out.enclosing (productNames names))).sound
  rw [made] at soundFound
  obtain ⟨there, isFile, skipped⟩ :=
    isFile_of_produce (w := { w with files := found, events }) soundFound quiet done
  obtain ⟨soundAfter, _⟩ := visit_grows soundBefore quiet valid down visited
  obtain ⟨_, grows⟩ := visits_grow quiet validBack soundAfter later
  refine ⟨found, produced, ⟨soFar, w, w', before, made, visited⟩, ?_, skipped⟩
  rw [grows.isFile_eq there]
  exact isFile

/-- An output that is reported is a file, and so is that of every visited file after a run that ended well, exactly
where nothing other than a file was found in its place. What is found there is reported as skipped, whatever it is. -/
theorem outputs_there (sound : w.files.Sound) (quiet : d.Quiet) :
    (∀ file name out produced w', produce d file name out w = .ok produced w' →
      (w'.files.isFile out = true ↔ ¬ w.files.Blocked out)) ∧
    ∀ plan staging summary w', runIn plan d staging w = .ok summary w' → ∃ s unpacked u v met,
      AtWalk plan staging w unpacked u ∧ Toured plan d staging s u v summary met ∧ w'.files = v.files ∧
        ∀ front names back, met = front ++ names :: back → ∃ found produced,
          Finds plan d staging u front names found produced ∧
          (w'.files.isFile (plan.out.descendant (productNames names)) = true ↔
            ¬ found.Blocked (plan.out.descendant (productNames names))) ∧
          (produced = .skipped ↔ found.has (plan.out.descendant (productNames names)) = true) := by
  constructor
  · intro file name out produced w' ran
    exact (isFile_of_produce sound quiet ran).2.1
  · intro plan staging summary w' ran
    obtain ⟨unpacked, u, atWalk⟩ := atWalk_of_ok ran
    obtain ⟨s, rooted⟩ := atWalk.rooted sound
    rw [atWalk.runs] at ran
    cases walked : Walk.fold (visit plan d staging) staging {} u with
    | error e v => rw [walked] at ran; cases ran
    | ok summary' v =>
      rw [walked] at ran
      cases ran
      obtain ⟨met, toured⟩ := toured rooted quiet walked
      refine ⟨s, unpacked, u, v, met, atWalk, toured, rfl, ?_⟩
      rintro front names back rfl
      exact toured.finds rooted.sound quiet

/-- A place to work in where a directory has the name of one of the outputs. -/
def Sample.occupied : World :=
  { files :=
    { nodes := [([], .directory 0o755), ([ascii "j"], .file 0o644 jar), ([ascii "o"], .directory 0o755),
        ([ascii "o", ascii "A.java"], .directory 0o755)]
      here := [] } }

theorem outputs_there_sample : Sample.occupied.files.Sound ∧ Sample.answering.Quiet ∧
    (∃ w', produce Sample.answering ⟨ascii "s/A.class"⟩ (ascii "A") ⟨ascii "o/A.java"⟩ Sample.occupied = .ok .skipped w' ∧
      w'.files.isFile ⟨ascii "o/A.java"⟩ = false) ∧
    ∃ w', runIn Sample.plan Sample.answering Sample.staging Sample.occupied =
        .ok { decompiled := 1, copied := 1, skipped := 1 } w' ∧
      ∃ s unpacked u v met, AtWalk Sample.plan Sample.staging Sample.occupied unpacked u ∧
        Toured Sample.plan Sample.answering Sample.staging s u v { decompiled := 1, copied := 1, skipped := 1 } met ∧
        ∀ front names back, met = front ++ names :: back → ∃ found produced,
          Finds Sample.plan Sample.answering Sample.staging u front names found produced ∧
          (w'.files.isFile (Sample.plan.out.descendant (productNames names)) = true ↔
            ¬ found.Blocked (Sample.plan.out.descendant (productNames names))) := by
  have sound : Sample.occupied.files.Sound := .of_nodes (by decide +kernel) (by decide) (by decide) (by decide)
  have quiet : Sample.answering.Quiet := Decompiler.quiet_ofAnswers _
  have made : produce Sample.answering ⟨ascii "s/A.class"⟩ (ascii "A") ⟨ascii "o/A.java"⟩ Sample.occupied =
    .ok .skipped _ := Task.ok_of_outcome (by decide +kernel)
  have ran : runIn Sample.plan Sample.answering Sample.staging Sample.occupied =
    .ok { decompiled := 1, copied := 1, skipped := 1 } _ := Task.ok_of_outcome (by decide +kernel)
  obtain ⟨outputs, runs⟩ := outputs_there sound quiet
  have blocked : Sample.occupied.files.Blocked ⟨ascii "o/A.java"⟩ := ⟨by decide +kernel, by decide +kernel⟩
  obtain ⟨s, unpacked, u, v, met, atWalk, toured, _, each⟩ := runs _ _ _ _ ran
  refine ⟨sound, quiet, ⟨_, made, ?_⟩, _, ran, s, unpacked, u, v, met, atWalk, toured, fun front names back split => ?_⟩
  · exact Bool.eq_false_iff.mpr fun isFile => (outputs _ _ _ _ _ made).mp isFile blocked
  · obtain ⟨found, produced, finds, isFile, _⟩ := each front names back split
    exact ⟨found, produced, finds, isFile⟩

end Run

end Unjar
