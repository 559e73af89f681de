import Unjar.Proofs.Extract.Frame
import Unjar.Proofs.FileSystem.Creation
import Unjar.Proofs.Run.Stages
import Unjar.Proofs.Walk.Course

/-!
The visits of a run, wherever links lead and whatever lies in what. A run goes through the files in the order of their
names, and each visit adds to the file system, also to the tree that is walked.
-/

namespace Unjar

namespace Run

open FileSystem ClassFile

variable {plan : Plan} {d : Decompiler} {staging file out : Path} {s : Location} {name : Bytes} {names : List Bytes}
  {produced : Produced} {soFar after summary : Summary} {u v w w' : World}

/-- What is done for an output when it is made: nothing where something was found, and a new file where nothing was. -/
theorem produce_cases (sound : w.files.Sound) (quiet : d.Quiet) (ran : produce d file name out w = .ok produced w') :
    w.files.has out = true ∧ produced = .skipped ∧ w'.files = w.files ∨
      w.files.has out = false ∧ produced ≠ .skipped ∧ ∃ m data,
        w.files.openToWrite out = .ok (m, w.files.put m (.file fileMode [])) ∧ w.files.node? m = none ∧
        w'.files = w.files.put m (.file fileMode data) ∧ w'.files.locate .use out = .ok m := by
  -- in either case a file is opened where nothing was found, and filled
  have filled : ∀ {m opened data}, w.files.has out = false → w.files.openToWrite out = .ok (m, opened) →
      ∃ m' data', w.files.openToWrite out = .ok (m', w.files.put m' (.file fileMode [])) ∧ w.files.node? m' = none ∧
        opened.fill m data = w.files.put m' (.file fileMode data') ∧ (opened.fill m data).locate .use out = .ok m' := by
    intro m opened data absent opening
    obtain ⟨vacant, rfl, leads⟩ := sound.openToWrite_absent absent opening
    exact ⟨m, data, opening, vacant, fill_new _ _ _, by rw [fill_new]; exact leads data⟩
  cases produces_iff.mp ran with
  | skipped there => exact Or.inl ⟨there, rfl, rfl⟩
  | decompiled absent _ answered wrote =>
    obtain ⟨_, _, _, _, sameFiles, _⟩ := ask_ok quiet answered
    rw [sameFiles] at wrote
    obtain ⟨m, opened, opening, rfl⟩ := writeFile_ok wrote
    exact Or.inr ⟨absent, by simp, filled absent opening⟩
  | copied absent _ copied =>
    obtain ⟨_, m, opened, data, _, opening, _, rfl⟩ := (copyFile_ok absent).mp copied
    exact Or.inr ⟨absent, by simp, filled absent opening⟩

theorem produce_grows (sound : w.files.Sound) (quiet : d.Quiet) (ran : produce d file name out w = .ok produced w') :
    w'.files.Sound ∧ w.files.Grows w'.files := by
  rcases produce_cases sound quiet ran with ⟨_, _, same⟩ | ⟨_, _, m, data, opening, vacant, put, _⟩
  · rw [same]
    exact ⟨sound, .refl _⟩
  · have filled := (Evolves.fill (Evolves.openToWrite sound opening).sound m data).sound
    rw [fill_new, ← put] at filled
    refine ⟨filled, ?_⟩
    rw [put]
    exact .put vacant _

theorem visit_grows (sound : w.files.Sound) (quiet : d.Quiet) (valid : AllNames names) (down : names ≠ [])
    (ran : visit plan d staging soFar (.ok (staging.descendant names)) w = .ok after w') :
    w'.files.Sound ∧ w.files.Grows w'.files := by
  obtain ⟨prepared, events, produced, made, done, _⟩ := visit_cases valid down ran
  have soundMade := (Evolves.makeDirectories sound (plan.out.enclosing (productNames names))).sound
  have adds := sound.makeDirectories_grow (plan.out.enclosing (productNames names))
  rw [made] at soundMade adds
  obtain ⟨sound', grows⟩ := produce_grows (w := { w with files := prepared, events }) soundMade quiet done
  exact ⟨sound', adds.grows.trans grows⟩

/-- Whatever the output root is, the visits of a run let the tree grow. -/
theorem growing_visit (plan : Plan) (quiet : d.Quiet) (staging : Path) (s : Location) :
    Walk.Growing (visit plan d staging) staging s fun w => Rooted staging s w.files := by
  refine ⟨fun _ rooted => rooted, fun soFar item w after w' proper rooted ran => ?_⟩
  cases item with
  | error e => cases ran
  | ok file =>
    obtain ⟨names, down, valid, rfl⟩ := proper file rfl
    obtain ⟨sound, grows⟩ := visit_grows rooted.sound quiet valid down ran
    exact ⟨⟨sound, rooted.leads.mono grows.keeps⟩, grows⟩

theorem proper_met_visit (plan : Plan) (rooted : Rooted staging s u.files) (quiet : d.Quiet) :
    ∀ item ∈ Walk.met (visit plan d staging) pathMax staging {} u, Walk.Proper staging item :=
  (growing_visit plan quiet staging s).proper_met allNames_nil rooted

/-- A world in which the walk of a run begins: the archive is unpacked, and the output root is there. -/
structure AtWalk (plan : Plan) (staging : Path) (w unpacked u : World) : Prop where
  extracted : ∃ entries, extract plan.jar staging w = .ok entries unpacked
  made : unpacked.files.makeDirectories plan.out = (.ok (), u.files)
  runs : ∀ d, runIn plan d staging w = finish (Walk.fold (visit plan d staging) staging {} u)

/-- A run that ends well comes to its walk. -/
theorem atWalk_of_ok (ran : runIn plan d staging w = .ok summary w') :
    ∃ unpacked u, AtWalk plan staging w unpacked u := by
  obtain ⟨entries, w₁, ready, extracted, made⟩ := stages_of_walked (by rw [ran]; trivial)
  obtain ⟨events, runs⟩ := runIn_eq_fold extracted made
  exact ⟨w₁, { w₁ with files := ready, events }, ⟨entries, extracted⟩, made, runs⟩

/-- The staged tree can be walked then, whatever links are on the way to it. -/
theorem AtWalk.rooted {unpacked : World} (atWalk : AtWalk plan staging w unpacked u) (sound : w.files.Sound) :
    ∃ s, Rooted staging s u.files := by
  obtain ⟨entries, extracted⟩ := atWalk.extracted
  obtain ⟨evolves, _, s, leads⟩ := Extract.leads_of_extract sound extracted
  have evolves' := Evolves.makeDirectories evolves.sound plan.out
  rw [atWalk.made] at evolves'
  exact ⟨s, evolves'.sound, leads.mono evolves'.keeps⟩

/-- The visits of a walk that ended well, told by the names of the files. -/
structure Toured (plan : Plan) (d : Decompiler) (staging : Path) (s : Location) (u v : World) (summary : Summary)
    (met : List (List Bytes)) : Prop where
  items : Walk.met (visit plan d staging) pathMax staging {} u = met.map fun names => .ok (staging.descendant names)
  valid : ∀ names ∈ met, names ≠ [] ∧ AllNames names
  sorted : met.Pairwise (· < ·)
  all : ∀ names, Walk.Visible u.files staging s names → names ∈ met
  ran : (met.map fun names => Except.ok (staging.descendant names)).foldlM (visit plan d staging) {} u = .ok summary v

theorem strict_visit (soFar : Summary) (e : WalkError) (w : World) (after : Summary) (w' : World) :
    visit plan d staging soFar (.error e) w ≠ .ok after w' := by
  rintro ⟨⟩

/-- Where visits end well, no directory was refused. -/
theorem ok_of_mem {items : List Walk.Item} (ran : items.foldlM (visit plan d staging) soFar w = .ok after w') :
    ∀ item ∈ items, ∃ file, item = .ok file := by
  intro item member
  obtain ⟨front, back, rfl⟩ := List.append_of_mem member
  rw [List.foldlM_append] at ran
  obtain ⟨b, w₁, _, ran⟩ := Task.bind_ok ran
  rw [List.foldlM_cons] at ran
  obtain ⟨c, w₂, visited, _⟩ := Task.bind_ok ran
  cases item with
  | error e => exact absurd visited (strict_visit _ _ _ _ _)
  | ok file => exact ⟨file, rfl⟩

theorem toured (rooted : Rooted staging s u.files) (quiet : d.Quiet)
    (ran : Walk.fold (visit plan d staging) staging {} u = .ok summary v) :
    ∃ met, Toured plan d staging s u v summary met := by
  have growing := growing_visit plan quiet staging s
  rw [Walk.fold_of_leads rooted.leads] at ran
  have folds := ran
  rw [Walk.below_eq_met] at folds
  have named : ∀ item ∈ Walk.met (visit plan d staging) pathMax staging {} u, ∃ names, names ≠ [] ∧ AllNames names ∧
      item = .ok (staging.descendant names) := by
    intro item member
    obtain ⟨file, rfl⟩ := ok_of_mem folds item member
    obtain ⟨names, down, valid, rfl⟩ := proper_met_visit plan rooted quiet _ member file rfl
    exact ⟨names, down, valid, rfl⟩
  choose! namesOf down valid found using named
  have items : Walk.met (visit plan d staging) pathMax staging {} u =
      ((Walk.met (visit plan d staging) pathMax staging {} u).map namesOf).map fun names =>
        .ok (staging.descendant names) := by
    rw [List.map_map]
    exact (List.map_id _).symm.trans (List.map_congr_left found)
  refine ⟨_, items, ?_, ?_, fun names visible => ?_, items ▸ folds⟩
  · intro names member
    obtain ⟨item, met, rfl⟩ := List.mem_map.mp member
    exact ⟨down item met, valid item met⟩
  · have sorted : (Walk.met (visit plan d staging) pathMax (staging.descendant []) {} u).Pairwise (Walk.Before staging) :=
      growing.pairwise_met allNames_nil rooted.top rooted
    refine List.pairwise_map.mpr (sorted.imp_of_mem fun firstMet secondMet before => ?_)
    exact before _ _ (valid _ firstMet) (valid _ secondMet) (found _ firstMet) (found _ secondMet)
  · obtain ⟨downNames, ⟨node, there, isFile⟩, kept⟩ := visible
    have validNames := (rooted.sound.names _ (by rw [there]; rfl)).1.right
    have member : .ok (staging.descendant ([] ++ names)) ∈
        Walk.met (visit plan d staging) pathMax (staging.descendant []) {} u :=
      growing.mem_met strict_visit downNames ⟨downNames, ⟨node, there, isFile⟩, kept⟩ rooted ran
    exact List.mem_map.mpr ⟨_, member,
      Path.descendant_injective staging (valid _ member) validNames (Except.ok.inj (found _ member)).symm⟩

/-- The visit of one of the files, between the visits before it and those after it. -/
theorem Toured.turn {front back : List (List Bytes)} (toured : Toured plan d staging s u v summary (front ++ names :: back)) :
    ∃ soFar after w w', (front.map fun names => Except.ok (staging.descendant names)).foldlM (visit plan d staging) {} u =
        .ok soFar w ∧ visit plan d staging soFar (.ok (staging.descendant names)) w = .ok after w' ∧
      (back.map fun names => Except.ok (staging.descendant names)).foldlM (visit plan d staging) after w' =
        .ok summary v := by
  have ran := toured.ran
  rw [List.map_append, List.map_cons, List.foldlM_append] at ran
  obtain ⟨soFar, w, before, ran⟩ := Task.bind_ok ran
  rw [List.foldlM_cons] at ran
  obtain ⟨after, w', visited, later⟩ := Task.bind_ok ran
  exact ⟨soFar, after, w, w', before, visited, later⟩

/-- What a row of visits keeps, each of which keeps it. -/
theorem visits_grow (quiet : d.Quiet) {met : List (List Bytes)} (valid : ∀ names ∈ met, names ≠ [] ∧ AllNames names)
    (sound : w.files.Sound)
    (ran : (met.map fun names => Except.ok (staging.descendant names)).foldlM (visit plan d staging) soFar w =
      .ok after w') : w'.files.Sound ∧ w.files.Grows w'.files := by
  induction met generalizing soFar w with
  | nil =>
    cases ran
    exact ⟨sound, .refl _⟩
  | cons names rest ih =>
    rw [List.map_cons, List.foldlM_cons] at ran
    obtain ⟨b, w₁, first, others⟩ := Task.bind_ok ran
    obtain ⟨down, validNames⟩ := valid names List.mem_cons_self
    obtain ⟨sound₁, grows⟩ := visit_grows sound quiet validNames down first
    obtain ⟨sound', grows'⟩ := ih (fun other member => valid other (List.mem_cons_of_mem _ member)) sound₁ others
    exact ⟨sound', grows.trans grows'⟩

end Run

end Unjar
