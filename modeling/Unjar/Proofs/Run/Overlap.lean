import Unjar.Proofs.Extract.Permutation
import Unjar.Proofs.Run.Tour
import Unjar.Proofs.Run.Turn
import Unjar.Proofs.Run.Workplace

/-!
Runs whose output root lies anywhere, also in the staging directory. Such a run ends all the same, and misses no file
that was unpacked. It may come to visit outputs of its own: those that it puts into directories that are still to be
listed.
-/

namespace Unjar

/-- The number of the files of which a run gives account. -/
def Summary.total (s : Summary) : Nat :=
  s.decompiled + s.copied + s.skipped

theorem Summary.total_record (s : Summary) (produced : Produced) : (s.record produced).total = s.total + 1 := by
  cases produced <;> simp only [record, total] <;> omega

namespace Run

open FileSystem ClassFile

variable {plan : Plan} {d : Decompiler} {staging : Path} {s o : Location} {origin fs : FileSystem}
  {names : List Bytes} {items done : List Walk.Item} {soFar after summary : Summary} {w w' unpacked u : World}

/-- The output of a file lands in a directory of the staged tree that is listed after the visit. -/
def Feeds (staging : Path) (s o : Location) (fs : FileSystem) (names : List Bytes) : Prop :=
  ∃ inside, o ++ productNames names = s ++ inside ∧ names < inside.dropLast ∧ fs.node? (s ++ inside) = none ∧
    isSynthetic (staging.descendant inside) = false

/-- Outputs that land beside the files that they are made from are put into directories that were listed before. -/
theorem not_feeds_of_same : ¬ Feeds staging s s fs names := by
  rintro ⟨inside, same, later, _⟩
  obtain rfl := List.append_cancel_left same
  rw [dropLast_productNames] at later
  exact List.not_lt.mpr (List.IsPrefix.le (List.dropLast_prefix names)) later

theorem not_feeds_of_apart (apart : Apart s o) : ¬ Feeds staging s o fs names := by
  rintro ⟨inside, same, _⟩
  exact apart.ne inside (productNames names) same.symm

/-- What is in the file system in the course of the visits: besides what was there, outputs of what was visited. -/
structure Stocked (plan : Plan) (staging : Path) (s o : Location) (origin : FileSystem) (done : List Walk.Item)
    (fs : FileSystem) : Prop where
  running : Running staging plan.out s o origin fs
  files : ∀ m node, fs.node? m = some node → node.isDirectory = false → origin.node? m = some node ∨
    ∃ names, AllNames names ∧ .ok (staging.descendant names) ∈ done ∧ m = o ++ productNames names

theorem Stocked.visit (stocked : Stocked plan staging s o origin done w.files) (quiet : d.Quiet)
    (valid : AllNames names) (down : names ≠ [])
    (ran : Run.visit plan d staging soFar (.ok (staging.descendant names)) w = .ok after w') :
    Stocked plan staging s o origin (done ++ [.ok (staging.descendant names)]) w'.files := by
  have running := ((ends_visit stocked.running quiet valid down soFar).of_ok ran).2.running
  obtain ⟨prepared, events, produced, made, produces, _⟩ := visit_cases valid down ran
  have validOut := allNames_productNames valid
  have downOut := productNames_ne_nil down
  obtain ⟨within, adds, _⟩ := stocked.running.within.prepare validOut made
  -- whatever is no directory was there before its directory was
  have before : ∀ m node, prepared.node? m = some node → node.isDirectory = false → origin.node? m = some node ∨
      ∃ other, AllNames other ∧ .ok (staging.descendant other) ∈ done ++ [.ok (staging.descendant names)] ∧
        m = o ++ productNames other := by
    intro m node there isFile
    refine (stocked.files m node (adds.other there isFile) isFile).imp_right ?_
    rintro ⟨other, validOther, member, place⟩
    exact ⟨other, validOther, List.mem_append_left _ member, place⟩
  refine ⟨running, fun m node there isFile => ?_⟩
  rcases produce_cases (w := { w with files := prepared, events }) within.sound quiet produces with
    ⟨_, _, same⟩ | ⟨absent, _, m', data, opening, _, put, _⟩
  · rw [same] at there
    exact before m node there isFile
  · obtain ⟨rfl, _⟩ := within.openToWrite_absent validOut downOut absent opening
    rw [put, node?_put] at there
    split at there
    · rename_i here
      exact Or.inr ⟨names, valid, by simp, here⟩
    · exact before m node there isFile

theorem Stocked.visits (stocked : Stocked plan staging s o origin done w.files) (quiet : d.Quiet)
    (proper : ∀ item ∈ items, Walk.Proper staging item)
    (ran : items.foldlM (Run.visit plan d staging) soFar w = .ok after w') :
    Stocked plan staging s o origin (done ++ items) w'.files := by
  induction items generalizing done soFar w with
  | nil =>
    cases ran
    rwa [List.append_nil]
  | cons item rest ih =>
    rw [List.foldlM_cons] at ran
    obtain ⟨b, w₁, first, others⟩ := Task.bind_ok ran
    rw [List.append_cons]
    refine ih ?_ (fun other member => proper other (List.mem_cons_of_mem _ member)) others
    cases item with
    | error e => exact absurd first (strict_visit _ _ _ _ _)
    | ok file =>
      obtain ⟨names, down, valid, rfl⟩ := proper _ List.mem_cons_self file rfl
      exact stocked.visit quiet valid down first

/-- Each visit that goes well is counted. -/
theorem total_of_visits (proper : ∀ item ∈ items, Walk.Proper staging item)
    (ran : items.foldlM (visit plan d staging) soFar w = .ok after w') : after.total = soFar.total + items.length := by
  induction items generalizing soFar w with
  | nil =>
    cases ran
    rfl
  | cons item rest ih =>
    rw [List.foldlM_cons] at ran
    obtain ⟨b, w₁, first, others⟩ := Task.bind_ok ran
    rw [ih (fun other member => proper other (List.mem_cons_of_mem _ member)) others, List.length_cons]
    cases item with
    | error e => exact absurd first (strict_visit _ _ _ _ _)
    | ok file =>
      obtain ⟨names, down, valid, rfl⟩ := proper _ List.mem_cons_self file rfl
      obtain ⟨_, _, produced, _, _, rfl⟩ := visit_cases valid down first
      rw [Summary.total_record]
      omega

/-- A run that ends before its walk, whatever the decompiler: with the error of unpacking the archive, or with that of
making the output root. -/
inductive Unwalked (plan : Plan) (staging : Path) (w : World) : Prop
  | extracting {cause : ExtractError} {w' : World} : extract plan.jar staging w = .error cause w' →
      (∀ d, runIn plan d staging w = .error (.extract cause) w') → Unwalked plan staging w
  | making {entries : Nat} {unpacked : World} {cause : Fault} {left : FileSystem} {w' : World} :
      extract plan.jar staging w = .ok entries unpacked →
      unpacked.files.makeDirectories plan.out = (.error cause, left) →
      (∀ d, runIn plan d staging w = .error (.map (.makeDirectory plan.out cause)) w') → w'.files = left →
      Unwalked plan staging w

/-- A run ends before its walk, whatever the decompiler, or gets to it. -/
theorem unwalked_or_atWalk (plan : Plan) (staging : Path) (w : World) :
    Unwalked plan staging w ∨ ∃ unpacked u, AtWalk plan staging w unpacked u := by
  cases extracted : extract plan.jar staging w with
  | error e w₁ => exact Or.inl (.extracting extracted fun d => by rw [runIn_run, extracted])
  | ok entries w₁ =>
    rcases made : w₁.files.makeDirectories plan.out with ⟨result, ready⟩
    cases result with
    | error fault =>
      refine Or.inl (@Unwalked.making plan staging w entries w₁ fault ready
        { w₁ with files := ready, events := w₁.events ++ [.unzipped entries staging] } extracted made (fun d => ?_) rfl)
      rw [runIn_run, extracted]
      simp only [afterExtraction, made]
    | ok _ =>
      obtain ⟨events, runs⟩ := runIn_eq_fold extracted made
      exact Or.inr ⟨w₁, { w₁ with files := ready, events }, ⟨entries, extracted⟩, made, runs⟩

theorem Unwalked.fails (unwalked : Unwalked plan staging w) (d : Decompiler) :
    ∃ e w', runIn plan d staging w = .error e w' := by
  cases unwalked with
  | extracting _ fails => exact ⟨_, _, fails d⟩
  | making _ _ fails _ => exact ⟨_, _, fails d⟩

/-- Without links both roots are reached when the walk begins, and none is below the output root. -/
theorem AtWalk.running (atWalk : AtWalk plan staging w unpacked u) (sound : w.files.Sound)
    (unlinked : w.files.LinkFree []) : ∃ s o, unpacked.files.Leads staging s ∧
      Running staging plan.out s o u.files u.files ∧ unpacked.files.AddsDirectories u.files fun _ => True := by
  obtain ⟨entries, extracted⟩ := atWalk.extracted
  obtain ⟨evolves, _, s, leads⟩ := Extract.leads_of_extract sound extracted
  have evolves' := Evolves.makeDirectories evolves.sound plan.out
  have adds := evolves.sound.makeDirectories_grow plan.out
  rw [atWalk.made] at evolves' adds
  obtain ⟨o, leadsOut⟩ := evolves.sound.leads_of_made atWalk.made
  have free : u.files.LinkFree o := by
    intro names target there
    rcases (evolves.trans evolves').ordinary _ _ there with before | isDirectory | isFile
    · exact unlinked _ target before
    · cases isDirectory
    · cases isFile
  exact ⟨s, o, leads, .start evolves'.sound (leads.mono adds.grows.keeps) leadsOut free, adds⟩

/-- Where a file comes from that is visited: it was staged when the walk began, or it is the output of a file that was
visited before, put into a directory that comes later. -/
theorem origin_of_met (running : Running staging plan.out s o u.files u.files) (quiet : d.Quiet) {front back : List Walk.Item}
    (split : Walk.met (visit plan d staging) pathMax staging {} u = front ++ .ok (staging.descendant names) :: back)
    (valid : AllNames names) : Walk.Visible u.files staging s names ∨
      ∃ earlier, AllNames earlier ∧ .ok (staging.descendant earlier) ∈ front ∧ earlier < names.dropLast ∧
        o ++ productNames earlier = s ++ names ∧ u.files.node? (s ++ names) = none ∧
        isSynthetic (staging.descendant names) = false := by
  have split' : Walk.met (visit plan d staging) pathMax (staging.descendant []) {} u =
      front ++ .ok (staging.descendant names) :: back := split
  obtain ⟨pre, post, b, v, more, rfl, passed, _, grows, validMore, ⟨_, failed⟩ | ⟨_, found, visible, later⟩⟩ :=
    (growing_visit plan quiet staging s).met_split allNames_nil running.rooted.top running.rooted split'
  · cases failed
  rw [List.nil_append] at validMore found visible later
  obtain rfl : names = more := Path.descendant_injective staging valid validMore (Except.ok.inj found)
  obtain ⟨down, ⟨node, there, isFile⟩, kept⟩ := visible
  cases before : u.files.node? (s ++ names) with
  | some node' =>
    obtain rfl : node' = node := Option.some.inj ((grows.kept before).symm.trans there)
    exact Or.inl ⟨down, ⟨node', before, isFile⟩, kept⟩
  | none =>
    -- what was not there was made by one of the visits before
    have proper : ∀ item ∈ pre, Walk.Proper staging item := by
      intro item member
      refine proper_met_visit plan running.rooted quiet item ?_
      rw [split]
      simp [member]
    have start : Stocked plan staging s o u.files [] u.files := ⟨running, fun _ _ there _ => Or.inl there⟩
    rcases (start.visits quiet proper passed).files _ node there isFile with same | ⟨earlier, validEarlier, member, place⟩
    · rw [before] at same
      cases same
    · rw [List.nil_append] at member
      exact Or.inr ⟨earlier, validEarlier, List.mem_append_left _ member, later _ validEarlier member, place.symm, rfl,
        kept⟩

/-- Where no output lands in a directory that is listed later, none is visited. -/
theorem visible_of_met (running : Running staging plan.out s o u.files u.files) (quiet : d.Quiet)
    (harmless : ∀ names, Walk.Visible u.files staging s names → ¬ Feeds staging s o u.files names) {front back : List Walk.Item}
    (split : Walk.met (visit plan d staging) pathMax staging {} u = front ++ .ok (staging.descendant names) :: back)
    (valid : AllNames names) : Walk.Visible u.files staging s names := by
  -- by induction on how much was visited before
  induction len : front.length using Nat.strong_induction_on generalizing front names back with
  | _ n ih =>
    rcases origin_of_met running quiet split valid with visible | ⟨earlier, validEarlier, member, later, lands, fresh, kept⟩
    · exact visible
    · obtain ⟨first, between, rfl⟩ := List.append_of_mem member
      rw [List.append_assoc, List.cons_append] at split
      have shorter : first.length < n := by
        rw [← len]
        simp
      exact absurd ⟨names, lands, later, fresh, kept⟩ (harmless earlier (ih _ shorter split validEarlier rfl))

/-- The depth of the walk of a run is no bound on it. -/
theorem fold_bounded (rooted : Rooted staging s u.files) (quiet : d.Quiet) (more : Nat) :
    Walk.below (visit plan d staging) (pathMax + more) staging {} u =
      Walk.below (visit plan d staging) pathMax staging {} u := by
  have long : pathMax ≤ pathMax - 1 + max 1 (staging.descendant []).text.length := by omega
  exact (growing_visit plan quiet staging s).below_bounded (a := {}) more allNames_nil rooted long

/-- Of all that is visited, every file was staged when the walk began. -/
def OnlyStaged (plan : Plan) (d : Decompiler) (staging : Path) (s : Location) (unpacked u : World) : Prop :=
  ∀ names, AllNames names → .ok (staging.descendant names) ∈ Walk.met (visit plan d staging) pathMax staging {} u →
    Walk.Visible unpacked.files staging s names

/-- What is visited once an archive is unpacked, and how it is accounted for. -/
structure Accounted (plan : Plan) (d : Decompiler) (staging : Path) (s o : Location) (unpacked u : World) : Prop where
  bounded : ∀ more, Walk.below (visit plan d staging) (pathMax + more) staging {} u =
    Walk.below (visit plan d staging) pathMax staging {} u
  visits : Walk.fold (visit plan d staging) staging {} u =
    (Walk.met (visit plan d staging) pathMax staging {} u).foldlM (visit plan d staging) {} u
  once : (Walk.met (visit plan d staging) pathMax staging {} u).Pairwise (Walk.Before staging)
  origin : ∀ front names back, AllNames names →
    Walk.met (visit plan d staging) pathMax staging {} u = front ++ .ok (staging.descendant names) :: back →
      Walk.Visible unpacked.files staging s names ∨ ∃ earlier, AllNames earlier ∧
        .ok (staging.descendant earlier) ∈ front ∧ earlier < names.dropLast ∧ o ++ productNames earlier = s ++ names ∧
        unpacked.files.node? (s ++ names) = none
  harmless : (∀ names, Walk.Visible unpacked.files staging s names → ¬ Feeds staging s o unpacked.files names) →
    OnlyStaged plan d staging s unpacked u
  complete : ∀ summary v, Walk.fold (visit plan d staging) staging {} u = .ok summary v → ∃ files : List (List Bytes),
    Walk.met (visit plan d staging) pathMax staging {} u = files.map (fun names => .ok (staging.descendant names)) ∧
      files.Pairwise (· < ·) ∧ summary.total = files.length ∧
      (∀ names, Walk.Visible unpacked.files staging s names → names ∈ files) ∧
      (OnlyStaged plan d staging s unpacked u → ∀ names ∈ files, Walk.Visible unpacked.files staging s names)

theorem accounted (running : Running staging plan.out s o u.files u.files) (quiet : d.Quiet)
    (adds : unpacked.files.AddsDirectories u.files fun _ => True) : Accounted plan d staging s o unpacked u := by
  have folds : Walk.fold (visit plan d staging) staging {} u = Walk.below (visit plan d staging) pathMax staging {} u :=
    Walk.fold_of_leads running.staged
  have unchanged : ∀ {m}, u.files.node? m = none → unpacked.files.node? m = none := by
    intro m vacant
    cases before : unpacked.files.node? m with
    | none => rfl
    | some node => rw [adds.kept before] at vacant; cases vacant
  refine ⟨fold_bounded running.rooted quiet, by rw [folds, Walk.below_eq_met], ?_, ?_, ?_, ?_⟩
  · exact (growing_visit plan quiet staging s).pairwise_met allNames_nil running.rooted.top running.rooted
  · intro front names back valid split
    rcases origin_of_met running quiet split valid with visible | ⟨earlier, validEarlier, member, later, lands, fresh, _⟩
    · exact Or.inl ((Walk.visible_of_adds adds).mp visible)
    · exact Or.inr ⟨earlier, validEarlier, member, later, lands, unchanged fresh⟩
  · intro harmless names valid member
    obtain ⟨front, back, split⟩ := List.append_of_mem member
    refine (Walk.visible_of_adds adds).mp (visible_of_met running quiet ?_ split valid)
    rintro other visible ⟨inside, lands, later, fresh, kept⟩
    exact harmless other ((Walk.visible_of_adds adds).mp visible) ⟨inside, lands, later, unchanged fresh, kept⟩
  · intro summary v ran
    obtain ⟨files, toured⟩ := toured running.rooted quiet ran
    refine ⟨files, toured.items, toured.sorted, ?_, fun names visible => ?_, fun only names member => ?_⟩
    · have proper := proper_met_visit plan running.rooted quiet
      rw [toured.items] at proper
      have total := total_of_visits proper toured.ran
      rw [List.length_map] at total
      exact total.trans (Nat.zero_add _)
    · exact toured.all names ((Walk.visible_of_adds adds).mpr visible)
    · refine only names (toured.valid names member).2 ?_
      rw [toured.items]
      exact List.mem_map_of_mem member

/-- Wherever the output root is, a run ends before its walk, with the error of unpacking the archive or of making the
output root, or its walk ends of itself and no file is visited twice. Each file that is visited was staged when the walk
began, or is the output of an earlier visit that was put into a directory further on; there is none of the latter where
no output of a staged file is put into such a directory, as in a run that writes into the staging directory itself or
apart from it. All that was staged is visited by a run that ends well, and its counts add up to the number of the files
that it visited. -/
theorem visits_accounted (plan : Plan) (staging : Path) (sound : w.files.Sound) (unlinked : w.files.LinkFree []) (quiet : d.Quiet) :
    Unwalked plan staging w ∨
      ∃ unpacked u s o, AtWalk plan staging w unpacked u ∧ unpacked.files.Leads staging s ∧ u.files.Leads plan.out o ∧
        Accounted plan d staging s o unpacked u ∧
        (o = s ∨ Apart s o → ∀ names, ¬ Feeds staging s o unpacked.files names) := by
  rcases unwalked_or_atWalk plan staging w with unwalked | ⟨unpacked, u, atWalk⟩
  · exact Or.inl unwalked
  · obtain ⟨s, o, leads, running, adds⟩ := atWalk.running sound unlinked
    refine Or.inr ⟨unpacked, u, s, o, atWalk, leads, running.within.leads, accounted running quiet adds, ?_⟩
    rintro (rfl | apart) names
    · exact not_feeds_of_same
    · exact not_feeds_of_apart apart

/-- A run that writes into a directory of the staged tree that comes after the staged files. -/
def Sample.nested : Plan := { jar := ⟨ascii "j"⟩, out := ⟨ascii "s/sub"⟩, naming := .perFile }

theorem visits_accounted_sample : Sample.world.files.Sound ∧ Sample.world.files.LinkFree [] ∧ Sample.answering.Quiet ∧
    (∃ w', runIn Sample.nested Sample.answering Sample.staging Sample.world = .ok { decompiled := 4, copied := 2 } w') ∧
    ∃ unpacked u s o, AtWalk Sample.nested Sample.staging Sample.world unpacked u ∧
      Accounted Sample.nested Sample.answering Sample.staging s o unpacked u := by
  have unlinked : Sample.world.files.Unlinked := by decide
  have quiet : Sample.answering.Quiet := Decompiler.quiet_ofAnswers _
  have ran : runIn Sample.nested Sample.answering Sample.staging Sample.world = .ok { decompiled := 4, copied := 2 } _ :=
    Task.ok_of_outcome (by decide +kernel)
  refine ⟨Sample.sound, unlinked.linkFree [], quiet, ⟨_, ran⟩, ?_⟩
  rcases visits_accounted Sample.nested Sample.staging Sample.sound (unlinked.linkFree []) quiet with
    unwalked | ⟨unpacked, u, s, o, atWalk, _, _, accounted, _⟩
  · obtain ⟨e, w', failed⟩ := unwalked.fails Sample.answering
    rw [failed] at ran
    cases ran
  · exact ⟨unpacked, u, s, o, atWalk, accounted⟩

/-- That run visits files that were not staged: it has three files to go through, and gives account of six. -/
theorem visits_accounted_nested :
    (∃ w', runIn Sample.nested Sample.answering Sample.staging Sample.world = .ok { decompiled := 4, copied := 2 } w') ∧
    ¬ ∃ unpacked u s, AtWalk Sample.nested Sample.staging Sample.world unpacked u ∧
      unpacked.files.Leads Sample.staging s ∧ OnlyStaged Sample.nested Sample.answering Sample.staging s unpacked u := by
  have unlinked : Sample.world.files.Unlinked := by decide
  have quiet : Sample.answering.Quiet := Decompiler.quiet_ofAnswers _
  have ran : runIn Sample.nested Sample.answering Sample.staging Sample.world = .ok { decompiled := 4, copied := 2 } _ :=
    Task.ok_of_outcome (by decide +kernel)
  refine ⟨⟨_, ran⟩, ?_⟩
  rintro ⟨unpacked, u, s, atWalk, leads, only⟩
  obtain ⟨s', o, leads', running, adds⟩ := atWalk.running Sample.sound (unlinked.linkFree [])
  obtain rfl := leads.unique leads'
  obtain ⟨entries, extracted⟩ := atWalk.extracted
  have extracted' : extract Sample.nested.jar Sample.staging Sample.world = .ok 3 _ :=
    Task.ok_of_outcome (by decide +kernel)
  rw [extracted'] at extracted
  cases extracted
  obtain rfl : s = [ascii "s"] := leads.unique ⟨by decide +kernel, by decide +kernel⟩
  rw [atWalk.runs] at ran
  cases walked : Walk.fold (visit Sample.nested Sample.answering Sample.staging) Sample.staging {} u with
  | error e v => rw [walked] at ran; cases ran
  | ok summary v =>
    rw [walked] at ran
    cases ran
    obtain ⟨files, _, sorted, total, _, staged⟩ := (accounted running quiet adds).complete _ v walked
    have three : files ⊆ [[ascii "A.class"], [ascii "B.class"], [ascii "c.txt"]] := by
      intro names member
      obtain ⟨down, ⟨node, there, isFile⟩, _⟩ := staged only names member
      have known := of_nodes (p := fun at' node => node.isDirectory = true ∨ at'.head? ≠ some (ascii "s") ∨
        at'.tail ∈ [[ascii "A.class"], [ascii "B.class"], [ascii "c.txt"]]) (by decide +kernel) there
      rcases known with isDirectory | elsewhere | listed
      · rw [isFile] at isDirectory
        cases isDirectory
      · exact absurd rfl elsewhere
      · exact listed
    have distinct : files.Nodup := by
      refine sorted.imp ?_
      rintro names _ less rfl
      exact List.lt_irrefl names less
    have few := (List.subperm_of_subset distinct three).length_le
    rw [← total] at few
    revert few
    decide

end Run

end Unjar
