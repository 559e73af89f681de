import Unjar.Proofs.FileSystem.Enclosing
import Unjar.Proofs.FileSystem.Making

/-!
The directories on the way to a directory. A path that leads to a directory leads to one wherever it is cut off, links
followed; its cleaned form leads to the same if no name in it is taken back; and making the directories of a path once
more does nothing.
-/

namespace Unjar.FileSystem

variable {fs fs' : FileSystem} {base p : Path} {l m : Location} {names : List Bytes}

/-- Before names that lead to something there is a directory. -/
theorem Sound.directory_of_finds (sound : fs.Sound) {purpose : Purpose} {links : Nat} (down : names ≠ [])
    (found : fs.Finds purpose (.taken m) links l (names.map .descend)) : fs.isDirectoryAt l = true := by
  obtain ⟨name, rest, rfl⟩ := List.exists_cons_of_ne_nil down
  have below : ∀ {node}, fs.node? (l ++ [name]) = some node → fs.isDirectoryAt l = true :=
    fun there => sound.parent l name (by rw [there]; rfl)
  cases found with
  | stays stays => simp at stays
  | enters _ there =>
    obtain ⟨mode, there⟩ := isDirectoryAt_iff.mp there
    exact below there
  | follows _ there | stops _ there => exact below there
  | vacant _ _ _ same | slashed _ _ same => cases same

theorem Leads.front (leads : fs.Leads (base.descendant names) m) (sound : fs.Sound) (valid : AllNames names) :
    ∃ l, fs.Leads base l := by
  by_cases top : names = []
  · subst top
    exact ⟨m, leads⟩
  · have found := (leads_iff.mp leads).1
    rw [start_descendant fs base valid, Path.way_descendant base valid] at found
    obtain ⟨left, l, before, behind⟩ := found.cut top
    exact ⟨l, leads_iff.mpr ⟨before, sound.directory_of_finds top behind⟩⟩

theorem Leads.of_trimmed (leads : fs.Leads base.trimmed l) : fs.Leads base l := by
  obtain ⟨anchored, idle, stays, way⟩ := base.way_trimmed
  obtain ⟨found, directory⟩ := leads_iff.mp leads
  rw [start, anchored] at found
  rw [leads_iff, way]
  exact ⟨found.append_idle stays directory, directory⟩

theorem Leads.of_enclosing (leads : fs.Leads (base.enclosing names) m) (sound : fs.Sound) (valid : AllNames names) :
    ∃ l, fs.Leads base l := by
  unfold Path.enclosing at leads
  split at leads
  · exact ⟨m, leads.of_trimmed⟩
  · exact leads.front sound valid.dropLast

/-- What was made is there: making it again changes nothing. -/
theorem Sound.makeDirectories_made (sound : fs.Sound) (made : fs.makeDirectories p = (.ok (), fs')) :
    fs'.makeDirectories p = (.ok (), fs') := by
  by_cases named : p.components = []
  · obtain ⟨l, leads⟩ := sound.leads_of_made made
    rw [leads.makeDirectories, Path.standing, if_pos named]
  · exact makeDirectories_of_isDirectory (sound.isDirectory_of_makeDirectories made named)

/-- The step that is made for a component. -/
def step? : Component → Option Step
  | .root | .here => none
  | .up => some .ascend
  | .name name => some (.descend name)

theorem thins_way (p : Path) : Thins p.way (p.inner.filterMap step?) := by
  unfold Path.way Path.inner
  induction p.segments with
  | nil => exact .nil
  | cons segment rest ih =>
    rw [List.filterMap_cons, List.filterMap_cons, Step.ofSegment?, Component.ofSegment?]
    by_cases blank : segment = []
    · simpa [blank] using ih
    by_cases isHere : segment = [dot]
    · simpa [isHere] using Thins.drop (Or.inl rfl) ih
    by_cases isUp : segment = [dot, dot]
    · simpa [isUp, step?] using Thins.keep .ascend ih
    · simpa [blank, isHere, isUp, step?] using Thins.keep (.descend segment) ih

theorem ascendBy_root (levels : Nat) : ascendBy levels [] = [] := by
  induction levels with
  | zero => rfl
  | succ levels ih => rw [ascendBy, ih, List.dropLast_nil]

/-- Where names come last, cleaning a path drops the steps up that are made at the root, and no others. -/
theorem cleaned_of_inner {levels : Nat} (inner : p.inner = List.replicate levels .up ++ names.map .name) :
    p.cleaned = ⟨if p.isAbsolute then .root else .above levels, names⟩ := by
  have atRoot : ∀ levels, (List.replicate levels Component.up).foldl Cleaned.push ⟨.root, []⟩ = ⟨.root, []⟩ := by
    intro levels
    induction levels with
    | zero => rfl
    | succ levels ih => exact ih
  have above : (List.replicate levels Component.up).foldl Cleaned.push ⟨.above 0, []⟩ = ⟨.above levels, []⟩ := by
    have pushed := Cleaned.foldl_push_components ⟨.above levels, []⟩
    rwa [Cleaned.components, List.map_nil, List.append_nil] at pushed
  rw [Path.cleaned, inner, List.foldl_append, Path.origin]
  split
  · rw [atRoot, Cleaned.foldl_push_names, List.nil_append]
  · rw [above, Cleaned.foldl_push_names, List.nil_append]

/-- Cleaning keeps where a path leads if its names come last. -/
theorem Leads.clean_of_straight (leads : fs.Leads p l) (straight : p.Straight) : fs.Leads p.clean l := by
  obtain ⟨rest, names, _, noName, inner⟩ := straight.inner
  have ups : rest = List.replicate rest.length .up := by
    refine List.eq_replicate_of_mem fun component member => ?_
    have inside : component ∈ p.inner := by rw [inner]; exact List.mem_append_left _ member
    rcases Path.inner_of_mem inside with isUp | ⟨name, rfl, _⟩
    · exact isUp
    · cases noName _ member
  generalize rest.length = levels at ups
  subst ups
  have valid := p.names_cleaned
  have walked := followLinks_ok.mpr ((leads_iff.mp leads).1.thinned (thins_way p))
  have steps : p.inner.filterMap step? = List.replicate levels .ascend ++ names.map .descend := by
    have descends : (names.map Component.name).filterMap step? = names.map .descend := by
      rw [List.filterMap_map, ← List.filterMap_eq_map]
      rfl
    rw [inner, List.filterMap_append, List.filterMap_replicate_of_some (rfl : step? .up = some .ascend), descends]
  rw [steps, followLinks_ascend, start] at walked
  refine ⟨?_, leads.directory⟩
  rw [Path.clean_eq, start]
  rw [cleaned_of_inner inner] at valid ⊢
  rw [Cleaned.path, Path.isAbsolute_descendant _ valid, Path.way_descendant _ valid]
  split at walked
  · rename_i absolute
    simp only [absolute, if_true]
    rw [ascendBy_root] at walked
    exact walked
  · rename_i relative
    simp only [relative, Bool.false_eq_true, if_false, Path.isAbsolute_above, Path.way_above, followLinks_ascend]
    exact walked

end Unjar.FileSystem
