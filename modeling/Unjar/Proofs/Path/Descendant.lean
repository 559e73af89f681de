import Mathlib.Data.List.Basic
import Mathlib.Data.List.Induction
import Unjar.Proofs.Path.Segments
import Unjar.FileSystem.Lookup
import Unjar.ClassFile.Output

/-!
The paths below a base. Each is the base with names joined to it, one after the other, and what a
path answers about itself is read off the base and the names.
-/

namespace Unjar

theorem Component.map_name_injective : Function.Injective (List.map Component.name) :=
  List.map_injective_iff.mpr fun _ _ same => Component.name.inj same

/-- The path that goes down from a base by names. -/
def Path.descendant (base : Path) (names : List Bytes) : Path :=
  names.foldl Path.child base

namespace Path

@[simp] theorem descendant_nil (base : Path) : base.descendant [] = base := rfl

theorem descendant_append (base : Path) (front back : List Bytes) :
    base.descendant (front ++ back) = (base.descendant front).descendant back :=
  List.foldl_append

theorem descendant_concat (base : Path) (names : List Bytes) (name : Bytes) :
    base.descendant (names ++ [name]) = (base.descendant names).child name :=
  descendant_append base names [name]

theorem isAbsolute_of_name {name : Bytes} (valid : IsName name) : (Path.mk name).isAbsolute = false := by
  cases name with
  | nil => rfl
  | cons octet rest =>
    have differs : octet ≠ slash := by
      intro same
      exact valid.2.2.2 (by rw [same]; exact List.mem_cons_self)
    simpa [isAbsolute] using differs

theorem segments_child (base : Path) {name : Bytes} (valid : IsName name) :
    (base.child name).segments = base.lead ++ [name] := by
  rw [child, segments_join (isAbsolute_of_name valid)]
  exact congrArg (base.lead ++ ·) (Bytes.splitOn_of_notMem valid.2.2.2)

theorem lead_child (base : Path) {name : Bytes} (valid : IsName name) :
    (base.child name).lead = base.lead ++ [name] := by
  rw [lead, segments_child base valid, if_neg]
  simp [valid.1]

theorem lead_descendant (base : Path) {names : List Bytes} (valid : AllNames names) :
    (base.descendant names).lead = base.lead ++ names := by
  induction names using List.reverseRecOn with
  | nil => simp
  | append_singleton names name ih =>
    rw [descendant_concat, lead_child _ (valid name (by simp)), ih valid.left, List.append_assoc]

theorem segments_descendant (base : Path) {names : List Bytes} (valid : AllNames names) (down : names ≠ []) :
    (base.descendant names).segments = base.lead ++ names := by
  obtain ⟨front, name, rfl⟩ := (List.eq_nil_or_concat' names).resolve_left down
  rw [descendant_concat, segments_child _ (valid name (by simp)), lead_descendant base valid.left,
    List.append_assoc]

/-- What is joined to the empty path is the path itself. -/
theorem text_descendant_empty {names : List Bytes} (valid : AllNames names) :
    ((Path.mk []).descendant names).text = Bytes.joinWith slash names := by
  by_cases none : names = []
  · rw [none]; rfl
  · rw [← joinWith_segments, segments_descendant _ valid none]
    rfl

theorem isAbsolute_child (base : Path) {name : Bytes} (valid : IsName name) :
    (base.child name).isAbsolute = base.isAbsolute :=
  isAbsolute_join (isAbsolute_of_name valid)

theorem isAbsolute_descendant (base : Path) {names : List Bytes} (valid : AllNames names) :
    (base.descendant names).isAbsolute = base.isAbsolute := by
  induction names using List.reverseRecOn with
  | nil => rfl
  | append_singleton names name ih =>
    rw [descendant_concat, isAbsolute_child _ (valid name (by simp)), ih valid.left]

theorem join_descendant_empty (base : Path) {names : List Bytes} (valid : AllNames names) (down : names ≠ []) :
    base.join ((Path.mk []).descendant names) = base.descendant names := by
  have relative : ((Path.mk []).descendant names).isAbsolute = false := isAbsolute_descendant _ valid
  apply ext_segments
  rw [segments_join relative, segments_descendant _ valid down, segments_descendant _ valid down]
  rfl

theorem anchor_of_name {name : Bytes} (valid : IsName name) : (Path.mk name).anchor = [] := by
  have alone : (Path.mk name).segments = [name] := Bytes.splitOn_of_notMem valid.2.2.2
  simp [anchor, isAbsolute_of_name valid, alone, valid.2.1]

theorem anchor_descendant (base : Path) {names : List Bytes} (valid : AllNames names) :
    (base.descendant names).anchor = base.anchor := by
  induction names using List.reverseRecOn with
  | nil => rfl
  | append_singleton names name ih =>
    rw [descendant_concat, child, anchor_join (anchor_of_name (valid name (by simp))), ih valid.left]

theorem filterMap_component_names {names : List Bytes} (valid : AllNames names) :
    names.filterMap Component.ofSegment? = names.map .name := by
  induction names with
  | nil => rfl
  | cons name rest ih =>
    rw [List.filterMap_cons, (valid name List.mem_cons_self).component,
      ih (valid.tail)]
    rfl

theorem components_descendant (base : Path) {names : List Bytes} (valid : AllNames names) :
    (base.descendant names).components = base.components ++ names.map .name := by
  by_cases none : names = []
  · rw [none]; simp
  · rw [components, anchor_descendant base valid, segments_descendant base valid none, List.filterMap_append,
      filterMap_lead base _ rfl, filterMap_component_names valid, components, List.append_assoc]

theorem descendant_injective (base : Path) {names names' : List Bytes} (valid : AllNames names)
    (valid' : AllNames names') (same : base.descendant names = base.descendant names') : names = names' := by
  have components := congrArg Path.components same
  rw [components_descendant base valid, components_descendant base valid'] at components
  exact Component.map_name_injective (List.append_cancel_left components)

/-- The steps of a path up to a slash at its end. -/
def way (p : Path) : List Step :=
  p.segments.filterMap Step.ofSegment?

/-- The step that a slash behind the last name adds. -/
def slashStep (slashed : Bool) : List Step :=
  if slashed then [.slashEnd] else []

theorem eq_slashEnd_of_mem {slashed : Bool} {step : Step} (member : step ∈ slashStep slashed) : step = .slashEnd := by
  cases slashed with
  | false => cases member
  | true => exact List.mem_singleton.mp member

theorem steps_eq_way (p : Path) : ∃ slashed, p.steps = p.way ++ slashStep slashed :=
  ⟨decide (p.segments.getLast? = some []), by simp [steps, way, slashStep]⟩

theorem filterMap_step_names {names : List Bytes} (valid : AllNames names) :
    names.filterMap Step.ofSegment? = names.map .descend := by
  induction names with
  | nil => rfl
  | cons name rest ih =>
    obtain ⟨some, notHere, notUp, _⟩ := valid name List.mem_cons_self
    rw [List.filterMap_cons, ih (valid.tail)]
    simp [Step.ofSegment?, some, notHere, notUp]

theorem way_descendant (base : Path) {names : List Bytes} (valid : AllNames names) :
    (base.descendant names).way = base.way ++ names.map .descend := by
  by_cases top : names = []
  · rw [top, descendant_nil, List.map_nil, List.append_nil]
  · rw [way, segments_descendant base valid top, List.filterMap_append, filterMap_lead base _ rfl,
      filterMap_step_names valid]
    rfl

theorem steps_descendant (base : Path) {names : List Bytes} (valid : AllNames names) (down : names ≠ []) :
    (base.descendant names).steps = base.way ++ names.map .descend := by
  obtain ⟨front, name, rfl⟩ := (List.eq_nil_or_concat' names).resolve_left down
  have last : (base.lead ++ (front ++ [name])).getLast? ≠ some [] := by
    simpa using (valid name (by simp)).1
  rw [steps, segments_descendant base valid down, if_neg last, List.filterMap_append, filterMap_lead base _ rfl,
    filterMap_step_names valid, List.append_nil]
  rfl

theorem text_ne_nil_descendant (base : Path) {names : List Bytes} (valid : AllNames names) (down : names ≠ []) :
    (base.descendant names).text ≠ [] := by
  intro empty
  have bare := (lead_eq_nil_iff _).mpr empty
  rw [lead_descendant base valid] at bare
  exact down (List.append_eq_nil_iff.mp bare).2

theorem fileName_descendant (base : Path) {names : List Bytes} {name : Bytes} (valid : AllNames (names ++ [name])) :
    (base.descendant (names ++ [name])).fileName = some name := by
  rw [fileName, components_descendant base valid]
  simp

/-- Nothing is trimmed off segments that end in more than noise. -/
theorem trimEnd_of_loud (front : List Bytes) {segment : Bytes} (loud : isNoise segment = false) :
    trimEnd (front ++ [segment]) = front ++ [segment] := by
  cases front with
  | nil => rfl
  | cons first body => simp [trimEnd, loud]

theorem trimEnd_concat (front : List Bytes) {name : Bytes} (valid : IsName name) :
    trimEnd (front ++ [name]) = front ++ [name] :=
  trimEnd_of_loud front valid.not_noise

/-- The parent of a path that is joined to a base by one name: the base without what follows its last
component. -/
def trimmed (base : Path) : Path :=
  if base.lead = [] then ⟨[]⟩ else ofSegments base.isAbsolute (trimEnd base.lead)

theorem parent_child (base : Path) {name : Bytes} (valid : IsName name) :
    (base.child name).parent = some base.trimmed := by
  have components := components_descendant base (AllNames.singleton valid)
  rw [parent, show (base.child name).components = base.components ++ [.name name] from components,
    List.getLast?_concat, segments_child base valid, trimEnd_concat _ valid]
  simp only [List.dropLast_concat, isAbsolute_child base valid, trimmed]
  by_cases bare : base.lead = []
  · simp [bare]
  · have long : ¬ (base.lead ++ [name]).length ≤ 1 := by
      have positive := List.length_pos_iff.mpr bare
      rw [List.length_append, List.length_singleton]
      omega
    rw [if_neg long, if_neg bare]

/-- Behind a name there is nothing to trim. -/
theorem trimmed_child (base : Path) {name : Bytes} (valid : IsName name) :
    (base.child name).trimmed = base.child name := by
  have some : base.lead ++ [name] ≠ [] := by simp
  have notRoot : base.lead ++ [name] ≠ [[]] := by
    intro same
    have last := congrArg List.getLast? same
    rw [List.getLast?_concat] at last
    exact valid.1 (Option.some.inj last)
  apply ext_segments
  rw [trimmed, lead_child base valid, if_neg some, trimEnd_concat _ valid, ofSegments,
    if_neg (fun both => notRoot both.2), ← segments_child base valid, joinWith_segments]

theorem parent_descendant (base : Path) {names : List Bytes} {name : Bytes}
    (valid : AllNames (names ++ [name])) (down : names ≠ []) :
    (base.descendant (names ++ [name])).parent = Option.some (base.descendant names) := by
  obtain ⟨front, last, rfl⟩ := (List.eq_nil_or_concat' names).resolve_left down
  rw [descendant_concat, parent_child _ (valid name (by simp)), descendant_concat,
    trimmed_child _ (valid last (by simp))]

/-- The directory that a path below a base is in. -/
def enclosing (base : Path) (names : List Bytes) : Path :=
  if names.dropLast = [] then base.trimmed else base.descendant names.dropLast

theorem parent_eq_enclosing (base : Path) {names : List Bytes} (valid : AllNames names) (down : names ≠ []) :
    (base.descendant names).parent = some (base.enclosing names) := by
  obtain ⟨front, name, rfl⟩ := (List.eq_nil_or_concat' names).resolve_left down
  rw [enclosing, List.dropLast_concat]
  split
  · rename_i top
    subst top
    exact parent_child base (valid name (by simp))
  · rename_i deep
    exact parent_descendant base valid deep

theorem setExtension_descendant (base : Path) {names : List Bytes} {name : Bytes} (extension : Bytes)
    (valid : AllNames (names ++ [name])) (changed : IsName (withEnding (splitName name).1 extension)) :
    (base.descendant (names ++ [name])).setExtension extension =
      base.descendant (names ++ [withEnding (splitName name).1 extension]) := by
  have last : IsName name := valid name (by simp)
  have stem : (base.descendant (names ++ [name])).stem = some (splitName name).1 := by
    rw [Path.stem, fileName_descendant base valid]; rfl
  apply ext_segments
  rw [setExtension, stem, segments_descendant base valid (by simp), ← List.append_assoc, trimEnd_concat _ last,
    List.dropLast_concat, segments_descendant base (valid.left.append (.singleton changed)) (by simp),
    ← List.append_assoc]
  apply segments_joinWith (by simp)
  intro piece member
  rcases List.mem_append.mp member with inFront | isLast
  · rcases List.mem_append.mp inFront with inLead | inNames
    · exact slash_notMem_lead inLead
    · exact (valid piece (List.mem_append_left _ inNames)).2.2.2
  · rw [List.mem_singleton.mp isLast]
    exact changed.2.2.2

end Path

end Unjar
