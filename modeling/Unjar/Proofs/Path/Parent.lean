import Mathlib.Data.List.TakeWhile
import Unjar.Proofs.Path.Descendant

/-!
The parent of a path, and the way to it: the way of the path itself, cut off before its last name.
-/

namespace Unjar

namespace Path

theorem front_of_trimEnd (segments : List Bytes) : trimEnd segments <+: segments := by
  cases segments with
  | nil => exact List.prefix_rfl
  | cons first body =>
    have kept : (body.reverse.dropWhile isNoise).reverse <+: body := by
      have suffix := List.reverse_prefix.mpr (List.dropWhile_suffix isNoise (l := body.reverse))
      rwa [List.reverse_reverse] at suffix
    exact (List.prefix_cons_inj first).mpr kept

theorem filterMap_noise {noise : List Bytes} (noisy : ∀ segment ∈ noise, isNoise segment = true) :
    noise.filterMap Component.ofSegment? = [] :=
  List.filterMap_eq_nil_iff.mpr fun segment member => (isNoise_iff segment).mp (noisy segment member)

/-- What is trimmed off is no component. -/
theorem filterMap_trimEnd (segments : List Bytes) :
    (trimEnd segments).filterMap Component.ofSegment? = segments.filterMap Component.ofSegment? := by
  cases segments with
  | nil => rfl
  | cons first body =>
    have noisy : ∀ segment ∈ (body.reverse.takeWhile isNoise).reverse, isNoise segment = true :=
      fun segment member => List.mem_takeWhile_imp (List.mem_reverse.mp member)
    have whole : body = (body.reverse.dropWhile isNoise).reverse ++ (body.reverse.takeWhile isNoise).reverse := by
      rw [← List.reverse_append, List.takeWhile_append_dropWhile, List.reverse_reverse]
    conv_rhs => rw [whole, ← List.cons_append, List.filterMap_append, filterMap_noise noisy, List.append_nil]
    rfl

theorem segments_of_absolute {p : Path} (absolute : p.isAbsolute = true) : ∃ body, p.segments = [] :: body := by
  obtain ⟨text⟩ := p
  cases text with
  | nil => cases absolute
  | cons octet rest =>
    have same : octet = slash := by simpa [isAbsolute] using absolute
    exact ⟨Bytes.splitOn slash rest, by rw [segments, Bytes.splitOn, if_pos same]⟩

theorem isAbsolute_of_segments {p : Path} {body : List Bytes} (split : p.segments = [] :: body)
    (more : body ≠ []) : p.isAbsolute = true := by
  have text := p.joinWith_segments
  rw [split, Bytes.joinWith_cons _ _ more] at text
  rw [isAbsolute, ← text]
  rfl

theorem segments_of_relative {p : Path} (relative : p.isAbsolute = false) (open' : p.text ≠ []) :
    ∃ first body, p.segments = first :: body ∧ first ≠ [] := by
  obtain ⟨first, body, split⟩ := List.exists_cons_of_ne_nil p.segments_ne_nil
  refine ⟨first, body, split, ?_⟩
  rintro rfl
  by_cases more : body = []
  · subst more
    have text := p.joinWith_segments
    rw [split] at text
    exact open' text.symm
  · rw [isAbsolute_of_segments split more] at relative
    cases relative

theorem segments_ofSegments {segments : List Bytes} (absolute : Bool) (some : segments ≠ [])
    (clean : ∀ segment ∈ segments, slash ∉ segment) :
    (ofSegments absolute segments).segments = segments ∨
      segments = [[]] ∧ (ofSegments absolute segments).segments = [[], []] := by
  unfold ofSegments
  split
  · rename_i both
    exact Or.inr ⟨both.2, by decide⟩
  · exact Or.inl (segments_joinWith some clean)

/-- What segments are put together to a path for is read off it again. -/
theorem filterMap_ofSegments {α : Type} {f : Bytes → Option α} (blank : f [] = none) {segments : List Bytes}
    (absolute : Bool) (some : segments ≠ []) (clean : ∀ segment ∈ segments, slash ∉ segment) :
    (ofSegments absolute segments).segments.filterMap f = segments.filterMap f := by
  rcases segments_ofSegments absolute some clean with same | ⟨bare, root⟩
  · rw [same]
  · rw [root, bare]
    simp [blank]

theorem head?_ofSegments {segments : List Bytes} (absolute : Bool) (some : segments ≠ [])
    (clean : ∀ segment ∈ segments, slash ∉ segment) :
    (ofSegments absolute segments).segments.head? = segments.head? := by
  rcases segments_ofSegments absolute some clean with same | ⟨bare, root⟩
  · rw [same]
  · rw [root, bare]
    rfl

theorem isAbsolute_ofSegments {p : Path} {segments : List Bytes} (some : p.text ≠ [])
    (heads : segments.head? = p.segments.head?) (clean : ∀ segment ∈ segments, slash ∉ segment) :
    (ofSegments p.isAbsolute segments).isAbsolute = p.isAbsolute := by
  have open' : segments ≠ [] := by
    rintro rfl
    obtain ⟨first, body, split⟩ := List.exists_cons_of_ne_nil p.segments_ne_nil
    rw [split] at heads
    cases heads
  cases absolute : p.isAbsolute with
  | true =>
    obtain ⟨body, split⟩ := segments_of_absolute absolute
    rw [split] at heads
    obtain ⟨rest, rfl⟩ := List.head?_eq_some_iff.mp heads
    by_cases more : rest = []
    · subst more; rfl
    · rcases segments_ofSegments true open' clean with same | ⟨bare, _⟩
      · exact isAbsolute_of_segments same more
      · exact absurd (List.cons.inj bare).2 more
  | false =>
    obtain ⟨first, body, split, nonempty⟩ := segments_of_relative absolute some
    rw [split] at heads
    obtain ⟨rest, rfl⟩ := List.head?_eq_some_iff.mp heads
    rw [Bool.eq_false_iff]
    intro turned
    obtain ⟨body', split'⟩ := segments_of_absolute turned
    rcases segments_ofSegments false open' clean with same | ⟨bare, _⟩
    · rw [same] at split'
      exact nonempty (List.cons.inj split').1
    · exact nonempty (List.cons.inj bare).1

/-- What is left of a path with a component behind the root is more than the root. -/
theorem trimEnd_of_absolute {p : Path} {last : Component} (absolute : p.isAbsolute = true)
    (atLast : p.components.getLast? = some last) (notRoot : last ≠ .root) : 1 < (trimEnd p.segments).length := by
  obtain ⟨body, split⟩ := segments_of_absolute absolute
  rw [components, anchor, if_pos absolute, split] at atLast
  rw [split, trimEnd, List.length_cons, List.length_reverse]
  cases kept : body.reverse.dropWhile isNoise with
  | cons => simp
  | nil =>
    exfalso
    have noise : ∀ segment ∈ ([] : Bytes) :: body, Component.ofSegment? segment = none := by
      intro segment member
      rcases List.mem_cons.mp member with rfl | inBody
      · rfl
      · rw [← isNoise_iff]
        exact List.dropWhile_eq_nil_iff.mp kept segment (List.mem_reverse.mpr inBody)
    rw [List.filterMap_eq_nil_iff.mpr noise] at atLast
    exact notRoot (by simpa using atLast.symm)

/-- The last of several segments that are left is no noise. -/
theorem getLast?_trimEnd {segments : List Bytes} (long : 1 < (trimEnd segments).length) :
    ∃ segment, (trimEnd segments).getLast? = some segment ∧ isNoise segment = false := by
  cases segments with
  | nil => simp [trimEnd] at long
  | cons first body =>
    have kept : body.reverse.dropWhile isNoise ≠ [] := by
      intro none
      simp [trimEnd, none] at long
    have loud := List.head_dropWhile_not isNoise kept
    refine ⟨(body.reverse.dropWhile isNoise).head kept, ?_, loud⟩
    rw [trimEnd, List.getLast?_cons, List.getLast?_reverse, List.head?_eq_some_head kept]
    rfl

theorem step_of_segment {segment : Bytes} (some : segment ≠ []) : ∃ step, Step.ofSegment? segment = Option.some step := by
  unfold Step.ofSegment?
  rw [if_neg some]
  split_ifs <;> exact ⟨_, rfl⟩

/-- What is left of the segments of a path for its parent, if more than one is left for the path itself. -/
theorem front_of_parent {p : Path} (long : 1 < (trimEnd p.segments).length) :
    trimEnd (trimEnd p.segments).dropLast <+: p.segments ∧
      (trimEnd (trimEnd p.segments).dropLast).head? = p.segments.head? := by
  refine ⟨(front_of_trimEnd _).trans ((List.dropLast_prefix _).trans (front_of_trimEnd _)), ?_⟩
  obtain ⟨first, body, split⟩ := List.exists_cons_of_ne_nil p.segments_ne_nil
  rw [split] at long ⊢
  cases kept : (body.reverse.dropWhile isNoise).reverse with
  | nil => simp [trimEnd, kept] at long
  | cons second more => simp [trimEnd, kept]

/-- How the parent of a path is spelled: as nothing, if a single segment is left of the path, and else with some of
the first segments of the path. -/
inductive Parent (p : Path) : Path → Prop
  | top : (trimEnd p.segments).length ≤ 1 → Parent p ⟨[]⟩
  | deep : 1 < (trimEnd p.segments).length → trimEnd (trimEnd p.segments).dropLast <+: p.segments →
      (trimEnd (trimEnd p.segments).dropLast).head? = p.segments.head? →
      trimEnd (trimEnd p.segments).dropLast ≠ [] → (∀ segment ∈ trimEnd (trimEnd p.segments).dropLast, slash ∉ segment) →
      Parent p (ofSegments p.isAbsolute (trimEnd (trimEnd p.segments).dropLast))

/-- Only what ends in a component other than the root has a parent. -/
theorem parent_ok {p q : Path} (isParent : p.parent = some q) :
    ∃ last, p.components.getLast? = some last ∧ last ≠ .root ∧ p.Parent q := by
  unfold parent at isParent
  split at isParent
  · cases isParent
  · cases isParent
  · rename_i last notRoot atLast
    refine ⟨last, atLast, notRoot, ?_⟩
    simp only at isParent
    split at isParent
    · rename_i short
      cases isParent
      exact .top short
    · rename_i long
      cases isParent
      have long := Nat.not_le.mp long
      obtain ⟨isFront, heads⟩ := front_of_parent long
      refine .deep long isFront heads (fun bare => ?_) fun segment member =>
        slash_notMem_segment (isFront.subset member)
      rw [bare, List.head?_nil, eq_comm, List.head?_eq_none_iff] at heads
      exact p.segments_ne_nil heads

/-- The parent of a path goes the same way, and less far. -/
theorem way_parent {p q : Path} (isParent : p.parent = some q) :
    q.way <+: p.way ∧ q.way ≠ p.way ∧ q.isAbsolute = p.isAbsolute := by
  obtain ⟨last, atLast, notRoot, spelled⟩ := parent_ok isParent
  have open' : p.text ≠ [] := by
    intro empty
    rw [(components_eq_nil_iff p).mpr empty] at atLast
    cases atLast
  cases spelled with
  | top short =>
    have relative : p.isAbsolute = false := by
      rw [Bool.eq_false_iff]
      intro absolute
      exact absurd (trimEnd_of_absolute absolute atLast notRoot) (by omega)
    refine ⟨List.nil_prefix, ?_, relative.symm⟩
    obtain ⟨first, body, split, nonempty⟩ := segments_of_relative relative open'
    obtain ⟨step, atFirst⟩ := step_of_segment nonempty
    rw [show (Path.mk []).way = [] from rfl, Path.way, split, List.filterMap_cons_some atFirst]
    exact fun same => List.cons_ne_nil _ _ same.symm
  | deep long isFront heads some clean =>
    have way : (ofSegments p.isAbsolute (trimEnd (trimEnd p.segments).dropLast)).way =
        (trimEnd (trimEnd p.segments).dropLast).filterMap Step.ofSegment? :=
      filterMap_ofSegments rfl p.isAbsolute some clean
    refine ⟨?_, ?_, isAbsolute_ofSegments open' heads clean⟩
    · rw [way]
      exact isFront.filterMap _
    · -- the step of the last segment that is left is not taken
      obtain ⟨segment, atEnd, loud⟩ := getLast?_trimEnd long
      have named : segment ≠ [] := by
        rintro rfl
        exact absurd loud (by decide)
      obtain ⟨step, taken⟩ := step_of_segment named
      obtain ⟨front, split⟩ := List.getLast?_eq_some_iff.mp atEnd
      have within := ((front_of_trimEnd (trimEnd p.segments).dropLast).filterMap Step.ofSegment?).length_le
      have whole := ((front_of_trimEnd p.segments).filterMap Step.ofSegment?).length_le
      rw [split, List.filterMap_append, List.length_append, List.filterMap_cons_some taken] at whole
      intro same
      rw [← way, same, split, List.dropLast_concat, Path.way] at within
      rw [List.length_cons] at whole
      omega

/-- The parent of a path has all of its components but the last. -/
theorem components_parent {p q : Path} (isParent : p.parent = some q) :
    ∃ last, p.components = q.components ++ [last] := by
  have anchored := (way_parent isParent).2.2
  have inner := filterMap_trimEnd p.segments
  obtain ⟨last, atLast, _, spelled⟩ := parent_ok isParent
  cases spelled with
  | top short =>
    obtain ⟨first, body, split⟩ := List.exists_cons_of_ne_nil p.segments_ne_nil
    have alone : trimEnd p.segments = [first] := by
      rw [split] at short ⊢
      simpa [trimEnd] using short
    have relative : p.isAbsolute = false := anchored.symm
    have empty : (Path.mk []).components = [] := rfl
    refine ⟨last, ?_⟩
    rw [components, ← inner, alone, anchor, relative, split] at atLast
    rw [components, ← inner, alone, anchor, relative, split, empty]
    by_cases isHere : first = [dot]
    · subst isHere
      exact congrArg (fun last => [last]) (Option.some.inj atLast)
    · cases found : Component.ofSegment? first <;> simp_all
  | deep long isFront heads some clean =>
    obtain ⟨segment, atEnd, loud⟩ := getLast?_trimEnd long
    obtain ⟨front, whole⟩ := List.getLast?_eq_some_iff.mp atEnd
    obtain ⟨component, found⟩ : ∃ component, Component.ofSegment? segment = Option.some component := by
      rw [← Option.ne_none_iff_exists', Ne, ← isNoise_iff, loud]
      simp
    refine ⟨component, ?_⟩
    rw [components, components, anchor, anchor, anchored, head?_ofSegments _ some clean, heads,
      filterMap_ofSegments rfl _ some clean, filterMap_trimEnd, ← inner, whole, List.dropLast_concat,
      List.filterMap_append, List.filterMap_cons_some found, List.append_assoc]
    rfl

end Path

end Unjar
