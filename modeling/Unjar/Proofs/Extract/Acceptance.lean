import Unjar.Extract
import Unjar.Proofs.Path.Confinement
import Unjar.Proofs.Path.Parent
import Unjar.Proofs.Task

/-!
Entry names read one segment at a time. Each segment leads one step on from where the name starts, and the
name is accepted just if the trail it ends with goes on behind the destination.
-/

namespace Unjar

namespace Path

/-- A trail of components after one more segment of an entry name. -/
def enter (trail : List Component) (segment : Bytes) : List Component :=
  if segment = [] ∨ segment = [dot] then trail
  else if segment = [dot, dot] then
    match trail.getLast? with
    | some (.name _) => trail.dropLast
    | some .root => trail
    | _ => trail ++ [.up]
  else trail ++ [.name segment]

/-- Where an entry name leads: from the root if it starts with a slash, and else from the destination. -/
def entryTrail (dest : Path) (name : Bytes) : List Component :=
  (ofEntryName name).segments.foldl enter
    (if (ofEntryName name).isAbsolute then [.root] else dest.clean.components)

/-- One trail goes on where another one ends. -/
def Extends (trail front : List Component) : Prop :=
  ∃ more, more ≠ [] ∧ trail = front ++ more

theorem pushClean_up (trail : List Component) :
    pushClean trail.reverse .up = (match trail.getLast? with
      | some (.name _) => trail.dropLast
      | some .root => trail
      | _ => trail ++ [Component.up]).reverse := by
  cases trail using List.reverseRecOn with
  | nil => rfl
  | append_singleton front last =>
    rw [List.reverse_concat, List.getLast?_concat, List.dropLast_concat]
    cases last <;> simp [pushClean]

theorem enter_eq (trail : List Component) (segment : Bytes) :
    (enter trail segment).reverse =
      match Component.ofSegment? segment with
      | none => trail.reverse
      | some component => pushClean trail.reverse component := by
  unfold enter Component.ofSegment?
  split_ifs with noise up
  · rfl
  · exact (pushClean_up trail).symm
  · exact List.reverse_concat

theorem foldl_enter (trail : List Component) (segments : List Bytes) :
    (segments.foldl enter trail).reverse =
      (segments.filterMap Component.ofSegment?).foldl pushClean trail.reverse := by
  induction segments generalizing trail with
  | nil => rfl
  | cons segment rest ih =>
    rw [List.foldl_cons, ih, enter_eq]
    cases found : Component.ofSegment? segment with
    | none => rw [List.filterMap_cons_none found]
    | some component => rw [List.filterMap_cons_some found, List.foldl_cons]

/-- From a cleaned path a trail is the form of the cleaned path it leads to. -/
theorem foldl_enter_cleaned (c : Cleaned) (p : Path) :
    p.segments.foldl enter c.components = (p.inner.foldl Cleaned.push c).components := by
  have folded := foldl_enter c.components p.segments
  rw [show p.segments.filterMap Component.ofSegment? = p.inner from rfl,
    Cleaned.foldl_pushClean c p.root_notMem_inner] at folded
  exact List.reverse_injective folded

theorem entryTrail_eq (dest : Path) (name : Bytes) :
    dest.entryTrail name = (dest.resolved name).cleaned.components := by
  rw [entryTrail, resolved, cleaned_clean]
  cases absolute : (ofEntryName name).isAbsolute with
  | true =>
    have joined : dest.clean.join (ofEntryName name) = ofEntryName name := by rw [join, if_pos absolute]
    rw [joined, cleaned, origin, if_pos absolute]
    exact foldl_enter_cleaned ⟨.root, []⟩ (ofEntryName name)
  | false =>
    rw [cleaned_join absolute, cleaned_clean, components_clean]
    exact foldl_enter_cleaned dest.cleaned (ofEntryName name)

theorem ofComponents_entryTrail (dest : Path) (name : Bytes) :
    ofComponents (dest.entryTrail name) = dest.resolved name := by
  rw [entryTrail_eq, ofComponents_cleaned (names_cleaned _), ← clean_eq, resolved, clean_eq, cleaned_clean, ← clean_eq]

theorem components_entryTrail (dest : Path) (name : Bytes) :
    (ofComponents (dest.entryTrail name)).components = dest.entryTrail name := by
  rw [ofComponents_entryTrail, components_resolved, entryTrail_eq]

/-- The guard lets a name through just if its trail goes on behind the destination. -/
theorem extends_iff (dest : Path) (name : Bytes) :
    Extends (dest.entryTrail name) dest.clean.components ↔
      ¬ ((dest.resolved name).Same dest.clean ∨ ¬ (dest.resolved name).startsWith dest.clean) := by
  have trail : (dest.resolved name).components = dest.entryTrail name := by
    rw [components_resolved, entryTrail_eq]
  rw [not_or, not_not, Same, startsWith, List.isPrefixOf_iff_prefix, trail]
  constructor
  · rintro ⟨more, some, split⟩
    rw [split]
    exact ⟨fun same => some (List.append_right_eq_self.mp same), List.prefix_append _ _⟩
  · rintro ⟨differs, more, split⟩
    refine ⟨more, ?_, split.symm⟩
    rintro rfl
    exact differs (by rw [← split, List.append_nil])

theorem resolveInside_of_extends {dest : Path} {name : Bytes}
    (goesOn : Extends (dest.entryTrail name) dest.clean.components) :
    dest.resolveInside name = .ok (ofComponents (dest.entryTrail name)) := by
  rw [resolveInside_eq, if_neg ((extends_iff dest name).mp goesOn), ofComponents_entryTrail]

theorem resolveInside_of_not_extends {dest : Path} {name : Bytes}
    (leaves : ¬ Extends (dest.entryTrail name) dest.clean.components) :
    dest.resolveInside name = .error (ofComponents (dest.entryTrail name)) := by
  rw [resolveInside_eq, if_pos (not_not.mp (mt (extends_iff dest name).mpr leaves)), ofComponents_entryTrail]

theorem accepted_iff (dest : Path) (name : Bytes) :
    (∃ p, dest.resolveInside name = .ok p) ↔ Extends (dest.entryTrail name) dest.clean.components := by
  refine ⟨fun ⟨p, accepted⟩ => ?_, fun goesOn => ⟨_, resolveInside_of_extends goesOn⟩⟩
  by_contra leaves
  rw [resolveInside_of_not_extends leaves] at accepted
  cases accepted

/-! Names that climb from the destination, or start at the root, and go down again. -/

/-- The entry name that goes up some levels and then down by names. -/
def climb (levels : Nat) (names : List Bytes) : Bytes :=
  Bytes.joinWith slash (List.replicate levels [dot, dot] ++ names)

theorem ofEntryName_of_notMem {name : Bytes} (clean : backslash ∉ name) : ofEntryName name = ⟨name⟩ :=
  congrArg Path.mk (Bytes.map_exchange_of_notMem clean)

theorem foldl_enter_names (trail : List Component) {names : List Bytes} (valid : AllNames names) :
    names.foldl enter trail = trail ++ names.map .name := by
  induction names generalizing trail with
  | nil => simp
  | cons name rest ih =>
    obtain ⟨some, notHere, notUp, _⟩ := valid name List.mem_cons_self
    have entered : enter trail name = trail ++ [.name name] := by simp [enter, some, notHere, notUp]
    rw [List.foldl_cons, entered, ih _ valid.tail, List.append_assoc]
    rfl

theorem foldl_enter_up (above : List Component) (last : List Bytes) :
    (List.replicate last.length [dot, dot]).foldl enter (above ++ last.map .name) = above := by
  induction last using List.reverseRecOn with
  | nil => simp
  | append_singleton front name ih =>
    have entered : enter (above ++ (front ++ [name]).map .name) [dot, dot] = above ++ front.map .name := by
      rw [List.map_append, ← List.append_assoc]
      simp [enter]
    rw [List.length_append, List.length_singleton, List.replicate_succ, List.foldl_cons, entered, ih]

theorem foldl_enter_joinWith (trail : List Component) {pieces : List Bytes} (clean : ∀ piece ∈ pieces, slash ∉ piece) :
    (Bytes.splitOn slash (Bytes.joinWith slash pieces)).foldl enter trail = pieces.foldl enter trail := by
  by_cases none : pieces = []
  · subst none
    rfl
  · rw [Bytes.splitOn_joinWith none clean]

theorem isAbsolute_joinWith {pieces : List Bytes} (clean : ∀ piece ∈ pieces, slash ∉ piece)
    (some : ∀ piece ∈ pieces, piece ≠ []) : (Path.mk (Bytes.joinWith slash pieces)).isAbsolute = false := by
  cases pieces with
  | nil => rfl
  | cons first rest =>
    rw [Bool.eq_false_iff]
    intro absolute
    obtain ⟨body, split⟩ := segments_of_absolute absolute
    rw [segments_joinWith (by simp) clean] at split
    exact some first List.mem_cons_self (List.cons.inj split).1

theorem entryTrail_climb {dest : Path} {above : List Component} {last names : List Bytes}
    (split : dest.clean.components = above ++ last.map .name) (valid : AllNames names)
    (clean : ∀ name ∈ names, backslash ∉ name) :
    dest.entryTrail (climb last.length names) = above ++ names.map .name := by
  have pieces : ∀ piece ∈ List.replicate last.length [dot, dot] ++ names,
      piece ≠ [] ∧ slash ∉ piece ∧ backslash ∉ piece := by
    intro piece member
    rcases List.mem_append.mp member with up | name
    · rw [List.eq_of_mem_replicate up]
      decide
    · exact ⟨(valid piece name).1, (valid piece name).2.2.2, clean piece name⟩
  have noSlash := fun piece member => (pieces piece member).2.1
  have relative := isAbsolute_joinWith noSlash fun piece member => (pieces piece member).1
  have spelled : ofEntryName (climb last.length names) = ⟨climb last.length names⟩ :=
    ofEntryName_of_notMem (Bytes.notMem_joinWith (by decide) fun piece member => (pieces piece member).2.2)
  rw [entryTrail, spelled, climb, relative, if_neg (by simp), segments, foldl_enter_joinWith _ noSlash,
    List.foldl_append, split, foldl_enter_up, foldl_enter_names _ valid]

theorem entryTrail_absolute (dest : Path) {names : List Bytes} (valid : AllNames names)
    (clean : ∀ name ∈ names, backslash ∉ name) :
    dest.entryTrail (slash :: Bytes.joinWith slash names) = .root :: names.map .name := by
  have noSlash : ∀ name ∈ names, slash ∉ name := fun name member => (valid name member).2.2.2
  have noBackslash : backslash ∉ slash :: Bytes.joinWith slash names :=
    List.not_mem_cons_of_ne_of_not_mem (by decide) (Bytes.notMem_joinWith (by decide) clean)
  have absolute : (Path.mk (slash :: Bytes.joinWith slash names)).isAbsolute = true := rfl
  have entered : enter [.root] [] = [.root] := rfl
  rw [entryTrail, ofEntryName_of_notMem noBackslash, if_pos absolute, segments, Bytes.splitOn, if_pos rfl,
    List.foldl_cons, entered, foldl_enter_joinWith _ noSlash, foldl_enter_names _ valid]
  rfl

theorem extends_names_iff (above : List Component) (last names : List Bytes) :
    Extends (above ++ names.map .name) (above ++ last.map .name) ↔ ∃ more, more ≠ [] ∧ names = last ++ more := by
  constructor
  · rintro ⟨tail, some, split⟩
    rw [List.append_assoc, List.append_cancel_left_eq] at split
    obtain ⟨front, more, rfl, atFront, rfl⟩ := List.map_eq_append_iff.mp split
    exact ⟨more, fun none => some (by rw [none]; rfl), by rw [Component.map_name_injective atFront]⟩
  · rintro ⟨more, some, rfl⟩
    exact ⟨more.map .name, by simpa using some, by rw [List.map_append, List.append_assoc]⟩

end Path

namespace Extract

open Unjar.Path

/-- The trail of an entry name decides. A name is accepted, with the path of its trail, just if the trail goes on
behind the destination, and an entry of any other name is refused for that path. So a name may climb out of the
destination, or start at the root, as long as it comes back in by the same names and goes on from there. -/
theorem entryTrail_decides (dest : Path) :
    (∀ name,
      (ofComponents (dest.entryTrail name)).components = dest.entryTrail name ∧
      (Extends (dest.entryTrail name) dest.clean.components →
        dest.resolveInside name = .ok (ofComponents (dest.entryTrail name))) ∧
      (¬ Extends (dest.entryTrail name) dest.clean.components →
        dest.resolveInside name = .error (ofComponents (dest.entryTrail name)) ∧
        ∀ jar index (r : Archive.Record) w image start, r.name = name → w.files.contents jar = .ok image →
          r.dataStart image = .ok start →
          entry jar dest index r w = .error (.pathEscape name (ofComponents (dest.entryTrail name))) w)) ∧
    (∀ above last names, dest.clean.components = above ++ last.map .name → AllNames names →
      (∀ name ∈ names, backslash ∉ name) →
      ((∃ p, dest.resolveInside (climb last.length names) = .ok p) ↔ ∃ more, more ≠ [] ∧ names = last ++ more)) ∧
    (∀ inside names, dest.clean.components = .root :: inside.map .name → AllNames names →
      (∀ name ∈ names, backslash ∉ name) →
      ((∃ p, dest.resolveInside (slash :: Bytes.joinWith slash names) = .ok p) ↔
        ∃ more, more ≠ [] ∧ names = inside ++ more)) := by
  refine ⟨fun name => ⟨components_entryTrail dest name, resolveInside_of_extends, fun leaves => ?_⟩, ?_, ?_⟩
  · have refused := resolveInside_of_not_extends leaves
    refine ⟨refused, ?_⟩
    rintro jar index r w image start rfl content found
    unfold entry
    rw [@Task.bind_of_ok _ _ _ _ _ w w start (Task.query_ok.mpr ⟨?_, rfl⟩), refused]
    · rfl
    · simp only [content, found, bind, Except.bind, Except.mapError]
  · intro above last names split valid clean
    rw [accepted_iff, entryTrail_climb split valid clean, split, extends_names_iff]
  · intro inside names split valid clean
    rw [accepted_iff, entryTrail_absolute dest valid clean, split]
    exact extends_names_iff [.root] inside names

theorem reentry_sample :
    (∃ p, (Path.mk (ascii "/tmp/cfr")).resolveInside (ascii "../cfr/Foo.class") = .ok p) ∧
      ∃ p, (Path.mk (ascii "/tmp/cfr")).resolveInside (ascii "/tmp/cfr/Foo.class") = .ok p := by
  obtain ⟨_, climbing, absolute⟩ := entryTrail_decides ⟨ascii "/tmp/cfr"⟩
  have up : ascii "../cfr/Foo.class" = climb 1 [ascii "cfr", ascii "Foo.class"] := by decide
  have root : ascii "/tmp/cfr/Foo.class" =
    slash :: Bytes.joinWith slash [ascii "tmp", ascii "cfr", ascii "Foo.class"] := by decide
  rw [up, root]
  exact ⟨(climbing [.root, .name (ascii "tmp")] [ascii "cfr"] _ (by decide +kernel) (by decide) (by decide)).mpr
      ⟨[ascii "Foo.class"], by simp, rfl⟩,
    (absolute [ascii "tmp", ascii "cfr"] _ (by decide +kernel) (by decide) (by decide)).mpr
      ⟨[ascii "Foo.class"], by simp, rfl⟩⟩

/-- A directory beside the destination is outside, also where its name begins with that of the destination. -/
example : (Path.mk (ascii "/tmp/cfr")).resolveInside (ascii "../cfr4/Foo.class") = .error ⟨ascii "/tmp/cfr4/Foo.class"⟩ := by
  decide +kernel

end Extract

end Unjar
