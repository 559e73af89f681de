import Unjar.Proofs.ClassFile.Product
import Unjar.Proofs.Text.Utf8

/-!
The name of a class, read off the names that lead to its file. A file has one if it ends in `.class`, all names are
UTF-8, and what is left of the last name without that ending is a name itself.
-/

namespace Unjar.ClassFile

variable {p : Path} {front parts rest : List Bytes} {name stem told : Bytes}

/-- The parts of a name lie below the directory of a release; the rest is the name of the class. -/
def Released (parts rest : List Bytes) : Prop :=
  ∃ release, parts = ascii "META-INF" :: ascii "versions" :: release :: rest ∧ rest ≠ [] ∧
    ∀ octet ∈ release, isDigit octet = true

theorem Released.dropRelease (released : Released parts rest) : dropRelease parts = rest := by
  obtain ⟨release, rfl, some, digits⟩ := released
  obtain ⟨part, more, rfl⟩ := List.exists_cons_of_ne_nil some
  rw [ClassFile.dropRelease, if_pos ⟨rfl, rfl, List.all_eq_true.mpr digits⟩]

theorem dropRelease_of_common (common : ∀ rest, ¬ Released parts rest) : dropRelease parts = parts := by
  unfold dropRelease
  split
  · rename_i first second release part rest
    split
    · rename_i special
      obtain ⟨rfl, rfl, digits⟩ := special
      exact absurd ⟨release, rfl, by simp, List.all_eq_true.mp digits⟩ (common (part :: rest))
    · rfl
  · rfl

theorem dropRelease_eq_iff : dropRelease parts = rest ↔
    Released parts rest ∨ (∀ rest, ¬ Released parts rest) ∧ rest = parts := by
  constructor
  · rintro rfl
    by_cases common : ∀ rest, ¬ Released parts rest
    · exact Or.inr ⟨common, dropRelease_of_common common⟩
    · obtain ⟨rest, released⟩ := not_forall_not.mp common
      rw [released.dropRelease]
      exact Or.inl released
  · rintro (released | ⟨common, rfl⟩)
    · exact released.dropRelease
    · exact dropRelease_of_common common

/-- The parts that are left are among those there were, and some are left. -/
theorem dropRelease_suffix (some : parts ≠ []) : dropRelease parts <:+ parts ∧ dropRelease parts ≠ [] := by
  rcases dropRelease_eq_iff.mp (rfl : dropRelease parts = dropRelease parts) with released | ⟨_, whole⟩
  · obtain ⟨release, split, left, _⟩ := released
    exact ⟨⟨[ascii "META-INF", ascii "versions", release], split.symm⟩, left⟩
  · rw [whole]
    exact ⟨List.suffix_rfl, some⟩

theorem nameParts?_eq_some_iff {names : List Bytes} :
    nameParts? (names.map .name) = some parts ↔ (∀ name ∈ names, Utf8.valid name = true) ∧ parts = names := by
  induction names generalizing parts with
  | nil =>
    rw [List.map_nil, nameParts?, Option.some_inj]
    exact ⟨fun same => ⟨List.forall_mem_nil _, same.symm⟩, fun both => both.2.symm⟩
  | cons name names ih =>
    rw [List.map_cons, nameParts?]
    by_cases valid : Utf8.valid name = true
    · rw [if_pos valid, Option.map_eq_some_iff]
      simp only [ih, List.forall_mem_cons, valid, true_and]
      constructor
      · rintro ⟨later, ⟨all, rfl⟩, rfl⟩
        exact ⟨all, rfl⟩
      · rintro ⟨all, rfl⟩
        exact ⟨names, ⟨all, rfl⟩, rfl⟩
    · rw [if_neg valid]
      simp [valid]

/-- A path that ends with a step up has no parts. -/
theorem nameParts?_up (init : List Component) : nameParts? (init ++ [.up]) = none := by
  induction init with
  | nil => rfl
  | cons component init ih =>
    cases component with
    | root | up => rfl
    | here => exact ih
    | name part =>
      rw [List.cons_append, nameParts?, ih]
      split <;> rfl

theorem valid_className : Utf8.valid (stem ++ dot :: classExtension) = Utf8.valid stem :=
  Utf8.valid_append_ascii (by decide +kernel) stem

/-- The parts of the name are the names that lead to the file, without the ending of the last one. -/
theorem derive_of_stem (spelled : p.components = (front ++ [stem ++ dot :: classExtension]).map .name)
    (named : IsName stem) : derive p = some told ↔ (∀ part ∈ front ++ [stem], Utf8.valid part = true) ∧
      told = Bytes.joinWith dot (dropRelease (front ++ [stem])) := by
  have split : p.components = front.map .name ++ [.name (stem ++ dot :: classExtension)] := by
    rw [spelled, List.map_append]
    rfl
  have ending : p.extension = some classExtension := by
    rw [Path.extension_of_components split, Path.splitName_append_dot named.1 (by decide)]
  have bare : (p.withExtension []).components = (front ++ [stem]).map .name := by
    rw [Path.components_withoutExtension split named (by decide), List.map_append]
    rfl
  rw [derive, if_pos ending, bare, Option.map_eq_some_iff]
  simp only [nameParts?_eq_some_iff]
  constructor
  · rintro ⟨parts, ⟨valid, rfl⟩, rfl⟩
    exact ⟨valid, rfl⟩
  · rintro ⟨valid, rfl⟩
    exact ⟨_, ⟨valid, rfl⟩, rfl⟩

/-- A file whose stem is one dot or two gets no name, unless something stands behind a single dot's ending. -/
theorem derive_of_dots {init : List Component} (split : p.components = init ++ [.name (stem ++ dot :: classExtension)])
    (dots : stem = [dot] ∧ p.segments.getLast? = some (stem ++ dot :: classExtension) ∨ stem = [dot, dot]) :
    derive p = none := by
  obtain ⟨before, ends, _⟩ := Path.ends_of_components split
  obtain ⟨init, up⟩ : ∃ init, (p.withExtension []).components = init ++ [.up] := by
    rcases dots with ⟨rfl, last⟩ | rfl
    · exact ends.withoutExtension_dot last (by decide)
    · exact ends.withoutExtension_dots (by decide)
  rw [derive, up, nameParts?_up, Option.map_none, ite_self]

/-- If something stands behind the ending of a single dot, the dot is lost, and the file is named like the directory
that it is in. -/
theorem derive_of_followed {init : List Component}
    (split : p.components = init ++ [.name (dot :: dot :: classExtension)])
    (followed : p.segments.getLast? ≠ some (dot :: dot :: classExtension)) :
    derive p = (nameParts? init).map fun parts => Bytes.joinWith dot (dropRelease parts) := by
  have ending : p.extension = some classExtension := by
    rw [Path.extension_of_components split]
    decide
  obtain ⟨before, ends, rfl⟩ := Path.ends_of_components split
  rw [derive, if_pos ending, ends.withoutExtension_followed followed (by decide) (by decide)]
  by_cases top : before = []
  · subst top
    rfl
  · rw [if_neg top]

theorem isName_of_split {init : List Component} (split : p.components = init ++ [.name (stem ++ dot :: classExtension)])
    (some : stem ≠ []) (notDot : stem ≠ [dot]) (notDots : stem ≠ [dot, dot]) : IsName stem :=
  ⟨some, notDot, notDots, fun member => (Path.isName_of_components split).2.2.2 (List.mem_append_left _ member)⟩

theorem isName_of_stem (spelled : p.components = (front ++ [stem ++ dot :: classExtension]).map .name)
    (some : stem ≠ []) (notDot : stem ≠ [dot]) (notDots : stem ≠ [dot, dot]) : IsName stem := by
  rw [List.map_append] at spelled
  exact isName_of_split spelled some notDot notDots

/-- A file that gets a name ends in `.class`, behind a stem that is a name. -/
theorem stem_of_derive (spelled : p.components = (front ++ [name]).map .name)
    (last : p.segments.getLast? = some name ∨ name ≠ dot :: dot :: classExtension) (named : derive p = some told) :
    ∃ stem, name = stem ++ dot :: classExtension ∧ IsName stem := by
  have split : p.components = front.map .name ++ [.name name] := by
    rw [spelled, List.map_append]
    rfl
  have ending : p.extension = some classExtension := by
    by_contra other
    rw [derive, if_neg other] at named
    cases named
  rw [Path.extension_of_components split, Path.splitName_eq_some_iff (by decide)] at ending
  obtain ⟨stem, some, rfl⟩ := ending
  refine ⟨stem, rfl, isName_of_stem spelled some ?_ ?_⟩
  · rintro rfl
    rw [derive_of_dots split (Or.inl ⟨rfl, last.resolve_right (not_not.mpr rfl)⟩)] at named
    cases named
  · rintro rfl
    rw [derive_of_dots split (Or.inr rfl)] at named
    cases named

/-- The class in a file gets a name just if the file ends in `.class` behind a stem that is neither a dot nor two, and
all names that lead to it are UTF-8. The name is made of these names, the last one without its ending, and without the
first three if they lead to a release and others follow. Nothing may stand behind a file that is called `..class`. -/
theorem derive_exactly (spelled : p.components = (front ++ [name]).map .name)
    (last : p.segments.getLast? = some name ∨ name ≠ dot :: dot :: classExtension) (told : Bytes) :
    derive p = some told ↔ ∃ stem, name = stem ++ dot :: classExtension ∧ stem ≠ [] ∧ stem ≠ [dot] ∧ stem ≠ [dot, dot] ∧
      (∀ part ∈ front ++ [name], Utf8.valid part = true) ∧
      ((∃ rest, Released (front ++ [stem]) rest ∧ told = Bytes.joinWith dot rest) ∨
        (∀ rest, ¬ Released (front ++ [stem]) rest) ∧ told = Bytes.joinWith dot (front ++ [stem])) := by
  have valid_iff : ∀ stem, (∀ part ∈ front ++ [stem ++ dot :: classExtension], Utf8.valid part = true) ↔
      ∀ part ∈ front ++ [stem], Utf8.valid part = true := by
    intro stem
    simp only [List.forall_mem_append, List.forall_mem_singleton, valid_className]
  constructor
  · intro named
    obtain ⟨stem, rfl, isName⟩ := stem_of_derive spelled last named
    obtain ⟨valid, rfl⟩ := (derive_of_stem spelled isName).mp named
    refine ⟨stem, rfl, isName.1, isName.2.1, isName.2.2.1, (valid_iff stem).mpr valid, ?_⟩
    rcases dropRelease_eq_iff.mp (rfl : dropRelease (front ++ [stem]) = _) with released | ⟨common, whole⟩
    · exact Or.inl ⟨_, released, rfl⟩
    · exact Or.inr ⟨common, by rw [whole]⟩
  · rintro ⟨stem, rfl, some, notDot, notDots, valid, name⟩
    refine (derive_of_stem spelled (isName_of_stem spelled some notDot notDots)).mpr ⟨(valid_iff stem).mp valid, ?_⟩
    rcases name with ⟨rest, released, rfl⟩ | ⟨common, rfl⟩
    · rw [released.dropRelease]
    · rw [dropRelease_of_common common]

/-- The final `.class` alone is taken off, and the first three names lead to a release. -/
theorem derive_exactly_sample :
    (Path.mk (ascii "META-INF/versions/9/acme/Foo.x.class")).components =
      ([ascii "META-INF", ascii "versions", ascii "9", ascii "acme"] ++ [ascii "Foo.x.class"]).map .name ∧
    (Path.mk (ascii "META-INF/versions/9/acme/Foo.x.class")).segments.getLast? = some (ascii "Foo.x.class") ∧
    derive ⟨ascii "META-INF/versions/9/acme/Foo.x.class"⟩ = some (ascii "acme.Foo.x") := by
  have spelled : (Path.mk (ascii "META-INF/versions/9/acme/Foo.x.class")).components =
      ([ascii "META-INF", ascii "versions", ascii "9", ascii "acme"] ++ [ascii "Foo.x.class"]).map .name := by
    decide +kernel
  have last : (Path.mk (ascii "META-INF/versions/9/acme/Foo.x.class")).segments.getLast? =
      some (ascii "Foo.x.class") := by decide +kernel
  refine ⟨spelled, last, (derive_exactly spelled (Or.inl last) _).mpr ?_⟩
  refine ⟨ascii "Foo.x", by decide, by decide, by decide, by decide, by decide +kernel,
    Or.inl ⟨_, ⟨ascii "9", rfl, ?_, ?_⟩, ?_⟩⟩
  · decide
  · decide +kernel
  · decide +kernel

example : derive ⟨ascii "acme/..class"⟩ = none ∧ derive ⟨ascii "acme/...class"⟩ = none ∧
    derive ⟨ascii "acme/a..class"⟩ = some (ascii "acme.a.") := by decide +kernel

end Unjar.ClassFile
