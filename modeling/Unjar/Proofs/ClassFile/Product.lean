import Unjar.Proofs.Path.Relative

/-!
The names of a staged file and of its product. The product lies below the output root where the file
lies below staging; only an ending `.class` of the last name is exchanged.
-/

namespace Unjar

namespace Path

theorem splitName_spec {name extension : Bytes} (ending : (splitName name).2 = some extension) :
    name = (splitName name).1 ++ dot :: extension ∧ (splitName name).1 ≠ [] ∧ dot ∉ extension := by
  have whole := List.takeWhile_append_dropWhile (p := fun octet => decide (octet ≠ dot)) (l := name.reverse)
  have head := List.head?_dropWhile_not (fun octet => decide (octet ≠ dot)) name.reverse
  have clean : ∀ octet ∈ name.reverse.takeWhile (fun octet => decide (octet ≠ dot)), octet ≠ dot := by
    intro octet member
    simpa using List.all_eq_true.mp List.all_takeWhile octet member
  unfold splitName at ending ⊢
  simp only at ending ⊢
  cases back : name.reverse.dropWhile (fun octet => decide (octet ≠ dot)) with
  | nil => rw [back] at ending; cases ending
  | cons first rest =>
    rw [back] at whole head
    cases rest with
    | nil => rw [back] at ending; cases ending
    | cons second stem =>
      rw [back] at ending
      have first_dot : first = dot := by simpa using head
      have halves := congrArg List.reverse whole
      rw [List.reverse_append, List.reverse_reverse, List.reverse_cons, List.append_assoc, first_dot] at halves
      cases ending
      exact ⟨halves.symm, by simp, by simpa using fun member => clean dot member rfl⟩

/-- The stem of a name stands at its start, and there is one if there is a name. -/
theorem splitName_stem (name : Bytes) : (splitName name).1 <+: name ∧ (name ≠ [] → (splitName name).1 ≠ []) := by
  cases ending : (splitName name).2 with
  | some extension =>
    obtain ⟨whole, some, _⟩ := splitName_spec ending
    exact ⟨⟨_, whole.symm⟩, fun _ => some⟩
  | none =>
    have whole : (splitName name).1 = name := by
      unfold splitName at ending ⊢
      simp only at ending ⊢
      split at ending
      · rfl
      · rfl
      · cases ending
    rw [whole]
    exact ⟨List.prefix_rfl, id⟩

theorem splitName_eq_some_iff {name extension : Bytes} (clean : dot ∉ extension) :
    (splitName name).2 = some extension ↔ ∃ stem, stem ≠ [] ∧ name = stem ++ dot :: extension := by
  constructor
  · intro ending
    obtain ⟨whole, some, _⟩ := splitName_spec ending
    exact ⟨_, some, whole⟩
  · rintro ⟨stem, some, rfl⟩
    rw [splitName_append_dot some clean]

theorem splitName_withEnding {stem extension : Bytes} (some : stem ≠ []) (clean : dot ∉ extension)
    (ending : extension ≠ []) : splitName (withEnding stem extension) = (stem, Option.some extension) := by
  rw [withEnding, if_neg ending, splitName_append_dot some clean]

end Path

namespace ClassFile

/-- The name of the product of a file of this name. -/
def productName (name : Bytes) : Bytes :=
  if (Path.splitName name).2 = some classExtension then Path.withEnding (Path.splitName name).1 sourceExtension
  else name

/-- Where the product of a file lies below the output root. -/
def productNames (names : List Bytes) : List Bytes :=
  match names.getLast? with
  | none => []
  | some name => names.dropLast ++ [productName name]

@[simp] theorem productNames_concat (front : List Bytes) (name : Bytes) :
    productNames (front ++ [name]) = front ++ [productName name] := by
  simp [productNames]

theorem withEnding_source (stem : Bytes) :
    Path.withEnding stem sourceExtension = stem ++ dot :: sourceExtension :=
  if_neg (by decide)

theorem isName_withEnding_source {stem : Bytes} (clean : slash ∉ stem) :
    IsName (Path.withEnding stem sourceExtension) := by
  have long : (stem ++ dot :: sourceExtension).length = stem.length + 5 := by
    rw [List.length_append]; rfl
  rw [withEnding_source]
  refine ⟨by simp, ?_, ?_, ?_⟩
  · intro same; rw [same] at long; simp at long
  · intro same; rw [same] at long; simp at long
  · intro member
    rcases List.mem_append.mp member with inStem | inEnding
    · exact clean inStem
    · revert inEnding; decide

theorem isName_productName {name : Bytes} (valid : IsName name) : IsName (productName name) := by
  unfold productName
  split
  · rename_i ending
    apply isName_withEnding_source
    intro member
    apply valid.2.2.2
    rw [(Path.splitName_spec ending).1]
    exact List.mem_append_left _ member
  · exact valid

theorem allNames_productNames {names : List Bytes} (valid : AllNames names) : AllNames (productNames names) := by
  by_cases none : names = []
  · subst none; exact allNames_nil
  · obtain ⟨front, name, rfl⟩ := (List.eq_nil_or_concat' names).resolve_left none
    rw [productNames_concat]
    exact valid.left.append (.singleton (isName_productName (valid name (by simp))))

theorem productNames_ne_nil {names : List Bytes} (down : names ≠ []) : productNames names ≠ [] := by
  obtain ⟨front, name, rfl⟩ := (List.eq_nil_or_concat' names).resolve_left down
  simp

theorem dropLast_productNames (names : List Bytes) : (productNames names).dropLast = names.dropLast := by
  by_cases none : names = []
  · subst none; rfl
  · obtain ⟨front, name, rfl⟩ := (List.eq_nil_or_concat' names).resolve_left none
    simp

theorem productName_eq_self_iff (name : Bytes) :
    productName name = name ↔ (Path.splitName name).2 ≠ some classExtension := by
  unfold productName
  split
  · rename_i ending
    have spelled := (Path.splitName_spec ending).1
    refine iff_of_false (fun same => ?_) (not_not.mpr ending)
    rw [withEnding_source] at same
    have endings : dot :: sourceExtension = dot :: classExtension :=
      List.append_cancel_left (same.trans spelled)
    revert endings
    decide
  · rename_i other
    exact iff_of_true rfl other

/-- A class file comes before what its product is called. -/
theorem lt_productName {name : Bytes} (changed : productName name ≠ name) : name < productName name := by
  have ending := not_not.mp (mt (productName_eq_self_iff name).mpr changed)
  have spelled := (Path.splitName_spec ending).1
  rw [productName, if_pos ending, withEnding_source]
  conv_lhs => rw [spelled]
  exact List.append_left_lt (by decide)

theorem productName_injective {name other : Bytes} (changed : productName name ≠ name)
    (changed' : productName other ≠ other) (same : productName name = productName other) : name = other := by
  have ending := not_not.mp (mt (productName_eq_self_iff name).mpr changed)
  have ending' := not_not.mp (mt (productName_eq_self_iff other).mpr changed')
  rw [productName, productName, if_pos ending, if_pos ending', withEnding_source, withEnding_source] at same
  rw [(Path.splitName_spec ending).1, (Path.splitName_spec ending').1, List.append_cancel_right same]

/-- What lies below the product of a class file, if it were a directory, comes after the class file. -/
theorem lt_productNames_append {names : List Bytes} (changed : productNames names ≠ names) (more : List Bytes) :
    names < productNames names ++ more := by
  have down : names ≠ [] := by
    rintro rfl
    exact changed rfl
  obtain ⟨front, name, rfl⟩ := (List.eq_nil_or_concat' names).resolve_left down
  rw [productNames_concat] at changed ⊢
  have changedName : productName name ≠ name := fun same => changed (by rw [same])
  rw [List.append_assoc]
  exact List.append_left_lt (List.cons_lt_cons_iff.mpr (Or.inl (lt_productName changedName)))

theorem productNames_injective {names other : List Bytes} (changed : productNames names ≠ names)
    (changed' : productNames other ≠ other) (same : productNames names = productNames other) : names = other := by
  have down : names ≠ [] := fun none => changed (none ▸ rfl)
  have down' : other ≠ [] := fun none => changed' (none ▸ rfl)
  obtain ⟨front, name, rfl⟩ := (List.eq_nil_or_concat' names).resolve_left down
  obtain ⟨front', name', rfl⟩ := (List.eq_nil_or_concat' other).resolve_left down'
  simp only [productNames_concat] at changed changed' same
  obtain ⟨fronts, last⟩ := List.append_inj' same rfl
  rw [fronts, productName_injective (fun unchanged => changed (by rw [unchanged]))
    (fun unchanged => changed' (by rw [unchanged])) (List.cons.inj last).1]

theorem splitName_productName (name : Bytes) :
    (Path.splitName (productName name)).2 = some sourceExtension ↔
      (Path.splitName name).2 = some classExtension ∨ (Path.splitName name).2 = some sourceExtension := by
  unfold productName
  split
  · rename_i ending
    rw [Path.splitName_withEnding (Path.splitName_spec ending).2.1 (by decide) (by decide)]
    simp [ending]
  · rename_i other
    simp [other]

theorem extension_descendant (base : Path) {names : List Bytes} {name : Bytes}
    (valid : AllNames (names ++ [name])) :
    (base.descendant (names ++ [name])).extension = (Path.splitName name).2 := by
  rw [Path.extension, Path.fileName_descendant base valid]
  rfl

/-- The product of a file is source text just if the file is a class file or source text itself. -/
theorem extension_productNames (out staging : Path) {names : List Bytes} (valid : AllNames names) (down : names ≠ []) :
    (out.descendant (productNames names)).extension = some sourceExtension ↔
      (staging.descendant names).extension = some classExtension ∨
        (staging.descendant names).extension = some sourceExtension := by
  obtain ⟨front, name, rfl⟩ := (List.eq_nil_or_concat' names).resolve_left down
  have validOut := allNames_productNames valid
  rw [productNames_concat] at validOut ⊢
  rw [extension_descendant out validOut, extension_descendant staging valid, splitName_productName]

theorem productNames_ne_self_iff (staging : Path) {names : List Bytes} (valid : AllNames names) (down : names ≠ []) :
    productNames names ≠ names ↔ (staging.descendant names).extension = some classExtension := by
  obtain ⟨front, name, rfl⟩ := (List.eq_nil_or_concat' names).resolve_left down
  rw [productNames_concat, extension_descendant staging valid, Ne, List.append_cancel_left_eq, List.cons.injEq,
    and_iff_left rfl, productName_eq_self_iff, not_not]

theorem outputPath_descendant (staging out : Path) {names : List Bytes} (valid : AllNames names) (down : names ≠ []) :
    outputPath (staging.descendant names) staging out = some (out.descendant (productNames names)) := by
  rw [outputPath, Path.stripPrefix?_descendant staging valid down, Option.map_some,
    Path.join_descendant_empty out valid down]
  obtain ⟨front, name, rfl⟩ := (List.eq_nil_or_concat' names).resolve_left down
  simp only [extension_descendant out valid, productNames_concat, productName]
  split
  · rename_i ending
    rw [Path.setExtension_descendant out sourceExtension valid]
    have isName := isName_productName (valid name (by simp))
    rwa [productName, if_pos ending] at isName
  · rfl

/-- The path of a product, from that of the file: only the name is another. -/
theorem components_exchanged {target : Path} {init : List Component} {name : Bytes}
    (split : target.components = init ++ [.name name]) :
    (if target.extension = some classExtension then target.setExtension sourceExtension else target).components =
      init ++ [.name (productName name)] := by
  have isName := isName_productName (Path.isName_of_components split)
  rw [Path.extension_of_components split]
  unfold productName at isName ⊢
  split
  · rename_i ending
    rw [if_pos ending] at isName
    exact Path.components_setExtension split isName
  · exact split

/-- The product of a staged file, however the path to it is spelled. -/
theorem outputPath_join (staging out : Path) {p : Path} {init : List Component} {name : Bytes} (bare : p.anchor = [])
    (split : p.components = init ++ [.name name]) : ∃ target, outputPath (staging.join p) staging out = some target ∧
      target.components = out.components ++ init ++ [.name (productName name)] := by
  obtain ⟨bare', same⟩ := Path.components_stripped bare
  have joined : (out.join p.stripped).components = (out.components ++ init) ++ [.name name] := by
    rw [Path.components_join bare', same, split, List.append_assoc]
  rw [outputPath, Path.stripPrefix?_join staging bare, Option.map_some]
  exact ⟨_, rfl, components_exchanged joined⟩

/-- The output of a file makes no step up, unless the path of the file or that of the output root does. -/
theorem up_notMem_outputPath {file staging out target : Path} (placed : outputPath file staging out = some target)
    (straight : .up ∉ file.components) (straightOut : .up ∉ out.components) : .up ∉ target.components := by
  unfold outputPath at placed
  obtain ⟨relative, stripped, rfl⟩ := Option.map_eq_some_iff.mp placed
  have joined : .up ∉ (out.join relative).components := by
    rw [Path.up_mem_components] at straight straightOut ⊢
    intro member
    rcases Path.mem_segments_join member with inOut | inRelative
    · exact straightOut inOut
    · rcases Path.mem_segments_stripPrefix? stripped inRelative with inFile | empty
      · exact straight inFile
      · cases empty
  simp only
  cases named : (out.join relative).fileName with
  | none =>
    have plain : (out.join relative).extension = none := by rw [Path.extension, named, Option.bind_none]
    rwa [plain, if_neg (by simp)]
  | some name =>
    obtain ⟨init, split⟩ := Path.components_of_fileName named
    rw [components_exchanged split]
    rw [split] at joined
    simpa using joined

end ClassFile

end Unjar
