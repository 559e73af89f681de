import Mathlib.Data.List.TakeWhile
import Unjar.Proofs.Path.Parent

/-!
Paths that end in a name, however they are spelled. What stands behind the last name is noise, and exchanging the
name, or an ending of it, leaves alone what stands before it.
-/

namespace Unjar

/-- A name stays one with more behind it. -/
theorem IsName.append {name more : Bytes} (valid : IsName name) (clean : slash ∉ more) : IsName (name ++ more) := by
  obtain ⟨some, notHere, notUp, noSlash⟩ := valid
  refine ⟨by simp [some], ?_, ?_, by simp [noSlash, clean]⟩ <;>
    (intro same; rcases name with _ | ⟨first, _ | ⟨second, rest⟩⟩ <;> simp_all)

namespace Bytes

/-- The pieces of a part from the start: those of the whole, up to one that may be cut short. -/
theorem splitOn_of_prefix {separator : UInt8} {part whole : Bytes} (starts : part <+: whole) :
    ∃ front last piece back, splitOn separator part = front ++ [last] ∧
      splitOn separator whole = front ++ piece :: back ∧ last <+: piece := by
  induction whole generalizing part with
  | nil =>
    rw [List.prefix_nil.mp starts]
    exact ⟨[], [], [], [], rfl, rfl, List.prefix_rfl⟩
  | cons octet rest ih =>
    cases part with
    | nil =>
      obtain ⟨piece, back, split⟩ := List.exists_cons_of_ne_nil (splitOn_ne_nil separator (octet :: rest))
      exact ⟨[], [], piece, back, rfl, split, List.nil_prefix⟩
    | cons octet' part =>
      obtain ⟨rfl, starts'⟩ := List.cons_prefix_cons.mp starts
      obtain ⟨front, last, piece, back, split, splits, cut⟩ := ih starts'
      by_cases separates : octet' = separator
      · refine ⟨[] :: front, last, piece, back, ?_, ?_, cut⟩
        · rw [splitOn, if_pos separates, split, List.cons_append]
        · rw [splitOn, if_pos separates, splits, List.cons_append]
      · rw [splitOn, if_neg separates, split, splitOn, if_neg separates, splits]
        cases front with
        | nil => exact ⟨[], octet' :: last, octet' :: piece, back, rfl, rfl, (List.prefix_cons_inj octet').mpr cut⟩
        | cons first more => exact ⟨(octet' :: first) :: more, last, piece, back, rfl, rfl, cut⟩

/-- What is put in front of some pieces when they are joined, and comes apart again. -/
theorem joinWith_append {separator : UInt8} {front : List Bytes} (clean : ∀ piece ∈ front, separator ∉ piece) :
    ∃ lead, (∀ pieces, pieces ≠ [] → joinWith separator (front ++ pieces) = lead ++ joinWith separator pieces) ∧
      ∀ bytes, splitOn separator (lead ++ bytes) = front ++ splitOn separator bytes := by
  induction front with
  | nil => exact ⟨[], fun _ _ => rfl, fun _ => rfl⟩
  | cons first more ih =>
    obtain ⟨lead, joined, split⟩ := ih fun piece member => clean piece (List.mem_cons_of_mem _ member)
    refine ⟨first ++ separator :: lead, fun pieces some => ?_, fun bytes => ?_⟩
    · have open' : more ++ pieces ≠ [] := by simp [some]
      rw [List.cons_append, joinWith_cons _ _ open', joined pieces some, List.append_assoc, List.cons_append]
    · rw [List.append_assoc, List.cons_append, splitOn_append (clean first List.mem_cons_self), split, List.cons_append]

end Bytes

namespace Path

/-- A name that ends in a dot and an extension is split there. -/
theorem splitName_append_dot {stem extension : Bytes} (some : stem ≠ []) (clean : dot ∉ extension) :
    splitName (stem ++ dot :: extension) = (stem, Option.some extension) := by
  have backwards : (stem ++ dot :: extension).reverse = extension.reverse ++ dot :: stem.reverse := by simp
  have notDot : ∀ octet ∈ extension.reverse, decide (octet ≠ dot) = true := by
    intro octet member
    simpa using fun same : octet = dot => clean (same ▸ List.mem_reverse.mp member)
  have dropped : (stem ++ dot :: extension).reverse.dropWhile (fun octet => decide (octet ≠ dot)) =
      dot :: stem.reverse := by
    rw [backwards, List.dropWhile_append_of_pos notDot]; simp
  have taken : (stem ++ dot :: extension).reverse.takeWhile (fun octet => decide (octet ≠ dot)) =
      extension.reverse := by
    rw [backwards, List.takeWhile_append_of_pos notDot]; simp
  simp only [splitName]
  rw [dropped, taken]
  cases reversed : stem.reverse with
  | nil => exact absurd (List.reverse_eq_nil_iff.mp reversed) some
  | cons last front => simp [← reversed]

theorem isNoise_of_prefix {piece noise : Bytes} (noisy : isNoise noise = true) (cut : piece <+: noise) :
    isNoise piece = true := by
  have short : noise = [] ∨ noise = [dot] := of_decide_eq_true noisy
  rcases short with rfl | rfl
  · rw [List.prefix_nil.mp cut]; rfl
  · rcases List.prefix_cons_iff.mp cut with rfl | ⟨rest, rfl, nil⟩
    · rfl
    · rw [List.prefix_nil.mp nil]; rfl

theorem dropWhile_noise {noise : List Bytes} (noisy : ∀ segment ∈ noise, isNoise segment = true) :
    noise.dropWhile isNoise = [] :=
  List.dropWhile_eq_nil_iff.mpr noisy

/-- A spelling that is cut short within a last name or behind it: an extension that is left is no longer than the one
that was there, and nothing only if the cut is right behind the dot, and noise stays noise. -/
theorem splitOn_cut {part whole stem extension : Bytes} {noise : List Bytes} (starts : part <+: whole)
    (pieces : whole.splitOn slash = (stem ++ dot :: extension) :: noise)
    (noisy : ∀ segment ∈ noise, isNoise segment = true) (long : stem ++ [dot] <+: part) :
    ∃ extension' noise', extension' <+: extension ∧ (extension' = [] → extension = [] ∨ part = stem ++ [dot]) ∧
      (∀ segment ∈ noise', isNoise segment = true) ∧ part.splitOn slash = (stem ++ dot :: extension') :: noise' := by
  obtain ⟨before, last, piece, behind, parts, wholes, short⟩ := @Bytes.splitOn_of_prefix slash _ _ starts
  rw [pieces] at wholes
  cases before with
  | nil =>
    -- the cut is within the name
    obtain ⟨rfl, rfl⟩ := List.cons.inj wholes
    have same : part = last := by rw [← Bytes.joinWith_splitOn slash part, parts]; rfl
    obtain ⟨extension', rfl⟩ := long
    have cut : (stem ++ [dot]) ++ extension' <+: (stem ++ [dot]) ++ extension := by rw [same]; simpa using short
    have bare : extension' = [] → (stem ++ [dot]) ++ extension' = stem ++ [dot] := fun none => by
      rw [none, List.append_nil]
    refine ⟨extension', [], (List.prefix_append_right_inj _).mp cut, fun none => Or.inr (bare none), by simp, ?_⟩
    rw [parts, ← same]
    simp
  | cons first more =>
    obtain ⟨rfl, rfl⟩ := List.cons.inj wholes
    refine ⟨extension, more ++ [last], List.prefix_rfl, Or.inl, fun segment member => ?_, parts⟩
    rcases List.mem_append.mp member with inMore | isLast
    · exact noisy segment (List.mem_append_left _ inMore)
    · rw [List.mem_singleton.mp isLast]
      exact isNoise_of_prefix (noisy piece (by simp)) short

theorem components_of_up {p : Path} {front : List Bytes} (split : p.segments = front ++ [[dot, dot]]) :
    ∃ init, p.components = init ++ [.up] := by
  refine ⟨p.anchor ++ front.filterMap Component.ofSegment?, ?_⟩
  rw [components, split, List.filterMap_append, List.append_assoc]
  rfl

theorem fileName_of_components {p : Path} {init : List Component} {name : Bytes}
    (split : p.components = init ++ [.name name]) : p.fileName = some name := by
  rw [fileName, split, List.getLast?_concat]

/-- The spelling of a path that ends in a name: the segments in front of it, the name, and noise. -/
structure Ends (p : Path) (front : List Bytes) (name : Bytes) : Prop where
  valid : IsName name
  spelled : ∃ noise, (∀ segment ∈ noise, isNoise segment = true) ∧ p.segments = front ++ name :: noise

/-- The start of a path is told by its first segment, if more segments follow. -/
theorem anchor_of_segments {p : Path} {first : Bytes} {rest : List Bytes} (split : p.segments = first :: rest)
    (more : rest ≠ []) : p.anchor = if first = [] then [.root] else if first = [dot] then [.here] else [] := by
  by_cases empty : first = []
  · subst empty
    rw [anchor, if_pos (isAbsolute_of_segments split more), if_pos rfl]
  · have relative : p.isAbsolute = false := by
      rw [Bool.eq_false_iff]
      intro absolute
      obtain ⟨body, split'⟩ := segments_of_absolute absolute
      exact empty (List.cons.inj (split.symm.trans split')).1
    simp [anchor, relative, split, empty]

/-- What segments come to as components when a name follows. -/
def leading (front : List Bytes) : List Component :=
  (match front with
    | [] => []
    | first :: _ => if first = [] then [.root] else if first = [dot] then [.here] else []) ++
  front.filterMap Component.ofSegment?

/-- A dot behind other segments adds nothing to them, and by itself it is a path. -/
theorem components_of_here {p : Path} {front : List Bytes} (split : p.segments = front ++ [[dot]]) :
    p.components = if front = [] then [.here] else leading front := by
  have inner : p.segments.filterMap Component.ofSegment? = front.filterMap Component.ofSegment? := by
    have noisy : ([[dot]] : List Bytes).filterMap Component.ofSegment? = [] := rfl
    rw [split, List.filterMap_append, noisy, List.append_nil]
  cases front with
  | nil =>
    have alone : p = ⟨[dot]⟩ := ext_segments split
    rw [alone]
    rfl
  | cons first more =>
    rw [if_neg (List.cons_ne_nil first more), components, inner, anchor_of_segments split (by simp)]
    rfl

namespace Ends

variable {p : Path} {front : List Bytes} {name : Bytes}

theorem clean (ends : p.Ends front name) : ∀ segment ∈ front, slash ∉ segment := by
  obtain ⟨noise, _, split⟩ := ends.spelled
  intro segment member
  exact slash_notMem_segment (p := p) (by rw [split]; exact List.mem_append_left _ member)

theorem components (ends : p.Ends front name) : p.components = leading front ++ [.name name] := by
  obtain ⟨noise, noisy, split⟩ := ends.spelled
  have inner : p.segments.filterMap Component.ofSegment? = front.filterMap Component.ofSegment? ++ [.name name] := by
    rw [split, List.filterMap_append, List.filterMap_cons_some ends.valid.component, filterMap_noise noisy]
  unfold leading
  rw [Path.components, inner, List.append_assoc]
  congr 1
  cases front with
  | nil =>
    have relative : p.isAbsolute = false := by
      rw [Bool.eq_false_iff]
      intro absolute
      obtain ⟨body, split'⟩ := segments_of_absolute absolute
      exact ends.valid.1 (List.cons.inj (split.symm.trans split')).1
    simp [anchor, relative, split, ends.valid.2.1]
  | cons first more => exact anchor_of_segments split (by simp)

theorem fileName (ends : p.Ends front name) : p.fileName = some name :=
  fileName_of_components ends.components

theorem trimEnd (ends : p.Ends front name) : Path.trimEnd p.segments = front ++ [name] := by
  obtain ⟨noise, noisy, split⟩ := ends.spelled
  have noisy' : ∀ segment ∈ noise.reverse, isNoise segment = true :=
    fun segment member => noisy segment (List.mem_reverse.mp member)
  rw [split]
  cases front with
  | nil => rw [List.nil_append, Path.trimEnd, dropWhile_noise noisy']; rfl
  | cons first more =>
    have backwards : (more ++ name :: noise).reverse = noise.reverse ++ name :: more.reverse := by simp
    rw [List.cons_append, Path.trimEnd, backwards, List.dropWhile_append_of_pos noisy',
      List.dropWhile_cons_of_neg (by simp [ends.valid.not_noise])]
    simp

/-- Another last segment behind the segments in front of the name. -/
theorem segments_exchanged (ends : p.Ends front name) {last : Bytes} (clean : slash ∉ last) :
    (Path.mk (Bytes.joinWith slash (front ++ [last]))).segments = front ++ [last] := by
  refine segments_joinWith (by simp) fun segment member => ?_
  rcases List.mem_append.mp member with inFront | isLast
  · exact ends.clean segment inFront
  · rw [List.mem_singleton.mp isLast]
    exact clean

theorem setExtension (ends : p.Ends front name) {extension : Bytes}
    (changed : IsName (withEnding (splitName name).1 extension)) :
    (p.setExtension extension).Ends front (withEnding (splitName name).1 extension) := by
  have stem : p.stem = some (splitName name).1 := by rw [Path.stem, ends.fileName]; rfl
  refine ⟨changed, [], by simp, ?_⟩
  rw [Path.setExtension, stem, ends.trimEnd, List.dropLast_concat]
  exact ends.segments_exchanged changed.2.2.2

/-- The spelling cut short by as much as the extension: what is left of the name goes on behind the dot if there was
something behind the name. -/
theorem segments_cut {stem extension : Bytes} (ends : p.Ends front (stem ++ dot :: extension)) :
    ∃ extension' noise', extension' <+: extension ∧
      (p.segments.getLast? ≠ some (stem ++ dot :: extension) → extension ≠ [] → extension' ≠ []) ∧
      (∀ segment ∈ noise', isNoise segment = true) ∧
      (Path.mk (p.text.take (p.text.length - extension.length))).segments =
        front ++ (stem ++ dot :: extension') :: noise' := by
  obtain ⟨noise, noisy, split⟩ := ends.spelled
  have pieces : ∀ piece ∈ (stem ++ dot :: extension) :: noise, slash ∉ piece :=
    fun piece member => slash_notMem_segment (p := p) (by rw [split]; exact List.mem_append_right _ member)
  obtain ⟨lead, joined, splits⟩ := Bytes.joinWith_append ends.clean
  have text : p.text = lead ++ Bytes.joinWith slash ((stem ++ dot :: extension) :: noise) := by
    rw [← p.joinWith_segments, split, joined _ (by simp)]
  obtain ⟨tail, whole, behind⟩ : ∃ tail, Bytes.joinWith slash ((stem ++ dot :: extension) :: noise) =
      (stem ++ [dot]) ++ (extension ++ tail) ∧ (tail = [] → noise = []) := by
    by_cases none : noise = []
    · exact ⟨[], by simp [none, Bytes.joinWith], fun _ => none⟩
    · exact ⟨slash :: Bytes.joinWith slash noise, by rw [Bytes.joinWith_cons _ _ none]; simp, by simp⟩
  have taken : p.text.take (p.text.length - extension.length) =
      lead ++ ((stem ++ [dot]) ++ (extension ++ tail).take tail.length) := by
    rw [text, whole, show (lead ++ ((stem ++ [dot]) ++ (extension ++ tail))).length - extension.length =
      lead.length + ((stem ++ [dot]).length + tail.length) by simp only [List.length_append]; omega,
      List.take_length_add_append, List.take_length_add_append]
  have starts : (stem ++ [dot]) ++ (extension ++ tail).take tail.length <+: (stem ++ [dot]) ++ (extension ++ tail) :=
    (List.prefix_append_right_inj _).mpr (List.take_prefix _ _)
  rw [← whole] at starts
  obtain ⟨extension', noise', shorter, shortest, noisy', parts⟩ :=
    splitOn_cut starts (Bytes.splitOn_joinWith (by simp) pieces) noisy (List.prefix_append _ _)
  refine ⟨extension', noise', shorter, fun followed some none => ?_, noisy', by rw [segments, taken, splits, parts]⟩
  have bare : (extension ++ tail).take tail.length = [] := by
    simpa using (shortest none).resolve_left some
  have noTail : tail = [] := by simpa [some] using bare
  exact followed (by rw [split, behind noTail, List.getLast?_concat])

/-- Cut short by as much as the extension, the spelling still ends in a name with that stem. -/
theorem cut {stem extension : Bytes} (ends : p.Ends front (stem ++ dot :: extension)) (valid : IsName (stem ++ [dot]))
    (clean : dot ∉ extension) : ∃ extension', dot ∉ extension' ∧
      (Path.mk (p.text.take (p.text.length - extension.length))).Ends front (stem ++ dot :: extension') := by
  obtain ⟨extension', noise', shorter, _, noisy, parts⟩ := ends.segments_cut
  have slashless : slash ∉ stem ++ dot :: extension' :=
    slash_notMem_segment (by rw [parts]; exact List.mem_append_right _ List.mem_cons_self)
  have named := valid.append fun member =>
    slashless (List.mem_append_right stem (List.mem_cons_of_mem dot member))
  rw [List.append_assoc] at named
  exact ⟨extension', fun member => clean (shorter.subset member), named, noise', noisy, parts⟩

/-- Without its extension a path ends in the stem of its name. -/
theorem withoutExtension {stem extension : Bytes} (ends : p.Ends front (stem ++ dot :: extension)) (valid : IsName stem)
    (clean : dot ∉ extension) : (p.withExtension []).Ends front stem := by
  obtain ⟨extension', clean', cut⟩ := ends.cut (valid.append (by decide)) clean
  have old : p.extension = some extension := by
    rw [Path.extension, ends.fileName, Option.bind_some, splitName_append_dot valid.1 clean]
  have bare : withEnding (splitName (stem ++ dot :: extension')).1 [] = stem := by
    rw [splitName_append_dot valid.1 clean']; rfl
  have shorn := @Ends.setExtension _ _ _ cut [] (by rwa [bare])
  rw [bare] at shorn
  rwa [withExtension, old]

/-- What the spelling without the extension ends in, whether it is a name or not. -/
theorem segments_withoutExtension {stem extension extension' : Bytes} (ends : p.Ends front (stem ++ dot :: extension))
    (some : stem ≠ []) (clean : dot ∉ extension) (clean' : dot ∉ extension')
    (cut : (Path.mk (p.text.take (p.text.length - extension.length))).Ends front (stem ++ dot :: extension')) :
    (p.withExtension []).segments = front ++ [stem] := by
  have old : p.extension = Option.some extension := by
    rw [Path.extension, ends.fileName, Option.bind_some, splitName_append_dot some clean]
  have shorn : (Path.mk (p.text.take (p.text.length - extension.length))).stem = Option.some stem := by
    rw [Path.stem, cut.fileName, Option.map_some, splitName_append_dot some clean']
  rw [withExtension, old]
  simp only [Path.setExtension, shorn, cut.trimEnd, List.dropLast_concat]
  exact ends.segments_exchanged fun inStem => ends.valid.2.2.2 (List.mem_append_left _ inStem)

/-- Where the stem is two dots, it leads a step up when it stands alone. -/
theorem withoutExtension_dots {extension : Bytes} (ends : p.Ends front ([dot, dot] ++ dot :: extension))
    (clean : dot ∉ extension) : ∃ init, (p.withExtension []).components = init ++ [.up] := by
  obtain ⟨extension', clean', cut⟩ := ends.cut (by decide) clean
  exact components_of_up (ends.segments_withoutExtension (by simp) clean clean' cut)

/-- Where the stem is one dot and something stands behind the name, the dot is left, and is noise. -/
theorem withoutExtension_followed {extension : Bytes} (ends : p.Ends front ([dot] ++ dot :: extension))
    (followed : p.segments.getLast? ≠ some ([dot] ++ dot :: extension)) (long : extension ≠ [])
    (clean : dot ∉ extension) : (p.withExtension []).components = if front = [] then [.here] else leading front := by
  obtain ⟨extension', noise, shorter, kept, noisy, parts⟩ := ends.segments_cut
  have clean' : dot ∉ extension' := fun member => clean (shorter.subset member)
  have slashless : slash ∉ [dot] ++ dot :: extension' :=
    slash_notMem_segment (by rw [parts]; exact List.mem_append_right _ List.mem_cons_self)
  have named : IsName ([dot] ++ dot :: extension') :=
    ⟨by simp, by simp, by simpa using kept followed long, slashless⟩
  have segments := ends.segments_withoutExtension (by simp) clean clean' ⟨named, noise, noisy, parts⟩
  exact components_of_here segments

/-- Where the stem is one dot, what is left of the name are two, if nothing stands behind it. -/
theorem withoutExtension_dot {extension : Bytes} (ends : p.Ends front ([dot] ++ dot :: extension))
    (last : p.segments.getLast? = some ([dot] ++ dot :: extension)) (clean : dot ∉ extension) :
    ∃ init, (p.withExtension []).components = init ++ [.up] := by
  obtain ⟨noise, noisy, split⟩ := ends.spelled
  have bare : noise = [] := by
    rcases List.eq_nil_or_concat' noise with none | ⟨before, segment, rfl⟩
    · exact none
    · rw [split, ← List.cons_append, ← List.append_assoc, List.getLast?_concat] at last
      have noise := noisy segment (by simp)
      rw [Option.some.inj last, ends.valid.not_noise] at noise
      cases noise
  obtain ⟨lead, joined, splits⟩ := Bytes.joinWith_append ends.clean
  have text : p.text = (lead ++ [dot, dot]) ++ extension := by
    rw [← p.joinWith_segments, split, bare, joined _ (by simp), List.append_assoc]
    rfl
  have old : p.extension = some extension := by
    rw [Path.extension, ends.fileName, Option.bind_some, splitName_append_dot (by simp) clean]
  have taken : p.text.take (p.text.length - extension.length) = lead ++ [dot, dot] := by
    rw [text, List.length_append, Nat.add_sub_cancel, List.take_left]
  have up : (Path.mk (lead ++ [dot, dot])).segments = front ++ [[dot, dot]] := splits [dot, dot]
  obtain ⟨init, components⟩ := components_of_up up
  have noStem : (Path.mk (lead ++ [dot, dot])).stem = none := by
    rw [Path.stem, Path.fileName, components, List.getLast?_concat]
    rfl
  refine ⟨init, ?_⟩
  rw [withExtension, old]
  simp only [taken, Path.setExtension, noStem]
  exact components

end Ends

/-- A path whose last component is a name is spelled so. -/
theorem ends_of_components {p : Path} {init : List Component} {name : Bytes}
    (split : p.components = init ++ [.name name]) : ∃ front, p.Ends front name ∧ leading front = init := by
  have last : p.components.getLast? = some (.name name) := by rw [split, List.getLast?_concat]
  obtain ⟨before, inner⟩ : ∃ before, p.segments.filterMap Component.ofSegment? = before ++ [.name name] := by
    rcases List.eq_nil_or_concat' (p.segments.filterMap Component.ofSegment?) with none | ⟨before, component, inner⟩
    · exfalso
      rw [components, none, List.append_nil, anchor] at last
      split_ifs at last <;> cases last
    · rw [components, inner, ← List.append_assoc, List.getLast?_concat] at last
      cases last
      exact ⟨before, inner⟩
  obtain ⟨front, rest, segments, _, found⟩ := List.filterMap_eq_append_iff.mp inner
  obtain ⟨noise, segment, noise', rfl, quiet, named, behind⟩ := List.filterMap_eq_cons_iff.mp found
  have clean : slash ∉ segment := slash_notMem_segment (p := p) (by rw [segments]; simp)
  obtain ⟨rfl, valid⟩ := isName_of_component clean named
  have ends : p.Ends (front ++ noise) name := by
    refine ⟨valid, noise', fun segment member => ?_, by rw [segments, List.append_assoc]⟩
    exact (isNoise_iff segment).mpr (List.filterMap_eq_nil_iff.mp behind segment member)
  exact ⟨_, ends, List.append_cancel_right (ends.components.symm.trans split)⟩

theorem components_of_fileName {p : Path} {name : Bytes} (named : p.fileName = some name) :
    ∃ init, p.components = init ++ [.name name] := by
  unfold fileName at named
  split at named
  · rename_i last
    cases named
    exact List.getLast?_eq_some_iff.mp last
  · cases named

theorem isName_of_components {p : Path} {init : List Component} {name : Bytes}
    (split : p.components = init ++ [.name name]) : IsName name := by
  obtain ⟨_, ends, _⟩ := ends_of_components split
  exact ends.valid

theorem extension_of_components {p : Path} {init : List Component} {name : Bytes}
    (split : p.components = init ++ [.name name]) : p.extension = (splitName name).2 := by
  rw [extension, fileName_of_components split, Option.bind_some]

theorem components_setExtension {p : Path} {init : List Component} {name extension : Bytes}
    (split : p.components = init ++ [.name name]) (changed : IsName (withEnding (splitName name).1 extension)) :
    (p.setExtension extension).components = init ++ [.name (withEnding (splitName name).1 extension)] := by
  obtain ⟨front, ends, rfl⟩ := ends_of_components split
  exact (ends.setExtension changed).components

theorem components_withoutExtension {p : Path} {init : List Component} {stem extension : Bytes}
    (split : p.components = init ++ [.name (stem ++ dot :: extension)]) (valid : IsName stem)
    (clean : dot ∉ extension) : (p.withExtension []).components = init ++ [.name stem] := by
  obtain ⟨front, ends, rfl⟩ := ends_of_components split
  exact (ends.withoutExtension valid clean).components

end Path

end Unjar
