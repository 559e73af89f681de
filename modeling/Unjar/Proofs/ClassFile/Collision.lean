import Unjar.Proofs.ClassFile.Product

/-!
Staged files with one output. The output of a file lies below the output root where the file lies below staging, under
the name of the file or, for a class file, under that of its source. So two files have one output just if they are the
class file and the source file of one stem, in one directory.
-/

namespace Unjar

namespace ClassFile

variable {name name' stem : Bytes}

theorem productName_class (some : stem ≠ []) :
    productName (stem ++ dot :: classExtension) = stem ++ dot :: sourceExtension := by
  rw [productName, Path.splitName_append_dot some (by decide), if_pos rfl, withEnding_source]

theorem productName_other (other : ∀ stem, stem ≠ [] → name ≠ stem ++ dot :: classExtension) :
    productName name = name := by
  rw [productName_eq_self_iff, Ne, Path.splitName_eq_some_iff (by decide)]
  rintro ⟨stem, some, same⟩
  exact other stem some same

/-- The names of a class file and of the source file of the same stem. -/
def Twins (name name' : Bytes) : Prop :=
  ∃ stem, stem ≠ [] ∧ name = stem ++ dot :: classExtension ∧ name' = stem ++ dot :: sourceExtension

theorem Twins.productName_eq (twins : Twins name name') : productName name = productName name' := by
  obtain ⟨stem, some, rfl, rfl⟩ := twins
  have other : (Path.splitName (stem ++ dot :: sourceExtension)).2 ≠ Option.some classExtension := by
    rw [Path.splitName_append_dot some (by decide)]
    exact fun same => absurd (Option.some.inj same) (by decide)
  rw [productName_class some, (productName_eq_self_iff _).mpr other]

/-- Of different files with one product one is a class file, and the product is the other. -/
theorem twins_of_productName (changed : productName name ≠ name) (same : productName name = name') :
    Twins name name' := by
  have ending := not_not.mp (mt (productName_eq_self_iff name).mpr changed)
  obtain ⟨stem, some, rfl⟩ := (Path.splitName_eq_some_iff (by decide)).mp ending
  exact ⟨stem, some, rfl, by rw [← same, productName_class some]⟩

theorem productName_eq_iff (differ : name ≠ name') :
    productName name = productName name' ↔ Twins name name' ∨ Twins name' name := by
  constructor
  · intro same
    by_cases kept : productName name = name
    · by_cases kept' : productName name' = name'
      · exact absurd (kept.symm.trans (same.trans kept')) differ
      · exact Or.inr (twins_of_productName kept' (same.symm.trans kept))
    · by_cases kept' : productName name' = name'
      · exact Or.inl (twins_of_productName kept (same.trans kept'))
      · exact absurd (productName_injective kept kept' same) differ
  · rintro (twins | twins)
    · exact twins.productName_eq
    · exact twins.productName_eq.symm

/-- A path is that of the output for a file that lies under `name` in the directory that `front` leads to: a class file
has its extension exchanged, and every other file and every directory keeps its name. -/
structure Placed (out : Path) (front : List Bytes) (name : Bytes) (target : Path) : Prop where
  exchanged : ∀ stem, stem ≠ [] → name = stem ++ dot :: classExtension →
    target.components = out.components ++ (front ++ [stem ++ dot :: sourceExtension]).map .name
  kept : (∀ stem, stem ≠ [] → name ≠ stem ++ dot :: classExtension) →
    target.components = out.components ++ (front ++ [name]).map .name

theorem Placed.of_productName {out target : Path} {front : List Bytes}
    (components : target.components = out.components ++ (front ++ [productName name]).map .name) :
    Placed out front name target := by
  refine ⟨fun stem some same => ?_, fun other => ?_⟩
  · rw [components, same, productName_class some]
  · rw [components, productName_other other]

/-- Every staged file has an output, and it is placed by its name. Different files have one output just if they lie
in one directory and are the class file and the source file of one stem. -/
theorem outputPath_collides (staging out : Path) {p q : Path} {front front' : List Bytes}
    (spelled : p.components = (front ++ [name]).map .name) (spelled' : q.components = (front' ++ [name']).map .name) :
    ∃ target target', outputPath (staging.join p) staging out = some target ∧
      outputPath (staging.join q) staging out = some target' ∧
      Placed out front name target ∧ Placed out front' name' target' ∧
      (front ++ [name] ≠ front' ++ [name'] →
        (target.Same target' ↔ front = front' ∧ (Twins name name' ∨ Twins name' name))) := by
  have split : p.components = front.map .name ++ [.name name] := by rw [spelled, List.map_append]; rfl
  have split' : q.components = front'.map .name ++ [.name name'] := by rw [spelled', List.map_append]; rfl
  obtain ⟨target, placed, place⟩ := outputPath_join staging out (Path.anchor_of_names spelled) split
  obtain ⟨target', placed', place'⟩ := outputPath_join staging out (Path.anchor_of_names spelled') split'
  have components : target.components = out.components ++ (front ++ [productName name]).map .name := by
    rw [place, List.append_assoc, List.map_append]
    rfl
  have components' : target'.components = out.components ++ (front' ++ [productName name']).map .name := by
    rw [place', List.append_assoc, List.map_append]
    rfl
  refine ⟨target, target', placed, placed', .of_productName components, .of_productName components', fun differ => ?_⟩
  rw [Path.Same, components, components', List.append_cancel_left_eq, Component.map_name_injective.eq_iff]
  constructor
  · intro same
    obtain ⟨rfl, last⟩ := List.append_inj' same rfl
    have differ' : name ≠ name' := fun equal => differ (by rw [equal])
    exact ⟨rfl, (productName_eq_iff differ').mp (List.cons.inj last).1⟩
  · rintro ⟨rfl, twins⟩
    have differ' : name ≠ name' := fun equal => differ (by rw [equal])
    rw [(productName_eq_iff differ').mpr twins]

/-- A class file whose stem is a dot, in a directory that is called like a class file, and its source. -/
theorem outputPath_collides_sample :
    (Path.mk (ascii "D.class//..class/.")).components = ([ascii "D.class"] ++ [ascii "..class"]).map .name ∧
    (Path.mk (ascii "D.class/..java")).components = ([ascii "D.class"] ++ [ascii "..java"]).map .name ∧
    ∃ target target',
      outputPath (Path.join ⟨ascii "./s"⟩ ⟨ascii "D.class//..class/."⟩) ⟨ascii "./s"⟩ ⟨ascii "o/"⟩ = some target ∧
      outputPath (Path.join ⟨ascii "./s"⟩ ⟨ascii "D.class/..java"⟩) ⟨ascii "./s"⟩ ⟨ascii "o/"⟩ = some target' ∧
      target.components = [ascii "o", ascii "D.class", ascii "..java"].map .name ∧ target.Same target' := by
  have spelled : (Path.mk (ascii "D.class//..class/.")).components =
      ([ascii "D.class"] ++ [ascii "..class"]).map .name := by decide
  have spelled' : (Path.mk (ascii "D.class/..java")).components =
      ([ascii "D.class"] ++ [ascii "..java"]).map .name := by decide
  obtain ⟨target, target', placed, placed', place, _, collide⟩ :=
    outputPath_collides ⟨ascii "./s"⟩ ⟨ascii "o/"⟩ spelled spelled'
  refine ⟨spelled, spelled', target, target', placed, placed', ?_, (collide (by decide)).mpr ⟨rfl, Or.inl ?_⟩⟩
  · exact (place.exchanged (ascii ".") (by decide) (by decide)).trans (by decide)
  · exact ⟨ascii ".", by decide, by decide, by decide⟩

end ClassFile

end Unjar
