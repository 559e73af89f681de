import Unjar.Proofs.ClassFile.Derivation

/-!
The name of a class and the place of its source. They are found independently of each other, the name from the
path below the top of the archive, and the place from the staged path, and yet the place is the name spelled with
slashes.
-/

namespace Unjar.ClassFile

/-- A part of a class name that can be told from the other parts, in the name and in a path. -/
structure Plain (part : Bytes) : Prop where
  named : part ≠ []
  dotless : dot ∉ part
  slashless : slash ∉ part
  utf8 : Utf8.valid part = true

instance (part : Bytes) : Decidable (Plain part) :=
  decidable_of_iff (part ≠ [] ∧ dot ∉ part ∧ slash ∉ part ∧ Utf8.valid part = true)
    ⟨fun ⟨named, dotless, slashless, utf8⟩ => ⟨named, dotless, slashless, utf8⟩,
      fun plain => ⟨plain.named, plain.dotless, plain.slashless, plain.utf8⟩⟩

theorem Plain.isName {part : Bytes} (plain : Plain part) : IsName part := by
  refine ⟨plain.named, ?_, ?_, plain.slashless⟩ <;>
    (rintro rfl; exact plain.dotless (by decide))

/-- A class by the packages that it is in and its own name. -/
structure Qualified where
  packages : List Bytes
  simple : Bytes
  plain : ∀ part ∈ packages ++ [simple], Plain part

namespace Qualified

variable {c c' inner : Qualified} {p p' staging out : Path} {release : Bytes}

def parts (c : Qualified) : List Bytes :=
  c.packages ++ [c.simple]

/-- The names down to a file of the class. -/
def file (c : Qualified) (extension : Bytes) : List Bytes :=
  c.packages ++ [c.simple ++ dot :: extension]

/-- A path that leads to the class file, however it is spelled. -/
def Spells (c : Qualified) (p : Path) : Prop :=
  p.components = (c.file classExtension).map .name

/-- A class for one release of the platform: its file lies below `META-INF/versions/<number>/`. -/
structure ForRelease (c inner : Qualified) (release : Bytes) : Prop where
  packages : c.packages = ascii "META-INF" :: ascii "versions" :: release :: inner.packages
  simple : c.simple = inner.simple
  digits : release.all isDigit = true

/-- A class for every release. -/
def Common (c : Qualified) : Prop :=
  ∀ inner release, ¬ c.ForRelease inner release

theorem simple_plain (c : Qualified) : Plain c.simple :=
  c.plain _ (by simp)

theorem dotless_parts (c : Qualified) : ∀ part ∈ c.parts, dot ∉ part :=
  fun part member => (c.plain part member).dotless

theorem allNames_file (c : Qualified) (extension : Bytes) (clean : slash ∉ extension) : AllNames (c.file extension) := by
  intro name member
  rcases List.mem_append.mp member with inPackages | isLast
  · exact (c.plain name (List.mem_append_left _ inPackages)).isName
  · rw [List.mem_singleton.mp isLast]
    refine c.simple_plain.isName.append fun inside => ?_
    rcases List.mem_cons.mp inside with same | inside
    · revert same; decide
    · exact clean inside

theorem file_injective {extension : Bytes} (same : c.file extension = c'.file extension) : c.parts = c'.parts := by
  obtain ⟨packages, simple⟩ := List.append_inj' same rfl
  have simple := List.append_cancel_right (List.cons.inj simple).1
  rw [parts, parts, packages, simple]

theorem Spells.split (spelled : c.Spells p) :
    p.components = c.packages.map .name ++ [.name (c.simple ++ dot :: classExtension)] := by
  rw [spelled, file, List.map_append]
  rfl

theorem Spells.anchor (spelled : c.Spells p) : p.anchor = [] :=
  Path.anchor_of_names spelled

theorem Spells.same_iff (spelled : c.Spells p) (spelled' : c'.Spells p') : p.Same p' ↔ c.parts = c'.parts := by
  rw [Path.Same, spelled, spelled']
  constructor
  · exact fun same => file_injective (Component.map_name_injective same)
  · intro same
    obtain ⟨packages, simple⟩ := List.append_inj' same rfl
    rw [file, file, packages, (List.cons.inj simple).1]

/-! The name. -/

theorem Spells.derive (spelled : c.Spells p) :
    ClassFile.derive p = some (Bytes.joinWith dot (dropRelease c.parts)) :=
  (derive_of_stem spelled c.simple_plain.isName).mpr ⟨fun part member => (c.plain part member).utf8, rfl⟩

theorem ForRelease.dropRelease (special : c.ForRelease inner release) : ClassFile.dropRelease c.parts = inner.parts := by
  refine Released.dropRelease ⟨release, ?_, by simp [parts], List.all_eq_true.mp special.digits⟩
  rw [parts, special.packages, special.simple]
  rfl

theorem Common.dropRelease (common : c.Common) : ClassFile.dropRelease c.parts = c.parts := by
  refine dropRelease_of_common ?_
  rintro rest ⟨release, split, some, digits⟩
  obtain ⟨part, more, rfl⟩ := List.exists_cons_of_ne_nil some
  have packages : c.packages = ascii "META-INF" :: ascii "versions" :: release :: (part :: more).dropLast := by
    have front := congrArg List.dropLast split
    rwa [parts, List.dropLast_concat] at front
  have plain : ∀ other ∈ (part :: more).dropLast ++ [c.simple], Plain other := by
    intro other member
    refine c.plain other ?_
    rw [packages]
    simp only [List.mem_append, List.mem_cons] at member ⊢
    tauto
  exact common ⟨(part :: more).dropLast, c.simple, plain⟩ release ⟨packages, rfl, List.all_eq_true.mpr digits⟩

/-- Names of different parts differ. -/
theorem joinWith_parts_injective (same : Bytes.joinWith dot c.parts = Bytes.joinWith dot c'.parts) :
    c.parts = c'.parts := by
  have split : ∀ c : Qualified, Bytes.splitOn dot (Bytes.joinWith dot c.parts) = c.parts := fun c =>
    Bytes.splitOn_joinWith (by simp [parts]) c.dotless_parts
  rw [← split c, same, split c']

/-! The place. -/

/-- The path of the source of a class, from its name. -/
def sourcePath (name : Bytes) : Path :=
  ⟨(name.map fun octet => if octet = dot then slash else octet) ++ dot :: sourceExtension⟩

theorem map_joinWith {parts : List Bytes} (dotless : ∀ part ∈ parts, dot ∉ part) :
    ((Bytes.joinWith dot parts).map fun octet => if octet = dot then slash else octet) = Bytes.joinWith slash parts := by
  induction parts with
  | nil => rfl
  | cons part rest ih =>
    have here := @Bytes.map_exchange_of_notMem dot slash _ (dotless part List.mem_cons_self)
    have later := ih fun other member => dotless other (List.mem_cons_of_mem _ member)
    by_cases last : rest = []
    · subst last
      exact here
    · rw [Bytes.joinWith_cons _ _ last, Bytes.joinWith_cons _ _ last, List.map_append, here, List.map_cons, later]
      rfl

theorem sourcePath_parts (c : Qualified) :
    sourcePath (Bytes.joinWith dot c.parts) = (Path.mk []).descendant (c.file sourceExtension) := by
  have valid := c.allNames_file sourceExtension (by decide)
  have packages : ∀ part ∈ c.packages, slash ∉ part :=
    fun part member => (c.plain part (List.mem_append_left _ member)).slashless
  obtain ⟨lead, joined, _⟩ := Bytes.joinWith_append packages
  have text := Path.text_descendant_empty valid
  rw [file, joined _ (by simp)] at text
  rw [sourcePath, map_joinWith c.dotless_parts, parts, joined _ (by simp), List.append_assoc]
  exact congrArg Path.mk text.symm

theorem Spells.outputPath (spelled : c.Spells p) (staging out : Path) :
    ∃ target, ClassFile.outputPath (staging.join p) staging out = some target ∧
      target.components = out.components ++ (c.file sourceExtension).map .name := by
  obtain ⟨target, placed, components⟩ := outputPath_join staging out spelled.anchor spelled.split
  have product : productName (c.simple ++ dot :: classExtension) = c.simple ++ dot :: sourceExtension := by
    rw [productName, Path.splitName_append_dot c.simple_plain.named (by decide), if_pos rfl, withEnding_source]
  refine ⟨target, placed, ?_⟩
  rw [components, product, List.append_assoc, file, List.map_append]
  rfl

end Qualified

/-- A class file gets a name, and below `top` its source lies where the name leads with slashes for dots. -/
def NamedAsPlaced (staging out top p : Path) : Prop :=
  ∃ name target, derive p = some name ∧ outputPath (staging.join p) staging out = some target ∧
    target.Same (top.join (Qualified.sourcePath name))

namespace Qualified

variable {c c' inner : Qualified} {p p' : Path} {release : Bytes}

/-- The directory below the output root for the sources of one release. -/
def releaseRoot (out : Path) (release : Bytes) : Path :=
  out.descendant [ascii "META-INF", ascii "versions", release]

theorem components_sourcePath (top : Path) (c : Qualified) :
    (top.join (sourcePath (Bytes.joinWith dot c.parts))).components =
      top.components ++ (c.file sourceExtension).map .name := by
  have valid := c.allNames_file sourceExtension (by decide)
  rw [sourcePath_parts, Path.join_descendant_empty top valid (by simp [file]), Path.components_descendant top valid]

theorem Common.namedAsPlaced (common : c.Common) (spelled : c.Spells p) (staging out : Path) :
    NamedAsPlaced staging out out p := by
  obtain ⟨target, placed, components⟩ := spelled.outputPath staging out
  refine ⟨_, target, spelled.derive, placed, ?_⟩
  rw [common.dropRelease, Path.Same, components, components_sourcePath]

theorem ForRelease.namedAsPlaced (special : c.ForRelease inner release) (spelled : c.Spells p) (staging out : Path) :
    NamedAsPlaced staging out (releaseRoot out release) p := by
  obtain ⟨target, placed, components⟩ := spelled.outputPath staging out
  have valid : AllNames [ascii "META-INF", ascii "versions", release] := by
    intro name member
    refine (c.plain name (List.mem_append_left _ ?_)).isName
    rw [special.packages]
    exact List.mem_append_left inner.packages member
  refine ⟨_, target, spelled.derive, placed, ?_⟩
  rw [special.dropRelease, Path.Same, components, components_sourcePath, releaseRoot, Path.components_descendant out valid,
    file, special.packages, special.simple, List.append_assoc]
  rfl

/-- A class file that is not in the way of a release is named as its source is placed, and so is one for a release,
below the directory of that release and by the name that it would have at the top. Other files have sources of their
own, and those not for a release names of their own as well. -/
theorem named_as_placed (staging out : Path) (spelled : c.Spells p) (spelled' : c'.Spells p') :
    (c.Common → NamedAsPlaced staging out out p) ∧
    (∀ inner release, c.ForRelease inner release → NamedAsPlaced staging out (releaseRoot out release) p ∧
      ∀ top, inner.Spells top → inner.Common → derive p = derive top) ∧
    (¬ p.Same p' → (c.Common → c'.Common → derive p ≠ derive p') ∧
      ∀ target target', outputPath (staging.join p) staging out = some target →
        outputPath (staging.join p') staging out = some target' → ¬ target.Same target') := by
  refine ⟨fun common => common.namedAsPlaced spelled staging out, fun inner release special => ?_, fun differ => ?_⟩
  · refine ⟨special.namedAsPlaced spelled staging out, fun top atTop common => ?_⟩
    rw [spelled.derive, atTop.derive, special.dropRelease, common.dropRelease]
  · rw [spelled.same_iff spelled'] at differ
    refine ⟨fun common common' same => differ ?_, fun target target' placed placed' same => differ ?_⟩
    · rw [spelled.derive, spelled'.derive, common.dropRelease, common'.dropRelease, Option.some_inj] at same
      exact joinWith_parts_injective same
    · obtain ⟨_, found, components⟩ := spelled.outputPath staging out
      obtain ⟨_, found', components'⟩ := spelled'.outputPath staging out
      cases placed.symm.trans found
      cases placed'.symm.trans found'
      rw [Path.Same, components, components', List.append_cancel_left_eq] at same
      exact file_injective (Component.map_name_injective same)

/-- A class in a package. -/
def sample : Qualified :=
  ⟨[ascii "acme"], ascii "Foo", by decide⟩

/-- The same class for one release. -/
def sampleForNine : Qualified :=
  ⟨[ascii "META-INF", ascii "versions", ascii "9", ascii "acme"], ascii "Foo", by decide⟩

theorem named_as_placed_sample :
    NamedAsPlaced ⟨ascii "s"⟩ ⟨ascii "o"⟩ ⟨ascii "o"⟩ ⟨ascii "acme//Foo.class/."⟩ ∧
    NamedAsPlaced ⟨ascii "s"⟩ ⟨ascii "o"⟩ (releaseRoot ⟨ascii "o"⟩ (ascii "9"))
      ⟨ascii "META-INF/versions/9/acme/Foo.class"⟩ ∧
    derive ⟨ascii "META-INF/versions/9/acme/Foo.class"⟩ = derive ⟨ascii "acme//Foo.class/."⟩ ∧
    ∀ target target', outputPath (Path.join ⟨ascii "s"⟩ ⟨ascii "acme//Foo.class/."⟩) ⟨ascii "s"⟩ ⟨ascii "o"⟩ = some target →
      outputPath (Path.join ⟨ascii "s"⟩ ⟨ascii "META-INF/versions/9/acme/Foo.class"⟩) ⟨ascii "s"⟩ ⟨ascii "o"⟩ =
        some target' → ¬ target.Same target' := by
  have spelled : sample.Spells ⟨ascii "acme//Foo.class/."⟩ := by unfold Spells; decide
  have spelled' : sampleForNine.Spells ⟨ascii "META-INF/versions/9/acme/Foo.class"⟩ := by unfold Spells; decide
  have common : sample.Common := by
    intro inner release special
    have short := congrArg List.length special.packages
    simp [sample] at short
  have special : sampleForNine.ForRelease sample (ascii "9") := ⟨rfl, rfl, by decide⟩
  obtain ⟨named, _, apart⟩ := named_as_placed ⟨ascii "s"⟩ ⟨ascii "o"⟩ spelled spelled'
  obtain ⟨named', top⟩ := (named_as_placed ⟨ascii "s"⟩ ⟨ascii "o"⟩ spelled' spelled).2.1 sample (ascii "9") special
  exact ⟨named common, named', top _ spelled common, (apart (by decide)).2⟩

end Qualified

/-- A file that is called nothing but `.class` has no extension, and is no class file. -/
theorem derive_of_hidden {p : Path} {init : List Component}
    (split : p.components = init ++ [.name (dot :: classExtension)]) : derive p = none := by
  refine if_neg ?_
  rw [Path.extension_of_components split]
  decide

theorem not_namedAsPlaced_hidden :
    (Path.mk (ascii ".class")).components = [.name ([] ++ dot :: classExtension)] ∧
      ¬ NamedAsPlaced ⟨ascii "s"⟩ ⟨ascii "o"⟩ ⟨ascii "o"⟩ ⟨ascii ".class"⟩ := by
  have split : (Path.mk (ascii ".class")).components = [] ++ [.name (dot :: classExtension)] := by decide
  refine ⟨split, ?_⟩
  rintro ⟨name, target, named, _⟩
  rw [derive_of_hidden split] at named
  cases named

end Unjar.ClassFile
