import Mathlib.Data.List.Nodup
import Mathlib.Data.List.ReduceOption
import Unjar.Proofs.CommandLine.Reading

/-!
Command lines that are spelled from given values, in any order and by any spelling, are read as these values.
-/

namespace Unjar.CommandLine

namespace Values

variable {values values' : Values}

theorem get?_cons (values : Values) (key value name : Bytes) :
    get? ((key, value) :: values) name = if name = key then some value else values.get? name := by
  rw [get?, List.lookup_cons]
  by_cases same : name = key
  · rw [if_pos same, same, beq_self_eq_true]
  · rw [if_neg same, beq_false_of_ne same]
    rfl

theorem has_eq (values : Values) (name : Bytes) : values.has name = (values.get? name).isSome := by
  induction values with
  | nil => rfl
  | cons entry rest ih =>
    obtain ⟨key, first⟩ := entry
    by_cases same : name = key
    · simp [get?_cons, has, same]
    · rw [has_cons_of_ne (Ne.symm same), ih, get?_cons, if_neg same]

theorem get?_eq_some_iff (distinct : (values.map Prod.fst).Nodup) {name value : Bytes} :
    values.get? name = some value ↔ (name, value) ∈ values := by
  induction values with
  | nil => simp [get?]
  | cons entry rest ih =>
    obtain ⟨key, first⟩ := entry
    rw [List.map_cons, List.nodup_cons] at distinct
    rw [get?_cons, List.mem_cons]
    by_cases same : name = key
    · subst same
      have later : (name, value) ∉ rest := fun member => distinct.1 (List.mem_map.mpr ⟨_, member, rfl⟩)
      simp [later, eq_comm]
    · rw [if_neg same, ih distinct.2]
      simp [same]

/-- Where no name is given twice, its value does not depend on the order. -/
theorem get?_of_perm (perm : values.Perm values') (distinct : (values.map Prod.fst).Nodup) (name : Bytes) :
    values.get? name = values'.get? name := by
  have distinct' : (values'.map Prod.fst).Nodup := (perm.map Prod.fst).nodup_iff.mp distinct
  refine Option.ext fun value => ?_
  rw [get?_eq_some_iff distinct, get?_eq_some_iff distinct', perm.mem_iff]

/-- The values of the fields that are given. -/
def ofFields (fields : List (Bytes × Option Bytes)) : Values :=
  fields.filterMap fun field => field.2.map (field.1, ·)

theorem keys_ofFields (fields : List (Bytes × Option Bytes)) :
    ((ofFields fields).map Prod.fst).Sublist (fields.map Prod.fst) := by
  induction fields with
  | nil => exact .slnil
  | cons field rest ih =>
    obtain ⟨name, _ | value⟩ := field
    · exact .cons _ ih
    · exact .cons_cons _ ih

theorem get?_ofFields {fields : List (Bytes × Option Bytes)} (distinct : (fields.map Prod.fst).Nodup) (name : Bytes) :
    (ofFields fields).get? name = (fields.lookup name).join := by
  induction fields with
  | nil => rfl
  | cons field rest ih =>
    obtain ⟨key, given⟩ := field
    rw [List.map_cons, List.nodup_cons] at distinct
    rw [List.lookup_cons]
    by_cases same : name = key
    · subst same
      rw [beq_self_eq_true]
      cases given with
      | none =>
        have absent : rest.lookup name = none := List.lookup_eq_none_iff.mpr fun field member =>
          bne_iff_ne.mpr fun same => distinct.1 (List.mem_map.mpr ⟨field, member, same.symm⟩)
        exact (ih distinct.2).trans (by rw [absent]; rfl)
      | some value => exact (get?_cons _ _ _ _).trans (if_pos rfl)
    · rw [beq_false_of_ne same]
      cases given with
      | none => exact ih distinct.2
      | some value => exact (get?_cons _ _ _ _).trans ((if_neg same).trans (ih distinct.2))

end Values

/-- What can be asked for on a command line. -/
structure Choice where
  className : Option Bytes
  jar : Bytes
  out : Option Bytes
  cfr : Option Bytes
  reuse : Bool
  verbose : Bool
  class_sound : ∀ name ∈ className, (Item.className name).Sound
  jar_named : jar ≠ []
  out_named : ∀ value ∈ out, value ≠ []
  cfr_named : ∀ value ∈ cfr, value ≠ []
  reuse_known : reuse = true → className.isSome = true

namespace Choice

def raised (given : Bool) (item : Item) : Option Item :=
  if given then some item else none

/-- A raised switch has the empty value. -/
def flag (given : Bool) : Option Bytes :=
  if given then some [] else none

theorem isSome_flag (given : Bool) : (flag given).isSome = given := by
  cases given <;> rfl

/-- What is to be spelled, in one order. -/
def items (c : Choice) : List Item :=
  [c.className.map .className, some (.set .jar c.jar), c.out.map (.set .out), c.cfr.map (.set .cfr),
    raised c.reuse .reuse, raised c.verbose .verbose].reduceOption

/-- The values, with the defaults for what is not given. -/
def arguments (c : Choice) : Arguments where
  className := c.className
  jar := ⟨c.jar⟩
  out := ⟨c.out.getD (ascii "src")⟩
  decompiler := ⟨c.cfr.getD (ascii "cfr.jar")⟩
  reuseClassName := c.reuse
  verbose := c.verbose

/-- The values by their names. -/
def fields (c : Choice) : List (Bytes × Option Bytes) :=
  [(ascii "CLASS", c.className), (ascii "jar", some c.jar), (ascii "out", c.out), (ascii "cfr", c.cfr),
    (ascii "reuse-class-name", flag c.reuse), (ascii "verbose", flag c.verbose)]

theorem sound_items (c : Choice) : ∀ item ∈ c.items, item.Sound := by
  intro item member
  have slot := List.reduceOption_mem_iff.mp member
  simp only [List.mem_cons, List.not_mem_nil, or_false] at slot
  rcases slot with given | given | given | given | given | given
  · obtain ⟨name, held, rfl⟩ := Option.map_eq_some_iff.mp given.symm
    exact c.class_sound name held
  · cases given
    exact c.jar_named
  · obtain ⟨value, held, rfl⟩ := Option.map_eq_some_iff.mp given.symm
    exact c.out_named value held
  · obtain ⟨value, held, rfl⟩ := Option.map_eq_some_iff.mp given.symm
    exact c.cfr_named value held
  · unfold raised at given
    split at given <;> cases given
    trivial
  · unfold raised at given
    split at given <;> cases given
    trivial

theorem entries_items (c : Choice) : c.items.map Item.entry = Values.ofFields c.fields := by
  have slots : ∀ given item name, item.entry = (name, []) →
      (raised given item).map Item.entry = (flag given).map (name, ·) := by
    rintro (_ | _) item name entry
    · rfl
    · exact congrArg some entry
  have fields : Values.ofFields c.fields = (c.fields.map fun field => field.2.map (field.1, ·)).reduceOption := by
    rw [List.reduceOption, List.filterMap_map]
    rfl
  rw [fields, items, ← List.reduceOption_map]
  simp only [List.map_cons, List.map_nil, Option.map_map, slots c.reuse .reuse _ rfl, slots c.verbose .verbose _ rfl]
  rfl

theorem distinct_fields (c : Choice) : (c.fields.map Prod.fst).Nodup := by
  have names : [ascii "CLASS", ascii "jar", ascii "out", ascii "cfr", ascii "reuse-class-name", ascii "verbose"].Nodup := by
    decide
  exact names

/-- The values that are read from a line with these items in any order. -/
theorem values_of_perm (c : Choice) {items : List Item} (order : items.Perm c.items) :
    (items.map fun item => item.entry.1).Nodup ∧
      ∀ name, Values.get? (items.map Item.entry).reverse name = (c.fields.lookup name).join := by
  have perm : ((items.map Item.entry).reverse).Perm (Values.ofFields c.fields) :=
    (List.reverse_perm _).trans (c.entries_items ▸ order.map Item.entry)
  have distinct : ((Values.ofFields c.fields).map Prod.fst).Nodup :=
    c.distinct_fields.sublist (Values.keys_ofFields c.fields)
  have distinct' := (perm.map Prod.fst).nodup_iff.mpr distinct
  refine ⟨?_, fun name => ?_⟩
  · rwa [List.map_reverse, List.nodup_reverse, List.map_map] at distinct'
  · rw [Values.get?_of_perm perm distinct', Values.get?_ofFields c.distinct_fields]

theorem ofValues_of_fields (c : Choice) {values : Values} (same : ∀ name, values.get? name = (c.fields.lookup name).join) :
    Arguments.ofValues values = .ok c.arguments := by
  have className : values.get? (ascii "CLASS") = c.className := same _
  have jar : values.get? (ascii "jar") = some c.jar := same _
  have out : values.get? (ascii "out") = c.out := same _
  have cfr : values.get? (ascii "cfr") = c.cfr := same _
  have reuse : values.has (ascii "reuse-class-name") = c.reuse := by
    rw [Values.has_eq, same]
    exact isSome_flag c.reuse
  have verbose : values.has (ascii "verbose") = c.verbose := by
    rw [Values.has_eq, same]
    exact isSome_flag c.verbose
  have known : ¬ (c.reuse = true ∧ c.className.isNone = true) := by
    rintro ⟨reused, none⟩
    have some := c.reuse_known reused
    rw [Option.isNone_iff_eq_none.mp none] at some
    cases some
  simp only [Arguments.ofValues, className, jar, out, cfr, reuse, verbose, if_neg known]
  rfl

end Choice

/-- A command line of the items of a choice, in any order and each by any of its spellings, is read as that choice. -/
theorem parse_normalize (c : Choice) {program : Bytes} {items : List Item} {groups : List (List Bytes)}
    (named : program ≠ terminator) (order : items.Perm c.items) (spelled : List.Forall₂ Spelled items groups) :
    Arguments.parse (normalize (program :: groups.flatten)) = .ok c.arguments := by
  obtain ⟨distinct, same⟩ := c.values_of_perm order
  have sound : ∀ item ∈ items, item.Sound := fun item member => c.sound_items item (order.mem_iff.mp member)
  rw [normalize, if_neg named, Arguments.parse, List.tail_cons, read_spelled spelled sound distinct]
  exact c.ofValues_of_fields same

/-- A choice without a decompiler of its own. -/
def Choice.sample : Choice where
  className := some (ascii "com.acme.Foo")
  jar := ascii "jar"
  out := some (ascii "build=src")
  cfr := none
  reuse := true
  verbose := true
  class_sound := by
    rintro name ⟨⟩
    exact ⟨by decide, by decide, by decide⟩
  jar_named := by decide
  out_named := by decide
  cfr_named := by decide
  reuse_known := by decide

theorem parse_normalize_sample :
    Arguments.parse (normalize [ascii "jarsrc", ascii "-out=build=src", ascii "-v", ascii "com.acme.Foo", ascii "-jar",
      ascii "jar", ascii "--reuse-class-name"]) =
        .ok ⟨some (ascii "com.acme.Foo"), ⟨ascii "jar"⟩, ⟨ascii "build=src"⟩, ⟨ascii "cfr.jar"⟩, true, true⟩ := by
  have named : ascii "jarsrc" ≠ terminator := by decide
  have order : [.set .out (ascii "build=src"), .verbose, .className (ascii "com.acme.Foo"), .set .jar (ascii "jar"),
      .reuse].Perm Choice.sample.items := by decide
  have spelled : List.Forall₂ Spelled
      [.set .out (ascii "build=src"), .verbose, .className (ascii "com.acme.Foo"), .set .jar (ascii "jar"), .reuse]
      [[ascii "-out=build=src"], [ascii "-v"], [ascii "com.acme.Foo"], [ascii "-jar", ascii "jar"],
        [ascii "--reuse-class-name"]] :=
    .cons (.attached .out (by decide)) (.cons (.modern .letter) (.cons (.modern (.className _))
      (.cons (.apart .jar (by decide)) (.cons (.modern .reuse) .nil))))
  exact parse_normalize Choice.sample named order spelled

end Unjar.CommandLine
