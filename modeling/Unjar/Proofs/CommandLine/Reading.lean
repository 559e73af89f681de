import Unjar.Proofs.CommandLine.Spelling

/-!
Reading a command line item by item. Between two items a reading is ready for any further one, also while the last
value is not settled.
-/

namespace Unjar.CommandLine

open Reading

/-- What an item adds to the values that were read. -/
def Item.entry : Item → Bytes × Bytes
  | className name => (ascii "CLASS", name)
  | set setting value => (setting.name, value)
  | reuse => (ascii "reuse-class-name", [])
  | verbose => (ascii "verbose", [])

/-- A reading that has nothing to settle. -/
def settled (given : Values) (positionals : List Bytes) : Reading :=
  { values := given, positionals := positionals }

/-- A reading between two items. A value that is not settled yet will be one of the values. -/
structure Ready (r : Reading) (given : Values) : Prop where
  looks : r.terminated = false
  fed : r.awaitsValue = false
  settles : r.settle = .ok (settled given r.positionals)
  places : r.positionals = if given.has (ascii "CLASS") then [] else [ascii "CLASS"]

theorem ready_start : Ready { positionals := Arguments.grammar.positionals } [] :=
  ⟨rfl, rfl, rfl, rfl⟩

variable {r : Reading} {given : Values}

theorem step_long (g : Grammar) (looks : r.terminated = false) {option : Bytes} (some : option ≠ []) :
    r.step g (dash :: dash :: option) = r.long g option := by
  have other : dash :: dash :: option ≠ terminator := fun same => some (List.cons.inj (List.cons.inj same).2).2
  unfold step
  rw [if_neg (by simp [looks]), if_neg other]
  rfl

theorem step_value (g : Grammar) (looks : r.terminated = false) {argument : Bytes}
    (value : argument.head? ≠ some dash) : r.step g argument = r.value argument := by
  unfold step
  rw [if_neg (by simp [looks]), if_neg (kept_of_head value).1]
  split
  · exact absurd rfl value
  · exact absurd rfl value
  · rfl

theorem has_cons_of_ne {entry : Bytes × Bytes} {name : Bytes} (other : entry.1 ≠ name) :
    Values.has (entry :: given) name = given.has name := by
  simp [Values.has, other]

theorem record_of_absent {name : Bytes} (absent : r.values.has name = false) (value : Bytes) :
    r.record name value = .ok { r with values := (name, value) :: r.values } := by
  rw [record, if_neg (by simp [absent])]

theorem recordValue_path {name value : Bytes} (absent : r.values.has name = false) (some : value ≠ []) :
    r.recordValue name .path value = .ok { r with values := (name, value) :: r.values } := by
  rw [recordValue, record_of_absent absent]
  exact if_neg some

theorem recordValue_text {name value : Bytes} (absent : r.values.has name = false) (valid : Utf8.valid value = true) :
    r.recordValue name .text value = .ok { r with values := (name, value) :: r.values } := by
  rw [recordValue, record_of_absent absent]
  exact if_pos valid

/-- After an item other than the name of the class there is as much left to read. -/
theorem Ready.next (ready : Ready r given) {r' : Reading} {entry : Bytes × Bytes} (looks : r'.terminated = false)
    (fed : r'.awaitsValue = false) (other : entry.1 ≠ ascii "CLASS") (places : r'.positionals = r.positionals)
    (settles : r'.settle = .ok (settled (entry :: given) r.positionals)) : Ready r' (entry :: given) :=
  ⟨looks, fed, by rw [settles, places], by rw [places, ready.places, has_cons_of_ne other]⟩

theorem Ready.apply_attached (ready : Ready r given) {s : Switch} {kind : ValueKind} (action : s.action = .set kind)
    (value : Bytes) : r.apply s (some value) = (settled given r.positionals).recordValue s.name kind value := by
  unfold apply
  simp only [action, ready.settles]
  rfl

theorem Ready.apply_apart (ready : Ready r given) {s : Switch} {kind : ValueKind} (action : s.action = .set kind) :
    r.apply s none = .ok { settled given r.positionals with unsettled := some ⟨s.name, kind, none⟩ } := by
  unfold apply
  simp only [action, ready.settles]
  rfl

theorem Ready.apply_raised (ready : Ready r given) {s : Switch} (action : s.action = .raise) :
    r.apply s none = (settled given r.positionals).record s.name [] := by
  unfold apply
  simp only [action, ready.settles]
  rfl

theorem Ready.className (ready : Ready r given) {name : Bytes} (sound : (Item.className name).Sound)
    (absent : given.has (ascii "CLASS") = false) :
    ∃ r', r.step Arguments.grammar name = .ok r' ∧ Ready r' ((Item.className name).entry :: given) := by
  obtain ⟨_, bare, valid⟩ := sound
  have places : r.positionals = [ascii "CLASS"] := by rw [ready.places, absent]; rfl
  have read : r.step Arguments.grammar name =
      .ok { values := given, unsettled := some ⟨ascii "CLASS", .text, some name⟩, positionals := [] } := by
    rw [step_value _ ready.looks bare, value]
    split
    · rename_i awaited
      have fed := ready.fed
      rw [awaitsValue, awaited] at fed
      cases fed
    · rw [positional, places]
      simp only [ready.settles]
      rfl
  refine ⟨_, read, rfl, rfl, ?_, by simp [Values.has, Item.entry]⟩
  exact recordValue_text absent valid

theorem find?_setting (setting : Setting) :
    Arguments.grammar.switches.find? (·.name == setting.name) = some { name := setting.name, action := .set .path } := by
  cases setting <;> rfl

theorem Setting.name_ne_class (setting : Setting) : setting.name ≠ ascii "CLASS" := by
  cases setting <;> decide

theorem Ready.attached (ready : Ready r given) {setting : Setting} {value : Bytes} (some : value ≠ [])
    (absent : given.has setting.name = false) :
    ∃ r', r.step Arguments.grammar (dash :: dash :: (setting.name ++ equals :: value)) = .ok r' ∧
      Ready r' ((Item.set setting value).entry :: given) := by
  have behind : (setting.name ++ equals :: value).dropWhile (· ≠ equals) = equals :: value := by
    cases setting <;> rfl
  have read : r.step Arguments.grammar (dash :: dash :: (setting.name ++ equals :: value)) =
      .ok (settled ((setting.name, value) :: given) r.positionals) := by
    rw [step_long _ ready.looks (setting.name_ne_nil _), long]
    simp only [setting.takeWhile_name, behind, find?_setting]
    rw [if_neg (by simp [takesValue]), ready.apply_attached rfl]
    exact recordValue_path absent some
  exact ⟨_, read, ready.next rfl rfl setting.name_ne_class rfl rfl⟩

theorem Ready.apart (ready : Ready r given) {setting : Setting} {value : Bytes} (some : value ≠ [])
    (bare : value.head? ≠ Option.some dash) (absent : given.has setting.name = false) :
    ∃ r', [dash :: dash :: setting.name, value].foldlM (step Arguments.grammar) r = .ok r' ∧
      Ready r' ((Item.set setting value).entry :: given) := by
  have named : setting.name.takeWhile (· ≠ equals) = setting.name := by
    cases setting <;> rfl
  have behind : setting.name.dropWhile (· ≠ equals) = [] := by
    cases setting <;> rfl
  have awaited : r.step Arguments.grammar (dash :: dash :: setting.name) =
      .ok { settled given r.positionals with unsettled := Option.some ⟨setting.name, .path, none⟩ } := by
    rw [step_long _ ready.looks (by simpa using setting.name_ne_nil []), long]
    simp only [named, behind, find?_setting]
    rw [if_neg (by simp), ready.apply_apart rfl]
  refine ⟨{ settled given r.positionals with unsettled := Option.some ⟨setting.name, .path, Option.some value⟩ }, ?_,
    ready.next rfl rfl setting.name_ne_class rfl ?_⟩
  · rw [List.foldlM_cons, awaited]
    simp only [bind, Except.bind, List.foldlM_cons, List.foldlM_nil]
    rw [step_value _ rfl bare]
    rfl
  · exact recordValue_path absent some

/-- A switch that is only raised is recorded. -/
theorem Ready.raised (ready : Ready r given) (s : Switch) (raise : s.action = .raise) (absent : given.has s.name = false)
    (other : s.name ≠ ascii "CLASS") {argument : Bytes} (read : r.step Arguments.grammar argument = r.apply s none) :
    ∃ r', r.step Arguments.grammar argument = .ok r' ∧ Ready r' ((s.name, []) :: given) := by
  have recorded : r.apply s none = .ok (settled ((s.name, []) :: given) r.positionals) :=
    (ready.apply_raised raise).trans (record_of_absent absent [])
  exact ⟨_, read.trans recorded, ready.next rfl rfl other rfl rfl⟩

def reuseSwitch : Switch :=
  { name := ascii "reuse-class-name", action := .raise }

def verboseSwitch : Switch :=
  { name := ascii "verbose", letter := some 0x76, action := .raise }

theorem step_letter (looks : r.terminated = false) :
    r.step Arguments.grammar (ascii "-v") = r.apply verboseSwitch none := by
  have one : r.step Arguments.grammar (ascii "-v") =
      r.apply verboseSwitch none >>= fun r' => r'.letters Arguments.grammar [] := by
    unfold step
    rw [if_neg (by simp [looks])]
    rfl
  rw [one]
  cases r.apply verboseSwitch none <;> rfl

theorem foldlM_one {g : Grammar} {word : Bytes} {r' : Reading} (read : r.step g word = .ok r') :
    [word].foldlM (step g) r = .ok r' := by
  rw [List.foldlM_cons, read]
  rfl

/-- One item is read as what it adds to the values. -/
theorem Ready.item (ready : Ready r given) {item : Item} {words : List Bytes} (modern : Modern item words)
    (sound : item.Sound) (absent : given.has item.entry.1 = false) :
    ∃ r', words.foldlM (step Arguments.grammar) r = .ok r' ∧ Ready r' (item.entry :: given) := by
  cases modern with
  | className name =>
    obtain ⟨r', read, ready'⟩ := ready.className sound absent
    exact ⟨r', foldlM_one read, ready'⟩
  | apart setting bare => exact ready.apart sound bare absent
  | attached setting value =>
    obtain ⟨r', read, ready'⟩ := ready.attached sound absent
    exact ⟨r', foldlM_one read, ready'⟩
  | reuse =>
    have read : r.step Arguments.grammar (ascii "--reuse-class-name") = r.apply reuseSwitch none :=
      @step_long r _ ready.looks (ascii "reuse-class-name") (by decide)
    obtain ⟨r', read, ready'⟩ := ready.raised reuseSwitch rfl absent (by decide) read
    exact ⟨r', foldlM_one read, ready'⟩
  | verbose =>
    have read : r.step Arguments.grammar (ascii "--verbose") = r.apply verboseSwitch none :=
      @step_long r _ ready.looks (ascii "verbose") (by decide)
    obtain ⟨r', read, ready'⟩ := ready.raised verboseSwitch rfl absent (by decide) read
    exact ⟨r', foldlM_one read, ready'⟩
  | letter =>
    obtain ⟨r', read, ready'⟩ := ready.raised verboseSwitch rfl absent (by decide) (step_letter ready.looks)
    exact ⟨r', foldlM_one read, ready'⟩

/-- A line of items with different names is read as what they add to the values. -/
theorem Ready.items {items : List Item} {groups : List (List Bytes)} (modern : List.Forall₂ Modern items groups)
    (ready : Ready r given) (sound : ∀ item ∈ items, item.Sound)
    (absent : ∀ item ∈ items, given.has item.entry.1 = false) (distinct : (items.map fun item => item.entry.1).Nodup) :
    ∃ r', groups.flatten.foldlM (step Arguments.grammar) r = .ok r' ∧
      Ready r' ((items.map Item.entry).reverse ++ given) := by
  induction modern generalizing r given with
  | nil => exact ⟨r, rfl, ready⟩
  | @cons item words items groups first _ ih =>
    rw [List.map_cons, List.nodup_cons] at distinct
    obtain ⟨r₁, read, ready₁⟩ := ready.item first (sound item List.mem_cons_self) (absent item List.mem_cons_self)
    have others : ∀ other ∈ items, Values.has (item.entry :: given) other.entry.1 = false := by
      intro other member
      have differs : item.entry.1 ≠ other.entry.1 := fun same =>
        distinct.1 (same ▸ List.mem_map.mpr ⟨other, member, rfl⟩)
      rw [has_cons_of_ne differs]
      exact absent other (List.mem_cons_of_mem _ member)
    obtain ⟨r', later, ready'⟩ := ih ready₁ (fun other member => sound other (List.mem_cons_of_mem _ member)) others
      distinct.2
    refine ⟨r', ?_, by simpa using ready'⟩
    rw [List.flatten_cons, List.foldlM_append, read]
    exact later

/-- A line of items with different names is read as their entries, the latest first. -/
theorem read_spelled {items : List Item} {groups : List (List Bytes)} (spelled : List.Forall₂ Spelled items groups)
    (sound : ∀ item ∈ items, item.Sound) (distinct : (items.map fun item => item.entry.1).Nodup) :
    Arguments.grammar.read (normalize groups.flatten) = .ok (items.map Item.entry).reverse := by
  obtain ⟨groups', modern, normalized⟩ := normalize_spelled sound spelled
  obtain ⟨r', read, ready⟩ := ready_start.items modern sound (fun _ _ => rfl) distinct
  rw [normalized, Grammar.read, read]
  simp only [bind, Except.bind, ready.settles, settled, List.append_nil]
  rfl

end Unjar.CommandLine
