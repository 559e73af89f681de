import Unjar.CommandLine.Arguments

/-!
A text is given in the place of values only by a switch that is there to show it.
-/

namespace Unjar.CommandLine

variable {α β : Type} {g : Grammar} {r : Reading}

/-- The action that ends a reading with a text. -/
def Refusal.action? : Refusal → Option Action
  | .help => some .showHelp
  | .version => some .showVersion
  | _ => none

/-- A result that is a text only where a switch shows it. -/
def Grammar.Candid (g : Grammar) (result : Except Refusal α) : Prop :=
  ∀ refusal action, result = .error refusal → refusal.action? = some action → ∃ s ∈ g.switches, s.action = action

namespace Grammar.Candid

theorem ok (a : α) : g.Candid (.ok a) := by
  intro refusal action failed
  cases failed

theorem error {refusal : Refusal} (mistake : refusal.action? = none) : g.Candid (α := α) (.error refusal) := by
  intro other action failed shown
  cases failed
  rw [mistake] at shown
  cases shown

theorem shown {s : Switch} (member : s ∈ g.switches) {refusal : Refusal} (shows : refusal.action? = some s.action) :
    g.Candid (α := α) (.error refusal) := by
  intro other action failed shown
  cases failed
  exact ⟨s, member, Option.some.inj (shows.symm.trans shown)⟩

theorem bind {first : Except Refusal α} {next : α → Except Refusal β} (candid : g.Candid first)
    (later : ∀ a, g.Candid (next a)) : g.Candid (first >>= next) := by
  cases first with
  | error refusal =>
    intro other action failed shown
    cases failed
    exact candid _ action rfl shown
  | ok a => exact later a

theorem ite {c : Prop} [Decidable c] {first second : Except Refusal α} (yes : g.Candid first) (no : g.Candid second) :
    g.Candid (if c then first else second) := by
  split
  · exact yes
  · exact no

theorem record (r : Reading) (name value : Bytes) : g.Candid (r.record name value) := by
  unfold Reading.record
  exact ite (error rfl) (ok _)

theorem recordValue (r : Reading) (name : Bytes) (kind : ValueKind) (value : Bytes) :
    g.Candid (r.recordValue name kind value) := by
  refine bind (record r name value) fun r' => ?_
  cases kind with
  | path => exact ite (error rfl) (ok _)
  | text => exact ite (ok _) (error rfl)

theorem settle (r : Reading) : g.Candid r.settle := by
  unfold Reading.settle
  split
  · exact ok r
  · split
    · exact error rfl
    · exact recordValue _ _ _ _

theorem apply (r : Reading) {s : Switch} (member : s ∈ g.switches) (attached : Option Bytes) :
    g.Candid (r.apply s attached) := by
  unfold Reading.apply
  split
  · exact bind (settle r) fun _ => recordValue _ _ _ _
  · exact bind (settle r) fun _ => ok _
  · exact bind (settle r) fun _ => record _ _ _
  · rename_i action
    exact bind (settle r) fun _ => shown member (by rw [action]; rfl)
  · rename_i action
    exact bind (settle r) fun _ => shown member (by rw [action]; rfl)

theorem long (r : Reading) (option : Bytes) : g.Candid (r.long g option) := by
  unfold Reading.long
  cases found : g.switches.find? (·.name == option.takeWhile (· ≠ equals)) with
  | none =>
    simp only [found]
    exact error rfl
  | some s =>
    simp only [found]
    exact ite (error rfl) (apply r (List.mem_of_find?_eq_some found) _)

theorem letters (r : Reading) (argument : Bytes) : g.Candid (r.letters g argument) := by
  induction argument generalizing r with
  | nil => exact ok r
  | cons letter rest ih =>
    unfold Reading.letters
    split
    · exact error rfl
    · rename_i found
      have member := List.mem_of_find?_eq_some found
      split
      · split <;> exact apply r member _
      · exact bind (apply r member none) ih

theorem positional (r : Reading) (argument : Bytes) : g.Candid (r.positional argument) := by
  unfold Reading.positional
  split
  · exact error rfl
  · exact bind (settle r) fun _ => ok _

theorem step (r : Reading) (argument : Bytes) : g.Candid (r.step g argument) := by
  unfold Reading.step
  refine ite (positional r argument) (ite (ok _) ?_)
  split
  · exact long r _
  · exact letters r _
  · unfold Reading.value
    split
    · exact ok _
    · exact positional r argument

theorem foldlM (arguments : List Bytes) (r : Reading) : g.Candid (arguments.foldlM (Reading.step g) r) := by
  induction arguments generalizing r with
  | nil => exact ok r
  | cons argument rest ih =>
    rw [List.foldlM_cons]
    exact bind (step r argument) ih

theorem read (g : Grammar) (arguments : List Bytes) : g.Candid (g.read arguments) :=
  bind (foldlM arguments _) fun r => bind (settle r) fun _ => ok _

end Grammar.Candid

end Unjar.CommandLine
