import Unjar.World

/-!
Reasoning about tasks: what a task that ended well, or with an error, went through, and pairs of tasks
that keep a relation between the worlds they work on.
-/

namespace Unjar.Task

variable {ε ε' α β γ δ : Type}

/-- The world that is left, whatever came of a task. -/
def left : EStateM.Result ε World α → World
  | .ok _ w | .error _ w => w

def outcome : EStateM.Result ε World α → Except ε α
  | .ok a _ => .ok a
  | .error e _ => .error e

theorem ok_of_outcome {result : EStateM.Result ε World α} {a : α} (told : outcome result = .ok a) :
    result = .ok a (left result) := by
  cases result with
  | ok b w => cases told; rfl
  | error e w => cases told

theorem error_of_outcome {result : EStateM.Result ε World α} {e : ε} (told : outcome result = .error e) :
    result = .error e (left result) := by
  cases result with
  | ok b w => cases told
  | error e w => cases told; rfl

theorem bind_ok {task : Task ε α} {next : α → Task ε β} {w w₂ : World} {b : β}
    (ran : (task >>= next) w = .ok b w₂) : ∃ a w₁, task w = .ok a w₁ ∧ next a w₁ = .ok b w₂ := by
  simp only [bind, EStateM.bind] at ran
  cases first : task w with
  | ok a w₁ => rw [first] at ran; exact ⟨a, w₁, rfl, ran⟩
  | error e w₁ => rw [first] at ran; cases ran

theorem bind_error {task : Task ε α} {next : α → Task ε β} {w w₂ : World} {e : ε}
    (ran : (task >>= next) w = .error e w₂) :
    task w = .error e w₂ ∨ ∃ a w₁, task w = .ok a w₁ ∧ next a w₁ = .error e w₂ := by
  simp only [bind, EStateM.bind] at ran
  cases first : task w with
  | ok a w₁ => rw [first] at ran; exact Or.inr ⟨a, w₁, rfl, ran⟩
  | error e' w₁ => rw [first] at ran; cases ran; exact Or.inl rfl

theorem bind_of_ok {task : Task ε α} (next : α → Task ε β) {w w₁ : World} {a : α} (ran : task w = .ok a w₁) :
    (task >>= next) w = next a w₁ := by
  simp only [bind, EStateM.bind, ran]

theorem bind_of_error {task : Task ε α} (next : α → Task ε β) {w w₁ : World} {e : ε} (ran : task w = .error e w₁) :
    (task >>= next) w = .error e w₁ := by
  simp only [bind, EStateM.bind, ran]

/-- Tasks with one outcome are followed alike, if what is done next is alike in the world that was left. -/
theorem bind_congr {task task' : Task ε α} {next next' : α → Task ε β} {w w' : World} (first : task w = task' w')
    (later : ∀ a w₁, task w = .ok a w₁ → next a w₁ = next' a w₁) : (task >>= next) w = (task' >>= next') w' := by
  simp only [bind, EStateM.bind, ← first]
  cases ran : task w with
  | ok a w₁ => exact later a w₁ ran
  | error e w₁ => rfl

theorem withError_ok {wrap : ε → ε'} {task : Task ε α} {w w₁ : World} {a : α} :
    task.withError wrap w = .ok a w₁ ↔ task w = .ok a w₁ := by
  unfold withError EStateM.adaptExcept
  cases task w <;> simp

theorem withError_error {wrap : ε → ε'} {task : Task ε α} {w w₁ : World} {e' : ε'} :
    task.withError wrap w = .error e' w₁ ↔ ∃ e, task w = .error e w₁ ∧ e' = wrap e := by
  unfold withError EStateM.adaptExcept
  cases task w with
  | ok a w₁ => simp
  | error e w₁ =>
    constructor
    · intro same
      cases same
      exact ⟨e, rfl, rfl⟩
    · rintro ⟨e, same, rfl⟩
      cases same
      rfl

theorem files_run (w : World) : (files : Task ε FileSystem) w = .ok w.files w := rfl

theorem tell_run (event : Event) (w : World) :
    (tell event : Task ε Unit) w = .ok () { w with events := w.events ++ [event] } := rfl

theorem query_run (ask : FileSystem → Except ε α) (w : World) :
    query ask w = match ask w.files with
      | .ok answer => .ok answer w
      | .error e => .error e w := by
  unfold query
  rw [bind_of_ok _ (files_run w)]
  cases ask w.files <;> rfl

theorem attempt_run (operation : FileSystem → Except ε α × FileSystem) (w : World) :
    attempt operation w = match (operation w.files).1 with
      | .ok value => .ok value { w with files := (operation w.files).2 }
      | .error e => .error e { w with files := (operation w.files).2 } := by
  unfold attempt
  rw [bind_of_ok _ (files_run w)]
  rcases operation w.files with ⟨result, after⟩
  cases result <;> rfl

theorem change_run (operation : FileSystem → Except ε FileSystem) (w : World) :
    change operation w = match operation w.files with
      | .ok changed => .ok () { w with files := changed }
      | .error e => .error e w := by
  unfold change
  rw [bind_of_ok _ (files_run w)]
  cases operation w.files <;> rfl

theorem query_ok {ask : FileSystem → Except ε α} {w w₁ : World} {a : α} :
    query ask w = .ok a w₁ ↔ ask w.files = .ok a ∧ w = w₁ := by
  rw [query_run]
  cases ask w.files with
  | ok answer => simp
  | error e => simp

theorem query_error {ask : FileSystem → Except ε α} {w w₁ : World} {e : ε} :
    query ask w = .error e w₁ ↔ ask w.files = .error e ∧ w = w₁ := by
  rw [query_run]
  cases ask w.files with
  | ok answer => simp
  | error e => simp

theorem attempt_ok {operation : FileSystem → Except ε α × FileSystem} {w w₁ : World} {a : α} :
    attempt operation w = .ok a w₁ ↔
      (operation w.files).1 = .ok a ∧ w₁ = { w with files := (operation w.files).2 } := by
  rw [attempt_run]
  cases (operation w.files).1 with
  | ok value => simp [eq_comm]
  | error e => simp

theorem attempt_error {operation : FileSystem → Except ε α × FileSystem} {w w₁ : World} {e : ε} :
    attempt operation w = .error e w₁ ↔
      (operation w.files).1 = .error e ∧ w₁ = { w with files := (operation w.files).2 } := by
  rw [attempt_run]
  cases (operation w.files).1 with
  | ok value => simp
  | error e => simp [eq_comm]

theorem change_ok {operation : FileSystem → Except ε FileSystem} {w w₁ : World} :
    change operation w = .ok () w₁ ↔ ∃ changed, operation w.files = .ok changed ∧ w₁ = { w with files := changed } := by
  rw [change_run]
  cases operation w.files with
  | ok changed => simp [eq_comm]
  | error e => simp

/-- How a task ends that is started in a world: with a value and a world of which `Q` holds, or with an
error and a world of which `E` holds. -/
def Ends (task : Task ε α) (w : World) (Q : α → World → Prop) (E : ε → World → Prop) : Prop :=
  match task w with
  | .ok a w' => Q a w'
  | .error e w' => E e w'

namespace Ends

variable {Q Q' : α → World → Prop} {E E' : ε → World → Prop} {w : World}

theorem intro {task : Task ε α} (well : ∀ a w', task w = .ok a w' → Q a w')
    (failed : ∀ e w', task w = .error e w' → E e w') : Ends task w Q E := by
  unfold Ends
  cases ran : task w with
  | ok a w' => exact well a w' ran
  | error e w' => exact failed e w' ran

theorem of_ok {task : Task ε α} (ends : Ends task w Q E) {a : α} {w' : World} (ran : task w = .ok a w') : Q a w' := by
  rwa [Ends, ran] at ends

theorem of_error {task : Task ε α} (ends : Ends task w Q E) {e : ε} {w' : World} (ran : task w = .error e w') :
    E e w' := by
  rwa [Ends, ran] at ends

/-- Tasks with one outcome end alike. -/
theorem congr {task task' : Task ε α} {w' : World} (same : task w = task' w') (ends : Ends task' w' Q E) :
    Ends task w Q E := by
  rwa [Ends, same]

theorem left {task : Task ε α} {P : World → Prop} (ends : Ends task w (fun _ => P) fun _ => P) :
    P (left (task w)) := by
  unfold Ends at ends
  cases ran : task w with
  | ok a w' => rwa [ran] at ends
  | error e w' => rwa [ran] at ends

theorem mono {task : Task ε α} (ends : Ends task w Q E) (well : ∀ a w', Q a w' → Q' a w')
    (failed : ∀ e w', E e w' → E' e w') : Ends task w Q' E' :=
  .intro (fun a w' ran => well a w' (ends.of_ok ran)) fun e w' ran => failed e w' (ends.of_error ran)

theorem pure {a : α} (here : Q a w) : Ends (pure a : Task ε α) w Q E := here

theorem throw {e : ε} (here : E e w) : Ends (throw e : Task ε α) w Q E := here

theorem bind {task : Task ε α} {next : α → Task ε β} {R : β → World → Prop} (first : Ends task w Q E)
    (later : ∀ a w', Q a w' → Ends (next a) w' R E) : Ends (task >>= next) w R E := by
  unfold Ends at first ⊢
  simp only [Bind.bind, EStateM.bind]
  cases ran : task w with
  | ok a w' => rw [ran] at first; exact later a w' first
  | error e w' => rw [ran] at first; exact first

/-- A step that is left out where nothing is given to do it with. -/
theorem optional {task rest : Task ε α} {f : β → Task ε Unit} {x : Option β} {P : World → Prop} (ready : P w)
    (absent : x = none → task = rest) (present : ∀ b, x = some b → task = f b >>= fun _ => rest)
    (first : ∀ b, x = some b → Ends (f b) w (fun _ => P) E) (later : ∀ w', P w' → Ends rest w' Q E) :
    Ends task w Q E := by
  cases x with
  | none =>
    rw [absent rfl]
    exact later w ready
  | some b =>
    rw [present b rfl]
    exact (first b rfl).bind fun _ w' ready' => later w' ready'

theorem withError {wrap : ε → ε'} {task : Task ε α} {E' : ε' → World → Prop}
    (inner : Ends task w Q fun e => E' (wrap e)) : Ends (task.withError wrap) w Q E' := by
  unfold Ends at inner ⊢
  unfold Task.withError EStateM.adaptExcept
  cases ran : task w with
  | ok a w' => rw [ran] at inner; exact inner
  | error e w' => rw [ran] at inner; exact inner

theorem query {ask : FileSystem → Except ε α} (well : ∀ a, ask w.files = .ok a → Q a w)
    (failed : ∀ e, ask w.files = .error e → E e w) : Ends (query ask) w Q E := by
  unfold Ends
  rw [query_run]
  cases asked : ask w.files with
  | ok a => exact well a asked
  | error e => exact failed e asked

theorem attempt {operation : FileSystem → Except ε α × FileSystem}
    (well : ∀ a, (operation w.files).1 = .ok a → Q a { w with files := (operation w.files).2 })
    (failed : ∀ e, (operation w.files).1 = .error e → E e { w with files := (operation w.files).2 }) :
    Ends (attempt operation) w Q E := by
  unfold Ends
  rw [attempt_run]
  cases tried : (operation w.files).1 with
  | ok a => exact well a tried
  | error e => exact failed e tried

theorem change {operation : FileSystem → Except ε FileSystem} {Q : Unit → World → Prop}
    (well : ∀ changed, operation w.files = .ok changed → Q () { w with files := changed })
    (failed : ∀ e, operation w.files = .error e → E e w) : Ends (change operation) w Q E := by
  unfold Ends
  rw [change_run]
  cases tried : operation w.files with
  | ok changed => exact well changed tried
  | error e => exact failed e tried

end Ends

/-- How two tasks may end that mirror each other: alike, or one of them with an error that is
forgiven. -/
inductive Mirrored (forgiven : ε → Prop) (V : α → β → Prop) (R : World → World → Prop) :
    EStateM.Result ε World α → EStateM.Result ε World β → Prop
  | ok {a : α} {b : β} {w w' : World} : V a b → R w w' → Mirrored forgiven V R (.ok a w) (.ok b w')
  | error {e : ε} {w w' : World} : R w w' → Mirrored forgiven V R (.error e w) (.error e w')
  | left {e : ε} {w : World} {result : EStateM.Result ε World β} :
      forgiven e → Mirrored forgiven V R (.error e w) result
  | right {e : ε} {w' : World} {result : EStateM.Result ε World α} :
      forgiven e → Mirrored forgiven V R result (.error e w')

/-- Tasks that end alike in related worlds, and leave related worlds behind. -/
def Mirror (forgiven : ε → Prop) (V : α → β → Prop) (R : World → World → Prop) (task : Task ε α)
    (task' : Task ε β) : Prop :=
  ∀ w w', R w w' → Mirrored forgiven V R (task w) (task' w')

namespace Mirror

variable {forgiven : ε → Prop} {V : α → β → Prop} {V' : γ → δ → Prop} {R : World → World → Prop}

theorem pure {a : α} {b : β} (same : V a b) : Mirror forgiven V R (pure a) (pure b) :=
  fun _ _ related => .ok same related

theorem throw (e : ε) : Mirror forgiven V R (throw e) (throw e) :=
  fun _ _ related => .error related

/-- Tasks that ended alike are followed by tasks that end alike. -/
theorem bind_at {task : Task ε α} {task' : Task ε β} {next : α → Task ε γ} {next' : β → Task ε δ} {w w' : World}
    (first : Mirrored forgiven V R (task w) (task' w'))
    (then' : ∀ a b, V a b → Mirror forgiven V' R (next a) (next' b)) :
    Mirrored forgiven V' R ((task >>= next) w) ((task' >>= next') w') := by
  simp only [Bind.bind, EStateM.bind]
  revert first
  cases task w with
  | ok a w₁ =>
    cases task' w' with
    | ok b w₁' =>
      rintro (⟨same, related⟩ | _ | _ | _)
      exact then' a b same w₁ w₁' related
    | error e w₁' =>
      rintro (_ | _ | _ | fine)
      exact .right fine
  | error e w₁ =>
    cases task' w' with
    | ok b w₁' =>
      rintro (_ | _ | fine | _)
      exact .left fine
    | error e' w₁' =>
      rintro (_ | related | fine | fine)
      · exact .error related
      · exact .left fine
      · exact .right fine

theorem bind {task : Task ε α} {task' : Task ε β} {next : α → Task ε γ} {next' : β → Task ε δ}
    (first : Mirror forgiven V R task task') (then' : ∀ a b, V a b → Mirror forgiven V' R (next a) (next' b)) :
    Mirror forgiven V' R (task >>= next) (task' >>= next') :=
  fun w w' related => bind_at (first w w' related) then'

theorem withError {forgiven' : ε' → Prop} {wrap : ε → ε'} {task : Task ε α} {task' : Task ε β}
    (inner : Mirror forgiven V R task task') (forgives : ∀ e, forgiven e → forgiven' (wrap e)) :
    Mirror forgiven' V R (task.withError wrap) (task'.withError wrap) := by
  intro w w' related
  have ended := inner w w' related
  unfold Task.withError EStateM.adaptExcept
  revert ended
  cases task w with
  | ok a w₁ =>
    cases task' w' with
    | ok b w₁' =>
      rintro (⟨same, related⟩ | _ | _ | _)
      exact .ok same related
    | error e w₁' =>
      rintro (_ | _ | _ | fine)
      exact .right (forgives e fine)
  | error e w₁ =>
    cases task' w' with
    | ok b w₁' =>
      rintro (_ | _ | fine | _)
      exact .left (forgives e fine)
    | error e' w₁' =>
      rintro (_ | related | fine | fine)
      · exact .error related
      · exact .left (forgives _ fine)
      · exact .right (forgives _ fine)

theorem query {ask ask' : FileSystem → Except ε α} (same : ∀ w w', R w w' → ask w.files = ask' w'.files) :
    Mirror forgiven Eq R (query ask) (query ask') := by
  intro w w' related
  rw [query_run, query_run, same w w' related]
  cases ask' w'.files with
  | ok answer => exact .ok rfl related
  | error e => exact .error related

theorem attempt {operation operation' : FileSystem → Except ε α × FileSystem}
    (same : ∀ w w', R w w' → (operation w.files).1 = (operation' w'.files).1 ∧
      R { w with files := (operation w.files).2 } { w' with files := (operation' w'.files).2 }) :
    Mirror forgiven Eq R (attempt operation) (attempt operation') := by
  intro w w' related
  obtain ⟨result, left⟩ := same w w' related
  rw [attempt_run, attempt_run, result]
  cases (operation' w'.files).1 with
  | ok value => exact .ok rfl left
  | error e => exact .error left

/-- A change is an attempt that leaves nothing behind when it fails. -/
theorem change {operation operation' : FileSystem → Except ε FileSystem}
    (same : ∀ w w', R w w' →
      match operation w.files, operation' w'.files with
      | .ok changed, .ok changed' => R { w with files := changed } { w' with files := changed' }
      | .error e, .error e' => e = e'
      | _, _ => False) :
    Mirror forgiven Eq R (change operation) (change operation') := by
  intro w w' related
  have ended := same w w' related
  rw [change_run, change_run]
  revert ended
  cases operation w.files with
  | ok changed =>
    cases operation' w'.files with
    | ok changed' => exact fun left => .ok rfl left
    | error e => exact False.elim
  | error e =>
    cases operation' w'.files with
    | ok changed' => exact False.elim
    | error e' =>
      rintro rfl
      exact .error related

theorem tell (event event' : Event) (unheard : ∀ w w', R w w' →
      R { w with events := w.events ++ [event] } { w' with events := w'.events ++ [event'] }) :
    Mirror forgiven Eq R (tell event) (tell event') :=
  fun w w' related => .ok rfl (unheard w w' related)

/-- Where nothing is forgiven inside, nothing has to be outside. -/
theorem wrapped {forgiven' : ε' → Prop} {wrap : ε → ε'} {task : Task ε α} {task' : Task ε β}
    (inner : Mirror (fun _ => False) V R task task') :
    Mirror forgiven' V R (task.withError wrap) (task'.withError wrap) :=
  inner.withError fun _ => False.elim

theorem foldlM {σ τ ι : Type} {V : σ → τ → Prop} {visit : σ → ι → Task ε σ} {visit' : τ → ι → Task ε τ}
    {items : List ι} (each : ∀ item ∈ items, ∀ a b, V a b → Mirror forgiven V R (visit a item) (visit' b item)) :
    ∀ a b, V a b → Mirror forgiven V R (items.foldlM visit a) (items.foldlM visit' b) := by
  induction items with
  | nil => exact fun a b same => pure same
  | cons item rest ih =>
    intro a b same
    simp only [List.foldlM_cons]
    exact bind (each item List.mem_cons_self a b same)
      (ih fun other member => each other (List.mem_cons_of_mem _ member))

end Mirror

section Folds

variable {σ ι : Type} {visit : σ → ι → Task ε σ}

/-- Where a fold that failed stopped. -/
theorem foldlM_error {items : List ι} {a : σ} {e : ε} {w w₂ : World}
    (failed : items.foldlM visit a w = .error e w₂) :
    ∃ front item back b w₁, items = front ++ item :: back ∧ front.foldlM visit a w = .ok b w₁ ∧
      visit b item w₁ = .error e w₂ := by
  induction items generalizing a w with
  | nil => cases failed
  | cons item rest ih =>
    rw [List.foldlM_cons] at failed
    rcases bind_error failed with here | ⟨b, w₁, done, later⟩
    · exact ⟨[], item, rest, a, w, rfl, rfl, here⟩
    · obtain ⟨front, stopped, back, c, w₃, split, passed, atStop⟩ := ih later
      refine ⟨item :: front, stopped, back, c, w₃, by rw [split]; rfl, ?_, atStop⟩
      rw [List.foldlM_cons, bind_of_ok _ done]
      exact passed

/-- What every step of a fold keeps is kept by the fold, and it fails as one of its steps does. -/
theorem Ends.foldlM {P : World → Prop} {E : ε → World → Prop} {items : List ι}
    (each : ∀ item ∈ items, ∀ a w, P w → Ends (visit a item) w (fun _ => P) E) {a : σ} {w : World}
    (here : P w) : Ends (items.foldlM visit a) w (fun _ => P) E := by
  induction items generalizing a w with
  | nil => exact .pure here
  | cons item rest ih =>
    rw [List.foldlM_cons]
    exact (each item List.mem_cons_self a w here).bind fun b w' kept =>
      ih (fun other member => each other (List.mem_cons_of_mem _ member)) kept

/-- A fold whose steps are folds themselves is one fold over all their parts. -/
theorem foldlM_flatMap {κ : Type} {kept : World → Prop} {step : σ → κ → Task ε σ} {parts : κ → List ι}
    {entries : List κ}
    (each : ∀ entry ∈ entries, ∀ a w, kept w → step a entry w = (parts entry).foldlM visit a w ∧
      ∀ b w', step a entry w = .ok b w' → kept w') :
    ∀ a w, kept w → entries.foldlM step a w = (entries.flatMap parts).foldlM visit a w ∧
      ∀ b w', entries.foldlM step a w = .ok b w' → kept w' := by
  induction entries with
  | nil =>
    intro a w here
    refine ⟨rfl, fun b w' ran => ?_⟩
    cases ran
    exact here
  | cons entry rest ih =>
    intro a w here
    obtain ⟨first, stays⟩ := each entry List.mem_cons_self a w here
    have later := ih fun other member => each other (List.mem_cons_of_mem _ member)
    rw [List.foldlM_cons, List.flatMap_cons, List.foldlM_append]
    simp only [bind, EStateM.bind, ← first]
    cases ended : step a entry w with
    | ok b w' => exact later b w' (stays b w' ended)
    | error e w' =>
      refine ⟨rfl, fun b w'' ran => ?_⟩
      cases ran

end Folds

end Unjar.Task
