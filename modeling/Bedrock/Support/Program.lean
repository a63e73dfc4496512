import Mathlib.Logic.Relation

/-!
# Stateful programs with early return

A `Program ε σ α` reads and writes a state `σ` and either produces an `α` or
returns early with an `ε`.  The state reached before an early return is kept,
as it is in imperative code that returns from the middle of a function.

The last two sections give the rules used to reason about such programs without
unfolding them: `Built` says that a program is put together from a class of
atomic actions, and one property of the atomic actions then carries over to the
whole program, for one run (`Built.rel`) and for two runs (`Built.respects`).
-/

namespace Support

/-- A program over `σ` which produces an `α` or returns early with an `ε`. -/
def Program (ε σ α : Type) : Type :=
  σ → Except ε α × σ

namespace Program

variable {ε δ σ α β : Type}

/-- Sequential composition; an early return skips the rest. -/
def andThen (m : Program ε σ α) (k : α → Program ε σ β) : Program ε σ β :=
  fun s =>
    match m s with
    | (.ok a, s') => k a s'
    | (.error e, s') => (.error e, s')

instance : Monad (Program ε σ) where
  pure a := fun s => (.ok a, s)
  bind := andThen

/-- Return early with `e`. -/
def exit (e : ε) : Program ε σ α :=
  fun s => (.error e, s)

/-- An atomic action: it never returns early. -/
def act (f : σ → α × σ) : Program ε σ α :=
  fun s => (.ok (f s).1, (f s).2)

def read (f : σ → α) : Program ε σ α :=
  act fun s => (f s, s)

def update (g : σ → σ) : Program ε σ Unit :=
  act fun s => ((), g s)

def call (f : σ → Except ε α × σ) : Program ε σ α :=
  f

/-- Translate the early-return value. -/
def mapExit (h : ε → δ) (m : Program ε σ α) : Program δ σ α :=
  fun s =>
    match m s with
    | (.ok a, s') => (.ok a, s')
    | (.error e, s') => (.error (h e), s')

/-- Run `m` and hand its outcome, early or not, to the caller. -/
def attempt (m : Program ε σ α) : Program δ σ (Except ε α) :=
  fun s => (.ok (m s).1, (m s).2)

/-- `match m { Err(e) => onError(e), Ok(a) => onOk(a) }` -/
def handle (m : Program ε σ α) (onError : ε → Program δ σ β) (onOk : α → Program δ σ β) :
    Program δ σ β :=
  attempt m >>= fun r =>
    match r with
    | .error e => onError e
    | .ok a => onOk a

def forEach (l : List β) (body : β → Program ε σ Unit) : Program ε σ Unit :=
  match l with
  | [] => pure ()
  | b :: l => body b >>= fun _ => forEach l body

/-- The state after a run that does not return early. -/
def done? (m : Program ε σ α) (s : σ) : Option σ :=
  match m s with
  | (.ok _, s') => some s'
  | (.error _, _) => none

@[simp] theorem pure_apply (a : α) (s : σ) :
    (pure a : Program ε σ α) s = (.ok a, s) := rfl

@[simp] theorem exit_apply (e : ε) (s : σ) :
    (exit e : Program ε σ α) s = (.error e, s) := rfl

@[simp] theorem act_apply (f : σ → α × σ) (s : σ) :
    (act f : Program ε σ α) s = (.ok (f s).1, (f s).2) := rfl

@[simp] theorem call_apply (f : σ → Except ε α × σ) (s : σ) : call f s = f s := rfl

@[simp] theorem read_apply (f : σ → α) (s : σ) :
    (read f : Program ε σ α) s = (.ok (f s), s) := rfl

@[simp] theorem update_apply (g : σ → σ) (s : σ) :
    (update g : Program ε σ Unit) s = (.ok (), g s) := rfl

theorem bind_apply (m : Program ε σ α) (k : α → Program ε σ β) (s : σ) :
    (m >>= k) s =
      match m s with
      | (.ok a, s') => k a s'
      | (.error e, s') => (.error e, s') := rfl

variable {k : α → Program ε σ β} {s' : σ} {m : Program ε σ α} {a : α} {s : σ}

theorem bind_ok (h : m s = (.ok a, s')) : (m >>= k) s = k a s' := by
  rw [bind_apply, h]

theorem bind_error {e : ε} (h : m s = (.error e, s')) : (m >>= k) s = (.error e, s') := by
  rw [bind_apply, h]

theorem act_bind (f : σ → α × σ) (k : α → Program ε σ β) (s : σ) :
    (act f >>= k) s = k (f s).1 (f s).2 := rfl

theorem read_bind (f : σ → α) (k : α → Program ε σ β) (s : σ) : (read f >>= k) s = k (f s) s := rfl

theorem bind_pure_unit (m : Program ε σ Unit) : (m >>= fun _ => pure ()) = m := by
  funext s
  rw [bind_apply]
  rcases m s with ⟨e | u, s'⟩ <;> rfl

/-- How a sequence can end: in its second part, or early in its first. -/
theorem bind_eq_iff {r : Except ε β × σ} :
    (m >>= k) s = r ↔
      (∃ a s', m s = (.ok a, s') ∧ k a s' = r) ∨
        ∃ e s', m s = (.error e, s') ∧ r = (.error e, s') := by
  rw [bind_apply]
  constructor
  · rintro rfl
    rcases hm : m s with ⟨e | a, s'⟩
    · exact Or.inr ⟨e, s', rfl, rfl⟩
    · exact Or.inl ⟨a, s', rfl, rfl⟩
  · rintro (⟨a, s', hm, rfl⟩ | ⟨e, s', hm, rfl⟩) <;> rw [hm]

/-- A sequence that does not return early goes through both parts. -/
theorem bind_eq_ok_iff {s'' : σ} {b : β} :
    (m >>= k) s = (.ok b, s'') ↔ ∃ a s', m s = (.ok a, s') ∧ k a s' = (.ok b, s'') := by
  rw [bind_eq_iff]
  constructor
  · rintro (h | ⟨e, s', -, h⟩)
    · exact h
    · cases h
  · exact Or.inl

@[simp] theorem attempt_apply (m : Program ε σ α) (s : σ) :
    (attempt m : Program δ σ (Except ε α)) s = (.ok (m s).1, (m s).2) := rfl

theorem handle_ok {onError : ε → Program δ σ β} {onOk : α → Program δ σ β}
    (h : m s = (.ok a, s')) : m.handle onError onOk s = onOk a s' := by
  unfold handle
  rw [bind_ok (attempt_apply m s), h]

theorem handle_error {onError : ε → Program δ σ β}
    {onOk : α → Program δ σ β} {e : ε} (h : m s = (.error e, s')) :
    m.handle onError onOk s = onError e s' := by
  unfold handle
  rw [bind_ok (attempt_apply m s), h]

/-- The final state of a translated program is that of the program. -/
@[simp] theorem mapExit_state (h : ε → δ) (m : Program ε σ α) (s : σ) :
    (m.mapExit h s).2 = (m s).2 := by
  unfold mapExit
  split <;> simp_all

/-- A transitive relation that both parts of a sequence establish holds across it. -/
theorem bind_rel {R : σ → σ → Prop} (htrans : ∀ {s t u}, R s t → R t u → R s u)
    (hm : ∀ s, R s (m s).2) (hk : ∀ a s, R s (k a s).2) (s : σ) : R s ((m >>= k) s).2 := by
  have hfirst := hm s
  rw [bind_apply]
  rcases hrun : m s with ⟨e | a, s'⟩
  · rw [hrun] at hfirst
    exact hfirst
  · rw [hrun] at hfirst
    exact htrans hfirst (hk a s')

theorem done?_eq_some_iff : m.done? s = some s' ↔ ∃ a, m s = (.ok a, s') := by
  rw [done?]
  rcases m s with ⟨e | a, s₁⟩
  · simp
  · simp

/-- What a loop relates if its body does, whether or not it returns early. -/
theorem forEach_rel {R : σ → σ → Prop} (hrefl : ∀ s, R s s)
    (htrans : ∀ {s t u}, R s t → R t u → R s u) {body : β → Program ε σ Unit}
    (hbody : ∀ b s, R s (body b s).2) (l : List β) (s : σ) : R s (forEach l body s).2 := by
  induction l generalizing s with
  | nil => exact hrefl s
  | cons b l ih =>
    have hrest : ∀ (_ : Unit) s, R s (forEach l body s).2 := fun _ => ih
    exact bind_rel (R := R) htrans (hbody b) hrest s

theorem done?_forEach (l : List β) (body : β → Program ε σ Unit) (s : σ) :
    (forEach l body).done? s = l.foldlM (fun s b => (body b).done? s) s := by
  induction l generalizing s with
  | nil => rfl
  | cons b l ih =>
    rw [List.foldlM_cons, forEach, done?, bind_apply, done?]
    rcases body b s with ⟨e | u, s'⟩
    · rfl
    · exact ih s'

theorem mapExit_eq_ok_iff {h : ε → δ} : m.mapExit h s = (.ok a, s') ↔ m s = (.ok a, s') := by
  unfold mapExit
  split <;> simp_all

/-- The run from `s` ends with `Q`, or returns early with `E`. -/
def Ends (m : Program ε σ α) (s : σ) (Q : α → σ → Prop) (E : ε → σ → Prop) : Prop :=
  match m s with
  | (.ok a, s') => Q a s'
  | (.error e, s') => E e s'

namespace Ends

variable {m : Program ε σ α} {s : σ} {Q Q' : α → σ → Prop} {E E' : ε → σ → Prop}

theorem imp (h : m.Ends s Q E) (hQ : ∀ a s', Q a s' → Q' a s') (hE : ∀ e s', E e s' → E' e s') :
    m.Ends s Q' E' := by
  unfold Ends at h ⊢
  rcases hrun : m s with ⟨e | a, s'⟩
  · rw [hrun] at h
    exact hE e s' h
  · rw [hrun] at h
    exact hQ a s' h

/-- Whether the run ended early is known at either end. -/
theorem isOk (h : m.Ends s Q E) :
    m.Ends s (fun a s' => Q a s' ∧ (m s).1.isOk) (fun e s' => E e s' ∧ ¬(m s).1.isOk) := by
  unfold Ends at h ⊢
  rcases hrun : m s with ⟨e | a, s'⟩
  · rw [hrun] at h
    exact ⟨h, Bool.false_ne_true⟩
  · rw [hrun] at h
    exact ⟨h, rfl⟩

theorem bind {R : β → σ → Prop} (hm : m.Ends s Q E)
    (hk : ∀ a s', Q a s' → (k a).Ends s' R E) : (m >>= k).Ends s R E := by
  unfold Ends at hm
  rcases hrun : m s with ⟨e | a, s'⟩
  · rw [hrun] at hm
    unfold Ends
    rw [bind_error hrun]
    exact hm
  · rw [hrun] at hm
    have hrest := hk a s' hm
    unfold Ends at hrest ⊢
    rw [bind_ok hrun]
    exact hrest

theorem read {f : σ → β} {k : β → Program ε σ α} (h : (k (f s)).Ends s Q E) :
    (Program.read f >>= k).Ends s Q E := h

theorem update {g : σ → σ} {k : Program ε σ α} (h : k.Ends (g s) Q E) :
    (Program.update g >>= fun _ => k).Ends s Q E := h

theorem mapExit {h : ε → δ} {E : δ → σ → Prop} (hm : m.Ends s Q fun e => E (h e)) :
    (m.mapExit h).Ends s Q E := by
  unfold Ends at hm ⊢
  unfold Program.mapExit
  rcases hrun : m s with ⟨e | a, s'⟩
  all_goals
    rw [hrun] at hm
    exact hm

end Ends

end Program

/-! ## Programs built from a class of actions -/

/-- `Built A m` says that `m` is composed of actions from the class `A`, of
early returns and of sequential composition.  It is a class, so that the
composition of a program is found by instance resolution. -/
class inductive Built {σ : Type} (A : ∀ α : Type, (σ → α × σ) → Prop) :
    ∀ {ε α : Type}, Program ε σ α → Prop
  | pure {ε α : Type} (a : α) : Built A (pure a : Program ε σ α)
  | exit {ε α : Type} (e : ε) : Built A (Program.exit e : Program ε σ α)
  | act {ε α : Type} {f : σ → α × σ} (h : A α f) :
      Built A (Program.act f : Program ε σ α)
  | bind {ε α β : Type} {m : Program ε σ α} {k : α → Program ε σ β}
      (hm : Built A m) (hk : ∀ a, Built A (k a)) : Built A (m >>= k)
  | mapExit {ε δ α : Type} {m : Program ε σ α} (h : ε → δ) (hm : Built A m) :
      Built A (m.mapExit h)
  | attempt {ε δ α : Type} {m : Program ε σ α} (hm : Built A m) :
      Built A (Program.attempt m : Program δ σ (Except ε α))

namespace Built

attribute [instance] Built.pure Built.exit

variable {ε δ σ α β : Type} {A : ∀ α : Type, (σ → α × σ) → Prop}

instance instBind {m : Program ε σ α} {k : α → Program ε σ β} [hm : Built A m]
    [hk : ∀ a, Built A (k a)] : Built A (m >>= k) :=
  .bind hm hk

/-- An action that may fail is an action whose result is then looked at. -/
theorem call {f : σ → Except ε α × σ} (h : A (Except ε α) f) : Built A (Program.call f) := by
  have hlook : Program.call f = Program.act f >>= fun r =>
      match r with
      | .ok a => (Pure.pure a : Program ε σ α)
      | .error e => Program.exit e := by
    funext s
    rw [Program.act_bind, Program.call_apply]
    rcases f s with ⟨e | a, s'⟩
    · rfl
    · rfl
  rw [hlook]
  refine .bind (.act h) fun r => ?_
  cases r with
  | ok a => exact .pure a
  | error e => exact .exit e

instance instMapExit {m : Program ε σ α} (h : ε → δ) [hm : Built A m] : Built A (m.mapExit h) :=
  .mapExit h hm

instance instAttempt {m : Program ε σ α} [hm : Built A m] :
    Built A (Program.attempt m : Program δ σ (Except ε α)) :=
  .attempt hm

instance instHandle {m : Program ε σ α} {onError : ε → Program δ σ β}
    {onOk : α → Program δ σ β} [hm : Built A m] [he : ∀ e, Built A (onError e)]
    [ho : ∀ a, Built A (onOk a)] : Built A (m.handle onError onOk) :=
  .bind (.attempt hm) fun r => by
    cases r
    · exact he _
    · exact ho _

/-- A two-branch program is built when both branches are. -/
instance instIte {c : Prop} [Decidable c] {m n : Program ε σ α} [hm : Built A m]
    [hn : Built A n] : Built A (if c then m else n) := by
  split
  · exact hm
  · exact hn

variable {m : Program ε σ α} {R : σ → σ → Prop}

/-- A larger class of actions builds more programs. -/
theorem mono {B : ∀ α : Type, (σ → α × σ) → Prop}
    (hAB : ∀ {α : Type} (f : σ → α × σ), A α f → B α f) (hm : Built A m) : Built B m := by
  induction hm with
  | pure a => exact .pure a
  | exit e => exact .exit e
  | act h => exact .act (hAB _ h)
  | bind _ _ ihm ihk => exact .bind ihm ihk
  | mapExit h _ ih => exact .mapExit h ih
  | attempt _ ih => exact .attempt ih

/-- One-run rule: a reflexive and transitive relation that every action of the
class establishes between its pre-state and its post-state holds between the
pre-state and the post-state of every program built from the class. -/
theorem rel (hrefl : ∀ s, R s s) (htrans : ∀ {s t u}, R s t → R t u → R s u)
    (hact : ∀ {α : Type} (f : σ → α × σ), A α f → ∀ s, R s (f s).2)
    (hm : Built A m) : ∀ s, R s (m s).2 := by
  induction hm with
  | pure a | exit e => exact fun s => hrefl s
  | act h => exact fun s => hact _ h s
  | bind _ _ ihm ihk => exact Program.bind_rel (R := R) htrans ihm ihk
  | mapExit h _ ih =>
    intro s
    rw [Program.mapExit_state]
    exact ih s
  | attempt _ ih => exact fun s => ih s

/-- The actions that respect a relation, as a class of their own. -/
def Keeping (R : σ → σ → Prop) (α : Type) (f : σ → α × σ) : Prop :=
  ∀ s, R s (f s).2

theorem keeping (hrefl : ∀ s, R s s)
    (htrans : ∀ {s t u}, R s t → R t u → R s u) (hm : Built (Keeping R) m) : ∀ s, R s (m s).2 :=
  hm.rel hrefl htrans fun _ h => h

/-- Two-run rule: if every action of the class, started in related states,
gives equal results and related states, so does every program built from the
class. -/
theorem respects (hact : ∀ {α : Type} (f : σ → α × σ), A α f →
      ∀ s t, R s t → (f s).1 = (f t).1 ∧ R (f s).2 (f t).2)
    (hm : Built A m) : ∀ s t, R s t → (m s).1 = (m t).1 ∧ R (m s).2 (m t).2 := by
  induction hm with
  | pure a | exit e => exact fun s t h => ⟨rfl, h⟩
  | act h =>
    intro s t hst
    obtain ⟨hvalue, hstate⟩ := hact _ h s t hst
    exact ⟨congrArg Except.ok hvalue, hstate⟩
  | @bind ε α β m k _ _ ihm ihk =>
    intro s t hst
    obtain ⟨hvalue, hstate⟩ := ihm s t hst
    rw [Program.bind_apply, Program.bind_apply]
    rcases hs : m s with ⟨rs, s'⟩
    rcases ht : m t with ⟨rt, t'⟩
    rw [hs, ht] at hvalue hstate
    dsimp only at hvalue hstate
    subst hvalue
    cases rs with
    | ok a => exact ihk a s' t' hstate
    | error e => exact ⟨rfl, hstate⟩
  | mapExit h _ ih =>
    intro s t hst
    obtain ⟨hvalue, hstate⟩ := ih s t hst
    refine ⟨?_, by simpa using hstate⟩
    unfold Program.mapExit
    split <;> split <;> simp_all
  | attempt _ ih =>
    intro s t hst
    obtain ⟨hvalue, hstate⟩ := ih s t hst
    exact ⟨congrArg Except.ok hvalue, hstate⟩

/-- The actions that two runs take alike, as a class of their own. -/
def Alike (R : σ → σ → Prop) (α : Type) (f : σ → α × σ) : Prop :=
  ∀ s t, R s t → (f s).1 = (f t).1 ∧ R (f s).2 (f t).2

theorem alike (hm : Built (Alike R) m) : ∀ s t, R s t → (m s).1 = (m t).1 ∧ R (m s).2 (m t).2 :=
  hm.respects fun _ h => h

end Built

/-- A program of actions that respect a relation. -/
abbrev Obeys {ε σ α : Type} (R : σ → σ → Prop) (m : Program ε σ α) : Prop :=
  Built (Built.Keeping R) m

end Support
