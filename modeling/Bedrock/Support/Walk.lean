import Bedrock.Support.Ledger

/-!
# Walks

A step leads from one state to another and carries a label that says what happened.
A walk is a list of steps, each of which starts where the one before it ended.
The rules below lift what single steps preserve to whole walks: an invariant, an
invariant that each step keeps exactly if it is safe, what is held until a step clears
it, and a property of steps that depends on a summary of the steps taken so far.
-/

namespace Support

open List

/-- One step: the states it leads from and to, and what happened. -/
structure Transition (σ τ : Type) where
  pre : σ
  label : τ
  post : σ

variable {σ τ : Type}

/-- The steps lead from `s` to `s'`. -/
def Walk : σ → List (Transition σ τ) → σ → Prop
  | s, [], s' => s = s'
  | s, t :: ts, s' => t.pre = s ∧ Walk t.post ts s'

/-- Every step meets the condition, given a summary of the steps before it. -/
def Along {γ : Type} (note : γ → Transition σ τ → γ) (P : γ → Transition σ τ → Prop) :
    γ → List (Transition σ τ) → Prop
  | _, [] => True
  | g, t :: ts => P g t ∧ Along note P (note g t) ts

namespace Walk

variable {s s' : σ} {ts : List (Transition σ τ)}

/-- An invariant of the steps holds around each of them and at the end. -/
theorem invariant {I : σ → Prop} (hwalk : Walk s ts s')
    (hstep : ∀ t ∈ ts, I t.pre → I t.post) (hs : I s) : (∀ t ∈ ts, I t.pre ∧ I t.post) ∧ I s' := by
  induction ts generalizing s with
  | nil =>
    cases hwalk
    exact ⟨by simp, hs⟩
  | cons t ts ih =>
    obtain ⟨rfl, hrest⟩ := hwalk
    have hnext := hstep t mem_cons_self hs
    obtain ⟨hall, hend⟩ := ih hrest (fun u hu => hstep u (mem_cons_of_mem t hu)) hnext
    exact ⟨forall_mem_cons.mpr ⟨⟨hs, hnext⟩, hall⟩, hend⟩

/-- If steps keep the invariant exactly when they are safe, it holds after every step
of a walk exactly if all its steps are safe. -/
theorem invariant_iff {I : σ → Prop} {Safe : Transition σ τ → Prop} (hwalk : Walk s ts s')
    (hstep : ∀ t ∈ ts, I t.pre → (I t.post ↔ Safe t)) (hs : I s) :
    (∀ t ∈ ts, I t.post) ↔ ∀ t ∈ ts, Safe t := by
  induction ts generalizing s with
  | nil => simp
  | cons t ts ih =>
    obtain ⟨rfl, hrest⟩ := hwalk
    have hfirst := hstep t mem_cons_self hs
    have hlater := fun hnext => ih hrest (fun u hu => hstep u (mem_cons_of_mem t hu)) hnext
    rw [forall_mem_cons, forall_mem_cons]
    constructor
    · rintro ⟨hnext, hall⟩
      exact ⟨hfirst.mp hnext, (hlater hnext).mp hall⟩
    rintro ⟨hsafe, hall⟩
    have hnext := hfirst.mpr hsafe
    exact ⟨hnext, (hlater hnext).mpr hall⟩

/-- Where the steps before and after a given step lead. -/
theorem split {before after : List (Transition σ τ)} {t : Transition σ τ}
    (hwalk : Walk s (before ++ t :: after) s') : Walk s before t.pre ∧ Walk t.post after s' := by
  induction before generalizing s with
  | nil => exact ⟨hwalk.1.symm, hwalk.2⟩
  | cons u us ih =>
    obtain ⟨hpre, hrest⟩ := hwalk
    obtain ⟨hbefore, hafter⟩ := ih hrest
    exact ⟨⟨hpre, hbefore⟩, hafter⟩

theorem append {s'' : σ} {us : List (Transition σ τ)} (hwalk : Walk s ts s') (hmore : Walk s' us s'') :
    Walk s (ts ++ us) s'' := by
  induction ts generalizing s with
  | nil =>
    cases hwalk
    exact hmore
  | cons t ts ih =>
    obtain ⟨hpre, hrest⟩ := hwalk
    exact ⟨hpre, ih hrest⟩

/-- What a state holds along steps that keep or clear it. -/
theorem held {β : Type} {f : σ → β} {e : β} {C : Transition σ τ → Prop}
    (hwalk : Walk s ts s') (hkeep : ∀ t ∈ ts, ¬C t → f t.post = f t.pre)
    (hclear : ∀ t ∈ ts, C t → f t.post = e) :
    ((∀ t ∈ ts, ¬C t) → f s' = f s) ∧ ((∃ t ∈ ts, C t) → f s' = e) := by
  constructor
  · intro hnone
    exact (hwalk.invariant (I := fun u => f u = f s)
      (fun t ht h => (hkeep t ht (hnone t ht)).trans h) rfl).2
  rintro ⟨t, ht, hclears⟩
  obtain ⟨before, after, rfl⟩ := append_of_mem ht
  obtain ⟨-, hrest⟩ := hwalk.split
  refine (hrest.invariant (I := fun u => f u = e) (fun u hu h => ?_) (hclear t ht hclears)).2
  have hmem : u ∈ before ++ t :: after :=
    mem_append_right before (mem_cons_of_mem t hu)
  by_cases hu' : C u
  · exact hclear u hmem hu'
  · exact (hkeep u hmem hu').trans h

/-- A property of steps from an invariant that relates the state to a summary of the
steps taken so far. -/
theorem along {γ : Type} {I : γ → σ → Prop} {P : γ → Transition σ τ → Prop}
    {Q : Transition σ τ → Prop} {note : γ → Transition σ τ → γ} {g : γ} (hwalk : Walk s ts s')
    (hstep : ∀ t ∈ ts, ∀ g, I g t.pre → I (note g t) t.post)
    (hprop : ∀ t ∈ ts, ∀ g, I g t.pre → P g t → Q t) (hs : I g s) (halong : Along note P g ts) :
    ∀ t ∈ ts, Q t := by
  induction ts generalizing s g with
  | nil => exact forall_mem_nil _
  | cons t ts ih =>
    obtain ⟨rfl, hrest⟩ := hwalk
    obtain ⟨hfirst, hlater⟩ := halong
    refine forall_mem_cons.mpr ⟨hprop t mem_cons_self g hs hfirst, ?_⟩
    exact ih hrest (fun u hu => hstep u (mem_cons_of_mem t hu))
      (fun u hu => hprop u (mem_cons_of_mem t hu)) (hstep t mem_cons_self g hs) hlater

/-- An invariant that relates the state to a summary of the steps taken. -/
theorem folded {γ : Type} {I : γ → σ → Prop} {note : γ → Transition σ τ → γ} {g : γ}
    (hwalk : Walk s ts s') (hstep : ∀ t ∈ ts, ∀ g, I g t.pre → I (note g t) t.post) (hs : I g s) :
    I (ts.foldl note g) s' := by
  induction ts generalizing s g with
  | nil =>
    cases hwalk
    exact hs
  | cons t ts ih =>
    obtain ⟨rfl, hrest⟩ := hwalk
    exact ih hrest (fun u hu => hstep u (mem_cons_of_mem t hu))
      (hstep t mem_cons_self g hs)

/-- A walk is a path of every ledger its transitions are steps of. -/
theorem ledgerPath {σ' τ' β : Type} {L : Ledger σ' τ' β} {f : σ → σ'} {g : Transition σ τ → τ'}
    (hpre : ∀ t, L.pre (g t) = f t.pre) (hpost : ∀ t, L.post (g t) = f t.post)
    (hwalk : Walk s ts s') : L.Path (f s) (ts.map g) (f s') := by
  induction ts generalizing s with
  | nil => exact congrArg f hwalk
  | cons t ts ih =>
    obtain ⟨rfl, hrest⟩ := hwalk
    refine ⟨hpre t, ?_⟩
    rw [hpost]
    exact ih hrest

end Walk

end Support
