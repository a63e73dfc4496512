import Mathlib.Tactic.Common

/-!
# Runs with invisible steps

A system advances by ticks and may, between two ticks, take any number of invisible
steps.  If an invisible step keeps the view of the state and a tick is a function of the
view, then the view depends on the number of ticks alone: two runs with as many ticks
from states of one view end in states of one view, however the invisible steps are
interleaved.
-/

namespace Support

/-- A system whose ticks act on the view and whose silent steps do not change it.  A tick
may be blocked until a silent step has been taken. -/
structure Stuttering (σ ω : Type) where
  view : σ → ω
  tick : σ → Option σ
  silent : σ → σ → Prop
  silent_view : ∀ {s s' : σ}, silent s s' → view s' = view s
  tick_view : ∀ {s t s' t' : σ}, view s = view t → tick s = some s' → tick t = some t' →
    view s' = view t'

namespace Stuttering

variable {σ ω : Type} (S : Stuttering σ ω)

/-- `S.Reaches n s s'`: from `s` to `s'` in `n` ticks, with silent steps anywhere. -/
inductive Reaches : Nat → σ → σ → Prop
  | refl (s : σ) : Reaches 0 s s
  | silent {n : Nat} {s t u : σ} (h : S.silent s t) (hrest : Reaches n t u) : Reaches n s u
  | tick {n : Nat} {s t u : σ} (h : S.tick s = some t) (hrest : Reaches n t u) :
      Reaches (n + 1) s u

variable {S} {n m : Nat} {s t u s' t' : σ}

theorem Reaches.trans (hst : S.Reaches n s t) (htu : S.Reaches m t u) : S.Reaches (n + m) s u := by
  induction hst with
  | refl s =>
    rw [Nat.zero_add]
    exact htu
  | silent h _ ih => exact .silent h (ih htu)
  | tick h _ ih =>
    rw [Nat.add_right_comm]
    exact .tick h (ih htu)

/-- Without ticks the view stays. -/
theorem Reaches.view_eq (h : S.Reaches 0 s s') : S.view s' = S.view s := by
  generalize hn : 0 = n at h
  induction h with
  | refl s => rfl
  | silent h _ ih => exact (ih hn).trans (S.silent_view h)
  | tick h _ _ => cases hn

/-- The first tick, and the silent steps before it. -/
theorem Reaches.split (h : S.Reaches (n + 1) s u) :
    ∃ s₁ t, S.Reaches 0 s s₁ ∧ S.tick s₁ = some t ∧ S.Reaches n t u := by
  generalize hn : n + 1 = k at h
  induction h with
  | refl s => cases hn
  | silent h _ ih =>
    obtain ⟨s₁, t, hbefore, htick, hafter⟩ := ih hn
    exact ⟨s₁, t, .silent h hbefore, htick, hafter⟩
  | @tick k s t u h hrest _ =>
    cases hn
    exact ⟨s, t, .refl s, h, hrest⟩

/-- The view depends on the number of ticks alone. -/
theorem Reaches.view_unique (hs : S.Reaches n s s') (ht : S.Reaches n t t')
    (hview : S.view s = S.view t) : S.view s' = S.view t' := by
  induction n generalizing s t with
  | zero => rw [hs.view_eq, ht.view_eq, hview]
  | succ n ih =>
    obtain ⟨s₁, s₂, hs₁, hstick, hs₂⟩ := hs.split
    obtain ⟨t₁, t₂, ht₁, httick, ht₂⟩ := ht.split
    have hbefore : S.view s₁ = S.view t₁ := by rw [hs₁.view_eq, ht₁.view_eq, hview]
    exact ih hs₂ ht₂ (S.tick_view hbefore hstick httick)

end Stuttering

end Support
