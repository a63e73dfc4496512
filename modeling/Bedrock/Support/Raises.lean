import Bedrock.Support.Drive

/-!
# The errors of a program

`Raises Q m` says that every error of `m` is one of `Q`.  It is a class, so that the
errors of a program are found from those of its parts.
-/

namespace Support

open Program

variable {ε δ σ τ α β : Type}

class Raises (Q : ε → Prop) (m : Program ε σ α) : Prop where
  error : ∀ {s s' e}, m s = (.error e, s') → Q e

namespace Raises

variable {Q : ε → Prop}

instance (a : α) : Raises Q (pure a : Program ε σ α) where
  error h := by cases h

instance (f : σ → α × σ) : Raises Q (act f : Program ε σ α) where
  error h := by cases h

instance (f : σ → α) : Raises Q (read f : Program ε σ α) where
  error h := by cases h

instance (f : σ → σ) : Raises Q (update f : Program ε σ Unit) where
  error h := by cases h

theorem exit {e : ε} (h : Q e) : Raises Q (exit e : Program ε σ α) where
  error heq := by
    cases heq
    exact h

theorem mapExit {h : δ → ε} {m : Program δ σ α} (hQ : ∀ e, Q (h e)) : Raises Q (m.mapExit h) where
  error {s s' e} heq := by
    unfold Program.mapExit at heq
    split at heq
    · cases heq
    · cases heq
      exact hQ _

theorem bind {m : Program ε σ α} {k : α → Program ε σ β} (hm : Raises Q m)
    (hk : ∀ a, Raises Q (k a)) : Raises Q (m >>= k) where
  error {s s' e} heq := by
    rw [bind_apply] at heq
    rcases hs : m s with ⟨e' | a, s''⟩
    · rw [hs] at heq
      cases heq
      exact hm.error hs
    · rw [hs] at heq
      exact (hk a).error heq

instance instBind {m : Program ε σ α} {k : α → Program ε σ β} [hm : Raises Q m]
    [hk : ∀ a, Raises Q (k a)] : Raises Q (m >>= k) :=
  .bind hm hk

instance instIte {c : Prop} [Decidable c] {m n : Program ε σ α} [hm : Raises Q m] [hn : Raises Q n] :
    Raises Q (if c then m else n) := by
  split
  · exact hm
  · exact hn

instance instDrive {turn : τ → Program ε σ (Option α)} [hturn : ∀ t, Raises Q (turn t)] (ts : List τ) :
    Raises Q (drive turn ts) := by
  induction ts with
  | nil => exact ⟨fun h => by cases h⟩
  | cons t ts ih =>
    refine ⟨fun {s s' e} h => ?_⟩
    rcases hrun : turn t s with ⟨e' | _ | a, s''⟩
    · rw [drive_of_error hrun] at h
      cases h
      exact (hturn t).error hrun
    · rw [drive_of_continued hrun] at h
      exact ih.error h
    · rw [drive_of_ended hrun] at h
      cases h

end Raises

end Support
