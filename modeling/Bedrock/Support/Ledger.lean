import Mathlib.Data.List.Basic

/-!
# Ledgers

A system holds items in some order.  A step may take items in and hand items out.
It balances if what was held and what came in is what went out and what is held
afterwards, in this order.  Steps that do not balance lose items; no step can make
up for that, so a path balances exactly if each of its steps does.
-/

namespace Support

open List

/-- States that hold items and steps that take them in and hand them out. -/
structure Ledger (σ τ β : Type) where
  pre : τ → σ
  post : τ → σ
  held : σ → List β
  taken : τ → List β
  handed : τ → List β

namespace Ledger

variable {σ τ β : Type} (L : Ledger σ τ β)

/-- The steps lead from `s` to `s'`. -/
def Path : σ → List τ → σ → Prop
  | s, [], s' => s = s'
  | s, t :: ts, s' => L.pre t = s ∧ Path (L.post t) ts s'

/-- Nothing is lost, and items leave in the order they came in. -/
def Balances (t : τ) : Prop :=
  L.held (L.pre t) ++ L.taken t = L.handed t ++ L.held (L.post t)

/-- More items come in than go out or stay. -/
def Loses (t : τ) : Prop :=
  (L.handed t).length + (L.held (L.post t)).length <
    (L.held (L.pre t)).length + (L.taken t).length

variable {L} {s s' : σ} {ts : List τ}

/-- An invariant of the steps holds before each of them and at the end. -/
theorem Path.invariant {I : σ → Prop} (hpath : L.Path s ts s')
    (hstep : ∀ t ∈ ts, I (L.pre t) → I (L.post t)) (hs : I s) : (∀ t ∈ ts, I (L.pre t)) ∧ I s' := by
  induction ts generalizing s with
  | nil =>
    cases hpath
    exact ⟨by simp, hs⟩
  | cons t ts ih =>
    obtain ⟨rfl, hrest⟩ := hpath
    have hnext := hstep t mem_cons_self hs
    obtain ⟨hpre, hend⟩ := ih hrest (fun u hu => hstep u (mem_cons_of_mem t hu)) hnext
    exact ⟨forall_mem_cons.mpr ⟨hs, hpre⟩, hend⟩

theorem Path.balanced (hpath : L.Path s ts s') (hsteps : ∀ t ∈ ts, L.Balances t) :
    L.held s ++ ts.flatMap L.taken = ts.flatMap L.handed ++ L.held s' := by
  induction ts generalizing s with
  | nil =>
    cases hpath
    simp
  | cons t ts ih =>
    obtain ⟨rfl, hrest⟩ := hpath
    obtain ⟨hfirst, htail⟩ := forall_mem_cons.mp hsteps
    rw [flatMap_cons, flatMap_cons, ← append_assoc, hfirst, append_assoc,
      ih hrest htail, append_assoc]

/-- Along a path items are never invented, and a step that loses some shows at its end. -/
theorem Path.length_le (hpath : L.Path s ts s') (hsteps : ∀ t ∈ ts, L.Balances t ∨ L.Loses t) :
    (ts.flatMap L.handed).length + (L.held s').length ≤
        (L.held s).length + (ts.flatMap L.taken).length ∧
      ((∃ t ∈ ts, L.Loses t) → (ts.flatMap L.handed).length + (L.held s').length <
        (L.held s).length + (ts.flatMap L.taken).length) := by
  induction ts generalizing s with
  | nil =>
    cases hpath
    simp
  | cons t ts ih =>
    obtain ⟨rfl, hrest⟩ := hpath
    obtain ⟨hfirst, htail⟩ := forall_mem_cons.mp hsteps
    obtain ⟨hle, hlt⟩ := ih hrest htail
    have hstep : (L.handed t).length + (L.held (L.post t)).length ≤
        (L.held (L.pre t)).length + (L.taken t).length := by
      rcases hfirst with hbalances | hloses
      · have hlength := congrArg List.length hbalances
        simp only [length_append] at hlength
        omega
      · exact Nat.le_of_lt hloses
    simp only [flatMap_cons, length_append, exists_mem_cons_iff]
    refine ⟨by omega, ?_⟩
    rintro (hloses | hlater)
    · unfold Loses at hloses
      omega
    · have := hlt hlater
      omega

/-- A path balances exactly if each of its steps does. -/
theorem Path.balanced_iff (hpath : L.Path s ts s') (hsteps : ∀ t ∈ ts, L.Balances t ∨ L.Loses t) :
    L.held s ++ ts.flatMap L.taken = ts.flatMap L.handed ++ L.held s' ↔ ∀ t ∈ ts, ¬L.Loses t := by
  constructor
  · intro hbalanced t ht hloses
    have hlt := (hpath.length_le hsteps).2 ⟨t, ht, hloses⟩
    have hlength := congrArg List.length hbalanced
    simp only [length_append] at hlength
    omega
  · intro hnone
    exact hpath.balanced fun t ht => (hsteps t ht).resolve_right (hnone t ht)

end Ledger

end Support
