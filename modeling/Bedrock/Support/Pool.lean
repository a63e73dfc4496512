import Mathlib.Data.Multiset.Filter
import Mathlib.Logic.Relation

/-!
# Processes over a shared state

Any number of processes take atomic steps on one shared state, in any order.  A step
changes the shared state and turns its process into another one or ends it.  The three
rules at the end are those by which such systems are verified: an invariant of the whole
pool, an assertion about every process that the steps of the others leave true, and a
component of the shared state that counts processes.
-/

namespace Support

/-- The shared state and the processes that are under way. -/
structure Pool (S P : Type) where
  shared : S
  procs : Multiset P

namespace Pool

variable {S P : Type}

/-- `start` says which processes can appear, `step` what each can do, and `allowed` which
of these steps are taken in the company of the other processes. -/
inductive Step (start : P → Prop) (step : S → P → S → Option P → Prop)
    (allowed : S → P → Option P → Multiset P → Prop) : Pool S P → Pool S P → Prop
  | spawn {s : S} {p : P} {procs : Multiset P} (h : start p) :
      Step start step allowed ⟨s, procs⟩ ⟨s, p ::ₘ procs⟩
  | act {s s' : S} {p : P} {next : Option P} {rest : Multiset P} (h : step s p s' next)
      (hallowed : allowed s p next rest) :
      Step start step allowed ⟨s, p ::ₘ rest⟩ ⟨s', next.elim rest (· ::ₘ rest)⟩

/-- The pools that can be reached from `init`. -/
def Reachable (start : P → Prop) (step : S → P → S → Option P → Prop)
    (allowed : S → P → Option P → Multiset P → Prop) (init : Pool S P) : Pool S P → Prop :=
  Relation.ReflTransGen (Step start step allowed) init

variable {start : P → Prop} {step : S → P → S → Option P → Prop}
  {allowed : S → P → Option P → Multiset P → Prop} {init pool : Pool S P}

theorem Reachable.invariant {I : Pool S P → Prop} (hreach : Reachable start step allowed init pool)
    (hinit : I init)
    (hstep : ∀ {pool next}, Step start step allowed pool next → I pool → I next) : I pool := by
  induction hreach with
  | refl => exact hinit
  | tail _ h ih => exact hstep h ih

/-- Every process satisfies an assertion that it establishes itself and that the steps of
the others leave true. -/
theorem Reachable.forall_procs {J : S → P → Prop} (hreach : Reachable start step allowed init pool)
    (hinit : ∀ p ∈ init.procs, J init.shared p) (hspawn : ∀ {s p}, start p → J s p)
    (hown : ∀ {s p s' p'}, step s p s' (some p') → J s p → J s' p')
    (hother : ∀ {s p s' next rest}, step s p s' next → allowed s p next rest →
      ∀ q ∈ rest, J s q → J s' q) : ∀ p ∈ pool.procs, J pool.shared p := by
  refine hreach.invariant (I := fun pool => ∀ p ∈ pool.procs, J pool.shared p) hinit ?_
  intro pool next hstep ih
  cases hstep with
  | spawn h =>
    intro q hq
    rcases Multiset.mem_cons.mp hq with rfl | hq
    · exact hspawn h
    · exact ih q hq
  | @act s s' p next rest h hallowed =>
    have hrest : ∀ q ∈ rest, J s' q := fun q hq =>
      hother h hallowed q hq (ih q (Multiset.mem_cons_of_mem hq))
    cases next with
    | none => exact hrest
    | some p' =>
      intro q hq
      rcases Multiset.mem_cons.mp hq with rfl | hq
      · exact hown h (ih p (Multiset.mem_cons_self p rest))
      · exact hrest q hq

end Pool

end Support
