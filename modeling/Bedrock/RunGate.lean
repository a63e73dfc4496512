import Bedrock.Support.Pool

/-!
# RUN against CREATE_FORKED_VM

`handle_run` claims a VM with a compare-and-swap, checks once that the VM has no children,
and then enters the guest as often as the page pool runs dry.  `handle_create_forked_vm`
counts a child before it builds the fork and does not look at the claim.  Calls are the
processes here, and the two atomics of each VM are the shared state.
-/

namespace Bedrock

open Support Function

variable {V : Type}

/-- The atomics of the VMs, which are named by their ids. -/
structure VmAtomics (V : Type) where
  running : V → Bool
  childrenCount : V → Nat

/-- Where a call has got to.  A forked VM that is alive is a process as well: its only
step is to be dropped. -/
inductive Call (V : Type)
  /-- RUN before its compare-and-swap. -/
  | run (vm : V)
  | claimed (vm : V)
  | refused (vm : V)
  /-- At the top of the refill loop. -/
  | ready (vm : V) (poolExhausted : Bool)
  /-- In `vm.run`: guest code executes. -/
  | executing (vm : V)
  /-- About to drop the guard that clears the flag. -/
  | leaving (vm : V)
  /-- CREATE_FORKED_VM before it takes the handler lock. -/
  | fork (parent : V)
  | forking (parent : V)
  | child (parent : V)
  deriving DecidableEq

namespace VmAtomics

variable [DecidableEq V]

def setRunning (s : VmAtomics V) (vm : V) (b : Bool) : VmAtomics V :=
  { s with running := Function.update s.running vm b }

/-- `add_child` -/
def addChild (s : VmAtomics V) (vm : V) : VmAtomics V :=
  { s with childrenCount := Function.update s.childrenCount vm (s.childrenCount vm + 1) }

/-- `remove_child` -/
def removeChild (s : VmAtomics V) (vm : V) : VmAtomics V :=
  { s with childrenCount := Function.update s.childrenCount vm (s.childrenCount vm - 1) }

/-- `can_run` -/
def canRun (s : VmAtomics V) (vm : V) : Bool :=
  s.childrenCount vm = 0

@[simp] theorem addChild_childrenCount (s : VmAtomics V) (vm vm' : V) :
    (s.addChild vm).childrenCount vm' =
      if vm' = vm then s.childrenCount vm + 1 else s.childrenCount vm' := by
  simp [addChild, update_apply]

@[simp] theorem removeChild_childrenCount (s : VmAtomics V) (vm vm' : V) :
    (s.removeChild vm).childrenCount vm' =
      if vm' = vm then s.childrenCount vm - 1 else s.childrenCount vm' := by
  simp [removeChild, update_apply]

end VmAtomics

/-- The atomic steps. -/
inductive CallStep [DecidableEq V] : VmAtomics V → Call V → VmAtomics V → Option (Call V) → Prop
  | busy {s : VmAtomics V} {vm : V} (h : s.running vm = true) : CallStep s (.run vm) s none
  | claim {s : VmAtomics V} {vm : V} (h : s.running vm = false) :
      CallStep s (.run vm) (s.setRunning vm true) (some (.claimed vm))
  | mayRun {s : VmAtomics V} {vm : V} (h : s.canRun vm = true) :
      CallStep s (.claimed vm) s (some (.ready vm false))
  | hasChildren {s : VmAtomics V} {vm : V} (h : s.canRun vm = false) :
      CallStep s (.claimed vm) s (some (.refused vm))
  | refuse {s : VmAtomics V} {vm : V} :
      CallStep s (.refused vm) (s.setRunning vm false) none
  | enter {s : VmAtomics V} {vm : V} {poolExhausted : Bool} :
      CallStep s (.ready vm poolExhausted) s (some (.executing vm))
  -- only a pool that ran dry is refilled
  | refillFailed {s : VmAtomics V} {vm : V} :
      CallStep s (.ready vm true) s (some (.leaving vm))
  | poolExhausted {s : VmAtomics V} {vm : V} :
      CallStep s (.executing vm) s (some (.ready vm true))
  | exit {s : VmAtomics V} {vm : V} : CallStep s (.executing vm) s (some (.leaving vm))
  | release {s : VmAtomics V} {vm : V} :
      CallStep s (.leaving vm) (s.setRunning vm false) none
  | notFound {s : VmAtomics V} {vm : V} : CallStep s (.fork vm) s none
  | addChild {s : VmAtomics V} {vm : V} :
      CallStep s (.fork vm) (s.addChild vm) (some (.forking vm))
  | forkFailed {s : VmAtomics V} {vm : V} :
      CallStep s (.forking vm) (s.removeChild vm) none
  | forked {s : VmAtomics V} {vm : V} : CallStep s (.forking vm) s (some (.child vm))
  | dropped {s : VmAtomics V} {vm : V} :
      CallStep s (.child vm) (s.removeChild vm) none

def Call.Begins : Call V → Prop
  | .run _ | .fork _ => True
  | _ => False

def Call.PastCheck (vm : V) : Call V → Prop
  | .ready vm' _ | .executing vm' => vm' = vm
  | _ => False

def freshSystem : Pool (VmAtomics V) (Call V) :=
  ⟨⟨fun _ => false, fun _ => 0⟩, 0⟩

variable [DecidableEq V]

/-- What is reached by steps that satisfy `allowed`. -/
def CallsReach (allowed : VmAtomics V → Call V → Option (Call V) → Multiset (Call V) → Prop) :
    Pool (VmAtomics V) (Call V) → Prop :=
  Pool.Reachable Call.Begins CallStep allowed freshSystem

def anyStep (_ : VmAtomics V) (_ : Call V) (_ : Option (Call V)) (_ : Multiset (Call V)) : Prop :=
  True

/-- A child is counted only while no RUN of the VM is past its check. -/
def noLateChild (_ : VmAtomics V) (_ : Call V) (next : Option (Call V))
    (rest : Multiset (Call V)) : Prop :=
  ∀ vm, next = some (.forking vm) → ∀ call ∈ rest, ¬call.PastCheck vm

theorem run_entered (allowed : VmAtomics Nat → Call Nat → Option (Call Nat) →
      Multiset (Call Nat) → Prop)
    (hclaim : ∀ s, allowed s (.run 0) (some (.claimed 0)) 0)
    (hready : ∀ s, allowed s (.claimed 0) (some (.ready 0 false)) 0)
    (henter : ∀ s, allowed s (.ready 0 false) (some (.executing 0)) 0) :
    CallsReach allowed
      ⟨(freshSystem.shared : VmAtomics Nat).setRunning 0 true, .executing 0 ::ₘ 0⟩ := by
  have hbegins : Call.Begins (.run 0 : Call Nat) := trivial
  exact Relation.ReflTransGen.refl.tail (.spawn hbegins)
    |>.tail (.act (.claim rfl) (hclaim _))
    |>.tail (.act (.mayRun rfl) (hready _))
    |>.tail (.act .enter (henter _))

end Bedrock
