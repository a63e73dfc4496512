import Bedrock.ForkContext
import Bedrock.Ioctl
import Bedrock.Support.Walk

/-!
# Histories of a VM

What happens to a VM between its creation and now: iterations of the run loop, RUNs that
fail before the guest is entered, other ioctls, stores of userspace to mapped guest
memory, and forks, of which the child is followed.  A history is any sequence of such
steps; it need not be one that userspace would choose.
-/

namespace Bedrock

open Support ForkedVm

/-- Where a RUN can end before guest code runs: the VMCS cannot be loaded, the run cannot
be prepared, or no interrupt can be injected or the processor refuses the entry. -/
inductive AbortPoint
  | load | start | entry
  deriving DecidableEq, Repr

/-- The context such a RUN leaves behind. -/
def VmContext.abort (ctx : VmContext) (how : Resume) : AbortPoint → VmContext
  | .load => if how = .ioctl then ctx.setEvents ctx.state.events.clear else ctx
  | .start => (ctx.resume how).2
  | .entry => (ctx.enter how).2

inductive VmMove
  | iterate (it : Iteration)
  | abort (how : Resume) (point : AbortPoint)
  | ioctl (call : Ioctl)
  | store (memory : VmMemory)
  | fork (host : ForkHost)

abbrev VmStep := Transition VmContext VmMove

/-- The step does what the code does. -/
inductive VmStep.Valid : VmStep → Prop
  | iterate {it : Iteration} (hvalid : it.Valid) : Valid ⟨it.start, .iterate it, it.done⟩
  | abort (ctx : VmContext) (how : Resume) (point : AbortPoint) :
      Valid ⟨ctx, .abort how point, ctx.abort how point⟩
  | ioctl (ctx : VmContext) (call : Ioctl) : Valid ⟨ctx, .ioctl call, (ctx.ioctl call).2⟩
  | store {ctx : VmContext} {memory : VmMemory} (hstores : GuestStores ctx.memory memory) :
      Valid ⟨ctx, .store memory, ctx.setMemory memory⟩
  | fork {parent child : VmContext} {host : ForkHost}
      (hfork : new parent host = .ok child) : Valid ⟨parent, .fork host, child⟩

/-- The steps are valid and lead from `ctx` to `ctx'`. -/
structure History (ctx : VmContext) (ts : List VmStep) (ctx' : VmContext) : Prop where
  walk : Walk ctx ts ctx'
  valid : ∀ t ∈ ts, t.Valid

namespace VmStep

/-- The iteration from `pre` whose guest segment is `guest`. -/
def simulate (how : Resume) (pre : VmContext) (guest : VmContext → VmContext) : VmStep :=
  let it := Iteration.simulate how pre guest
  ⟨pre, .iterate it, it.done⟩

theorem simulate_valid {how : Resume} {pre : VmContext} {guest : VmContext → VmContext}
    (henter : (pre.enter how).1.isOk)
    (hran : Ran (pre.enter how).2 (guest (pre.enter how).2)) : (simulate how pre guest).Valid :=
  .iterate (Iteration.simulate_valid henter hran)

/-- The ioctl in `pre`. -/
def call (pre : VmContext) (ioctl : Ioctl) : VmStep :=
  ⟨pre, .ioctl ioctl, (pre.ioctl ioctl).2⟩

theorem call_valid (pre : VmContext) (ioctl : Ioctl) : (call pre ioctl).Valid :=
  .ioctl pre ioctl

end VmStep

/-! ## Parts along a history -/

namespace Part

/-- The ioctls that touch a part. -/
def touchedByIoctl : Part → Ioctl → Prop
  | nothing, _ => False
  | stackPointer, .setRegs _ _ => True
  | random, .setRdrandConfig _ _ => True
  | random, .setRdrandValue _ _ => True
  | random, .setRandomBytes _ _ => True
  | response, .queueIoAction _ _ => True
  | response, .drainIoResponse _ _ => True
  | signal, .queueIoAction _ _ => True
  | _, _ => False

theorem get_modifyRandom {p : Part} (hp : p ≠ .random) (ctx : VmContext)
    (f : RandomState → RandomState) : p.get (ctx.modifyRandom f) = p.get ctx := by
  cases p with
  | random => exact absurd rfl hp
  | _ => rfl

theorem get_setIoChannel {p : Part} (hp : p ≠ .response) (ctx : VmContext)
    (ioChannel : IoChannelState)
    (hsignal : p = .signal →
      ioChannel.requestDelivered = ctx.state.guest.ioChannel.requestDelivered) :
    p.get (ctx.setGuest { ctx.state.guest with ioChannel }) = p.get ctx := by
  cases p with
  | response => exact absurd rfl hp
  | signal => exact hsignal rfl
  | _ => rfl

theorem get_ioctl {p : Part} {call : Ioctl} (h : ¬p.touchedByIoctl call) (ctx : VmContext) :
    p.get (ctx.ioctl call).2 = p.get ctx := by
  have heffect := ctx.ioctl_effect call
  generalize (ctx.ioctl call).2 = after at heffect ⊢
  cases heffect with
  | registers regs host gprs fields =>
    cases p with
    | stackPointer => exact absurd trivial h
    | _ => rfl
  | rdrandConfigured config mode | rdrandValue value | randomBytes bytes =>
    refine get_modifyRandom ?_ ctx _
    rintro rfl
    exact h trivial
  | queued action host ioChannel =>
    refine get_setIoChannel ?_ ctx ioChannel ?_
    · rintro rfl
      exact h trivial
    · rintro rfl
      exact absurd trivial h
  | drained capacity host =>
    refine get_setIoChannel ?_ ctx _ fun _ => rfl
    rintro rfl
    exact h trivial
  | _ => exact p.get_of_untouched ⟨rfl, rfl⟩

theorem get_abort (p : Part) [p.Other .signal] [p.Other .requested] (ctx : VmContext) (how : Resume)
    (point : AbortPoint) : p.get (ctx.abort how point) = p.get ctx := by
  cases point with
  | load =>
    rw [VmContext.abort]
    split
    · exact p.get_of_untouched ⟨rfl, rfl⟩
    · rfl
  | start => exact p.frames.resume ctx how
  | entry => exact p.get_enter ctx how

theorem get_fork {p : Part} [hs : p.Other .signal] {parent child : VmContext} {host : ForkHost}
    (h : new parent host = .ok child) (hp : p ≠ .response) :
    p.get child = p.get parent := by
  have hcpu := new_cpuContext h
  cases p with
  | nothing => rfl
  | stackPointer =>
    exact Prod.ext (congrArg (fun c => c.gprs.rsp) hcpu)
      (congrArg (fun c => c.fields.value .guestRsp) hcpu)
  | xcr0 => exact congrArg CpuContext.xcr0Mask hcpu
  | random => exact congrArg (fun c => c.devices.random) hcpu
  | response => exact absurd rfl hp
  | signal => exact absurd rfl hs.ne
  | requested => exact congrArg (fun c => c.devices.apic.irr) hcpu

end Part

end Bedrock
