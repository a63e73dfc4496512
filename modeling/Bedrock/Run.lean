import Bedrock.Exits.Dispatch
import Bedrock.Exits.Interrupts

/-!
# Runs

`handle_run` calls `run`, and `run` loops: inject, enter the guest, handle the exit.
What happens inside the guest is not code of this repository; `Ran` states what
the processor and the guest can change.  A run is a sequence of iterations.
-/

namespace Bedrock

open Support

namespace VmContext

/-- `apply_intercept_pf`; refused accesses are ignored. -/
def applyInterceptPf (ctx : VmContext) : VmContext :=
  let bitmap := ctx.state.vmcs.controls.readOrZero .exceptionBitmap
  let bitmap :=
    if ctx.state.config.interceptPf then bitmap ||| 0x4000 else bitmap &&& ~~~0x4000
  (ctx.writeControl .exceptionBitmap bitmap).2

/-- `run` before its loop. -/
def startRun (ctx : VmContext) : Except ExitError Unit × VmContext :=
  ctx.applyInterceptPf.updateMtfState

end VmContext

/-- How the loop comes to enter the guest: straight from the last exit, after
`handle_run` refilled the page pool, or from a new RUN ioctl. -/
inductive Resume
  | loop | refilled | ioctl
  deriving DecidableEq, Repr

namespace VmContext

/-- What precedes the loop iteration; a new ioctl finds the event buffer drained. -/
def resume (ctx : VmContext) : Resume → Except ExitError Unit × VmContext
  | .loop => (.ok (), ctx)
  | .refilled => ctx.startRun
  | .ioctl => (ctx.setEvents ctx.state.events.clear).startRun

/-- Everything up to the VM entry; the result is the vector injected. -/
def enter (ctx : VmContext) (how : Resume) : Except ExitError (Option UInt32) × VmContext :=
  match ctx.resume how with
  | (.error e, ctx) => (.error e, ctx)
  | (.ok (), ctx) => injectPendingInterrupt ctx

/-- Everything after the VM exit; errors leave the loop before the record is
finalized. -/
def leave (ctx : VmContext) : ExitHandlerResult × VmContext :=
  match ctx.handleExit with
  | (.error e, ctx) => (.error e, ctx)
  | (result, ctx) => (result, ctx.finalizeExitRecord)

end VmContext

/-- Stores of the guest: a root VM's bytes, or the bytes of copied pages. -/
def GuestStores : VmMemory → VmMemory → Prop
  | .root a, .root b => b.size = a.size ∧ b.vmallocToPhys = a.vmallocToPhys
  | .forked cow parent, .forked cow' parent' =>
    parent' = parent ∧ ∀ gpa, (cow'.get gpa).map Page.frame = (cow.get gpa).map Page.frame
  | _, _ => False

/-- What can differ between a VM entry and the exit that follows: registers except the
copy of RSP, which the assembly stub does not save, guest memory, the VMCS fields the
processor updates, the instruction counter, and the inputs of the host for the new exit.
XCR0 does not change, because XSETBV exits. -/
structure Ran (entered exited : VmContext) : Prop where
  machine : exited.machine = entered.machine
  memory : GuestStores entered.memory exited.memory
  ept : exited.state.ept = entered.state.ept
  config : exited.state.config = entered.state.config
  precise : exited.state.precise = entered.state.precise
  capture : exited.state.capture = entered.state.capture
  events : exited.state.events = entered.state.events
  deterministic : exited.state.lastExitDeterministic = entered.state.lastExitDeterministic
  emulatedTsc : exited.state.clock.emulatedTsc = entered.state.clock.emulatedTsc
  tscOffset : exited.state.clock.tscOffset = entered.state.clock.tscOffset
  rsp : exited.state.guest.gprs.rsp = entered.state.guest.gprs.rsp
  xcr0Mask : exited.state.guest.xcr0Mask = entered.state.guest.xcr0Mask
  devices : exited.state.guest.devices = entered.state.guest.devices
  msrState : exited.state.guest.msrState = entered.state.guest.msrState
  ioChannel : exited.state.guest.ioChannel = entered.state.guest.ioChannel
  serialConsole : exited.state.guest.serialConsoleGpa = entered.state.guest.serialConsoleGpa
  feedbackBuffers : exited.state.guest.feedbackBuffers = entered.state.guest.feedbackBuffers
  fieldFaults : exited.state.vmcs.fields.readFault = entered.state.vmcs.fields.readFault ∧
    exited.state.vmcs.fields.writeFault = entered.state.vmcs.fields.writeFault
  controlFaults : exited.state.vmcs.controls.readFault = entered.state.vmcs.controls.readFault ∧
    exited.state.vmcs.controls.writeFault = entered.state.vmcs.controls.writeFault
  primaryControls : exited.state.vmcs.controls.value .primaryProcBasedVmExecControls =
    entered.state.vmcs.controls.value .primaryProcBasedVmExecControls

/-- What other ioctls can change while the VM is not running: everything except
the clock, the precise-exit machinery and the execution controls. -/
structure Reconfigured (before after : VmContext) : Prop where
  machine : after.machine = before.machine
  clock : after.state.clock = before.state.clock
  precise : after.state.precise = before.state.precise
  deterministic : after.state.lastExitDeterministic = before.state.lastExitDeterministic
  controls : after.state.vmcs.controls = before.state.vmcs.controls

/-- While no guest code runs: other ioctls, and RUNs that fail before the guest is
entered. -/
inductive Outside (before : VmContext) : VmContext → Prop
  | refl : Outside before before
  | reconfigured {c c' : VmContext} (h : Outside before c) (hconf : Reconfigured c c') :
      Outside before c'
  | refused {c c' : VmContext} {how : Resume} {e : ExitError} (h : Outside before c)
      (henter : c.enter how = (.error e, c')) : Outside before c'

/-- One iteration of the loop, with the contexts it passes through. -/
structure Iteration where
  how : Resume
  start : VmContext
  injected : Option UInt32
  entered : VmContext
  exited : VmContext
  result : ExitHandlerResult
  done : VmContext

/-- The contexts are those the code computes. -/
structure Iteration.Valid (it : Iteration) : Prop where
  enter : it.start.enter it.how = (.ok it.injected, it.entered)
  ran : Ran it.entered it.exited
  leave : it.exited.leave = (it.result, it.done)

/-- How one iteration follows another: the loop continues, the pool was refilled,
or RUN returned, userspace did something else, and RUN was called again. -/
inductive Follows (prev next : Iteration) : Prop
  | loop (hresult : prev.result = .continue_) (hhow : next.how = .loop)
      (hstart : next.start = prev.done)
  | refilled (hresult : prev.result = .exitToUserspace .poolExhausted)
      (hhow : next.how = .refilled) (hstart : next.start = prev.done)
  | ioctl (hhow : next.how = .ioctl) (hstart : Outside prev.done next.start)

/-- A run that starts with a RUN ioctl in `ctx`; the latest iteration comes first. -/
inductive Run (ctx : VmContext) : List Iteration → Prop
  | nil : Run ctx []
  | first {it : Iteration} (hvalid : it.Valid) (hhow : it.how = .ioctl)
      (hstart : Outside ctx it.start) : Run ctx [it]
  | next {prev it : Iteration} {run : List Iteration} (hrun : Run ctx (prev :: run))
      (hvalid : it.Valid) (hfollows : Follows prev it) : Run ctx (it :: prev :: run)

def lastContext (ctx : VmContext) : List Iteration → VmContext
  | [] => ctx
  | it :: _ => it.done

theorem Follows.outside {prev next : Iteration} (h : Follows prev next) :
    Outside prev.done next.start := by
  cases h with
  | loop _ _ hstart | refilled _ _ hstart => exact hstart ▸ .refl
  | ioctl _ hstart => exact hstart

variable {ctx : VmContext} {it : Iteration} {run : List Iteration}

theorem Run.outside_start
    (hrun : Run ctx (it :: run)) : Outside (lastContext ctx run) it.start := by
  cases hrun with
  | first _ _ hstart => exact hstart
  | next _ _ hfollows => exact hfollows.outside

theorem Run.valid (hrun : Run ctx (it :: run)) : it.Valid := by
  cases hrun with
  | first hvalid _ _ | next _ hvalid _ => exact hvalid

theorem Run.tail (hrun : Run ctx (it :: run)) : Run ctx run := by
  cases hrun with
  | first _ _ _ => exact .nil
  | next hrun _ _ => exact hrun

/-- An exit after `n` instructions that change nothing but the VMCS fields. -/
def VmContext.exitAfter (ctx : VmContext) (n : Nat) (values : VmcsField → UInt64) : VmContext :=
  { ctx with
    state := { ctx.state with
      vmcs := { ctx.state.vmcs with fields := { ctx.state.vmcs.fields with value := values } }
      clock := { ctx.state.clock with
        lastInstructionCount := ctx.state.clock.lastInstructionCount + n } } }

theorem GuestStores.refl (memory : VmMemory) : GuestStores memory memory := by
  cases memory with
  | root memory => exact ⟨rfl, rfl⟩
  | forked cow parent => exact ⟨rfl, fun _ => rfl⟩

theorem ran_exitAfter (ctx : VmContext) (n : Nat) (values : VmcsField → UInt64) :
    Ran ctx (ctx.exitAfter n values) := by
  constructor
  all_goals first | rfl | exact .refl _ | exact ⟨rfl, rfl⟩

def VmContext.exitWith (ctx : VmContext) (n : Nat) (values : VmcsField → UInt64) (rax rbx : UInt64) :
    VmContext :=
  let ctx := ctx.exitAfter n values
  ctx.setGuest { ctx.state.guest with gprs := { ctx.state.guest.gprs with rax, rbx } }

theorem ran_exitWith (ctx : VmContext) (n : Nat) (values : VmcsField → UInt64) (rax rbx : UInt64) :
    Ran ctx (ctx.exitWith n values rax rbx) := by
  constructor
  all_goals first | rfl | exact .refl _ | exact ⟨rfl, rfl⟩

/-- The iteration from `start` whose guest segment is `guest`. -/
def Iteration.simulate (how : Resume) (start : VmContext) (guest : VmContext → VmContext) :
    Iteration :=
  let entered := (start.enter how).2
  let exited := guest entered
  { how, start
    injected := (start.enter how).1.toOption.join
    entered, exited
    result := exited.leave.1
    done := exited.leave.2 }

theorem Iteration.simulate_valid {how : Resume} {start : VmContext}
    {guest : VmContext → VmContext} (henter : (start.enter how).1.isOk)
    (hran : Ran (start.enter how).2 (guest (start.enter how).2)) :
    (simulate how start guest).Valid := by
  refine ⟨Prod.ext ?_ rfl, hran, rfl⟩
  simp only [simulate]
  cases hresult : (start.enter how).1 with
  | error e =>
    rw [hresult] at henter
    cases henter
  | ok injected => rfl

end Bedrock
