import Bedrock.Frame
import Bedrock.Vm

/-!
# The processor context of a fork

Which part of the processor state the guest can see a fork takes over from its parent.
-/

namespace Bedrock

open Support ForkedVm

/-- The processor state the guest can see, and whether the next entry may inject. -/
@[ext] structure CpuContext where
  gprs : GeneralPurposeRegisters
  fields : VmcsTable VmcsField
  guestCr2 : UInt64
  xcr0Mask : UInt64
  guestXsave : Nat → UInt8
  kernelGsBase : UInt64
  msrState : GuestMsrState
  devices : DeviceStates
  lastExitDeterministic : Bool

def VmContext.cpuContext (ctx : VmContext) : CpuContext where
  gprs := ctx.state.guest.gprs
  fields := ctx.state.vmcs.fields
  guestCr2 := ctx.state.guest.guestCr2
  xcr0Mask := ctx.state.guest.xcr0Mask
  guestXsave := ctx.state.guest.guestXsave
  kernelGsBase := ctx.state.guest.kernelGsBase
  msrState := ctx.state.guest.msrState
  devices := ctx.state.guest.devices
  lastExitDeterministic := ctx.state.lastExitDeterministic

theorem VmContext.cpuContext_preCow (ctx : VmContext) :
    ctx.preCowIoChannelPage.cpuContext = ctx.cpuContext := by
  obtain ⟨_, _, _, h⟩ := ctx.preCowIoChannelPage_memory
  rw [h]
  rfl

theorem ForkedVm.new_cpuContext {parent child : VmContext} {host : ForkHost}
    (h : new parent host = .ok child) :
    child.cpuContext = { parent.cpuContext with guestCr2 := 0, lastExitDeterministic := true } := by
  obtain ⟨ept, controls, -, -, rfl⟩ := new_eq h
  rw [VmContext.cpuContext_preCow]
  rfl

theorem fork_succeeds (parent : VmContext) (h : (new parent bareFork).isOk) :
    ∃ child, new parent bareFork = .ok child := by
  cases hfork : new parent bareFork with
  | ok child => exact ⟨child, rfl⟩
  | error e =>
    rw [hfork] at h
    cases h

def faultThenSnapshot (ctx : VmContext) : VmContext :=
  let ctx := ctx.exitWith 1 (fun
    | .vmExitReason => 18
    | _ => 0) 1 0
  ctx.setGuest { ctx.state.guest with guestCr2 := 0x7000 }

theorem ran_faultThenSnapshot (ctx : VmContext) : Ran ctx (faultThenSnapshot ctx) := by
  constructor
  all_goals first | rfl | exact .refl _ | exact ⟨rfl, rfl⟩

theorem newVm_enter : (newVm.enter .ioctl).1.isOk := by
  decide +kernel

end Bedrock
