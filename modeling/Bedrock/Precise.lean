import Bedrock.Cow

/-!
# Precise exits

A precise-exit target is an emulated time at which the VM must be out of the
guest.  The PEBS counter brings execution close to the nearest target and the
monitor trap flag single-steps the rest.
-/

namespace Bedrock

open Support

def PEBS_MIN_DELTA : Nat := 257

/-- `host_family_model` -/
def Machine.hostFamilyModel (machine : Machine) : UInt32 × UInt32 :=
  let eax := (machine.cpuid 1 0).1
  let baseModel := (eax >>> 4) &&& 0xF
  let baseFamily := (eax >>> 8) &&& 0xF
  let extModel := (eax >>> 16) &&& 0xF
  let extFamily := (eax >>> 20) &&& 0xFF
  (if baseFamily = 0xF then baseFamily + extFamily else baseFamily,
    if baseFamily = 0x6 ∨ baseFamily = 0xF then (extModel <<< (4 : UInt32)) ||| baseModel
    else baseModel)

/-- `get_pebs_margin` -/
def Machine.getPebsMargin (machine : Machine) : Nat :=
  if machine.hostFamilyModel = (0x6, 0x8F) then 3 else 8

/-- `get_mtf_margin` -/
def Machine.getMtfMargin (machine : Machine) : Nat :=
  PEBS_MIN_DELTA + machine.getPebsMargin

/-! ## Targets -/

/-- I/O APIC pin of the I/O channel. -/
def IO_CHANNEL_IRQ : Nat := 9

namespace VmState

/-- The APIC timer, if it is running, enabled and unmasked. -/
def timerTarget (st : VmState) : Option Nat :=
  let apic := st.guest.devices.apic
  if apic.timerDeadline = 0 then none
  else if !apic.enabled then none
  else if apic.timerMasked then none
  else some apic.timerDeadline

/-- `next_timer_exit_count` -/
def nextTimerExitCount (st : VmState) : Option Nat :=
  st.timerTarget.map (· - st.clock.tscOffset)

/-- `next_io_channel_target_tsc` -/
def nextIoChannelTargetTsc (st : VmState) : Option Nat :=
  let chan := st.guest.ioChannel
  if chan.pageGpa = 0 then none
  else if chan.request = [] || chan.requestDelivered then none
  else if chan.requestTargetTsc = 0 then none
  else if !IoApicState.routable (st.guest.devices.ioapic.entry IO_CHANNEL_IRQ) then none
  else some chan.requestTargetTsc

/-- `next_io_channel_exit_count` -/
def nextIoChannelExitCount (st : VmState) : Option Nat :=
  st.nextIoChannelTargetTsc.map (· - st.clock.tscOffset)

/-- `stop_at_tsc` in instruction counts. -/
def stopAtCount (st : VmState) : Option Nat :=
  st.config.stopAtTsc.map (· - st.clock.tscOffset)

/-- `next_single_step_start_tsc` -/
def nextSingleStepStartTsc (st : VmState) : Option Nat :=
  match st.config.singleStepTscRange with
  | none => none
  | some (first, _) => if st.clock.now < first then some first else none

/-- `next_single_step_start_count` -/
def nextSingleStepStartCount (st : VmState) : Option Nat :=
  st.nextSingleStepStartTsc.map (· - st.clock.tscOffset)

/-- Inside the configured single-step range. -/
def inSingleStep (st : VmState) : Bool :=
  match st.config.singleStepTscRange with
  | none => false
  | some (first, last) => st.clock.now ≥ first && st.clock.now < last

/-- Inside the single-step window that leads up to a target. -/
def inMargin (margin count : Nat) : Option Nat → Bool
  | none => false
  | some target => count ≥ target - margin && count < target

/-- The trap flag `update_mtf_state` wants. -/
def wantsMtf (st : VmState) (margin : Nat) : Bool :=
  let count := st.clock.lastInstructionCount
  st.inSingleStep ||
    (st.precise.pebsState.isSome &&
      (inMargin margin count st.nextTimerExitCount ||
        inMargin margin count st.nextIoChannelExitCount ||
        inMargin margin count st.stopAtCount ||
        inMargin margin count st.nextSingleStepStartCount))

end VmState

/-- `update_mtf_state` -/
def VmContext.updateMtfState (ctx : VmContext) : Except ExitError Unit × VmContext :=
  let shouldEnable := ctx.state.wantsMtf ctx.machine.getMtfMargin
  if shouldEnable = ctx.state.precise.mtfEnabled then (.ok (), ctx)
  else
    match ctx.state.vmcs.controls.read .primaryProcBasedVmExecControls with
    | .error _ => (.error (.fatal "Failed to read primary controls for MTF"), ctx)
    | .ok controls =>
      let controls :=
        if shouldEnable then controls ||| Controls.monitorTrapFlag
        else controls &&& ~~~Controls.monitorTrapFlag
      match ctx.state.vmcs.controls.write .primaryProcBasedVmExecControls controls with
      | (.error _, _) => (.error (.fatal "Failed to write primary controls for MTF"), ctx)
      | (.ok (), controls) =>
        let vmcs := { ctx.state.vmcs with controls }
        let precise := { ctx.state.precise with mtfEnabled := shouldEnable }
        (.ok (), { ctx with state := { ctx.state with vmcs, precise } })

/-! ## Arming the counter -/

inductive ArmResult
  | armed | alreadyPast | belowMinDelta
  deriving DecidableEq, Repr

/-- `arm_precise_exit`; `margin` is `get_pebs_margin()` and `vector` the action. -/
def armPreciseExit (pebs : PebsState) (margin currentTsc targetTsc : Nat) (vector : UInt8)
    (clock : Clock) : ArmResult × PebsState :=
  if targetTsc < currentTsc then (.alreadyPast, pebs)
  else if targetTsc - currentTsc < PEBS_MIN_DELTA + margin then (.belowMinDelta, pebs)
  else
    (.armed, { pebs with
      counterReload := (2 ^ 64 - (targetTsc - currentTsc - margin)) % 2 ^ 48
      armedTargetTsc := targetTsc - margin
      armedInstCount := clock.lastInstructionCount
      armedTscOffset := clock.tscOffset
      itersSinceArm := 0
      armedAction := some vector })

/-- `disarm_precise_exit` -/
def disarmPreciseExit (pebs : PebsState) : PebsState :=
  { pebs with armedAction := none }

/-- The targets `arm_for_next_iteration` chooses from.  Unlike `timerTarget`, the
timer counts here even while the APIC is disabled or the timer masked. -/
def VmState.armCandidates (st : VmState) : List Nat :=
  [if st.guest.devices.apic.timerDeadline = 0 then none
    else some st.guest.devices.apic.timerDeadline,
    st.nextIoChannelTargetTsc, st.config.stopAtTsc, st.nextSingleStepStartTsc].filterMap id

/-- `[..].into_iter().flatten().min().unwrap_or(0)` -/
def VmState.chosenTarget (st : VmState) : Nat :=
  st.armCandidates.min?.getD 0

/-- `arm_for_next_iteration`; `iters_since_arm` saturates at 32 bits. -/
def VmContext.armForNextIteration (ctx : VmContext) : VmContext :=
  match ctx.state.precise.pebsState with
  | none => ctx
  | some pebs =>
    let pebs :=
      if pebs.armedAction.isSome then
        { pebs with itersSinceArm := min (pebs.itersSinceArm + 1) (2 ^ 32 - 1) }
      else pebs
    let pebs :=
      if ctx.state.chosenTarget ≠ 0 then
        match armPreciseExit pebs ctx.machine.getPebsMargin ctx.state.clock.now
            ctx.state.chosenTarget (ctx.state.guest.devices.apic.lvtTimer &&& 0xFF).toUInt8
            ctx.state.clock with
        | (.armed, pebs) => pebs
        | (_, pebs) => disarmPreciseExit pebs
      else disarmPreciseExit pebs
    { ctx with
      state := { ctx.state with precise := { ctx.state.precise with pebsState := some pebs } } }

/-- `handle_pebs_precise_exit`: it always continues. -/
def VmContext.handlePebsPreciseExit (ctx : VmContext) : VmContext :=
  let clock := ctx.state.clock
  let precise := ctx.state.precise
  match precise.pebsState with
  | none => ctx
  | some pebs =>
    let precise :=
      if pebs.armedTargetTsc ≠ 0 then
        { precise with
          lastPebsSkid := (clock.now : Int) - pebs.armedTargetTsc
          lastPebsInstDelta := (clock.lastInstructionCount : Int) - pebs.armedInstCount
          lastPebsTscOffsetDelta := (clock.tscOffset : Int) - pebs.armedTscOffset
          lastPebsItersSinceArm := pebs.itersSinceArm
          lastPebsArmDelta := pebs.armedTargetTsc - (pebs.armedInstCount + pebs.armedTscOffset) }
      else precise
    { ctx with
      state := { ctx.state with
        precise := { precise with pebsState := some { pebs with armedAction := none } } } }

/-! ## Registering the scratch page -/

inductive RegisterPebsPageResult
  | success | unsupported | misaligned | untranslatable | notEptMapped | alreadyRegistered
  deriving DecidableEq, Repr

def RegisterPebsPageResult.code : RegisterPebsPageResult → UInt64
  | success => 0
  | unsupported => 0xFFFFFFFFFFFFFFFF
  | misaligned => 0xFFFFFFFFFFFFFFFE
  | untranslatable => 0xFFFFFFFFFFFFFFFD
  | notEptMapped => 0xFFFFFFFFFFFFFFFC
  | alreadyRegistered => 0xFFFFFFFFFFFFFFFB

def GUEST_LINUX_PAGE_OFFSET : UInt64 := 0xffff888000000000

/-- `build_ds_management_area` and `ds_management_area_bytes` -/
def dsManagementAreaBytes (pageVa : UInt64) : List UInt8 :=
  let bufferBase := pageVa + 0x100
  ([0, 0, 0, 0, bufferBase, bufferBase, bufferBase + 0x800, bufferBase] ++
    List.replicate 12 (0 : UInt64)).flatMap fun w => leBytes 8 w.toNat

/-- `register_pebs_page` once the page is translated: fill in the management area,
write-protect the page and record the registration. -/
def VmContext.installPebsPage (ctx : VmContext) (gpaPage : Nat) :
    RegisterPebsPageResult × VmContext :=
  let kernelVa := GUEST_LINUX_PAGE_OFFSET + UInt64.ofNat gpaPage
  if (ctx.state.ept.lookup gpaPage).isNone then (.notEptMapped, ctx)
  else
    match ctx.memory.writeGuestMemory gpaPage (dsManagementAreaBytes kernelVa) with
    | (.error _, memory) => (.notEptMapped, ctx.setMemory memory)
    | (.ok (), memory) =>
      let ctx := ctx.setMemory memory
      match ctx.state.ept.lookup gpaPage with
      | none => (.notEptMapped, ctx)
      | some (hostPhys, _) =>
        match ctx.state.ept.remap gpaPage hostPhys .READ_EXECUTE with
        | .error _ => (.notEptMapped, ctx)
        | .ok ept =>
          let controls := ctx.state.vmcs.controls
          let controls :=
            match controls.read .guestIa32PerfGlobalCtrl with
            | .ok prev => (controls.write .guestIa32PerfGlobalCtrl (prev ||| 0x100000000)).2
            | .error _ => controls
          let controls := (controls.write .vmExitMsrLoadAddr ctx.machine.pebsExitMsrLoadPage).2
          let controls := (controls.write .vmExitMsrLoadCount 1).2
          let pebs : PebsState :=
            { dsManagementGpa := gpaPage, pebsBufferGpa := gpaPage, dsAreaVa := kernelVa }
          (.success, { ctx with
            state := { ctx.state with
              ept
              vmcs := { ctx.state.vmcs with controls }
              precise := { ctx.state.precise with pebsState := some pebs } } })

end Bedrock
