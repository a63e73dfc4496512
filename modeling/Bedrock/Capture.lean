import Bedrock.State

/-!
# Emitting events and capturing exits

Every emission reads the host TSC for its `real_tsc` stamp.  The boolean the
source returns when the buffer fills is ignored by every caller, so emissions
only transform the context.  An exit record is 512 bytes; four of them are
implicit padding of a record built on the stack and hold whatever was there.
-/

namespace Bedrock

open Support List

def ApicState.hashBytes (apic : ApicState) : List UInt8 :=
  let regs : List UInt32 :=
    [apic.id, apic.version, apic.tpr, apic.ldr, apic.dfr, apic.svr] ++
      apic.isr.toList ++ apic.tmr.toList ++ apic.irr.toList ++
      [apic.esr, apic.icrLo, apic.icrHi, apic.lvtTimer, apic.lvtThermal, apic.lvtPerf,
        apic.lvtLint0, apic.lvtLint1, apic.lvtError, apic.timerInitial, apic.timerDivide]
  leBytes 8 apic.base.toNat ++ regs.flatMap (fun r => leBytes 4 r.toNat) ++
    leBytes 8 apic.timerDeadline

def SerialState.hashBytes (serial : SerialState) : List UInt8 :=
  [serial.ier, serial.lcr, serial.mcr, serial.scr, serial.dll, serial.dlh]

def IoApicState.hashBytes (ioapic : IoApicState) : List UInt8 :=
  leBytes 4 ioapic.ioregsel.toNat ++ leBytes 4 ioapic.id.toNat ++
    ioapic.redtbl.toList.flatMap fun e => leBytes 8 e.toNat

def RtcState.hashBytes (rtc : RtcState) : List UInt8 :=
  rtc.index :: leBytes 8 rtc.baseTime

def MtrrState.hashBytes (mtrr : MtrrState) : List UInt8 :=
  let words : List UInt64 :=
    mtrr.defType :: mtrr.fixed4k.toList ++ mtrr.fixed16k.toList ++ [mtrr.fixed64k] ++
      mtrr.var.toList.flatMap fun range => [range.1, range.2]
  words.flatMap fun w => leBytes 8 w.toNat

def RandomState.hashBytes (random : RandomState) : List UInt8 :=
  (match random.mode with | .seededRng => 0 | .exitToUserspace => 1) ::
    leBytes 8 random.seed.toNat ++
      match random.pendingValue with
      | some v => 1 :: leBytes 8 v.toNat
      | none => [0]

/-! ## Emission -/

namespace VmContext

/-- `rdtsc()` on the host. -/
def rdtsc (ctx : VmContext) : UInt64 × VmContext :=
  (ctx.host.rdtsc.headD 0, { ctx with host := { ctx.host with rdtsc := ctx.host.rdtsc.tail } })

def setEvents (ctx : VmContext) (events : EventStream) : VmContext :=
  { ctx with state := { ctx.state with events } }

/-- Emulated time as a record stores it. -/
def stamp (ctx : VmContext) : UInt64 :=
  UInt64.ofNat ctx.state.clock.emulatedTsc

/-- `event_append`, and its variants with their own flags. -/
def emitEvent (ctx : VmContext) (kind : EventKind) (flags : UInt16) (payload : List UInt8) :
    VmContext :=
  if !ctx.state.events.enabled kind then ctx
  else
    let (realTsc, ctx) := ctx.rdtsc
    ctx.setEvents (ctx.state.events.write kind flags ctx.stamp realTsc payload).2

/-- `event_append` -/
def eventAppend (ctx : VmContext) (kind : EventKind) (payload : List UInt8) : VmContext :=
  ctx.emitEvent kind kind.defaultFlags payload

/-- `event_flush_serial_line` -/
def eventFlushSerialLine (ctx : VmContext) : VmContext :=
  ctx.setEvents ctx.state.events.flushSerialLine.2

/-- `event_serial_byte`: the host TSC is read when the byte starts a line. -/
def eventSerialByte (ctx : VmContext) (byte : UInt8) : VmContext :=
  if !ctx.state.events.enabled .serial then ctx
  else if ctx.state.events.serialLine = [] then
    let (realTsc, ctx) := ctx.rdtsc
    ctx.setEvents (ctx.state.events.serialByte byte ctx.stamp realTsc).2
  else ctx.setEvents (ctx.state.events.serialByte byte 0 0).2

/-- `event_emit_io_channel`: responses are host-derived, so their records are not
flagged deterministic. -/
def eventEmitIoChannel (ctx : VmContext) (phase : IoChannelPhase) (targetTsc : Nat) :
    VmContext :=
  let chan := ctx.state.guest.ioChannel
  match phase with
  | .request =>
    ctx.emitEvent .ioChannel EVENT_FLAG_DETERMINISTIC
      (ioChannelPayload phase targetTsc (chan.request.take IO_CHANNEL_BUF_SIZE))
  | .response => ctx.emitEvent .ioChannel 0 (ioChannelPayload phase targetTsc chan.response)

end VmContext

/-! ## Exit records -/

def EXIT_RECORD_FLAG_DETERMINISTIC : UInt32 := 1

/-- An `i64` field. -/
def leBytesInt (i : Int) : List UInt8 :=
  leBytes 8 (i % 2 ^ 64).toNat

/-- The `ExitRecord` of the current state; `memory_hash` and `cow_page_count` are
filled in later. -/
def VmContext.exitRecord (ctx : VmContext) (reason : ExitReason) (qualification : UInt64)
    (flags : UInt32) : List UInt8 :=
  let st := ctx.state
  let g := st.guest
  let gprs := g.gprs
  let dev := g.devices
  let u64 := fun v : UInt64 => leBytes 8 v.toNat
  let field := fun f => u64 (st.vmcs.fields.readOrZero f)
  let hash := fun bytes => u64 (ctx.machine.xxh64 bytes)
  leBytes 8 st.clock.emulatedTsc ++ leBytes 4 reason.code ++ leBytes 4 flags.toNat ++
    u64 qualification ++
    [gprs.rax, gprs.rcx, gprs.rdx, gprs.rbx, gprs.rsp, gprs.rbp, gprs.rsi, gprs.rdi,
      gprs.r8, gprs.r9, gprs.r10, gprs.r11, gprs.r12, gprs.r13, gprs.r14,
      gprs.r15].flatMap u64 ++
    field .guestRip ++ field .guestRflags ++
    hash dev.apic.hashBytes ++ hash dev.serial.hashBytes ++ hash dev.ioapic.hashBytes ++
    hash dev.rtc.hashBytes ++ hash dev.mtrr.hashBytes ++ hash dev.random.hashBytes ++
    leBytes 8 0 ++
    field .guestFsBase ++ field .guestGsBase ++ u64 g.kernelGsBase ++ field .guestCr3 ++
    field .guestCsBase ++ field .guestDsBase ++ field .guestEsBase ++ field .guestSsBase ++
    field .guestPendingDebugExceptions ++
    leBytes 4 (st.vmcs.fields.readOrZero .guestInterruptibilityState).toNat ++ leBytes 4 0 ++
    leBytesInt st.precise.lastPebsSkid ++ leBytesInt st.precise.lastPebsInstDelta ++
    leBytesInt st.precise.lastPebsTscOffsetDelta ++
    leBytes 4 st.precise.lastPebsItersSinceArm ++ ctx.host.stackPadding.toList ++
    leBytes 8 st.precise.lastPebsArmDelta ++
    leBytes 8 st.clock.lastInstructionCount ++ leBytes 8 dev.apic.timerDeadline ++
    leBytes 8 g.ioChannel.requestTargetTsc ++
    leBytes 8 ((st.precise.pebsState.map (·.armedTargetTsc)).getD 0) ++
    leBytes 8 (st.precise.mtfEnabled.toNat + 2 * st.lastExitDeterministic.toNat) ++
    List.replicate 128 0

/-- `size_of::<ExitRecord>()` -/
def EXIT_RECORD_SIZE : Nat := 512

theorem VmContext.exitRecord_length (ctx : VmContext) (reason : ExitReason) (qual : UInt64)
    (flags : UInt32) : (ctx.exitRecord reason qual flags).length = EXIT_RECORD_SIZE := by
  unfold exitRecord leBytesInt
  dsimp only
  simp only [length_append, leBytes_length]
  simp only [flatMap_cons, flatMap_nil, length_append, leBytes_length]
  rw [length_replicate, Vector.length_toList]
  rfl

namespace VmContext

/-- `write_exit_record`: the diagnostics of the last precise exit are consumed. -/
def writeExitRecord (ctx : VmContext) (reason : ExitReason) (qualification : UInt64)
    (flags : UInt32) : VmContext :=
  if !ctx.state.events.attached || !ctx.state.events.enabled .exit then ctx
  else
    let entry := ctx.exitRecord reason qualification flags
    let (realTsc, ctx) := ctx.rdtsc
    let precise := { ctx.state.precise with
      lastPebsSkid := 0
      lastPebsInstDelta := 0
      lastPebsTscOffsetDelta := 0
      lastPebsItersSinceArm := 0
      lastPebsArmDelta := 0 }
    let deterministic := flags &&& EXIT_RECORD_FLAG_DETERMINISTIC != 0
    let events := ctx.state.events.emitExit deterministic ctx.stamp realTsc entry
    { ctx with state := { ctx.state with precise, events } }

/-- `exit_start_tsc` has not been reached. -/
def beforeExitStart (ctx : VmContext) : Bool :=
  ctx.state.capture.exitStartTsc > 0 &&
    ctx.state.clock.emulatedTsc < ctx.state.capture.exitStartTsc

def setCapture (ctx : VmContext) (capture : CaptureConfig) : VmContext :=
  { ctx with state := { ctx.state with capture } }

/-- `capture_exit` -/
def captureExit (ctx : VmContext) (reason : ExitReason) (qualification : UInt64)
    (deterministic : Bool) : VmContext :=
  let capture := ctx.state.capture
  let tsc := ctx.state.clock.emulatedTsc
  let flags := if deterministic then EXIT_RECORD_FLAG_DETERMINISTIC else 0
  if ctx.beforeExitStart then ctx
  else
    match capture.exitTrigger with
    | .disabled => ctx
    | .atShutdown => ctx
    | .checkpoints =>
      if !deterministic then ctx
      else if capture.exitTargetTsc = 0 then ctx
      else if tsc / capture.exitTargetTsc > capture.lastCheckpointIdx then
        (ctx.setCapture
          { capture with lastCheckpointIdx := tsc / capture.exitTargetTsc }).writeExitRecord
          reason qualification flags
      else ctx
    | .atTsc =>
      if !deterministic then ctx
      else if capture.exitCaptured || tsc < capture.exitTargetTsc then ctx
      else
        (ctx.writeExitRecord reason qualification flags).setCapture
          { capture with exitCaptured := true }
    | .allExits => ctx.writeExitRecord reason qualification flags
    | .tscRange =>
      match ctx.state.config.singleStepTscRange with
      | none => ctx
      | some (first, last) =>
        if tsc < first || tsc ≥ last then ctx
        else ctx.writeExitRecord reason qualification flags

/-- `capture_exit_at_shutdown` -/
def captureExitAtShutdown (ctx : VmContext) : VmContext :=
  if ctx.state.capture.exitTrigger ≠ .atShutdown || ctx.state.capture.exitCaptured then ctx
  else if ctx.beforeExitStart then ctx
  else
    (ctx.writeExitRecord .vmcallShutdown 0 EXIT_RECORD_FLAG_DETERMINISTIC).setCapture
      { ctx.state.capture with exitCaptured := true }

/-- `capture_exit_at_snapshot` -/
def captureExitAtSnapshot (ctx : VmContext) : VmContext :=
  if ctx.beforeExitStart then ctx
  else if ctx.state.capture.exitTrigger = .disabled then ctx
  else ctx.writeExitRecord .vmcallSnapshot 0 EXIT_RECORD_FLAG_DETERMINISTIC

/-- What `finalize_exit_record` hashes: all of a root VM's memory, or the copied
pages of a forked one with their addresses, in address order. -/
def memoryHashBytes : VmMemory → List UInt8
  | .root memory => (List.range memory.size).map memory.bytes
  | .forked cowPages _ =>
    cowPages.pages.toList.flatMap fun (gpa, page) =>
      leBytes 8 gpa ++ (List.range PAGE_SIZE).map page.data

/-- Number of copied pages as the record stores it. -/
def cowPageCount : VmMemory → Nat
  | .root _ => 0
  | .forked cowPages _ => cowPages.len

/-- `finalize_exit_record` -/
def finalizeExitRecord (ctx : VmContext) : VmContext :=
  if ctx.state.events.pendingExitLoc.isNone then ctx
  else
    let memoryHash : UInt64 :=
      if ctx.state.capture.skipMemoryHash || ctx.state.capture.exitTrigger = .disabled then 0
      else ctx.machine.xxh64 (memoryHashBytes ctx.memory)
    ctx.setEvents
      (ctx.state.events.finalizeExit memoryHash (UInt32.ofNat (cowPageCount ctx.memory)))

end VmContext

end Bedrock
