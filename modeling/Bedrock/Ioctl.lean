import Bedrock.Registers

/-!
# The ioctls of a VM

Every ioctl other than RUN that changes a VM: it copies its argument from userspace,
checks it, and changes one group of fields.
-/

namespace Bedrock

open Support

namespace RandomState

/-- `configure`: a staged value and a request in flight are forgotten. -/
def configure (random : RandomState) (mode : RdrandMode) (seed : UInt64) : RandomState :=
  { random with
    mode
    seed := if seed = 0 then 1 else seed
    pendingValue := none }.clearRequest

def setPendingValue (random : RandomState) (value : UInt64) : RandomState :=
  { random with pendingValue := some value }

end RandomState

structure BedrockRdrandConfig where
  mode : UInt32
  value : UInt64

namespace VmContext

def modifyRandom (ctx : VmContext) (f : RandomState → RandomState) : VmContext :=
  ctx.setGuest { ctx.state.guest with
    devices := { ctx.state.guest.devices with random := f ctx.state.guest.devices.random } }

/-- `handle_set_rdrand_config` -/
def handleSetRdrandConfig (ctx : VmContext) (config : BedrockRdrandConfig) (copied : Bool) :
    Except Errno Unit × VmContext :=
  if !copied then (.error .efault, ctx)
  else
    match config.mode.toNat with
    | 0 => (.ok (), ctx.modifyRandom (·.configure .seededRng config.value))
    | 1 => (.ok (), ctx.modifyRandom (·.configure .exitToUserspace config.value))
    | _ => (.error .einval, ctx)

/-- `handle_set_rdrand_value` -/
def handleSetRdrandValue (ctx : VmContext) (value : UInt64) (copied : Bool) :
    Except Errno Unit × VmContext :=
  if !copied then (.error .efault, ctx)
  else (.ok (), ctx.modifyRandom (·.setPendingValue value))

/-- `handle_set_random_bytes` -/
def handleSetRandomBytes (ctx : VmContext) (bytes : List UInt8) (copied : Bool) :
    Except Errno Unit × VmContext :=
  if !copied then (.error .efault, ctx)
  else (.ok (), ctx.modifyRandom (·.stageReply bytes))

end VmContext

/-! ## Configuration of the run -/

structure BedrockSingleStepConfig where
  enabled : UInt64
  tscStart : UInt64
  tscEnd : UInt64

structure BedrockEventConfig where
  enabled : UInt32
  categories : UInt32
  exitTrigger : UInt32
  exitFlags : UInt32
  exitTargetTsc : UInt64
  exitStartTsc : UInt64

namespace VmContext

def setConfig (ctx : VmContext) (config : RunConfig) : VmContext :=
  { ctx with state := { ctx.state with config } }

/-- `handle_set_stop_tsc` -/
def handleSetStopTsc (ctx : VmContext) (value : UInt64) (copied : Bool) :
    Except Errno Unit × VmContext :=
  if !copied then (.error .efault, ctx)
  else
    (.ok (), ctx.setConfig { ctx.state.config with
      stopAtTsc := if value = 0 then none else some value.toNat })

/-- `handle_set_single_step`: disabling resets the mirror of the trap flag but not the
flag. -/
def handleSetSingleStep (ctx : VmContext) (config : BedrockSingleStepConfig) (copied : Bool) :
    Except Errno Unit × VmContext :=
  if !copied then (.error .efault, ctx)
  else if config.enabled ≠ 0 then
    (.ok (), ctx.setConfig { ctx.state.config with
      singleStepTscRange := some (config.tscStart.toNat, config.tscEnd.toNat) })
  else
    let ctx := ctx.setConfig { ctx.state.config with singleStepTscRange := none }
    (.ok (), ctx.setPrecise { ctx.state.precise with mtfEnabled := false })

end VmContext

/-- `set_event_buffer` with a buffer just allocated. -/
def EventStream.setEventBuffer (es : EventStream) : EventStream :=
  { es with attached := true, bytes := fun _ => 0 }

/-- `clear_event_buffer_ptr` -/
def EventStream.clearEventBufferPtr (es : EventStream) : EventStream :=
  { es with
    attached := false
    len := 0
    pending := none
    pendingLen := 0
    len_le := Nat.zero_le _
    len_mod := zero_aligned
    pendingLen_le := Nat.zero_le _ }

/-- The triggers in the order of their codes. -/
def ExitTrigger.ofCode : Nat → Option ExitTrigger
  | 0 => some .disabled
  | 1 => some .allExits
  | 2 => some .atTsc
  | 3 => some .atShutdown
  | 4 => some .checkpoints
  | 5 => some .tscRange
  | _ => none

namespace VmContext

/-- The event stream `handle_set_event_config` leaves behind; `none` if the buffer
cannot be allocated. -/
def reconfigureEvents (ctx : VmContext) (config : BedrockEventConfig) (allocated : Bool) :
    Option EventStream :=
  let es := ctx.state.events
  if config.enabled ≠ 0 ∧ es.attached = false then
    if !allocated then none
    else some { es.setEventBuffer with categories := config.categories }
  else if config.enabled = 0 ∧ es.attached = true then
    some { es.clearEventBufferPtr with categories := config.categories }
  else some { es with categories := config.categories }

/-- `handle_set_event_config`: an unknown trigger is noticed after the stream has
changed. -/
def handleSetEventConfig (ctx : VmContext) (config : BedrockEventConfig)
    (copied allocated : Bool) : Except Errno Unit × VmContext :=
  if !copied then (.error .efault, ctx)
  else
    match ctx.reconfigureEvents config allocated with
    | none => (.error .enomem, ctx)
    | some events =>
      let ctx := ctx.setEvents events
      match ExitTrigger.ofCode config.exitTrigger.toNat with
      | none => (.error .einval, ctx)
      | some trigger =>
        let ctx := ctx.setCapture { ctx.state.capture with
          exitTrigger := if config.enabled ≠ 0 then trigger else .disabled
          exitTargetTsc := config.exitTargetTsc.toNat
          exitCaptured := false
          exitStartTsc := config.exitStartTsc.toNat
          skipMemoryHash := config.exitFlags &&& 1 != 0 }
        (.ok (), ctx.setConfig { ctx.state.config with
          interceptPf := config.exitFlags &&& 2 != 0 })

end VmContext

/-- Whether the three copies of one DRAIN_IO_RESPONSE succeed. -/
structure DrainHost where
  headerCopied : Bool := true
  dataCopied : Bool := true
  headerWritten : Bool := true

/-- `handle_drain_io_response`: the bytes copied out, as many as userspace has room for;
the rest is dropped. -/
def VmContext.handleDrainIoResponse (ctx : VmContext) (capacity : Nat) (host : DrainHost) :
    Except Errno (List UInt8) × VmContext :=
  if !host.headerCopied then (.error .efault, ctx)
  else if IO_CHANNEL_BUF_SIZE < capacity then (.error .einval, ctx)
  else
    let chan := ctx.state.guest.ioChannel
    let len := min chan.responseLen capacity
    if 0 < len ∧ host.dataCopied = false then (.error .efault, ctx)
    else if !host.headerWritten then (.error .efault, ctx)
    else
      (.ok ((List.range len).map chan.responseBuf), ctx.setGuest { ctx.state.guest with
        ioChannel := { chan with responseLen := 0 } })

/-- An ioctl with what userspace passes and how the copies and allocations go. -/
inductive Ioctl
  | setRegs (regs : GuestRegisters) (host : RegsHost)
  | setRdrandConfig (config : BedrockRdrandConfig) (copied : Bool)
  | setRdrandValue (value : UInt64) (copied : Bool)
  | setRandomBytes (bytes : List UInt8) (copied : Bool)
  | setEventConfig (config : BedrockEventConfig) (copied allocated : Bool)
  | setSingleStep (config : BedrockSingleStepConfig) (copied : Bool)
  | setStopTsc (value : UInt64) (copied : Bool)
  | queueIoAction (action : PendingIoAction) (host : QueueHost)
  | drainIoResponse (capacity : Nat) (host : DrainHost)

def withoutBytes (r : Except Errno Unit × VmContext) : Except Errno (List UInt8) × VmContext :=
  (r.1.map fun _ => [], r.2)

def VmContext.ioctl (ctx : VmContext) : Ioctl → Except Errno (List UInt8) × VmContext
  | .setRegs regs host => withoutBytes (ctx.handleSetRegs regs host)
  | .setRdrandConfig config copied => withoutBytes (ctx.handleSetRdrandConfig config copied)
  | .setRdrandValue value copied => withoutBytes (ctx.handleSetRdrandValue value copied)
  | .setRandomBytes bytes copied => withoutBytes (ctx.handleSetRandomBytes bytes copied)
  | .setEventConfig config copied allocated =>
    withoutBytes (ctx.handleSetEventConfig config copied allocated)
  | .setSingleStep config copied => withoutBytes (ctx.handleSetSingleStep config copied)
  | .setStopTsc value copied => withoutBytes (ctx.handleSetStopTsc value copied)
  | .queueIoAction action host => withoutBytes (ctx.handleQueueIoAction action host)
  | .drainIoResponse capacity host => ctx.handleDrainIoResponse capacity host

/-! ## What an ioctl can change -/

/-- The context an ioctl leaves behind, as far as the following modules ask. -/
inductive IoctlEffect (ctx : VmContext) : Ioctl → VmContext → Prop
  | registers (regs : GuestRegisters) (host : RegsHost) (gprs : GeneralPurposeRegisters)
      (fields : VmcsTable VmcsField) : IoctlEffect ctx (.setRegs regs host)
        ((ctx.setGuest { ctx.state.guest with gprs }).setVmcs { ctx.state.vmcs with fields })
  | registersRefused (regs : GuestRegisters) (host : RegsHost) :
      IoctlEffect ctx (.setRegs regs host) ctx
  | rdrandRefused (config : BedrockRdrandConfig) (copied : Bool) :
      IoctlEffect ctx (.setRdrandConfig config copied) ctx
  | rdrandConfigured (config : BedrockRdrandConfig) (mode : RdrandMode) :
      IoctlEffect ctx (.setRdrandConfig config true)
        (ctx.modifyRandom (·.configure mode config.value))
  | rdrandValueRefused (value : UInt64) : IoctlEffect ctx (.setRdrandValue value false) ctx
  | rdrandValue (value : UInt64) :
      IoctlEffect ctx (.setRdrandValue value true) (ctx.modifyRandom (·.setPendingValue value))
  | randomBytesRefused (bytes : List UInt8) : IoctlEffect ctx (.setRandomBytes bytes false) ctx
  | randomBytes (bytes : List UInt8) :
      IoctlEffect ctx (.setRandomBytes bytes true) (ctx.modifyRandom (·.stageReply bytes))
  | events (config : BedrockEventConfig) (copied allocated : Bool) (events : EventStream)
      (capture : CaptureConfig) (config' : RunConfig) :
      IoctlEffect ctx (.setEventConfig config copied allocated)
        (((ctx.setEvents events).setCapture capture).setConfig config')
  | singleStepRefused (config : BedrockSingleStepConfig) :
      IoctlEffect ctx (.setSingleStep config false) ctx
  | singleStepEnabled (config : BedrockSingleStepConfig) (henabled : config.enabled ≠ 0)
      (config' : RunConfig) : IoctlEffect ctx (.setSingleStep config true) (ctx.setConfig config')
  | singleStepDisabled (config : BedrockSingleStepConfig) (henabled : config.enabled = 0)
      (config' : RunConfig) : IoctlEffect ctx (.setSingleStep config true)
        ((ctx.setConfig config').setPrecise { ctx.state.precise with mtfEnabled := false })
  | stopTsc (value : UInt64) (copied : Bool) (config' : RunConfig) :
      IoctlEffect ctx (.setStopTsc value copied) (ctx.setConfig config')
  | queued (action : PendingIoAction) (host : QueueHost) (ioChannel : IoChannelState) :
      IoctlEffect ctx (.queueIoAction action host)
        (ctx.setGuest { ctx.state.guest with ioChannel })
  | drainFailed (capacity : Nat) (host : DrainHost) :
      IoctlEffect ctx (.drainIoResponse capacity host) ctx
  | drained (capacity : Nat) (host : DrainHost) :
      IoctlEffect ctx (.drainIoResponse capacity host)
        (ctx.setGuest { ctx.state.guest with
          ioChannel := { ctx.state.guest.ioChannel with responseLen := 0 } })

namespace VmContext

variable (ctx : VmContext)

theorem handleSetRegs_effect (regs : GuestRegisters) (host : RegsHost) :
    IoctlEffect ctx (.setRegs regs host) (ctx.handleSetRegs regs host).2 := by
  unfold handleSetRegs
  split
  · exact .registersRefused regs host
  split
  · exact .registersRefused regs host
  split
  all_goals
    rename_i heq
    exact congrArg Prod.snd heq ▸ .registers regs host _ _

theorem handleSetRdrandConfig_effect (config : BedrockRdrandConfig) (copied : Bool) :
    IoctlEffect ctx (.setRdrandConfig config copied) (ctx.handleSetRdrandConfig config copied).2 := by
  cases copied with
  | false => exact .rdrandRefused config false
  | true =>
    rw [handleSetRdrandConfig, if_neg (by decide)]
    split
    · exact .rdrandConfigured config .seededRng
    · exact .rdrandConfigured config .exitToUserspace
    · exact .rdrandRefused config true

theorem handleSetEventConfig_effect (config : BedrockEventConfig) (copied allocated : Bool) :
    IoctlEffect ctx (.setEventConfig config copied allocated)
      (ctx.handleSetEventConfig config copied allocated).2 := by
  unfold handleSetEventConfig
  split
  · exact .events config copied allocated ctx.state.events ctx.state.capture ctx.state.config
  split
  · exact .events config copied allocated ctx.state.events ctx.state.capture ctx.state.config
  rename_i events _
  dsimp only
  split
  · exact .events config copied allocated events ctx.state.capture ctx.state.config
  · exact .events config copied allocated events _ _

theorem handleSetSingleStep_effect (config : BedrockSingleStepConfig) (copied : Bool) :
    IoctlEffect ctx (.setSingleStep config copied) (ctx.handleSetSingleStep config copied).2 := by
  cases copied with
  | false => exact .singleStepRefused config
  | true =>
    rw [handleSetSingleStep, if_neg (by decide)]
    split
    · rename_i henabled
      exact .singleStepEnabled config henabled _
    · rename_i henabled
      exact .singleStepDisabled config (not_not.mp henabled) _

theorem handleQueueIoAction_effect (action : PendingIoAction) (host : QueueHost) :
    IoctlEffect ctx (.queueIoAction action host) (ctx.handleQueueIoAction action host).2 := by
  have hsame : IoctlEffect ctx (.queueIoAction action host) ctx :=
    .queued action host ctx.state.guest.ioChannel
  unfold handleQueueIoAction
  split
  · exact hsame
  split
  · exact hsame
  split
  · exact hsame
  split
  · exact hsame
  split
  · exact hsame
  · exact hsame
  · exact .queued action host _

theorem handleDrainIoResponse_cases (capacity : Nat) (host : DrainHost) :
    (∃ e, ctx.handleDrainIoResponse capacity host = (.error e, ctx)) ∨
      ctx.handleDrainIoResponse capacity host =
        (.ok ((List.range (min ctx.state.guest.ioChannel.responseLen capacity)).map
          ctx.state.guest.ioChannel.responseBuf),
        ctx.setGuest { ctx.state.guest with
          ioChannel := { ctx.state.guest.ioChannel with responseLen := 0 } }) := by
  unfold handleDrainIoResponse
  split
  · exact .inl ⟨_, rfl⟩
  split
  · exact .inl ⟨_, rfl⟩
  dsimp only
  split
  · exact .inl ⟨_, rfl⟩
  split
  · exact .inl ⟨_, rfl⟩
  · exact .inr rfl

theorem ioctl_effect (call : Ioctl) : IoctlEffect ctx call (ctx.ioctl call).2 := by
  cases call with
  | setRegs regs host => exact ctx.handleSetRegs_effect regs host
  | setRdrandConfig config copied => exact ctx.handleSetRdrandConfig_effect config copied
  | setRdrandValue value copied =>
    cases copied with
    | false => exact .rdrandValueRefused value
    | true => exact .rdrandValue value
  | setRandomBytes bytes copied =>
    cases copied with
    | false => exact .randomBytesRefused bytes
    | true => exact .randomBytes bytes
  | setEventConfig config copied allocated =>
    exact ctx.handleSetEventConfig_effect config copied allocated
  | setSingleStep config copied => exact ctx.handleSetSingleStep_effect config copied
  | setStopTsc value copied =>
    cases copied with
    | false => exact .stopTsc value false ctx.state.config
    | true => exact .stopTsc value true _
  | queueIoAction action host => exact ctx.handleQueueIoAction_effect action host
  | drainIoResponse capacity host =>
    rcases ctx.handleDrainIoResponse_cases capacity host with ⟨e, heq⟩ | heq
    · rw [ioctl, heq]
      exact .drainFailed capacity host
    · rw [ioctl, heq]
      exact .drained capacity host

end VmContext

end Bedrock
