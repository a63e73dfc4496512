import Bedrock.Ioctl
import Bedrock.Lab.Inputs
import Bedrock.Support.Drive

/-!
# Driving a branch

A branch owns a VM.  It runs the VM until a virtual time or until the response to a bash
command arrives, and after every exit drains the event stream and serves what the guest
asked for.  The VM is seen through its ioctls: what a RUN reports and leaves behind is
given from outside, turn by turn.
-/

namespace Bedrock

open Support Program EventKind

namespace Lab

/-- `ExitKind` -/
inductive ExitKind
  | vmcallShutdown
  | vmcallSnapshot (tag : UInt64)
  | vmcallReady
  | stopTscReached
  | feedbackBufferRegistered
  | ioResponse
  | rdrand
  | rdseed
  | vmcallGetRandom
  | eventBufferFull
  | fileFetch
  | continue_
  | unhandledExit (reason : Nat)
  | fileStore
  deriving DecidableEq, Repr

/-- `VmExit`: what RUN reports. -/
structure VmExit where
  exitReason : ExitReason
  exitQualification : UInt64 := 0
  eventLen : Nat := 0
  emulatedTsc : Nat
  deriving DecidableEq, Repr

/-- `VmExit::kind` -/
def VmExit.kind (exit : VmExit) : ExitKind :=
  match exit.exitReason with
  | .vmcallShutdown => .vmcallShutdown
  | .vmcallSnapshot => .vmcallSnapshot exit.exitQualification
  | .stopTscReached => .stopTscReached
  | .vmcallFeedbackBuffer => .feedbackBufferRegistered
  | .vmcallIoResponse => .ioResponse
  | .vmcallReady => .vmcallReady
  | .rdrand => .rdrand
  | .rdseed => .rdseed
  | .eventBufferFull => .eventBufferFull
  | .vmcallFileFetch => .fileFetch
  | .vmcallGetRandom => .vmcallGetRandom
  | .vmcallFileStore => .fileStore
  | .vmxPreemptionTimer | .needResched | .mwait | .monitor | .ioInstruction | .poolExhausted
  | .vmcallPebsPage | .vmcallIoRegisterPage => .continue_
  | reason => .unhandledExit reason.code

/-! ## Event capture -/

/-- `ExitCapture` -/
inductive ExitCapture
  | disabled
  | allExits (memoryHash : Bool)
  | checkpoints (interval : UInt64) (memoryHash : Bool)
  | atShutdown (memoryHash : Bool)
  deriving DecidableEq, Repr

def triggerCode : ExitTrigger → UInt32
  | .disabled => 0
  | .allExits => 1
  | .atTsc => 2
  | .atShutdown => 3
  | .checkpoints => 4
  | .tscRange => 5

/-- `ExitCapture::to_trigger` -/
def ExitCapture.toTrigger : ExitCapture → ExitTrigger × UInt64 × Bool
  | disabled => (.disabled, 0, false)
  | allExits memoryHash => (.allExits, 0, memoryHash)
  | checkpoints interval memoryHash => (.checkpoints, interval, memoryHash)
  | atShutdown memoryHash => (.atShutdown, 0, memoryHash)

/-- `EventConfig` -/
structure EventConfig where
  categories : UInt32 := 0
  exits : ExitCapture := .disabled
  deriving DecidableEq, Repr

def RECORDING_CATEGORIES : UInt32 :=
  randomness.category ||| ioChannel.category

namespace EventConfig

/-- `effective_categories` -/
def effectiveCategories (config : EventConfig) : UInt32 :=
  let nonExit := config.categories &&& ~~~exit.category
  if config.exits = .disabled then nonExit else nonExit ||| exit.category

/-- `to_vm_config_with` -/
def toVmConfigWith (config : EventConfig) (extra : UInt32) : BedrockEventConfig :=
  let categories := config.effectiveCategories ||| extra
  if categories = 0 then ⟨0, 0, 0, 0, 0, 0⟩
  else
    let (trigger, targetTsc, memoryHash) := config.exits.toTrigger
    ⟨1, categories, triggerCode trigger, if memoryHash then 0 else 1, targetTsc, 0⟩

end EventConfig

/-! ## Serial lines -/

/-- `PartialLine` -/
structure PartialLine where
  bytes : List UInt8 := []
  startTsc : UInt64 := 0
  deriving DecidableEq, Repr

/-- What the sink is told about the output of the guest. -/
inductive LabEvent
  | serialLine (startsAt : VirtTime) (line : List UInt8)
  | record (r : EventRecord)
  deriving DecidableEq

def NEWLINE : UInt8 := 10

/-- One byte of `serial_record_into_sink`. -/
def serialByteIntoSink (freq : Nat) (recordTsc : UInt64) (state : PartialLine × List LabEvent)
    (byte : UInt8) : PartialLine × List LabEvent :=
  let (line, sink) := state
  let startTsc := if line.bytes = [] then recordTsc else line.startTsc
  if byte = NEWLINE then
    (⟨[], startTsc⟩, sink ++ [.serialLine (fromInstructions startTsc freq) line.bytes])
  else (⟨line.bytes ++ [byte], startTsc⟩, sink)

/-- `serial_record_into_sink` -/
def serialRecordIntoSink (freq : Nat) (bytes : List UInt8) (recordTsc : UInt64)
    (state : PartialLine × List LabEvent) : PartialLine × List LabEvent :=
  bytes.foldl (serialByteIntoSink freq recordTsc) state

/-! ## Responses -/

def IO_RESPONSE_MAGIC : Nat := 0x1010B10C

/-- `IoResponse` -/
structure IoResponse where
  status : Int
  exitCode : Int
  outputLen : Nat
  deriving DecidableEq, Repr

/-- `i32::from_le_bytes` of the number the four bytes make up. -/
def signed32 (n : Nat) : Int :=
  if n < 2 ^ 31 then n else n - 2 ^ 32

/-- `decode_response` -/
def decodeResponse (bytes : List UInt8) : Option IoResponse := do
  let (magic, _) ← takeField 4 bytes
  if magic ≠ IO_RESPONSE_MAGIC then none
  else
    let (status, rest) ← takeField 4 (bytes.drop 8)
    let (exitCode, rest) ← takeField 4 rest
    let (outputLen, _) ← takeField 4 rest
    some ⟨signed32 status, signed32 exitCode, outputLen⟩

/-- `exit_code_from_wait_status` -/
def exitCodeFromWaitStatus (raw : Int) : Int :=
  if raw < 0 then raw
  else if raw % 128 ≠ 0 then 128 + raw % 128
  else raw / 256 % 256

/-- `BashOutput` -/
structure BashOutput where
  status : Int
  exitCode : Int
  output : List UInt8
  deriving DecidableEq, Repr

/-! ## Branches -/

/-- `RunOutcome` -/
inductive RunOutcome
  | reachedTime
  | ready
  | actionResponse (output : BashOutput)
  | rngExhausted
  | yielded (kind : ExitKind)
  deriving DecidableEq, Repr

/-- The operation named in an error. -/
inductive VmOperation
  | run | fork | setStopTsc | queueIoAction | drainIoResponse | setRdrandConfig | setRdrandValue
  | getRandomRequest | setRandomBytes | setEventConfig | setSingleStep | readRegisters
  | mapFeedbackBuffer
  deriving DecidableEq, Repr

/-- `LabError` -/
inductive LabError
  | input (e : Bedrock.LabError)
  | vm (operation : VmOperation) (source : IoError)
  | targetInPast (current target : VirtTime)
  | noCheckpointBefore (target : VirtTime)
  | unexpectedExit (stoppedAt : VirtTime) (kind : ExitKind)
  | badResponse
  | fileStoreFailed (stoppedAt : VirtTime) (source : IoError)
  deriving DecidableEq, Repr

/-- `Branch`; `origin` is the id of the checkpoint it comes from, `eventMapped` says
whether the event buffer of the VM is mapped, and `sink` is what the branch has told the
sink. -/
structure Branch (S : Type) extends Bedrock.Branch S where
  origin : Nat
  partialLine : PartialLine := {}
  inputRecording : InputRecording := {}
  lastStopAt : Option (Option Nat) := none
  eventConfig : EventConfig := {}
  eventMapped : Bool := false
  sink : List LabEvent := []

/-- `Checkpoint` -/
structure Checkpoint (S : Type) extends Bedrock.Checkpoint S where
  partialLine : PartialLine := {}
  inputRecording : InputRecording := {}

/-- What is outside of the lab during one turn of a run loop: how the ioctls go, what RUN
does to the VM and reports, and what the feedback buffers hold. -/
structure Turn where
  queue : QueueHost := {}
  stopCopied : Bool := true
  run : VmContext → Except IoError VmExit × VmContext
  drain : DrainHost := {}
  registersRead : Bool := true
  valueCopied : Bool := true
  requestCopied : Bool := true
  bytesCopied : Bool := true
  /-- The buffers registered for output, if they can be mapped. -/
  output : VmContext → Except IoError (List (List UInt8)) × VmContext := fun vm => (.ok [], vm)
  /-- `FileWriter::write` -/
  fileWrite : VmContext → Except IoError Unit × VmContext := fun vm => (.ok (), vm)

namespace Branch

variable {S : Type}

abbrev Act (S α : Type) : Type :=
  Program LabError (Branch S) α

def callVm {α : Type} (operation : VmOperation) (call : VmContext → Except IoError α × VmContext) :
    Act S α :=
  Program.mapExit (.vm operation)
    (Program.call fun b : Branch S => ((call b.vm).1, { b with vm := (call b.vm).2 }))

theorem callVm_ok {α : Type} {operation : VmOperation}
    {call : VmContext → Except IoError α × VmContext} {b : Branch S} {a : α} {vm : VmContext}
    (h : call b.vm = (.ok a, vm)) : callVm operation call b = (.ok a, { b with vm }) := by
  simp [callVm, Program.mapExit, h]

theorem callVm_error {α : Type} {operation : VmOperation}
    {call : VmContext → Except IoError α × VmContext} {b : Branch S} {e : IoError} {vm : VmContext}
    (h : call b.vm = (.error e, vm)) :
    callVm operation call b = (.error (.vm operation e), { b with vm }) := by
  simp [callVm, Program.mapExit, h]

def osError {α : Type} (r : Except Errno α × VmContext) : Except IoError α × VmContext :=
  (r.1.mapError .os, r.2)

def onInputs {α : Type} (m : Bedrock.Branch S → Except Bedrock.LabError α × Bedrock.Branch S) :
    Act S α :=
  mapExit .input
    (Program.call fun b : Branch S =>
      ((m b.toBranch).1, { b with toBranch := (m b.toBranch).2 }))

theorem onInputs_eq_ok_iff {α : Type}
    {m : Bedrock.Branch S → Except Bedrock.LabError α × Bedrock.Branch S} {b b' : Branch S} {a : α} :
    onInputs m b = (.ok a, b') ↔
      ∃ base, m b.toBranch = (.ok a, base) ∧ b' = { b with toBranch := base } := by
  unfold onInputs
  rw [mapExit_eq_ok_iff, call_apply, Prod.mk.injEq]
  constructor
  · rintro ⟨hok, rfl⟩
    exact ⟨(m b.toBranch).2, Prod.ext hok rfl, rfl⟩
  rintro ⟨base, hm, rfl⟩
  rw [hm]
  exact ⟨rfl, rfl⟩

/-- `check_freq` -/
def checkFreq (freq : Nat) : Act S Unit :=
  onInputs fun b => (b.checkFreq freq, b)

/-- `set_stop_at`: the ioctl is left out if nothing changes. -/
def setStopAt (value : Option Nat) (copied : Bool) : Act S Unit := do
  let last ← read fun b : Branch S => b.lastStopAt
  if last = some value then pure ()
  else
    callVm .setStopTsc fun vm => osError (vm.handleSetStopTsc (.ofNat (value.getD 0)) copied)
    update fun b : Branch S => { b with lastStopAt := some value }

/-- `advance_time`; the mirror in the map of live branches is left out. -/
def advanceTime (t : VirtTime) : Act S Unit :=
  update fun b : Branch S => { b with currentTime := t }

/-- One record of `drain_events`. -/
def drainRecord (b : Branch S) (r : EventRecord) : Branch S :=
  if r.kind = serial.asU16 then
    let (line, sink) :=
      serialRecordIntoSink b.tscFrequency r.payload r.tsc (b.partialLine, b.sink)
    { b with partialLine := line, sink }
  else
    { b with
      inputRecording := if b.inputSource.isSome then b.inputRecording.recordEvent r b.tscFrequency
        else b.inputRecording
      sink := b.sink ++ [.record r] }

/-- `drain_events` -/
def drainEvents (eventLen : Nat) : Act S Unit :=
  update fun b : Branch S =>
    if eventLen = 0 ∨ b.eventMapped = false then b
    else
      let drained :=
        (List.range (min eventLen EVENT_BUFFER_SIZE)).map b.vm.state.events.bytes
      (EventRecord.stream drained).foldl drainRecord b

/-- The part common to both loops: RUN, then note the time and drain. -/
def runVm (turn : Turn) : Act S VmExit := do
  let exit ← callVm .run turn.run
  let freq ← read fun b : Branch S => b.tscFrequency
  advanceTime ⟨exit.emulatedTsc, freq⟩
  drainEvents exit.eventLen
  pure exit

inductive FeedRng
  | fed | noSource | exhausted
  deriving DecidableEq, Repr

/-- What `run_until` makes of an attempt to feed the guest. -/
def FeedRng.outcome (kind : ExitKind) : FeedRng → Option RunOutcome
  | fed => none
  | exhausted => some .rngExhausted
  | noSource => some (.yielded kind)

def askSource {α : Type} (question : S → α × S) : Act S (Option α) :=
  act fun b : Branch S =>
    (b.inputSource.map fun source => (question source).1,
      { b with inputSource := b.inputSource.map fun source => (question source).2 })

/-- `feed_rng` -/
def feedRng [InputSource S] (turn : Turn) : Act S FeedRng := do
  match ← askSource InputSource.nextRngU64 with
  | none => pure .noSource
  | some none => pure .exhausted
  | some (some value) =>
    callVm .setRdrandValue fun vm => osError (vm.handleSetRdrandValue value turn.valueCopied)
    pure .fed

/-- GET_RANDOM_REQUEST: the length and the process. -/
def randomRequest (turn : Turn) : Act S (Nat × UInt32) :=
  callVm .getRandomRequest fun vm =>
    let random := vm.state.guest.devices.random
    (if turn.requestCopied then .ok (random.reqLen, random.pid) else .error (.os .efault), vm)

/-- `feed_random` -/
def feedRandom [InputSource S] (turn : Turn) : Act S FeedRng := do
  let (len, pid) ← randomRequest turn
  match ← askSource (InputSource.nextRandom len pid) with
  | none => pure .noSource
  | some bytes =>
    callVm .setRandomBytes fun vm => osError (vm.handleSetRandomBytes bytes turn.bytesCopied)
    pure .fed

/-- `on_feedback_buffer_registered`; the registration is only reported. -/
def onFeedbackBufferRegistered (turn : Turn) : Act S Unit :=
  callVm .readRegisters fun vm =>
    (if turn.registersRead then .ok () else .error (.os .efault), vm)

/-- `drain_io_response` -/
def drainIoResponse (turn : Turn) : Act S (List UInt8) :=
  callVm .drainIoResponse fun vm =>
    osError (vm.handleDrainIoResponse IO_CHANNEL_BUF_SIZE turn.drain)

/-- `bash_output_from_response`; `output` reads the feedback buffers for output. -/
def bashOutputFromResponse (resp : List UInt8)
    (output : VmContext → Except IoError (List (List UInt8)) × VmContext) : Act S BashOutput :=
  match decodeResponse resp with
  | none => exit .badResponse
  | some r =>
    if 0 < r.outputLen then do
      let buffers ← callVm .mapFeedbackBuffer output
      pure ⟨r.status, exitCodeFromWaitStatus r.exitCode,
        ((buffers.head?).getD []).take r.outputLen⟩
    else pure ⟨r.status, exitCodeFromWaitStatus r.exitCode, []⟩

variable [InputSource S]

/-- The `match` of `run_until`: the outcome, or `none` to go on. -/
def serve (target : VirtTime) (exit : VmExit) (turn : Turn) : Act S (Option RunOutcome) :=
  match exit.kind with
  | .stopTscReached =>
    read fun b : Branch S => if b.currentTime < target then none else some .reachedTime
  | .vmcallReady => pure (some .ready)
  | .ioResponse => do
    let bytes ← drainIoResponse turn
    let output ← bashOutputFromResponse bytes turn.output
    pure (some (.actionResponse output))
  | .feedbackBufferRegistered => do
    onFeedbackBufferRegistered turn
    pure none
  | .rdrand | .rdseed => do
    let result ← feedRng turn
    pure (result.outcome exit.kind)
  | .vmcallGetRandom => do
    let result ← feedRandom turn
    pure (result.outcome exit.kind)
  | .continue_ | .eventBufferFull => pure none
  | kind => pure (some (.yielded kind))

/-- One turn of the loop of `run_until`. -/
def runTurn (target : VirtTime) (turn : Turn) : Act S (Option (VirtTime × RunOutcome)) := do
  let stopAt ← onInputs fun b : Bedrock.Branch S => b.prepareNextIoInput target turn.queue
  setStopAt (some stopAt.instructions) turn.stopCopied
  let exit ← runVm turn
  let outcome ← serve target exit turn
  read fun b : Branch S => outcome.map fun o => (b.currentTime, o)

/-- `run_until` -/
def runUntil (target : VirtTime) (turns : List Turn) : Act S (Option (VirtTime × RunOutcome)) := do
  checkFreq target.frequency
  let now ← read fun b : Branch S => b.currentTime
  if target < now then exit (.targetInPast now target)
  else if target = now then pure (some (target, .reachedTime))
  else drive (runTurn target) turns

theorem runUntil_eq (target : VirtTime) (turns : List Turn) (b : Branch S) :
    runUntil target turns b =
      if target.frequency ≠ b.tscFrequency then
        (.error (.input (.frequencyMismatch target.frequency b.tscFrequency)), b)
      else if target < b.currentTime then (.error (.targetInPast b.currentTime target), b)
      else if target = b.currentTime then (.ok (some (target, .reachedTime)), b)
      else drive (runTurn target) turns b := by
  by_cases hfreq : target.frequency ≠ b.tscFrequency
  · rw [if_pos hfreq]
    apply bind_error
    simp [checkFreq, onInputs, mapExit, Bedrock.Branch.checkFreq, hfreq]
  have hcheck : checkFreq target.frequency b = (.ok (), b) := by
    simp [checkFreq, onInputs, mapExit, Bedrock.Branch.checkFreq, not_not.mp hfreq]
  rw [if_neg hfreq]
  refine (bind_ok hcheck).trans ((bind_ok (read_apply _ b)).trans ?_)
  split
  · rfl
  split
  · rfl
  · rfl

/-- The `match` of `run_io_action`: the response, or `none` to go on. -/
def serveIo (exit : VmExit) (turn : Turn) : Act S (Option (List UInt8)) := do
  let stoppedAt ← read fun b : Branch S => b.currentTime
  match exit.kind with
  | .ioResponse => do
    let bytes ← drainIoResponse turn
    pure (some bytes)
  | .feedbackBufferRegistered => do
    onFeedbackBufferRegistered turn
    pure none
  | .fileStore => do
    Program.mapExit (.fileStoreFailed stoppedAt)
      (Program.call fun b : Branch S =>
        ((turn.fileWrite b.vm).1, { b with vm := (turn.fileWrite b.vm).2 }))
    pure none
  | .rdrand | .rdseed => do
    match ← feedRng turn with
    | .fed => pure none
    | .exhausted | .noSource => Program.exit (.unexpectedExit stoppedAt exit.kind)
  | .continue_ | .eventBufferFull | .vmcallReady => pure none
  | kind => Program.exit (.unexpectedExit stoppedAt kind)

/-- One turn of the loop of `run_io_action`. -/
def ioTurn (turn : Turn) : Act S (Option (List UInt8)) := do
  let exit ← runVm turn
  serveIo exit turn

/-- How the ioctls of `bash` outside of its loop go. -/
structure BashHost where
  stopCopied : Bool := true
  queue : QueueHost := {}
  output : VmContext → Except IoError (List (List UInt8)) × VmContext := fun vm => (.ok [], vm)

/-- `run_io_action` -/
def runIoAction (request : List UInt8) (host : BashHost) (turns : List Turn) :
    Act S (Option (List UInt8)) := do
  setStopAt none host.stopCopied
  callVm .queueIoAction fun vm => vm.queueIoAction request 0 host.queue
  drive ioTurn turns

/-- `bash` -/
def bash (target : BashTarget) (command : String) (recordOutput : Bool) (host : BashHost)
    (turns : List Turn) : Act S (Option BashOutput) := do
  match ← runIoAction (encodeRequest target command recordOutput) host turns with
  | none => pure none
  | some bytes => do
    let output ← bashOutputFromResponse bytes host.output
    pure (some output)

end Branch

/-! ## Checkpoints -/

/-- The mode `RdrandConfig::exit_to_userspace` asks for. -/
def exitToUserspace : BedrockRdrandConfig := ⟨1, 0⟩

/-- How the steps of `branch_inner` go. -/
structure BranchHost where
  fork : ForkHost
  rdrandCopied : Bool := true
  eventCopied : Bool := true
  eventAllocated : Bool := true
  eventMapped : Bool := true

namespace Branch

variable {S : Type}

/-- The mapping of the event buffer, after the stream was turned on or off; if it fails
the stream is turned off again. -/
def mapEventBuffer (enabled mapped : Bool) : Act S Unit :=
  Program.call fun b : Branch S =>
    if enabled && !b.eventMapped && !mapped then
      (.error (.vm .setEventConfig (.os .enomem)),
        { b with vm := (b.vm.handleSetEventConfig ⟨0, 0, 0, 0, 0, 0⟩ true true).2 })
    else (.ok (), { b with eventMapped := enabled })

/-- `Vm::set_event_config` -/
def sendEventConfig (config : BedrockEventConfig) (copied allocated mapped : Bool) : Act S Unit := do
  callVm .setEventConfig fun vm => osError (vm.handleSetEventConfig config copied allocated)
  mapEventBuffer (config.enabled ≠ 0) mapped

/-- `apply_event_config` -/
def applyEventConfig (copied allocated mapped : Bool) : Act S Unit := do
  let config ← read fun b : Branch S =>
    b.eventConfig.toVmConfigWith (if b.inputSource.isSome
      then serial.category ||| RECORDING_CATEGORIES else serial.category)
  sendEventConfig config copied allocated mapped

/-- `set_event_config` -/
def setEventConfig (config : EventConfig) (copied allocated mapped : Bool) : Act S Unit := do
  update fun b : Branch S => { b with eventConfig := config }
  applyEventConfig copied allocated mapped

/-- The random device of a branch with a source of its own leaves requests to
userspace. -/
def forceExits (forceExitToUserspace : Bool) (host : BranchHost) : Act S Unit :=
  if forceExitToUserspace then
    callVm .setRdrandConfig fun vm =>
      osError (vm.handleSetRdrandConfig exitToUserspace host.rdrandCopied)
  else pure ()

/-- The ioctls on a fresh fork; the last is `enable_event_capture`. -/
def enable (forceExitToUserspace : Bool) (host : BranchHost) : Act S Unit := do
  forceExits forceExitToUserspace host
  applyEventConfig host.eventCopied host.eventAllocated host.eventMapped

/-- `Branch::checkpoint` -/
def freeze (b : Branch S) : Checkpoint S :=
  { toCheckpoint := b.toBranch.checkpoint
    partialLine := b.partialLine
    inputRecording := b.inputRecording }

end Branch

namespace Checkpoint

variable {S : Type}

/-- `branch_inner`: the fork, its random device, and event capture. -/
def branchInner (c : Checkpoint S) (id : Nat) (source : Option S) (forceExitToUserspace : Bool)
    (host : BranchHost) : Except LabError (Branch S) :=
  match c.toCheckpoint.branchInner source host.fork with
  | .error _ => .error (.vm .fork (.os .enomem))
  | .ok b =>
    let b : Branch S :=
      { toBranch := b, origin := id, partialLine := c.partialLine
        inputRecording := c.inputRecording }
    match Branch.enable forceExitToUserspace host b with
    | (.error e, _) => .error e
    | (.ok (), b) => .ok b

/-- `branch` -/
def branch (c : Checkpoint S) (id : Nat) (host : BranchHost) : Except LabError (Branch S) :=
  c.branchInner id c.inputSource false host

/-- The checkpoint as a branch with another source sees it: all but the source is
kept. -/
def override {T : Type} (c : Checkpoint S) (source : T) : Checkpoint T where
  vm := c.vm
  time := c.time
  tscFrequency := c.tscFrequency
  inputSource := some source
  pendingInputIo := c.pendingInputIo
  inputIoExhausted := c.inputIoExhausted
  partialLine := c.partialLine
  inputRecording := c.inputRecording

/-- `branch_with_input_source` -/
def branchWithInputSource {T : Type} (c : Checkpoint S) (id : Nat) (source : T)
    (host : BranchHost) : Except LabError (Branch T) :=
  (c.override source).branchInner id (some source) true host

end Checkpoint

end Lab

end Bedrock
