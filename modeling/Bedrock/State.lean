import Bedrock.Devices
import Bedrock.Ept.Build
import Bedrock.Events
import Bedrock.Memory

/-!
# The state of one VM

The source keeps everything in one flat record.  Here the fields are grouped by
who may change them: what the guest can see, the clock, what the host asked for,
the precise-exit machinery, and the event stream.  The field names are those of
the source.
-/

namespace Bedrock

open Support

def PENDING_IO_QUEUE_CAP : Nat := 256

structure PendingIoAction where
  targetTsc : Nat
  data : List UInt8
  deriving DecidableEq, Repr

/-- The in-flight request and the queue behind it; `request` is the valid part of
the request buffer, so `request_len` is its length. -/
structure IoChannelState where
  pageGpa : Nat := 0
  request : List UInt8 := []
  requestDelivered : Bool := false
  requestTargetTsc : Nat := 0
  responseLen : Nat := 0
  responseBuf : Nat → UInt8 := fun _ => 0
  pending : List PendingIoAction := []

namespace IoChannelState

/-- `clone_for_fork`: only the registered page is inherited. -/
def cloneForFork (chan : IoChannelState) : IoChannelState :=
  { pageGpa := chan.pageGpa }

/-- `promote_next_pending` -/
def promoteNextPending (chan : IoChannelState) : IoChannelState :=
  if chan.request ≠ [] then chan
  else
    match chan.pending with
    | [] => chan
    | next :: rest =>
      { chan with
        pending := rest
        request := next.data.take IO_CHANNEL_BUF_SIZE
        requestTargetTsc := next.targetTsc
        requestDelivered := false
        responseLen := 0 }

/-- The in-flight request is consumed and the next one takes its place. -/
def consumeRequest (chan : IoChannelState) : IoChannelState :=
  { chan with request := [], requestDelivered := false, requestTargetTsc := 0 }.promoteNextPending

/-- The requests the guest can still be given: the one in flight, then the queued ones
that are not empty. -/
def outstanding (chan : IoChannelState) : List PendingIoAction :=
  (if chan.request = [] then [] else [⟨chan.requestTargetTsc, chan.request⟩]) ++
    chan.pending.filter (·.data ≠ [])

def response (chan : IoChannelState) : List UInt8 :=
  (List.range (min chan.responseLen IO_CHANNEL_BUF_SIZE)).map chan.responseBuf

end IoChannelState

def FEEDBACK_BUFFER_MAX_PAGES : Nat := 256

def FEEDBACK_BUFFER_ID_MAX_LEN : Nat := 128

/-- A registered feedback buffer; `gpas` holds `num_pages` page addresses. -/
structure FeedbackBufferInfo where
  gva : UInt64
  size : UInt64
  gpas : List Nat
  id : List UInt8
  deriving DecidableEq, Repr

/-! ## Groups of fields -/

/-- What the guest can observe besides its memory and its VMCS fields. -/
structure GuestState where
  gprs : GeneralPurposeRegisters := {}
  devices : DeviceStates := {}
  msrState : GuestMsrState := {}
  xcr0Mask : UInt64 := 0
  guestCr2 : UInt64 := 0
  /-- The page at `guest_xsave_page`. -/
  guestXsave : Nat → UInt8 := fun _ => 0
  kernelGsBase : UInt64 := 0
  ioChannel : IoChannelState := {}
  /-- `serial_console.page_gpa` -/
  serialConsoleGpa : Nat := 0
  feedbackBuffers : List FeedbackBufferInfo := []

/-- Retired instructions at the last exit and the two components of emulated time. -/
structure Clock where
  lastInstructionCount : Nat := 0
  emulatedTsc : Nat := 0
  tscOffset : Nat := 0
  deriving DecidableEq, Repr

def Clock.now (clock : Clock) : Nat :=
  clock.lastInstructionCount + clock.tscOffset

/-- What userspace configured for the run. -/
structure RunConfig where
  tscFrequency : Nat := 0
  stopAtTsc : Option Nat := none
  singleStepTscRange : Option (Nat × Nat) := none
  interceptPf : Bool := false
  pebsSupported : Bool := false
  deriving DecidableEq, Repr

/-- Registration and arming of the precise-exit counter.  The programmed control
values are constants; `armedAction` is the vector of `InjectInterrupt`. -/
structure PebsState where
  dsManagementGpa : Nat
  pebsBufferGpa : Nat
  dsAreaVa : UInt64
  armedAction : Option UInt8 := none
  armedTargetTsc : Nat := 0
  armedInstCount : Nat := 0
  armedTscOffset : Nat := 0
  itersSinceArm : Nat := 0
  counterReload : Nat := 0
  deriving DecidableEq, Repr

/-- `PebsState::clone_for_fork` -/
def PebsState.cloneForFork (pebs : PebsState) : PebsState :=
  { dsManagementGpa := pebs.dsManagementGpa
    pebsBufferGpa := pebs.pebsBufferGpa
    dsAreaVa := pebs.dsAreaVa }

/-- The precise-exit machinery: registration, the mirror of the trap flag and the
diagnostics of the last precise exit. -/
structure PreciseState where
  pebsState : Option PebsState := none
  mtfEnabled : Bool := false
  lastPebsSkid : Int := 0
  lastPebsInstDelta : Int := 0
  lastPebsTscOffsetDelta : Int := 0
  lastPebsItersSinceArm : Nat := 0
  lastPebsArmDelta : Nat := 0
  deriving DecidableEq, Repr

inductive ExitTrigger
  | disabled | allExits | atTsc | atShutdown | checkpoints | tscRange
  deriving DecidableEq, Repr

/-- Which exits are recorded. -/
structure CaptureConfig where
  exitTrigger : ExitTrigger := .disabled
  exitTargetTsc : Nat := 0
  exitStartTsc : Nat := 0
  exitCaptured : Bool := false
  skipMemoryHash : Bool := false
  lastCheckpointIdx : Nat := 0
  deriving DecidableEq, Repr

structure VmState where
  vmcs : Vmcs
  ept : EptPageTable
  guest : GuestState := {}
  clock : Clock := {}
  config : RunConfig := {}
  precise : PreciseState := {}
  capture : CaptureConfig := {}
  events : EventStream := {}
  lastExitDeterministic : Bool := true

/-! ## Results of exit handling -/

inductive ExitError
  | vmcsReadError (e : VmcsReadError)
  | vmcsWriteError (e : VmcsWriteError)
  | unknownExitReason (raw : UInt32)
  | tripleFault
  | invalidGuestState
  | fatal (message : String)
  deriving DecidableEq, Repr

inductive ExitHandlerResult
  | continue_
  | exitToUserspace (reason : ExitReason)
  | error (e : ExitError)
  deriving DecidableEq, Repr

/-! ## The host -/

/-- What the code asks of the machine it runs on. -/
structure Machine where
  /-- `CPUID` on the host: EAX, EBX, ECX and EDX for a leaf and subleaf. -/
  cpuid : UInt32 → UInt32 → UInt32 × UInt32 × UInt32 × UInt32
  cr0Fixed0 : UInt64 := 0
  cr0Fixed1 : UInt64 := 0
  cr4Fixed0 : UInt64 := 0
  cr4Fixed1 : UInt64 := 0
  /-- Host MSRs passed through to the guest. -/
  miscEnable : UInt64 := 0
  platformInfo : UInt64 := 0
  /-- Physical address of the VM-exit MSR-load page. -/
  pebsExitMsrLoadPage : UInt64 := 0
  /-- The kernel's hash function. -/
  xxh64 : List UInt8 → UInt64

/-- A page granted by `allocate_cow_page`, and whether the map insertion succeeds. -/
structure CowGrant where
  frame : HostFrame
  inserted : Bool := true

/-- What the host contributes while one exit is handled: the outcome of each page
allocation, of each heap allocation and of each host-TSC read, in order, and the
bytes that happen to lie in the padding of a record built on the stack. -/
structure HostInputs where
  cowPages : List (Option CowGrant) := []
  heap : List Bool := []
  rdtsc : List UInt64 := []
  stackPadding : Vector UInt8 4 := .replicate 4 0

/-- Everything an exit handler can reach. -/
structure VmContext where
  state : VmState
  memory : VmMemory
  machine : Machine
  host : HostInputs := {}

end Bedrock
