import Bedrock.Vm

/-!
# Queueing I/O actions, and the lab

QUEUE_IO_ACTION puts an action at the end of a VM's queue.  The lab feeds a branch
from an input source: it pulls inputs one at a time and queues each when its virtual
time has come.  A checkpoint freezes a branch; branches of a checkpoint run forks of
its VM.
-/

namespace Bedrock

open Support

inductive EnqueueResult
  | queued | full | outOfMemory
  deriving DecidableEq, Repr

/-- `enqueue_pending`; `pushed` says whether the vector could grow. -/
def IoChannelState.enqueuePending (chan : IoChannelState) (action : PendingIoAction)
    (pushed : Bool) : EnqueueResult × IoChannelState :=
  if PENDING_IO_QUEUE_CAP ≤ chan.pending.length then (.full, chan)
  else if pushed then (.queued, { chan with pending := chan.pending ++ [action] })
  else (.outOfMemory, chan)

inductive Errno
  | efault | einval | enomem | ebusy
  deriving DecidableEq, Repr

/-- Whether the copies from userspace and the allocations of one call succeed. -/
structure QueueHost where
  headerCopied : Bool := true
  dataAllocated : Bool := true
  dataCopied : Bool := true
  pushed : Bool := true

namespace VmContext

/-- `handle_queue_io_action` -/
def handleQueueIoAction (ctx : VmContext) (action : PendingIoAction) (host : QueueHost) :
    Except Errno Unit × VmContext :=
  if !host.headerCopied then (.error .efault, ctx)
  else if IO_CHANNEL_BUF_SIZE < action.data.length then (.error .einval, ctx)
  else if !host.dataAllocated then (.error .enomem, ctx)
  else if action.data ≠ [] ∧ host.dataCopied = false then (.error .efault, ctx)
  else
    match ctx.state.guest.ioChannel.enqueuePending action host.pushed with
    | (.full, _) => (.error .ebusy, ctx)
    | (.outOfMemory, _) => (.error .enomem, ctx)
    | (.queued, chan) =>
      (.ok (), ctx.setGuest { ctx.state.guest with ioChannel := chan.promoteNextPending })

end VmContext

inductive IoError
  | invalidInput
  | os (errno : Errno)
  deriving DecidableEq, Repr

/-- `Vm::queue_io_action` -/
def VmContext.queueIoAction (ctx : VmContext) (data : List UInt8) (targetTsc : Nat)
    (host : QueueHost) : Except IoError Unit × VmContext :=
  if IO_CHANNEL_BUF_SIZE < data.length then (.error .invalidInput, ctx)
  else
    match ctx.handleQueueIoAction ⟨targetTsc, data⟩ host with
    | (.error e, ctx) => (.error (.os e), ctx)
    | (.ok (), ctx) => (.ok (), ctx)

/-- A moment of virtual time. -/
structure VirtTime where
  instructions : Nat
  frequency : Nat
  deriving DecidableEq, Repr

namespace VirtTime

/-- The derived order: by instructions, then by frequency. -/
instance : LT VirtTime where
  lt a b := a.instructions < b.instructions ∨
    (a.instructions = b.instructions ∧ a.frequency < b.frequency)

instance (a b : VirtTime) : Decidable (a < b) :=
  inferInstanceAs (Decidable (_ ∨ _))

def min (a b : VirtTime) : VirtTime :=
  if b < a then b else a

end VirtTime

inductive BashTarget
  | host
  | container (name : String)
  deriving DecidableEq, Repr

/-- `container_name`, empty for the host. -/
def BashTarget.containerName : BashTarget → String
  | host => ""
  | container name => name

structure IoInput where
  startsAt : VirtTime
  target : BashTarget
  command : String
  recordOutput : Bool
  deriving DecidableEq, Repr

def IO_REQUEST_MAGIC : Nat := 0xB10C1010

def IO_FLAG_RECORD_OUTPUT : Nat := 1

/-- `encode_request` -/
def encodeRequest (target : BashTarget) (command : String) (recordOutput : Bool) : List UInt8 :=
  let payload := target.containerName.toUTF8.data.toList ++ [0] ++ command.toUTF8.data.toList ++ [0]
  leBytes 4 IO_REQUEST_MAGIC ++ leBytes 4 (if recordOutput then IO_FLAG_RECORD_OUTPUT else 0) ++
    leBytes 4 payload.length ++ payload

/-- The action an input is queued as: it is due at once. -/
def IoInput.action (input : IoInput) : PendingIoAction :=
  ⟨0, encodeRequest input.target input.command input.recordOutput⟩

/-- Where a branch gets its inputs from. -/
class InputSource (S : Type) where
  nextIoInput : S → Option IoInput × S

/-- `RecordedInputSource`, as far as I/O inputs are concerned. -/
structure RecordedInputSource where
  ioInputs : List IoInput
  ioPos : Nat := 0

instance : InputSource RecordedInputSource where
  nextIoInput source :=
    let input := source.ioInputs[source.ioPos]?
    (input, if input.isSome then { source with ioPos := source.ioPos + 1 } else source)

/-! ## Branches and checkpoints -/

inductive LabError
  | frequencyMismatch (lhs rhs : Nat)
  | queueInputIo (startsAt : VirtTime) (target : BashTarget) (command : String) (source : IoError)
  deriving DecidableEq, Repr

/-- `Branch`, as far as inputs are concerned; `tscFrequency` is the lab's. -/
structure Branch (S : Type) where
  vm : VmContext
  currentTime : VirtTime
  tscFrequency : Nat
  inputSource : Option S
  pendingInputIo : Option IoInput
  inputIoExhausted : Bool

namespace Branch

variable {S : Type}

def checkFreq (b : Branch S) (freq : Nat) : Except LabError Unit :=
  if freq ≠ b.tscFrequency then .error (.frequencyMismatch freq b.tscFrequency) else .ok ()

variable [InputSource S]

/-- Pull the next input and remember it, or that there is none. -/
def pullInput (b : Branch S) : Option IoInput × Branch S :=
  match b.inputSource with
  | none => (none, b)
  | some source =>
    let (input, source) := InputSource.nextIoInput source
    (input, { b with
      inputSource := some source
      pendingInputIo := input
      inputIoExhausted := b.inputIoExhausted || input.isNone })

/-- The input at hand, pulled if necessary. -/
def inputAtHand (b : Branch S) : Option IoInput × Branch S :=
  match b.pendingInputIo with
  | some input => (some input, b)
  | none => b.pullInput

/-- The first half of `prepare_next_io_input`: it returns, or an input is due. -/
def dueInput (b : Branch S) (target : VirtTime) :
    (Except LabError VirtTime × Branch S) ⊕ (IoInput × Branch S) :=
  if b.inputIoExhausted then .inl (.ok target, b)
  else
    match b.inputAtHand with
    | (none, b) => .inl (.ok target, b)
    | (some input, b) =>
      match b.checkFreq input.startsAt.frequency with
      | .error e => .inl (.error e, b)
      | .ok () =>
        if target < input.startsAt then .inl (.ok target, b)
        else if b.currentTime < input.startsAt then .inl (.ok input.startsAt, b)
        else .inr (input, { b with pendingInputIo := none })

/-- The end of `prepare_next_io_input`: when to stop for the next input. -/
def stopForNext (b : Branch S) (target : VirtTime) : Except LabError VirtTime × Branch S :=
  match b.pullInput with
  | (none, b) => (.ok target, b)
  | (some next, b) =>
    match b.checkFreq next.startsAt.frequency with
    | .error e => (.error e, b)
    | .ok () => (.ok (next.startsAt.min target), b)

/-- The second half of `prepare_next_io_input`: a full queue puts the input back. -/
def submitInput (b : Branch S) (input : IoInput) (target : VirtTime) (host : QueueHost) :
    Except LabError VirtTime × Branch S :=
  match b.vm.queueIoAction input.action.data input.action.targetTsc host with
  | (.ok (), vm) => { b with vm }.stopForNext target
  | (.error (.os .ebusy), vm) => (.ok target, { b with vm, pendingInputIo := some input })
  | (.error e, vm) =>
    (.error (.queueInputIo input.startsAt input.target input.command e), { b with vm })

/-- `prepare_next_io_input` -/
def prepareNextIoInput (b : Branch S) (target : VirtTime) (host : QueueHost) :
    Except LabError VirtTime × Branch S :=
  match b.dueInput target with
  | .inl r => r
  | .inr (input, b) => b.submitInput input target host

end Branch

/-- A frozen branch. -/
structure Checkpoint (S : Type) where
  vm : VmContext
  time : VirtTime
  tscFrequency : Nat
  inputSource : Option S
  pendingInputIo : Option IoInput
  inputIoExhausted : Bool

/-- `Branch::checkpoint` -/
def Branch.checkpoint {S : Type} (b : Branch S) : Checkpoint S :=
  { vm := b.vm
    time := b.currentTime
    tscFrequency := b.tscFrequency
    inputSource := b.inputSource
    pendingInputIo := b.pendingInputIo
    inputIoExhausted := b.inputIoExhausted }

/-- The fork in `branch_inner`; the source is a clone of the checkpoint's or another
one.  What follows are further ioctls on the new VM. -/
def Checkpoint.branchInner {S : Type} (c : Checkpoint S) (source : Option S) (host : ForkHost) :
    Except ForkedVmError (Branch S) :=
  match ForkedVm.new c.vm host with
  | .error e => .error e
  | .ok vm => .ok
    { vm
      currentTime := c.time
      tscFrequency := c.tscFrequency
      inputSource := source
      pendingInputIo := c.pendingInputIo
      inputIoExhausted := c.inputIoExhausted }

end Bedrock
