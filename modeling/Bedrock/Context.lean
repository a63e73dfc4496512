import Bedrock.Capture
import Bedrock.Precise

/-!
# What exit handlers are made of

Exit handlers are programs over the VM context.  This module defines the accesses
they perform and classifies them: `GuestAction` contains the accesses whose
results and effects are confined to what the guest can see, `HandlerAction` adds
those that depend on page allocation, and `CaptureAction` those that capture exit
records or consume an I/O request.  Every handler is built from these actions, so a fact
about handlers is proved once per action.
-/

namespace Bedrock

open Support Program Controls

/-- An exit handler in the middle of its work: it may return early. -/
abbrev Handler (α : Type) : Type :=
  Program ExitHandlerResult VmContext α

/-- A helper which fails with an `ExitError`. -/
abbrev Fallible (α : Type) : Type :=
  Program ExitError VmContext α

/-- `if let Err(e) = .. { return ExitHandlerResult::Error(e) }` -/
def orError {α : Type} (m : Fallible α) : Handler α :=
  m.mapExit .error

/-! ## Actions -/

namespace VmContext

def setGuest (ctx : VmContext) (guest : GuestState) : VmContext :=
  { ctx with state := { ctx.state with guest } }

def setVmcs (ctx : VmContext) (vmcs : Vmcs) : VmContext :=
  { ctx with state := { ctx.state with vmcs } }

def setField (ctx : VmContext) (field : VmcsField) (v : UInt64) : VmContext :=
  ctx.setVmcs { ctx.state.vmcs with fields := ctx.state.vmcs.fields.setValue field v }

def setPrecise (ctx : VmContext) (precise : PreciseState) : VmContext :=
  { ctx with state := { ctx.state with precise } }

def setClock (ctx : VmContext) (clock : Clock) : VmContext :=
  { ctx with state := { ctx.state with clock } }

def writeVmcs (ctx : VmContext) (field : VmcsField) (v : UInt64) :
    Except VmcsWriteError Unit × VmContext :=
  let (r, fields) := ctx.state.vmcs.fields.write field v
  (r, ctx.setVmcs { ctx.state.vmcs with fields })

def writeControl (ctx : VmContext) (control : VmcsControl) (v : UInt64) :
    Except VmcsWriteError Unit × VmContext :=
  let (r, controls) := ctx.state.vmcs.controls.write control v
  (r, ctx.setVmcs { ctx.state.vmcs with controls })

def writeMemory (ctx : VmContext) (gpa : Nat) (bytes : List UInt8) :
    Except MemoryError Unit × VmContext :=
  let (r, memory) := ctx.memory.writeGuestMemory gpa bytes
  (r, ctx.setMemory memory)

def heapAlloc (ctx : VmContext) : Bool × VmContext :=
  (ctx.host.heap.headD true, { ctx with host := { ctx.host with heap := ctx.host.heap.tail } })

def consumeIoRequest (ctx : VmContext) : VmContext :=
  ctx.setGuest { ctx.state.guest with ioChannel := ctx.state.guest.ioChannel.consumeRequest }

def setInterruptWindowExiting (ctx : VmContext) (on : Bool) : Except ExitError Unit × VmContext :=
  match ctx.state.vmcs.controls.read .primaryProcBasedVmExecControls with
  | .error e => (.error (.vmcsReadError e), ctx)
  | .ok controls =>
    if (controls &&& intrWindowExiting != 0) = on then (.ok (), ctx)
    else
      let controls :=
        if on then controls ||| intrWindowExiting
        else controls &&& ~~~intrWindowExiting
      match ctx.writeControl .primaryProcBasedVmExecControls controls with
      | (.error e, ctx) => (.error (.vmcsWriteError e), ctx)
      | (.ok (), ctx) => (.ok (), ctx)

end VmContext

/-- The events a handler can emit; exit records are captured. -/
inductive Emission
  | append (kind : EventKind) (payload : List UInt8) (hkind : kind ≠ .exit := by decide)
  | serialByte (byte : UInt8)
  | flushSerialLine
  | ioChannel (phase : IoChannelPhase) (targetTsc : Nat)

def Emission.run (ctx : VmContext) : Emission → VmContext
  | append kind payload _ => ctx.eventAppend kind payload
  | serialByte byte => ctx.eventSerialByte byte
  | flushSerialLine => ctx.eventFlushSerialLine
  | ioChannel phase targetTsc => ctx.eventEmitIoChannel phase targetTsc

/-- Where a handler captures an exit record itself. -/
inductive CapturePoint
  | shutdown | snapshot
  deriving DecidableEq, Repr

def CapturePoint.run (ctx : VmContext) : CapturePoint → VmContext
  | shutdown => ctx.captureExitAtShutdown
  | snapshot => ctx.captureExitAtSnapshot

/-- An update of the guest state that neither adds nor removes I/O requests. -/
class KeepsRequests (f : GuestState → GuestState) : Prop where
  request : ∀ g, (f g).ioChannel.request = g.ioChannel.request
  requestTargetTsc : ∀ g, (f g).ioChannel.requestTargetTsc = g.ioChannel.requestTargetTsc
  pending : ∀ g, (f g).ioChannel.pending = g.ioChannel.pending

/-! Most updates do not touch the channel at all, the others not its requests. -/

instance (f : GuestState → GeneralPurposeRegisters) :
    KeepsRequests fun g => { g with gprs := f g } :=
  ⟨fun _ => rfl, fun _ => rfl, fun _ => rfl⟩

instance (f : GuestState → DeviceStates) : KeepsRequests fun g => { g with devices := f g } :=
  ⟨fun _ => rfl, fun _ => rfl, fun _ => rfl⟩

instance (v : UInt64) : KeepsRequests fun g => { g with xcr0Mask := v } :=
  ⟨fun _ => rfl, fun _ => rfl, fun _ => rfl⟩

instance (v : UInt64) : KeepsRequests fun g => { g with guestCr2 := v } :=
  ⟨fun _ => rfl, fun _ => rfl, fun _ => rfl⟩

instance (gpa : Nat) : KeepsRequests fun g => { g with serialConsoleGpa := gpa } :=
  ⟨fun _ => rfl, fun _ => rfl, fun _ => rfl⟩

instance (f : GuestState → List FeedbackBufferInfo) :
    KeepsRequests fun g => { g with feedbackBuffers := f g } :=
  ⟨fun _ => rfl, fun _ => rfl, fun _ => rfl⟩

instance (f : GuestState → DeviceStates) (delivered : Bool) :
    KeepsRequests fun g => { g with
      devices := f g
      ioChannel := { g.ioChannel with requestDelivered := delivered } } :=
  ⟨fun _ => rfl, fun _ => rfl, fun _ => rfl⟩

instance (f : GuestState → Nat → UInt8) :
    KeepsRequests fun g => { g with ioChannel := { g.ioChannel with responseBuf := f g } } :=
  ⟨fun _ => rfl, fun _ => rfl, fun _ => rfl⟩

instance (len : Nat) :
    KeepsRequests fun g => { g with ioChannel := { g.ioChannel with responseLen := len } } :=
  ⟨fun _ => rfl, fun _ => rfl, fun _ => rfl⟩

instance (gpa len : Nat) (delivered : Bool) :
    KeepsRequests fun g => { g with
      ioChannel := { g.ioChannel with
        pageGpa := gpa, requestDelivered := delivered, responseLen := len } } :=
  ⟨fun _ => rfl, fun _ => rfl, fun _ => rfl⟩

/-- A class of accesses to the context. -/
abbrev ActionClass := ∀ α : Type, (VmContext → α × VmContext) → Prop

/-- Accesses confined to what the guest can see. -/
inductive GuestAction : ActionClass
  | guest : GuestAction _ fun ctx => (ctx.state.guest, ctx)
  | modifyGuest (f : GuestState → GuestState) (h : KeepsRequests f) :
      GuestAction _ fun ctx => ((), ctx.setGuest (f ctx.state.guest))
  | clock : GuestAction _ fun ctx => (ctx.state.clock, ctx)
  | config : GuestAction _ fun ctx => (ctx.state.config, ctx)
  | machine : GuestAction _ fun ctx => (ctx.machine, ctx)
  | isForked : GuestAction _ fun ctx => (ctx.memory.isForked, ctx)
  | pebsRegistered : GuestAction _ fun ctx => (ctx.state.precise.pebsState.isSome, ctx)
  | readVmcs (field : VmcsField) :
      GuestAction _ fun ctx => (ctx.state.vmcs.fields.read field, ctx)
  | writeVmcs (field : VmcsField) (v : UInt64) :
      GuestAction _ fun ctx => ctx.writeVmcs field v
  | interruptWindow (on : Bool) :
      GuestAction _ fun ctx => ctx.setInterruptWindowExiting on
  | readMemory (gpa len : Nat) :
      GuestAction _ fun ctx => (ctx.memory.readGuestMemory gpa len, ctx)
  | writeMemory (gpa : Nat) (bytes : List UInt8) :
      GuestAction _ fun ctx => ctx.writeMemory gpa bytes
  | heapAlloc : GuestAction _ fun ctx => ctx.heapAlloc
  | emit (e : Emission) : GuestAction _ fun ctx => ((), e.run ctx)

/-- Accesses that only look: the guest's registers and memory. -/
inductive ReadAction : ActionClass
  | readVmcs (field : VmcsField) :
      ReadAction _ fun ctx => (ctx.state.vmcs.fields.read field, ctx)
  | readMemory (gpa len : Nat) :
      ReadAction _ fun ctx => (ctx.memory.readGuestMemory gpa len, ctx)

variable {α : Type} {ctx ctx' : VmContext} {ε : Type}

theorem ReadAction.state {f : VmContext → α × VmContext} (h : ReadAction α f)
    (ctx : VmContext) : (f ctx).2 = ctx := by
  cases h <;> rfl

theorem ReadAction.guestAction {f : VmContext → α × VmContext} (h : ReadAction α f) :
    GuestAction α f := by
  cases h with
  | readVmcs field => exact .readVmcs field
  | readMemory gpa len => exact .readMemory gpa len

/-- Accesses of exit handlers: those of `GuestAction`, and those whose outcome
depends on the page allocator or on which pages are already copied. -/
inductive HandlerAction : ActionClass
  | guest {α : Type} {f : VmContext → α × VmContext} (h : GuestAction α f) : HandlerAction α f
  | cowFault (gpa : Nat) : HandlerAction _ fun ctx => ctx.handleCowFault gpa
  | preCow : HandlerAction _ fun ctx => ((), ctx.preCowIoChannelPage)
  | installPebs (gpaPage : Nat) : HandlerAction _ fun ctx => ctx.installPebsPage gpaPage

/-- Accesses of hypercalls: two of them capture an exit record, one consumes an I/O
request. -/
inductive CaptureAction : ActionClass
  | handler {α : Type} {f : VmContext → α × VmContext} (h : HandlerAction α f) : CaptureAction α f
  | capture (p : CapturePoint) : CaptureAction _ fun ctx => ((), p.run ctx)
  | consume : CaptureAction _ fun ctx => ((), ctx.consumeIoRequest)

section Primitives

variable {ε : Type}

def getGuest : Program ε VmContext GuestState :=
  .act fun ctx => (ctx.state.guest, ctx)

def modifyGuest (f : GuestState → GuestState) : Program ε VmContext Unit :=
  .act fun ctx => ((), ctx.setGuest (f ctx.state.guest))

def getClock : Program ε VmContext Clock :=
  .act fun ctx => (ctx.state.clock, ctx)

def getConfig : Program ε VmContext RunConfig :=
  .act fun ctx => (ctx.state.config, ctx)

def getMachine : Program ε VmContext Machine :=
  .act fun ctx => (ctx.machine, ctx)

def isForked : Program ε VmContext Bool :=
  .act fun ctx => (ctx.memory.isForked, ctx)

def pebsRegistered : Program ε VmContext Bool :=
  .act fun ctx => (ctx.state.precise.pebsState.isSome, ctx)

def readVmcs (field : VmcsField) : Program ε VmContext (Except VmcsReadError UInt64) :=
  .act fun ctx => (ctx.state.vmcs.fields.read field, ctx)

def writeVmcs (field : VmcsField) (v : UInt64) :
    Program ε VmContext (Except VmcsWriteError Unit) :=
  .act fun ctx => ctx.writeVmcs field v

def setInterruptWindowExiting (on : Bool) : Program ε VmContext (Except ExitError Unit) :=
  .act fun ctx => ctx.setInterruptWindowExiting on

def readGuestMemory (gpa len : Nat) :
    Program ε VmContext (List UInt8 × Except MemoryError Unit) :=
  .act fun ctx => (ctx.memory.readGuestMemory gpa len, ctx)

def writeGuestMemory (gpa : Nat) (bytes : List UInt8) :
    Program ε VmContext (Except MemoryError Unit) :=
  .act fun ctx => ctx.writeMemory gpa bytes

def heapAlloc : Program ε VmContext Bool :=
  .act fun ctx => ctx.heapAlloc

def handleCowFault (gpa : Nat) : Program ε VmContext (Option ExitHandlerResult) :=
  .act fun ctx => ctx.handleCowFault gpa

def preCowIoChannelPage : Program ε VmContext Unit :=
  .act fun ctx => ((), ctx.preCowIoChannelPage)

def installPebsPage (gpaPage : Nat) : Program ε VmContext RegisterPebsPageResult :=
  .act fun ctx => ctx.installPebsPage gpaPage

def emit (e : Emission) : Program ε VmContext Unit :=
  .act fun ctx => ((), e.run ctx)

def capture (p : CapturePoint) : Program ε VmContext Unit :=
  .act fun ctx => ((), p.run ctx)

def consumeIoRequest : Program ε VmContext Unit :=
  .act fun ctx => ((), ctx.consumeIoRequest)

instance (field : VmcsField) :
    Built ReadAction (readVmcs field : Program ε VmContext _) := .act (.readVmcs field)

instance (gpa len : Nat) : Built ReadAction (readGuestMemory gpa len : Program ε VmContext _) :=
  .act (.readMemory gpa len)

theorem readOnly_state {m : Program ε VmContext α} (h : Built ReadAction m)
    (ctx : VmContext) : (m ctx).2 = ctx :=
  h.rel (R := fun before after => after = before) (fun _ => rfl) (fun hab hbc => hbc.trans hab)
    (fun _ hf => hf.state) ctx

/-- What is built from guest actions is built from handler actions. -/
instance (priority := low) {α : Type} {m : Program ε VmContext α} [h : Built GuestAction m] :
    Built HandlerAction m :=
  h.mono fun _ hf => .guest hf

instance (priority := low) {α : Type} {m : Program ε VmContext α} [h : Built HandlerAction m] :
    Built CaptureAction m :=
  h.mono fun _ hf => .handler hf

end Primitives

/-! ## Checked accesses -/

/-- `Result::map_err` followed by `?`. -/
def check {ε δ α : Type} (h : δ → ε) : Except δ α → Program ε VmContext α
  | .ok a => pure a
  | .error e => .exit (h e)

theorem check_eq_ok_iff {δ : Type} {h : δ → ε} {r : Except δ α} {a : α}
    : check h r ctx = (.ok a, ctx') ↔ r = .ok a ∧ ctx' = ctx := by
  cases r with
  | error e =>
    constructor
    · intro h
      cases h
    · rintro ⟨h, -⟩
      cases h
  | ok b =>
    constructor
    · intro h
      cases h
      exact ⟨rfl, rfl⟩
    · rintro ⟨h, rfl⟩
      cases h
      rfl

def readField (field : VmcsField) : Fallible UInt64 := do
  check .vmcsReadError (← readVmcs field)

theorem readField_apply (field : VmcsField) (ctx : VmContext) :
    readField field ctx = ((ctx.state.vmcs.fields.read field).mapError .vmcsReadError, ctx) := by
  unfold readField readVmcs
  rw [act_bind]
  cases ctx.state.vmcs.fields.read field <;> rfl

theorem readField_eq_ok_iff {field : VmcsField} {v : UInt64} :
    readField field ctx = (.ok v, ctx') ↔
      ctx.state.vmcs.fields.read field = .ok v ∧ ctx' = ctx := by
  unfold readField readVmcs
  rw [act_bind, check_eq_ok_iff]

theorem checkedWrite_apply {β : Type} (h : VmcsWriteError → ε) (field : VmcsField) (v : UInt64)
    (k : Unit → Program ε VmContext β) (ctx : VmContext) :
    (writeVmcs field v >>= fun r => check h r >>= k) ctx =
      match (ctx.writeVmcs field v).1 with
      | .ok u => k u (ctx.writeVmcs field v).2
      | .error e => (.error (h e), (ctx.writeVmcs field v).2) := by
  unfold writeVmcs
  rw [act_bind]
  cases (ctx.writeVmcs field v).1 <;> rfl

theorem checkedWrite_bind {β : Type} {h : VmcsWriteError → ε} {field : VmcsField} {v : UInt64}
    {k : Unit → Program ε VmContext β} {b : β}
    (hrun : (writeVmcs field v >>= fun r => check h r >>= k) ctx = (.ok b, ctx')) :
    k () (ctx.setField field v) = (.ok b, ctx') := by
  unfold writeVmcs at hrun
  rw [act_bind, bind_eq_ok_iff] at hrun
  obtain ⟨_, ctx₁, hcheck, hrest⟩ := hrun
  obtain ⟨hok, rfl⟩ := check_eq_ok_iff.mp hcheck
  have hfields := VmcsTable.write_eq_ok hok
  simp only [VmContext.writeVmcs, hfields] at hrest
  exact hrest

def readField32 (field : VmcsField) : Fallible UInt32 := do
  let v ← readField field
  pure v.toUInt32

def readFieldOrZero {ε : Type} (field : VmcsField) : Program ε VmContext UInt64 := do
  let v ← readVmcs field
  pure (v.toOption.getD 0)

theorem readFieldOrZero_apply (field : VmcsField) (ctx : VmContext) :
    (readFieldOrZero field ctx : Except ε UInt64 × VmContext) =
      (.ok (ctx.state.vmcs.fields.readOrZero field), ctx) := by
  unfold readFieldOrZero readVmcs VmcsTable.readOrZero
  rw [act_bind]
  cases ctx.state.vmcs.fields.read field <;> rfl

def writeFieldOr (message : String) (field : VmcsField) (v : UInt64) : Fallible Unit := do
  check (fun _ => .fatal message) (← writeVmcs field v)

/-- `enable_interrupt_window_exiting` -/
def enableInterruptWindowExiting : Fallible Unit := do
  check id (← setInterruptWindowExiting true)

/-- `disable_interrupt_window_exiting` -/
def disableInterruptWindowExiting : Fallible Unit := do
  check id (← setInterruptWindowExiting false)

section Checked

variable {A : ActionClass}

instance {ε δ α : Type} (h : δ → ε) (r : Except δ α) : Built A (check h r) := by
  cases r
  · exact .exit _
  · exact .pure _

instance {α : Type} {m : Fallible α} [h : Built A m] : Built A (orError m) :=
  .mapExit _ h

end Checked

end Bedrock
