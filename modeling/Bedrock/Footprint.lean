import Bedrock.Context

/-!
# What an access leaves alone

Emitting an event touches the event stream, a page copy touches memory and its mapping.
Neither reaches the guest's registers, its devices or its VMCS fields.  A few parts of
those are touched by few handlers; `Framed` singles out the actions that leave such a
part alone, so that a handler is shown to leave it alone by composing its actions.
-/

namespace Bedrock

open Support VmContext

/-! ## Emission -/

/-- `after` differs from `before` in the event stream, the capture bookkeeping, the
diagnostics of the last precise exit and the host-TSC reads used up. -/
def EventsOnly (before after : VmContext) : Prop :=
  ∃ events capture precise rdtsc, precise.pebsState = before.state.precise.pebsState ∧
    precise.mtfEnabled = before.state.precise.mtfEnabled ∧
    after = { before with
      state := { before.state with events, capture, precise }
      host := { before.host with rdtsc } }

variable (ctx : VmContext)

namespace EventsOnly

theorem refl : EventsOnly ctx ctx :=
  ⟨_, _, _, _, rfl, rfl, rfl⟩

theorem trans {a b c : VmContext} (hab : EventsOnly a b) (hbc : EventsOnly b c) :
    EventsOnly a c := by
  obtain ⟨_, _, precise, _, hpebs, hmtf, rfl⟩ := hab
  obtain ⟨_, _, _, _, hpebs', hmtf', rfl⟩ := hbc
  exact ⟨_, _, _, _, hpebs'.trans hpebs, hmtf'.trans hmtf, rfl⟩

theorem guest {before after : VmContext} (h : EventsOnly before after) :
    after.state.guest = before.state.guest := by
  obtain ⟨_, _, _, _, _, _, rfl⟩ := h
  rfl

theorem memory {before after : VmContext} (h : EventsOnly before after) :
    after.memory = before.memory := by
  obtain ⟨_, _, _, _, _, _, rfl⟩ := h
  rfl

end EventsOnly

namespace VmContext

theorem emitEvent_events (kind : EventKind) (flags : UInt16)
    (payload : List UInt8) : EventsOnly ctx (ctx.emitEvent kind flags payload) := by
  rw [emitEvent]
  split
  · exact .refl ctx
  · exact ⟨_, _, _, _, rfl, rfl, rfl⟩

theorem eventSerialByte_events (byte : UInt8) : EventsOnly ctx (ctx.eventSerialByte byte) := by
  rw [eventSerialByte]
  split
  · exact .refl ctx
  · split
    all_goals exact ⟨_, _, _, _, rfl, rfl, rfl⟩

theorem writeExitRecord_events (reason : ExitReason) (qual : UInt64)
    (flags : UInt32) : EventsOnly ctx (ctx.writeExitRecord reason qual flags) := by
  rw [writeExitRecord]
  split
  · exact .refl ctx
  refine ⟨_, _, _, _, ?_, ?_, rfl⟩
  · rfl
  · rfl

theorem setCapture_events (capture : CaptureConfig) : EventsOnly ctx (ctx.setCapture capture) :=
  ⟨_, _, _, _, rfl, rfl, rfl⟩

end VmContext

/-- A relation that holds across the writing of an exit record and across the bookkeeping
of captures. -/
structure CaptureFrame (R : VmContext → VmContext → Prop) : Prop where
  refl : ∀ ctx, R ctx ctx
  trans : ∀ {a b c}, R a b → R b c → R a c
  record : ∀ ctx reason qual flags, R ctx (ctx.writeExitRecord reason qual flags)
  bookkeeping : ∀ ctx capture, R ctx (ctx.setCapture capture)

namespace CaptureFrame

variable {R : VmContext → VmContext → Prop} (h : CaptureFrame R) (ctx : VmContext)
include h

theorem captureExit (reason : ExitReason) (qual : UInt64) (deterministic : Bool) :
    R ctx (ctx.captureExit reason qual deterministic) := by
  rw [VmContext.captureExit]
  split
  · exact h.refl ctx
  split
  · exact h.refl ctx
  · exact h.refl ctx
  · split
    · exact h.refl ctx
    split
    · exact h.refl ctx
    split
    · exact h.trans (h.bookkeeping ctx _) (h.record _ _ _ _)
    · exact h.refl ctx
  · split
    · exact h.refl ctx
    split
    · exact h.refl ctx
    · exact h.trans (h.record ctx _ _ _) (h.bookkeeping _ _)
  · exact h.record ctx _ _ _
  · split
    · exact h.refl ctx
    split
    · exact h.refl ctx
    · exact h.record ctx _ _ _

theorem captureExitAtShutdown : R ctx ctx.captureExitAtShutdown := by
  rw [VmContext.captureExitAtShutdown]
  split
  · exact h.refl ctx
  split
  · exact h.refl ctx
  · exact h.trans (h.record ctx _ _ _) (h.bookkeeping _ _)

theorem captureExitAtSnapshot : R ctx ctx.captureExitAtSnapshot := by
  rw [VmContext.captureExitAtSnapshot]
  split
  · exact h.refl ctx
  split
  · exact h.refl ctx
  · exact h.record ctx _ _ _

theorem run (c : CapturePoint) : R ctx (c.run ctx) := by
  cases c with
  | shutdown => exact h.captureExitAtShutdown ctx
  | snapshot => exact h.captureExitAtSnapshot ctx

end CaptureFrame

theorem EventsOnly.captureFrame : CaptureFrame EventsOnly :=
  ⟨.refl, .trans, writeExitRecord_events, setCapture_events⟩

namespace VmContext

theorem captureExit_events (reason : ExitReason) (qual : UInt64)
    (deterministic : Bool) : EventsOnly ctx (ctx.captureExit reason qual deterministic) :=
  EventsOnly.captureFrame.captureExit ctx reason qual deterministic

theorem captureExitAtShutdown_events : EventsOnly ctx ctx.captureExitAtShutdown :=
  EventsOnly.captureFrame.captureExitAtShutdown ctx

theorem finalizeExitRecord_events : EventsOnly ctx ctx.finalizeExitRecord := by
  rw [finalizeExitRecord]
  split
  · exact .refl ctx
  · exact ⟨_, _, _, _, rfl, rfl, rfl⟩

end VmContext

def Emission.kind : Emission → EventKind
  | append kind _ _ => kind
  | serialByte _ => .serial
  | flushSerialLine => .serial
  | ioChannel _ _ => .ioChannel

theorem Emission.run_events (e : Emission) : EventsOnly ctx (e.run ctx) := by
  cases e with
  | append kind payload _ => exact ctx.emitEvent_events _ _ _
  | serialByte byte => exact ctx.eventSerialByte_events byte
  | flushSerialLine => exact ⟨_, _, _, _, rfl, rfl, rfl⟩
  | ioChannel phase targetTsc =>
    cases phase
    all_goals exact ctx.emitEvent_events _ _ _

theorem CapturePoint.run_events (c : CapturePoint) : EventsOnly ctx (c.run ctx) :=
  EventsOnly.captureFrame.run ctx c

/-- `after` differs from `before` in guest memory, its mapping and the host inputs used
up. -/
def MemoryOnly (before after : VmContext) : Prop :=
  ∃ ept memory host, after = { before with state := { before.state with ept }, memory, host }

namespace MemoryOnly

theorem refl : MemoryOnly ctx ctx :=
  ⟨_, _, _, rfl⟩

theorem trans {a b c : VmContext} (hab : MemoryOnly a b) (hbc : MemoryOnly b c) :
    MemoryOnly a c := by
  obtain ⟨_, _, _, rfl⟩ := hab
  obtain ⟨_, _, _, rfl⟩ := hbc
  exact ⟨_, _, _, rfl⟩

end MemoryOnly

namespace VmContext

theorem copyPage_memory (cow : CowPageMap) (parent : VmMemory) (g : Nat) :
    MemoryOnly ctx (ctx.copyPage cow parent g).2 := by
  have halloc : MemoryOnly ctx ctx.allocateCowPage.2 := ⟨_, _, _, rfl⟩
  rcases ctx.copyPage_cases cow parent g with
    ⟨heq, -⟩ | ⟨_, _, -, -, -, ⟨-, heq⟩ | ⟨_, -, -, heq⟩⟩
  · rw [heq]
    exact halloc
  all_goals
    rw [heq]
    exact halloc.trans ⟨_, _, _, rfl⟩

theorem handleCowFault_memory (gpa : Nat) : MemoryOnly ctx (ctx.handleCowFault gpa).2 := by
  rw [handleCowFault]
  split
  · exact .refl ctx
  rename_i cow parent _
  split
  · exact .refl ctx
  have hcopy := ctx.copyPage_memory cow parent (pageBase gpa)
  split
  all_goals
    rename_i heq
    rw [heq] at hcopy
    exact hcopy

theorem preCowIoChannelPage_memory : MemoryOnly ctx ctx.preCowIoChannelPage := by
  rw [preCowIoChannelPage]
  split
  · exact .refl ctx
  dsimp only
  split
  · exact .refl ctx
  split
  · exact .refl ctx
  · exact ctx.copyPage_memory _ _ _

end VmContext

/-- Neither the guest state nor the VMCS fields of the guest are touched. -/
structure GuestUntouched (before after : VmContext) : Prop where
  guest : after.state.guest = before.state.guest
  fields : after.state.vmcs.fields = before.state.vmcs.fields

theorem GuestUntouched.refl : GuestUntouched ctx ctx :=
  ⟨rfl, rfl⟩

theorem GuestUntouched.trans {a b c : VmContext} (hab : GuestUntouched a b)
    (hbc : GuestUntouched b c) : GuestUntouched a c :=
  ⟨hbc.guest.trans hab.guest, hbc.fields.trans hab.fields⟩

variable {before after : VmContext}

theorem EventsOnly.untouched (h : EventsOnly before after) : GuestUntouched before after := by
  obtain ⟨_, _, _, _, _, _, rfl⟩ := h
  exact ⟨rfl, rfl⟩

theorem MemoryOnly.untouched (h : MemoryOnly before after) : GuestUntouched before after := by
  obtain ⟨_, _, _, rfl⟩ := h
  exact ⟨rfl, rfl⟩

namespace VmContext

theorem setInterruptWindowExiting_untouched (on : Bool) :
    GuestUntouched ctx (ctx.setInterruptWindowExiting on).2 := by
  unfold setInterruptWindowExiting
  split
  · exact .refl ctx
  split
  · exact .refl ctx
  have hwrite : ∀ v, GuestUntouched ctx (ctx.writeControl .primaryProcBasedVmExecControls v).2 :=
    fun _ => ⟨rfl, rfl⟩
  dsimp only
  split
  all_goals
    rename_i heq
    exact congrArg Prod.snd heq ▸ hwrite _

theorem installPebsPage_untouched (g : Nat) : GuestUntouched ctx (ctx.installPebsPage g).2 := by
  unfold installPebsPage
  dsimp only
  split
  · exact .refl ctx
  split
  · exact ⟨rfl, rfl⟩
  split
  · exact ⟨rfl, rfl⟩
  split
  all_goals exact ⟨rfl, rfl⟩

theorem handlePebsPreciseExit_untouched : GuestUntouched ctx ctx.handlePebsPreciseExit := by
  unfold handlePebsPreciseExit
  dsimp only
  split
  · exact .refl ctx
  · exact ⟨rfl, rfl⟩

theorem armForNextIteration_untouched : GuestUntouched ctx ctx.armForNextIteration := by
  unfold armForNextIteration
  split
  · exact .refl ctx
  · exact ⟨rfl, rfl⟩

end VmContext

/-! ## Parts that few handlers touch -/

inductive Part
  | nothing | stackPointer | xcr0 | random | response | signal | requested
  deriving DecidableEq, Repr

namespace Part

def Value : Part → Type
  | nothing => Unit
  | stackPointer => UInt64 × UInt64
  | xcr0 => UInt64
  | random => RandomState
  | response => Nat × (Nat → UInt8)
  | signal => Bool
  | requested => Vector UInt32 8

/-- The stack pointer counts in both places where it is kept; the signal says whether the
guest was told of the request in flight; requested are the interrupts in the IRR. -/
def get : (p : Part) → VmContext → p.Value
  | nothing, _ => ()
  | stackPointer, ctx => (ctx.state.guest.gprs.rsp, ctx.state.vmcs.fields.value .guestRsp)
  | xcr0, ctx => ctx.state.guest.xcr0Mask
  | random, ctx => ctx.state.guest.devices.random
  | response, ctx => (ctx.state.guest.ioChannel.responseLen, ctx.state.guest.ioChannel.responseBuf)
  | signal, ctx => ctx.state.guest.ioChannel.requestDelivered
  | requested, ctx => ctx.state.guest.devices.apic.irr

theorem get_of_untouched (p : Part) (h : GuestUntouched before after) :
    p.get after = p.get before := by
  cases p with
  | nothing => rfl
  | stackPointer =>
    exact Prod.ext (congrArg (fun g => g.gprs.rsp) h.guest)
      (congrArg (fun fields => fields.value .guestRsp) h.fields)
  | xcr0 => exact congrArg GuestState.xcr0Mask h.guest
  | random => exact congrArg (fun g => g.devices.random) h.guest
  | response =>
    exact congrArg (fun g => (g.ioChannel.responseLen, g.ioChannel.responseBuf)) h.guest
  | signal => exact congrArg (fun g => g.ioChannel.requestDelivered) h.guest
  | requested => exact congrArg (fun g => g.devices.apic.irr) h.guest

/-- Two different parts, so that what touches `q` need not touch `p`. -/
class Other (p q : Part) : Prop where
  ne : p ≠ q

instance : Other nothing stackPointer := ⟨by decide⟩

instance : Other nothing xcr0 := ⟨by decide⟩

instance : Other nothing random := ⟨by decide⟩

instance : Other nothing response := ⟨by decide⟩

instance : Other nothing signal := ⟨by decide⟩

instance : Other stackPointer signal := ⟨by decide⟩

instance : Other xcr0 signal := ⟨by decide⟩

instance : Other random signal := ⟨by decide⟩

instance : Other response signal := ⟨by decide⟩

instance : Other nothing requested := ⟨by decide⟩

instance : Other stackPointer requested := ⟨by decide⟩

instance : Other xcr0 requested := ⟨by decide⟩

instance : Other random requested := ⟨by decide⟩

instance : Other response requested := ⟨by decide⟩

instance : Other signal requested := ⟨by decide⟩

/-- The update does not touch the part. -/
class Leaves (p : Part) (f : GuestState → GuestState) : Prop where
  get : ∀ ctx : VmContext, p.get (ctx.setGuest (f ctx.state.guest)) = p.get ctx

/-- The update of the registers does not move the stack pointer, if that is the part. -/
class LeavesGprs (p : Part) (f : GeneralPurposeRegisters → GeneralPurposeRegisters) : Prop where
  rsp : p = stackPointer → ∀ gprs, (f gprs).rsp = gprs.rsp

/-- The update of the devices does not touch the random device or the IRR, if that is the
part. -/
class LeavesDevices (p : Part) (f : DeviceStates → DeviceStates) : Prop where
  random : p = random → ∀ dev, (f dev).random = dev.random
  irr : p = requested → ∀ dev, (f dev).apic.irr = dev.apic.irr

/-- The field does not hold the part. -/
class LeavesField (p : Part) (field : VmcsField) : Prop where
  ne : p = stackPointer → field ≠ .guestRsp

variable {p : Part}

theorem LeavesField.get_writeVmcs {field : VmcsField} (h : p.LeavesField field) (ctx : VmContext)
    (v : UInt64) : p.get (ctx.writeVmcs field v).2 = p.get ctx := by
  cases p with
  | stackPointer =>
    exact Prod.ext rfl (ctx.state.vmcs.fields.write_value_of_ne v (Ne.symm (h.ne rfl)))
  | _ => rfl

instance (f : GeneralPurposeRegisters → GeneralPurposeRegisters) [h : p.LeavesGprs f] :
    p.Leaves fun g => { g with gprs := f g.gprs } where
  get ctx := by
    cases p with
    | stackPointer => exact Prod.ext (h.rsp rfl _) rfl
    | _ => rfl

instance (f : DeviceStates → DeviceStates) [h : p.LeavesDevices f] :
    p.Leaves fun g => { g with devices := f g.devices } where
  get ctx := by
    cases p with
    | random => exact h.random rfl _
    | requested => exact h.irr rfl _
    | _ => rfl

instance [h : p.Other .xcr0] (v : UInt64) : p.Leaves fun g => { g with xcr0Mask := v } where
  get ctx := by
    cases p with
    | xcr0 => exact absurd rfl h.ne
    | _ => rfl

instance (v : UInt64) : p.Leaves fun g => { g with guestCr2 := v } where
  get ctx := by cases p <;> rfl

instance (gpa : Nat) : p.Leaves fun g => { g with serialConsoleGpa := gpa } where
  get ctx := by cases p <;> rfl

instance (f : GuestState → List FeedbackBufferInfo) :
    p.Leaves fun g => { g with feedbackBuffers := f g } where
  get ctx := by cases p <;> rfl

instance [h : p.Other .requested] (f : GuestState → ApicState) :
    p.Leaves fun g => { g with devices := { g.devices with apic := f g } } where
  get ctx := by
    cases p with
    | requested => exact absurd rfl h.ne
    | _ => rfl

instance [h : p.Other .response] (f : GuestState → Nat → UInt8) :
    p.Leaves fun g => { g with ioChannel := { g.ioChannel with responseBuf := f g } } where
  get ctx := by
    cases p with
    | response => exact absurd rfl h.ne
    | _ => rfl

instance [h : p.Other .response] (len : Nat) :
    p.Leaves fun g => { g with ioChannel := { g.ioChannel with responseLen := len } } where
  get ctx := by
    cases p with
    | response => exact absurd rfl h.ne
    | _ => rfl

instance [h : p.Other .response] [hs : p.Other .signal] (gpa len : Nat) (delivered : Bool) :
    p.Leaves fun g => { g with
      ioChannel := { g.ioChannel with
        pageGpa := gpa, requestDelivered := delivered, responseLen := len } } where
  get ctx := by
    cases p with
    | response => exact absurd rfl h.ne
    | signal => exact absurd rfl hs.ne
    | _ => rfl

/-- Results go to RAX, RBX, RCX and RDX. -/
instance (a b c d : GeneralPurposeRegisters → UInt64) :
    p.LeavesGprs fun gprs => { gprs with rax := a gprs, rbx := b gprs, rcx := c gprs, rdx := d gprs } :=
  ⟨fun _ _ => rfl⟩

theorem setGprValue_rsp_of_ne (gprs : GeneralPurposeRegisters) {index : Nat} (v : UInt64)
    (h : index ≠ 4) : (setGprValue gprs index v).rsp = gprs.rsp := by
  unfold setGprValue
  split
  all_goals first | rfl | contradiction

instance [h : p.Other .stackPointer] (f : GeneralPurposeRegisters → GeneralPurposeRegisters) :
    p.LeavesGprs f :=
  ⟨fun hp _ => absurd hp h.ne⟩

/-- The guest cannot write the IRR. -/
instance (offset : DeviceStates → Nat) (v : UInt32) (tsc : Nat) : p.LeavesDevices fun dev =>
    { dev with apic := dev.apic.writeRegister (offset dev) v tsc } where
  random _ _ := rfl
  irr _ dev := dev.apic.writeRegister_irr (offset dev) v tsc

instance [h : p.Other .random] (f : DeviceStates → RandomState) :
    p.LeavesDevices fun dev => { dev with random := f dev } where
  random hp _ := absurd hp h.ne
  irr _ _ := rfl

theorem ioapicDeliverIrq_random (dev : DeviceStates) (irq : Nat) :
    (dev.ioapicDeliverIrq irq).random = dev.random := by
  unfold DeviceStates.ioapicDeliverIrq
  split
  · rfl
  · dsimp only
    split <;> rfl

instance [h : p.Other .signal] [hr : p.Other .requested] (irq : Nat) (delivered : Bool) :
    p.Leaves fun g => { g with
      devices := g.devices.ioapicDeliverIrq irq
      ioChannel := { g.ioChannel with requestDelivered := delivered } } where
  get ctx := by
    cases p with
    | signal => exact absurd rfl h.ne
    | requested => exact absurd rfl hr.ne
    | random => exact ioapicDeliverIrq_random _ irq
    | _ => rfl

end Part

/-- The actions of `A` that leave `p` alone. -/
def Framed (p : Part) (A : ActionClass) (α : Type)
    (f : VmContext → α × VmContext) : Prop :=
  A α f ∧ ∀ ctx, p.get (f ctx).2 = p.get ctx

/-- A program made of such actions leaves the part alone. -/
theorem Framed.get {p : Part} {A : ActionClass} {ε α : Type}
    {m : Program ε VmContext α} (h : Built (Framed p A) m) (ctx : VmContext) :
    p.get (m ctx).2 = p.get ctx :=
  h.rel (R := fun before after => p.get after = p.get before) (fun _ => rfl)
    (fun hab hbc => hbc.trans hab) (fun _ hf => hf.2) ctx

/-! ## Classes that contain an access

A handler is built from every class that contains the accesses it makes.  Most of them
leave the event stream alone; emissions, captures and the consumption of a request are
listed one by one. -/

/-- The class contains the actions of `A` that leave the event stream alone. -/
class Covers (G A : ActionClass) : Prop where
  mem : ∀ {α : Type} {f : VmContext → α × VmContext}, A α f →
    (∀ ctx, (f ctx).2.state.events = ctx.state.events) → G α f

/-- It contains the emissions of events of a kind. -/
class Emits (G : ActionClass) (kind : EventKind) : Prop where
  mem : ∀ e : Emission, e.kind = kind → G Unit fun ctx => ((), e.run ctx)

/-- It contains the captures of exit records in handlers. -/
class Captures (G : ActionClass) : Prop where
  mem : ∀ c : CapturePoint, G Unit fun ctx => ((), c.run ctx)

/-- It contains the consumption of an I/O request. -/
class Consumes (G : ActionClass) : Prop where
  mem : G Unit fun ctx => ((), ctx.consumeIoRequest)

instance (A : ActionClass) : Covers A A :=
  ⟨fun h _ => h⟩

instance (priority := low) {G : ActionClass} [h : Covers G HandlerAction] : Covers G GuestAction :=
  ⟨fun hf => h.mem (.guest hf)⟩

instance : Covers CaptureAction HandlerAction :=
  ⟨fun h _ => .handler h⟩

instance (kind : EventKind) : Emits GuestAction kind :=
  ⟨fun e _ => .emit e⟩

instance (kind : EventKind) : Emits HandlerAction kind :=
  ⟨fun e _ => .guest (.emit e)⟩

instance (kind : EventKind) : Emits CaptureAction kind :=
  ⟨fun e _ => .handler (.guest (.emit e))⟩

instance : Captures CaptureAction :=
  ⟨.capture⟩

instance : Consumes CaptureAction :=
  ⟨.consume⟩

theorem VmContext.setInterruptWindowExiting_events (on : Bool) :
    (ctx.setInterruptWindowExiting on).2.state.events = ctx.state.events := by
  unfold setInterruptWindowExiting
  split
  · rfl
  split
  · rfl
  dsimp only
  split
  all_goals
    rename_i heq
    exact congrArg (fun r => r.2.state.events) heq.symm

theorem MemoryOnly.events (h : MemoryOnly before after) :
    after.state.events = before.state.events := by
  obtain ⟨_, _, _, rfl⟩ := h
  rfl

theorem VmContext.installPebsPage_events (g : Nat) :
    (ctx.installPebsPage g).2.state.events = ctx.state.events := by
  unfold installPebsPage
  dsimp only
  split
  · rfl
  split
  · rfl
  split
  · rfl
  split
  · rfl
  · rfl

section Primitives

variable {ε : Type} (p : Part) {G : ActionClass}

section Guest

variable [hG : Covers G GuestAction]

instance : Built (Framed p G) (getGuest : Program ε VmContext _) :=
  .act ⟨hG.mem .guest fun _ => rfl, fun _ => rfl⟩

instance (f : GuestState → GuestState) [h : KeepsRequests f] [hp : p.Leaves f] :
    Built (Framed p G) (modifyGuest f : Program ε VmContext _) :=
  .act ⟨hG.mem (.modifyGuest f h) fun _ => rfl, hp.get⟩

instance : Built (Framed p G) (getClock : Program ε VmContext _) :=
  .act ⟨hG.mem .clock fun _ => rfl, fun _ => rfl⟩

instance : Built (Framed p G) (getConfig : Program ε VmContext _) :=
  .act ⟨hG.mem .config fun _ => rfl, fun _ => rfl⟩

instance : Built (Framed p G) (getMachine : Program ε VmContext _) :=
  .act ⟨hG.mem .machine fun _ => rfl, fun _ => rfl⟩

instance : Built (Framed p G) (isForked : Program ε VmContext _) :=
  .act ⟨hG.mem .isForked fun _ => rfl, fun _ => rfl⟩

instance : Built (Framed p G) (pebsRegistered : Program ε VmContext _) :=
  .act ⟨hG.mem .pebsRegistered fun _ => rfl, fun _ => rfl⟩

instance (field : VmcsField) : Built (Framed p G) (readVmcs field : Program ε VmContext _) :=
  .act ⟨hG.mem (.readVmcs field) fun _ => rfl, fun _ => rfl⟩

instance (field : VmcsField) [hp : p.LeavesField field] (v : UInt64) :
    Built (Framed p G) (writeVmcs field v : Program ε VmContext _) :=
  .act ⟨hG.mem (.writeVmcs field v) fun _ => rfl, fun ctx => hp.get_writeVmcs ctx v⟩

instance (on : Bool) : Built (Framed p G) (setInterruptWindowExiting on : Program ε VmContext _) :=
  .act ⟨hG.mem (.interruptWindow on) fun ctx => ctx.setInterruptWindowExiting_events on,
    fun ctx => p.get_of_untouched (ctx.setInterruptWindowExiting_untouched on)⟩

instance (gpa len : Nat) : Built (Framed p G) (readGuestMemory gpa len : Program ε VmContext _) :=
  .act ⟨hG.mem (.readMemory gpa len) fun _ => rfl, fun _ => rfl⟩

instance (gpa : Nat) (bytes : List UInt8) :
    Built (Framed p G) (writeGuestMemory gpa bytes : Program ε VmContext _) :=
  .act ⟨hG.mem (.writeMemory gpa bytes) fun _ => rfl, fun _ => p.get_of_untouched ⟨rfl, rfl⟩⟩

instance : Built (Framed p G) (heapAlloc : Program ε VmContext _) :=
  .act ⟨hG.mem .heapAlloc fun _ => rfl, fun _ => p.get_of_untouched ⟨rfl, rfl⟩⟩

end Guest

section Handler

variable [hG : Covers G HandlerAction]

instance (gpa : Nat) : Built (Framed p G) (handleCowFault gpa : Program ε VmContext _) :=
  .act ⟨hG.mem (.cowFault gpa) fun ctx => (ctx.handleCowFault_memory gpa).events,
    fun ctx => p.get_of_untouched (ctx.handleCowFault_memory gpa).untouched⟩

instance : Built (Framed p G) (preCowIoChannelPage : Program ε VmContext _) :=
  .act ⟨hG.mem .preCow fun ctx => ctx.preCowIoChannelPage_memory.events,
    fun ctx => p.get_of_untouched ctx.preCowIoChannelPage_memory.untouched⟩

instance (gpaPage : Nat) : Built (Framed p G) (installPebsPage gpaPage : Program ε VmContext _) :=
  .act ⟨hG.mem (.installPebs gpaPage) fun ctx => ctx.installPebsPage_events gpaPage,
    fun ctx => p.get_of_untouched (ctx.installPebsPage_untouched gpaPage)⟩

end Handler

/-- Emissions leave every part alone. -/
theorem Framed.emit {e : Emission} (h : Emits G e.kind) :
    Built (Framed p G) (emit e : Program ε VmContext _) :=
  .act ⟨h.mem e rfl, fun ctx => p.get_of_untouched (e.run_events ctx).untouched⟩

instance (kind : EventKind) (payload : List UInt8) (hkind : kind ≠ .exit) [h : Emits G kind] :
    Built (Framed p G) (emit (.append kind payload hkind) : Program ε VmContext _) :=
  Framed.emit p h

instance (byte : UInt8) [h : Emits G .serial] :
    Built (Framed p G) (emit (.serialByte byte) : Program ε VmContext _) :=
  Framed.emit p h

instance [h : Emits G .serial] :
    Built (Framed p G) (emit .flushSerialLine : Program ε VmContext _) :=
  Framed.emit p h

instance (phase : IoChannelPhase) (targetTsc : Nat) [h : Emits G .ioChannel] :
    Built (Framed p G) (emit (.ioChannel phase targetTsc) : Program ε VmContext _) :=
  Framed.emit p h

instance (c : CapturePoint) [h : Captures G] :
    Built (Framed p G) (capture c : Program ε VmContext _) :=
  .act ⟨h.mem c, fun ctx => p.get_of_untouched (c.run_events ctx).untouched⟩

instance [hp : p.Other .response] [hs : p.Other .signal] [h : Consumes G] :
    Built (Framed p G) (consumeIoRequest : Program ε VmContext _) := by
  refine .act ⟨h.mem, fun ctx => ?_⟩
  cases p with
  | response => exact absurd rfl hp.ne
  | signal => exact absurd rfl hs.ne
  | _ => rfl

end Primitives

section Inclusions

variable {ε α : Type} {m : Program ε VmContext α} {p : Part}

instance (priority := low) [h : Built (Framed .nothing GuestAction) m] : Built GuestAction m :=
  h.mono fun _ hf => hf.1

theorem Framed.of_readOnly {G : ActionClass}
    [hG : Covers G GuestAction] (h : Built ReadAction m) : Built (Framed p G) m :=
  h.mono fun _ hf => ⟨hG.mem hf.guestAction fun ctx => by rw [hf.state ctx],
    fun ctx => by rw [hf.state ctx]⟩

end Inclusions

section Checked

variable (p : Part) {G : ActionClass} [Covers G GuestAction]

instance (field : VmcsField) : Built (Framed p G) (readField field) := by
  unfold readField
  infer_instance

instance (field : VmcsField) : Built (Framed p G) (readField32 field) := by
  unfold readField32
  infer_instance

instance {ε : Type} (field : VmcsField) :
    Built (Framed p G) (readFieldOrZero field : Program ε VmContext UInt64) := by
  unfold readFieldOrZero
  infer_instance

instance (message : String) (field : VmcsField) [p.LeavesField field] (v : UInt64) :
    Built (Framed p G) (writeFieldOr message field v) := by
  unfold writeFieldOr
  infer_instance

instance : Built (Framed p G) enableInterruptWindowExiting := by
  unfold enableInterruptWindowExiting
  infer_instance

instance : Built (Framed p G) disableInterruptWindowExiting := by
  unfold disableInterruptWindowExiting
  infer_instance

/-! The fields that handlers write. -/

instance : p.LeavesField .guestRip := ⟨fun _ => by decide⟩

instance : p.LeavesField .guestRflags := ⟨fun _ => by decide⟩

instance : p.LeavesField .guestCr0 := ⟨fun _ => by decide⟩

instance : p.LeavesField .guestCr3 := ⟨fun _ => by decide⟩

instance : p.LeavesField .guestCr4 := ⟨fun _ => by decide⟩

instance : p.LeavesField .cr0ReadShadow := ⟨fun _ => by decide⟩

instance : p.LeavesField .cr4ReadShadow := ⟨fun _ => by decide⟩

instance : p.LeavesField .vmEntryInterruptionInfo := ⟨fun _ => by decide⟩

instance : p.LeavesField .vmEntryExceptionErrorCode := ⟨fun _ => by decide⟩

end Checked

end Bedrock
