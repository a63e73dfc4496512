import Bedrock.Frame
import Bedrock.Lab

/-!
# Requests in the I/O channel

QUEUE_IO_ACTION adds a request, GET_REQUEST copies the one in flight to the guest and
takes it out.  No other access of the run loop touches the requests, so an iteration
takes out what it delivers and nothing else.
-/

namespace Bedrock

open Support Program VmContext List

/-! ## The channel -/

namespace IoChannelState

/-- What QUEUE_IO_ACTION guarantees about the bytes in the channel. -/
structure Fits (chan : IoChannelState) : Prop where
  request : chan.request.length ≤ IO_CHANNEL_BUF_SIZE
  pending : ∀ a ∈ chan.pending, a.data.length ≤ IO_CHANNEL_BUF_SIZE

/-- The slot is free only if nothing waits behind it. -/
structure Ready (chan : IoChannelState) : Prop where
  slot : chan.request = [] → chan.pending = []
  pending : ∀ a ∈ chan.pending, a.data ≠ []

/-- The requests are the same in both. -/
structure SameRequests (chan chan' : IoChannelState) : Prop where
  request : chan'.request = chan.request
  requestTargetTsc : chan'.requestTargetTsc = chan.requestTargetTsc
  pending : chan'.pending = chan.pending

namespace SameRequests

variable {chan chan' chan'' : IoChannelState}

theorem refl (chan : IoChannelState) : SameRequests chan chan :=
  ⟨rfl, rfl, rfl⟩

theorem trans (h : SameRequests chan chan') (h' : SameRequests chan' chan'') :
    SameRequests chan chan'' :=
  ⟨h'.request.trans h.request, h'.requestTargetTsc.trans h.requestTargetTsc,
    h'.pending.trans h.pending⟩

theorem outstanding (h : SameRequests chan chan') : chan'.outstanding = chan.outstanding := by
  unfold IoChannelState.outstanding
  rw [h.request, h.requestTargetTsc, h.pending]

theorem fits (h : SameRequests chan chan') (hfits : chan.Fits) : chan'.Fits :=
  ⟨h.request ▸ hfits.request, h.pending ▸ hfits.pending⟩

theorem ready (h : SameRequests chan chan') (hready : chan.Ready) : chan'.Ready :=
  ⟨h.request ▸ h.pending ▸ hready.slot, h.pending ▸ hready.pending⟩

end SameRequests

variable {chan : IoChannelState}

theorem promoteNextPending_of_request (h : chan.request ≠ []) : chan.promoteNextPending = chan := by
  unfold promoteNextPending
  rw [if_pos h]

theorem promoteNextPending_cons {next : PendingIoAction} {rest : List PendingIoAction}
    (hrequest : chan.request = []) (hpending : chan.pending = next :: rest) :
    chan.promoteNextPending = { chan with
      pending := rest
      request := next.data.take IO_CHANNEL_BUF_SIZE
      requestTargetTsc := next.targetTsc
      requestDelivered := false
      responseLen := 0 } := by
  unfold promoteNextPending
  rw [if_neg (not_not.mpr hrequest), hpending]

theorem promoteNextPending_nil (hpending : chan.pending = []) : chan.promoteNextPending = chan := by
  unfold promoteNextPending
  rw [hpending]
  split <;> rfl

theorem promoteNextPending_outstanding (hfits : chan.Fits) :
    chan.promoteNextPending.outstanding = chan.outstanding := by
  by_cases hrequest : chan.request = []
  · cases hpending : chan.pending with
    | nil => rw [promoteNextPending_nil hpending]
    | cons next rest =>
      have htake : next.data.take IO_CHANNEL_BUF_SIZE = next.data :=
        take_of_length_le (hfits.pending next (by rw [hpending]; exact mem_cons_self))
      rw [promoteNextPending_cons hrequest hpending, htake]
      unfold outstanding
      rw [if_pos hrequest, hpending]
      by_cases hnext : next.data = []
      all_goals simp [hnext]
  · rw [promoteNextPending_of_request hrequest]

theorem promoteNextPending_fits (hfits : chan.Fits) : chan.promoteNextPending.Fits := by
  by_cases hrequest : chan.request = []
  · cases hpending : chan.pending with
    | nil => rwa [promoteNextPending_nil hpending]
    | cons next rest =>
      rw [promoteNextPending_cons hrequest hpending]
      exact ⟨length_take_le _ _, fun a ha =>
        hfits.pending a (by rw [hpending]; exact mem_cons_of_mem next ha)⟩
  · rwa [promoteNextPending_of_request hrequest]

theorem promoteNextPending_ready (h : ∀ a ∈ chan.pending, a.data ≠ []) :
    chan.promoteNextPending.Ready := by
  by_cases hrequest : chan.request = []
  · cases hpending : chan.pending with
    | nil =>
      rw [promoteNextPending_nil hpending]
      exact ⟨fun _ => hpending, h⟩
    | cons next rest =>
      rw [hpending] at h
      obtain ⟨hnext, hrest⟩ := forall_mem_cons.mp h
      rw [promoteNextPending_cons hrequest hpending]
      refine ⟨fun hempty => absurd hempty ?_, hrest⟩
      simpa [IO_CHANNEL_BUF_SIZE] using hnext
  · rw [promoteNextPending_of_request hrequest]
    exact ⟨fun hempty => absurd hempty hrequest, h⟩

theorem outstanding_of_request (hfits : chan.Fits) (hrequest : chan.request ≠ []) :
    chan.outstanding = ⟨chan.requestTargetTsc, chan.request⟩ :: chan.consumeRequest.outstanding := by
  have hrest : chan.consumeRequest.outstanding = chan.pending.filter (·.data ≠ []) :=
    promoteNextPending_outstanding ⟨Nat.zero_le _, hfits.pending⟩
  rw [hrest]
  unfold outstanding
  rw [if_neg hrequest]
  rfl

theorem consumeRequest_fits (hfits : chan.Fits) : chan.consumeRequest.Fits :=
  promoteNextPending_fits ⟨Nat.zero_le _, hfits.pending⟩

theorem consumeRequest_ready (hready : chan.Ready) : chan.consumeRequest.Ready :=
  promoteNextPending_ready hready.pending

/-- In a channel that is ready the slot is free exactly if nothing is outstanding. -/
theorem Ready.outstanding_eq_nil (hready : chan.Ready) (hrequest : chan.request = []) :
    chan.outstanding = [] := by
  unfold outstanding
  rw [if_pos hrequest, hready.slot hrequest]
  rfl

theorem enqueuePending_queued {action : PendingIoAction} {pushed : Bool} {chan' : IoChannelState}
    (h : chan.enqueuePending action pushed = (.queued, chan')) :
    chan.pending.length < PENDING_IO_QUEUE_CAP ∧
      chan' = { chan with pending := chan.pending ++ [action] } := by
  unfold enqueuePending at h
  split at h
  · cases h
  rename_i hroom
  split at h
  · cases h
    exact ⟨Nat.lt_of_not_le hroom, rfl⟩
  · cases h

end IoChannelState

open IoChannelState

def VmContext.accepted (ctx : VmContext) (action : PendingIoAction) (host : QueueHost) :
    List PendingIoAction :=
  if (ctx.handleQueueIoAction action host).1.isOk then [action] else []

def VmContext.outstanding (ctx : VmContext) : List PendingIoAction :=
  ctx.state.guest.ioChannel.outstanding

theorem VmContext.handleQueueIoAction_cases (ctx : VmContext) (action : PendingIoAction)
    (host : QueueHost) :
    (ctx.accepted action host = [] ∧ (ctx.handleQueueIoAction action host).2 = ctx) ∨
    (ctx.accepted action host = [action] ∧ action.data.length ≤ IO_CHANNEL_BUF_SIZE ∧
      ctx.state.guest.ioChannel.pending.length < PENDING_IO_QUEUE_CAP ∧
      (ctx.handleQueueIoAction action host).2.state.guest.ioChannel =
        { ctx.state.guest.ioChannel with
          pending := ctx.state.guest.ioChannel.pending ++ [action] }.promoteNextPending) := by
  unfold accepted handleQueueIoAction
  split
  · exact .inl ⟨rfl, rfl⟩
  split
  · exact .inl ⟨rfl, rfl⟩
  rename_i hlen
  split
  · exact .inl ⟨rfl, rfl⟩
  split
  · exact .inl ⟨rfl, rfl⟩
  split
  · exact .inl ⟨rfl, rfl⟩
  · exact .inl ⟨rfl, rfl⟩
  rename_i hqueued
  obtain ⟨hroom, rfl⟩ := enqueuePending_queued hqueued
  exact .inr ⟨rfl, Nat.le_of_not_lt hlen, hroom, rfl⟩

/-! ## What leaves the requests alone -/

def RequestsKept (before after : VmContext) : Prop :=
  SameRequests before.state.guest.ioChannel after.state.guest.ioChannel

theorem RequestsKept.of_guest {before after : VmContext}
    (h : after.state.guest = before.state.guest) : RequestsKept before after := by
  unfold RequestsKept
  rw [h]
  exact .refl _

variable {α : Type} {ctx : VmContext}

theorem GuestAction.requests {f : VmContext → α × VmContext} (h : GuestAction α f)
    (ctx : VmContext) : RequestsKept ctx (f ctx).2 := by
  cases h with
  | modifyGuest f h => exact ⟨h.request _, h.requestTargetTsc _, h.pending _⟩
  | interruptWindow on => exact .of_guest (ctx.setInterruptWindowExiting_untouched on).guest
  | emit e => exact .of_guest (e.run_events ctx).guest
  | _ => exact .of_guest rfl

/-- Accesses other than the one that takes a request out. -/
inductive KeepingAction : ActionClass
  | dispatch {α : Type} {f : VmContext → α × VmContext} (h : DispatchAction α f) : KeepingAction α f
  | entry {α : Type} {f : VmContext → α × VmContext} (h : EntryAction α f) : KeepingAction α f
  | capture (p : CapturePoint) : KeepingAction _ fun ctx => ((), p.run ctx)
  | wake : KeepingAction _ fun ctx => ((), ctx.advanceToWake)

theorem KeepingAction.requests {f : VmContext → α × VmContext} (h : KeepingAction α f)
    (ctx : VmContext) : RequestsKept ctx (f ctx).2 := by
  cases h with
  | dispatch h =>
    cases h with
    | handler h =>
      cases h with
      | guest h => exact h.requests ctx
      | cowFault gpa => exact .of_guest (ctx.handleCowFault_memory gpa).untouched.guest
      | preCow => exact .of_guest ctx.preCowIoChannelPage_memory.untouched.guest
      | installPebs g => exact .of_guest (ctx.installPebsPage_untouched g).guest
    | pebsExit => exact .of_guest ctx.handlePebsPreciseExit_untouched.guest
    | preemptionTimer => exact .of_guest rfl
  | entry h =>
    cases h with
    | guest h => exact h.requests ctx
    | lastExitDeterministic => exact .of_guest rfl
    | arm => exact .of_guest ctx.armForNextIteration_untouched.guest
  | capture p => exact .of_guest (p.run_events ctx).guest
  | wake => exact .of_guest ctx.advanceToWake_untouched.guest

instance (priority := low) {ε α : Type} {m : Program ε VmContext α}
    [h : Built DispatchAction m] : Built KeepingAction m :=
  h.mono fun _ hf => .dispatch hf

instance (p : CapturePoint) {ε : Type} :
    Built KeepingAction (capture p : Program ε VmContext Unit) :=
  .act (.capture p)

instance : Built KeepingAction vmcallShutdown := by
  unfold vmcallShutdown
  infer_instance

instance : Built KeepingAction vmcallSnapshot := by
  unfold vmcallSnapshot
  infer_instance

instance : Built KeepingAction handleIdle := by
  unfold handleIdle
  exact .bind (.act .wake) fun _ => inferInstance

theorem RequestsKept.of_built {ε : Type} {m : Program ε VmContext α} (h : Built KeepingAction m)
    (ctx : VmContext) : RequestsKept ctx (m ctx).2 :=
  h.rel (R := RequestsKept) (fun _ => .refl _) (fun h h' => h.trans h') (fun _ hf => hf.requests) ctx

theorem requests_frames : Frames RequestsKept where
  refl _ := .refl _
  trans h h' := h.trans h'
  events h := .of_guest h.guest
  interceptPf _ := .of_guest rfl
  trapFlag ctx := .of_guest ctx.updateMtfState_guest
  begin _ _ := .of_guest rfl

theorem VmContext.enter_requests (ctx : VmContext) (how : Resume) :
    RequestsKept ctx (ctx.enter how).2 := by
  have hbuilt : Built KeepingAction injectPendingInterrupt :=
    Built.mono (A := EntryAction) (fun _ hf => .entry hf) inferInstance
  exact requests_frames.enter (RequestsKept.of_built hbuilt) ctx how

/-! ## GET_REQUEST -/

theorem copyRequestToGuest_spec {rounds gpa : Nat} {bytes : List UInt8} {ctx' : VmContext}
    (hrounds : bytes.length ≤ rounds)
    (h : copyRequestToGuest rounds gpa bytes ctx = (.ok (), ctx')) :
    ctx'.state = ctx.state ∧ ∀ a, ctx'.memory.readByte a =
      if gpa ≤ a ∧ a < gpa + bytes.length then bytes[a - gpa]? else ctx.memory.readByte a := by
  induction rounds generalizing gpa bytes ctx with
  | zero =>
    have hempty : bytes = [] := eq_nil_of_length_eq_zero (by omega)
    subst hempty
    cases h
    refine ⟨rfl, fun a => ?_⟩
    rw [if_neg (by simp)]
  | succ rounds ih =>
    unfold copyRequestToGuest at h
    by_cases hempty : bytes = []
    · rw [if_pos hempty] at h
      subst hempty
      cases h
      refine ⟨rfl, fun a => ?_⟩
      rw [if_neg (by simp)]
    rw [if_neg hempty] at h
    unfold writeGuestMemory at h
    rw [act_bind] at h
    obtain ⟨_, ctx₁, hcheck, hrest⟩ := bind_eq_ok_iff.mp h
    obtain ⟨hok, rfl⟩ := check_eq_ok_iff.mp hcheck
    obtain ⟨count, hwrote⟩ :=
      ctx.memory.writeGuestMemory_spec gpa (bytes.take IO_COPY_CHUNK)
    have hcount := hwrote.complete hok
    have hpos : 0 < bytes.length := length_pos_iff.mpr hempty
    have hchunk : 0 < IO_COPY_CHUNK := by decide
    obtain ⟨hstate, hread⟩ := ih (by rw [length_drop]; omega) hrest
    refine ⟨hstate, fun a => ?_⟩
    have hfirst : (ctx.writeMemory gpa (bytes.take IO_COPY_CHUNK)).2.memory =
        (ctx.memory.writeGuestMemory gpa (bytes.take IO_COPY_CHUNK)).2 := rfl
    rw [hread a, hfirst, hwrote.readByte a, hcount, length_drop, length_take]
    -- the address lies in the rest, in the first chunk, or outside
    by_cases hlater : gpa + IO_COPY_CHUNK ≤ a ∧ a < gpa + bytes.length
    · rw [if_pos (by omega), if_pos (by omega), List.getElem?_drop,
        show IO_COPY_CHUNK + (a - (gpa + IO_COPY_CHUNK)) = a - gpa by omega]
    rw [if_neg (by omega)]
    by_cases hin : gpa ≤ a ∧ a < gpa + bytes.length
    · rw [if_pos (by omega), if_pos hin, List.getElem?_take_of_lt (by omega)]
    · rw [if_neg (by omega), if_neg hin]

/-- What GET_REQUEST does: it fails and keeps the requests, there is none, or the guest
finds the request in its page and the request is consumed. -/
inductive GotRequest (before after : VmContext) : Prop
  | failed (hkept : RequestsKept before after)
      (hrax : after.state.guest.gprs.rax = VMCALL_FAILED)
  | nothing (hrequest : before.state.guest.ioChannel.request = [])
      (hkept : RequestsKept before after) (hrax : after.state.guest.gprs.rax = 0)
  | got (hrequest : before.state.guest.ioChannel.request ≠ [])
      (hconsumed : after.state.guest.ioChannel = before.state.guest.ioChannel.consumeRequest)
      (hrax : after.state.guest.gprs.rax =
        UInt64.ofNat before.state.guest.ioChannel.request.length)
      (hbytes : after.memory.readGuestMemory before.state.guest.ioChannel.pageGpa
        before.state.guest.ioChannel.request.length =
          (before.state.guest.ioChannel.request, .ok ()))

theorem readGuestMemory_of_copied {mem mem' : VmMemory} {gpa : Nat} {bytes : List UInt8}
    (hbytes : bytes ≠ [])
    (h : ∀ a, mem'.readByte a =
      if gpa ≤ a ∧ a < gpa + bytes.length then bytes[a - gpa]? else mem.readByte a) :
    mem'.readGuestMemory gpa bytes.length = (bytes, .ok ()) := by
  have hread : ∀ i < bytes.length, mem'.readByte (gpa + i) = some (bytes.getD i 0) := by
    intro i hi
    rw [h, if_pos (by omega), Nat.add_sub_cancel_left, List.getElem?_eq_getElem hi,
      getD_eq_getElem?_getD, List.getElem?_eq_getElem hi, Option.getD_some]
  rw [VmMemory.readGuestMemory_of_readByte (length_pos_iff.mpr hbytes) hread]
  congr 1
  apply ext_getElem
  · simp
  · intro i hi hi'
    simp [getD_eq_getElem?_getD, List.getElem?_eq_getElem hi']

theorem vmcallIoGetRequest_got (ctx : VmContext) : GotRequest ctx (vmcallIoGetRequest ctx).2 := by
  unfold vmcallIoGetRequest getGuest
  rw [act_bind]
  dsimp only
  have hrax : ∀ (rax : UInt64) (c : VmContext), RequestsKept ctx c →
      RequestsKept ctx (vmcallReturn rax .continue_ c).2 ∧
        (vmcallReturn rax .continue_ c).2.state.guest.gprs.rax = rax := by
    intro rax c hkept
    obtain ⟨hguest, -⟩ := vmcallReturn_frame rax .continue_ c
    rw [hguest]
    exact ⟨hkept.trans ⟨by rw [hguest], by rw [hguest], by rw [hguest]⟩, rfl⟩
  split
  · obtain ⟨hkept, hfailed⟩ := hrax VMCALL_FAILED ctx (.refl _)
    exact .failed hkept hfailed
  split
  · rename_i hrequest
    obtain ⟨hkept, hzero⟩ := hrax 0 ctx (.refl _)
    exact .nothing hrequest hkept hzero
  rename_i hrequest
  unfold handle
  rw [bind_ok (attempt_apply _ _)]
  have hcopy : RequestsKept ctx (copyRequestToGuest ctx.state.guest.ioChannel.request.length
      ctx.state.guest.ioChannel.pageGpa ctx.state.guest.ioChannel.request ctx).2 :=
    .of_built inferInstance ctx
  generalize hrun : copyRequestToGuest ctx.state.guest.ioChannel.request.length
    ctx.state.guest.ioChannel.pageGpa ctx.state.guest.ioChannel.request ctx = run at hcopy ⊢
  obtain ⟨e | _, copied⟩ := run
  · obtain ⟨hkept, hfailed⟩ := hrax VMCALL_FAILED copied hcopy
    exact .failed hkept hfailed
  obtain ⟨hstate, hread⟩ := copyRequestToGuest_spec (Nat.le_refl _) hrun
  unfold consumeIoRequest
  dsimp only
  rw [act_bind]
  obtain ⟨hguest, hmemory⟩ := vmcallReturn_frame
    (UInt64.ofNat ctx.state.guest.ioChannel.request.length) .continue_
    copied.consumeIoRequest
  refine .got hrequest ?_ ?_ ?_
  · rw [hguest, VmContext.consumeIoRequest, ← hstate]
    rfl
  · rw [hguest]
  · rw [hmemory]
    exact readGuestMemory_of_copied hrequest hread

theorem handleVmcall_requests (h : ctx.state.guest.gprs.rax.toNat ≠ 5) :
    RequestsKept ctx (handleVmcall ctx).2 := by
  unfold handleVmcall getGuest
  rw [act_bind]
  dsimp only
  refine .of_built ?_ ctx
  split
  all_goals first | infer_instance | contradiction

theorem handleVmcall_got (h : ctx.state.guest.gprs.rax.toNat = 5) :
    GotRequest ctx (handleVmcall ctx).2 := by
  unfold handleVmcall getGuest
  rw [act_bind]
  dsimp only
  rw [h]
  exact vmcallIoGetRequest_got ctx

theorem dispatch_requests {reason : ExitReason} (qual : UInt64)
    (h : reason = .vmcall → ctx.state.guest.gprs.rax.toNat ≠ 5) :
    RequestsKept ctx (dispatch reason qual ctx).2 := by
  by_cases hvmcall : reason = .vmcall
  · have hkept := handleVmcall_requests (h hvmcall)
    rw [← call_state] at hkept
    subst hvmcall
    exact hkept
  · refine .of_built ?_ ctx
    unfold dispatch
    split
    all_goals first | infer_instance | contradiction

namespace VmContext

def getsRequest (ctx : VmContext) : Bool :=
  match ctx.exitInfo with
  | .ok (.vmcall, _) => ctx.state.guest.gprs.rax.toNat = 5
  | _ => false

theorem getsRequest_iff (ctx : VmContext) : ctx.getsRequest ↔ ctx.hypercall = some 5 := by
  unfold getsRequest hypercall
  cases ctx.exitInfo with
  | error e => simp
  | ok info =>
    obtain ⟨reason, qual⟩ := info
    cases reason <;> simp

theorem leave_requests (h : ctx.getsRequest = false) : RequestsKept ctx ctx.leave.2 := by
  cases hinfo : ctx.exitInfo with
  | error e => exact requests_frames.leave_of_error hinfo
  | ok info =>
    obtain ⟨reason, qual⟩ := info
    have hother : reason = .vmcall → ctx.state.guest.gprs.rax.toNat ≠ 5 := by
      rintro rfl
      simpa [getsRequest, hinfo] using h
    have hkept : RequestsKept (ctx.beginExit (!ctx.state.nonDeterministicExit reason qual)) _ :=
      dispatch_requests qual hother
    exact SameRequests.trans hkept (RequestsKept.of_guest (leave_frame hinfo).1)

end VmContext

theorem GotRequest.congr {before before' after after' : VmContext} (h : GotRequest before after)
    (hbefore : before'.state.guest = before.state.guest)
    (hguest : after'.state.guest = after.state.guest) (hmemory : after'.memory = after.memory) :
    GotRequest before' after' := by
  cases h with
  | failed hkept hrax =>
    refine .failed ?_ (hguest ▸ hrax)
    unfold RequestsKept
    rw [hbefore, hguest]
    exact hkept
  | nothing hrequest hkept hrax =>
    refine .nothing (hbefore ▸ hrequest) ?_ (hguest ▸ hrax)
    unfold RequestsKept
    rw [hbefore, hguest]
    exact hkept
  | got hrequest hconsumed hrax hbytes =>
    rw [← hbefore] at hrequest hconsumed hrax hbytes
    rw [← hguest] at hconsumed hrax
    rw [← hmemory] at hbytes
    exact .got hrequest hconsumed hrax hbytes

theorem VmContext.leave_got (h : ctx.getsRequest) : GotRequest ctx ctx.leave.2 := by
  cases hinfo : ctx.exitInfo with
  | error e =>
    rw [getsRequest, hinfo] at h
    cases h
  | ok info =>
    obtain ⟨reason, qual⟩ := info
    obtain ⟨rfl, hrax⟩ : reason = .vmcall ∧ ctx.state.guest.gprs.rax.toNat = 5 := by
      rw [getsRequest, hinfo] at h
      cases reason <;> first | exact ⟨rfl, of_decide_eq_true h⟩ | cases h
    obtain ⟨hguest, hmemory⟩ := leave_frame hinfo
    have hgot : GotRequest (ctx.beginExit (!ctx.state.nonDeterministicExit .vmcall qual)) _ :=
      handleVmcall_got hrax
    rw [← call_state] at hgot
    exact hgot.congr rfl hguest hmemory

/-! ## Iterations -/

/-- What the guest is given in this iteration: if GET_REQUEST returns a length, the bytes
it then finds in its page, and the time they were meant for. -/
def Iteration.delivered (it : Iteration) : List PendingIoAction :=
  let rax := it.done.state.guest.gprs.rax
  if it.exited.getsRequest = false ∨ rax = 0 ∨ rax = VMCALL_FAILED then []
  else
    let chan := it.exited.state.guest.ioChannel
    [⟨chan.requestTargetTsc, (it.done.memory.readGuestMemory chan.pageGpa rax.toNat).1⟩]

namespace Iteration.Valid

variable {it : Iteration}

theorem requests_exited (h : it.Valid) : RequestsKept it.start it.exited := by
  have henter := it.start.enter_requests it.how
  rw [h.enter] at henter
  refine SameRequests.trans henter ?_
  rw [h.ran.ioChannel]
  exact .refl _

/-- An iteration takes out what it delivers and nothing else; GET_REQUEST delivers unless
it fails or there is no request in flight. -/
theorem requests (h : it.Valid) (hfits : it.start.state.guest.ioChannel.Fits) :
    (it.delivered = [] ∧ RequestsKept it.start it.done ∧
      (it.exited.getsRequest → it.done.state.guest.gprs.rax ≠ VMCALL_FAILED →
        it.start.state.guest.ioChannel.request = [])) ∨
    (it.start.state.guest.ioChannel.request ≠ [] ∧ it.delivered.length = 1 ∧
      it.start.outstanding = it.delivered ++ it.done.outstanding ∧
      it.done.state.guest.ioChannel = it.exited.state.guest.ioChannel.consumeRequest) := by
  have hexited := h.requests_exited
  have hleave : it.exited.leave.2 = it.done := by rw [h.leave]
  cases hgets : it.exited.getsRequest with
  | false =>
    refine .inl ⟨by rw [delivered, if_pos (.inl hgets)], SameRequests.trans hexited ?_,
      fun hno => absurd hno Bool.false_ne_true⟩
    rw [← hleave]
    exact leave_requests hgets
  | true =>
    have hgot := leave_got hgets
    rw [hleave] at hgot
    cases hgot with
    | failed hkept hrax =>
      exact .inl ⟨by rw [delivered, if_pos (.inr (.inr hrax))], SameRequests.trans hexited hkept,
        fun _ hno => absurd hrax hno⟩
    | nothing hrequest hkept hrax =>
      exact .inl ⟨by rw [delivered, if_pos (.inr (.inl hrax))], SameRequests.trans hexited hkept,
        fun _ _ => hexited.request ▸ hrequest⟩
    | got hrequest hconsumed hrax hbytes =>
      have hfits' := hexited.fits hfits
      have hpos := length_pos_iff.mpr hrequest
      have hlen := hfits'.request
      have htoNat : it.done.state.guest.gprs.rax.toNat =
          it.exited.state.guest.ioChannel.request.length := by
        rw [hrax, UInt64.toNat_ofNat_of_lt']
        simp only [IO_CHANNEL_BUF_SIZE] at hlen
        exact Nat.lt_of_le_of_lt hlen (by decide)
      have hgiven : it.delivered = [⟨it.exited.state.guest.ioChannel.requestTargetTsc,
          it.exited.state.guest.ioChannel.request⟩] := by
        unfold delivered
        dsimp only
        rw [if_neg]
        · rw [htoNat, hbytes]
        rintro (hno | hzero | hfailed)
        · rw [hgets] at hno
          cases hno
        · rw [hzero] at htoNat
          rw [← htoNat] at hpos
          cases hpos
        · rw [hfailed] at htoNat
          rw [← htoNat] at hlen
          exact absurd hlen (by decide)
      refine .inr ⟨hexited.request ▸ hrequest, by rw [hgiven]; rfl, ?_, hconsumed⟩
      rw [hgiven, VmContext.outstanding, VmContext.outstanding, ← hexited.outstanding, hconsumed,
        outstanding_of_request hfits' hrequest]
      rfl

theorem outstanding (h : it.Valid) (hfits : it.start.state.guest.ioChannel.Fits) :
    it.start.outstanding = it.delivered ++ it.done.outstanding := by
  rcases h.requests hfits with ⟨hnone, hkept, -⟩ | ⟨-, -, htaken, -⟩
  · rw [hnone, nil_append]
    exact hkept.outstanding.symm
  · exact htaken

theorem fits (h : it.Valid) (hfits : it.start.state.guest.ioChannel.Fits) :
    it.done.state.guest.ioChannel.Fits := by
  rcases h.requests hfits with ⟨-, hkept, -⟩ | ⟨-, -, -, hconsumed⟩
  · exact hkept.fits hfits
  · rw [hconsumed]
    exact consumeRequest_fits (h.requests_exited.fits hfits)

theorem ready (h : it.Valid) (hfits : it.start.state.guest.ioChannel.Fits)
    (hready : it.start.state.guest.ioChannel.Ready) : it.done.state.guest.ioChannel.Ready := by
  rcases h.requests hfits with ⟨-, hkept, -⟩ | ⟨-, -, -, hconsumed⟩
  · exact hkept.ready hready
  · rw [hconsumed]
    exact consumeRequest_ready (h.requests_exited.ready hready)

theorem delivered_eq (h : it.Valid) (hfits : it.start.state.guest.ioChannel.Fits)
    (hready : it.start.state.guest.ioChannel.Ready) (hgets : it.exited.getsRequest)
    (hrax : it.done.state.guest.gprs.rax ≠ VMCALL_FAILED) :
    it.delivered = it.start.outstanding.take 1 := by
  rcases h.requests hfits with ⟨hnone, -, hempty⟩ | ⟨-, hone, htaken, -⟩
  · rw [hnone, VmContext.outstanding, hready.outstanding_eq_nil (hempty hgets hrax)]
    rfl
  · rw [htaken, ← hone, take_left]

end Iteration.Valid

end Bedrock
