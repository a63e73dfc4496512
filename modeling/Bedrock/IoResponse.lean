import Bedrock.History
import Bedrock.IoDelivery

/-!
# Responses of the guest

PUT_RESPONSE copies the bytes the guest has put in its page to the one response buffer
of the channel, and DRAIN_IO_RESPONSE hands them to userspace and forgets them.  The
buffer belongs to the latest response only: a request that moves into the slot, a page
that is registered again and a fork forget it as well, and the next PUT_RESPONSE
overwrites it.
-/

namespace Bedrock

open List Part VmContext

open Support IoChannelState Program VmContext VmMemory Bedrock.Part

namespace VmContext

/-- What DRAIN_IO_RESPONSE hands out if userspace has room for all of it. -/
def response (ctx : VmContext) : List UInt8 :=
  (List.range ctx.state.guest.ioChannel.responseLen).map ctx.state.guest.ioChannel.responseBuf

theorem response_of_get {before after : VmContext}
    (h : Part.response.get after = Part.response.get before) : after.response = before.response := by
  obtain ⟨hlen, hbuf⟩ := Prod.ext_iff.mp h
  have hlen' : after.state.guest.ioChannel.responseLen =
      before.state.guest.ioChannel.responseLen := hlen
  have hbuf' : after.state.guest.ioChannel.responseBuf =
      before.state.guest.ioChannel.responseBuf := hbuf
  rw [response, hlen', hbuf', response]

theorem response_of_ioChannel {before after : VmContext}
    (h : after.state.guest.ioChannel = before.state.guest.ioChannel) :
    after.response = before.response := by
  rw [response, h, response]

theorem response_of_len {ctx : VmContext} (h : ctx.state.guest.ioChannel.responseLen = 0) :
    ctx.response = [] := by
  rw [response, h]
  rfl

def putBytes (ctx : VmContext) : List UInt8 :=
  (ctx.memory.readGuestMemory ctx.state.guest.ioChannel.pageGpa
    (min ctx.state.guest.gprs.rbx.toNat IO_CHANNEL_BUF_SIZE)).1

end VmContext

/-! ## The hypercalls -/

theorem copyRequestToGuest_state (rounds gpa : Nat) (bytes : List UInt8) (ctx : VmContext) :
    (copyRequestToGuest rounds gpa bytes ctx).2.state = ctx.state := by
  induction rounds generalizing gpa bytes ctx with
  | zero => rfl
  | succ rounds ih =>
    unfold copyRequestToGuest
    split
    · rfl
    unfold writeGuestMemory
    rw [act_bind]
    cases hwrite : (ctx.writeMemory gpa (bytes.take IO_COPY_CHUNK)).1 with
    | error e => rfl
    | ok u => exact ih _ _ _

theorem vmcallReturn_ioChannel (rax : UInt64) (r : ExitHandlerResult) (ctx : VmContext) :
    (vmcallReturn rax r ctx).2.state.guest.ioChannel = ctx.state.guest.ioChannel := by
  rw [(vmcallReturn_frame rax r ctx).1]

theorem vmcallReturn_rax (rax : UInt64) (r : ExitHandlerResult) (ctx : VmContext) :
    (vmcallReturn rax r ctx).2.state.guest.gprs.rax = rax := by
  rw [(vmcallReturn_frame rax r ctx).1]

theorem vmcallIoGetRequest_cases (ctx : VmContext) :
    (vmcallIoGetRequest ctx).2.state.guest.ioChannel = ctx.state.guest.ioChannel ∨
      (ctx.state.guest.ioChannel.request ≠ [] ∧
        (vmcallIoGetRequest ctx).2.state.guest.gprs.rax =
          UInt64.ofNat ctx.state.guest.ioChannel.request.length ∧
        (vmcallIoGetRequest ctx).2.state.guest.ioChannel =
          ctx.state.guest.ioChannel.consumeRequest) := by
  unfold vmcallIoGetRequest getGuest
  rw [act_bind]
  dsimp only
  split
  · exact .inl (vmcallReturn_ioChannel _ _ _)
  split
  · exact .inl (vmcallReturn_ioChannel _ _ _)
  rename_i hrequest
  have hcopied := copyRequestToGuest_state ctx.state.guest.ioChannel.request.length
    ctx.state.guest.ioChannel.pageGpa ctx.state.guest.ioChannel.request ctx
  rcases hrun : copyRequestToGuest ctx.state.guest.ioChannel.request.length
    ctx.state.guest.ioChannel.pageGpa ctx.state.guest.ioChannel.request ctx with ⟨e | u, copied⟩
  · rw [hrun] at hcopied
    rw [handle_error hrun, vmcallReturn_ioChannel, hcopied]
    exact .inl rfl
  rw [hrun] at hcopied
  rw [handle_ok hrun]
  unfold consumeIoRequest
  rw [act_bind, vmcallReturn_ioChannel, vmcallReturn_rax, VmContext.consumeIoRequest, ← hcopied]
  exact .inr ⟨hcopied ▸ hrequest, rfl, rfl⟩

theorem vmcallIoRegisterPage_ioChannel (ctx : VmContext) :
    ((vmcallIoRegisterPage ctx).2.state.guest.gprs.rax = VMCALL_FAILED ∧
      (vmcallIoRegisterPage ctx).2.state.guest.ioChannel = ctx.state.guest.ioChannel) ∨
    ((vmcallIoRegisterPage ctx).2.state.guest.gprs.rax = 0 ∧
      (vmcallIoRegisterPage ctx).2.state.guest.ioChannel.responseLen = 0) := by
  unfold vmcallIoRegisterPage getGuest
  rw [act_bind]
  dsimp only
  have hbuilt : Built ReadAction (translateAlignedPage ctx.state.guest.gprs.rbx) := by
    unfold translateAlignedPage
    infer_instance
  have hsame := readOnly_state hbuilt ctx
  rcases hrun : translateAlignedPage ctx.state.guest.gprs.rbx ctx with ⟨e | gpa, c⟩
  · rw [hrun] at hsame
    rw [handle_error hrun, vmcallReturn_rax, vmcallReturn_ioChannel]
    exact .inl ⟨rfl, by rw [show c = ctx from hsame]⟩
  rw [handle_ok hrun]
  unfold modifyGuest preCowIoChannelPage
  rw [act_bind, act_bind, vmcallReturn_rax, vmcallReturn_ioChannel]
  refine .inr ⟨rfl, ?_⟩
  dsimp only
  rw [preCowIoChannelPage_guest]
  rfl

variable {ctx : VmContext}

theorem copyResponseFromGuest_spec {rounds gpa offset len : Nat} {ctx' : VmContext}
    (hrounds : len ≤ offset + rounds)
    (h : copyResponseFromGuest rounds gpa offset len ctx = (.ok (), ctx')) :
    (∀ i < offset, ctx'.state.guest.ioChannel.responseBuf i =
        ctx.state.guest.ioChannel.responseBuf i) ∧
      ∀ i, offset ≤ i → i < len →
        ctx.memory.readByte (gpa + i) = some (ctx'.state.guest.ioChannel.responseBuf i) := by
  induction rounds generalizing offset ctx with
  | zero =>
    cases h
    exact ⟨fun _ _ => rfl, fun i hi hlt => absurd hlt (by omega)⟩
  | succ rounds ih =>
    unfold copyResponseFromGuest at h
    by_cases hdone : len ≤ offset
    · rw [if_pos hdone] at h
      cases h
      exact ⟨fun _ _ => rfl, fun i hi hlt => absurd hlt (by omega)⟩
    rw [if_neg hdone] at h
    unfold readGuestMemory modifyGuest at h
    rw [act_bind] at h
    obtain ⟨_, ctx₁, hcheck, hrest⟩ := bind_eq_ok_iff.mp h
    obtain ⟨hok, hsame⟩ := check_eq_ok_iff.mp hcheck
    subst ctx₁
    rw [act_bind] at hrest
    obtain ⟨hbytes, hcomplete⟩ := ctx.memory.readGuestMemory_bytes (gpa + offset)
      (min (len - offset) IO_COPY_CHUNK)
    have hlength := hcomplete hok
    have hchunk : 0 < IO_COPY_CHUNK := by decide
    obtain ⟨hbefore, hafter⟩ := ih (by omega) hrest
    refine ⟨fun i hi => ?_, fun i hi hlt => ?_⟩
    · rw [hbefore i (by omega)]
      exact splice_of_lt _ _ hi
    by_cases hlater : offset + IO_COPY_CHUNK ≤ i
    · exact hafter i hlater hlt
    -- the byte comes from the chunk just read
    have hin : i - offset <
        (ctx.memory.readGuestMemory (gpa + offset) (min (len - offset) IO_COPY_CHUNK)).1.length := by
      omega
    rw [hbefore i (by omega), show gpa + i = gpa + offset + (i - offset) by omega,
      hbytes (i - offset) hin]
    congr 1
    simp only [setGuest, splice, if_pos hi, List.getElem?_eq_getElem hin, Option.getD_some]

theorem VmMemory.readGuestMemory_zero (mem : VmMemory) (gpa : Nat) :
    (mem.readGuestMemory gpa 0).1 = [] := by
  cases mem with
  | root memory =>
    simp only [readGuestMemory]
    split
    · rfl
    · rfl
  | forked cow parent =>
    simp only [readGuestMemory, readSpan]
    split <;> simp_all

theorem vmcallIoPutResponse_spec (ctx : VmContext) :
    (vmcallIoPutResponse ctx).2.state.guest.gprs.rax = VMCALL_FAILED ∨
      (vmcallIoPutResponse ctx).2.response = ctx.putBytes := by
  unfold vmcallIoPutResponse getGuest
  rw [act_bind]
  dsimp only
  split
  · exact .inl (vmcallReturn_rax _ _ _)
  rcases hrun : copyResponseFromGuest (min ctx.state.guest.gprs.rbx.toNat IO_CHANNEL_BUF_SIZE)
    ctx.state.guest.ioChannel.pageGpa 0 (min ctx.state.guest.gprs.rbx.toNat IO_CHANNEL_BUF_SIZE)
    ctx with ⟨e | u, copied⟩
  · rw [handle_error hrun]
    exact .inl (vmcallReturn_rax _ _ _)
  rw [handle_ok hrun]
  obtain ⟨-, hread⟩ := copyResponseFromGuest_spec (by omega) hrun
  unfold modifyGuest
  rw [act_bind]
  have hrest : ∀ c, Part.response.get ((vmcallReturn 0 (.exitToUserspace .vmcallIoResponse) >>=
      fun r => emit (.ioChannel .response 0) >>= fun _ => pure r : Handler _) c).2 =
        Part.response.get c :=
    Framed.get (A := GuestAction) inferInstance
  refine .inr ((response_of_get (hrest _)).trans ?_)
  simp only [VmContext.response, putBytes, setGuest]
  rcases Nat.eq_zero_or_pos (min ctx.state.guest.gprs.rbx.toNat IO_CHANNEL_BUF_SIZE) with
    hzero | hpos
  · rw [hzero, readGuestMemory_zero]
    rfl
  · rw [readGuestMemory_of_readByte hpos fun i hi => hread i (Nat.zero_le i) hi]

/-! ## What leaving the guest does -/

theorem IoChannelState.consumeRequest_response (chan : IoChannelState) :
    (chan.consumeRequest.responseLen = chan.responseLen ∧
        chan.consumeRequest.responseBuf = chan.responseBuf ∧
        chan.consumeRequest.pending.length = chan.pending.length) ∨
      (chan.consumeRequest.responseLen = 0 ∧
        chan.consumeRequest.pending.length < chan.pending.length) := by
  unfold consumeRequest
  by_cases hpending : chan.pending = []
  · rw [promoteNextPending_nil (by exact hpending)]
    exact .inl ⟨rfl, rfl, rfl⟩
  obtain ⟨next, rest, hcons⟩ := exists_cons_of_ne_nil hpending
  rw [promoteNextPending_cons rfl (by exact hcons), hcons]
  exact .inr ⟨rfl, Nat.lt_succ_self _⟩

theorem handleVmcall_registerPage (h : ctx.state.guest.gprs.rax.toNat = 4) :
    handleVmcall ctx = vmcallIoRegisterPage ctx := by
  unfold handleVmcall getGuest
  rw [act_bind]
  dsimp only
  rw [h]
  rfl

theorem handleVmcall_getRequest (h : ctx.state.guest.gprs.rax.toNat = 5) :
    handleVmcall ctx = vmcallIoGetRequest ctx := by
  unfold handleVmcall getGuest
  rw [act_bind]
  dsimp only
  rw [h]
  rfl

theorem VmContext.leave_getRequest (h : ctx.hypercall = some 5) :
    ctx.leave.2.state.guest.ioChannel = ctx.state.guest.ioChannel ∨
      (ctx.state.guest.ioChannel.request ≠ [] ∧
        ctx.leave.2.state.guest.gprs.rax =
          UInt64.ofNat ctx.state.guest.ioChannel.request.length ∧
        ctx.leave.2.state.guest.ioChannel = ctx.state.guest.ioChannel.consumeRequest) := by
  obtain ⟨begun, ⟨hguest, -⟩, -, hrax, hleave, -⟩ := leave_hypercall h
  have hcases := vmcallIoGetRequest_cases begun
  rwa [← handleVmcall_getRequest hrax, ← hleave, hguest] at hcases

def VmContext.registersPage (ctx : VmContext) : Prop :=
  ctx.hypercall = some 4 ∧ ctx.leave.2.state.guest.gprs.rax = 0

/-- Unless the guest puts a response, leaving it keeps the response, or forgets it because
a page is registered or the next request moves into the slot. -/
theorem VmContext.leave_response (h : ctx.hypercall ≠ some 6) :
    (ctx.leave.2.response = ctx.response ∧ ¬ctx.registersPage ∧
      ctx.leave.2.state.guest.ioChannel.pending.length =
        ctx.state.guest.ioChannel.pending.length) ∨
    (ctx.leave.2.response = [] ∧ (ctx.registersPage ∨
      ctx.leave.2.state.guest.ioChannel.pending.length <
        ctx.state.guest.ioChannel.pending.length)) := by
  by_cases hregister : ctx.hypercall = some 4
  · obtain ⟨begun, ⟨hguest, -⟩, -, hrax, hleave, -⟩ := leave_hypercall hregister
    rw [handleVmcall_registerPage hrax] at hleave
    rcases vmcallIoRegisterPage_ioChannel begun with ⟨hfailed, hsame⟩ | ⟨hzero, hlen⟩
    · rw [← hleave] at hfailed hsame
      rw [hguest] at hsame
      refine .inl ⟨response_of_ioChannel hsame, fun hreg => ?_, by rw [hsame]⟩
      rw [hreg.2] at hfailed
      cases hfailed
    · rw [← hleave] at hzero hlen
      exact .inr ⟨response_of_len hlen, .inl ⟨hregister, hzero⟩⟩
  · have hnot : ¬ctx.registersPage := fun hreg => hregister hreg.1
    by_cases hget : ctx.hypercall = some 5
    · rcases leave_getRequest hget with hsame | ⟨-, -, hconsumed⟩
      · exact .inl ⟨response_of_ioChannel hsame, hnot, by rw [hsame]⟩
      rcases ctx.state.guest.ioChannel.consumeRequest_response with
        ⟨hlen, hbuf, hpending⟩ | ⟨hlen, hpending⟩
      · rw [← hconsumed] at hlen hbuf hpending
        exact .inl ⟨by rw [response, hlen, hbuf, response], hnot, hpending⟩
      · rw [← hconsumed] at hlen hpending
        exact .inr ⟨response_of_len hlen, .inr hpending⟩
    · have hpart : Part.response.get ctx.leave.2 = Part.response.get ctx := by
        refine get_leave_of_hypercall (fun reason qual _ hreason => hreason) fun n hn => ?_
        rintro (rfl | rfl | rfl)
        · exact hregister hn
        · exact hget hn
        · exact h hn
      have hrequests : RequestsKept ctx ctx.leave.2 := by
        refine leave_requests (Bool.eq_false_iff.mpr ?_)
        rwa [ne_eq, getsRequest_iff]
      exact .inl ⟨response_of_get hpart, hnot, by rw [hrequests.pending]⟩

/-! ## Steps -/

namespace VmStep

def Puts (t : VmStep) : Prop :=
  match t.label with
  | .iterate it => it.exited.hypercall = some 6
  | _ => False

def put (t : VmStep) : Option (List UInt8) :=
  match t.label with
  | .iterate it =>
    if it.exited.hypercall = some 6 ∧ it.done.state.guest.gprs.rax = 0 then some it.exited.putBytes
    else none
  | _ => none

/-- A request moves into the slot: GET_REQUEST has made room for the next one, or
QUEUE_IO_ACTION found the slot free. -/
def Promotes (t : VmStep) : Prop :=
  match t.label with
  | .iterate it => it.done.state.guest.ioChannel.pending.length <
      it.start.state.guest.ioChannel.pending.length
  | .ioctl (.queueIoAction action host) =>
    t.pre.accepted action host ≠ [] ∧ t.pre.state.guest.ioChannel.request = []
  | _ => False

/-- The response is forgotten: it is drained, a request moves into the slot, the guest
registers a page, or the VM is forked. -/
def Clears (t : VmStep) : Prop :=
  t.Promotes ∨
    match t.label with
    | .iterate it => it.exited.registersPage
    | .ioctl (.drainIoResponse capacity host) =>
      (t.pre.handleDrainIoResponse capacity host).1.isOk = true
    | .fork _ => True
    | _ => False

end VmStep

theorem VmContext.enter_response (ctx : VmContext) (how : Resume) :
    (ctx.enter how).2.response = ctx.response :=
  response_of_get (Part.response.get_enter ctx how)

theorem Iteration.Valid.response_exited {it : Iteration} (h : it.Valid) :
    it.exited.response = it.start.response := by
  have henter := it.start.enter_response it.how
  rw [h.enter] at henter
  exact (response_of_get (get_of_ran h.ran (by decide))).trans henter

theorem VmContext.handleQueueIoAction_response (ctx : VmContext) (action : PendingIoAction)
    (host : QueueHost) :
    (ctx.accepted action host = [] ∨ ctx.state.guest.ioChannel.request ≠ [] →
      (ctx.handleQueueIoAction action host).2.response = ctx.response) ∧
    (ctx.accepted action host ≠ [] ∧ ctx.state.guest.ioChannel.request = [] →
      (ctx.handleQueueIoAction action host).2.response = []) := by
  rcases ctx.handleQueueIoAction_cases action host with ⟨hnone, hsame⟩ | ⟨hsome, -, -, hchan⟩
  · rw [hsame]
    exact ⟨fun _ => rfl, fun h => absurd hnone h.1⟩
  constructor
  · rintro (hnone | hoccupied)
    · rw [hsome] at hnone
      cases hnone
    · rw [promoteNextPending_of_request (by exact hoccupied)] at hchan
      rw [response, hchan, response]
  · rintro ⟨-, hfree⟩
    obtain ⟨next, rest, hcons⟩ := exists_cons_of_ne_nil
      (append_ne_nil_of_right_ne_nil ctx.state.guest.ioChannel.pending (cons_ne_nil action []))
    rw [promoteNextPending_cons (by exact hfree) (by exact hcons)] at hchan
    exact response_of_len (by rw [hchan])

/-- A step in which the guest puts no response keeps the response or forgets it. -/
theorem VmStep.Valid.response {t : VmStep} (h : t.Valid) (hputs : ¬t.Puts) :
    (¬t.Clears → t.post.response = t.pre.response) ∧ (t.Clears → t.post.response = []) := by
  cases h with
  | @iterate it hit =>
    have hleave : it.exited.leave.2 = it.done := by rw [hit.leave]
    have hpending := hit.requests_exited.pending
    have hexited := hit.response_exited
    rcases leave_response hputs with ⟨hkept, hnot, hsame⟩ | ⟨hnone, hcleared⟩
    · rw [hleave] at hkept hsame
      refine ⟨fun _ => hkept.trans hexited, ?_⟩
      rintro (hpromotes | hregisters)
      · have hlt : it.done.state.guest.ioChannel.pending.length <
          it.start.state.guest.ioChannel.pending.length := hpromotes
        rw [hsame, hpending] at hlt
        exact absurd hlt (Nat.lt_irrefl _)
      · exact absurd hregisters hnot
    · rw [hleave] at hnone hcleared
      refine ⟨fun hnot => absurd ?_ hnot, fun _ => hnone⟩
      rcases hcleared with hregisters | hlt
      · exact .inr hregisters
      · rw [hpending] at hlt
        exact .inl hlt
  | abort ctx how point =>
    refine ⟨fun _ => response_of_get (Part.response.get_abort ctx how point), ?_⟩
    rintro (hno | hno)
    all_goals exact absurd hno id
  | ioctl ctx call =>
    cases call with
    | queueIoAction action host =>
      obtain ⟨hkeep, hclear⟩ := ctx.handleQueueIoAction_response action host
      constructor
      · intro hnot
        apply hkeep
        by_contra hpromotes
        rw [not_or, not_not] at hpromotes
        exact hnot (.inl hpromotes)
      · rintro (hpromotes | hno)
        · exact hclear hpromotes
        · exact absurd hno id
    | drainIoResponse capacity host =>
      rcases ctx.handleDrainIoResponse_cases capacity host with ⟨e, heq⟩ | heq
      · constructor
        · intro _
          exact congrArg (fun r => VmContext.response r.2) heq
        rintro (hno | hok)
        · exact absurd hno id
        · simp [heq, Except.isOk, Except.toBool] at hok
      constructor
      · intro hnot
        have hok : (ctx.handleDrainIoResponse capacity host).1.isOk := by
          rw [heq]
          rfl
        exact absurd (.inr hok) hnot
      · intro _
        exact congrArg (fun r => VmContext.response r.2) heq
    | _ =>
      refine ⟨fun _ => response_of_get (get_ioctl id ctx), ?_⟩
      rintro (hno | hno)
      all_goals exact absurd hno id
  | store hstores =>
    refine ⟨fun _ => rfl, ?_⟩
    rintro (hno | hno)
    all_goals exact absurd hno id
  | fork hfork =>
    refine ⟨fun hnot => absurd (.inr trivial) hnot, fun _ => ?_⟩
    exact response_of_len (by rw [ForkedVm.new_ioChannel hfork]; rfl)

theorem VmStep.Valid.response_of_put {t : VmStep} {bytes : List UInt8} (h : t.Valid)
    (hput : t.put = some bytes) : t.post.response = bytes := by
  cases h with
  | @iterate it hit =>
    have hleave : it.exited.leave.2 = it.done := by rw [hit.leave]
    unfold put at hput
    dsimp only at hput
    split at hput
    · rename_i hcall
      obtain ⟨hnumber, hzero⟩ := hcall
      obtain ⟨begun, ⟨hguest, -⟩, hmemory, hrax, hdone, -⟩ := leave_hypercall hnumber
      have hhandled : handleVmcall begun = vmcallIoPutResponse begun := by
        unfold handleVmcall getGuest
        rw [act_bind]
        dsimp only
        rw [hrax]
        rfl
      rw [hhandled, hleave] at hdone
      rcases vmcallIoPutResponse_spec begun with hfailed | hresponse
      · rw [← hdone, hzero] at hfailed
        cases hfailed
      have hbytes : begun.putBytes = it.exited.putBytes := by
        rw [putBytes, hguest, hmemory, putBytes]
      rw [← Option.some.inj hput, ← hbytes, ← hresponse]
      exact response_of_ioChannel (congrArg GuestState.ioChannel hdone)
    · cases hput
  | _ => cases hput

/-! ## From PUT_RESPONSE to DRAIN_IO_RESPONSE -/

theorem VmContext.handleDrainIoResponse_handed {capacity : Nat} {host : DrainHost}
    {handed : List UInt8} (h : (ctx.handleDrainIoResponse capacity host).1 = .ok handed) :
    handed = ctx.response.take capacity := by
  rcases ctx.handleDrainIoResponse_cases capacity host with ⟨e, heq⟩ | heq
  · rw [heq] at h
    cases h
  rw [heq] at h
  cases h
  rw [response, ← map_take, take_range, Nat.min_comm]

/-- The guest runs one instruction and puts a response of `len` bytes. -/
def VmStep.putResponse (pre : VmContext) (len : UInt64) : VmStep :=
  .simulate .ioctl pre fun ctx => ctx.exitWith 1 (fun
    | .vmExitReason => 18
    | _ => 0) 6 len

theorem VmStep.putResponse_valid {pre : VmContext} (len : UInt64)
    (h : (pre.enter .ioctl).1.isOk) : (putResponse pre len).Valid :=
  simulate_valid h (ran_exitWith _ _ _ _ _)

def respondedByte : VmStep :=
  .putResponse listeningBranch.vm 1

theorem respondedByte_valid : respondedByte.Valid :=
  VmStep.putResponse_valid 1 (by decide +kernel)

end Bedrock
