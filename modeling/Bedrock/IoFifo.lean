import Bedrock.History
import Bedrock.IoDelivery

/-!
# The I/O channel as a queue

One slot for the request in flight and a bounded queue behind it.  The length of the
request doubles as the mark that the slot is occupied, so an empty action leaves the
slot looking free while actions wait behind it.  Along a history of one VM the channel
is a queue exactly if no accepted action is empty.
-/

namespace Bedrock

open Support IoChannelState List VmStep

namespace VmStep

def accepted (t : VmStep) : List PendingIoAction :=
  match t.label with
  | .ioctl (.queueIoAction action host) => t.pre.accepted action host
  | _ => []

def delivered (t : VmStep) : List PendingIoAction :=
  match t.label with
  | .iterate it => it.delivered
  | _ => []

def Stays (t : VmStep) : Prop :=
  match t.label with
  | .fork _ => False
  | _ => True

end VmStep

theorem VmContext.ioctl_requests (ctx : VmContext) {call : Ioctl}
    (h : ∀ action host, call ≠ .queueIoAction action host) :
    RequestsKept ctx (ctx.ioctl call).2 := by
  have heffect := ctx.ioctl_effect call
  generalize (ctx.ioctl call).2 = after at heffect ⊢
  cases heffect with
  | queued action host => exact absurd rfl (h action host)
  | _ => exact ⟨rfl, rfl, rfl⟩

theorem VmContext.abort_requests (ctx : VmContext) (how : Resume) (point : AbortPoint) :
    RequestsKept ctx (ctx.abort how point) := by
  cases point with
  | load =>
    rw [abort]
    split
    · exact .of_guest rfl
    · exact .refl _
  | start => exact requests_frames.resume ctx how
  | entry => exact ctx.enter_requests how

def bareBranch (vm : VmContext) : Branch RecordedInputSource where
  vm := vm
  currentTime := ⟨0, 1⟩
  tscFrequency := 1
  inputSource := none
  pendingInputIo := none
  inputIoExhausted := true

def VmStep.onBranch (t : VmStep) : Step RecordedInputSource where
  pre := bareBranch t.pre
  move :=
    match t.label with
    | .iterate it => .iterate it
    | .ioctl (.queueIoAction action host) => .queue action host
    | _ => .ioctl t.post
  post := bareBranch t.post

namespace VmStep

/-- A step of the VM is a step of the branch, which takes in and hands out the same. -/
theorem Valid.onBranch {t : VmStep} (h : t.Valid) (hstays : t.Stays) :
    t.onBranch.Valid ∧ t.onBranch.accepted = t.accepted ∧ t.onBranch.delivered = t.delivered := by
  cases h with
  | iterate hit => exact ⟨⟨hit, rfl, rfl⟩, rfl, rfl⟩
  | abort ctx how point => exact ⟨⟨ctx.abort_requests how point, rfl⟩, rfl, rfl⟩
  | ioctl ctx call =>
    cases call with
    | queueIoAction action host => exact ⟨rfl, rfl, rfl⟩
    | _ => exact ⟨⟨ctx.ioctl_requests fun _ _ h => Ioctl.noConfusion h, rfl⟩, rfl, rfl⟩
  | store hstores => exact ⟨⟨.of_guest rfl, rfl⟩, rfl, rfl⟩
  | fork hfork => exact absurd hstays id

theorem onBranch_safe {t : VmStep} (h : t.onBranch.accepted = t.accepted) :
    t.onBranch.Safe ↔ ∀ a ∈ t.accepted, a.data ≠ [] := by
  rw [Step.Safe, h]
  refine and_iff_left ?_
  obtain ⟨pre, label, post⟩ := t
  cases label with
  | ioctl call => cases call <;> trivial
  | _ => trivial

end VmStep

theorem IoChannelState.promoteNextPending_pending_length (chan : IoChannelState) :
    chan.promoteNextPending.pending.length ≤ chan.pending.length := by
  by_cases hrequest : chan.request = []
  · cases hpending : chan.pending with
    | nil => rw [promoteNextPending_nil hpending, hpending]
    | cons next rest =>
      rw [promoteNextPending_cons hrequest hpending]
      exact Nat.le_succ _
  · rw [promoteNextPending_of_request hrequest]

theorem Step.Effect.bounded {S : Type} [InputSource S] {s : Step S} (h : s.Effect)
    (hfits : s.pre.vm.state.guest.ioChannel.Fits)
    (hle : s.pre.vm.state.guest.ioChannel.pending.length ≤ PENDING_IO_QUEUE_CAP) :
    s.post.vm.state.guest.ioChannel.pending.length ≤ PENDING_IO_QUEUE_CAP := by
  cases h with
  | queued action host _ _ _ hpost =>
    rw [hpost]
    rcases s.pre.vm.handleQueueIoAction_cases action host with ⟨-, hsame⟩ | ⟨-, -, hroom, hchan⟩
    · rwa [hsame]
    rw [hchan]
    refine (promoteNextPending_pending_length _).trans ?_
    rw [length_append]
    exact hroom
  | iterated it hvalid hstart _ _ _ hpost =>
    rw [← hstart] at hfits hle
    rw [hpost]
    rcases hvalid.requests hfits with ⟨-, hkept, -⟩ | ⟨-, -, -, hconsumed⟩
    · rwa [hkept.pending]
    rw [hconsumed]
    refine (promoteNextPending_pending_length _).trans ?_
    rwa [← hvalid.requests_exited.pending] at hle
  | forked _ _ _ hpost =>
    rw [hpost]
    exact Nat.zero_le _
  | kept _ _ _ hpost => rwa [hpost.pending]

/-! ## The queue -/

section Histories

variable {ctx ctx' : VmContext} {ts : List VmStep}

theorem History.balanced_iff (hhistory : History ctx ts ctx') (hstays : ∀ t ∈ ts, t.Stays)
    (hfits : ctx.state.guest.ioChannel.Fits) :
    ctx.outstanding ++ ts.flatMap accepted =
        ts.flatMap delivered ++ ctx'.outstanding ↔
      ∀ t ∈ ts, ∀ a ∈ t.accepted, a.data ≠ [] := by
  have hon : ∀ t ∈ ts, t.onBranch.Valid ∧ t.onBranch.accepted = t.accepted ∧
      t.onBranch.delivered = t.delivered :=
    fun t ht => (hhistory.valid t ht).onBranch (hstays t ht)
  have hpath : (ioLedger RecordedInputSource).Path (bareBranch ctx) (ts.map onBranch)
      (bareBranch ctx') :=
    hhistory.walk.ledgerPath (fun _ => rfl) fun _ => rfl
  have hbalanced := ioLedger_balanced_iff hpath
    (forall_mem_map.mpr fun t ht => (hon t ht).1) hfits
  rw [flatMap_map, flatMap_map, forall_mem_map, flatMap_congr fun t ht => (hon t ht).2.1,
    flatMap_congr fun t ht => (hon t ht).2.2] at hbalanced
  exact hbalanced.trans (forall₂_congr fun t ht => onBranch_safe (hon t ht).2.1)

theorem History.bounded (hhistory : History ctx ts ctx') (hstays : ∀ t ∈ ts, t.Stays)
    (hfits : ctx.state.guest.ioChannel.Fits)
    (hle : ctx.state.guest.ioChannel.pending.length ≤ PENDING_IO_QUEUE_CAP) :
    ∀ t ∈ ts, t.post.state.guest.ioChannel.pending.length ≤ PENDING_IO_QUEUE_CAP ∧
      t.post.state.guest.ioChannel.request.length ≤ IO_CHANNEL_BUF_SIZE := by
  obtain ⟨hall, -⟩ := hhistory.walk.invariant
    (I := fun c => c.state.guest.ioChannel.Fits ∧
      c.state.guest.ioChannel.pending.length ≤ PENDING_IO_QUEUE_CAP)
    (fun t ht h =>
      have heffect := ((hhistory.valid t ht).onBranch (hstays t ht)).1.effect
      ⟨heffect.fits h.1, heffect.bounded h.1 h.2⟩)
    ⟨hfits, hle⟩
  intro t ht
  obtain ⟨-, hfits', hle'⟩ := hall t ht
  exact ⟨hle', hfits'.request⟩

/-- As long as no empty action is accepted, actions wait behind an occupied slot only. -/
theorem History.ready (hhistory : History ctx ts ctx') (hstays : ∀ t ∈ ts, t.Stays)
    (hsafe : ∀ t ∈ ts, ∀ a ∈ t.accepted, a.data ≠ [])
    (hfits : ctx.state.guest.ioChannel.Fits) (hready : ctx.state.guest.ioChannel.Ready) :
    (∀ t ∈ ts, t.post.state.guest.ioChannel.Ready) ∧
      ctx'.state.guest.ioChannel.Fits ∧ ctx'.state.guest.ioChannel.Ready := by
  obtain ⟨hall, hend⟩ := hhistory.walk.invariant
    (I := fun c => c.state.guest.ioChannel.Fits ∧ c.state.guest.ioChannel.Ready)
    (fun t ht h =>
      have hon := (hhistory.valid t ht).onBranch (hstays t ht)
      ⟨hon.1.effect.fits h.1,
        hon.1.effect.ready ((onBranch_safe hon.2.1).mpr (hsafe t ht)) h.1 h.2⟩)
    ⟨hfits, hready⟩
  exact ⟨fun t ht => (hall t ht).2.2, hend⟩

/-- Along every history of a VM whose channel starts empty, the accepted actions are the
ones delivered and the ones that still wait, in this order, actions wait behind an
occupied slot only and GET_REQUEST returns the first of them, exactly if no accepted
action is empty.  The bounds hold in any case. -/
theorem io_channel_fifo_iff (hhistory : History ctx ts ctx') (hstays : ∀ t ∈ ts, t.Stays)
    (hrequest : ctx.state.guest.ioChannel.request = [])
    (hpending : ctx.state.guest.ioChannel.pending = []) :
    ((ts.flatMap VmStep.accepted = ts.flatMap VmStep.delivered ++ ctx'.outstanding ∧
        (∀ t ∈ ts, t.post.state.guest.ioChannel.pending ≠ [] →
          t.post.state.guest.ioChannel.request ≠ []) ∧
        ∀ it : Iteration, it.Valid → it.start = ctx' → it.exited.getsRequest = true →
          it.done.state.guest.gprs.rax ≠ VMCALL_FAILED →
          it.delivered = ctx'.outstanding.take 1) ↔
      ∀ t ∈ ts, ∀ a ∈ t.accepted, a.data ≠ []) ∧
    ∀ t ∈ ts, t.post.state.guest.ioChannel.pending.length ≤ PENDING_IO_QUEUE_CAP ∧
      t.post.state.guest.ioChannel.request.length ≤ IO_CHANNEL_BUF_SIZE := by
  have hfits : ctx.state.guest.ioChannel.Fits := by
    constructor
    · rw [hrequest]
      exact Nat.zero_le _
    · simp [hpending]
  have hready : ctx.state.guest.ioChannel.Ready := ⟨fun _ => hpending, by simp [hpending]⟩
  have hbalanced := hhistory.balanced_iff hstays hfits
  rw [show ctx.outstanding = [] from hready.outstanding_eq_nil hrequest, List.nil_append] at hbalanced
  refine ⟨?_, hhistory.bounded hstays hfits (by rw [hpending]; exact Nat.zero_le _)⟩
  rw [hbalanced]
  refine and_iff_left_of_imp fun hsafe => ?_
  obtain ⟨hall, hfits', hready'⟩ := hhistory.ready hstays hsafe hfits hready
  refine ⟨fun t ht hwait hfree => hwait ((hall t ht).slot hfree), ?_⟩
  intro it hit hstart hgets hrax
  rw [← hstart] at hfits' hready' ⊢
  exact hit.delivered_eq hfits' hready' hgets hrax

end Histories

def VmStep.getRequest (pre : VmContext) : VmStep :=
  .simulate .ioctl pre fun ctx => ctx.exitWith 1 (fun
    | .vmExitReason => 18
    | _ => 0) 5 0

theorem VmStep.getRequest_valid {pre : VmContext} (h : (pre.enter .ioctl).1.isOk) :
    (getRequest pre).Valid :=
  simulate_valid h (ran_exitWith _ _ _ _ _)

def queuedByte : VmStep :=
  .call listeningBranch.vm (.queueIoAction ⟨0, [1]⟩ {})

/-- One byte is queued and delivered. -/
theorem io_channel_fifo_byte :
    let ts := [queuedByte, .getRequest queuedByte.post]
    ts.flatMap VmStep.accepted =
      ts.flatMap VmStep.delivered ++ (VmStep.getRequest queuedByte.post).post.outstanding := by
  have henter : (queuedByte.post.enter .ioctl).1.isOk = true := by decide +kernel
  have haccepted : ∀ a ∈ queuedByte.accepted, a.data ≠ [] := by decide +kernel
  have hvalid : queuedByte.Valid := VmStep.call_valid _ _
  have hstays : queuedByte.Stays := trivial
  have hpre : queuedByte.pre = listeningBranch.vm := rfl
  generalize queuedByte = queued at *
  have hhistory : History listeningBranch.vm [queued, .getRequest queued.post]
      (VmStep.getRequest queued.post).post := by
    refine ⟨⟨hpre, rfl, rfl⟩, ?_⟩
    simp only [List.forall_mem_cons]
    exact ⟨hvalid, VmStep.getRequest_valid henter, List.forall_mem_nil _⟩
  refine ((io_channel_fifo_iff hhistory ?_ rfl rfl).1.mpr ?_).1
  · simp only [List.forall_mem_cons]
    exact ⟨hstays, trivial, List.forall_mem_nil _⟩
  · simp only [List.forall_mem_cons]
    exact ⟨haccepted, List.forall_mem_nil _, List.forall_mem_nil _⟩

def queuedEmpty : VmStep :=
  .call queuedByte.post (.queueIoAction ⟨0, []⟩ {})

def queuedLast : VmStep :=
  .call queuedEmpty.post (.queueIoAction ⟨0, [2]⟩ {})

/-- All three actions are accepted.  The first GET_REQUEST returns the first byte and puts
the empty action in the slot, the second one returns that there is no request, while
the last byte waits. -/
theorem empty_action_blocks_queue :
    let first := VmStep.getRequest queuedLast.post
    let second := VmStep.getRequest first.post
    let ts := [queuedByte, queuedEmpty, queuedLast, first, second]
    History listeningBranch.vm ts second.post ∧ (∀ t ∈ ts, t.Stays) ∧
      listeningBranch.vm.state.guest.ioChannel.request = [] ∧
      listeningBranch.vm.state.guest.ioChannel.pending = [] ∧
      ts.flatMap VmStep.accepted = [⟨0, [1]⟩, ⟨0, []⟩, ⟨0, [2]⟩] ∧
      ts.flatMap VmStep.delivered = [⟨0, [1]⟩] ∧
      second.post.state.guest.gprs.rax = 0 ∧
      second.post.state.guest.ioChannel.request = [] ∧
      second.post.state.guest.ioChannel.pending = [⟨0, [2]⟩] := by
  have henter : (queuedLast.post.enter .ioctl).1.isOk = true ∧
      ((VmStep.getRequest queuedLast.post).post.enter .ioctl).1.isOk = true := by decide +kernel
  refine ⟨⟨⟨rfl, rfl, rfl, rfl, rfl, rfl⟩, ?_⟩, ?_, rfl, rfl, by decide +kernel⟩
  · simp only [List.forall_mem_cons]
    exact ⟨VmStep.call_valid _ _, VmStep.call_valid _ _, VmStep.call_valid _ _,
      VmStep.getRequest_valid henter.1, VmStep.getRequest_valid henter.2, List.forall_mem_nil _⟩
  · simp only [List.forall_mem_cons]
    exact ⟨trivial, trivial, trivial, trivial, trivial, List.forall_mem_nil _⟩

end Bedrock
