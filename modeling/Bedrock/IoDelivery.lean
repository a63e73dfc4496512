import Bedrock.ForkContext
import Bedrock.IoRequests
import Bedrock.Support.Ledger

/-!
# I/O actions across forks

An action that QUEUE_IO_ACTION accepts waits in the channel until GET_REQUEST hands
it to the guest.  Nothing else removes it, except a fork: the channel of the child is
empty.  So along a path of runs, ioctls, checkpoints and forks every action is
delivered exactly once and in order, as long as nothing waits when the VM is forked.
-/

namespace Bedrock

open Support IoChannelState VmContext List ForkedVm Branch

variable {S : Type}

/-- What can happen to a branch: QUEUE_IO_ACTION from userspace, `prepare_next_io_input`,
an iteration of the run loop, a RUN that fails before the guest is entered, another
ioctl, progress of virtual time, and a checkpoint from which a branch is taken. -/
inductive Move (S : Type)
  | queue (action : PendingIoAction) (host : QueueHost)
  | prepare (target : VirtTime) (host : QueueHost)
  | iterate (it : Iteration)
  | refused (how : Resume)
  | ioctl (vm : VmContext)
  | advanceTime (now : VirtTime)
  | fork (source : Option S) (host : ForkHost)

/-- A move, between the branch it finds and the branch it leaves. -/
structure Step (S : Type) where
  pre : Branch S
  move : Move S
  post : Branch S

/-- The step is one the code can take; the ioctls meant by `ioctl` are those that do not
touch the requests. -/
def Step.Valid [InputSource S] (s : Step S) : Prop :=
  match s.move with
  | .queue action host =>
    s.post = { s.pre with vm := (s.pre.vm.handleQueueIoAction action host).2 }
  | .prepare target host => s.post = (s.pre.prepareNextIoInput target host).2
  | .iterate it => it.Valid ∧ it.start = s.pre.vm ∧ s.post = { s.pre with vm := it.done }
  | .refused how => (s.pre.vm.enter how).1.isOk = false ∧
    s.post = { s.pre with vm := (s.pre.vm.enter how).2 }
  | .ioctl vm => RequestsKept s.pre.vm vm ∧ s.post = { s.pre with vm }
  | .advanceTime now => s.post = { s.pre with currentTime := now }
  | .fork source host => s.pre.checkpoint.branchInner source host = .ok s.post

def Step.accepted [InputSource S] (s : Step S) : List PendingIoAction :=
  match s.move with
  | .queue action host => s.pre.vm.accepted action host
  | .prepare target host =>
    match s.pre.dueInput target with
    | .inl _ => []
    | .inr (input, b) => b.vm.accepted input.action host
  | _ => []

def Step.delivered (s : Step S) : List PendingIoAction :=
  match s.move with
  | .iterate it => it.delivered
  | _ => []

/-- The step neither accepts an empty action nor forks a VM in which actions wait. -/
def Step.Safe [InputSource S] (s : Step S) : Prop :=
  (∀ a ∈ s.accepted, a.data ≠ []) ∧
    match s.move with
    | .fork _ _ => s.pre.vm.outstanding = []
    | _ => True

/-- Actions wait in the VM of the branch. -/
def ioLedger (S : Type) [InputSource S] : Ledger (Branch S) (Step S) PendingIoAction where
  pre := Step.pre
  post := Step.post
  held b := b.vm.outstanding
  taken := Step.accepted
  handed := Step.delivered

/-! ## What a step does to the channel -/

theorem VmContext.queueIoAction_snd (ctx : VmContext) (action : PendingIoAction) (host : QueueHost) :
    (ctx.queueIoAction action.data action.targetTsc host).2 =
      (ctx.handleQueueIoAction action host).2 := by
  unfold queueIoAction
  split
  · rename_i hlen
    rcases ctx.handleQueueIoAction_cases action host with ⟨-, hsame⟩ | ⟨-, hle, -, -⟩
    · exact hsame.symm
    · omega
  · split
    all_goals
      rename_i heq
      rw [heq]

namespace Branch

variable [InputSource S] (b : Branch S)

@[simp] theorem pullInput_vm : b.pullInput.2.vm = b.vm := by
  unfold pullInput
  split
  · rfl
  · rfl

theorem inputAtHand_vm : b.inputAtHand.2.vm = b.vm := by
  unfold inputAtHand
  split
  · rfl
  · exact b.pullInput_vm

theorem dueInput_vm (target : VirtTime) :
    (∀ r, b.dueInput target = .inl r → r.2.vm = b.vm) ∧
      ∀ input b', b.dueInput target = .inr (input, b') → b'.vm = b.vm := by
  have hvm := b.inputAtHand_vm
  unfold dueInput
  split
  · simp
  split
  · rename_i heq
    rw [heq] at hvm
    simpa using hvm
  rename_i heq
  rw [heq] at hvm
  split
  · simpa using hvm
  split
  · simpa using hvm
  split
  · simpa using hvm
  constructor
  · intro r hr
    cases hr
  intro input b' hr
  cases hr
  exact hvm

theorem stopForNext_vm (target : VirtTime) : (b.stopForNext target).2.vm = b.vm := by
  have hvm := b.pullInput_vm
  unfold stopForNext
  split
  · rename_i heq
    rwa [heq] at hvm
  rename_i heq
  rw [heq] at hvm
  split
  · exact hvm
  · exact hvm

theorem submitInput_vm (input : IoInput) (target : VirtTime) (host : QueueHost) :
    (b.submitInput input target host).2.vm = (b.vm.handleQueueIoAction input.action host).2 := by
  rw [← b.vm.queueIoAction_snd]
  unfold submitInput
  split
  · rename_i heq
    rw [heq, stopForNext_vm]
  all_goals
    rename_i heq
    rw [heq]

end Branch

theorem VmContext.preCowIoChannelPage_guest (ctx : VmContext) :
    ctx.preCowIoChannelPage.state.guest = ctx.state.guest :=
  ctx.preCowIoChannelPage_memory.untouched.guest

theorem ForkedVm.new_ioChannel {parent child : VmContext} {host : ForkHost}
    (h : new parent host = .ok child) :
    child.state.guest.ioChannel = parent.state.guest.ioChannel.cloneForFork := by
  obtain ⟨ept, controls, -, -, rfl⟩ := new_eq h
  rw [preCowIoChannelPage_guest]
  rfl

/-- What a step does: an action is queued, the loop runs once, the VM is forked, or the
requests stay as they are. -/
inductive Step.Effect [InputSource S] (s : Step S) : Prop
  | queued (action : PendingIoAction) (host : QueueHost)
      (haccepted : s.accepted = s.pre.vm.accepted action host) (hdelivered : s.delivered = [])
      (hsafe : s.Safe ↔ ∀ a ∈ s.accepted, a.data ≠ [])
      (hpost : s.post.vm = (s.pre.vm.handleQueueIoAction action host).2)
  | iterated (it : Iteration) (hvalid : it.Valid) (hstart : it.start = s.pre.vm)
      (haccepted : s.accepted = []) (hdelivered : s.delivered = it.delivered) (hsafe : s.Safe)
      (hpost : s.post.vm = it.done)
  | forked (haccepted : s.accepted = []) (hdelivered : s.delivered = [])
      (hsafe : s.Safe ↔ s.pre.vm.outstanding = [])
      (hpost : s.post.vm.state.guest.ioChannel = s.pre.vm.state.guest.ioChannel.cloneForFork)
  | kept (haccepted : s.accepted = []) (hdelivered : s.delivered = []) (hsafe : s.Safe)
      (hpost : RequestsKept s.pre.vm s.post.vm)

theorem Step.Valid.effect [InputSource S] {s : Step S} (h : s.Valid) : s.Effect := by
  obtain ⟨pre, move, post⟩ := s
  cases move with
  | queue action host =>
    refine .queued action host rfl rfl (and_iff_left trivial) ?_
    rw [show post = _ from h]
  | prepare target host =>
    obtain ⟨hreturn, hdue⟩ := pre.dueInput_vm target
    have hpost : post = (pre.prepareNextIoInput target host).2 := h
    cases hinput : pre.dueInput target with
    | inl r =>
      have haccepted : accepted ⟨pre, .prepare target host, post⟩ = [] := by
        simp only [accepted, hinput]
      refine .kept haccepted rfl ⟨by simp [haccepted], trivial⟩ (.of_guest ?_)
      rw [hpost, prepareNextIoInput, hinput]
      exact congrArg (fun vm => vm.state.guest) (hreturn r hinput)
    | inr due =>
      obtain ⟨input, b⟩ := due
      have hvm := hdue input b hinput
      refine .queued input.action host ?_ rfl (and_iff_left trivial) ?_
      · simp only [accepted, hinput, hvm]
      · rw [hpost, prepareNextIoInput, hinput, ← hvm]
        exact b.submitInput_vm input target host
  | iterate it =>
    obtain ⟨hvalid, hstart, hpost⟩ := h
    exact .iterated it hvalid hstart rfl rfl ⟨by simp [accepted], trivial⟩
      (congrArg vm hpost)
  | refused how =>
    obtain ⟨-, hpost⟩ := h
    refine .kept rfl rfl ⟨by simp [accepted], trivial⟩ ?_
    rw [show post = _ from hpost]
    exact pre.vm.enter_requests how
  | ioctl vm =>
    obtain ⟨hkept, hpost⟩ := h
    refine .kept rfl rfl ⟨by simp [accepted], trivial⟩ ?_
    rw [show post = _ from hpost]
    exact hkept
  | advanceTime now =>
    refine .kept rfl rfl ⟨by simp [accepted], trivial⟩ ?_
    rw [show post = _ from h]
    exact .of_guest rfl
  | fork source host =>
    refine .forked rfl rfl (and_iff_right (by simp [accepted])) ?_
    have hfork : pre.checkpoint.branchInner source host = .ok post := h
    unfold Checkpoint.branchInner at hfork
    split at hfork
    · cases hfork
    rename_i vm hnew
    cases hfork
    exact new_ioChannel hnew

theorem VmContext.handleQueueIoAction_outstanding {ctx : VmContext} (action : PendingIoAction)
    (host : QueueHost) (hfits : ctx.state.guest.ioChannel.Fits) :
    (ctx.handleQueueIoAction action host).2.outstanding =
        ctx.outstanding ++ (ctx.accepted action host).filter (·.data ≠ []) ∧
      (ctx.handleQueueIoAction action host).2.state.guest.ioChannel.Fits := by
  rcases ctx.handleQueueIoAction_cases action host with ⟨hnone, hsame⟩ | ⟨hsome, hlen, -, hchan⟩
  · rw [hnone, hsame]
    exact ⟨by simp, hfits⟩
  have hfits' : Fits { ctx.state.guest.ioChannel with
      pending := ctx.state.guest.ioChannel.pending ++ [action] } := by
    refine ⟨hfits.request, fun a ha => ?_⟩
    rcases mem_append.mp ha with hold | hnew
    · exact hfits.pending a hold
    · rw [mem_singleton.mp hnew]
      exact hlen
  refine ⟨?_, hchan ▸ promoteNextPending_fits hfits'⟩
  rw [outstanding, hchan, promoteNextPending_outstanding hfits', hsome, outstanding]
  simp only [IoChannelState.outstanding, filter_append, append_assoc]

theorem VmContext.handleQueueIoAction_ready {ctx : VmContext} {action : PendingIoAction}
    {host : QueueHost} (hready : ctx.state.guest.ioChannel.Ready)
    (hsafe : ∀ a ∈ ctx.accepted action host, a.data ≠ []) :
    (ctx.handleQueueIoAction action host).2.state.guest.ioChannel.Ready := by
  rcases ctx.handleQueueIoAction_cases action host with ⟨-, hsame⟩ | ⟨hsome, -, -, hchan⟩
  · rwa [hsame]
  rw [hchan]
  apply promoteNextPending_ready
  intro a ha
  rcases mem_append.mp ha with hold | hnew
  · exact hready.pending a hold
  · exact hsafe a (hsome ▸ hnew)

namespace Step

variable [InputSource S] {s : Step S}

theorem Effect.fits (h : s.Effect) (hfits : s.pre.vm.state.guest.ioChannel.Fits) :
    s.post.vm.state.guest.ioChannel.Fits := by
  cases h with
  | queued action host _ _ _ hpost =>
    rw [hpost]
    exact (handleQueueIoAction_outstanding action host hfits).2
  | iterated it hvalid hstart _ _ _ hpost =>
    rw [hpost]
    exact hvalid.fits (hstart ▸ hfits)
  | forked _ _ _ hpost =>
    rw [hpost]
    exact ⟨Nat.zero_le _, fun a ha => absurd ha not_mem_nil⟩
  | kept _ _ _ hpost => exact hpost.fits hfits

theorem Effect.ready (h : s.Effect) (hsafe : s.Safe) (hfits : s.pre.vm.state.guest.ioChannel.Fits)
    (hready : s.pre.vm.state.guest.ioChannel.Ready) : s.post.vm.state.guest.ioChannel.Ready := by
  cases h with
  | queued action host haccepted _ hsafe' hpost =>
    rw [hpost]
    exact handleQueueIoAction_ready hready (haccepted ▸ hsafe'.mp hsafe)
  | iterated it hvalid hstart _ _ _ hpost =>
    rw [hpost]
    exact hvalid.ready (hstart ▸ hfits) (hstart ▸ hready)
  | forked _ _ _ hpost =>
    rw [hpost]
    exact ⟨fun _ => rfl, fun a ha => absurd ha not_mem_nil⟩
  | kept _ _ _ hpost => exact hpost.ready hready

theorem Effect.ledger (h : s.Effect) (hfits : s.pre.vm.state.guest.ioChannel.Fits) :
    (s.Safe → (ioLedger S).Balances s) ∧ (¬s.Safe → (ioLedger S).Loses s) := by
  cases h with
  | queued action host haccepted hdelivered hsafe hpost =>
    obtain ⟨hqueue, -⟩ := handleQueueIoAction_outstanding action host hfits
    rw [← hpost, ← haccepted] at hqueue
    rw [hsafe]
    constructor
    · intro hnonempty
      have hall : s.accepted.filter (·.data ≠ []) = s.accepted :=
        filter_eq_self.mpr fun a ha => decide_eq_true (hnonempty a ha)
      rw [hall] at hqueue
      simp only [Ledger.Balances, ioLedger, hdelivered, hqueue, nil_append]
    · intro hempty
      have hlt : (s.accepted.filter (·.data ≠ [])).length < s.accepted.length := by
        refine Nat.lt_of_le_of_ne (length_filter_le _ _) fun heq => hempty ?_
        intro a ha
        exact of_decide_eq_true (length_filter_eq_length_iff.mp heq a ha)
      simp only [Ledger.Loses, ioLedger, hdelivered, hqueue, length_append, length_nil]
      omega
  | iterated it hvalid hstart haccepted hdelivered hsafe hpost =>
    refine ⟨fun _ => ?_, fun hunsafe => absurd hsafe hunsafe⟩
    have houtstanding := hvalid.outstanding (hstart ▸ hfits)
    simp only [Ledger.Balances, ioLedger, haccepted, hdelivered, hpost, append_nil]
    rw [← hstart]
    exact houtstanding
  | forked haccepted hdelivered hsafe hpost =>
    have hchild : s.post.vm.outstanding = [] := by
      rw [VmContext.outstanding, hpost]
      rfl
    rw [hsafe]
    constructor
    · intro hnone
      simp only [Ledger.Balances, ioLedger, haccepted, hdelivered, hnone, hchild]
    intro hsome
    have hpos := length_pos_iff.mpr hsome
    simp only [Ledger.Loses, ioLedger, haccepted, hdelivered, hchild, length_nil]
    omega
  | kept haccepted hdelivered hsafe hpost =>
    refine ⟨fun _ => ?_, fun hunsafe => absurd hsafe hunsafe⟩
    simp only [Ledger.Balances, ioLedger, haccepted, hdelivered, append_nil, nil_append]
    exact hpost.outstanding.symm

end Step

/-! ## Exactly once -/

section Paths

variable [InputSource S] {start last : Branch S} {steps : List (Step S)}

/-- A path balances exactly if each of its steps is safe. -/
theorem ioLedger_balanced_iff (hpath : (ioLedger S).Path start steps last)
    (hvalid : ∀ s ∈ steps, s.Valid) (hfits : start.vm.state.guest.ioChannel.Fits) :
    start.vm.outstanding ++ steps.flatMap Step.accepted =
        steps.flatMap Step.delivered ++ last.vm.outstanding ↔
      ∀ s ∈ steps, s.Safe := by
  obtain ⟨hpre, -⟩ := hpath.invariant (I := fun b => b.vm.state.guest.ioChannel.Fits)
    (fun s hs => (hvalid s hs).effect.fits) hfits
  have hledger : ∀ s ∈ steps,
      (s.Safe → (ioLedger S).Balances s) ∧ (¬s.Safe → (ioLedger S).Loses s) :=
    fun s hs => (hvalid s hs).effect.ledger (hpre s hs)
  have hsteps : ∀ s ∈ steps, (ioLedger S).Balances s ∨ (ioLedger S).Loses s := by
    intro s hs
    by_cases hsafe : s.Safe
    · exact .inl ((hledger s hs).1 hsafe)
    · exact .inr ((hledger s hs).2 hsafe)
  constructor
  · intro hbalanced s hs
    by_contra hunsafe
    exact (hpath.balanced_iff hsteps).mp hbalanced s hs ((hledger s hs).2 hunsafe)
  · intro hsafe
    exact hpath.balanced fun s hs => (hledger s hs).1 (hsafe s hs)

/-- Along a path every action that waited or was accepted is delivered once, in order, with
its bytes and its target, or still waits, and a GET_REQUEST that does not fail delivers
the next one; exactly if no step accepts an empty action or forks while actions wait. -/
theorem io_actions_delivered_iff (hpath : (ioLedger S).Path start steps last)
    (hvalid : ∀ s ∈ steps, s.Valid) (hfits : start.vm.state.guest.ioChannel.Fits)
    (hready : start.vm.state.guest.ioChannel.Ready) :
    (start.vm.outstanding ++ steps.flatMap Step.accepted =
        steps.flatMap Step.delivered ++ last.vm.outstanding ∧
      ∀ it : Iteration, it.Valid → it.start = last.vm → it.exited.getsRequest = true →
        it.done.state.guest.gprs.rax ≠ VMCALL_FAILED →
        it.delivered = last.vm.outstanding.take 1) ↔
    ∀ s ∈ steps, s.Safe := by
  rw [ioLedger_balanced_iff hpath hvalid hfits]
  refine and_iff_left_of_imp fun hsafe it hit hstart hgets hrax => ?_
  obtain ⟨-, hfits', hready'⟩ := hpath.invariant (I := fun b =>
      b.vm.state.guest.ioChannel.Fits ∧ b.vm.state.guest.ioChannel.Ready)
    (fun s hs h => ⟨(hvalid s hs).effect.fits h.1,
      (hvalid s hs).effect.ready (hsafe s hs) h.1 h.2⟩) ⟨hfits, hready⟩
  rw [← hstart] at hfits' hready' ⊢
  exact hit.delivered_eq hfits' hready' hgets hrax

end Paths

def listeningBranch : Branch RecordedInputSource :=
  let vm := zeroVm (.root (zeroRegion 8192 (by decide)))
  { vm := vm.setGuest { vm.state.guest with ioChannel := { pageGpa := 4096 } }
    currentTime := ⟨0, 1⟩
    tscFrequency := 1
    inputSource := some { ioInputs := [⟨⟨0, 1⟩, .host, "", false⟩] }
    pendingInputIo := none
    inputIoExhausted := false }

theorem listeningBranch_fits : listeningBranch.vm.state.guest.ioChannel.Fits :=
  ⟨Nat.zero_le _, fun _ ha => absurd ha not_mem_nil⟩

theorem listeningBranch_ready : listeningBranch.vm.state.guest.ioChannel.Ready :=
  ⟨fun _ => rfl, fun _ ha => absurd ha not_mem_nil⟩

/-- `prepare_next_io_input` as a step. -/
def Branch.prepareStep [InputSource S] (b : Branch S) (target : VirtTime) : Step S :=
  ⟨b, .prepare target {}, (b.prepareNextIoInput target {}).2⟩

def Branch.getIteration (b : Branch S) : Iteration :=
  .simulate .ioctl b.vm fun ctx => ctx.exitWith 1 (fun
    | .vmExitReason => 18
    | _ => 0) 5 0

def Branch.getStep (b : Branch S) : Step S :=
  ⟨b, .iterate b.getIteration, { b with vm := b.getIteration.done }⟩

/-- A checkpoint of the branch, and the branch on `child` taken from it. -/
def Branch.forkStep (b : Branch S) (child : VmContext) : Step S :=
  ⟨b, .fork b.inputSource bareFork, { b with vm := child }⟩

section Steps

variable [InputSource S] (b : Branch S)

theorem Branch.prepareStep_valid (target : VirtTime) : (b.prepareStep target).Valid :=
  rfl

theorem Branch.getStep_valid (h : (b.vm.enter .ioctl).1.isOk) : b.getStep.Valid :=
  ⟨Iteration.simulate_valid h (ran_exitWith _ _ _ _ _), rfl, rfl⟩

theorem Branch.forkStep_valid {child : VmContext} (h : new b.vm bareFork = .ok child) :
    (b.forkStep child).Valid := by
  simp only [Step.Valid, forkStep, Checkpoint.branchInner, checkpoint, h]

end Steps

def queueStep : Step RecordedInputSource :=
  listeningBranch.prepareStep ⟨9, 1⟩

/-- The input is queued, delivered, and then the branch is forked. -/
theorem io_actions_delivered_fork :
    ∃ child, let steps := [queueStep, queueStep.post.getStep, queueStep.post.getStep.post.forkStep child]
      (∀ s ∈ steps, s.Valid) ∧ listeningBranch.vm.outstanding ++ steps.flatMap Step.accepted =
        steps.flatMap Step.delivered ++ child.outstanding := by
  have henter : (queueStep.post.vm.enter .ioctl).1.isOk = true := by decide +kernel
  have haccepted : ∀ a ∈ queueStep.accepted, a.data ≠ [] := by decide +kernel
  have hwaiting : queueStep.post.getStep.post.vm.outstanding = [] := by decide +kernel
  obtain ⟨child, hchild⟩ := fork_succeeds queueStep.post.getStep.post.vm (by decide +kernel)
  have hqueued : queueStep.Valid := listeningBranch.prepareStep_valid ⟨9, 1⟩
  have hpre : queueStep.pre = listeningBranch := rfl
  have hmove : queueStep.move = .prepare ⟨9, 1⟩ {} := rfl
  generalize queueStep = queued at *
  have hvalid : ∀ s ∈ [queued, queued.post.getStep, queued.post.getStep.post.forkStep child],
      s.Valid := by
    simp only [List.forall_mem_cons]
    exact ⟨hqueued, queued.post.getStep_valid henter, Branch.forkStep_valid _ hchild,
      List.forall_mem_nil _⟩
  have hsafe : ∀ s ∈ [queued, queued.post.getStep, queued.post.getStep.post.forkStep child],
      s.Safe := by
    simp only [List.forall_mem_cons]
    exact ⟨⟨haccepted, by rw [hmove]; trivial⟩, ⟨List.forall_mem_nil _, trivial⟩,
      ⟨List.forall_mem_nil _, hwaiting⟩, List.forall_mem_nil _⟩
  have hpath : (ioLedger RecordedInputSource).Path listeningBranch
      [queued, queued.post.getStep, queued.post.getStep.post.forkStep child]
      { queued.post.getStep.post with vm := child } :=
    ⟨hpre, rfl, rfl, rfl⟩
  exact ⟨child, hvalid, ((io_actions_delivered_iff hpath hvalid
    listeningBranch_fits listeningBranch_ready).mpr hsafe).1⟩

/-- Forked while the input still waits, the branch has lost it: it was accepted and not
delivered, and the child has nothing to deliver. -/
theorem fork_drops_io_action :
    ∃ child, (ioLedger RecordedInputSource).Path listeningBranch
        [queueStep, queueStep.post.forkStep child] { queueStep.post with vm := child } ∧
      queueStep.Valid ∧ (queueStep.post.forkStep child).Valid ∧
      queueStep.accepted.length = 1 ∧ queueStep.delivered = [] ∧
      (queueStep.post.forkStep child).delivered = [] ∧ child.outstanding = [] := by
  have haccepted : queueStep.accepted.length = 1 := by decide +kernel
  have hdelivered : queueStep.delivered = [] := rfl
  have hqueued : queueStep.Valid := listeningBranch.prepareStep_valid ⟨9, 1⟩
  have hpre : queueStep.pre = listeningBranch := rfl
  obtain ⟨child, hchild⟩ := fork_succeeds queueStep.post.vm (by decide +kernel)
  generalize queueStep = queued at *
  refine ⟨child, ⟨hpre, rfl, rfl⟩, hqueued, Branch.forkStep_valid _ hchild, haccepted, hdelivered,
    rfl, ?_⟩
  rw [VmContext.outstanding, ForkedVm.new_ioChannel hchild]
  rfl

end Bedrock
