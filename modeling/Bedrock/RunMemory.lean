import Bedrock.FeedbackMapping
import Bedrock.History

/-!
# The run loop as operations on memory

Every step of a history is a sequence of operations on memory, or a fork.  What the
operations keep therefore holds however a VM is run.
-/

namespace Bedrock

open Support Built Relation VmContext

variable {a b ctx ctx' : VmContext} {α ε : Type} {f : VmContext → α × VmContext}

/-- Operations lead from one context to the other. -/
abbrev Operated := ReflTransGen CowOp

theorem Elsewhere.ops (h : Elsewhere a b) : Operated a b :=
  .single (.elsewhere h)

theorem EventsOnly.elsewhere (h : EventsOnly a b) : Elsewhere a b := by
  obtain ⟨_, _, _, _, hpebs, _, rfl⟩ := h
  exact ⟨rfl, congrArg (Option.map _) hpebs, .refl _⟩

theorem GuestAction.elsewhere (h : GuestAction α f) (ctx : VmContext) : Elsewhere ctx (f ctx).2 := by
  cases h with
  | interruptWindow on =>
    obtain ⟨_, h⟩ := setInterruptWindowExiting_state ctx on
    rw [h]
    exact ⟨rfl, rfl, .refl _⟩
  | writeMemory gpa bytes => exact ⟨rfl, rfl, writeGuestMemory_guestStores _ _ _⟩
  | emit e => exact (e.run_events ctx).elsewhere
  | _ => exact ⟨rfl, rfl, .refl _⟩

theorem EntryAction.ops (h : EntryAction α f) (ctx : VmContext) : Operated ctx (f ctx).2 := by
  cases h with
  | guest h => exact (h.elsewhere ctx).ops
  | lastExitDeterministic => exact .refl
  | arm =>
    apply Elsewhere.ops
    grind [VmContext.armForNextIteration, pebsPage, armPreciseExit, disarmPreciseExit, Elsewhere,
      GuestStores.refl]

instance (priority := low) {m : Program ε VmContext α} [h : Built GuestAction m] : Obeys Operated m :=
  h.mono fun _ hf ctx => (hf.elsewhere ctx).ops

instance (c : CapturePoint) : Obeys Operated (capture c : Program ε VmContext _) :=
  .act fun ctx => (c.run_events ctx).elsewhere.ops

instance (gpa : Nat) : Obeys Operated (handleCowFault gpa : Program ε VmContext _) :=
  .act fun _ => .single (.cowFault gpa)

theorem ensurePagesWritable_ops (rounds : Nat) (gva : UInt64) (len : Nat) :
    Obeys Operated (ensurePagesWritable rounds gva len) := by
  induction rounds generalizing gva len with
  | zero => exact .pure _
  | succ rounds ih =>
    unfold ensurePagesWritable
    infer_instance

theorem handleVmcall_ops : Obeys Operated handleVmcall := by
  have hpebs : ∀ va, Obeys Operated (registerPebsPage va) := fun va =>
    .call fun _ => .single (.registerPebs va)
  have hpreCow : Obeys Operated (preCowIoChannelPage : Handler _) := .act fun _ => .single .preCow
  have hconsume : Obeys Operated (consumeIoRequest : Handler _) :=
    .act fun _ => Elsewhere.ops ⟨rfl, rfl, .refl _⟩
  have hpages := ensurePagesWritable_ops
  have hseeded : ∀ gva len pid, Obeys Operated (getRandomSeeded gva len pid) := by
    intro gva len pid
    unfold getRandomSeeded ensureGuestWritable
    infer_instance
  have hstaged : ∀ random, Obeys Operated (getRandomStaged random) := by
    intro random
    unfold getRandomStaged ensureGuestWritable
    infer_instance
  unfold handleVmcall vmcallShutdown vmcallSnapshot vmcallRegisterPebsPage vmcallIoRegisterPage
    vmcallIoGetRequest vmcallGetRandom
  refine .bind inferInstance fun g => ?_
  split
  all_goals infer_instance

theorem dispatch_ops (reason : ExitReason) (qual : UInt64) :
    Obeys Operated (dispatch reason qual) := by
  have hvmcall := handleVmcall_ops
  have hidle : Obeys Operated handleIdle := by
    refine .bind (.act fun ctx => ?_) inferInstance
    obtain ⟨clock, hwake⟩ := ctx.advanceToWake_setClock
    rw [hwake]
    exact Elsewhere.ops ⟨rfl, rfl, .refl _⟩
  have hpebs : Obeys Operated Bedrock.handlePebsPreciseExit := by
    refine .act fun ctx => Elsewhere.ops ?_
    grind [VmContext.handlePebsPreciseExit, pebsPage, Elsewhere, GuestStores.refl]
  have htimer : Obeys Operated resetPreemptionTimer :=
    .bind (.act fun _ => Elsewhere.ops ⟨rfl, rfl, .refl _⟩) inferInstance
  unfold dispatch handleEptViolation handleCowViolation
  split
  all_goals infer_instance

theorem Operated.frames : Frames Operated where
  refl _ := .refl
  trans := .trans
  events h := h.elsewhere.ops
  interceptPf _ := Elsewhere.ops ⟨rfl, rfl, .refl _⟩
  trapFlag ctx := by
    obtain ⟨_, _, h⟩ := ctx.updateMtfState_eq
    rw [h]
    exact Elsewhere.ops ⟨rfl, rfl, .refl _⟩
  begin _ _ := Elsewhere.ops ⟨rfl, rfl, .refl _⟩

theorem enter_ops (ctx : VmContext) (how : Resume) : Operated ctx (ctx.enter how).2 :=
  Operated.frames.enter (rel (A := EntryAction) (fun _ => .refl) .trans (fun _ h => h.ops)
    inferInstance) ctx how

theorem Iteration.Valid.ops {it : Iteration} (h : it.Valid) : Operated it.start it.done := by
  have henter := enter_ops it.start it.how
  have hleave := Operated.frames.leave
    (fun reason qual => (dispatch_ops reason qual).keeping (fun _ => .refl) .trans) it.exited
  rw [h.enter] at henter
  rw [h.leave] at hleave
  have hran : Elsewhere it.entered it.exited :=
    ⟨h.ran.ept, by rw [pebsPage, h.ran.precise, pebsPage], h.ran.memory⟩
  exact (henter.trans hran.ops).trans hleave

theorem VmStep.Valid.ops {t : VmStep} (h : t.Valid) :
    Operated t.pre t.post ∨ ∃ host, t.label = .fork host ∧ ForkedVm.new t.pre host = .ok t.post := by
  cases h with
  | iterate hvalid => exact .inl hvalid.ops
  | abort ctx how point =>
    refine .inl ?_
    cases point with
    | load =>
      dsimp only [VmContext.abort]
      split
      · exact Operated.frames.clear ctx
      · exact .refl
    | start => exact Operated.frames.resume ctx how
    | entry => exact enter_ops ctx how
  | ioctl ctx call =>
    refine .inl (Elsewhere.ops ?_)
    have heffect := ctx.ioctl_effect call
    dsimp only
    generalize (ctx.ioctl call).2 = after at heffect ⊢
    cases heffect
    all_goals exact ⟨rfl, rfl, .refl _⟩
  | store hstores => exact .inl (Elsewhere.ops ⟨rfl, rfl, hstores⟩)
  | fork hfork => exact .inr ⟨_, rfl, hfork⟩

/-- However a VM comes about and is run, its page table and its copied pages agree: a fork
can write only its own copies. -/
theorem history_coherent {ts : List VmStep} (hctx : VmReached ctx) (h : History ctx ts ctx') :
    Coherent ctx' := by
  refine VmReached.coherent (h.walk.invariant (fun t ht hpre => ?_) hctx).2
  rcases (h.valid t ht).ops with hops | ⟨host, -, hfork⟩
  · exact hpre.of_ops hops
  · exact hpre.fork hfork

theorem history_coherent_onePage : Coherent onePageFork := by
  obtain ⟨parent, host, hparent, -, -, hfork⟩ := onePageFork_spec
  have hhistory : History parent [⟨parent, .fork host, onePageFork⟩] onePageFork :=
    ⟨⟨rfl, rfl⟩, List.forall_mem_singleton.mpr (.fork hfork)⟩
  exact history_coherent hparent hhistory

/-- A VM that runs keeps what it maps, and the frames it shares with userspace stay those
the guest uses. -/
theorem history_keeps_frames {ts : List VmStep} (hctx : VmReached ctx) (h : History ctx ts ctx')
    (hfork : ∀ t ∈ ts, ∀ host, t.label ≠ .fork host) :
    (∀ g, (ctx'.state.ept.lookup g).isSome = (ctx.state.ept.lookup g).isSome) ∧
      ∀ g frame, ctx.Owns g frame → ctx'.Owns g frame := by
  have hops : Operated ctx ctx' := by
    refine (h.walk.invariant (I := Operated ctx) (fun t ht hpre => ?_) .refl).2
    rcases (h.valid t ht).ops with hops | ⟨host, hlabel, -⟩
    · exact hpre.trans hops
    · exact absurd hlabel (hfork t ht host)
  refine ⟨(advance_of_ops hops).mapped, ?_⟩
  rintro g frame ⟨hcopy, perms, hleaf⟩
  exact hctx.owns hops hcopy (by rw [hleaf]; rfl)

theorem history_keeps_frames_onePage :
    let ctx := (feedbackFork [some ⟨spareFrame, true⟩]).cowFeedbackBufferForMapping 0
    (VmStep.call ctx (.setRdrandValue 0 true)).post.Owns 0 spareFrame := by
  intro ctx
  have hhistory : History ctx [VmStep.call ctx (.setRdrandValue 0 true)] _ :=
    ⟨⟨rfl, rfl⟩, List.forall_mem_singleton.mpr (VmStep.call_valid _ _)⟩
  have hreached : VmReached ctx := .op (feedbackFork_reached _) (.feedback 0)
  apply (history_keeps_frames hreached hhistory (by simp [VmStep.call])).2
  exact ⟨by decide +kernel, .READ_WRITE_EXECUTE, by decide +kernel⟩

end Bedrock
