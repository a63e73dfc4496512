import Bedrock.Handled
import Bedrock.TrapFlag

/-!
# Exits the guest cannot notice

An exit classified as non-deterministic is handled without a change to the view, and the
entry that follows changes it only to deliver an interrupted event again.  Entries depend
on the view and on the classification of the last exit.
-/

namespace Bedrock

open Support Program VmcsTable VmContext

/-! ## Handling the exit -/

namespace VmContext

def isGuestException (ctx : VmContext) (reason : ExitReason) : Bool :=
  reason = .exceptionNmi &&
    (InterruptionInfo.ofRaw
      (ctx.state.vmcs.fields.value .vmExitInterruptionInfo)).interruptionType ≠ .nmi

def ExitsDeterministically (ctx : VmContext) : Prop :=
  ∃ reason qual, ctx.exitInfo = .ok (reason, qual) ∧
    ctx.state.nonDeterministicExit reason qual = false

/-- The exit is classified as non-deterministic and is not an exception of the guest. -/
def ExitsUnnoticed (ctx : VmContext) : Prop :=
  ∃ reason qual, ctx.exitInfo = .ok (reason, qual) ∧
    ctx.state.nonDeterministicExit reason qual = true ∧ ctx.isGuestException reason = false

theorem handleCowFault_view (ctx : VmContext) (gpa : Nat) :
    (ctx.handleCowFault gpa).2.view = ctx.view := by
  unfold handleCowFault
  split
  · rfl
  rename_i cow parent hmem
  split
  · rfl
  rename_i hnew
  have hcopy := (copyPage_spec hmem (Bool.eq_false_iff.mpr hnew)).view
  split
  all_goals
    rename_i heq
    rw [heq] at hcopy
    exact hcopy

end VmContext

variable {ctx b a : VmContext}

theorem handleEptViolation_view {qual : EptViolationQualification} (h : isPebsInduced qual ∨
      (isApicGpa (ctx.state.vmcs.fields.readOrZero .guestPhysicalAddr).toNat ||
        isIoApicGpa (ctx.state.vmcs.fields.readOrZero .guestPhysicalAddr).toNat) = false) :
    (handleEptViolation qual ctx).2.view = ctx.view := by
  unfold handleEptViolation
  split
  · exact congrArg HostView.view ctx.handlePebsPreciseExit_hostView
  rename_i hpebs
  rw [bind_ok (readFieldOrZero_apply _ _)]
  have hgpa := h.resolve_left hpebs
  rw [Bool.or_eq_false_iff] at hgpa
  rw [hgpa.1, hgpa.2, if_neg Bool.false_ne_true, if_neg Bool.false_ne_true]
  split
  · exact ctx.handleCowFault_view _
  · rfl

theorem handleExceptionNmi_view (h : ctx.isGuestException .exceptionNmi = false) :
    (handleExceptionNmi ctx).2.view = ctx.view := by
  unfold handleExceptionNmi orError readField readVmcs
  rw [bind_apply]
  unfold mapExit
  rw [act_bind]
  cases hread : ctx.state.vmcs.fields.read .vmExitInterruptionInfo with
  | error e => rfl
  | ok raw =>
    have hnmi : (InterruptionInfo.ofRaw raw).interruptionType = .nmi := by
      rw [← value_of_read hread]
      simpa [isGuestException] using h
    simp only [check, pure_apply]
    rw [if_pos hnmi]
    rfl

theorem dispatch_view {reason : ExitReason} {qual : UInt64}
    (hnon : ctx.state.nonDeterministicExit reason qual)
    (hexc : ctx.isGuestException reason = false) : (dispatch reason qual ctx).2.view = ctx.view := by
  have hcall : ∀ handler : Handler ExitHandlerResult, (handler ctx).2.view = ctx.view →
      (call handler ctx).2.view = ctx.view := by
    intro handler h
    rw [call_state]
    exact h
  unfold VmState.nonDeterministicExit at hnon
  split at hnon
  · rfl
  · have htimer : (ctx.writeControl .vmxPreemptionTimerValue 0x100000).2.view = ctx.view :=
      congrArg HostView.view (ctx.writeControl_hostView _ (by decide))
    have hdispatch : dispatch .vmxPreemptionTimer qual = (do
        resetPreemptionTimer
        pure (.exitToUserspace .vmxPreemptionTimer)) := rfl
    rw [hdispatch, bind_apply]
    unfold resetPreemptionTimer
    rw [act_bind]
    cases (ctx.writeControl .vmxPreemptionTimerValue 0x100000).1 with
    | error e | ok _ => exact htimer
  · exact hcall _ (handleExceptionNmi_view hexc)
  · refine hcall _ (handleEptViolation_view ?_)
    split at hnon
    · rename_i hpebs
      exact .inl hpebs
    · rw [Bool.not_eq_true'] at hnon
      exact .inr hnon
  · rfl
  · cases hnon

namespace VmContext

theorem handleExit_view (h : ctx.ExitsUnnoticed) : ctx.handleExit.2.view = ctx.view := by
  obtain ⟨reason, qual, hinfo, hnon, hexc⟩ := h
  have hdispatch : (dispatch reason qual (ctx.beginExit false)).2.view = (ctx.beginExit false).view :=
    dispatch_view hnon hexc
  have hexit := congrArg HostView.view (handleExit_hostView hinfo)
  rw [hnon] at hexit
  exact hexit.trans hdispatch

theorem finishExit_deterministic (ctx : VmContext) (reason : ExitReason) (qual : UInt64)
    (deterministic : Bool) (result : ExitHandlerResult) :
    (ctx.finishExit reason qual deterministic result).2.state.lastExitDeterministic =
      ctx.state.lastExitDeterministic := by
  have hmtf : ctx.updateMtfState.2.state.lastExitDeterministic =
      ctx.state.lastExitDeterministic := by
    obtain ⟨_, _, h⟩ := ctx.updateMtfState_eq
    rw [h]
  unfold finishExit
  split
  · rename_i heq
    rw [heq] at hmtf
    exact hmtf
  rename_i updated heq
  rw [heq] at hmtf
  split
  · exact updated.captureExitAtShutdown_events.kept.deterministic.trans hmtf
  have hcapture := (updated.captureExit_events reason qual deterministic).kept.deterministic
  dsimp only
  split
  all_goals exact hcapture.trans hmtf

theorem dispatch_deterministic (reason : ExitReason) (qual : UInt64) (ctx : VmContext) :
    (dispatch reason qual ctx).2.state.lastExitDeterministic = ctx.state.lastExitDeterministic :=
  dispatch_rel (R := fun before after : VmContext =>
      after.state.lastExitDeterministic = before.state.lastExitDeterministic)
    (fun hab hbc => hbc.trans hab) (fun _ _ => rfl) Kept.deterministic reason qual ctx

theorem handleExit_deterministic {reason : ExitReason} {qual : UInt64}
    (hinfo : ctx.exitInfo = .ok (reason, qual)) :
    ctx.handleExit.2.state.lastExitDeterministic = !ctx.state.nonDeterministicExit reason qual := by
  have hdispatch := dispatch_deterministic reason qual
    (ctx.beginExit !ctx.state.nonDeterministicExit reason qual)
  unfold handleExit
  rw [hinfo]
  dsimp only
  split
  · rename_i heq
    rw [heq] at hdispatch
    exact hdispatch
  rename_i heq
  rw [heq] at hdispatch
  rw [finishExit_deterministic]
  exact hdispatch

theorem leave_deterministic {reason : ExitReason} {qual : UInt64}
    (hinfo : ctx.exitInfo = .ok (reason, qual)) :
    ctx.leave.2.state.lastExitDeterministic = !ctx.state.nonDeterministicExit reason qual := by
  rw [← handleExit_deterministic hinfo]
  unfold leave
  split
  · rename_i heq
    rw [heq]
  rename_i heq
  rw [heq]
  exact (finalizeExitRecord_events _).kept.deterministic

end VmContext

/-! ## The entry that follows -/

/-- What an entry after such an exit does: it writes an interrupted event back. -/
structure Reinjected (ctx ctx' : VmContext) (fields : VmcsTable VmcsField) : Prop where
  state : ctx' = ctx.setVmcs { ctx.state.vmcs with fields }
  readFault : fields.readFault = ctx.state.vmcs.fields.readFault
  writeFault : fields.writeFault = ctx.state.vmcs.fields.writeFault
  value : ∀ field, field ≠ .vmEntryInterruptionInfo → field ≠ .vmEntryExceptionErrorCode →
    fields.value field = ctx.state.vmcs.fields.value field
  event : fields.value .vmEntryInterruptionInfo =
      ctx.state.vmcs.fields.value .vmEntryInterruptionInfo ∨
    bitSet (ctx.state.vmcs.fields.value .idtVectoringInfo) 31 = true ∧
      fields.value .vmEntryInterruptionInfo = ctx.state.vmcs.fields.value .idtVectoringInfo

theorem Reinjected.refl (ctx : VmContext) : Reinjected ctx ctx ctx.state.vmcs.fields :=
  ⟨rfl, rfl, rfl, fun _ _ _ => rfl, .inl rfl⟩

/-- The interrupted event is queued. -/
theorem Reinjected.queue (hvalid : bitSet (ctx.state.vmcs.fields.value .idtVectoringInfo) 31) :
    Reinjected ctx (ctx.writeVmcs .vmEntryInterruptionInfo
        (ctx.state.vmcs.fields.value .idtVectoringInfo)).2
      (ctx.state.vmcs.fields.write .vmEntryInterruptionInfo
        (ctx.state.vmcs.fields.value .idtVectoringInfo)).2 := by
  refine ⟨rfl, write_readFault _ _ _, write_writeFault _ _ _,
    fun field h _ => write_value_of_ne _ _ h, ?_⟩
  unfold write
  split
  · exact .inl rfl
  · exact .inr ⟨hvalid, setValue_value_self _ _ _⟩

theorem Reinjected.errorCode {ctx' : VmContext} {fields : VmcsTable VmcsField}
    (h : Reinjected ctx ctx' fields) (v : UInt64) :
    Reinjected ctx (ctx'.writeVmcs .vmEntryExceptionErrorCode v).2
      (fields.write .vmEntryExceptionErrorCode v).2 := by
  obtain ⟨rfl, hread, hwrite, hvalue, hevent⟩ := h
  refine ⟨rfl, ?_, ?_, fun field hinfo hcode => ?_, ?_⟩
  · rw [write_readFault, hread]
  · rw [write_writeFault, hwrite]
  · rw [write_value_of_ne _ _ hcode, hvalue field hinfo hcode]
  · rw [write_value_of_ne _ _ (by decide)]
    exact hevent

theorem reinjectVectoredEvent_reinjected (ctx : VmContext) :
    ∃ fields, Reinjected ctx (reinjectVectoredEvent ctx).2 fields := by
  unfold reinjectVectoredEvent
  rw [bind_apply, readField_apply]
  cases hread : ctx.state.vmcs.fields.read .idtVectoringInfo with
  | error e => exact ⟨_, .refl ctx⟩
  | ok idtInfo =>
    have hvalue := value_of_read hread
    dsimp only [Except.mapError]
    split
    · exact ⟨_, .refl ctx⟩
    rename_i hvalid
    rw [Bool.not_eq_false] at hvalid
    have hqueue := Reinjected.queue (by rw [hvalue]; exact hvalid)
    rw [hvalue] at hqueue
    rw [checkedWrite_apply]
    generalize ctx.writeVmcs .vmEntryInterruptionInfo idtInfo = written at hqueue ⊢
    obtain ⟨r, queued⟩ := written
    cases r with
    | error e => exact ⟨_, hqueue⟩
    | ok _ =>
      dsimp only
      split
      · rw [bind_apply, readField_apply]
        cases queued.state.vmcs.fields.read .idtVectoringErrorCode with
        | error e => exact ⟨_, hqueue⟩
        | ok errorCode =>
          have hcode := hqueue.errorCode errorCode
          dsimp only [Except.mapError]
          rw [checkedWrite_apply]
          generalize queued.writeVmcs .vmEntryExceptionErrorCode errorCode = written'
            at hcode ⊢
          obtain ⟨r, done⟩ := written'
          cases r with
          | error e => exact ⟨_, hcode⟩
          | ok _ => exact ⟨_, hcode⟩
      · exact ⟨_, hqueue⟩

theorem injectPendingInterrupt_unnoticed (hdet : ctx.state.lastExitDeterministic = false) :
    (∃ fields, Reinjected ctx (reinjectVectoredEvent ctx).2 fields ∧
      (injectPendingInterrupt ctx).2.view = { ctx.view with fields }) ∧
    ∀ vector, (injectPendingInterrupt ctx).1 ≠ .ok (some vector) := by
  obtain ⟨fields, hreinject⟩ := reinjectVectoredEvent_reinjected ctx
  have hview : (reinjectVectoredEvent ctx).2.view = { ctx.view with fields } := by
    rw [hreinject.state]
    rfl
  have harmed : (reinjectVectoredEvent ctx).2.armForNextIteration.view = { ctx.view with fields } :=
    (congrArg HostView.view (armForNextIteration_hostView _)).trans hview
  have hstays : (reinjectVectoredEvent ctx).2.state.lastExitDeterministic = false := by
    rw [hreinject.state]
    exact hdet
  have heligible : injectEligible ctx = match reinjectVectoredEvent ctx with
      | (.error e, ctx') => (.error e, ctx')
      | (.ok _, ctx') => (.ok false, ctx') := by
    unfold injectEligible lastExitDeterministic
    rw [bind_apply]
    generalize reinjectVectoredEvent ctx = r at hstays ⊢
    obtain ⟨r, ctx'⟩ := r
    cases r with
    | error e => rfl
    | ok reinjected =>
      cases reinjected with
      | true => rfl
      | false =>
        dsimp only at hstays ⊢
        rw [if_neg Bool.false_ne_true, act_bind, if_pos hstays]
        rfl
  refine ⟨⟨fields, hreinject, ?_⟩, ?_⟩
  all_goals
    unfold injectPendingInterrupt
    rw [bind_apply, heligible]
    generalize reinjectVectoredEvent ctx = r at hview harmed ⊢
    obtain ⟨r, ctx'⟩ := r
  · cases r with
    | error e => exact hview
    | ok _ => exact harmed
  intro vector h
  cases r with
  | error e | ok _ => cases h

/-! ## Entries -/

/-- Accesses on the way into the guest: none of them looks past the view. -/
inductive InjectAction : ActionClass
  | guest : InjectAction _ fun ctx => (ctx.state.guest, ctx)
  | modifyGuest (f : GuestState → GuestState) :
      InjectAction _ fun ctx => ((), ctx.setGuest (f ctx.state.guest))
  | clock : InjectAction _ fun ctx => (ctx.state.clock, ctx)
  | readVmcs (field : VmcsField) :
      InjectAction _ fun ctx => (ctx.state.vmcs.fields.read field, ctx)
  | writeVmcs (field : VmcsField) (v : UInt64) :
      InjectAction _ fun ctx => ctx.writeVmcs field v
  | interruptWindow (on : Bool) :
      InjectAction _ fun ctx => ctx.setInterruptWindowExiting on
  | emit (e : Emission) : InjectAction _ fun ctx => ((), e.run ctx)
  | lastExitDeterministic : InjectAction _ fun ctx => (ctx.state.lastExitDeterministic, ctx)
  | arm : InjectAction _ fun ctx => ((), ctx.armForNextIteration)

section Injecting

variable {ε : Type}

instance : Built InjectAction (getGuest : Program ε VmContext _) := .act .guest

instance (f : GuestState → GuestState) :
    Built InjectAction (modifyGuest f : Program ε VmContext _) := .act (.modifyGuest f)

instance : Built InjectAction (getClock : Program ε VmContext _) := .act .clock

instance (field : VmcsField) :
    Built InjectAction (readVmcs field : Program ε VmContext _) := .act (.readVmcs field)

instance (field : VmcsField) (v : UInt64) :
    Built InjectAction (writeVmcs field v : Program ε VmContext _) := .act (.writeVmcs field v)

instance (on : Bool) : Built InjectAction (setInterruptWindowExiting on : Program ε VmContext _) :=
  .act (.interruptWindow on)

instance (e : Emission) : Built InjectAction (emit e : Program ε VmContext _) := .act (.emit e)

instance : Built InjectAction lastExitDeterministic := .act .lastExitDeterministic

instance : Built InjectAction armForNextIteration := .act .arm

instance (field : VmcsField) : Built InjectAction (readField field) := by
  unfold readField
  infer_instance

instance (field : VmcsField) :
    Built InjectAction (readFieldOrZero field : Program ε VmContext UInt64) := by
  unfold readFieldOrZero
  infer_instance

instance : Built InjectAction raiseDue := by
  unfold raiseDue checkApicTimer checkIoChannel
  infer_instance

instance : Built InjectAction injectEligible := by
  unfold injectEligible reinjectVectoredEvent
  infer_instance

instance (info : InterruptionInfo) : Built InjectAction (injectException info none) := by
  unfold injectException writeFieldOr
  infer_instance

instance : Built InjectAction injectPendingVector := by
  have henable : Built InjectAction enableInterruptWindowExiting := by
    unfold enableInterruptWindowExiting
    infer_instance
  have hdisable : Built InjectAction disableInterruptWindowExiting := by
    unfold disableInterruptWindowExiting
    infer_instance
  unfold injectPendingVector
  refine .bind inferInstance fun g => ?_
  cases g.devices.apic.pendingVector <;> infer_instance

instance : Built InjectAction injectPendingInterrupt := by
  unfold injectPendingInterrupt
  infer_instance

end Injecting

/-- What decides an entry. -/
structure SameEntry (a b : VmContext) : Prop extends SameView a b where
  deterministic : a.state.lastExitDeterministic = b.state.lastExitDeterministic

theorem InjectAction.sameEntry {α : Type} {f : VmContext → α × VmContext} (hf : InjectAction α f)
    (h : SameEntry a b) : (f a).1 = (f b).1 ∧ SameEntry (f a).2 (f b).2 := by
  cases hf with
  | guest => exact ⟨h.guest, h⟩
  | modifyGuest f => exact ⟨rfl, h.toSameView.modifyGuest f, h.deterministic⟩
  | clock => exact ⟨h.clock, h⟩
  | readVmcs field => exact ⟨h.readVmcs field, h⟩
  | writeVmcs field v =>
    obtain ⟨hresult, hview⟩ := h.toSameView.writeVmcs field v
    exact ⟨hresult, hview, h.deterministic⟩
  | interruptWindow on =>
    obtain ⟨hresult, hview⟩ := h.toSameView.setInterruptWindowExiting on
    refine ⟨hresult, hview, ?_⟩
    rw [(a.setInterruptWindowExiting_kept on).deterministic,
      (b.setInterruptWindowExiting_kept on).deterministic]
    exact h.deterministic
  | emit e =>
    refine ⟨rfl, h.toSameView.of_hostView (e.run_events a).hostView (e.run_events b).hostView, ?_⟩
    dsimp only
    rw [(e.run_events a).kept.deterministic, (e.run_events b).kept.deterministic]
    exact h.deterministic
  | lastExitDeterministic => exact ⟨h.deterministic, h⟩
  | arm =>
    refine ⟨rfl, h.toSameView.of_hostView a.armForNextIteration_hostView
      b.armForNextIteration_hostView, ?_⟩
    dsimp only
    rw [a.armForNextIteration_kept.deterministic, b.armForNextIteration_kept.deterministic]
    exact h.deterministic

theorem VmContext.resume_deterministic (ctx : VmContext) (how : Resume) :
    (ctx.resume how).2.state.lastExitDeterministic = ctx.state.lastExitDeterministic := by
  have hstart : ∀ ctx : VmContext,
      ctx.startRun.2.state.lastExitDeterministic = ctx.state.lastExitDeterministic := by
    intro ctx
    obtain ⟨_, _, h⟩ := ctx.applyInterceptPf.updateMtfState_eq
    rw [startRun, h]
    exact ctx.applyInterceptPf_kept.deterministic
  cases how with
  | loop => rfl
  | refilled => exact hstart ctx
  | ioctl => exact hstart _

theorem SameEntry.resume (h : SameEntry a b) (how how' : Resume) :
    SameEntry (a.resume how).2 (b.resume how').2 := by
  refine ⟨h.toSameView.of_hostView (a.resume_hostView how) (b.resume_hostView how'), ?_⟩
  rw [a.resume_deterministic, b.resume_deterministic]
  exact h.deterministic

/-- Two entries inject the same vector and leave the same view. -/
theorem SameEntry.enter {a' b' : VmContext} {how how' : Resume} {i i' : Option UInt32}
    (h : SameEntry a b) (ha : a.enter how = (.ok i, a')) (hb : b.enter how' = (.ok i', b')) :
    i = i' ∧ SameEntry a' b' := by
  obtain ⟨ra, hra, hia⟩ := enter_ok ha
  obtain ⟨rb, hrb, hib⟩ := enter_ok hb
  have hresume := h.resume how how'
  rw [hra, hrb] at hresume
  obtain ⟨hresult, hentry⟩ := Built.respects (A := InjectAction) (R := SameEntry)
    (fun _ hf _ _ h => hf.sameEntry h)
    (inferInstance : Built InjectAction injectPendingInterrupt) _ _ hresume
  rw [hia, hib] at hresult hentry
  exact ⟨Except.ok.inj hresult, hentry⟩

end Bedrock
