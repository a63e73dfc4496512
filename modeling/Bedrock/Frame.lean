import Bedrock.Run

/-!
# What handling an exit leaves alone

Handlers and event emission change neither the clock nor the configuration of the
run nor the trap flag.  The fact is stated once as a relation and proved for every
atomic access; programs inherit it because they are built from those.
-/

namespace Bedrock

open Support VmcsTable Program Controls Built VmContext Framed

def VmContext.trapFlag (ctx : VmContext) : UInt64 :=
  ctx.state.vmcs.controls.value .primaryProcBasedVmExecControls &&& monitorTrapFlag

/-- `after` differs from `before` in none of these; a precise-exit page once registered
stays registered. -/
structure Kept (before after : VmContext) : Prop where
  machine : after.machine = before.machine
  clock : after.state.clock = before.state.clock
  config : after.state.config = before.state.config
  deterministic : after.state.lastExitDeterministic = before.state.lastExitDeterministic
  mtfEnabled : after.state.precise.mtfEnabled = before.state.precise.mtfEnabled
  trapFlag : after.trapFlag = before.trapFlag
  pebs : before.state.precise.pebsState.isSome = true →
    after.state.precise.pebsState.isSome = true

variable (ctx : VmContext)

namespace Kept

theorem refl : Kept ctx ctx :=
  ⟨rfl, rfl, rfl, rfl, rfl, rfl, id⟩

theorem trans {a b c : VmContext} (hab : Kept a b) (hbc : Kept b c) : Kept a c :=
  ⟨hbc.machine.trans hab.machine, hbc.clock.trans hab.clock, hbc.config.trans hab.config,
    hbc.deterministic.trans hab.deterministic, hbc.mtfEnabled.trans hab.mtfEnabled,
    hbc.trapFlag.trans hab.trapFlag, fun h => hbc.pebs (hab.pebs h)⟩

end Kept

theorem EventsOnly.kept {before after : VmContext} (h : EventsOnly before after) :
    Kept before after := by
  obtain ⟨_, _, _, _, hpebs, hmtf, rfl⟩ := h
  exact ⟨rfl, rfl, rfl, rfl, hmtf, rfl, fun h => by rw [← h, ← hpebs]⟩

theorem MemoryOnly.kept {before after : VmContext} (h : MemoryOnly before after) :
    Kept before after := by
  obtain ⟨_, _, _, rfl⟩ := h
  exact ⟨rfl, rfl, rfl, rfl, rfl, rfl, id⟩

theorem window_and_trapFlag (controls : UInt64) :
    ((controls ||| intrWindowExiting) &&& monitorTrapFlag =
      controls &&& monitorTrapFlag) ∧
    ((controls &&& ~~~intrWindowExiting) &&& monitorTrapFlag = controls &&& monitorTrapFlag) := by
  have hor : intrWindowExiting &&& monitorTrapFlag = 0 := by decide
  have hand : ~~~intrWindowExiting &&& monitorTrapFlag =
      monitorTrapFlag := by decide
  refine ⟨?_, ?_⟩
  · rw [or_and_distrib, hor, UInt64.or_zero]
  · rw [UInt64.and_assoc, hand]

namespace VmContext

theorem writeControl_primary_kept {v : UInt64} (hv : v &&& monitorTrapFlag = ctx.trapFlag) :
    Kept ctx (ctx.writeControl .primaryProcBasedVmExecControls v).2 := by
  refine ⟨rfl, rfl, rfl, rfl, rfl, ?_, id⟩
  rw [← hv]
  simp only [trapFlag, writeControl, setVmcs, write]
  split
  · exact hv.symm
  · simp

theorem writeControl_kept_of_ne {control : VmcsControl} (v : UInt64)
    (hne : control ≠ .primaryProcBasedVmExecControls) :
    Kept ctx (ctx.writeControl control v).2 := by
  refine ⟨rfl, rfl, rfl, rfl, rfl, ?_, id⟩
  have hvalue := ctx.state.vmcs.controls.write_value_of_ne v (Ne.symm hne)
  simp only [trapFlag, writeControl, setVmcs, hvalue]

theorem setInterruptWindowExiting_kept (on : Bool) :
    Kept ctx (ctx.setInterruptWindowExiting on).2 := by
  rw [setInterruptWindowExiting]
  split
  · exact .refl ctx
  rename_i controls hread
  have hcontrols : controls &&& Controls.monitorTrapFlag = ctx.trapFlag := by
    unfold VmcsTable.read at hread
    split at hread
    · cases hread
    · cases hread
      rfl
  split
  · exact .refl ctx
  have hkept : Kept ctx (ctx.writeControl .primaryProcBasedVmExecControls
      (if on then controls ||| Controls.intrWindowExiting
        else controls &&& ~~~Controls.intrWindowExiting)).2 := by
    apply writeControl_primary_kept
    rw [← hcontrols]
    split
    · exact (window_and_trapFlag controls).1
    · exact (window_and_trapFlag controls).2
  dsimp only
  split
  all_goals
    rename_i heq
    rw [heq] at hkept
    exact hkept

theorem installPebsPage_kept (g : Nat) : Kept ctx (ctx.installPebsPage g).2 := by
  rw [installPebsPage]
  dsimp only
  split
  · exact .refl ctx
  split
  · exact ⟨rfl, rfl, rfl, rfl, rfl, rfl, id⟩
  split
  · exact ⟨rfl, rfl, rfl, rfl, rfl, rfl, id⟩
  split
  · exact ⟨rfl, rfl, rfl, rfl, rfl, rfl, id⟩
  refine ⟨rfl, rfl, rfl, rfl, rfl, ?_, fun _ => rfl⟩
  -- none of the three controls written is the one that holds the trap flag
  simp only [trapFlag, setMemory]
  rw [write_value_of_ne _ _ (by decide), write_value_of_ne _ _ (by decide)]
  split
  · rw [write_value_of_ne _ _ (by decide)]
  · rfl

theorem handlePebsPreciseExit_kept : Kept ctx ctx.handlePebsPreciseExit := by
  rw [handlePebsPreciseExit]
  dsimp only
  split
  · exact .refl ctx
  refine ⟨rfl, rfl, rfl, rfl, ?_, rfl, fun _ => rfl⟩
  dsimp only
  split
  · rfl
  · rfl

theorem armForNextIteration_kept : Kept ctx ctx.armForNextIteration := by
  rw [armForNextIteration]
  split
  · exact .refl ctx
  · exact ⟨rfl, rfl, rfl, rfl, rfl, rfl, fun _ => rfl⟩

/-- `update_mtf_state` touches the execution controls and their mirror only. -/
theorem updateMtfState_eq :
    ∃ controls mtfEnabled, ctx.updateMtfState.2 = { ctx with
      state := { ctx.state with
        vmcs := { ctx.state.vmcs with controls }
        precise := { ctx.state.precise with mtfEnabled } } } := by
  unfold updateMtfState
  dsimp only
  split
  · exact ⟨_, _, rfl⟩
  split
  · exact ⟨_, _, rfl⟩
  · split
    all_goals exact ⟨_, _, rfl⟩

@[simp] theorem updateMtfState_machine : ctx.updateMtfState.2.machine = ctx.machine := by
  obtain ⟨_, _, h⟩ := ctx.updateMtfState_eq
  rw [h]

@[simp] theorem updateMtfState_clock : ctx.updateMtfState.2.state.clock = ctx.state.clock := by
  obtain ⟨_, _, h⟩ := ctx.updateMtfState_eq
  rw [h]

@[simp] theorem updateMtfState_config : ctx.updateMtfState.2.state.config = ctx.state.config := by
  obtain ⟨_, _, h⟩ := ctx.updateMtfState_eq
  rw [h]

@[simp] theorem updateMtfState_guest : ctx.updateMtfState.2.state.guest = ctx.state.guest := by
  obtain ⟨_, _, h⟩ := ctx.updateMtfState_eq
  rw [h]

theorem applyInterceptPf_kept : Kept ctx ctx.applyInterceptPf :=
  ctx.writeControl_kept_of_ne _ (by decide)

end VmContext

variable {α : Type} {f : VmContext → α × VmContext} {ctx : VmContext}

theorem GuestAction.kept (h : GuestAction α f) (ctx : VmContext) : Kept ctx (f ctx).2 := by
  cases h with
  | interruptWindow on => exact ctx.setInterruptWindowExiting_kept on
  | emit e => exact (e.run_events ctx).kept
  | _ => exact ⟨rfl, rfl, rfl, rfl, rfl, rfl, id⟩

theorem HandlerAction.kept (h : HandlerAction α f) (ctx : VmContext) : Kept ctx (f ctx).2 := by
  cases h with
  | guest h => exact h.kept ctx
  | cowFault gpa => exact (ctx.handleCowFault_memory gpa).kept
  | preCow => exact ctx.preCowIoChannelPage_memory.kept
  | installPebs gpaPage => exact ctx.installPebsPage_kept gpaPage

theorem DispatchAction.kept (h : DispatchAction α f) (ctx : VmContext) : Kept ctx (f ctx).2 := by
  cases h with
  | handler h => exact h.kept ctx
  | pebsExit => exact ctx.handlePebsPreciseExit_kept
  | preemptionTimer => exact ctx.writeControl_kept_of_ne _ (by decide)

theorem ExitAction.kept (h : ExitAction α f) (ctx : VmContext) : Kept ctx (f ctx).2 := by
  cases h with
  | dispatch h => exact h.kept ctx
  | capture p => exact (p.run_events ctx).kept
  | consume => exact ⟨rfl, rfl, rfl, rfl, rfl, rfl, id⟩

theorem EntryAction.kept (h : EntryAction α f) (ctx : VmContext) : Kept ctx (f ctx).2 := by
  cases h with
  | guest h => exact h.kept ctx
  | lastExitDeterministic => exact .refl ctx
  | arm => exact ctx.armForNextIteration_kept

variable {reason : ExitReason}

theorem dispatch_kept (qual : UInt64) (hhlt : reason ≠ .hlt)
    (hmwait : reason ≠ .mwait) (ctx : VmContext) : Kept ctx (dispatch reason qual ctx).2 :=
  (dispatch_built qual hhlt hmwait).rel Kept.refl Kept.trans (fun _ h => h.kept) ctx

theorem call_state (handler : Handler ExitHandlerResult) (ctx : VmContext) :
    (call handler ctx).2 = (handler ctx).2 := by
  unfold call handle
  rw [bind_ok (attempt_apply _ _)]
  cases (handler ctx).1 <;> rfl

theorem dispatch_idle (qual : UInt64) (h : reason = .hlt ∨ reason = .mwait) :
    dispatch reason qual = call handleIdle := by
  rcases h with rfl | rfl
  · rfl
  · rfl

theorem handleIdle_kept (ctx : VmContext) : Kept ctx.advanceToWake (handleIdle ctx).2 := by
  have hrest : Kept ctx.advanceToWake (advanceAndReturn .continue_ ctx.advanceToWake).2 :=
    rel (A := GuestAction) Kept.refl Kept.trans (fun _ h => h.kept) inferInstance _
  exact hrest

theorem dispatch_idle_kept (qual : UInt64) (h : reason = .hlt ∨ reason = .mwait) (ctx : VmContext) :
    Kept ctx.advanceToWake (dispatch reason qual ctx).2 := by
  rw [dispatch_idle qual h, call_state]
  exact handleIdle_kept ctx

theorem dispatch_rel {R : VmContext → VmContext → Prop}
    (htrans : ∀ {a b c : VmContext}, R a b → R b c → R a c)
    (hclock : ∀ (ctx : VmContext) (clock : Clock), R ctx (ctx.setClock clock))
    (hkept : ∀ {a b : VmContext}, Kept a b → R a b) (reason : ExitReason) (qual : UInt64)
    (ctx : VmContext) : R ctx (dispatch reason qual ctx).2 := by
  by_cases hidle : reason = .hlt ∨ reason = .mwait
  · obtain ⟨clock, hwake⟩ := ctx.advanceToWake_setClock
    have hrest := hkept (dispatch_idle_kept qual hidle ctx)
    rw [hwake] at hrest
    exact htrans (hclock ctx clock) hrest
  · rw [not_or] at hidle
    exact hkept (dispatch_kept qual hidle.1 hidle.2 ctx)

theorem injectPendingInterrupt_kept (ctx : VmContext) : Kept ctx (injectPendingInterrupt ctx).2 :=
  rel (A := EntryAction) Kept.refl Kept.trans (fun _ h => h.kept) inferInstance ctx

/-- Accesses to VMCS fields. -/
inductive VmcsAction : ActionClass
  | read (field : VmcsField) : VmcsAction _ fun ctx => (ctx.state.vmcs.fields.read field, ctx)
  | write (field : VmcsField) (v : UInt64) : VmcsAction _ fun ctx => ctx.writeVmcs field v

instance (r : ExitHandlerResult) : Built VmcsAction (advanceAndReturn r) := by
  have hread : ∀ field, Built VmcsAction (readField field) := fun field => by
    unfold readField
    exact .bind (.act (.read field)) fun _ => inferInstance
  unfold advanceAndReturn advanceRip readField32 writeFieldOr
  exact .bind (.mapExit _ (.bind (hread _) fun _ => .bind (.bind (hread _) fun _ => inferInstance)
    fun _ => .bind (.act (.write _ _)) fun _ => inferInstance)) fun _ => inferInstance

theorem advanceAndReturn_frame (r : ExitHandlerResult) (ctx : VmContext) :
    (advanceAndReturn r ctx).2.state.guest = ctx.state.guest ∧
      (advanceAndReturn r ctx).2.memory = ctx.memory :=
  rel (A := VmcsAction)
    (R := fun before after => after.state.guest = before.state.guest ∧ after.memory = before.memory)
    (fun _ => ⟨rfl, rfl⟩) (fun h h' => ⟨h'.1.trans h.1, h'.2.trans h.2⟩)
    (fun f hf ctx => by cases hf <;> exact ⟨rfl, rfl⟩) inferInstance ctx

theorem vmcallReturn_frame (rax : UInt64) (r : ExitHandlerResult) (ctx : VmContext) :
    (vmcallReturn rax r ctx).2.state.guest =
        { ctx.state.guest with gprs := { ctx.state.guest.gprs with rax } } ∧
      (vmcallReturn rax r ctx).2.memory = ctx.memory := by
  unfold vmcallReturn modifyGprs modifyGuest
  rw [act_bind]
  exact advanceAndReturn_frame r _

theorem advanceAndReturn_fst {ctx' : VmContext}
    (h : ctx'.state.vmcs.fields = ctx.state.vmcs.fields) (r : ExitHandlerResult) :
    (advanceAndReturn r ctx').1 = (advanceAndReturn r ctx).1 := by
  refine (respects (A := VmcsAction)
    (R := fun a b => a.state.vmcs.fields = b.state.vmcs.fields) ?_ inferInstance _ _ h).1
  intro α f hf a b hab
  cases hf with
  | read field => exact ⟨congrArg (fun fields => fields.read field) hab, hab⟩
  | write field v =>
    exact ⟨congrArg (fun fields => (fields.write field v).1) hab,
      congrArg (fun fields => (fields.write field v).2) hab⟩

theorem vmcallReturn_fst {ctx' : VmContext}
    (h : ctx'.state.vmcs.fields = ctx.state.vmcs.fields) (rax : UInt64) (r : ExitHandlerResult) :
    (vmcallReturn rax r ctx').1 = (vmcallReturn rax r ctx).1 := by
  unfold vmcallReturn modifyGprs modifyGuest
  rw [act_bind, act_bind]
  apply advanceAndReturn_fst
  exact h

/-! ## Around the handlers -/

variable {qual : UInt64}

namespace CaptureFrame

variable {R : VmContext → VmContext → Prop} (h : CaptureFrame R)
  (htrap : ∀ ctx : VmContext, R ctx ctx.updateMtfState.2)
include h htrap

theorem finishExit (ctx : VmContext) (reason : ExitReason) (qual : UInt64) (deterministic : Bool)
    (result : ExitHandlerResult) : R ctx (ctx.finishExit reason qual deterministic result).2 := by
  have hflag := htrap ctx
  unfold VmContext.finishExit
  rcases hrun : ctx.updateMtfState with ⟨e | u, ctx'⟩
  · rw [hrun] at hflag
    exact hflag
  rw [hrun] at hflag
  dsimp only
  refine h.trans hflag ?_
  split
  · exact h.captureExitAtShutdown ctx'
  · split
    all_goals exact h.captureExit ctx' reason qual deterministic

theorem handleExit_of_dispatch (hinfo : ctx.exitInfo = .ok (reason, qual)) :
    R (dispatch reason qual (ctx.beginExit (!ctx.state.nonDeterministicExit reason qual))).2
      ctx.handleExit.2 := by
  unfold handleExit
  rw [hinfo]
  dsimp only
  rcases dispatch reason qual (ctx.beginExit (!ctx.state.nonDeterministicExit reason qual)) with
    ⟨r | result, ctx'⟩
  · exact h.refl ctx'
  · exact h.finishExit htrap ctx' reason qual _ result

end CaptureFrame

/-- What no emission changes, capturing does not change. -/
theorem CaptureFrame.of_events {f : VmContext → α}
    (h : ∀ {a b : VmContext}, EventsOnly a b → f b = f a) : CaptureFrame fun a b => f b = f a where
  refl _ := rfl
  trans hab hbc := hbc.trans hab
  record ctx reason qual flags := h (ctx.writeExitRecord_events reason qual flags)
  bookkeeping ctx capture := h (ctx.setCapture_events capture)

theorem VmContext.handleExit_of_error {e : ExitError}
    (h : ctx.exitInfo = .error e) : ctx.handleExit.2 = ctx := by
  unfold handleExit
  rw [h]

/-- A preorder on contexts that the bookkeeping after the handler of an exit respects. -/
structure Surrounds (R : VmContext → VmContext → Prop) : Prop extends CaptureFrame R where
  finalizeRecord : ∀ ctx, R ctx ctx.finalizeExitRecord
  trapFlag : ∀ ctx, R ctx ctx.updateMtfState.2
  begin : ∀ ctx deterministic, R ctx (ctx.beginExit deterministic)

namespace Surrounds

variable {R : VmContext → VmContext → Prop} (hR : Surrounds R)

include hR

theorem finalize (ctx : VmContext) : R ctx.handleExit.2 ctx.leave.2 := by
  unfold leave
  rcases ctx.handleExit with ⟨result, ctx'⟩
  cases result with
  | error e => exact hR.refl ctx'
  | continue_ | exitToUserspace reason => exact hR.finalizeRecord ctx'

/-- An exit that cannot be read is not handled. -/
theorem leave_of_error {e : ExitError} (h : ctx.exitInfo = .error e) : R ctx ctx.leave.2 := by
  have hfinal := hR.finalize ctx
  rwa [handleExit_of_error h] at hfinal

theorem leave_of_dispatch (h : ctx.exitInfo = .ok (reason, qual)) :
    R (dispatch reason qual (ctx.beginExit (!ctx.state.nonDeterministicExit reason qual))).2
      ctx.leave.2 :=
  hR.trans (hR.toCaptureFrame.handleExit_of_dispatch hR.trapFlag h) (hR.finalize ctx)

theorem leave_of_handled (h : ctx.exitInfo = .ok (reason, qual))
    (hhandled : ∀ begun, begun = ctx.beginExit (!ctx.state.nonDeterministicExit reason qual) →
      R begun (dispatch reason qual begun).2) : R ctx ctx.leave.2 :=
  hR.trans (hR.trans (hR.begin ctx _) (hhandled _ rfl)) (hR.leave_of_dispatch h)

theorem leave (hdispatch : ∀ reason qual ctx, R ctx (dispatch reason qual ctx).2)
    (ctx : VmContext) : R ctx ctx.leave.2 := by
  cases hinfo : ctx.exitInfo with
  | error e => exact hR.leave_of_error hinfo
  | ok info => exact hR.leave_of_handled hinfo fun begun _ => hdispatch _ _ begun

end Surrounds

/-- A preorder on contexts that the bookkeeping around the handlers of an exit
respects. -/
structure Frames (R : VmContext → VmContext → Prop) : Prop where
  refl : ∀ ctx, R ctx ctx
  trans : ∀ {a b c}, R a b → R b c → R a c
  events : ∀ {a b}, EventsOnly a b → R a b
  interceptPf : ∀ ctx, R ctx ctx.applyInterceptPf
  trapFlag : ∀ ctx, R ctx ctx.updateMtfState.2
  begin : ∀ ctx deterministic, R ctx (ctx.beginExit deterministic)

namespace Frames

variable {R : VmContext → VmContext → Prop} (hR : Frames R)

include hR

theorem clear (ctx : VmContext) : R ctx (ctx.setEvents ctx.state.events.clear) :=
  hR.events ⟨_, _, _, _, rfl, rfl, rfl⟩

theorem startRun (ctx : VmContext) : R ctx ctx.startRun.2 :=
  hR.trans (hR.interceptPf ctx) (hR.trapFlag _)

theorem resume (ctx : VmContext) (how : Resume) : R ctx (ctx.resume how).2 := by
  cases how with
  | loop => exact hR.refl ctx
  | refilled => exact hR.startRun ctx
  | ioctl => exact hR.trans (hR.clear ctx) (hR.startRun _)

/-- Everything before the guest is entered. -/
theorem enter (hinject : ∀ ctx, R ctx (injectPendingInterrupt ctx).2) (ctx : VmContext)
    (how : Resume) : R ctx (ctx.enter how).2 := by
  have hresume := hR.resume ctx how
  unfold VmContext.enter
  rcases hrun : ctx.resume how with ⟨e | u, ctx'⟩
  · rw [hrun] at hresume
    exact hresume
  · rw [hrun] at hresume
    exact hR.trans hresume (hinject ctx')

theorem surrounds : Surrounds R where
  refl := hR.refl
  trans := hR.trans
  record ctx reason qual flags := hR.events (ctx.writeExitRecord_events reason qual flags)
  bookkeeping ctx capture := hR.events (ctx.setCapture_events capture)
  finalizeRecord ctx := hR.events ctx.finalizeExitRecord_events
  trapFlag := hR.trapFlag
  begin := hR.begin

theorem leave_of_error {e : ExitError} (h : ctx.exitInfo = .error e) : R ctx ctx.leave.2 :=
  hR.surrounds.leave_of_error h

theorem leave_of_dispatch (h : ctx.exitInfo = .ok (reason, qual)) :
    R (dispatch reason qual (ctx.beginExit (!ctx.state.nonDeterministicExit reason qual))).2
      ctx.leave.2 :=
  hR.surrounds.leave_of_dispatch h

theorem leave_of_handled (h : ctx.exitInfo = .ok (reason, qual))
    (hhandled : ∀ begun, begun = ctx.beginExit (!ctx.state.nonDeterministicExit reason qual) →
      R begun (dispatch reason qual begun).2) : R ctx ctx.leave.2 :=
  hR.surrounds.leave_of_handled h hhandled

theorem leave (hdispatch : ∀ reason qual ctx, R ctx (dispatch reason qual ctx).2)
    (ctx : VmContext) : R ctx ctx.leave.2 :=
  hR.surrounds.leave hdispatch ctx

end Frames

/-! ## Parts -/

namespace VmContext

theorem updateMtfState_untouched (ctx : VmContext) : GuestUntouched ctx ctx.updateMtfState.2 := by
  obtain ⟨_, _, h⟩ := ctx.updateMtfState_eq
  rw [h]
  exact ⟨rfl, rfl⟩

theorem updateMtfState_memory (ctx : VmContext) : ctx.updateMtfState.2.memory = ctx.memory := by
  obtain ⟨_, _, h⟩ := ctx.updateMtfState_eq
  rw [h]

theorem guest_frames : Frames fun before after =>
    after.state.guest = before.state.guest ∧ after.memory = before.memory where
  refl _ := ⟨rfl, rfl⟩
  trans hab hbc := ⟨hbc.1.trans hab.1, hbc.2.trans hab.2⟩
  events h := ⟨h.guest, h.memory⟩
  interceptPf _ := ⟨rfl, rfl⟩
  trapFlag ctx := ⟨ctx.updateMtfState_untouched.guest, ctx.updateMtfState_memory⟩
  begin _ _ := ⟨rfl, rfl⟩

theorem leave_frame (h : ctx.exitInfo = .ok (reason, qual)) :
    let handled := (dispatch reason qual
      (ctx.beginExit (!ctx.state.nonDeterministicExit reason qual))).2
    ctx.leave.2.state.guest = handled.state.guest ∧ ctx.leave.2.memory = handled.memory :=
  guest_frames.leave_of_dispatch h

def hypercall (ctx : VmContext) : Option Nat :=
  match ctx.exitInfo with
  | .ok (.vmcall, _) => some ctx.state.guest.gprs.rax.toNat
  | _ => none

theorem hypercall_eq_some {n : Nat} (h : ctx.hypercall = some n) :
    ∃ qual, ctx.exitInfo = .ok (.vmcall, qual) ∧ ctx.state.guest.gprs.rax.toNat = n := by
  unfold hypercall at h
  split at h
  · rename_i qual hinfo
    exact ⟨qual, hinfo, Option.some.inj h⟩
  · cases h

theorem leave_hypercall {n : Nat} (h : ctx.hypercall = some n) :
    ∃ begun : VmContext, GuestUntouched ctx begun ∧ begun.memory = ctx.memory ∧
      begun.state.guest.gprs.rax.toNat = n ∧
      ctx.leave.2.state.guest = (handleVmcall begun).2.state.guest ∧
      ctx.leave.2.memory = (handleVmcall begun).2.memory := by
  obtain ⟨qual, hinfo, hrax⟩ := hypercall_eq_some h
  obtain ⟨hguest, hmemory⟩ := leave_frame hinfo
  refine ⟨ctx.beginExit (!ctx.state.nonDeterministicExit .vmcall qual), ⟨rfl, rfl⟩, rfl, hrax, ?_⟩
  rw [← call_state]
  exact ⟨hguest, hmemory⟩

end VmContext

namespace Part

variable (p : Part)

theorem frames : Frames fun before after => p.get after = p.get before where
  refl _ := rfl
  trans hab hbc := hbc.trans hab
  events h := p.get_of_untouched h.untouched
  interceptPf _ := p.get_of_untouched ⟨rfl, rfl⟩
  trapFlag ctx := p.get_of_untouched ctx.updateMtfState_untouched
  begin _ _ := p.get_of_untouched ⟨rfl, rfl⟩

theorem get_enter [p.Other .signal] [p.Other .requested] (ctx : VmContext) (how : Resume) :
    p.get (ctx.enter how).2 = p.get ctx :=
  p.frames.enter (fun ctx => Framed.get (A := EntryAction) inferInstance ctx) ctx how

variable {p}

theorem get_dispatch (h : ¬p.touchedBy reason) (qual : UInt64)
    (ctx : VmContext) : p.get (dispatch reason qual ctx).2 = p.get ctx := by
  by_cases hidle : reason = .hlt ∨ reason = .mwait
  · rw [dispatch_idle qual hidle, call_state]
    have hrest : p.get (advanceAndReturn .continue_ ctx.advanceToWake).2 =
        p.get ctx.advanceToWake :=
      Framed.get (A := GuestAction) inferInstance _
    exact hrest.trans (p.get_of_untouched ctx.advanceToWake_untouched)
  · rw [not_or] at hidle
    exact Framed.get (dispatch_framed qual hidle.1 hidle.2 h) ctx

theorem get_leave (h : ∀ reason qual, ctx.exitInfo = .ok (reason, qual) → ¬p.touchedBy reason) :
    p.get ctx.leave.2 = p.get ctx := by
  cases hinfo : ctx.exitInfo with
  | error e => exact p.frames.leave_of_error hinfo
  | ok info =>
    obtain ⟨reason, qual⟩ := info
    exact p.frames.leave_of_handled hinfo fun begun _ =>
      get_dispatch (h reason qual hinfo) qual begun

/-- The hypercalls that touch a part. -/
def touchedByCall : Part → Nat → Prop
  | random, n => n = 11
  | response, n => n = 4 ∨ n = 5 ∨ n = 6
  | signal, n => n = 4 ∨ n = 5
  | _, _ => False

theorem get_handleVmcall (h : ¬p.touchedByCall ctx.state.guest.gprs.rax.toNat) :
    p.get (handleVmcall ctx).2 = p.get ctx := by
  have hother : ∀ q : Part, q.touchedByCall ctx.state.guest.gprs.rax.toNat → p.Other q :=
    fun q hq => ⟨fun hp => h (hp ▸ hq)⟩
  unfold handleVmcall getGuest
  rw [act_bind]
  refine Framed.get (A := CaptureAction) ?_ ctx
  dsimp only
  generalize ctx.state.guest.gprs.rax.toNat = n at hother
  split
  all_goals first | infer_instance | skip
  · have := hother .response (.inl rfl)
    have := hother .signal (.inl rfl)
    infer_instance
  · have := hother .response (.inr (.inl rfl))
    have := hother .signal (.inr rfl)
    infer_instance
  · have := hother .response (.inr (.inr rfl))
    infer_instance
  · have := hother .random rfl
    infer_instance

theorem get_leave_of_hypercall
    (hother : ∀ reason qual, ctx.exitInfo = .ok (reason, qual) → reason ≠ .vmcall →
      ¬p.touchedBy reason)
    (hcall : ∀ n, ctx.hypercall = some n → ¬p.touchedByCall n) : p.get ctx.leave.2 = p.get ctx := by
  cases hinfo : ctx.exitInfo with
  | error e => exact p.frames.leave_of_error hinfo
  | ok info =>
    obtain ⟨reason, qual⟩ := info
    by_cases hreason : reason = .vmcall
    · subst hreason
      have hnumber : ctx.hypercall = some ctx.state.guest.gprs.rax.toNat := by
        rw [hypercall, hinfo]
      refine p.frames.leave_of_handled hinfo ?_
      rintro begun rfl
      exact (congrArg p.get (call_state handleVmcall _)).trans (get_handleVmcall (hcall _ hnumber))
    · refine get_leave fun reason' qual' hinfo' => ?_
      rw [hinfo] at hinfo'
      cases hinfo'
      exact hother reason qual hinfo hreason

theorem get_of_ran {entered exited : VmContext} (h : Ran entered exited)
    (hp : p ≠ .stackPointer) : p.get exited = p.get entered := by
  cases p with
  | nothing => rfl
  | stackPointer => exact absurd rfl hp
  | xcr0 => exact h.xcr0Mask
  | random => exact congrArg DeviceStates.random h.devices
  | response => exact congrArg (fun chan => (chan.responseLen, chan.responseBuf)) h.ioChannel
  | signal => exact congrArg IoChannelState.requestDelivered h.ioChannel
  | requested => exact congrArg (fun dev => dev.apic.irr) h.devices

end Part

end Bedrock
