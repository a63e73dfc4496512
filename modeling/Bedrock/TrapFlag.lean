import Bedrock.Clock

/-!
# The monitor trap flag

Close to a target the monitor trap flag single-steps the guest.  `update_mtf_state`
keeps the flag in the execution controls in step with a mirror of it.  This module
follows both through runs: every entry into the guest is made with the flag that the
state at the start of the iteration calls for.
-/

namespace Bedrock

open Support Program VmContext Controls VmState

namespace VmState

/-- A target execution must not run past. -/
def TargetAhead (st : VmState) (T : Nat) : Prop :=
  st.clock.now < T ∧
    (st.timerTarget = some T ∨ st.nextIoChannelTargetTsc = some T ∨
      st.config.stopAtTsc = some T ∨ st.nextSingleStepStartTsc = some T)

theorem wantsMtf_of_near {st : VmState} {T margin : Nat}
    (hpebs : st.precise.pebsState.isSome) (hahead : st.TargetAhead T)
    (hnear : T ≤ st.clock.now + margin) : st.wantsMtf margin := by
  obtain ⟨hbefore, htarget⟩ := hahead
  have hmargin : inMargin margin st.clock.lastInstructionCount (some (T - st.clock.tscOffset)) =
      true := by
    simp only [inMargin, Bool.and_eq_true, decide_eq_true_eq]
    simp only [Clock.now] at hbefore hnear
    omega
  unfold wantsMtf nextTimerExitCount nextIoChannelExitCount stopAtCount nextSingleStepStartCount
  rcases htarget with h | h | h | h
  all_goals simp [h, hmargin, hpebs]

end VmState

/-! ## The trap flag -/

/-- The mirror of the trap flag is never set without the flag. -/
def MtfSound (ctx : VmContext) : Prop :=
  ctx.state.precise.mtfEnabled = true → ctx.trapFlag ≠ 0

/-- The mirror of the trap flag is what `update_mtf_state` wants. -/
def Settled (ctx : VmContext) : Prop :=
  ctx.state.precise.mtfEnabled = ctx.state.wantsMtf ctx.machine.getMtfMargin

/-- The trap flag is set once `update_mtf_state` has run: because it is wanted, or
because it was set behind the mirror's back. -/
def Stepping (ctx : VmContext) : Prop :=
  ctx.state.wantsMtf ctx.machine.getMtfMargin = true ∨
    (ctx.state.precise.mtfEnabled = false ∧ ctx.trapFlag ≠ 0)

variable {ctx before after ctx' : VmContext} {r : ExitHandlerResult} {it : Iteration}

theorem Settled.stepping_iff (h : Settled ctx) (hsound : MtfSound ctx) :
    Stepping ctx ↔ ctx.trapFlag ≠ 0 := by
  unfold Stepping
  rw [← h]
  cases henabled : ctx.state.precise.mtfEnabled with
  | true => simp [hsound henabled]
  | false => simp

theorem Kept.mtfSound (h : Kept before after) (hsound : MtfSound before) : MtfSound after := by
  intro henabled
  rw [h.trapFlag]
  exact hsound (h.mtfEnabled ▸ henabled)

namespace VmContext

variable {ctx ctx' : VmContext}

theorem updateMtfState_ok (h : ctx.updateMtfState = (.ok (), ctx')) (hsound : MtfSound ctx) :
    ctx'.state.precise.mtfEnabled = ctx.state.wantsMtf ctx.machine.getMtfMargin ∧
      (ctx'.trapFlag ≠ 0 ↔ Stepping ctx) := by
  unfold updateMtfState at h
  dsimp only at h
  split at h
  · rename_i hsame
    cases h
    exact ⟨hsame.symm, (Settled.stepping_iff hsame.symm hsound).symm⟩
  rename_i hchange
  split at h
  · cases h
  rename_i controls hread
  split at h
  · cases h
  rename_i controls' hwrite
  cases h
  have hvalue : controls'.value .primaryProcBasedVmExecControls =
      if ctx.state.wantsMtf ctx.machine.getMtfMargin then
        controls ||| monitorTrapFlag
      else controls &&& ~~~monitorTrapFlag := by
    unfold VmcsTable.write at hwrite
    split at hwrite
    · cases hwrite
    · cases hwrite
      simp
  refine ⟨rfl, ?_⟩
  simp only [trapFlag, hvalue, Stepping]
  cases hwants : ctx.state.wantsMtf ctx.machine.getMtfMargin with
  | true =>
    rw [if_pos rfl, or_and_cancel]
    simp [monitorTrapFlag]
  | false =>
    have henabled : ctx.state.precise.mtfEnabled := by
      rw [hwants] at hchange
      simpa using hchange
    rw [if_neg (by simp), and_not_and]
    simp [henabled]

theorem updateMtfState_error {e : ExitError} (h : ctx.updateMtfState = (.error e, ctx')) :
    ctx' = ctx := by
  unfold updateMtfState at h
  dsimp only at h
  split at h
  · cases h
  split at h
  · cases h
    rfl
  split at h
  · cases h
    rfl
  · cases h

theorem updateMtfState_sound (hsound : MtfSound ctx) : MtfSound ctx.updateMtfState.2 := by
  cases h : ctx.updateMtfState with
  | mk r ctx' =>
    cases r with
    | error e =>
      rw [updateMtfState_error h]
      exact hsound
    | ok _ =>
      obtain ⟨henabled, hflag⟩ := updateMtfState_ok h hsound
      exact fun h => hflag.mpr (.inl (henabled ▸ h))

@[simp] theorem updateMtfState_pebsState (ctx : VmContext) :
    ctx.updateMtfState.2.state.precise.pebsState = ctx.state.precise.pebsState := by
  obtain ⟨_, _, h⟩ := ctx.updateMtfState_eq
  rw [h]

end VmContext

/-- What `update_mtf_state` looks at. -/
structure SameTargets (before after : VmContext) : Prop where
  machine : after.machine = before.machine
  clock : after.state.clock = before.state.clock
  config : after.state.config = before.state.config
  guest : after.state.guest = before.state.guest
  pebs : after.state.precise.pebsState.isSome = before.state.precise.pebsState.isSome

theorem SameTargets.refl (ctx : VmContext) : SameTargets ctx ctx :=
  ⟨rfl, rfl, rfl, rfl, rfl⟩

theorem SameTargets.trans {a b c : VmContext} (hab : SameTargets a b) (hbc : SameTargets b c) :
    SameTargets a c :=
  ⟨hbc.machine.trans hab.machine, hbc.clock.trans hab.clock, hbc.config.trans hab.config,
    hbc.guest.trans hab.guest, hbc.pebs.trans hab.pebs⟩

theorem SameTargets.wantsMtf (h : SameTargets before after) :
    after.state.wantsMtf after.machine.getMtfMargin =
      before.state.wantsMtf before.machine.getMtfMargin := by
  simp only [VmState.wantsMtf, VmState.inSingleStep, VmState.nextTimerExitCount,
    VmState.timerTarget, VmState.nextIoChannelExitCount, VmState.nextIoChannelTargetTsc,
    VmState.stopAtCount, VmState.nextSingleStepStartCount, VmState.nextSingleStepStartTsc,
    h.machine, h.clock, h.config, h.guest, h.pebs]

theorem EventsOnly.sameTargets (h : EventsOnly before after) : SameTargets before after := by
  obtain ⟨_, _, _, _, hpebs, _, rfl⟩ := h
  exact ⟨rfl, rfl, rfl, rfl, congrArg Option.isSome hpebs⟩

theorem updateMtfState_sameTargets (ctx : VmContext) : SameTargets ctx ctx.updateMtfState.2 :=
  ⟨by simp, by simp, by simp, by simp, by simp⟩

theorem EventsOnly.settled (h : EventsOnly before after)
    (hsettled : Settled before) : Settled after := by
  unfold Settled
  rw [h.kept.mtfEnabled, h.sameTargets.wantsMtf]
  exact hsettled

theorem VmContext.updateMtfState_settled
    (h : ctx.updateMtfState = (.ok (), ctx')) (hsound : MtfSound ctx) : Settled ctx' := by
  have htargets := updateMtfState_sameTargets ctx
  rw [h] at htargets
  unfold Settled
  rw [htargets.wantsMtf]
  exact (updateMtfState_ok h hsound).1

/-! ## Leaving the guest -/

theorem orError_exit {α : Type} {m : Fallible α}
    (h : orError m ctx = (.error r, ctx')) : ∃ e, r = .error e := by
  unfold orError mapExit at h
  split at h
  · cases h
  rename_i e _ _
  cases h
  exact ⟨e, rfl⟩

theorem call_not_exit {handler : Handler ExitHandlerResult}
    : call handler ctx ≠ (.error r, ctx') := by
  unfold call handle
  rw [bind_ok (attempt_apply _ _)]
  cases (handler ctx).1 <;> · intro h; cases h

theorem dispatch_exit {reason : ExitReason} {qual : UInt64}
    (h : dispatch reason qual ctx = (.error r, ctx')) : ∃ e, r = .error e := by
  unfold dispatch at h
  split at h
  all_goals first | exact absurd h call_not_exit | skip
  all_goals try cases h
  · -- MONITOR only advances past the instruction
    unfold advanceAndReturn at h
    rcases bind_eq_iff.mp h with ⟨_, _, _, hpure⟩ | ⟨e, _, herr, heq⟩
    · cases hpure
    · cases heq
      exact orError_exit herr
  · rcases bind_eq_iff.mp h with ⟨_, _, _, hpure⟩ | ⟨e, _, herr, heq⟩
    · cases hpure
    cases heq
    unfold resetPreemptionTimer at herr
    rw [act_bind] at herr
    cases hwrite : (ctx.writeControl .vmxPreemptionTimerValue 0x100000).1 with
    | ok _ =>
      rw [hwrite] at herr
      cases herr
    | error _ =>
      rw [hwrite] at herr
      cases herr
      exact ⟨_, rfl⟩
  · rcases bind_eq_iff.mp h with ⟨_, _, _, hpure⟩ | ⟨e, _, herr, heq⟩
    · cases hpure
    · cases heq
      exact orError_exit herr

theorem dispatch_mtfSound (reason : ExitReason) (qual : UInt64)
    (hsound : MtfSound ctx) : MtfSound (dispatch reason qual ctx).2 :=
  dispatch_rel (R := fun before after => MtfSound before → MtfSound after)
    (fun hab hbc h => hbc (hab h)) (fun _ _ => id) Kept.mtfSound reason qual ctx hsound

namespace VmContext

theorem finishExit_cases (ctx : VmContext) (reason : ExitReason) (qual : UInt64)
    (deterministic : Bool) (result : ExitHandlerResult) :
    (∃ e, ctx.updateMtfState = (.error e, ctx) ∧
      ctx.finishExit reason qual deterministic result = (.error e, ctx)) ∨
    ∃ ctx', ctx.updateMtfState = (.ok (), ctx') ∧
      EventsOnly ctx' (ctx.finishExit reason qual deterministic result).2 := by
  unfold finishExit
  cases hupdate : ctx.updateMtfState with
  | mk r ctx' =>
    cases r with
    | error e =>
      rw [updateMtfState_error hupdate]
      exact .inl ⟨e, rfl, rfl⟩
    | ok _ =>
      refine .inr ⟨ctx', rfl, ?_⟩
      dsimp only
      split
      · exact ctx'.captureExitAtShutdown_events
      · split
        all_goals exact ctx'.captureExit_events reason qual deterministic

theorem handleExit_settled (hsound : MtfSound ctx) :
    MtfSound ctx.handleExit.2 ∧ ((∀ e, ctx.handleExit.1 ≠ .error e) → Settled ctx.handleExit.2) := by
  unfold handleExit
  cases ctx.exitInfo with
  | error e => exact ⟨hsound, fun h => absurd rfl (h e)⟩
  | ok info =>
    obtain ⟨reason, qual⟩ := info
    dsimp only
    have hbegin : MtfSound (ctx.beginExit (!ctx.state.nonDeterministicExit reason qual)) := hsound
    have hdispatch := dispatch_mtfSound reason qual hbegin
    cases hresult : dispatch reason qual
        (ctx.beginExit (!ctx.state.nonDeterministicExit reason qual)) with
    | mk r ctx' =>
      rw [hresult] at hdispatch
      cases r with
      | error r =>
        obtain ⟨e, rfl⟩ := dispatch_exit hresult
        exact ⟨hdispatch, fun h => absurd rfl (h e)⟩
      | ok result =>
        dsimp only
        rcases ctx'.finishExit_cases reason qual
          (!ctx.state.nonDeterministicExit reason qual) result with
          ⟨e, -, heq⟩ | ⟨ctx₁, hupdate, hevents⟩
        · rw [heq]
          exact ⟨hdispatch, fun h => absurd rfl (h e)⟩
        have hupdated := updateMtfState_sound hdispatch
        rw [hupdate] at hupdated
        exact ⟨hevents.kept.mtfSound hupdated,
          fun _ => hevents.settled (updateMtfState_settled hupdate hdispatch)⟩

theorem leave_settled (hsound : MtfSound ctx) :
    MtfSound ctx.leave.2 ∧ ((∀ e, ctx.leave.1 ≠ .error e) → Settled ctx.leave.2) := by
  have hexit := handleExit_settled hsound
  unfold leave
  split
  · rename_i e ctx' heq
    rw [heq] at hexit
    exact ⟨hexit.1, fun h => absurd rfl (h e)⟩
  rename_i result ctx' hne heq
  rw [heq] at hexit
  have hevents := ctx'.finalizeExitRecord_events
  exact ⟨hevents.kept.mtfSound hexit.1, fun h => hevents.settled (hexit.2 h)⟩

variable {start : VmContext} {how : Resume}

theorem startRun_stepping {resumed : VmContext} (h : start.startRun = (.ok (), resumed))
    (hsound : MtfSound start) : MtfSound resumed ∧ (resumed.trapFlag ≠ 0 ↔ Stepping start) := by
  have hkept := start.applyInterceptPf_kept
  have hintercept : MtfSound start.applyInterceptPf := hkept.mtfSound hsound
  have hupdated := updateMtfState_sound hintercept
  have hresumed : start.applyInterceptPf.updateMtfState = (.ok (), resumed) := h
  rw [hresumed] at hupdated
  have hflag := (updateMtfState_ok hresumed hintercept).2
  unfold Stepping at hflag ⊢
  rw [hkept.trapFlag] at hflag
  exact ⟨hupdated, hflag⟩

theorem resume_stepping {resumed : VmContext}
    (h : start.resume how = (.ok (), resumed)) (hsound : MtfSound start)
    (hloop : how = .loop → Settled start) :
    MtfSound resumed ∧ (resumed.trapFlag ≠ 0 ↔ Stepping start) := by
  cases how with
  | loop =>
    cases h
    exact ⟨hsound, ((hloop rfl).stepping_iff hsound).symm⟩
  | refilled => exact startRun_stepping h hsound
  | ioctl =>
    have hclear : MtfSound (start.setEvents start.state.events.clear) := hsound
    have hresumed := startRun_stepping h hclear
    exact hresumed

theorem enter_ok {entered : VmContext} {injected : Option UInt32}
    (henter : start.enter how = (.ok injected, entered)) :
    ∃ resumed, start.resume how = (.ok (), resumed) ∧
      injectPendingInterrupt resumed = (.ok injected, entered) := by
  unfold enter at henter
  split at henter
  · cases henter
  · rename_i resumed hresume
    exact ⟨resumed, hresume, henter⟩

theorem enter_stepping {entered : VmContext} {injected : Option UInt32}
    (henter : start.enter how = (.ok injected, entered)) (hsound : MtfSound start)
    (hloop : how = .loop → Settled start) :
    MtfSound entered ∧ (entered.trapFlag ≠ 0 ↔ Stepping start) := by
  obtain ⟨resumed, hresume, hinject⟩ := enter_ok henter
  have hkept := injectPendingInterrupt_kept resumed
  rw [hinject] at hkept
  obtain ⟨hresumed, hflag⟩ := resume_stepping hresume hsound hloop
  exact ⟨hkept.mtfSound hresumed, hkept.trapFlag ▸ hflag⟩

theorem mtfSound_frames : Frames fun before after => MtfSound before → MtfSound after where
  refl _ := id
  trans hab hbc h := hbc (hab h)
  events h := h.kept.mtfSound
  interceptPf ctx := ctx.applyInterceptPf_kept.mtfSound
  trapFlag _ := updateMtfState_sound
  begin _ _ := id

theorem enter_mtfSound (how : Resume) (hsound : MtfSound start) : MtfSound (start.enter how).2 :=
  mtfSound_frames.enter (fun ctx => (injectPendingInterrupt_kept ctx).mtfSound) start how hsound

end VmContext

/-! ## What a whole run keeps -/

/-- The machine, and that a precise-exit page is registered. -/
structure Carries (before after : VmContext) : Prop where
  machine : after.machine = before.machine
  pebs : before.state.precise.pebsState.isSome = true →
    after.state.precise.pebsState.isSome = true

theorem Carries.refl (ctx : VmContext) : Carries ctx ctx :=
  ⟨rfl, id⟩

theorem Carries.trans {a b c : VmContext} (hab : Carries a b) (hbc : Carries b c) : Carries a c :=
  ⟨hbc.machine.trans hab.machine, fun h => hbc.pebs (hab.pebs h)⟩

theorem Kept.carries (h : Kept before after) : Carries before after :=
  ⟨h.machine, h.pebs⟩

theorem SameTargets.carries (h : SameTargets before after) : Carries before after :=
  ⟨h.machine, fun hpebs => h.pebs.trans hpebs⟩

theorem dispatch_carries (reason : ExitReason) (qual : UInt64) (ctx : VmContext) :
    Carries ctx (dispatch reason qual ctx).2 :=
  dispatch_rel (R := Carries) Carries.trans (fun _ _ => ⟨rfl, id⟩) Kept.carries reason qual ctx

namespace VmContext

theorem carries_frames : Frames Carries where
  refl := .refl
  trans := .trans
  events h := h.kept.carries
  interceptPf ctx := ctx.applyInterceptPf_kept.carries
  trapFlag ctx := (updateMtfState_sameTargets ctx).carries
  begin _ _ := ⟨rfl, id⟩

theorem leave_carries (ctx : VmContext) : Carries ctx ctx.leave.2 :=
  carries_frames.leave dispatch_carries ctx

theorem enter_carries (ctx : VmContext) (how : Resume) : Carries ctx (ctx.enter how).2 :=
  carries_frames.enter (fun ctx => (injectPendingInterrupt_kept ctx).carries) ctx how

theorem leave_lastInstructionCount (ctx : VmContext) :
    ctx.leave.2.state.clock.lastInstructionCount = ctx.state.clock.lastInstructionCount := by
  rw [leave_clock]
  cases hdet : ctx.exitsDeterministically with
  | true => exact (handleExit_clock_of_deterministic hdet).2.2
  | false => rw [handleExit_clock_of_nonDeterministic hdet]

end VmContext

theorem Outside.carries (h : Outside before after) : Carries before after := by
  induction h with
  | refl => exact .refl before
  | reconfigured _ hconf ih =>
    exact ih.trans ⟨hconf.machine, fun h => by rw [hconf.precise]; exact h⟩
  | @refused c c' how e _ henter ih =>
    have hcarries := c.enter_carries how
    rw [henter] at hcarries
    exact ih.trans hcarries

theorem Outside.mtfSound (h : Outside before after)
    (hsound : MtfSound before) : MtfSound after := by
  induction h with
  | refl => exact hsound
  | reconfigured _ hconf ih =>
    intro henabled
    rw [trapFlag, hconf.controls]
    exact ih (hconf.precise ▸ henabled)
  | @refused c c' how e _ henter ih =>
    have hsound := enter_mtfSound how ih
    rw [henter] at hsound
    exact hsound

theorem Ran.mtfSound {entered exited : VmContext} (h : Ran entered exited)
    (hsound : MtfSound entered) : MtfSound exited := by
  intro henabled
  rw [trapFlag, h.primaryControls]
  exact hsound (h.precise ▸ henabled)

theorem Created.mtfSound (h : Created ctx) : MtfSound ctx := by
  have hclear : ctx.state.precise.mtfEnabled = false := by
    cases h with
    | root h =>
      obtain ⟨-, ⟨-, hprecise⟩, -⟩ := RootVm.new_spec h
      rw [hprecise]
    | fork h =>
      obtain ⟨fresh, hfresh, rfl⟩ := ForkedVm.new_spec h
      rw [fresh.preCowIoChannelPage_memory.kept.mtfEnabled, hfresh.mtfEnabled]
  intro henabled
  rw [hclear] at henabled
  cases henabled

/-- Along a run the mirror stays sound, and it is settled where the loop goes on. -/
theorem Iteration.Valid.mtfSound (hvalid : it.Valid) (hsound : MtfSound it.start) :
    MtfSound it.exited ∧ MtfSound it.done ∧ (it.result = .continue_ → Settled it.done) := by
  have hentered := enter_mtfSound it.how hsound
  rw [hvalid.enter] at hentered
  have hexited := hvalid.ran.mtfSound hentered
  have hleave := leave_settled hexited
  rw [hvalid.leave] at hleave
  refine ⟨hexited, hleave.1, fun hresult => hleave.2 fun e he => ?_⟩
  rw [hresult] at he
  cases he

theorem Follows.settled {prev : Iteration} (h : Follows prev it) (hvalid : prev.Valid)
    (hsound : MtfSound prev.start) : MtfSound it.start ∧ (it.how = .loop → Settled it.start) := by
  obtain ⟨-, hdone, hsettled⟩ := hvalid.mtfSound hsound
  refine ⟨h.outside.mtfSound hdone, fun hhow => ?_⟩
  cases h with
  | loop hresult _ hstart => exact hstart ▸ hsettled hresult
  | refilled _ hhow' _ | ioctl hhow' _ =>
    rw [hhow'] at hhow
    cases hhow

/-- Every iteration of a run starts with a sound mirror, settled if the loop goes on. -/
theorem Run.settled (hctx : MtfSound ctx) {run : List Iteration} (hrun : Run ctx (it :: run)) :
    MtfSound it.start ∧ (it.how = .loop → Settled it.start) := by
  induction run generalizing it with
  | nil =>
    cases hrun with
    | first _ hhow hstart =>
      refine ⟨hstart.mtfSound hctx, fun h => ?_⟩
      rw [hhow] at h
      cases h
  | cons prev run ih =>
    cases hrun with
    | next hrun _ hfollows => exact hfollows.settled hrun.valid (ih hrun).1

end Bedrock
