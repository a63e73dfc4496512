import Bedrock.Injection
import Bedrock.TrapFlag

/-!
# Covering precise-exit targets

Every entry into the guest should be made such that the guest cannot run past a target:
single-stepped, or with the counter armed to overflow before the nearest target.  The
counter is armed for the minimum of the pending deadlines, and one that is too close or
already past disarms it, however many targets lie ahead.
-/

namespace Bedrock

open Support VmState VmContext List GuestState

/-- The guest is single-stepped, or the counter overflows a margin before `T`. -/
def VmContext.Covers (ctx : VmContext) (T : Nat) : Prop :=
  ctx.trapFlag ≠ 0 ∨
    ∃ pebs, ctx.state.precise.pebsState = some pebs ∧ pebs.armedAction.isSome = true ∧
      ctx.state.clock.now ≤ pebs.armedTargetTsc ∧
      pebs.armedTargetTsc + ctx.machine.getPebsMargin ≤ T

def VmContext.Covered (ctx : VmContext) : Prop :=
  ∀ T, ctx.state.TargetAhead T → ctx.Covers T

/-! ## Arming -/

/-- What the choice of a target looks at. -/
structure SameTimers (before after : VmContext) : Prop where
  machine : after.machine = before.machine
  clock : after.state.clock = before.state.clock
  config : after.state.config = before.state.config
  deadline : after.state.guest.devices.apic.timerDeadline =
    before.state.guest.devices.apic.timerDeadline
  target : after.state.timerTarget = before.state.timerTarget
  request : after.state.nextIoChannelTargetTsc = before.state.nextIoChannelTargetTsc

theorem SameTimers.trans {a b c : VmContext} (hab : SameTimers a b) (hbc : SameTimers b c) :
    SameTimers a c :=
  ⟨hbc.machine.trans hab.machine, hbc.clock.trans hab.clock, hbc.config.trans hab.config,
    hbc.deadline.trans hab.deadline, hbc.target.trans hab.target, hbc.request.trans hab.request⟩

variable {before after : VmContext} {st : VmState} {T : Nat}
  {ctx armed entered ctx' start : VmContext}

section

variable (h : SameTimers before after)
include h

theorem SameTimers.singleStep :
    after.state.nextSingleStepStartTsc = before.state.nextSingleStepStartTsc := by
  simp only [nextSingleStepStartTsc, h.config, h.clock]

theorem SameTimers.armCandidates :
    after.state.armCandidates = before.state.armCandidates := by
  simp only [VmState.armCandidates, h.deadline, h.request, h.config, h.singleStep]

theorem SameTimers.targetAhead_iff
    (T : Nat) : after.state.TargetAhead T ↔ before.state.TargetAhead T := by
  simp only [TargetAhead, h.clock, h.target, h.request, h.config, h.singleStep]

end

theorem VmState.mem_armCandidates :
    T ∈ st.armCandidates ↔
      (T ≠ 0 ∧ st.guest.devices.apic.timerDeadline = T) ∨ st.nextIoChannelTargetTsc = some T ∨
        st.config.stopAtTsc = some T ∨ st.nextSingleStepStartTsc = some T := by
  simp only [armCandidates, mem_filterMap, mem_cons, not_mem_nil, or_false, id_eq, exists_eq_right]
  by_cases hdeadline : st.guest.devices.apic.timerDeadline = 0
  · rw [if_pos hdeadline]
    grind
  · rw [if_neg hdeadline]
    grind

theorem VmState.timerTarget_eq_some (h : st.timerTarget = some T) :
    T ≠ 0 ∧ st.guest.devices.apic.timerDeadline = T ∧ st.guest.devices.apic.enabled ∧
      st.guest.devices.apic.timerMasked = false := by
  unfold timerTarget at h
  dsimp only at h
  split at h
  · cases h
  rename_i hrunning
  split at h
  · cases h
  rename_i henabled
  split at h
  · cases h
  rename_i hmasked
  cases h
  exact ⟨hrunning, rfl, by simpa using henabled, by simpa using hmasked⟩

theorem VmState.TargetAhead.mem_armCandidates (h : st.TargetAhead T) : T ∈ st.armCandidates := by
  obtain ⟨-, htimer | hothers⟩ := h
  · obtain ⟨hne, hdeadline, -⟩ := timerTarget_eq_some htimer
    exact VmState.mem_armCandidates.mpr (.inl ⟨hne, hdeadline⟩)
  · exact VmState.mem_armCandidates.mpr (.inr hothers)

def VmContext.Armable (ctx : VmContext) : Prop :=
  ctx.state.clock.now + ctx.machine.getMtfMargin ≤ ctx.state.chosenTarget

theorem VmState.chosenTarget_spec (h : T ∈ st.armCandidates) :
    st.chosenTarget ∈ st.armCandidates ∧ st.chosenTarget ≤ T := by
  unfold chosenTarget
  cases hmin : st.armCandidates.min? with
  | none =>
    rw [List.min?_eq_none_iff.mp hmin] at h
    cases h
  | some least =>
    obtain ⟨hmem, hle⟩ := List.min?_eq_some_iff.mp hmin
    exact ⟨hmem, hle T h⟩

theorem armPreciseExit_of_le {pebs : PebsState} {margin now : Nat} {vector : UInt8} {clock : Clock}
    (h : now + (PEBS_MIN_DELTA + margin) ≤ T) :
    ∃ pebs', armPreciseExit pebs margin now T vector clock = (.armed, pebs') ∧
      pebs'.armedAction = some vector ∧ pebs'.armedTargetTsc = T - margin ∧
      pebs'.counterReload = (2 ^ 64 - (T - now - margin)) % 2 ^ 48 := by
  unfold armPreciseExit
  rw [if_neg (by omega), if_neg (by omega)]
  exact ⟨_, rfl, rfl, rfl, rfl⟩

theorem armPreciseExit_of_lt {margin now : Nat} (pebs : PebsState) (vector : UInt8) (clock : Clock)
    (h : T < now + (PEBS_MIN_DELTA + margin)) :
    (armPreciseExit pebs margin now T vector clock).1 ≠ .armed := by
  unfold armPreciseExit
  by_cases hpast : T < now
  · rw [if_pos hpast]
    intro h
    cases h
  · rw [if_neg hpast, if_pos (by omega)]
    intro h
    cases h

theorem armForNextIteration_pebs (hpebs : ctx.state.precise.pebsState.isSome) :
    ∃ pebs, ctx.armForNextIteration.state.precise.pebsState = some pebs ∧
      (ctx.Armable → pebs.armedAction.isSome ∧
        pebs.armedTargetTsc + ctx.machine.getPebsMargin = ctx.state.chosenTarget ∧
        pebs.counterReload =
          (2 ^ 64 - (pebs.armedTargetTsc - ctx.state.clock.now)) % 2 ^ 48) ∧
      (¬ctx.Armable → pebs.armedAction = none) := by
  obtain ⟨pebs, hpebs⟩ := Option.isSome_iff_exists.mp hpebs
  unfold VmContext.armForNextIteration
  rw [hpebs]
  dsimp only
  refine ⟨_, rfl, ?_⟩
  unfold Armable Machine.getMtfMargin
  constructor
  · intro harmable
    obtain ⟨pebs', heq, haction, htarget, hreload⟩ := armPreciseExit_of_le harmable
    have hne : ctx.state.chosenTarget ≠ 0 := by
      rw [PEBS_MIN_DELTA] at harmable
      omega
    rw [if_pos hne, heq]
    refine ⟨by rw [haction]; rfl, ?_, ?_⟩
    · rw [htarget]
      omega
    · rw [hreload, htarget, Nat.sub_right_comm]
  · intro hfar
    split
    · split
      · rename_i heq
        exact absurd (congrArg Prod.fst heq) (armPreciseExit_of_lt _ _ _ (not_le.mp hfar))
      · rfl
    · rfl

/-- A time the counter may be armed for: the APIC timer if it is running, a request that
can be signalled, the stop threshold or the start of single-stepping. -/
def VmState.ArmTarget (st : VmState) (T : Nat) : Prop :=
  (T ≠ 0 ∧ st.guest.devices.apic.timerDeadline = T) ∨ st.nextIoChannelTargetTsc = some T ∨
    st.config.stopAtTsc = some T ∨ st.nextSingleStepStartTsc = some T

theorem VmState.chosenTarget_of_isLeast
    (h : IsLeast {T | st.ArmTarget T} T) : st.chosenTarget = T := by
  obtain ⟨hmem, hle⟩ := chosenTarget_spec (mem_armCandidates.mpr h.1)
  exact le_antisymm hle (h.2 (mem_armCandidates.mp hmem))

theorem VmState.chosenTarget_cases (st : VmState) :
    IsLeast {T | st.ArmTarget T} st.chosenTarget ∨ st.chosenTarget = 0 := by
  by_cases hany : ∃ T, st.ArmTarget T
  · obtain ⟨T, hT⟩ := hany
    obtain ⟨hmem, -⟩ := chosenTarget_spec (mem_armCandidates.mpr hT)
    refine .inl ⟨mem_armCandidates.mp hmem, fun T' hT' => ?_⟩
    exact (chosenTarget_spec (mem_armCandidates.mpr hT')).2
  · right
    have hnil : st.armCandidates = [] :=
      eq_nil_iff_forall_not_mem.mpr fun T hT => hany ⟨T, mem_armCandidates.mp hT⟩
    rw [chosenTarget, hnil]
    rfl

/-- `arm_for_next_iteration` arms for the least target if it is far enough ahead: the
counter then overflows a margin before the target.  In every other case nothing stays
armed, whatever was armed before. -/
theorem arm_for_next_iteration_arms {ctx : VmContext}
    (hpebs : ctx.state.precise.pebsState.isSome = true)
    (hnear : ∀ T, IsLeast {T | ctx.state.ArmTarget T} T → T < ctx.state.clock.now + 2 ^ 48) :
    ∃ pebs, ctx.armForNextIteration.state.precise.pebsState = some pebs ∧
      (∀ T, IsLeast {T | ctx.state.ArmTarget T} T →
        ctx.state.clock.now + PEBS_MIN_DELTA + ctx.machine.getPebsMargin ≤ T →
          pebs.armedAction.isSome = true ∧
          pebs.armedTargetTsc = T - ctx.machine.getPebsMargin ∧
          PEBS_MIN_DELTA ≤ T - ctx.machine.getPebsMargin - ctx.state.clock.now ∧
          OverflowsAfter 48 pebs.counterReload
            (T - ctx.machine.getPebsMargin - ctx.state.clock.now)) ∧
      ((¬∃ T, IsLeast {T | ctx.state.ArmTarget T} T ∧
        ctx.state.clock.now + PEBS_MIN_DELTA + ctx.machine.getPebsMargin ≤ T) →
          pebs.armedAction = none) := by
  obtain ⟨pebs, heq, harmed, hout⟩ := armForNextIteration_pebs hpebs
  rw [VmContext.Armable, Machine.getMtfMargin] at harmed hout
  refine ⟨pebs, heq, fun T hleast hfar => ?_, fun hnone => ?_⟩
  · have hchosen := VmState.chosenTarget_of_isLeast hleast
    rw [hchosen] at harmed
    obtain ⟨haction, htarget, hreload⟩ := harmed (by omega)
    have htsc : pebs.armedTargetTsc = T - ctx.machine.getPebsMargin := by omega
    have hdelta : PEBS_MIN_DELTA ≤ T - ctx.machine.getPebsMargin - ctx.state.clock.now := by omega
    refine ⟨haction, htsc, hdelta, ?_⟩
    -- the reload value is the negated distance, cut to the width of the counter
    have hlt : T - ctx.machine.getPebsMargin - ctx.state.clock.now < 2 ^ 48 := by
      have := hnear T hleast
      omega
    rw [htsc] at hreload
    rw [PEBS_MIN_DELTA] at hdelta
    generalize T - ctx.machine.getPebsMargin - ctx.state.clock.now = d at hreload hdelta hlt ⊢
    have hneg : pebs.counterReload = 2 ^ 48 - d := by
      rw [hreload]
      omega
    rw [hneg]
    exact overflowsAfter_neg (by omega) (by omega)
  · refine hout fun hfar => ?_
    rcases ctx.state.chosenTarget_cases with hleast | hzero
    · exact hnone ⟨_, hleast, by omega⟩
    · rw [hzero, PEBS_MIN_DELTA] at hfar
      omega

def armingVm : VmContext :=
  { newVm with
    state := { newVm.state with
      config := { newVm.state.config with stopAtTsc := some 1000 }
      precise := { newVm.state.precise with
        pebsState := some { dsManagementGpa := 0, pebsBufferGpa := 0, dsAreaVa := 0 } } } }

theorem arm_for_next_iteration_arms_stop :
    ∃ pebs, armingVm.armForNextIteration.state.precise.pebsState = some pebs ∧
      pebs.armedTargetTsc = 992 ∧ OverflowsAfter 48 pebs.counterReload 992 := by
  have hleast : IsLeast {T | armingVm.state.ArmTarget T} 1000 := by
    refine ⟨.inr (.inr (.inl (by decide +kernel))), ?_⟩
    rintro T (⟨hne, hdeadline⟩ | hrequest | hstop | hstart)
    · exact absurd (hdeadline.symm.trans (by decide +kernel)) hne
    · rw [show armingVm.state.nextIoChannelTargetTsc = none by decide +kernel] at hrequest
      cases hrequest
    · rw [show armingVm.state.config.stopAtTsc = some 1000 by decide +kernel] at hstop
      cases hstop
      exact le_rfl
    · rw [show armingVm.state.nextSingleStepStartTsc = none by decide +kernel] at hstart
      cases hstart
  have hmargin : armingVm.machine.getPebsMargin = 8 := by decide +kernel
  have hnow : armingVm.state.clock.now = 0 := by decide +kernel
  have hpresent : armingVm.state.precise.pebsState.isSome = true := rfl
  obtain ⟨pebs, hpebs, harmed, -⟩ := arm_for_next_iteration_arms hpresent
    fun T hT => by rw [hT.unique hleast, hnow]; decide
  obtain ⟨-, htarget, -, hoverflow⟩ := harmed 1000 hleast (by rw [hmargin, hnow]; decide)
  rw [hmargin] at htarget hoverflow
  rw [hnow] at hoverflow
  exact ⟨pebs, hpebs, htarget, hoverflow⟩

theorem covered_iff_armable (hflag : entered.trapFlag = 0)
    (hpebs : armed.state.precise.pebsState.isSome)
    (hprecise : entered.state.precise = armed.armForNextIteration.state.precise)
    (htimers : SameTimers armed entered) :
    entered.Covered ↔ armed.Armable ∨ ∀ T, ¬entered.state.TargetAhead T := by
  obtain ⟨pebs, harmed, hin, hout⟩ := armForNextIteration_pebs hpebs
  rw [← hprecise] at harmed
  constructor
  · intro hcovered
    by_cases harmable : armed.Armable
    · exact .inl harmable
    right
    intro T hahead
    rcases hcovered T hahead with hset | ⟨pebs', heq, haction, -⟩
    · exact hset hflag
    rw [harmed] at heq
    cases heq
    rw [hout harmable] at haction
    cases haction
  · rintro (harmable | hnone) T hahead
    · obtain ⟨haction, htarget, -⟩ := hin harmable
      refine .inr ⟨pebs, harmed, haction, ?_⟩
      have hmem := hahead.mem_armCandidates
      rw [htimers.armCandidates] at hmem
      have hchosen := (chosenTarget_spec hmem).2
      rw [htimers.clock, htimers.machine, htarget]
      rw [Armable, Machine.getMtfMargin] at harmable
      exact ⟨by omega, hchosen⟩
    · exact absurd hahead (hnone T)

/-! ## From the start of an iteration to the entry -/

namespace VmContext

/-- The timer's deadline when the counter is armed: a timer that fires has stopped, or
started its next period. -/
def deadlineAtEntry (ctx : VmContext) : Nat :=
  let apic := ctx.state.guest.devices.apic
  if (ctx.considers && apic.timerDue ctx.state.clock.emulatedTsc) = true then
    if apic.timerPeriodic then (ctx.state.clock.emulatedTsc + apic.timerTicks) % 2 ^ 64 else 0
  else apic.timerDeadline

/-- The target of the queued request when the counter is armed, unless it is signalled. -/
def requestAtEntry (ctx : VmContext) : Option Nat :=
  if (ctx.considers && ctx.state.guest.ioChannelDue ctx.state.clock.emulatedTsc) = true then none
  else ctx.state.nextIoChannelTargetTsc

end VmContext

/-- The timers at an entry, in terms of the start of the iteration. -/
structure EntryTimers (start entered : VmContext) : Prop where
  machine : entered.machine = start.machine
  clock : entered.state.clock = start.state.clock
  config : entered.state.config = start.state.config
  deadline : entered.state.guest.devices.apic.timerDeadline = start.deadlineAtEntry
  enabled : entered.state.guest.devices.apic.enabled = start.state.guest.devices.apic.enabled
  masked : entered.state.guest.devices.apic.timerMasked =
    start.state.guest.devices.apic.timerMasked
  request : entered.state.nextIoChannelTargetTsc = start.requestAtEntry

namespace GuestState

variable (g : GuestState) (tsc : Nat)

theorem raise_apic :
    ∃ irr, (g.raise tsc).devices.apic = { g.devices.apic with
      irr
      timerDeadline :=
        if g.devices.apic.timerDue tsc then
          if g.devices.apic.timerPeriodic then (tsc + g.devices.apic.timerTicks) % 2 ^ 64 else 0
        else g.devices.apic.timerDeadline } := by
  have htimer : ∃ irr, (g.raiseTimer tsc).devices.apic = { g.devices.apic with
      irr
      timerDeadline :=
        if g.devices.apic.timerDue tsc then
          if g.devices.apic.timerPeriodic then (tsc + g.devices.apic.timerTicks) % 2 ^ 64 else 0
        else g.devices.apic.timerDeadline } := by
    unfold raiseTimer
    split
    all_goals exact ⟨_, rfl⟩
  obtain ⟨irr, htimer⟩ := htimer
  unfold raise raiseRequest DeviceStates.ioapicDeliverIrq
  split
  · dsimp only
    split
    · exact ⟨_, htimer⟩
    split
    · exact ⟨_, htimer⟩
    · exact ⟨_, by dsimp only; rw [htimer]⟩
  · exact ⟨_, htimer⟩

theorem raiseTimer_ioChannelDue : (g.raiseTimer tsc).ioChannelDue tsc = g.ioChannelDue tsc := by
  unfold raiseTimer
  split
  · rfl
  · rfl

end GuestState

theorem nextIoChannelTargetTsc_raise (st : VmState) (tsc : Nat) :
    { st with guest := st.guest.raise tsc }.nextIoChannelTargetTsc =
      if st.guest.ioChannelDue tsc then none else st.nextIoChannelTargetTsc := by
  have htimer : { st with guest := st.guest.raiseTimer tsc }.nextIoChannelTargetTsc =
      st.nextIoChannelTargetTsc := by
    unfold raiseTimer
    split
    · rfl
    · rfl
  unfold raise raiseRequest
  rw [raiseTimer_ioChannelDue]
  split
  · simp [nextIoChannelTargetTsc]
  · exact htimer

theorem Eligibility.entryTimers {eligible : Bool}
    (h : Eligibility ctx eligible ctx') : EntryTimers ctx ctx' := by
  cases h with
  | reinjected hinterrupted =>
    have hnot : ctx.considers = false := by simp [considers, hinterrupted]
    refine ⟨rfl, rfl, rfl, ?_, rfl, rfl, ?_⟩
    · rw [deadlineAtEntry, hnot]
      rfl
    · rw [requestAtEntry, hnot]
      rfl
  | deferred _ hnot =>
    refine ⟨rfl, rfl, rfl, ?_, rfl, rfl, ?_⟩
    · rw [deadlineAtEntry, hnot]
      rfl
    · rw [requestAtEntry, hnot]
      rfl
  | raised hconsiders hevents =>
    obtain ⟨_, _, _, _, _, _, rfl⟩ := hevents
    obtain ⟨irr, hapic⟩ := ctx.state.guest.raise_apic ctx.state.clock.emulatedTsc
    refine ⟨rfl, rfl, rfl, ?_, ?_, ?_, ?_⟩
    · simp only [setGuest, hapic, deadlineAtEntry, hconsiders, Bool.true_and]
    · simp only [setGuest, hapic, ApicState.enabled]
    · simp only [setGuest, hapic, ApicState.timerMasked]
    · rw [requestAtEntry, hconsiders, Bool.true_and,
        ← nextIoChannelTargetTsc_raise ctx.state]
      rfl

theorem Delivery.sameTimers {injected : Option UInt32} (h : Delivery ctx injected ctx') :
    SameTimers ctx ctx' ∧ ctx'.state.precise = ctx.state.precise ∧
      ctx'.state.guest.devices.apic.enabled = ctx.state.guest.devices.apic.enabled ∧
      ctx'.state.guest.devices.apic.timerMasked = ctx.state.guest.devices.apic.timerMasked := by
  cases h with
  | nothing _ => exact ⟨⟨rfl, rfl, rfl, rfl, rfl, rfl⟩, rfl, rfl, rfl⟩
  | window _ _ hwindow =>
    obtain ⟨controls, hstate⟩ := setInterruptWindowExiting_state ctx true
    rw [hwindow] at hstate
    obtain rfl := hstate
    exact ⟨⟨rfl, rfl, rfl, rfl, rfl, rfl⟩, rfl, rfl, rfl⟩
  | injected _ _ hwindow =>
    obtain ⟨controls, hstate⟩ := setInterruptWindowExiting_state _ false
    rw [hwindow] at hstate
    obtain rfl := hstate
    exact ⟨⟨rfl, rfl, rfl, rfl, rfl, rfl⟩, rfl, rfl, rfl⟩

theorem armForNextIteration_sameTimers (ctx : VmContext) :
    SameTimers ctx ctx.armForNextIteration := by
  unfold VmContext.armForNextIteration
  split
  all_goals exact ⟨rfl, rfl, rfl, rfl, rfl, rfl⟩

theorem Eligibility.pebs {eligible : Bool} (h : Eligibility ctx eligible ctx') :
    ctx'.state.precise.pebsState = ctx.state.precise.pebsState := by
  cases h with
  | reinjected _ | deferred _ _ => rfl
  | raised _ hevents =>
    obtain ⟨_, _, _, _, hpebs, _, rfl⟩ := hevents
    exact hpebs

theorem injectPendingInterrupt_timers {injected : Option UInt32}
    (h : injectPendingInterrupt ctx = (.ok injected, entered)) :
    ∃ armed, EntryTimers ctx armed ∧ SameTimers armed entered ∧
      entered.state.precise = armed.armForNextIteration.state.precise ∧
      armed.state.precise.pebsState = ctx.state.precise.pebsState := by
  obtain ⟨eligible, armed, heligible, ⟨-, -, rfl⟩ | ⟨-, hdelivery⟩⟩ := injectPendingInterrupt_ok h
  · exact ⟨armed, heligible.entryTimers, armForNextIteration_sameTimers armed, rfl, heligible.pebs⟩
  obtain ⟨htimers, hprecise, -⟩ := hdelivery.sameTimers
  exact ⟨armed, heligible.entryTimers, (armForNextIteration_sameTimers armed).trans htimers,
    hprecise, heligible.pebs⟩

/-- What precedes the loop does not touch what `EntryTimers` is about. -/
structure SameStart (start resumed : VmContext) : Prop where
  targets : SameTargets start resumed
  considers : resumed.considers = start.considers

theorem startRun_sameStart (ctx : VmContext) : SameStart ctx ctx.startRun.2 := by
  have hintercept : SameTargets ctx ctx.applyInterceptPf := ⟨rfl, rfl, rfl, rfl, rfl⟩
  refine ⟨hintercept.trans (updateMtfState_sameTargets _), ?_⟩
  obtain ⟨_, _, h⟩ := ctx.applyInterceptPf.updateMtfState_eq
  rw [startRun, h]
  rfl

theorem resume_sameStart (start : VmContext) (how : Resume) :
    SameStart start (start.resume how).2 := by
  cases how with
  | loop => exact ⟨.refl start, rfl⟩
  | refilled => exact startRun_sameStart start
  | ioctl =>
    have h := startRun_sameStart (start.setEvents start.state.events.clear)
    exact ⟨⟨h.targets.machine, h.targets.clock, h.targets.config, h.targets.guest,
      h.targets.pebs⟩, h.considers⟩

theorem SameStart.entryTimers {resumed : VmContext} (h : SameStart start resumed)
    (htimers : EntryTimers resumed armed) : EntryTimers start armed where
  machine := htimers.machine.trans h.targets.machine
  clock := htimers.clock.trans h.targets.clock
  config := htimers.config.trans h.targets.config
  deadline := by
    rw [htimers.deadline]
    simp only [deadlineAtEntry, h.considers, h.targets.guest, h.targets.clock]
  enabled := by rw [htimers.enabled, h.targets.guest]
  masked := by rw [htimers.masked, h.targets.guest]
  request := by
    rw [htimers.request]
    simp only [requestAtEntry, h.considers, nextIoChannelTargetTsc,
      h.targets.guest, h.targets.clock]

/-! ## Coverage -/

namespace VmContext

def TargetsAhead (ctx : VmContext) : Prop :=
  (ctx.state.guest.devices.apic.enabled = true ∧
      ctx.state.guest.devices.apic.timerMasked = false ∧
      ctx.state.clock.now < ctx.deadlineAtEntry) ∨
    (∃ T, ctx.requestAtEntry = some T ∧ ctx.state.clock.now < T) ∨
    (∃ T, ctx.state.config.stopAtTsc = some T ∧ ctx.state.clock.now < T) ∨
    ∃ T, ctx.state.nextSingleStepStartTsc = some T

/-- A deadline keeps the counter from being armed: that of the timer, even if it is
masked, the APIC is disabled or it has just been reloaded, if it is past or less than the
margin away; or a request or the stop threshold that execution is already past. -/
def Obstructed (ctx : VmContext) : Prop :=
  (ctx.deadlineAtEntry ≠ 0 ∧
      ctx.deadlineAtEntry < ctx.state.clock.now + ctx.machine.getMtfMargin) ∨
    (∃ T, ctx.requestAtEntry = some T ∧ T ≤ ctx.state.clock.now) ∨
    ∃ T, ctx.state.config.stopAtTsc = some T ∧ T ≤ ctx.state.clock.now

end VmContext

theorem EntryTimers.timerTarget (h : EntryTimers start entered) (T : Nat) :
    entered.state.timerTarget = some T ↔
      start.state.guest.devices.apic.enabled ∧
        start.state.guest.devices.apic.timerMasked = false ∧ T ≠ 0 ∧ start.deadlineAtEntry = T := by
  unfold VmState.timerTarget
  dsimp only
  rw [h.deadline, h.enabled, h.masked]
  grind

theorem EntryTimers.singleStep (h : EntryTimers start entered) :
    entered.state.nextSingleStepStartTsc = start.state.nextSingleStepStartTsc := by
  simp only [nextSingleStepStartTsc, h.config, h.clock]

theorem nextSingleStepStartTsc_ahead
    (h : st.nextSingleStepStartTsc = some T) : st.clock.now < T := by
  unfold nextSingleStepStartTsc at h
  split at h
  · cases h
  split at h
  · rename_i hlt
    cases h
    exact hlt
  · cases h

theorem EntryTimers.targetAhead_iff (h : EntryTimers start entered) :
    (∃ T, entered.state.TargetAhead T) ↔ start.TargetsAhead := by
  unfold TargetAhead TargetsAhead
  simp only [h.timerTarget, h.clock, h.request, h.config, h.singleStep]
  constructor
  · rintro ⟨T, hlt, ⟨henabled, hmasked, -, rfl⟩ | hrequest | hstop | hstep⟩
    · exact .inl ⟨henabled, hmasked, hlt⟩
    · exact .inr (.inl ⟨T, hrequest, hlt⟩)
    · exact .inr (.inr (.inl ⟨T, hstop, hlt⟩))
    · exact .inr (.inr (.inr ⟨T, hstep⟩))
  · rintro (⟨henabled, hmasked, hlt⟩ | ⟨T, hrequest, hlt⟩ | ⟨T, hstop, hlt⟩ | ⟨T, hstep⟩)
    · exact ⟨_, hlt, .inl ⟨henabled, hmasked, by omega, rfl⟩⟩
    · exact ⟨T, hlt, .inr (.inl hrequest)⟩
    · exact ⟨T, hlt, .inr (.inr (.inl hstop))⟩
    · exact ⟨T, nextSingleStepStartTsc_ahead hstep, .inr (.inr (.inr hstep))⟩

theorem EntryTimers.mem_armCandidates (h : EntryTimers start armed) :
    T ∈ armed.state.armCandidates ↔
      (T ≠ 0 ∧ start.deadlineAtEntry = T) ∨ start.requestAtEntry = some T ∨
        start.state.config.stopAtTsc = some T ∨ start.state.nextSingleStepStartTsc = some T := by
  rw [VmState.mem_armCandidates, h.deadline, h.request, h.config, h.singleStep]

theorem requestAtEntry_eq_some (h : ctx.requestAtEntry = some T) :
    ctx.state.nextIoChannelTargetTsc = some T := by
  unfold requestAtEntry at h
  split at h
  · cases h
  · exact h

theorem EntryTimers.armable_iff (h : EntryTimers start armed)
    (hpebs : start.state.precise.pebsState.isSome)
    (hwants : start.state.wantsMtf start.machine.getMtfMargin = false)
    (hahead : start.TargetsAhead) : armed.Armable ↔ ¬start.Obstructed := by
  have hfar : ∀ T, start.state.TargetAhead T →
      start.state.clock.now + start.machine.getMtfMargin ≤ T := by
    intro T hT
    by_contra hnear
    rw [wantsMtf_of_near hpebs hT (by omega)] at hwants
    cases hwants
  obtain ⟨T, hT⟩ := h.targetAhead_iff.mpr hahead
  have hchosen := fun {c : Nat} (hc : c ∈ armed.state.armCandidates) =>
    (chosenTarget_spec hc).2
  have hmem := (chosenTarget_spec hT.mem_armCandidates).1
  rw [Armable, h.clock, h.machine]
  constructor
  · rintro harmable (⟨hrunning, hnear⟩ | ⟨c, hrequest, hpast⟩ | ⟨c, hstop, hpast⟩)
    · have hle := hchosen (h.mem_armCandidates.mpr (.inl ⟨hrunning, rfl⟩))
      omega
    · have hle := hchosen (h.mem_armCandidates.mpr (.inr (.inl hrequest)))
      rw [Machine.getMtfMargin, PEBS_MIN_DELTA] at harmable
      omega
    · have hle := hchosen (h.mem_armCandidates.mpr (.inr (.inr (.inl hstop))))
      rw [Machine.getMtfMargin, PEBS_MIN_DELTA] at harmable
      omega
  · intro hclear
    rw [Obstructed, not_or, not_or] at hclear
    obtain ⟨htimer, hrequests, hstops⟩ := hclear
    rcases h.mem_armCandidates.mp hmem with ⟨hrunning, hdeadline⟩ | hrequest | hstop | hstep
    · by_contra hnear
      exact htimer ⟨by rw [hdeadline]; exact hrunning, by omega⟩
    · refine hfar _ ⟨?_, .inr (.inl (requestAtEntry_eq_some hrequest))⟩
      by_contra hpast
      exact hrequests ⟨_, hrequest, by omega⟩
    · refine hfar _ ⟨?_, .inr (.inr (.inl hstop))⟩
      by_contra hpast
      exact hstops ⟨_, hstop, by omega⟩
    · exact hfar _ ⟨nextSingleStepStartTsc_ahead hstep, .inr (.inr (.inr hstep))⟩

theorem armForNextIteration_isSome (ctx : VmContext) :
    ctx.armForNextIteration.state.precise.pebsState.isSome =
      ctx.state.precise.pebsState.isSome := by
  unfold VmContext.armForNextIteration
  split
  · rename_i hnone
    rw [hnone]
  rename_i hsome
  rw [hsome]
  rfl

theorem Iteration.Valid.covered_iff {it : Iteration} (hvalid : it.Valid) (hsound : MtfSound it.start)
    (hloop : it.how = .loop → Settled it.start)
    (hpebs : it.entered.state.precise.pebsState.isSome) :
    it.entered.Covered ↔ Stepping it.start ∨ ¬it.start.TargetsAhead ∨ ¬it.start.Obstructed := by
  obtain ⟨-, hflag⟩ := enter_stepping hvalid.enter hsound hloop
  by_cases hstepping : Stepping it.start
  · have hset := hflag.mpr hstepping
    exact ⟨fun _ => .inl hstepping, fun _ T _ => .inl hset⟩
  have hclear : it.entered.trapFlag = 0 := by
    by_contra hset
    exact hstepping (hflag.mp hset)
  have hwants : it.start.state.wantsMtf it.start.machine.getMtfMargin = false := by
    by_contra hwants
    exact hstepping (.inl (by simpa using hwants))
  obtain ⟨resumed, hresume, hinject⟩ := enter_ok hvalid.enter
  obtain ⟨armed, htimers, hsame, hprecise, hkeeps⟩ := injectPendingInterrupt_timers hinject
  have hstart := resume_sameStart it.start it.how
  rw [hresume] at hstart
  have hentry := hstart.entryTimers htimers
  have harmed : armed.state.precise.pebsState.isSome := by
    rw [← armForNextIteration_isSome, ← hprecise]
    exact hpebs
  have hpebs' : it.start.state.precise.pebsState.isSome := by
    rw [← hstart.targets.pebs, ← hkeeps]
    exact harmed
  rw [covered_iff_armable hclear harmed hprecise hsame]
  simp only [hsame.targetAhead_iff, ← not_exists, hentry.targetAhead_iff]
  by_cases hahead : it.start.TargetsAhead
  · rw [hentry.armable_iff hpebs' hwants hahead]
    tauto
  · tauto

/-- At every entry of every run of a VM with a precise-exit page: the targets ahead are
covered exactly if the trap flag is called for, or there are none, or no deadline keeps the
counter from being armed. -/
theorem coverage_iff {ctx : VmContext} (hctx : Created ctx) {it : Iteration} {run : List Iteration}
    (hrun : Run ctx (it :: run)) (hpebs : it.entered.state.precise.pebsState.isSome = true) :
    it.entered.Covered ↔
      Stepping it.start ∨ ¬it.start.TargetsAhead ∨ ¬it.start.Obstructed := by
  obtain ⟨hsound, hloop⟩ := hrun.settled hctx.mtfSound
  exact hrun.valid.covered_iff hsound hloop hpebs

/-! ## Two entries -/

theorem imageVm_created : Created imageVm :=
  .root imageVm_eq

def registration (how : Resume) (start : VmContext) : Iteration :=
  .simulate how start fun ctx => ctx.exitWith 1 (fun
    | .vmExitReason => 18
    | _ => 0) 3 0

def VmContext.stopAt (ctx : VmContext) (T : Nat) : VmContext :=
  { ctx with state := { ctx.state with config := { ctx.state.config with stopAtTsc := some T } } }

def stoppingEntry (prev : Iteration) : Iteration :=
  .simulate .ioctl (prev.done.stopAt 1000) fun ctx => ctx.exitAfter 0 fun _ => 0

theorem stoppingEntry_run {prev : Iteration} {run : List Iteration}
    (hrun : Run ctx (prev :: run)) (henter : ((prev.done.stopAt 1000).enter .ioctl).1.isOk) :
    Run ctx (stoppingEntry prev :: prev :: run) :=
  .next hrun (Iteration.simulate_valid henter (ran_exitAfter _ _ _))
    (.ioctl rfl (.reconfigured .refl ⟨rfl, rfl, rfl, rfl, rfl⟩))

theorem coverage_iff_stop :
    ∃ it run, Run imageVm (it :: run) ∧ it.entered.state.TargetAhead 1000 ∧ it.entered.Covered := by
  have hchecks : ((imageVm.enter .ioctl).1.isOk &&
      (((registration .ioctl imageVm).done.stopAt 1000).enter .ioctl).1.isOk &&
      (stoppingEntry (registration .ioctl imageVm)).entered.state.precise.pebsState.isSome &&
      ((stoppingEntry (registration .ioctl imageVm)).entered.state.clock.now == 1) &&
      ((stoppingEntry (registration .ioctl imageVm)).entered.state.config.stopAtTsc == some 1000) &&
      ((stoppingEntry (registration .ioctl imageVm)).start.deadlineAtEntry == 0) &&
      ((stoppingEntry (registration .ioctl imageVm)).start.requestAtEntry == none) &&
      ((stoppingEntry (registration .ioctl imageVm)).start.state.clock.now == 1)) = true := by
    decide +kernel
  simp only [Bool.and_eq_true, beq_iff_eq] at hchecks
  obtain ⟨⟨⟨⟨⟨⟨⟨hfirst, hsecond⟩, hpebs⟩, hnow⟩, hstop⟩, hdeadline⟩, hrequest⟩, hstart⟩ := hchecks
  have hregister : Run imageVm [registration .ioctl imageVm] :=
    .first (Iteration.simulate_valid hfirst (ran_exitWith _ _ _ _ _)) rfl .refl
  have hrun := stoppingEntry_run hregister hsecond
  refine ⟨_, _, hrun, ⟨by rw [hnow]; decide, .inr (.inr (.inl hstop))⟩, ?_⟩
  refine (coverage_iff imageVm_created hrun hpebs).mpr (.inr (.inr ?_))
  rintro (⟨hne, -⟩ | ⟨T, hT, -⟩ | ⟨T, hT, hle⟩)
  · exact hne hdeadline
  · rw [hrequest] at hT
    cases hT
  · cases hT
    rw [hstart] at hle
    omega

def timerWrite : Iteration :=
  .simulate .ioctl imageVm fun ctx => ctx.exitWith 1 (fun
    | .vmExitReason => 48
    | .exitQualification => 2
    | .guestPhysicalAddr => 0xFEE00380
    | .guestRip => 0x200
    | _ => 0) 50 0

/-- The deadline of the disabled timer keeps the counter from being armed for the stop
threshold. -/
theorem disabled_timer_uncovers :
    ∃ it run, Run imageVm (it :: run) ∧ it.entered.state.precise.pebsState.isSome = true ∧
      it.entered.state.TargetAhead 1000 ∧ ¬it.entered.Covers 1000 := by
  have hchecks : ((imageVm.enter .ioctl).1.isOk && (timerWrite.result == .continue_) &&
      (timerWrite.done.enter .loop).1.isOk &&
      (((registration .loop timerWrite.done).done.stopAt 1000).enter .ioctl).1.isOk &&
      ((stoppingEntry (registration .loop timerWrite.done)).entered.state.clock.now == 2) &&
      ((stoppingEntry (registration .loop timerWrite.done)).entered.state.config.stopAtTsc ==
        some 1000) &&
      ((stoppingEntry (registration .loop timerWrite.done)).entered.trapFlag == 0) &&
      ((stoppingEntry (registration .loop timerWrite.done)).entered.state.precise.pebsState.map
        PebsState.armedAction == some none)) = true := by
    decide +kernel
  simp only [Bool.and_eq_true, beq_iff_eq] at hchecks
  obtain ⟨⟨⟨⟨⟨⟨⟨hfirst, hresult⟩, hsecond⟩, hthird⟩, hnow⟩, hstop⟩, hflag⟩, harmed⟩ := hchecks
  have hrun : Run imageVm [registration .loop timerWrite.done, timerWrite] :=
    .next (.first (Iteration.simulate_valid hfirst (ran_exitWith _ _ _ _ _)) rfl .refl)
      (Iteration.simulate_valid hsecond (ran_exitWith _ _ _ _ _)) (.loop hresult rfl rfl)
  obtain ⟨pebs, hpebs, haction⟩ := Option.map_eq_some_iff.mp harmed
  refine ⟨_, _, stoppingEntry_run hrun hthird, by rw [hpebs]; rfl,
    ⟨by rw [hnow]; decide, .inr (.inr (.inl hstop))⟩, ?_⟩
  rintro (hset | ⟨pebs', heq, harm, -⟩)
  · exact hset hflag
  rw [hpebs] at heq
  cases heq
  rw [haction] at harm
  cases harm

end Bedrock
