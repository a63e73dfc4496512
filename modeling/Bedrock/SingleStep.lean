import Bedrock.History
import Bedrock.TrapFlag

/-!
# The mirror of the trap flag

`mtf_enabled` remembers whether the monitor trap flag is set in the VMCS, so that
`update_mtf_state` writes the VMCS only when the flag has to change.  SET_SINGLE_STEP
and a fork reset the mirror without looking at the flag.  Along a history mirror and
flag agree exactly if the flag is clear whenever that happens.
-/

namespace Bedrock

open Support VmContext VmStep List Controls ForkedVm

/-- `adjust_controls` -/
def adjustControls (msrValue : UInt64) (requested : UInt32) : UInt32 :=
  let allowed0 := msrValue.toUInt32
  let allowed1 := (msrValue >>> 32).toUInt32
  (requested ||| allowed0) &&& allowed1

/-- The primary processor-based controls a new VM asks for: exits for HLT, MWAIT, MONITOR,
RDPMC and RDTSC, the MSR bitmaps, the secondary controls, exits for ports and for accesses
to CR3 and CR8. -/
def requestedPrimaryControls : UInt32 :=
  ([7, 10, 29, 11, 12, 28, 31, 24, 15, 16, 19, 20] : List UInt32).foldl
    (fun controls bit => controls ||| ((1 : UInt32) <<< bit)) 0

/-- The processor lets the trap flag be clear: bit 27 is not among those that must be
one. -/
def TrapFlagOptional (msrValue : UInt64) : Prop :=
  msrValue.toUInt32 &&& 0x8000000 = 0

theorem adjustControls_trapFlag {msrValue : UInt64} (h : TrapFlagOptional msrValue) :
    (adjustControls msrValue requestedPrimaryControls).toUInt64 &&& monitorTrapFlag = 0 := by
  have hflag : monitorTrapFlag = (0x8000000 : UInt32).toUInt64 := rfl
  have hrequested : requestedPrimaryControls.toUInt64 &&& monitorTrapFlag = 0 := by decide
  have hallowed : msrValue.toUInt32.toUInt64 &&& monitorTrapFlag = 0 := by
    rw [hflag, ← UInt32.toUInt64_and, h]
    rfl
  have hor : (requestedPrimaryControls.toUInt64 ||| msrValue.toUInt32.toUInt64) &&&
      monitorTrapFlag = 0 := by
    rw [or_and_distrib, hrequested, hallowed]
    rfl
  rw [adjustControls, UInt32.toUInt64_and, UInt32.toUInt64_or, UInt64.and_assoc,
    UInt64.and_comm _ monitorTrapFlag, ← UInt64.and_assoc, hor, UInt64.zero_and]

def InSync (ctx : VmContext) : Prop :=
  ctx.state.precise.mtfEnabled = true ↔ ctx.trapFlag ≠ 0

instance (ctx : VmContext) : Decidable (InSync ctx) :=
  inferInstanceAs (Decidable (_ ↔ _))

variable {before after ctx : VmContext}

theorem InSync.of_eq (h : InSync before)
    (hmirror : after.state.precise.mtfEnabled = before.state.precise.mtfEnabled)
    (hflag : after.trapFlag = before.trapFlag) : InSync after := by
  rw [InSync, hmirror, hflag]
  exact h

theorem Kept.inSync (h : Kept before after) (hsync : InSync before) : InSync after :=
  hsync.of_eq h.mtfEnabled h.trapFlag

theorem VmContext.updateMtfState_inSync (hsync : InSync ctx) : InSync ctx.updateMtfState.2 := by
  rcases hrun : ctx.updateMtfState with ⟨e | u, ctx'⟩
  · rw [updateMtfState_error hrun]
    exact hsync
  obtain ⟨hmirror, hflag⟩ := updateMtfState_ok hrun hsync.mp
  rw [InSync, hmirror, hflag, Stepping]
  constructor
  · exact .inl
  rintro (hwants | ⟨hoff, hon⟩)
  · exact hwants
  · rw [hsync.mpr hon] at hoff
    cases hoff

theorem inSync_frames : Frames fun before after => InSync before → InSync after where
  refl _ := id
  trans hab hbc h := hbc (hab h)
  events h := h.kept.inSync
  interceptPf ctx := ctx.applyInterceptPf_kept.inSync
  trapFlag _ := updateMtfState_inSync
  begin _ _ := id

theorem dispatch_inSync (reason : ExitReason) (qual : UInt64) (ctx : VmContext)
    (hsync : InSync ctx) : InSync (dispatch reason qual ctx).2 :=
  dispatch_rel (R := fun before after => InSync before → InSync after)
    (fun hab hbc h => hbc (hab h)) (fun _ _ => id) Kept.inSync reason qual ctx hsync

theorem VmContext.enter_inSync (how : Resume) (hsync : InSync ctx) : InSync (ctx.enter how).2 :=
  inSync_frames.enter (fun ctx => (injectPendingInterrupt_kept ctx).inSync) ctx how hsync

theorem VmContext.leave_inSync (hsync : InSync ctx) : InSync ctx.leave.2 :=
  inSync_frames.leave dispatch_inSync ctx hsync

theorem Ran.inSync {entered exited : VmContext} (h : Ran entered exited) (hsync : InSync entered) :
    InSync exited := by
  refine hsync.of_eq (congrArg PreciseState.mtfEnabled h.precise) ?_
  rw [trapFlag, h.primaryControls]
  rfl

/-- In an iteration that starts in sync the guest is entered and left in sync. -/
theorem Iteration.Valid.inSync {it : Iteration} (h : it.Valid) (hsync : InSync it.start) :
    InSync it.entered ∧ InSync it.done := by
  have hentered := enter_inSync it.how hsync
  rw [h.enter] at hentered
  have hdone := leave_inSync (h.ran.inSync hentered)
  rw [h.leave] at hdone
  exact ⟨hentered, hdone⟩

theorem VmContext.abort_inSync (how : Resume) (point : AbortPoint)
    (hsync : InSync ctx) : InSync (ctx.abort how point) := by
  cases point with
  | load =>
    rw [abort]
    split
    · exact inSync_frames.clear ctx hsync
    · exact hsync
  | start => exact inSync_frames.resume ctx how hsync
  | entry => exact enter_inSync how hsync

/-! ## Where the mirror is reset -/

def Ioctl.DisablesSingleStep : Ioctl → Prop
  | .setSingleStep config copied => copied = true ∧ config.enabled = 0
  | _ => False

theorem VmContext.ioctl_mirror (ctx : VmContext) (call : Ioctl) :
    (ctx.ioctl call).2.trapFlag = ctx.trapFlag ∧
      ((call.DisablesSingleStep ∧ (ctx.ioctl call).2.state.precise.mtfEnabled = false) ∨
        (¬call.DisablesSingleStep ∧
          (ctx.ioctl call).2.state.precise.mtfEnabled = ctx.state.precise.mtfEnabled)) := by
  have heffect := ctx.ioctl_effect call
  generalize (ctx.ioctl call).2 = after at heffect ⊢
  cases heffect with
  | singleStepRefused config => exact ⟨rfl, .inr ⟨fun h => Bool.noConfusion h.1, rfl⟩⟩
  | singleStepEnabled config henabled => exact ⟨rfl, .inr ⟨fun h => henabled h.2, rfl⟩⟩
  | singleStepDisabled config henabled => exact ⟨rfl, .inl ⟨⟨rfl, henabled⟩, rfl⟩⟩
  | _ => exact ⟨rfl, .inr ⟨id, rfl⟩⟩

theorem forkControls_primary {parent : VmState} {host : ForkHost} {controls : VmcsTable VmcsControl}
    (h : forkControls parent host = .ok controls) :
    controls.value .primaryProcBasedVmExecControls =
      parent.vmcs.controls.value .primaryProcBasedVmExecControls := by
  -- none of the controls a fork rewrites is this one
  have hother : ∀ {table table' : VmcsTable VmcsControl} {control : VmcsControl} {v : UInt64},
      table.write control v = (.ok (), table') → control ≠ .primaryProcBasedVmExecControls →
      table'.value .primaryProcBasedVmExecControls =
        table.value .primaryProcBasedVmExecControls := by
    intro table table' control v hwrite hne
    have hvalue := table.write_value_of_ne v (Ne.symm hne)
    rw [hwrite] at hvalue
    exact hvalue
  unfold forkControls at h
  split at h
  · cases h
  rename_i hwrite
  have hfirst := hother hwrite (by decide)
  split at h
  · cases h
    exact hfirst
  split at h
  · cases h
  rename_i hwrite
  have hsecond := hother hwrite (by decide)
  split at h
  · cases h
  rename_i hwrite
  have hthird := hother hwrite (by decide)
  cases h
  rw [hthird, hsecond, hfirst]

theorem ForkedVm.new_mirror {parent child : VmContext} {host : ForkHost}
    (h : new parent host = .ok child) :
    child.trapFlag = parent.trapFlag ∧ child.state.precise.mtfEnabled = false := by
  obtain ⟨ept, controls, -, hcontrols, rfl⟩ := new_eq h
  have hkept : ∀ ctx : VmContext, Kept ctx ctx.preCowIoChannelPage :=
    fun ctx => ctx.preCowIoChannelPage_memory.kept
  refine ⟨(hkept _).trapFlag.trans ?_, (hkept _).mtfEnabled⟩
  exact congrArg (· &&& monitorTrapFlag) (forkControls_primary hcontrols)

/-- The flag is clear when the step resets the mirror. -/
def VmStep.ResetsClear (t : VmStep) : Prop :=
  match t.label with
  | .ioctl call => call.DisablesSingleStep → t.pre.trapFlag = 0
  | .fork _ => t.pre.trapFlag = 0
  | _ => True

/-- The guest is entered with mirror and flag in sync. -/
def VmStep.EntersInSync (t : VmStep) : Prop :=
  match t.label with
  | .iterate it => InSync it.entered
  | _ => True

instance (t : VmStep) : Decidable t.EntersInSync := by
  unfold EntersInSync
  split <;> infer_instance

theorem inSync_of_reset (hflag : after.trapFlag = before.trapFlag)
    (hmirror : after.state.precise.mtfEnabled = false) : InSync after ↔ before.trapFlag = 0 := by
  rw [InSync, hmirror, hflag]
  simp

theorem VmStep.Valid.inSync_iff {t : VmStep} (hvalid : t.Valid) (hpre : InSync t.pre) :
    InSync t.post ↔ t.ResetsClear := by
  cases hvalid with
  | iterate hit => exact iff_of_true (hit.inSync hpre).2 trivial
  | abort ctx how point => exact iff_of_true (abort_inSync how point hpre) trivial
  | ioctl ctx call =>
    obtain ⟨hflag, ⟨hresets, hmirror⟩ | ⟨hnot, hmirror⟩⟩ := ctx.ioctl_mirror call
    · rw [inSync_of_reset hflag hmirror]
      exact ⟨fun h _ => h, fun h => h hresets⟩
    · exact iff_of_true (hpre.of_eq hmirror hflag) fun h => absurd h hnot
  | store hstores => exact iff_of_true (hpre.of_eq rfl rfl) trivial
  | fork hfork =>
    obtain ⟨hflag, hmirror⟩ := new_mirror hfork
    exact inSync_of_reset hflag hmirror

theorem VmStep.Valid.entersInSync {t : VmStep} (hvalid : t.Valid) (hpre : InSync t.pre) :
    t.EntersInSync := by
  cases hvalid with
  | iterate hit => exact (hit.inSync hpre).1
  | _ => trivial

/-- Along every history of a VM mirror and flag agree in every state and at every entry
exactly if single-stepping is turned off and the VM is forked only while the flag is
clear. -/
theorem mtf_in_sync_iff {memory : GuestMemory} {supply : FrameSupply} {machine : Machine}
    {vmcs : Vmcs} {tscFrequency : Nat} {pebsSupported : Bool} {msrValue : UInt64}
    {ctx ctx' : VmContext} {ts : List VmStep}
    (hroot : RootVm.new memory supply machine (.ok vmcs) tscFrequency pebsSupported = .ok ctx)
    (hcontrols : vmcs.controls.value .primaryProcBasedVmExecControls =
      (adjustControls msrValue requestedPrimaryControls).toUInt64)
    (hoptional : TrapFlagOptional msrValue) (hhistory : History ctx ts ctx') :
    (InSync ctx ∧ ∀ t ∈ ts, InSync t.post ∧ t.EntersInSync) ↔ ∀ t ∈ ts, t.ResetsClear := by
  have hstart : InSync ctx := by
    have hflag : ctx.state.vmcs = vmcs ∧ ctx.state.precise.mtfEnabled = false := by
      unfold RootVm.new at hroot
      split at hroot
      · cases hroot
      · cases hroot
        exact ⟨rfl, rfl⟩
    rw [InSync, hflag.2, VmContext.trapFlag, hflag.1, hcontrols, adjustControls_trapFlag hoptional]
    simp
  have hstep := fun t ht => (hhistory.valid t ht).inSync_iff
  rw [and_iff_right hstart, ← hhistory.walk.invariant_iff hstep hstart]
  constructor
  · exact fun h t ht => (h t ht).1
  intro h t ht
  have hpre := (hhistory.walk.invariant (fun t ht _ => h t ht) hstart).1 t ht
  exact ⟨h t ht, (hhistory.valid t ht).entersInSync hpre.1⟩

/-- Single-stepping is turned on for `[tscStart, 100)`, the guest executes an instruction,
single-stepping is turned off, and the guest executes another one. -/
def singleStepped (tscStart : UInt64) : List VmStep :=
  let enable := VmStep.call newVm (.setSingleStep ⟨1, tscStart, 100⟩ true)
  let first := simulate .ioctl enable.post fun ctx =>
    ctx.exitAfter 1 fun | .vmExitReason => 52 | _ => 0
  let disable := VmStep.call first.post (.setSingleStep ⟨0, 0, 0⟩ true)
  let second := simulate .ioctl disable.post fun ctx =>
    ctx.exitAfter 1 fun | .vmExitReason => 52 | _ => 0
  [enable, first, disable, second]

theorem singleStepped_history (tscStart : UInt64)
    (h : ∀ t ∈ singleStepped tscStart, (t.pre.enter .ioctl).1.isOk) :
    ∃ ctx', History newVm (singleStepped tscStart) ctx' := by
  obtain ⟨-, hfirst, -, hsecond, -⟩ :
      _ ∧ _ ∧ _ ∧ _ ∧ ∀ t ∈ ([] : List VmStep), (t.pre.enter .ioctl).1.isOk := by
    simpa only [singleStepped, forall_mem_cons] using h
  refine ⟨_, ⟨rfl, rfl, rfl, rfl, rfl⟩, ?_⟩
  simp only [singleStepped, forall_mem_cons]
  exact ⟨call_valid _ _, simulate_valid hfirst (ran_exitAfter _ _ _),
    call_valid _ _, simulate_valid hsecond (ran_exitAfter _ _ _), by simp⟩

/-- Single-stepping that is turned off before its range begins does no harm. -/
theorem mtf_in_sync_before_range :
    InSync newVm ∧ ∀ t ∈ singleStepped 50, InSync t.post ∧ t.EntersInSync := by
  obtain ⟨ctx', hhistory⟩ := singleStepped_history 50 (by decide +kernel)
  have hoptional : TrapFlagOptional 0 := rfl
  refine (mtf_in_sync_iff newVm_eq rfl hoptional hhistory).mpr ?_
  simp only [singleStepped, List.forall_mem_cons]
  exact ⟨fun h => absurd h.2 (by decide), trivial, fun _ => by decide +kernel, trivial, by simp⟩

/-- Turned off inside its range, single-stepping stays on in the VMCS: the guest is entered
with the flag set and the mirror clear. -/
theorem exists_entry_out_of_sync :
    (∃ ctx', History newVm (singleStepped 0) ctx') ∧
      ∃ t ∈ singleStepped 0, ¬t.EntersInSync :=
  ⟨singleStepped_history 0 (by decide +kernel), by decide +kernel⟩

end Bedrock
