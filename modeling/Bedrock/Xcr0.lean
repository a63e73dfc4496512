import Bedrock.History

/-!
# The XCR0 a guest runs with

CPUID leaf 0xD tells the guest which state components exist.  XSETBV exits; its handler
checks the requested value and keeps it for the next entries.  The check does not consult
the advertised mask, so the two agree along a history exactly if the guest asks for
nothing else.
-/

namespace Bedrock

open Support Bedrock.Part

/-- The components that CPUID leaf 0xD reports: EDX:EAX of its first subleaf. -/
def advertisedXcr0 (machine : Machine) (tscFrequency : Nat) : UInt64 :=
  let (eax, _, _, edx) := cpuidValues machine tscFrequency 0xD 0
  (edx.toUInt64 <<< 32) ||| eax.toUInt64

theorem cpuidValues_xsave (machine : Machine) (tscFrequency : Nat) :
    cpuidValues machine tscFrequency 0xD 0 = (7, 832, 832, 0) := by
  simp [cpuidValues]

theorem advertisedXcr0_eq (machine : Machine) (tscFrequency : Nat) :
    advertisedXcr0 machine tscFrequency = 7 := by
  rw [advertisedXcr0, cpuidValues_xsave]
  rfl

/-- `sync_gprs_to_vmx_ctx`: the XCR0 the entry stub loads for the guest. -/
def VmContext.loadedXcr0 (ctx : VmContext) : UInt64 :=
  ctx.state.guest.xcr0Mask

/-- The guest runs with advertised components only, with x87, and not with AVX alone. -/
structure Xcr0Supported (ctx : VmContext) : Prop where
  advertised : ctx.loadedXcr0 &&&
    ~~~advertisedXcr0 ctx.machine ctx.state.config.tscFrequency = 0
  x87 : ctx.loadedXcr0 &&& 1 ≠ 0
  avx : ctx.loadedXcr0 &&& 4 ≠ 0 → ctx.loadedXcr0 &&& 2 ≠ 0

def GeneralPurposeRegisters.xsetbvValue (gprs : GeneralPurposeRegisters) : UInt64 :=
  (gprs.rdx <<< 32) ||| (gprs.rax &&& 0xFFFFFFFF)

/-- The checks of `handle_xsetbv`. -/
def GeneralPurposeRegisters.XsetbvAccepted (gprs : GeneralPurposeRegisters) : Prop :=
  gprs.rcx.toUInt32 = 0 ∧ gprs.xsetbvValue &&& 1 ≠ 0 ∧
    (gprs.xsetbvValue &&& 4 ≠ 0 → gprs.xsetbvValue &&& 2 ≠ 0)

/-- An accepted value is kept, even if the instruction pointer cannot be advanced. -/
theorem handleXsetbv_xcr0 (ctx : VmContext) :
    (ctx.state.guest.gprs.XsetbvAccepted ∧
        (handleXsetbv ctx).2.loadedXcr0 = ctx.state.guest.gprs.xsetbvValue) ∨
      (¬ctx.state.guest.gprs.XsetbvAccepted ∧ (handleXsetbv ctx).2.loadedXcr0 = ctx.loadedXcr0) := by
  have hadvance : ∀ ctx' : VmContext,
      (advanceAndReturn .continue_ ctx').2.loadedXcr0 = ctx'.loadedXcr0 :=
    Framed.get (p := .xcr0) (A := GuestAction) inferInstance
  have heq : handleXsetbv ctx =
      (if ctx.state.guest.gprs.rcx.toUInt32 ≠ 0 then pure (.exitToUserspace .xsetbv)
      else if ctx.state.guest.gprs.xsetbvValue &&& 1 = 0 then pure (.exitToUserspace .xsetbv)
      else if ctx.state.guest.gprs.xsetbvValue &&& 4 ≠ 0 ∧
          ctx.state.guest.gprs.xsetbvValue &&& 2 = 0 then pure (.exitToUserspace .xsetbv)
      else do
        modifyGuest fun g => { g with xcr0Mask := ctx.state.guest.gprs.xsetbvValue }
        advanceAndReturn .continue_ : Handler ExitHandlerResult) ctx := rfl
  rw [heq]
  by_cases hindex : ctx.state.guest.gprs.rcx.toUInt32 = 0
  · by_cases hx87 : ctx.state.guest.gprs.xsetbvValue &&& 1 = 0
    · rw [if_neg (not_not.mpr hindex), if_pos hx87]
      exact .inr ⟨fun h => h.2.1 hx87, rfl⟩
    by_cases havx : ctx.state.guest.gprs.xsetbvValue &&& 4 ≠ 0 ∧
        ctx.state.guest.gprs.xsetbvValue &&& 2 = 0
    · rw [if_neg (not_not.mpr hindex), if_neg hx87, if_pos havx]
      exact .inr ⟨fun h => h.2.2 havx.1 havx.2, rfl⟩
    · rw [if_neg (not_not.mpr hindex), if_neg hx87, if_neg havx]
      exact .inl ⟨⟨hindex, hx87, fun h4 h2 => havx ⟨h4, h2⟩⟩, hadvance _⟩
  · rw [if_pos hindex]
    exact .inr ⟨fun h => hindex h.1, rfl⟩

/-! ## Histories -/

def Iteration.SetsXcr0 (it : Iteration) : Prop :=
  (∃ qual, it.exited.exitInfo = .ok (.xsetbv, qual)) ∧ it.exited.state.guest.gprs.XsetbvAccepted

def VmStep.XsetbvAdvertised (t : VmStep) : Prop :=
  match t.label with
  | .iterate it => it.SetsXcr0 → it.exited.state.guest.gprs.xsetbvValue &&&
      ~~~advertisedXcr0 it.exited.machine it.exited.state.config.tscFrequency = 0
  | _ => True

theorem Xcr0Supported.of_eq {before after : VmContext} (h : Xcr0Supported before)
    (heq : after.loadedXcr0 = before.loadedXcr0) : Xcr0Supported after := by
  constructor
  · rw [heq, advertisedXcr0_eq, ← advertisedXcr0_eq before.machine before.state.config.tscFrequency]
    exact h.advertised
  · rw [heq]
    exact h.x87
  · rw [heq]
    exact h.avx

/-- An iteration keeps the mask unless the guest sets it. -/
theorem Iteration.Valid.loadedXcr0 {it : Iteration} (h : it.Valid) :
    (it.SetsXcr0 ∧ it.done.loadedXcr0 = it.exited.state.guest.gprs.xsetbvValue) ∨
      (¬it.SetsXcr0 ∧ it.done.loadedXcr0 = it.start.loadedXcr0) := by
  have hentered : it.entered.loadedXcr0 = it.start.loadedXcr0 := by
    have := get_enter .xcr0 it.start it.how
    rw [h.enter] at this
    exact this
  have hexited : it.exited.loadedXcr0 = it.start.loadedXcr0 := h.ran.xcr0Mask.trans hentered
  have hdone : it.exited.leave.2 = it.done := congrArg Prod.snd h.leave
  by_cases hreason : ∃ qual, it.exited.exitInfo = .ok (.xsetbv, qual)
  · obtain ⟨qual, hinfo⟩ := hreason
    have hafter := (Part.frames .xcr0).leave_of_dispatch hinfo
    rw [hdone] at hafter
    have hcall : ∀ ctx, (dispatch .xsetbv qual ctx).2 = (handleXsetbv ctx).2 :=
      fun ctx => call_state handleXsetbv ctx
    rw [hcall] at hafter
    rcases handleXsetbv_xcr0 (it.exited.beginExit
      (!it.exited.state.nonDeterministicExit .xsetbv qual)) with
      ⟨haccepted, hset⟩ | ⟨hrefused, hkept⟩
    · exact .inl ⟨⟨⟨qual, hinfo⟩, haccepted⟩, hafter.trans hset⟩
    · exact .inr ⟨fun hsets => hrefused hsets.2, (hafter.trans hkept).trans hexited⟩
  · have hleave : it.exited.leave.2.loadedXcr0 = it.exited.loadedXcr0 := by
      refine get_leave (p := .xcr0) ?_
      rintro reason qual hinfo rfl
      exact hreason ⟨qual, hinfo⟩
    rw [hdone] at hleave
    exact .inr ⟨fun hsets => hreason hsets.1, hleave.trans hexited⟩

theorem VmStep.Valid.xcr0Supported_iff {t : VmStep} (hvalid : t.Valid)
    (hpre : Xcr0Supported t.pre) : Xcr0Supported t.post ↔ t.XsetbvAdvertised := by
  cases hvalid with
  | @iterate it hit =>
    rcases hit.loadedXcr0 with ⟨hsets, hset⟩ | ⟨hnot, hkept⟩
    · constructor
      · intro h _
        rw [advertisedXcr0_eq, ← hset]
        have hadvertised := h.advertised
        rw [advertisedXcr0_eq] at hadvertised
        exact hadvertised
      · intro h
        have hadvertised := h hsets
        rw [advertisedXcr0_eq, ← hset] at hadvertised
        obtain ⟨-, -, hx87, havx⟩ := hsets
        rw [← hset] at hx87 havx
        exact ⟨by rw [advertisedXcr0_eq]; exact hadvertised, hx87, havx⟩
    · exact iff_of_true (hpre.of_eq hkept) fun hsets => absurd hsets hnot
  | abort ctx how point =>
    exact iff_of_true (hpre.of_eq (get_abort .xcr0 ctx how point)) trivial
  | ioctl ctx call =>
    refine iff_of_true (hpre.of_eq (get_ioctl (p := .xcr0) ?_ ctx)) trivial
    cases call <;> exact id
  | store hstores => exact iff_of_true (hpre.of_eq rfl) trivial
  | fork hfork =>
    exact iff_of_true (hpre.of_eq (get_fork (p := .xcr0) hfork (by decide))) trivial

/-- Along every history of a VM the loaded mask is supported in every state exactly if
every accepted XSETBV stays within what CPUID advertises. -/
theorem xcr0_supported_iff {memory : GuestMemory} {supply : FrameSupply} {machine : Machine}
    {setup : Except VmStateError Vmcs} {tscFrequency : Nat} {pebsSupported : Bool}
    {ctx ctx' : VmContext} {ts : List VmStep}
    (hroot : RootVm.new memory supply machine setup tscFrequency pebsSupported = .ok ctx)
    (hhistory : History ctx ts ctx') :
    (Xcr0Supported ctx ∧ ∀ t ∈ ts, Xcr0Supported t.post) ↔ ∀ t ∈ ts, t.XsetbvAdvertised := by
  have hmask : ctx.loadedXcr0 = 7 := by
    unfold RootVm.new at hroot
    split at hroot
    · cases hroot
    split at hroot
    · cases hroot
    · cases hroot
      rfl
  have hstart : Xcr0Supported ctx := by
    constructor
    · rw [hmask, advertisedXcr0_eq]
      decide
    all_goals
      rw [hmask]
      decide
  rw [and_iff_right hstart]
  exact hhistory.walk.invariant_iff (fun t ht => (hhistory.valid t ht).xcr0Supported_iff) hstart

def xsetbvStep (value : UInt64) : VmStep :=
  .simulate .ioctl newVm fun ctx =>
    ctx.exitWith 1 (fun | .vmExitReason => 55 | _ => 0) value 0

theorem xsetbvStep_history (value : UInt64) :
    History newVm [xsetbvStep value] (xsetbvStep value).post where
  walk := ⟨rfl, rfl⟩
  valid := by
    refine List.forall_mem_singleton.mpr (VmStep.simulate_valid (by decide +kernel) ?_)
    exact ran_exitWith _ _ _ _ _

/-- A guest that turns AVX off runs with a supported mask. -/
theorem xcr0_supported_sse : Xcr0Supported (xsetbvStep 3).post := by
  have hall := (xcr0_supported_iff newVm_eq (xsetbvStep_history 3)).mpr
    (List.forall_mem_singleton.mpr fun _ => by rw [advertisedXcr0_eq]; decide +kernel)
  exact hall.2 _ List.mem_cons_self

/-- A guest that asks for AVX-512 as well gets it. -/
theorem exists_loadedXcr0_not_advertised :
    ∃ ts ctx', History newVm ts ctx' ∧ ctx'.loadedXcr0 = 0xE7 ∧
      advertisedXcr0 ctx'.machine ctx'.state.config.tscFrequency = 7 :=
  ⟨_, _, xsetbvStep_history 0xE7, by decide +kernel, advertisedXcr0_eq _ _⟩

end Bedrock
