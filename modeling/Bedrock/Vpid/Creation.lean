import Bedrock.Vpid.Instructions

/-!
# The VPID of a root VM

`setup_controls` takes a VPID and writes it to the VMCS.  `VmState::new` reads it back
to record it for `Drop`, after the guard that had the VMCS loaded is gone.
-/

namespace Bedrock

open Support VmxCpu List

structure VmxCapabilities where
  pinBasedExecCtrl : UInt64 := 0
  cpuBasedExecCtrl : UInt64 := 0
  cpuBasedExecCtrl2 : UInt64 := 0
  vmexitCtrl : UInt64 := 0
  vmentryCtrl : UInt64 := 0
  cr0Fixed0 : UInt64 := 0
  cr0Fixed1 : UInt64 := 0
  cr4Fixed0 : UInt64 := 0
  cr4Fixed1 : UInt64 := 0

inductive VmcsSetupStop
  | clear
  | guard
  | hostState (e : VmcsWriteError)
  | controls (e : VmcsWriteError)
  | eptPointer (e : VmcsWriteError)
  | panicked
  deriving DecidableEq, Repr

def VmcsSetupStop.toCreateStop : VmcsSetupStop → CreateStop
  | .panicked => .panicked
  | _ => .vmState .vmcsSetup

/-- `setup_host_state` -/
def hostStateFields : List SetupField :=
  [.hostCr0, .hostCr3, .hostCr4, .hostCsSelector, .hostSsSelector, .hostDsSelector,
    .hostEsSelector, .hostFsSelector, .hostGsSelector, .hostTrSelector, .hostFsBase,
    .hostGsBase, .hostTrBase, .hostGdtrBase, .hostIdtrBase, .hostIa32SysenterCs,
    .hostIa32SysenterEsp, .hostIa32SysenterEip, .hostIa32Efer, .hostIa32Pat, .hostRsp,
    .hostRip, .vmcsLinkPointer]

namespace VmxCapabilities

def useMsrBitmaps (caps : VmxCapabilities) : Bool :=
  caps.cpuBasedExecCtrl &&& 0x10000000 != 0

def preemptionTimer (caps : VmxCapabilities) : Bool :=
  caps.pinBasedExecCtrl &&& 0x40 != 0

def activateSecondaryControls (caps : VmxCapabilities) : Bool :=
  caps.cpuBasedExecCtrl &&& 0x80000000 != 0

def enableVpid (caps : VmxCapabilities) : Bool :=
  caps.cpuBasedExecCtrl2 &&& ENABLE_VPID != 0

/-- The writes of `setup_controls` up to the secondary controls. -/
def earlyControls (caps : VmxCapabilities) (msrBitmapAddr : UInt64) : List (SetupField × UInt64) :=
  (if caps.useMsrBitmaps then [(.msrBitmapAddr, msrBitmapAddr)] else []) ++
    [(.pinBasedVmExecControls, caps.pinBasedExecCtrl)] ++
    (if caps.preemptionTimer then [(.vmxPreemptionTimerValue, 0x100000)] else []) ++
    [(.primaryProcBasedVmExecControls, caps.cpuBasedExecCtrl)]

/-- Bits of a control register that the processor fixes to one or to zero. -/
def fixedMask (fixed0 fixed1 : UInt64) : UInt64 :=
  (fixed0 &&& fixed1) ||| (~~~fixed0 &&& ~~~fixed1)

/-- The writes of `setup_controls` after the VPID. -/
def lateControls (caps : VmxCapabilities) : List (SetupField × UInt64) :=
  [(.primaryVmExitControls, caps.vmexitCtrl), (.vmEntryControls, caps.vmentryCtrl),
    (.exceptionBitmap, 0x40000), (.cr0GuestHostMask, fixedMask caps.cr0Fixed0 caps.cr0Fixed1),
    (.cr4GuestHostMask, fixedMask caps.cr4Fixed0 caps.cr4Fixed1), (.cr0ReadShadow, 0),
    (.cr4ReadShadow, 0), (.pageFaultErrorCodeMask, 0), (.pageFaultErrorCodeMatch, 0),
    (.cr3TargetCount, 0), (.vmEntryInterruptionInfo, 0)]

end VmxCapabilities

/-- The host's part of one creation: the capabilities of the processor, the state it has
captured, whether everything before the VMCS is set up was allocated, and the
instructions that fail. -/
structure RootRequest where
  caps : VmxCapabilities
  hostState : SetupField → UInt64 := fun _ => 0
  msrBitmapAddr : UInt64 := 0
  eptPointer : UInt64 := 0
  /-- the VMCS page, the guest memory and the page table -/
  prepared : Bool := true
  msrBitmap : Bool := true
  pebsPages : Bool := true
  xsavePages : Bool := true
  fails : VmxInstr → Bool := fun _ => false

namespace RootRequest

/-- The part of `setup_controls` that takes a VPID.  A failing INVVPID is only logged. -/
def setupVpid (r : RootRequest) : Program VmcsSetupStop VmxCpu Unit :=
  if !r.caps.enableVpid then pure ()
  else do
    let vpid ← takeVpid .panicked
    (vmwrite r.fails .virtualProcessorId (UInt64.ofNat vpid)).mapExit .controls

def setupSecondary (r : RootRequest) : Program VmcsSetupStop VmxCpu Unit :=
  if !r.caps.activateSecondaryControls then pure ()
  else do
    (vmwrite r.fails .secondaryProcBasedVmExecControls r.caps.cpuBasedExecCtrl2).mapExit .controls
    r.setupVpid

/-- `setup_controls` -/
def setupControls (r : RootRequest) : Program VmcsSetupStop VmxCpu Unit := do
  (writeAll r.fails (r.caps.earlyControls r.msrBitmapAddr)).mapExit .controls
  r.setupSecondary
  (writeAll r.fails r.caps.lateControls).mapExit .controls

/-- `VirtualMachineControlStructure::setup` -/
def setup (r : RootRequest) (id : Nat) : Program VmcsSetupStop VmxCpu Unit := do
  (vmclear r.fails .vmclear id).mapExit fun _ => .clear
  (vmptrld r.fails id).mapExit fun _ => .guard
  guarded r.fails id do
    (writeAll r.fails (hostStateFields.map fun f => (f, r.hostState f))).mapExit .hostState
    r.setupControls
    (vmwrite r.fails .eptPointer r.eptPointer).mapExit .eptPointer

/-- `VmState::new`; the result is the VPID the VM records. -/
def newState (r : RootRequest) (id : Nat) : Program CreateStop VmxCpu Nat :=
  if !r.msrBitmap then .exit (.vmState .msrBitmapAlloc)
  else if !r.pebsPages then .exit (.vmState .pebsExitMsrLoadAlloc)
  else if !r.xsavePages then .exit (.vmState .xsavePageAlloc)
  else do
    (r.setup id).mapExit VmcsSetupStop.toCreateStop
    -- the guard has cleared the VMCS by now
    let vpid ← vmreadOrZero r.fails .virtualProcessorId
    (inveptSingleContext r.fails).mapExit fun _ => .vmState .inveptFailed
    pure (vpid.toNat % 2 ^ 16)

/-! ## How a creation ends -/

def writesBefore (r : RootRequest) : List VmxInstr :=
  hostStateFields.map .write ++
    ((r.caps.earlyControls r.msrBitmapAddr).map (fun w => .write w.1) ++
      [.write .secondaryProcBasedVmExecControls])

def writesAfter (r : RootRequest) : List VmxInstr :=
  [.write .virtualProcessorId] ++ r.caps.lateControls.map (fun w => .write w.1) ++
    [.write .eptPointer]

/-- All instructions before the VPID is taken, and those after it whose failure is not
ignored. -/
def before (r : RootRequest) : List VmxInstr :=
  .vmclear :: .vmptrld :: r.writesBefore

def after (r : RootRequest) : List VmxInstr :=
  r.writesAfter ++ [.invept]

/-- The creation gets to `allocate_vpid`. -/
structure Allocates (r : RootRequest) : Prop where
  prepared : r.prepared = true
  msrBitmap : r.msrBitmap = true
  pebsPages : r.pebsPages = true
  xsavePages : r.xsavePages = true
  secondary : r.caps.activateSecondaryControls = true
  vpid : r.caps.enableVpid = true
  before : ∀ instr ∈ r.before, r.fails instr = false

def Completes (r : RootRequest) : Prop :=
  ∀ instr ∈ r.after, r.fails instr = false

variable (r : RootRequest) {id : Nat} {cpu : VmxCpu}

theorem earlyControls_fields :
    ∀ f ∈ (r.caps.earlyControls r.msrBitmapAddr).map Prod.fst,
      f ≠ .virtualProcessorId ∧ f ≠ .secondaryProcBasedVmExecControls := by
  rw [VmxCapabilities.earlyControls]
  cases r.caps.useMsrBitmaps <;> cases r.caps.preemptionTimer <;> simp

theorem hostState_fields :
    (hostStateFields.map fun f => (f, r.hostState f)).map Prod.fst = hostStateFields := by
  rw [map_map]
  exact map_id _

theorem body_plain (hcaps : ¬(r.caps.activateSecondaryControls ∧ r.caps.enableVpid))
    (hcurrent : cpu.current = some id) :
    Program.Ends (do
      (writeAll r.fails (hostStateFields.map fun f => (f, r.hostState f))).mapExit .hostState
      r.setupControls
      (vmwrite r.fails .eptPointer r.eptPointer).mapExit .eptPointer) cpu
      (fun _ => PlainStep id cpu) (fun _ : VmcsSetupStop => PlainStep id cpu) := by
  refine PlainStep.seq (writeAll_plain hcurrent ?_ ?_) fun cpu₁ h₁ => ?_
  · rw [hostState_fields]
    decide
  · rw [hostState_fields]
    decide
  have hcurrent₁ := h₁.current.trans hcurrent
  refine PlainStep.seq ?_ fun cpu₂ h₂ =>
    vmwrite_plain (h₂.current.trans hcurrent₁) (by decide) (fun h => by cases h)
  refine PlainStep.seq (writeAll_plain hcurrent₁ (fun h => (r.earlyControls_fields _ h).1 rfl)
    (fun h => (r.earlyControls_fields _ h).2 rfl)) fun cpu₂ h₂ => ?_
  have hcurrent₂ := h₂.current.trans hcurrent₁
  refine PlainStep.seq ?_ fun cpu₃ h₃ =>
    writeAll_plain (h₃.current.trans hcurrent₂) (by simp [VmxCapabilities.lateControls])
      (by simp [VmxCapabilities.lateControls])
  unfold setupSecondary
  split
  · exact .refl id cpu₂
  rename_i hactive
  rw [Bool.not_eq_true', Bool.not_eq_false] at hactive
  have hdisabled : r.caps.enableVpid = false :=
    Bool.eq_false_iff.mpr fun h => hcaps ⟨hactive, h⟩
  refine PlainStep.seq (vmwrite_plain hcurrent₂ (by decide) fun _ => ?_) fun cpu₃ h₃ => ?_
  · simpa [VmxCapabilities.enableVpid] using hdisabled
  unfold setupVpid
  rw [hdisabled]
  exact .refl id cpu₃

theorem setupSecondary_takes (hactive : r.caps.activateSecondaryControls)
    (henable : r.caps.enableVpid) (hcurrent : cpu.current = some id) :
    TakesVpid .panicked r.fails id [.write .secondaryProcBasedVmExecControls]
      [.write .virtualProcessorId] cpu r.setupSecondary fun _ _ => True := by
  unfold setupSecondary setupVpid
  rw [hactive, henable]
  refine .after_plain (vmwrite_instrs hcurrent _ _) fun _ cpu₁ htouch hvalue => ?_
  have hbase := TakesVpid.base VmcsSetupStop.panicked r.fails .controls (fun _ => ())
    (htouch.current.trans hcurrent) ?_
  · simp only [Program.bind_pure_unit] at hbase
    exact hbase.imp (fun _ _ h => ⟨h.1, h.2.1, h.2.2.imp fun _ h => ⟨h.1, trivial⟩⟩)
      (fun _ _ h => h)
  · rw [hvalue]
    simpa [VmxCapabilities.enableVpid] using henable

theorem setupControls_takes (hactive : r.caps.activateSecondaryControls)
    (henable : r.caps.enableVpid) (hcurrent : cpu.current = some id) :
    TakesVpid .panicked r.fails id
      ((r.caps.earlyControls r.msrBitmapAddr).map (fun w => .write w.1) ++
        [.write .secondaryProcBasedVmExecControls])
      ([.write .virtualProcessorId] ++ r.caps.lateControls.map (fun w => .write w.1)) cpu
      r.setupControls fun _ _ => True := by
  refine .after_plain (writeAll_instrs hcurrent _) fun _ cpu₁ htouch _ => ?_
  have hcurrent₁ := htouch.current.trans hcurrent
  refine .then_plain (r.setupSecondary_takes hactive henable hcurrent₁)
    (fun _ v cpu₂ htook _ => writeAll_instrs (htook.current.trans hcurrent₁) _) ?_ ?_
  all_goals simp [VmxCapabilities.lateControls]

theorem body_takes (hactive : r.caps.activateSecondaryControls)
    (henable : r.caps.enableVpid) (hcurrent : cpu.current = some id) :
    TakesVpid .panicked r.fails id r.writesBefore r.writesAfter cpu (do
      (writeAll r.fails (hostStateFields.map fun f => (f, r.hostState f))).mapExit .hostState
      r.setupControls
      (vmwrite r.fails .eptPointer r.eptPointer).mapExit .eptPointer) fun _ _ => True := by
  have hhost : ((writeAll r.fails (hostStateFields.map fun f => (f, r.hostState f))).mapExit
      VmcsSetupStop.hostState).Ends cpu _ _ := writeAll_instrs hcurrent _
  rw [map_map] at hhost
  refine .after_plain hhost fun _ cpu₁ htouch _ => ?_
  have hcurrent₁ := htouch.current.trans hcurrent
  exact .then_plain (r.setupControls_takes hactive henable hcurrent₁)
    (fun _ v cpu₂ htook _ => (vmwrite_instrs (htook.current.trans hcurrent₁) _ _).imp
      (fun _ _ h => ⟨h.1, h.2.1, trivial⟩) (fun _ _ h => h)) (by decide) (by decide)

/-- What `setup` leaves if it succeeds: the VMCS is cleared, or still current if that
fails. -/
structure SetupDone (id : Nat) (cpu cpu' : VmxCpu) : Prop where
  others : ∀ j, j ≠ id → cpu'.regions j = cpu.regions j
  current : cpu'.current = none ∨ cpu'.current = some id
  took : r.Allocates → ∃ v, cpu.vpids.allocateVpid = some (v, cpu'.vpids) ∧
    (∀ i ∈ r.writesAfter, r.fails i = false) ∧
    cpu'.regions id .virtualProcessorId = UInt64.ofNat v ∧
    cpu'.regions id .secondaryProcBasedVmExecControls &&& ENABLE_VPID ≠ 0
  spared : ¬r.Allocates → cpu'.vpids = cpu.vpids ∧ cpu'.regions id .virtualProcessorId = 0 ∧
    cpu'.regions id .secondaryProcBasedVmExecControls &&& ENABLE_VPID = 0

theorem stopped_before {panics : Prop} {cpu' : VmxCpu} {i : VmxInstr} (hi : i ∈ r.before)
    (hfail : r.fails i) (hothers : ∀ j, j ≠ id → cpu'.regions j = cpu.regions j)
    (hvpids : cpu'.vpids = cpu.vpids) : VpidStopped id cpu r.Allocates r.Completes panics cpu' := by
  refine ⟨hothers, fun hallocates => ?_, fun _ => hvpids⟩
  rw [hallocates.before i hi] at hfail
  cases hfail

theorem setup_ends (hprepared : r.prepared) (hbitmap : r.msrBitmap)
    (hpebs : r.pebsPages) (hxsave : r.xsavePages)
    (hfresh : ∀ f, cpu.regions id f = 0) :
    (r.setup id).Ends cpu (fun _ => r.SetupDone id cpu)
      (fun e => VpidStopped id cpu r.Allocates r.Completes (e = .panicked)) := by
  refine .bind (.mapExit ((vmclear_ends r.fails .vmclear id cpu).imp (fun _ _ h => h) ?_))
    fun _ cpu₁ h₁ => ?_
  · rintro _ _ ⟨hfail, rfl⟩
    exact r.stopped_before mem_cons_self hfail (fun _ _ => rfl) rfl
  obtain ⟨hclear, rfl⟩ := h₁
  refine .bind (.mapExit ((vmptrld_ends r.fails id _).imp (fun _ _ h => h) ?_)) fun _ cpu₂ h₂ => ?_
  · rintro _ _ ⟨hfail, rfl⟩
    exact r.stopped_before (mem_cons_of_mem _ mem_cons_self) hfail (fun _ _ => rfl) rfl
  obtain ⟨hload, rfl⟩ := h₂
  have hcurrent : ({ cpu.unload id with current := some id } : VmxCpu).current = some id := rfl
  refine guarded_ends ?_
  by_cases hcaps : r.caps.activateSecondaryControls ∧ r.caps.enableVpid
  · have hallocates : (∀ i ∈ r.writesBefore, r.fails i = false) → r.Allocates := fun hbefore =>
      ⟨hprepared, hbitmap, hpebs, hxsave, hcaps.1, hcaps.2,
        forall_mem_cons.mpr ⟨hclear, forall_mem_cons.mpr ⟨hload, hbefore⟩⟩⟩
    refine (r.body_takes hcaps.1 hcaps.2 hcurrent).imp ?_ ?_
    · rintro _ cpu₃ ⟨hbefore, hafter, v, htook, -⟩
      refine ⟨?_, dropGuard_current _ htook.current, fun _ => ⟨v, ?_, hafter, ?_, ?_⟩,
        fun hnot => absurd (hallocates hbefore) hnot⟩
      all_goals simp only [dropGuard_regions, dropGuard_vpids]
      · exact htook.others
      · exact htook.allocated
      · exact htook.field
      · exact htook.enabled
    · rintro e cpu₃ ⟨hothers, ⟨⟨i, hi, hfail⟩, hvpids⟩ | ⟨hbefore, hstop⟩⟩
      · refine r.stopped_before (mem_cons_of_mem _ (mem_cons_of_mem _ hi)) hfail ?_ ?_
        · rw [dropGuard_regions]
          exact hothers
        · rw [dropGuard_vpids]
          exact hvpids
      · refine ⟨?_, fun _ => hstop.imp_right ?_, fun hnot => absurd (hallocates hbefore) hnot⟩
        · rw [dropGuard_regions]
          exact hothers
        rintro ⟨v, halloc, i, hi, hfail⟩
        refine ⟨v, _, halloc, dropGuard_vpids _ _ _, fun hcompletes => ?_⟩
        rw [hcompletes i (mem_append_left _ hi)] at hfail
        cases hfail
  · have hnot : ¬r.Allocates := fun h => hcaps ⟨h.secondary, h.vpid⟩
    have hzero : (0 : UInt64) &&& ENABLE_VPID = 0 := by decide
    refine (r.body_plain hcaps hcurrent).imp ?_ ?_
    · rintro _ cpu₃ hplain
      refine ⟨?_, dropGuard_current _ hplain.current, fun h => absurd h hnot, fun _ => ⟨?_, ?_, ?_⟩⟩
      all_goals simp only [dropGuard_regions, dropGuard_vpids]
      · exact hplain.others
      · exact hplain.vpids
      · exact hplain.field.trans (hfresh _)
      · exact hplain.disabled ((congrArg (· &&& ENABLE_VPID) (hfresh _)).trans hzero)
    · rintro _ cpu₃ hplain
      refine ⟨?_, fun h => absurd h hnot, fun _ => ?_⟩
      · rw [dropGuard_regions]
        exact hplain.others
      · rw [dropGuard_vpids]
        exact hplain.vpids

theorem readOrZero_cases (fails : VmxInstr → Bool) (field : SetupField)
    (hcurrent : cpu.current = none ∨ cpu.current = some id) :
    cpu.readOrZero fails field = 0 ∨ cpu.readOrZero fails field = cpu.regions id field := by
  unfold readOrZero
  rcases hcurrent with hcurrent | hcurrent
  · rw [hcurrent]
    exact .inl rfl
  rw [hcurrent]
  dsimp only
  split
  · exact .inl rfl
  · exact .inr rfl

theorem newState_ends (hsound : cpu.vpids.Sound) (hprepared : r.prepared)
    (hfresh : ∀ f, cpu.regions id f = 0) :
    (r.newState id).Ends cpu (VpidDone id cpu r.Allocates r.Completes 0)
      (fun e => VpidStopped id cpu r.Allocates r.Completes (e = .panicked)) := by
  have hrefused : ∀ e : CreateStop, ¬r.Allocates →
      VpidStopped id cpu r.Allocates r.Completes (e = .panicked) cpu := fun e hnot =>
    ⟨fun _ _ => rfl, fun h => absurd h hnot, fun _ => rfl⟩
  unfold newState
  split
  · rename_i hbitmap
    exact hrefused _ fun h => by rw [h.msrBitmap] at hbitmap; cases hbitmap
  split
  · rename_i hpebs
    exact hrefused _ fun h => by rw [h.pebsPages] at hpebs; cases hpebs
  split
  · rename_i hxsave
    exact hrefused _ fun h => by rw [h.xsavePages] at hxsave; cases hxsave
  rename_i hbitmap hpebs hxsave
  simp only [Bool.not_eq_true', Bool.not_eq_false] at hbitmap hpebs hxsave
  refine .bind (.mapExit ((r.setup_ends hprepared hbitmap hpebs hxsave hfresh).imp
    (fun _ _ h => h) ?_)) fun _ cpu₁ h₁ => ?_
  · rintro e cpu₁ hstop
    refine ⟨hstop.others, fun h => (hstop.took h).imp_left ?_, hstop.spared⟩
    rintro rfl
    rfl
  have hvalue := readOrZero_cases r.fails .virtualProcessorId h₁.current
  refine .read (.bind (.mapExit ((inveptSingleContext_ends r.fails cpu₁).imp
    (fun _ _ h => h) ?_)) fun _ cpu₃ h₃ => ?_)
  · rintro _ _ ⟨hfail, rfl⟩
    refine ⟨h₁.others, fun hallocates => ?_, fun hnot => (h₁.spared hnot).1⟩
    obtain ⟨v, halloc, -⟩ := h₁.took hallocates
    refine .inr ⟨v, _, halloc, rfl, fun hcompletes => ?_⟩
    rw [hcompletes .invept (mem_append_right _ mem_cons_self)] at hfail
    cases hfail
  obtain ⟨hinvept, rfl⟩ := h₃
  refine ⟨h₁.others, fun hallocates => ?_, fun hnot => ?_⟩
  · obtain ⟨v, halloc, hwrites, hfield, henabled⟩ := h₁.took hallocates
    obtain ⟨-, hlt, -⟩ := VpidAllocator.allocateVpid_spec hsound halloc
    refine ⟨v, _, halloc, rfl, ?_, ?_, ?_⟩
    · exact forall_mem_append.mpr ⟨hwrites, forall_mem_singleton.mpr hinvept⟩
    · exact VmcsRegion.vpid_eq hlt hfield henabled
    · refine hvalue.imp (fun h => by rw [h]; rfl) fun h => ?_
      rw [h, hfield, toNat_ofNat_vpid hlt]
  · obtain ⟨hvpids, hfield, hdisabled⟩ := h₁.spared hnot
    refine ⟨hvpids, if_pos hdisabled, ?_⟩
    rw [hfield, or_self] at hvalue
    rw [hvalue]
    rfl

end RootRequest

end Bedrock
