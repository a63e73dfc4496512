import Bedrock.Vpid.Instructions

/-!
# The VPID of a forked VM

`new_for_fork` copies the parent's VMCS, the parent's VPID included, and gives the child
a VPID of its own if the copied controls say that VPIDs are enabled.
-/

namespace Bedrock

open Support VmxCpu List

/-- The host's part of one fork. -/
structure ForkRequest where
  pebsRegistered : Bool := false
  eptPointer : UInt64 := 0
  msrBitmapAddr : UInt64 := 0
  pebsExitMsrLoadPage : UInt64 := 0
  /-- the clone of the page table and the VMCS page -/
  prepared : Bool := true
  msrBitmap : Bool := true
  pebsPages : Bool := true
  xsavePages : Bool := true
  fails : VmxInstr → Bool := fun _ => false

namespace ForkRequest

def writes (r : ForkRequest) : List (SetupField × UInt64) :=
  [(.eptPointer, r.eptPointer), (.msrBitmapAddr, r.msrBitmapAddr),
    (.vmxPreemptionTimerValue, 0x100000)] ++
    if r.pebsRegistered then
      [(.vmExitMsrLoadAddr, r.pebsExitMsrLoadPage), (.vmExitMsrLoadCount, 1)]
    else []

/-- The part of `new_for_fork` that takes a VPID. -/
def forkVpid (r : ForkRequest) : Program CreateStop VmxCpu Nat := do
  let currentExec2 ← vmreadOrZero r.fails .secondaryProcBasedVmExecControls
  if currentExec2 &&& ENABLE_VPID = 0 then pure 0
  else do
    let vpid ← takeVpid .panicked
    (vmwrite r.fails .virtualProcessorId (UInt64.ofNat vpid)).mapExit fun _ =>
      .vmState .guestStateCopy
    pure vpid

/-- The part of `new_for_fork` that copies the parent's VMCS region. -/
def copyRegion (r : ForkRequest) (id parent : Nat) : Program CreateStop VmxCpu Unit := do
  (vmclear r.fails .clearParent parent).mapExit fun _ => .vmState .guestStateCopy
  .update fun cpu => cpu.setRegion id (cpu.regions parent)
  (vmptrld r.fails id).mapExit fun _ => .vmState .guestStateCopy
  (writeAll r.fails r.writes).mapExit fun _ => .vmState .guestStateCopy

/-- `new_for_fork`; the result is the VPID the fork records. -/
def newForFork (r : ForkRequest) (id parent : Nat) : Program CreateStop VmxCpu Nat :=
  if !r.msrBitmap then .exit (.vmState .msrBitmapAlloc)
  else if !r.pebsPages then .exit (.vmState .pebsExitMsrLoadAlloc)
  else if !r.xsavePages then .exit (.vmState .xsavePageAlloc)
  else do
    r.copyRegion id parent
    let vpid ← r.forkVpid
    (inveptSingleContext r.fails).mapExit fun _ => .vmState .inveptFailed
    (vmclear r.fails .vmclear id).mapExit fun _ => .vmState .guestStateCopy
    pure vpid

/-! ## How a fork ends -/

variable (r : ForkRequest) {id parent : Nat} {cpu : VmxCpu}

def before (r : ForkRequest) : List VmxInstr :=
  .clearParent :: .vmptrld :: r.writes.map fun w => .write w.1

/-- The fork gets to the VPID. -/
structure Reaches : Prop where
  prepared : r.prepared = true
  msrBitmap : r.msrBitmap = true
  pebsPages : r.pebsPages = true
  xsavePages : r.xsavePages = true
  before : ∀ instr ∈ r.before, r.fails instr = false

/-- The fork gets to `allocate_vpid`. -/
structure Allocates (region : VmcsRegion) : Prop where
  reaches : r.Reaches
  read : r.fails (.read .secondaryProcBasedVmExecControls) = false
  enabled : region .secondaryProcBasedVmExecControls &&& ENABLE_VPID ≠ 0

/-- What follows the VPID succeeds. -/
structure Finishes : Prop where
  invept : r.fails .invept = false
  vmclear : r.fails .vmclear = false

def Completes : Prop :=
  r.fails (.write .virtualProcessorId) = false ∧ r.Finishes

theorem writes_fields :
    .virtualProcessorId ∉ r.writes.map Prod.fst ∧
      .secondaryProcBasedVmExecControls ∉ r.writes.map Prod.fst := by
  rw [writes]
  cases r.pebsRegistered <;> simp

/-- The VMCS of the child when the controls are read: a copy of the parent's as far as
VPIDs are concerned. -/
structure Copied (id parent : Nat) (cpu cpu' : VmxCpu) : Prop where
  current : cpu'.current = some id
  vpids : cpu'.vpids = cpu.vpids
  others : ∀ j, j ≠ id → cpu'.regions j = cpu.regions j
  field : cpu'.regions id .virtualProcessorId = cpu.regions parent .virtualProcessorId
  secondary : cpu'.regions id .secondaryProcBasedVmExecControls =
    cpu.regions parent .secondaryProcBasedVmExecControls

theorem Copied.vpid {cpu cpu' : VmxCpu} (h : Copied id parent cpu cpu') :
    (cpu'.regions id).vpid = (cpu.regions parent).vpid := by
  rw [VmcsRegion.vpid, VmcsRegion.vpid, h.field, h.secondary]

theorem forkVpid_ends {cpu₁ : VmxCpu} (hcopied : Copied id parent cpu cpu₁) (hreaches : r.Reaches) :
    r.forkVpid.Ends cpu₁
      (fun vpid cpu' => (∀ j, j ≠ id → cpu'.regions j = cpu.regions j) ∧
        (r.Allocates (cpu.regions parent) → cpu.vpids.allocateVpid = some (vpid, cpu'.vpids) ∧
          r.fails (.write .virtualProcessorId) = false ∧
          cpu'.regions id .virtualProcessorId = UInt64.ofNat vpid ∧
          cpu'.regions id .secondaryProcBasedVmExecControls &&& ENABLE_VPID ≠ 0) ∧
        (¬r.Allocates (cpu.regions parent) → vpid = 0 ∧ cpu' = cpu₁))
      (fun e cpu' => (∀ j, j ≠ id → cpu'.regions j = cpu.regions j) ∧
        r.Allocates (cpu.regions parent) ∧ (e = .panicked ∨
          ∃ v, cpu.vpids.allocateVpid = some (v, cpu'.vpids) ∧
            r.fails (.write .virtualProcessorId))) := by
  refine .read ?_
  have hread : cpu₁.readOrZero r.fails .secondaryProcBasedVmExecControls =
      if r.fails (.read .secondaryProcBasedVmExecControls) then 0
      else cpu.regions parent .secondaryProcBasedVmExecControls := by
    rw [readOrZero, hcopied.current, ← hcopied.secondary]
  by_cases hallocates : r.Allocates (cpu.regions parent)
  · rw [hread, hallocates.read, if_neg Bool.false_ne_true, if_neg hallocates.enabled]
    have hbase := TakesVpid.base CreateStop.panicked r.fails (fun _ => .vmState .guestStateCopy)
      (fun v => v) hcopied.current (by rw [hcopied.secondary]; exact hallocates.enabled)
    refine hbase.imp ?_ ?_
    · rintro vpid cpu' ⟨-, hwrite, v, htook, rfl⟩
      refine ⟨fun j hj => (htook.others j hj).trans (hcopied.others j hj), fun _ => ?_,
        fun hnot => absurd hallocates hnot⟩
      rw [← hcopied.vpids]
      exact ⟨htook.allocated, hwrite _ mem_cons_self, htook.field, htook.enabled⟩
    rintro e cpu' ⟨hothers, ⟨⟨i, hi, -⟩, -⟩ | ⟨-, hstop⟩⟩
    · cases hi
    refine ⟨fun j hj => (hothers j hj).trans (hcopied.others j hj), hallocates,
      hstop.imp_right ?_⟩
    rintro ⟨v, halloc, i, hi, hfail⟩
    rw [mem_singleton.mp hi] at hfail
    rw [← hcopied.vpids]
    exact ⟨v, halloc, hfail⟩
  · have hdisabled : cpu₁.readOrZero r.fails .secondaryProcBasedVmExecControls &&& ENABLE_VPID = 0 := by
      rw [hread]
      split
      · decide
      rename_i hok
      by_contra henabled
      exact hallocates ⟨hreaches, Bool.eq_false_iff.mpr hok, henabled⟩
    rw [if_pos hdisabled]
    exact ⟨hcopied.others, fun h => absurd h hallocates, fun _ => ⟨rfl, rfl⟩⟩

theorem not_reaches_of_fails {i : VmxInstr} (hi : i ∈ r.before) (hfail : r.fails i) :
    ¬r.Reaches := by
  intro h
  rw [h.before i hi] at hfail
  cases hfail

theorem copyRegion_ends (id parent : Nat) (cpu : VmxCpu) :
    (r.copyRegion id parent).Ends cpu
      (fun _ cpu' => (∀ instr ∈ r.before, r.fails instr = false) ∧ Copied id parent cpu cpu')
      (fun _ cpu' => ¬r.Reaches ∧ (∀ j, j ≠ id → cpu'.regions j = cpu.regions j) ∧
        cpu'.vpids = cpu.vpids) := by
  refine .bind (.mapExit ((vmclear_ends r.fails .clearParent parent cpu).imp (fun _ _ h => h) ?_))
    fun _ cpu₁ h₁ => ?_
  · rintro _ _ ⟨hfail, rfl⟩
    exact ⟨r.not_reaches_of_fails mem_cons_self hfail, fun _ _ => rfl, rfl⟩
  obtain ⟨hclear, rfl⟩ := h₁
  refine .update (.bind (.mapExit ((vmptrld_ends r.fails id _).imp (fun _ _ h => h) ?_))
    fun _ cpu₂ h₂ => ?_)
  · rintro _ _ ⟨hfail, rfl⟩
    exact ⟨r.not_reaches_of_fails (mem_cons_of_mem _ mem_cons_self) hfail,
      fun j hj => setRegion_of_ne _ hj _, rfl⟩
  obtain ⟨hload, rfl⟩ := h₂
  have hcurrent : ({ (cpu.unload parent).setRegion id ((cpu.unload parent).regions parent) with
    current := some id } : VmxCpu).current = some id := rfl
  refine .mapExit ((writeAll_ends hcurrent r.writes).imp ?_ ?_)
  · rintro _ cpu₃ ⟨hwrites, htouch⟩
    refine ⟨forall_mem_cons.mpr ⟨hclear, forall_mem_cons.mpr ⟨hload,
      forall_mem_map.mpr hwrites⟩⟩, htouch.current, htouch.vpids,
      fun j hj => (htouch.others j hj).trans (setRegion_of_ne _ hj _), ?_, ?_⟩
    · exact (htouch.kept _ r.writes_fields.1).trans (congrFun (setRegion_self _ _ _) _)
    · exact (htouch.kept _ r.writes_fields.2).trans (congrFun (setRegion_self _ _ _) _)
  · rintro _ cpu₃ ⟨⟨w, hw, hfail⟩, htouch⟩
    refine ⟨r.not_reaches_of_fails ?_ hfail, fun j hj => ?_, htouch.vpids⟩
    · exact mem_cons_of_mem _ (mem_cons_of_mem _ (mem_map_of_mem hw))
    · exact (htouch.others j hj).trans (setRegion_of_ne _ hj _)

/-- How `new_for_fork` ends; if it takes no VPID it succeeds exactly if all the other
steps do. -/
theorem newForFork_ends (hsound : cpu.vpids.Sound) (hprepared : r.prepared) :
    (r.newForFork id parent).Ends cpu
      (fun vpid cpu' => VpidDone id cpu (r.Allocates (cpu.regions parent)) r.Completes
          (cpu.regions parent).vpid vpid cpu' ∧
        (¬r.Allocates (cpu.regions parent) → r.Reaches ∧ r.Finishes))
      (fun e cpu' => VpidStopped id cpu (r.Allocates (cpu.regions parent)) r.Completes
          (e = .panicked) cpu' ∧
        (¬r.Allocates (cpu.regions parent) → ¬(r.Reaches ∧ r.Finishes))) := by
  have hearly : ∀ (e : CreateStop) (cpu' : VmxCpu), ¬r.Reaches ∧
      (∀ j, j ≠ id → cpu'.regions j = cpu.regions j) ∧ cpu'.vpids = cpu.vpids →
      VpidStopped id cpu (r.Allocates (cpu.regions parent)) r.Completes (e = .panicked) cpu' ∧
        (¬r.Allocates (cpu.regions parent) → ¬(r.Reaches ∧ r.Finishes)) := by
    rintro e cpu' ⟨hnot, hothers, hvpids⟩
    exact ⟨⟨hothers, fun h => absurd h.reaches hnot, fun _ => hvpids⟩, fun _ h => hnot h.1⟩
  unfold newForFork
  split
  · rename_i hbitmap
    refine hearly _ _ ⟨fun h => ?_, fun _ _ => rfl, rfl⟩
    rw [h.msrBitmap] at hbitmap
    cases hbitmap
  split
  · rename_i hpebs
    refine hearly _ _ ⟨fun h => ?_, fun _ _ => rfl, rfl⟩
    rw [h.pebsPages] at hpebs
    cases hpebs
  split
  · rename_i hxsave
    refine hearly _ _ ⟨fun h => ?_, fun _ _ => rfl, rfl⟩
    rw [h.xsavePages] at hxsave
    cases hxsave
  rename_i hbitmap hpebs hxsave
  simp only [Bool.not_eq_true', Bool.not_eq_false] at hbitmap hpebs hxsave
  refine .bind ((r.copyRegion_ends id parent cpu).imp (fun _ _ h => h) hearly) fun _ cpu₁ h₁ => ?_
  obtain ⟨hbefore, hcopied⟩ := h₁
  have hreaches : r.Reaches := ⟨hprepared, hbitmap, hpebs, hxsave, hbefore⟩
  refine .bind ((r.forkVpid_ends hcopied hreaches).imp (fun _ _ h => h) ?_) fun vpid cpu₂ h₂ => ?_
  · rintro e cpu₂ ⟨hothers, hallocates, hstop⟩
    refine ⟨⟨hothers, fun _ => hstop.imp_right ?_, fun hnot => absurd hallocates hnot⟩,
      fun hnot => absurd hallocates hnot⟩
    rintro ⟨v, halloc, hfail⟩
    refine ⟨v, _, halloc, rfl, fun hcompletes => ?_⟩
    rw [hcompletes.1] at hfail
    cases hfail
  obtain ⟨hothers, htook, hspared⟩ := h₂
  have hunfinished : ¬r.Finishes → ∀ e : CreateStop,
      VpidStopped id cpu (r.Allocates (cpu.regions parent)) r.Completes (e = .panicked) cpu₂ ∧
        (¬r.Allocates (cpu.regions parent) → ¬(r.Reaches ∧ r.Finishes)) := by
    intro hnot e
    refine ⟨⟨hothers, fun hallocates => ?_, fun hplain => ?_⟩, fun _ h => hnot h.2⟩
    · exact .inr ⟨vpid, _, (htook hallocates).1, rfl, fun h => hnot h.2⟩
    · rw [(hspared hplain).2, hcopied.vpids]
  refine .bind (.mapExit ((inveptSingleContext_ends r.fails cpu₂).imp (fun _ _ h => h) ?_))
    fun _ cpu₃ h₃ => ?_
  · rintro _ _ ⟨hfail, rfl⟩
    exact hunfinished (fun h => by rw [h.invept] at hfail; cases hfail) _
  obtain ⟨hinvept, rfl⟩ := h₃
  refine .bind (.mapExit ((vmclear_ends r.fails .vmclear id cpu₃).imp (fun _ _ h => h) ?_))
    fun _ cpu₄ h₄ => ?_
  · rintro _ _ ⟨hfail, rfl⟩
    exact hunfinished (fun h => by rw [h.vmclear] at hfail; cases hfail) _
  obtain ⟨hvmclear, rfl⟩ := h₄
  refine ⟨⟨hothers, fun hallocates => ?_, fun hplain => ?_⟩, fun _ => ⟨hreaches, hinvept, hvmclear⟩⟩
  · obtain ⟨halloc, hwrite, hfield, henabled⟩ := htook hallocates
    obtain ⟨-, hlt, -⟩ := VpidAllocator.allocateVpid_spec hsound halloc
    exact ⟨vpid, _, halloc, rfl, ⟨hwrite, hinvept, hvmclear⟩,
      VmcsRegion.vpid_eq hlt hfield henabled, .inr rfl⟩
  · obtain ⟨rfl, rfl⟩ := hspared hplain
    exact ⟨hcopied.vpids, hcopied.vpid, rfl⟩

end ForkRequest

end Bedrock
