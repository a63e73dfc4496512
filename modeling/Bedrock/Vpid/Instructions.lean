import Bedrock.Vm
import Bedrock.Vpid.Allocator

/-!
# VMX instructions of creation and fork

Creation and fork set up a VMCS with VMX instructions, each of which may fail; the code
then returns early from the middle.  The processor has at most one current VMCS, and
VMREAD and VMWRITE go to that one.  The second half says what a sequence of such
instructions leaves of the VMCS and of the allocator if it takes a VPID on its way.
-/

namespace Bedrock

open Support Program List Function

/-- The fields of a VMCS that creation and fork access. -/
inductive SetupField
  | hostCr0 | hostCr3 | hostCr4 | hostCsSelector | hostSsSelector | hostDsSelector
  | hostEsSelector | hostFsSelector | hostGsSelector | hostTrSelector | hostFsBase
  | hostGsBase | hostTrBase | hostGdtrBase | hostIdtrBase | hostIa32SysenterCs
  | hostIa32SysenterEsp | hostIa32SysenterEip | hostIa32Efer | hostIa32Pat | hostRsp
  | hostRip | vmcsLinkPointer | msrBitmapAddr | pinBasedVmExecControls
  | vmxPreemptionTimerValue | primaryProcBasedVmExecControls
  | secondaryProcBasedVmExecControls | virtualProcessorId | primaryVmExitControls
  | vmEntryControls | exceptionBitmap | cr0GuestHostMask | cr4GuestHostMask
  | cr0ReadShadow | cr4ReadShadow | pageFaultErrorCodeMask | pageFaultErrorCodeMatch
  | cr3TargetCount | vmEntryInterruptionInfo | eptPointer | vmExitMsrLoadAddr
  | vmExitMsrLoadCount
  deriving DecidableEq, Repr

/-- The instructions of one creation or fork that can fail. -/
inductive VmxInstr
  | vmclear
  /-- the VMCLEAR of `VmcsGuard::drop` -/
  | guardDrop
  /-- the VMCLEAR of the parent's VMCS in a fork -/
  | clearParent
  | vmptrld
  | write (field : SetupField)
  | read (field : SetupField)
  | invept
  deriving DecidableEq, Repr

abbrev VmcsRegion : Type :=
  SetupField → UInt64

/-- The current VMCS, the regions of all, and the allocator. -/
structure VmxCpu where
  current : Option Nat
  regions : Nat → VmcsRegion
  vpids : VpidAllocator

def ENABLE_VPID : UInt64 := 0x20

/-- The VPID the processor uses for a VM. -/
def VmcsRegion.vpid (region : VmcsRegion) : Nat :=
  if region .secondaryProcBasedVmExecControls &&& ENABLE_VPID = 0 then 0
  else (region .virtualProcessorId).toNat % 2 ^ 16

theorem toNat_ofNat_vpid {v : Nat} (hv : v < 2 ^ 16) : (UInt64.ofNat v).toNat % 2 ^ 16 = v := by
  rw [UInt64.toNat_ofNat']
  omega

theorem VmcsRegion.vpid_eq {region : VmcsRegion} {v : Nat} (hv : v < 2 ^ 16)
    (hfield : region .virtualProcessorId = UInt64.ofNat v)
    (henabled : region .secondaryProcBasedVmExecControls &&& ENABLE_VPID ≠ 0) :
    region.vpid = v := by
  rw [VmcsRegion.vpid, if_neg henabled, hfield, toNat_ofNat_vpid hv]

namespace VmxCpu

def setRegion (cpu : VmxCpu) (id : Nat) (region : VmcsRegion) : VmxCpu :=
  { cpu with regions := Function.update cpu.regions id region }

@[simp] theorem setRegion_self (cpu : VmxCpu) (id : Nat) (region : VmcsRegion) :
    (cpu.setRegion id region).regions id = region :=
  update_self _ _ _

theorem setRegion_of_ne (cpu : VmxCpu) {id j : Nat} (hj : j ≠ id) (region : VmcsRegion) :
    (cpu.setRegion id region).regions j = cpu.regions j :=
  update_of_ne hj _ _

/-- VMCLEAR of the current VMCS leaves none current. -/
def unload (cpu : VmxCpu) (id : Nat) : VmxCpu :=
  { cpu with current := if cpu.current = some id then none else cpu.current }

/-- `VmcsGuard::drop`: a failing VMCLEAR is ignored. -/
def dropGuard (cpu : VmxCpu) (fails : VmxInstr → Bool) (id : Nat) : VmxCpu :=
  if fails .guardDrop then cpu else cpu.unload id

/-- VMREAD with `unwrap_or(0)`; it fails if no VMCS is current. -/
def readOrZero (cpu : VmxCpu) (fails : VmxInstr → Bool) (field : SetupField) : UInt64 :=
  match cpu.current with
  | none => 0
  | some id => if fails (.read field) then 0 else cpu.regions id field

@[simp] theorem dropGuard_regions (cpu : VmxCpu) (fails : VmxInstr → Bool) (id : Nat) :
    (cpu.dropGuard fails id).regions = cpu.regions := by
  unfold dropGuard
  split <;> rfl

@[simp] theorem dropGuard_vpids (cpu : VmxCpu) (fails : VmxInstr → Bool) (id : Nat) :
    (cpu.dropGuard fails id).vpids = cpu.vpids := by
  unfold dropGuard
  split <;> rfl

theorem dropGuard_current {cpu : VmxCpu} {id : Nat} (fails : VmxInstr → Bool)
    (h : cpu.current = some id) :
    (cpu.dropGuard fails id).current = none ∨ (cpu.dropGuard fails id).current = some id := by
  unfold dropGuard
  split
  · exact .inr h
  · exact .inl (if_pos h)

end VmxCpu

section Instructions

variable (fails : VmxInstr → Bool)

def vmclear (instr : VmxInstr) (id : Nat) : Program Unit VmxCpu Unit :=
  if fails instr then .exit () else .update fun cpu => cpu.unload id

def vmptrld (id : Nat) : Program Unit VmxCpu Unit :=
  if fails .vmptrld then .exit () else .update fun cpu => { cpu with current := some id }

def vmwrite (field : SetupField) (value : UInt64) : Program VmcsWriteError VmxCpu Unit :=
  fun cpu =>
    match cpu.current with
    | none => (.error .vmcsNotLoaded, cpu)
    | some id =>
      if fails (.write field) then (.error .invalidField, cpu)
      else (.ok (), cpu.setRegion id (Function.update (cpu.regions id) field value))

def writeAll (writes : List (SetupField × UInt64)) : Program VmcsWriteError VmxCpu Unit :=
  .forEach writes fun w => vmwrite fails w.1 w.2

def vmreadOrZero {ε : Type} (field : SetupField) : Program ε VmxCpu UInt64 :=
  .read fun cpu => cpu.readOrZero fails field

def inveptSingleContext : Program Unit VmxCpu Unit :=
  if fails .invept then .exit () else pure ()

/-- Run with the VMCS loaded; `VmcsGuard::drop` clears it however the run ends. -/
def guarded {ε : Type} (id : Nat) (m : Program ε VmxCpu Unit) : Program ε VmxCpu Unit :=
  fun cpu =>
    match m cpu with
    | (r, cpu) => (r, cpu.dropGuard fails id)

end Instructions

/-- Why a creation stops; a panic stops more than the creation. -/
inductive CreateStop
  | vmState (e : VmStateError)
  | panicked
  deriving DecidableEq, Repr

/-- `allocate_vpid` -/
def takeVpid {ε : Type} (panicked : ε) : Program ε VmxCpu Nat := fun cpu =>
  match cpu.vpids.allocateVpid with
  | none => (.error panicked, cpu)
  | some (vpid, vpids) => (.ok vpid, { cpu with vpids })

/-! ## What the instructions do -/

/-- Writes to the current VMCS touch nothing but the given fields of it. -/
structure Touches (id : Nat) (fields : List SetupField) (cpu cpu' : VmxCpu) : Prop where
  current : cpu'.current = cpu.current
  vpids : cpu'.vpids = cpu.vpids
  others : ∀ j, j ≠ id → cpu'.regions j = cpu.regions j
  kept : ∀ f, f ∉ fields → cpu'.regions id f = cpu.regions id f

namespace Touches

variable {id : Nat} {fields fields' : List SetupField} {cpu cpu₁ cpu₂ : VmxCpu}

theorem refl (id : Nat) (cpu : VmxCpu) : Touches id [] cpu cpu :=
  ⟨rfl, rfl, fun _ _ => rfl, fun _ _ => rfl⟩

theorem trans (h₁ : Touches id fields cpu cpu₁) (h₂ : Touches id fields' cpu₁ cpu₂) :
    Touches id (fields ++ fields') cpu cpu₂ := by
  refine ⟨h₂.current.trans h₁.current, h₂.vpids.trans h₁.vpids,
    fun j hj => (h₂.others j hj).trans (h₁.others j hj), fun f hf => ?_⟩
  rw [mem_append, not_or] at hf
  exact (h₂.kept f hf.2).trans (h₁.kept f hf.1)

theorem mono (h : Touches id fields cpu cpu₁) (hsub : fields ⊆ fields') :
    Touches id fields' cpu cpu₁ :=
  ⟨h.current, h.vpids, h.others, fun f hf => h.kept f fun hmem => hf (hsub hmem)⟩

theorem setRegion (cpu : VmxCpu) (id : Nat) (field : SetupField) (value : UInt64) :
    Touches id [field] cpu (cpu.setRegion id (Function.update (cpu.regions id) field value)) := by
  refine ⟨rfl, rfl, fun j hj => cpu.setRegion_of_ne hj _, fun f hf => ?_⟩
  rw [mem_singleton] at hf
  rw [VmxCpu.setRegion_self, update_of_ne hf]

end Touches

variable {ε : Type}

section

variable {fails : VmxInstr → Bool} {id : Nat} {cpu : VmxCpu}

theorem vmwrite_ends (hcurrent : cpu.current = some id) (field : SetupField) (value : UInt64) :
    (vmwrite fails field value).Ends cpu
      (fun _ cpu' => fails (.write field) = false ∧
        cpu' = cpu.setRegion id (Function.update (cpu.regions id) field value))
      (fun _ cpu' => fails (.write field) ∧ cpu' = cpu) := by
  unfold Ends vmwrite
  rw [hcurrent]
  cases hfails : fails (.write field) with
  | true | false => exact ⟨rfl, rfl⟩

theorem writeAll_ends (hcurrent : cpu.current = some id) (writes : List (SetupField × UInt64)) :
    (writeAll fails writes).Ends cpu
      (fun _ cpu' => (∀ w ∈ writes, fails (.write w.1) = false) ∧
        Touches id (writes.map Prod.fst) cpu cpu')
      (fun _ cpu' => (∃ w ∈ writes, fails (.write w.1)) ∧
        Touches id (writes.map Prod.fst) cpu cpu') := by
  induction writes generalizing cpu with
  | nil => exact ⟨forall_mem_nil _, .refl id cpu⟩
  | cons w writes ih =>
    refine .bind ((vmwrite_ends hcurrent w.1 w.2).imp (fun _ _ h => h) ?_) fun _ cpu₁ h => ?_
    · rintro _ cpu' ⟨hfail, rfl⟩
      exact ⟨⟨w, mem_cons_self, hfail⟩, (Touches.refl id cpu').mono (nil_subset _)⟩
    obtain ⟨hok, rfl⟩ := h
    have htouch := Touches.setRegion cpu id w.1 w.2
    refine (ih (htouch.current.trans hcurrent)).imp (fun _ cpu' h => ?_) (fun _ cpu' h => ?_)
    · exact ⟨forall_mem_cons.mpr ⟨hok, h.1⟩, htouch.trans h.2⟩
    · obtain ⟨⟨w', hw', hfail⟩, hrest⟩ := h
      exact ⟨⟨w', mem_cons_of_mem w hw', hfail⟩, htouch.trans hrest⟩

theorem vmclear_ends (fails : VmxInstr → Bool) (instr : VmxInstr) (id : Nat) (cpu : VmxCpu) :
    (vmclear fails instr id).Ends cpu (fun _ cpu' => fails instr = false ∧ cpu' = cpu.unload id)
      (fun _ cpu' => fails instr ∧ cpu' = cpu) := by
  unfold vmclear
  split
  · exact ⟨‹_›, rfl⟩
  · exact ⟨Bool.eq_false_iff.mpr ‹_›, rfl⟩

theorem vmptrld_ends (fails : VmxInstr → Bool) (id : Nat) (cpu : VmxCpu) :
    (vmptrld fails id).Ends cpu
      (fun _ cpu' => fails .vmptrld = false ∧ cpu' = { cpu with current := some id })
      (fun _ cpu' => fails .vmptrld ∧ cpu' = cpu) := by
  unfold vmptrld
  split
  · exact ⟨‹_›, rfl⟩
  · exact ⟨Bool.eq_false_iff.mpr ‹_›, rfl⟩

theorem inveptSingleContext_ends (fails : VmxInstr → Bool) (cpu : VmxCpu) :
    (inveptSingleContext fails).Ends cpu (fun _ cpu' => fails .invept = false ∧ cpu' = cpu)
      (fun _ cpu' => fails .invept ∧ cpu' = cpu) := by
  unfold inveptSingleContext
  split
  · exact ⟨‹_›, rfl⟩
  · exact ⟨Bool.eq_false_iff.mpr ‹_›, rfl⟩

theorem guarded_ends {m : Program ε VmxCpu Unit} {Q : Unit → VmxCpu → Prop} {E : ε → VmxCpu → Prop}
    (h : m.Ends cpu (fun u cpu' => Q u (cpu'.dropGuard fails id))
      (fun e cpu' => E e (cpu'.dropGuard fails id))) :
    (guarded fails id m).Ends cpu Q E := by
  unfold Ends guarded at *
  rcases hrun : m cpu with ⟨e | u, cpu'⟩
  all_goals
    rw [hrun] at h
    exact h

end

theorem takeVpid_ends (panicked : ε) (cpu : VmxCpu) :
    (takeVpid panicked).Ends cpu
      (fun v cpu' => ∃ vpids, cpu.vpids.allocateVpid = some (v, vpids) ∧ cpu' = { cpu with vpids })
      (fun e cpu' => e = panicked ∧ cpu' = cpu) := by
  unfold Ends takeVpid
  rcases cpu.vpids.allocateVpid with _ | ⟨v, vpids⟩
  · exact ⟨rfl, rfl⟩
  · exact ⟨vpids, rfl, rfl⟩

/-- Steps on the current VMCS that concern no VPID. -/
structure PlainStep (id : Nat) (cpu cpu' : VmxCpu) : Prop where
  current : cpu'.current = cpu.current
  vpids : cpu'.vpids = cpu.vpids
  others : ∀ j, j ≠ id → cpu'.regions j = cpu.regions j
  field : cpu'.regions id .virtualProcessorId = cpu.regions id .virtualProcessorId
  disabled : cpu.regions id .secondaryProcBasedVmExecControls &&& ENABLE_VPID = 0 →
    cpu'.regions id .secondaryProcBasedVmExecControls &&& ENABLE_VPID = 0

namespace PlainStep

variable {id : Nat} {cpu cpu₁ cpu₂ : VmxCpu}

theorem refl (id : Nat) (cpu : VmxCpu) : PlainStep id cpu cpu :=
  ⟨rfl, rfl, fun _ _ => rfl, rfl, fun h => h⟩

theorem trans (h₁ : PlainStep id cpu cpu₁) (h₂ : PlainStep id cpu₁ cpu₂) : PlainStep id cpu cpu₂ :=
  ⟨h₂.current.trans h₁.current, h₂.vpids.trans h₁.vpids,
    fun j hj => (h₂.others j hj).trans (h₁.others j hj), h₂.field.trans h₁.field,
    fun h => h₂.disabled (h₁.disabled h)⟩

theorem of_touches {fields : List SetupField} (h : Touches id fields cpu cpu₁)
    (hvpid : .virtualProcessorId ∉ fields) (hsecondary : .secondaryProcBasedVmExecControls ∉ fields) :
    PlainStep id cpu cpu₁ :=
  ⟨h.current, h.vpids, h.others, h.kept _ hvpid, fun hclear => by rw [h.kept _ hsecondary, hclear]⟩

/-- A program all of whose ends are such steps, followed by another. -/
theorem seq {ε α : Type} {m : Program ε VmxCpu Unit} {k : Program ε VmxCpu α}
    (hm : m.Ends cpu (fun _ => PlainStep id cpu) (fun _ => PlainStep id cpu))
    (hk : ∀ cpu₁, PlainStep id cpu cpu₁ →
      k.Ends cpu₁ (fun _ => PlainStep id cpu₁) (fun _ => PlainStep id cpu₁)) :
    (m >>= fun _ => k).Ends cpu (fun _ => PlainStep id cpu) (fun _ => PlainStep id cpu) :=
  hm.bind fun _ cpu₁ h₁ => (hk cpu₁ h₁).imp (fun _ _ h => h₁.trans h) (fun _ _ h => h₁.trans h)

end PlainStep

variable {toExit : VmcsWriteError → ε}

section

variable {fails : VmxInstr → Bool} {id : Nat} {cpu : VmxCpu}

theorem writeAll_plain (hcurrent : cpu.current = some id)
    {writes : List (SetupField × UInt64)} (hvpid : .virtualProcessorId ∉ writes.map Prod.fst)
    (hsecondary : .secondaryProcBasedVmExecControls ∉ writes.map Prod.fst) :
    ((writeAll fails writes).mapExit toExit).Ends cpu (fun _ => PlainStep id cpu)
      (fun _ => PlainStep id cpu) :=
  .mapExit ((writeAll_ends hcurrent writes).imp (fun _ _ h => .of_touches h.2 hvpid hsecondary)
    (fun _ _ h => .of_touches h.2 hvpid hsecondary))

theorem vmwrite_plain (hcurrent : cpu.current = some id)
    {field : SetupField} {value : UInt64} (hvpid : field ≠ .virtualProcessorId)
    (hsecondary : field = .secondaryProcBasedVmExecControls → value &&& ENABLE_VPID = 0) :
    ((vmwrite fails field value).mapExit toExit).Ends cpu (fun _ => PlainStep id cpu)
      (fun _ => PlainStep id cpu) := by
  refine .mapExit ((vmwrite_ends hcurrent field value).imp ?_ ?_)
  · rintro _ _ ⟨-, rfl⟩
    refine ⟨rfl, rfl, fun j hj => cpu.setRegion_of_ne hj _, ?_, fun hclear => ?_⟩
    · rw [VmxCpu.setRegion_self, update_of_ne (Ne.symm hvpid)]
    rw [VmxCpu.setRegion_self]
    by_cases hfield : field = .secondaryProcBasedVmExecControls
    · rw [hfield, update_self]
      exact hsecondary hfield
    · rw [update_of_ne (Ne.symm hfield)]
      exact hclear
  · rintro _ _ ⟨-, rfl⟩
    exact .refl id _

end

/-! ## Taking a VPID -/

/-- The VMCS uses the VPID that was taken. -/
structure Took (id : Nat) (cpu : VmxCpu) (v : Nat) (cpu' : VmxCpu) : Prop where
  current : cpu'.current = cpu.current
  others : ∀ j, j ≠ id → cpu'.regions j = cpu.regions j
  allocated : cpu.vpids.allocateVpid = some (v, cpu'.vpids)
  field : cpu'.regions id .virtualProcessorId = UInt64.ofNat v
  enabled : cpu'.regions id .secondaryProcBasedVmExecControls &&& ENABLE_VPID ≠ 0

/-- A program that takes a VPID unless an instruction before that fails; it is stopped
afterwards exactly if one of the later instructions fails. -/
def TakesVpid {ε α : Type} (panicked : ε) (fails : VmxInstr → Bool) (id : Nat)
    (before after : List VmxInstr) (cpu : VmxCpu) (m : Program ε VmxCpu α) (Q : Nat → α → Prop) :
    Prop :=
  m.Ends cpu
    (fun a cpu' => (∀ i ∈ before, fails i = false) ∧ (∀ i ∈ after, fails i = false) ∧
      ∃ v, Took id cpu v cpu' ∧ Q v a)
    (fun e cpu' => (∀ j, j ≠ id → cpu'.regions j = cpu.regions j) ∧
      ((∃ i ∈ before, fails i = true) ∧ cpu'.vpids = cpu.vpids ∨
        (∀ i ∈ before, fails i = false) ∧ (e = panicked ∨
          ∃ v, cpu.vpids.allocateVpid = some (v, cpu'.vpids) ∧ ∃ i ∈ after, fails i = true)))

namespace TakesVpid

variable {ε α : Type} {panicked : ε} {fails : VmxInstr → Bool} {id : Nat}
  {before after : List VmxInstr} {cpu : VmxCpu} {Q : Nat → α → Prop}

theorem base (panicked : ε) (fails : VmxInstr → Bool) (toExit : VmcsWriteError → ε) (f : Nat → α)
    (hcurrent : cpu.current = some id)
    (henabled : cpu.regions id .secondaryProcBasedVmExecControls &&& ENABLE_VPID ≠ 0) :
    TakesVpid panicked fails id [] [.write .virtualProcessorId] cpu (do
      let vpid ← takeVpid panicked
      (vmwrite fails .virtualProcessorId (UInt64.ofNat vpid)).mapExit toExit
      pure (f vpid)) fun v a => a = f v := by
  refine .bind ((takeVpid_ends panicked cpu).imp (fun _ _ h => h) ?_) fun v cpu₁ h₁ => ?_
  · rintro e _ ⟨rfl, rfl⟩
    exact ⟨fun _ _ => rfl, .inr ⟨forall_mem_nil _, .inl rfl⟩⟩
  obtain ⟨vpids, halloc, rfl⟩ := h₁
  have hcurrent₁ : ({ cpu with vpids } : VmxCpu).current = some id := hcurrent
  refine .bind (.mapExit ((vmwrite_ends hcurrent₁ _ _).imp (fun _ _ h => h) ?_))
    fun _ cpu₂ h₂ => ?_
  · rintro _ _ ⟨hfail, rfl⟩
    exact ⟨fun _ _ => rfl, .inr ⟨forall_mem_nil _, .inr ⟨v, halloc, _, mem_cons_self, hfail⟩⟩⟩
  obtain ⟨hok, rfl⟩ := h₂
  refine ⟨forall_mem_nil _, ?_, v, ⟨rfl, fun j hj => VmxCpu.setRegion_of_ne _ hj _, halloc,
    ?_, ?_⟩, rfl⟩
  · intro i hi
    rw [mem_singleton.mp hi]
    exact hok
  · rw [VmxCpu.setRegion_self, update_self]
  · rw [VmxCpu.setRegion_self, update_of_ne (by decide)]
    exact henabled

theorem after_plain {β : Type} {fields : List SetupField} {instrs : List VmxInstr}
    {m : Program ε VmxCpu β} {k : β → Program ε VmxCpu α} {P : β → VmxCpu → Prop}
    (hm : m.Ends cpu
      (fun b cpu₁ => (∀ i ∈ instrs, fails i = false) ∧ Touches id fields cpu cpu₁ ∧ P b cpu₁)
      (fun _ cpu₁ => (∃ i ∈ instrs, fails i) ∧ Touches id fields cpu cpu₁))
    (hk : ∀ b cpu₁, Touches id fields cpu cpu₁ → P b cpu₁ →
      TakesVpid panicked fails id before after cpu₁ (k b) Q) :
    TakesVpid panicked fails id (instrs ++ before) after cpu (m >>= k) Q := by
  refine .bind (hm.imp (fun _ _ h => h) ?_) fun b cpu₁ h₁ => ?_
  · rintro e cpu₁ ⟨⟨i, hi, hfail⟩, htouch⟩
    exact ⟨htouch.others, .inl ⟨⟨i, mem_append_left _ hi, hfail⟩, htouch.vpids⟩⟩
  obtain ⟨hok, htouch, hP⟩ := h₁
  refine (hk b cpu₁ htouch hP).imp ?_ ?_
  · rintro a cpu₂ ⟨hbefore, hafter, v, htook, hQ⟩
    refine ⟨forall_mem_append.mpr ⟨hok, hbefore⟩, hafter, v, ⟨?_, fun j hj => ?_, ?_,
      htook.field, htook.enabled⟩, hQ⟩
    · exact htook.current.trans htouch.current
    · exact (htook.others j hj).trans (htouch.others j hj)
    · rw [← htouch.vpids]
      exact htook.allocated
  · rintro e cpu₂ ⟨hothers, hstop⟩
    refine ⟨fun j hj => (hothers j hj).trans (htouch.others j hj), ?_⟩
    rw [htouch.vpids] at hstop
    rcases hstop with ⟨⟨i, hi, hfail⟩, hvpids⟩ | ⟨hbefore, hstop⟩
    · exact .inl ⟨⟨i, mem_append_right _ hi, hfail⟩, hvpids⟩
    · exact .inr ⟨forall_mem_append.mpr ⟨hok, hbefore⟩, hstop⟩

theorem then_plain {β : Type} {fields : List SetupField} {instrs : List VmxInstr}
    {m : Program ε VmxCpu α} {k : α → Program ε VmxCpu β} {Q' : Nat → β → Prop}
    (hm : TakesVpid panicked fails id before after cpu m Q)
    (hk : ∀ a v cpu₁, Took id cpu v cpu₁ → Q v a → (k a).Ends cpu₁
      (fun b cpu₂ => (∀ i ∈ instrs, fails i = false) ∧ Touches id fields cpu₁ cpu₂ ∧ Q' v b)
      (fun _ cpu₂ => (∃ i ∈ instrs, fails i) ∧ Touches id fields cpu₁ cpu₂))
    (hvpid : .virtualProcessorId ∉ fields) (hsecondary : .secondaryProcBasedVmExecControls ∉ fields) :
    TakesVpid panicked fails id before (after ++ instrs) cpu (m >>= k) Q' := by
  refine .bind (hm.imp (fun _ _ h => h) ?_) fun a cpu₁ h₁ => ?_
  · rintro e cpu₁ ⟨hothers, hstop⟩
    refine ⟨hothers, hstop.imp_right fun h => ⟨h.1, h.2.imp_right ?_⟩⟩
    rintro ⟨v, halloc, i, hi, hfail⟩
    exact ⟨v, halloc, i, mem_append_left _ hi, hfail⟩
  obtain ⟨hbefore, hafter, v, htook, hQ⟩ := h₁
  refine (hk a v cpu₁ htook hQ).imp ?_ ?_
  · rintro b cpu₂ ⟨hok, htouch, hQ'⟩
    refine ⟨hbefore, forall_mem_append.mpr ⟨hafter, hok⟩, v, ⟨?_, fun j hj => ?_, ?_, ?_, ?_⟩,
      hQ'⟩
    · exact htouch.current.trans htook.current
    · exact (htouch.others j hj).trans (htook.others j hj)
    · rw [htouch.vpids]
      exact htook.allocated
    · rw [htouch.kept _ hvpid]
      exact htook.field
    · rw [htouch.kept _ hsecondary]
      exact htook.enabled
  · rintro e cpu₂ ⟨⟨i, hi, hfail⟩, htouch⟩
    refine ⟨fun j hj => (htouch.others j hj).trans (htook.others j hj), .inr ⟨hbefore, .inr ?_⟩⟩
    exact ⟨v, by rw [htouch.vpids]; exact htook.allocated, i, mem_append_right _ hi, hfail⟩

end TakesVpid

section

variable {fails : VmxInstr → Bool} {id : Nat} {cpu : VmxCpu}

theorem writeAll_instrs (hcurrent : cpu.current = some id) (writes : List (SetupField × UInt64)) :
    ((writeAll fails writes).mapExit toExit).Ends cpu
      (fun _ cpu₁ => (∀ i ∈ writes.map (fun w => VmxInstr.write w.1), fails i = false) ∧
        Touches id (writes.map Prod.fst) cpu cpu₁ ∧ True)
      (fun _ cpu₁ => (∃ i ∈ writes.map (fun w => VmxInstr.write w.1), fails i) ∧
        Touches id (writes.map Prod.fst) cpu cpu₁) := by
  refine .mapExit ((writeAll_ends hcurrent writes).imp ?_ ?_)
  · rintro _ cpu₁ ⟨hok, htouch⟩
    exact ⟨forall_mem_map.mpr hok, htouch, trivial⟩
  rintro _ cpu₁ ⟨hfail, htouch⟩
  obtain ⟨w, hw, hfail⟩ := hfail
  exact ⟨⟨_, mem_map_of_mem hw, hfail⟩, htouch⟩

theorem vmwrite_instrs (hcurrent : cpu.current = some id) (field : SetupField) (value : UInt64) :
    ((vmwrite fails field value).mapExit toExit).Ends cpu
      (fun _ cpu₁ => (∀ i ∈ [VmxInstr.write field], fails i = false) ∧ Touches id [field] cpu cpu₁ ∧
        cpu₁.regions id field = value)
      (fun _ cpu₁ => (∃ i ∈ [VmxInstr.write field], fails i) ∧
        Touches id [field] cpu cpu₁) := by
  refine .mapExit ((vmwrite_ends hcurrent field value).imp ?_ ?_)
  · rintro _ _ ⟨hok, rfl⟩
    refine ⟨forall_mem_singleton.mpr hok, .setRegion cpu id field value, ?_⟩
    rw [VmxCpu.setRegion_self, update_self]
  · rintro _ _ ⟨hfail, rfl⟩
    exact ⟨⟨_, mem_cons_self, hfail⟩, (Touches.refl id _).mono (nil_subset _)⟩

end

/-- What a creation or fork that succeeds leaves: it took a VPID and its VMCS uses it, or
took none and its VMCS uses `plain`.  It records the VPID of its VMCS or none. -/
structure VpidDone (id : Nat) (cpu : VmxCpu) (allocates completes : Prop) (plain vpid : Nat)
    (cpu' : VmxCpu) : Prop where
  others : ∀ j, j ≠ id → cpu'.regions j = cpu.regions j
  took : allocates → ∃ v vpids, cpu.vpids.allocateVpid = some (v, vpids) ∧ cpu'.vpids = vpids ∧
    completes ∧ (cpu'.regions id).vpid = v ∧ (vpid = 0 ∨ vpid = v)
  spared : ¬allocates → cpu'.vpids = cpu.vpids ∧ (cpu'.regions id).vpid = plain ∧ vpid = 0

/-- What a creation or fork that stops early leaves. -/
structure VpidStopped (id : Nat) (cpu : VmxCpu) (allocates completes panics : Prop)
    (cpu' : VmxCpu) : Prop where
  others : ∀ j, j ≠ id → cpu'.regions j = cpu.regions j
  took : allocates → panics ∨ ∃ v vpids, cpu.vpids.allocateVpid = some (v, vpids) ∧
    cpu'.vpids = vpids ∧ ¬completes
  spared : ¬allocates → cpu'.vpids = cpu.vpids

end Bedrock
