import Bedrock.Coherence

/-!
# Progress of copy-on-write faults

A write to a page that is not writable must either make the page writable or report
that the page pool is exhausted.  The handler reports an exhausted pool for every
failure, and assumes that a page it has already copied is writable.
-/

namespace Bedrock

open Support VmMemory VmContext

/-- A write violation on a page that is not writable and not emulated, not caused by
the precise-exit counter. -/
structure WriteViolation (ctx : VmContext) (qual : EptViolationQualification) (gpa : Nat) :
    Prop where
  write : qual.write = true
  notWritable : qual.writable = false
  notPebs : isPebsInduced qual = false
  address : (ctx.state.vmcs.fields.readOrZero .guestPhysicalAddr).toNat = gpa
  notApic : isApicGpa gpa = false
  notIoApic : isIoApicGpa gpa = false

variable {ctx : VmContext} {gpa : Nat} {parent : VmMemory} {cow : CowPageMap}

theorem handleEptViolation_of_write {qual : EptViolationQualification}
    (h : WriteViolation ctx qual gpa) :
    handleEptViolation qual ctx =
      (.ok ((ctx.handleCowFault gpa).1.getD (.exitToUserspace .poolExhausted)),
        (ctx.handleCowFault gpa).2) := by
  rw [handleEptViolation, if_neg (by rw [h.notPebs]; decide),
    Program.bind_ok (readFieldOrZero_apply _ _)]
  simp only [h.address, h.notApic, h.notIoApic, h.write, h.notWritable, Bool.false_eq_true, if_false,
    and_self, if_true]
  rfl

namespace VmContext

def leafWritable (ctx : VmContext) (gpa : Nat) : Bool :=
  (ctx.state.ept.lookup gpa).any fun leaf => leaf.2.writable

/-- `handle_cow_fault` asked for a page and got none. -/
def allocationFailed (ctx : VmContext) (gpa : Nat) : Bool :=
  match ctx.memory with
  | .root _ => false
  | .forked cow _ => !cow.contains (pageBase gpa) && ctx.allocateCowPage.1.isNone

def refilled (ctx : VmContext) (frame : HostFrame) : VmContext :=
  { ctx with host := { ctx.host with cowPages := [some ⟨frame, true⟩] } }

end VmContext

/-- The result the violation should have: a page that is writable, or a failed
allocation after which a refilled pool does not run out again. -/
structure MakesProgress (ctx : VmContext) (qual : EptViolationQualification) (gpa : Nat) :
    Prop where
  writable : (handleEptViolation qual ctx).1 = .ok .continue_ →
    (handleEptViolation qual ctx).2.leafWritable gpa = true
  allocation : (handleEptViolation qual ctx).1 = .ok (.exitToUserspace .poolExhausted) →
    ctx.allocationFailed gpa = true ∧ ∀ frame,
      (handleEptViolation qual ((handleEptViolation qual ctx).2.refilled frame)).1 ≠
        .ok (.exitToUserspace .poolExhausted)

theorem handleCowFault_root {memory : GuestMemory}
    (hmem : ctx.memory = .root memory) (gpa : Nat) : ctx.handleCowFault gpa = (none, ctx) := by
  simp [VmContext.handleCowFault, hmem]

theorem handleCowFault_copied
    (hmem : ctx.memory = .forked cow parent) (hcopied : cow.contains (pageBase gpa)) :
    ctx.handleCowFault gpa = (some .continue_, ctx) := by
  simp [VmContext.handleCowFault, hmem, hcopied]

theorem handleCowFault_new
    (hmem : ctx.memory = .forked cow parent) (hnew : cow.contains (pageBase gpa) = false) :
    ctx.handleCowFault gpa =
      ((if (ctx.copyPage cow parent (pageBase gpa)).1 then some .continue_ else none),
        (ctx.copyPage cow parent (pageBase gpa)).2) := by
  unfold VmContext.handleCowFault
  rw [hmem]
  dsimp only
  rw [if_neg (by rw [hnew]; decide)]
  rcases ctx.copyPage cow parent (pageBase gpa) with ⟨done, after⟩
  cases done <;> rfl

theorem copyPage_ok_iff (ctx : VmContext) (cow : CowPageMap) (parent : VmMemory) (g : Nat) :
    (ctx.copyPage cow parent g).1 ↔
      (∃ grant, ctx.allocateCowPage.1 = some grant ∧ grant.inserted) ∧
        (parent.readPage g).isSome ∧ (ctx.state.ept.lookup g).isSome := by
  rcases ctx.copyPage_cases cow parent g with
    ⟨heq, hnot⟩ | ⟨grant, page, hgrant, hinserted, hpage, ⟨hnone, heq⟩ | ⟨ept, -, hmapped, heq⟩⟩
  · rw [heq]
    exact ⟨nofun, fun h => absurd ⟨h.1, h.2.1⟩ hnot⟩
  · rw [heq, hnone]
    exact ⟨nofun, fun h => nomatch h.2.2⟩
  · rw [heq]
    exact ⟨fun _ => ⟨⟨grant, hgrant, hinserted⟩, by rw [hpage]; rfl, hmapped⟩, fun _ => rfl⟩

theorem leafWritable_of_copyPage
    (hgpa : gpa < 2 ^ 48) (h : (ctx.copyPage cow parent (pageBase gpa)).1) :
    (ctx.copyPage cow parent (pageBase gpa)).2.leafWritable gpa := by
  rcases ctx.copyPage_cases cow parent (pageBase gpa) with
    ⟨heq, -⟩ | ⟨grant, page, -, -, -, ⟨-, heq⟩ | ⟨ept, hremap, -, heq⟩⟩
  · rw [heq] at h
    cases h
  · rw [heq] at h
    cases h
  have hbase : pageBase gpa < 2 ^ 48 := (pageStart_le gpa).trans_lt hgpa
  have hsame : gpa / 4096 = pageBase gpa / 4096 := by
    rw [← pageBase_eq_iff]
    exact (pageStart_idem gpa).symm
  rw [heq, leafWritable]
  simp only [setEpt, withCopy, setMemory, allocateCowPage]
  rw [EptPageTable.lookup_remap (by decide) hremap hbase hgpa, if_pos hsame]
  have hwritable : EptPermissions.READ_WRITE_EXECUTE.writable := by decide
  simpa using hwritable

/-! ## Reachable VMs -/

/-- Every page fully inside the root's region is mapped, except those of the interrupt
controllers. -/
def MapsMemory (ctx : VmContext) : Prop :=
  ∀ g, ctx.memory.FullPage g → isApicGpa (pageBase g) = false → isIoApicGpa (pageBase g) = false →
    (ctx.state.ept.lookup g).isSome = true

theorem VmReached.mapsMemory (h : VmReached ctx) : MapsMemory ctx := by
  induction h with
  | @root memory _ _ _ _ _ _ h =>
    obtain ⟨hmem, -, hlookup⟩ := RootVm.new_spec h
    intro g hfull hapic hioapic
    have hlt := hfull.lt
    rw [hmem, FullPage, memorySize] at hfull
    have hmaps : memory.maps g := ⟨by simp only [PAGE_SIZE] at hfull; omega, hapic, hioapic⟩
    rw [hlookup g hlt, if_pos hmaps]
    rfl
  | fork hparent h ih =>
    obtain ⟨fresh, hfresh, rfl⟩ := ForkedVm.new_spec h
    have hadvance := preCowIoChannelPage_advance fresh
    intro g hfull hapic hioapic
    rw [FullPage, hadvance.size, hfresh.memory] at hfull
    rw [hadvance.mapped, hfresh.lookup, Option.isSome_map]
    exact ih g hfull hapic hioapic
  | op _ h ih =>
    have hadvance := h.advance
    intro g hfull hapic hioapic
    rw [FullPage, hadvance.size] at hfull
    rw [hadvance.mapped]
    exact ih g hfull hapic hioapic

theorem isApicGpa_pageBase (gpa : Nat) : isApicGpa (pageBase gpa) = isApicGpa gpa := by
  rw [Bool.eq_iff_iff]
  simp only [isApicGpa, Bool.and_eq_true, decide_eq_true_eq]
  simp only [APIC_BASE, APIC_SIZE, pageBase, pageStart, PAGE_SIZE]
  omega

theorem isIoApicGpa_pageBase (gpa : Nat) : isIoApicGpa (pageBase gpa) = isIoApicGpa gpa := by
  rw [Bool.eq_iff_iff]
  simp only [isIoApicGpa, Bool.and_eq_true, decide_eq_true_eq]
  simp only [IOAPIC_BASE, IOAPIC_SIZE, pageBase, pageStart, PAGE_SIZE]
  omega

/-! The three cases of a violation: a root, a page that is copied, a new page. -/

section Cases

variable {ctx : VmContext} {qual : EptViolationQualification} {gpa : Nat} {cow : CowPageMap}
  {parent : VmMemory}

theorem not_makesProgress_root {memory : GuestMemory} (hviolation : WriteViolation ctx qual gpa)
    (hmem : ctx.memory = .root memory) : ¬MakesProgress ctx qual gpa := by
  intro h
  have hresult : (handleEptViolation qual ctx).1 = .ok (.exitToUserspace .poolExhausted) := by
    rw [handleEptViolation_of_write hviolation, handleCowFault_root hmem]
    rfl
  have hfailed := (h.allocation hresult).1
  rw [allocationFailed, hmem] at hfailed
  cases hfailed

theorem makesProgress_copied_iff (hviolation : WriteViolation ctx qual gpa)
    (hmem : ctx.memory = .forked cow parent) (hcopied : cow.contains (pageBase gpa)) :
    MakesProgress ctx qual gpa ↔ ctx.leafWritable gpa := by
  have hresult : handleEptViolation qual ctx = (.ok .continue_, ctx) := by
    rw [handleEptViolation_of_write hviolation, handleCowFault_copied hmem hcopied]
    rfl
  constructor
  · intro h
    have hwritable := h.writable
    rw [hresult] at hwritable
    exact hwritable rfl
  · intro h
    refine ⟨fun _ => by rw [hresult]; exact h, fun hexhausted => ?_⟩
    rw [hresult] at hexhausted
    cases hexhausted

theorem handleEptViolation_new (hviolation : WriteViolation ctx qual gpa)
    (hmem : ctx.memory = .forked cow parent) (hnew : cow.contains (pageBase gpa) = false) :
    handleEptViolation qual ctx =
      (.ok (if (ctx.copyPage cow parent (pageBase gpa)).1 then .continue_
        else .exitToUserspace .poolExhausted), (ctx.copyPage cow parent (pageBase gpa)).2) := by
  rw [handleEptViolation_of_write hviolation, handleCowFault_new hmem hnew]
  cases (ctx.copyPage cow parent (pageBase gpa)).1 <;> rfl

theorem retry_iff (hviolation : WriteViolation ctx qual gpa)
    (hmem : ctx.memory = .forked cow parent) (hnew : cow.contains (pageBase gpa) = false)
    (hnone : ctx.allocateCowPage.1 = none) (frame : HostFrame) :
    (handleEptViolation qual ((handleEptViolation qual ctx).2.refilled frame)).1 ≠
        .ok (.exitToUserspace .poolExhausted) ↔
      (parent.readPage (pageBase gpa)).isSome ∧ (ctx.state.ept.lookup (pageBase gpa)).isSome := by
  have hafter : (handleEptViolation qual ctx).2 = ctx.allocateCowPage.2 := by
    rw [handleEptViolation_new hviolation hmem hnew]
    rcases ctx.copyPage_cases cow parent (pageBase gpa) with ⟨heq, -⟩ | ⟨grant, _, hgrant, _⟩
    · rw [heq]
    · rw [hnone] at hgrant
      cases hgrant
  have hretry : WriteViolation (ctx.allocateCowPage.2.refilled frame) qual gpa :=
    ⟨hviolation.write, hviolation.notWritable, hviolation.notPebs, hviolation.address,
      hviolation.notApic, hviolation.notIoApic⟩
  have hok := copyPage_ok_iff (ctx.allocateCowPage.2.refilled frame) cow parent (pageBase gpa)
  have hgrant : ∃ grant, (ctx.allocateCowPage.2.refilled frame).allocateCowPage.1 = some grant ∧
      grant.inserted := ⟨⟨frame, true⟩, rfl, rfl⟩
  rw [hafter, handleEptViolation_new hretry hmem hnew]
  cases hcopy : ((ctx.allocateCowPage.2.refilled frame).copyPage cow parent (pageBase gpa)).1 with
  | true => exact ⟨fun _ => (hok.mp hcopy).2, fun _ h => by cases h⟩
  | false =>
    refine ⟨fun h => absurd rfl h, fun h => ?_⟩
    rw [hok.mpr ⟨hgrant, h⟩] at hcopy
    cases hcopy

theorem makesProgress_new_iff (hviolation : WriteViolation ctx qual gpa)
    (hgpa : (parent.readPage (pageBase gpa)).isSome → gpa < 2 ^ 48)
    (hmem : ctx.memory = .forked cow parent) (hnew : cow.contains (pageBase gpa) = false) :
    MakesProgress ctx qual gpa ↔
      ((parent.readPage (pageBase gpa)).isSome ∧ (ctx.state.ept.lookup (pageBase gpa)).isSome) ∧
      ∀ grant, ctx.allocateCowPage.1 = some grant → grant.inserted := by
  have hresult := handleEptViolation_new hviolation hmem hnew
  have hok := copyPage_ok_iff ctx cow parent (pageBase gpa)
  constructor
  · intro h
    cases hcopy : (ctx.copyPage cow parent (pageBase gpa)).1 with
    | true =>
      obtain ⟨⟨grant, hgrant, hinserted⟩, hpage⟩ := hok.mp hcopy
      refine ⟨hpage, fun grant' hgrant' => ?_⟩
      rw [hgrant] at hgrant'
      cases hgrant'
      exact hinserted
    | false =>
      obtain ⟨hfailed, hretry⟩ := h.allocation (by rw [hresult, hcopy]; rfl)
      have hnone : ctx.allocateCowPage.1 = none := by
        rw [allocationFailed, hmem] at hfailed
        simpa [hnew] using hfailed
      refine ⟨(retry_iff hviolation hmem hnew hnone (frameAt 0)).mp (hretry _), ?_⟩
      intro grant hgrant
      rw [hnone] at hgrant
      cases hgrant
  · rintro ⟨hpage, hinserted⟩
    cases hgrant : ctx.allocateCowPage.1 with
    | some grant =>
      have hcopy := hok.mpr ⟨⟨grant, hgrant, hinserted grant hgrant⟩, hpage⟩
      refine ⟨fun _ => ?_, fun hexhausted => ?_⟩
      · rw [hresult]
        exact leafWritable_of_copyPage (hgpa hpage.1) hcopy
      · rw [hresult, hcopy] at hexhausted
        cases hexhausted
    | none =>
      have hcopy : (ctx.copyPage cow parent (pageBase gpa)).1 = false := by
        by_contra hne
        obtain ⟨⟨grant, hsome, -⟩, -⟩ := hok.mp (by simpa using hne)
        rw [hgrant] at hsome
        cases hsome
      refine ⟨fun hcontinue => ?_, fun _ => ⟨?_, fun frame => ?_⟩⟩
      · rw [hresult, hcopy] at hcontinue
        cases hcontinue
      · rw [allocationFailed, hmem]
        simp [hnew, hgrant]
      · exact (retry_iff hviolation hmem hnew hgrant frame).mpr hpage

end Cases

theorem CowPageMap.contains_pageBase (cow : CowPageMap) (gpa : Nat) :
    cow.contains (pageBase gpa) = cow.contains gpa := by
  rw [contains_eq_isSome_get, contains_eq_isSome_get, get_pageBase]

/-- A write by an instruction to a page that may not be accessed at all. -/
def writeQualification : EptViolationQualification :=
  .ofRaw 2

/-- `ctx` after a violation at `gpa`, with one page in the pool. -/
def VmContext.faultAt (ctx : VmContext) (gpa : UInt64) : VmContext :=
  { ctx with
    state := { ctx.state with
      vmcs := { ctx.state.vmcs with fields :=
        { ctx.state.vmcs.fields with value := fun
            | .guestPhysicalAddr => gpa
            | field => ctx.state.vmcs.fields.value field } } }
    host := { ctx.host with cowPages := [some ⟨frameAt 9, true⟩] } }

theorem VmReached.faultAt (h : VmReached ctx) (gpa : UInt64) : VmReached (ctx.faultAt gpa) :=
  .op h (.elsewhere ⟨rfl, rfl, .refl _⟩)

end Bedrock
