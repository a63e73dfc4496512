import Bedrock.Exits.Mmio

/-!
# Creating VMs

A root VM maps all of its memory except the pages of the interrupt controllers.
A fork clones the page table of its parent read-execute and copies the rest of
the parent's state.
-/

namespace Bedrock

open Support Program EptBuild EptTables List

/-- Frames the host's allocator hands out, in this order. -/
structure FrameSupply where
  frames : List HostFrame
  nodup : frames.Nodup

inductive VmStateError
  | msrBitmapAlloc | pebsExitMsrLoadAlloc | xsavePageAlloc | vmcsSetup | guestStateCopy
  | inveptFailed
  deriving DecidableEq, Repr

/-! ## Root VMs -/

inductive RootVmError
  | eptCreation (e : AllocError)
  | eptMapping (e : AllocError)
  | noPhysAddr (offset : Nat)
  | vmState (e : VmStateError)
  deriving DecidableEq, Repr

/-- Body of the mapping loop of `RootVm::new`. -/
def mapGuestPage (memory : GuestMemory) (pageIdx : Nat) : Program RootVmError EptBuild Unit :=
  let pageOffset := pageIdx * PAGE_SIZE
  -- accesses to the interrupt controllers must trap to their emulation
  if isApicGpa pageOffset || isIoApicGpa pageOffset then pure ()
  else
    match memory.pagePhysAddr pageOffset with
    | none => .exit (.noPhysAddr pageOffset)
    | some hostPhys =>
      (map4k pageOffset hostPhys .READ_WRITE_EXECUTE).mapExit .eptMapping

/-- The loop over the first `n` pages. -/
def mapGuestPages (memory : GuestMemory) : Nat → Program RootVmError EptBuild Unit
  | 0 => pure ()
  | n + 1 => do
    mapGuestPages memory n
    mapGuestPage memory n

/-- `mem_size.div_ceil(PAGE_SIZE)` -/
def GuestMemory.numPages (memory : GuestMemory) : Nat :=
  (memory.size + (PAGE_SIZE - 1)) / PAGE_SIZE

/-- A page the mapping loop does not skip. -/
def GuestMemory.maps (memory : GuestMemory) (gpa : Nat) : Prop :=
  pageBase gpa < memory.size ∧
    isApicGpa (pageBase gpa) = false ∧ isIoApicGpa (pageBase gpa) = false

instance (memory : GuestMemory) (gpa : Nat) : Decidable (memory.maps gpa) := by
  unfold GuestMemory.maps
  infer_instance

/-- What the loop has done after `n` pages. -/
structure MappedUpTo (memory : GuestMemory) (n : Nat) (b : EptBuild) : Prop where
  ok : b.Ok
  lookup : ∀ g < 2 ^ 48, b.ept.lookup g =
    if g / PAGE_SIZE < n ∧ isApicGpa (pageBase g) = false ∧ isIoApicGpa (pageBase g) = false then
      some (memory.vmallocToPhys (pageBase g), .READ_WRITE_EXECUTE)
    else none

variable {memory : GuestMemory} {n : Nat} {b : EptBuild} {supply : FrameSupply} {host : ForkHost}

theorem GuestMemory.pagePhysAddr_eq_some {offset : Nat}
    {frame : HostFrame} (h : memory.pagePhysAddr offset = some frame) :
    offset < memory.size ∧ frame = memory.vmallocToPhys offset := by
  unfold pagePhysAddr at h
  split at h
  · cases h
  split at h
  · cases h
  · cases h
    exact ⟨by omega, rfl⟩

theorem pageBase_eq_of_div_eq {g : Nat} (h : g / PAGE_SIZE = n) : pageBase g = n * PAGE_SIZE := by
  simp only [pageBase, pageStart, PAGE_SIZE] at h ⊢
  omega

theorem mapGuestPage_spec {b' : EptBuild}
    (hb : MappedUpTo memory n b) (hrun : mapGuestPage memory n b = (.ok (), b')) :
    MappedUpTo memory (n + 1) b' := by
  unfold mapGuestPage at hrun
  by_cases hskip : (isApicGpa (n * PAGE_SIZE) || isIoApicGpa (n * PAGE_SIZE))
  · rw [if_pos hskip] at hrun
    cases hrun
    refine ⟨hb.ok, fun g hg => ?_⟩
    rw [hb.lookup g hg]
    congr 1
    apply propext
    constructor
    · rintro ⟨hlt, hrest⟩
      exact ⟨by omega, hrest⟩
    rintro ⟨hlt, hapic, hioapic⟩
    refine ⟨?_, hapic, hioapic⟩
    by_contra hge
    rw [pageBase_eq_of_div_eq (show g / PAGE_SIZE = n by omega)] at hapic hioapic
    simp [hapic, hioapic] at hskip
  · rw [if_neg hskip] at hrun
    cases hphys : memory.pagePhysAddr (n * PAGE_SIZE) with
    | none =>
      rw [hphys] at hrun
      cases hrun
    | some frame =>
      obtain ⟨hin, rfl⟩ := GuestMemory.pagePhysAddr_eq_some hphys
      rw [hphys] at hrun
      have hmap : map4k (n * PAGE_SIZE) (memory.vmallocToPhys (n * PAGE_SIZE))
          .READ_WRITE_EXECUTE b = (.ok (), b') :=
        mapExit_eq_ok_iff.mp hrun
      have hsize := memory.size_le
      obtain ⟨hok, -, -⟩ := map4k_spec hb.ok (by decide) hmap
      refine ⟨hok, fun g hg => ?_⟩
      rw [lookup_map4k hb.ok (by decide) hmap (by omega) hg, hb.lookup g hg]
      have hindex : n * PAGE_SIZE / 4096 = n := by simp [PAGE_SIZE]
      by_cases hpage : g / PAGE_SIZE = n
      · have hbase := pageBase_eq_of_div_eq hpage
        rw [Bool.or_eq_true, not_or, Bool.not_eq_true, Bool.not_eq_true] at hskip
        rw [if_pos (by rw [hindex]; exact hpage), hbase, if_pos ⟨by omega, hskip.1, hskip.2⟩]
      rw [if_neg (by rw [hindex]; exact hpage)]
      congr 1
      apply propext
      constructor
      all_goals
        rintro ⟨hlt, hrest⟩
        exact ⟨by omega, hrest⟩

theorem mapGuestPages_spec (hb : MappedUpTo memory 0 b)
    (n : Nat) {b' : EptBuild} (hrun : mapGuestPages memory n b = (.ok (), b')) :
    MappedUpTo memory n b' := by
  induction n generalizing b' with
  | zero =>
    cases hrun
    exact hb
  | succ n ih =>
    rw [mapGuestPages] at hrun
    rcases bind_eq_iff.mp hrun with ⟨_, b₁, h₁, hlast⟩ | ⟨e, b₁, _, herr⟩
    · exact mapGuestPage_spec (ih h₁) hlast
    · cases herr

theorem mapGuestPages_isOk (hbacked : ∀ offset, (memory.vmallocToPhys offset).addr ≠ 0)
    (hn : ∀ k < n, k * PAGE_SIZE < memory.size) (hfree : 3 * n ≤ b.free.length) :
    ∃ b', mapGuestPages memory n b = (.ok (), b') ∧ b.free.length ≤ b'.free.length + 3 * n := by
  induction n with
  | zero => exact ⟨b, rfl, by omega⟩
  | succ n ih =>
    obtain ⟨b₁, hrun, hlen⟩ := ih (fun k hk => hn k (by omega)) (by omega)
    rw [mapGuestPages, bind_ok hrun, mapGuestPage]
    split
    · exact ⟨b₁, rfl, by omega⟩
    have hphys : memory.pagePhysAddr (n * PAGE_SIZE) =
        some (memory.vmallocToPhys (n * PAGE_SIZE)) := by
      rw [GuestMemory.pagePhysAddr, if_neg (Nat.not_le.mpr (hn n (by omega))), if_neg (hbacked _)]
    obtain ⟨b₂, hmap, hlen'⟩ := map4k_isOk (n * PAGE_SIZE)
      (memory.vmallocToPhys (n * PAGE_SIZE)) .READ_WRITE_EXECUTE (b := b₁) (by omega)
    rw [hphys]
    exact ⟨b₂, mapExit_eq_ok_iff.mpr hmap, by omega⟩

/-- The EPT of `RootVm::new`. -/
def buildRootEpt (memory : GuestMemory) (supply : FrameSupply) : Except RootVmError EptBuild :=
  match new supply.frames with
  | .error e => .error (.eptCreation e)
  | .ok b =>
    match mapGuestPages memory memory.numPages b with
    | (.error e, _) => .error e
    | (.ok (), b) => .ok b

theorem div_lt_numPages_iff (memory : GuestMemory) (g : Nat) :
    g / PAGE_SIZE < memory.numPages ↔ pageBase g < memory.size := by
  simp only [GuestMemory.numPages, pageBase, pageStart, PAGE_SIZE]
  omega

/-- The EPT of a new root VM maps every page it has memory for, the last one even if
it is partial, and nothing else. -/
theorem buildRootEpt_spec (h : buildRootEpt memory supply = .ok b) :
    b.ept.Wf ∧ ∀ g < 2 ^ 48, b.ept.lookup g =
      if memory.maps g then some (memory.vmallocToPhys (pageBase g), .READ_WRITE_EXECUTE)
      else none := by
  unfold buildRootEpt at h
  split at h
  · cases h
  rename_i b₀ hnew
  obtain ⟨hok, hnone⟩ := new_ok supply.nodup hnew
  have hstart : MappedUpTo memory 0 b₀ := ⟨hok, fun g _ => by simp [hnone g]⟩
  split at h
  · cases h
  rename_i b₁ hrun
  cases h
  have hdone := mapGuestPages_spec hstart _ hrun
  refine ⟨hdone.ok.wf, fun g hg => ?_⟩
  rw [hdone.lookup g hg]
  simp only [div_lt_numPages_iff, GuestMemory.maps]

/-- The XSAVE area `VmState::new` prepares: FCW, MXCSR and XSTATE_BV have their defaults. -/
def initialXsave : Nat → UInt8 :=
  splice (splice (splice (fun _ => 0) 0 (leBytes 2 0x037F)) 24 (leBytes 4 0x1F80)) 512 (leBytes 8 7)

/-- The state `VmState::new` builds around a VMCS that is set up. -/
def VmState.new (vmcs : Vmcs) (ept : EptPageTable) (tscFrequency : Nat) (pebsSupported : Bool) :
    VmState :=
  { vmcs, ept
    guest := { xcr0Mask := 7, guestXsave := initialXsave }
    config := { tscFrequency, pebsSupported } }

/-- `RootVm::new`; `setup` is what the processor makes of the VMCS setup. -/
def RootVm.new (memory : GuestMemory) (supply : FrameSupply) (machine : Machine)
    (setup : Except VmStateError Vmcs) (tscFrequency : Nat) (pebsSupported : Bool) :
    Except RootVmError VmContext :=
  match h : buildRootEpt memory supply with
  | .error e => .error e
  | .ok b =>
    match setup with
    | .error e => .error (.vmState e)
    | .ok vmcs =>
      let ept : EptPageTable := ⟨b.ept, (buildRootEpt_spec h).1⟩
      .ok { state := .new vmcs ept tscFrequency pebsSupported, memory := .root memory, machine }

theorem RootVm.new_spec {machine : Machine}
    {setup : Except VmStateError Vmcs} {tscFrequency : Nat} {pebsSupported : Bool} {ctx : VmContext}
    (h : new memory supply machine setup tscFrequency pebsSupported = .ok ctx) :
    ctx.memory = .root memory ∧ (ctx.state.clock = {} ∧ ctx.state.precise = {}) ∧
      ∀ g < 2 ^ 48, ctx.state.ept.lookup g =
        if memory.maps g then some (memory.vmallocToPhys (pageBase g), .READ_WRITE_EXECUTE)
        else none := by
  unfold new at h
  split at h
  · cases h
  rename_i b hb
  split at h
  · cases h
  · cases h
    exact ⟨rfl, ⟨rfl, rfl⟩, (buildRootEpt_spec hb).2⟩

theorem RootVm.new_isOk {machine : Machine}
    {vmcs : Vmcs} {tscFrequency : Nat} {pebsSupported : Bool}
    (hbacked : ∀ offset, (memory.vmallocToPhys offset).addr ≠ 0)
    (hsupply : 3 * memory.numPages + 1 ≤ supply.frames.length) :
    ∃ ctx, RootVm.new memory supply machine (.ok vmcs) tscFrequency pebsSupported = .ok ctx := by
  obtain ⟨b, hbuild⟩ : ∃ b, buildRootEpt memory supply = .ok b := by
    obtain ⟨pml4, free, hframes⟩ := exists_cons_of_ne_nil
      (ne_nil_of_length_pos (show 0 < supply.frames.length by omega))
    rw [hframes, length_cons] at hsupply
    have hpages : ∀ k < memory.numPages, k * PAGE_SIZE < memory.size := by
      intro k hk
      rw [GuestMemory.numPages, PAGE_SIZE] at hk
      rw [PAGE_SIZE]
      omega
    obtain ⟨b, hrun, -⟩ := mapGuestPages_isOk hbacked hpages
      (b := ⟨⟨pml4, [pml4], fun _ _ => .empty⟩, free⟩) (by dsimp only; omega)
    refine ⟨b, ?_⟩
    rw [buildRootEpt, hframes, EptBuild.new]
    dsimp only
    rw [hrun]
  unfold RootVm.new
  split
  · rename_i herror
    rw [hbuild] at herror
    cases herror
  · exact ⟨_, rfl⟩

/-- The `n`-th frame of the host. -/
def frameAt (n : Nat) : HostFrame :=
  EptEntry.addr ⟨UInt64.ofNat (n * 4096)⟩

theorem frameAt_injOn : Set.InjOn frameAt {n | n < 2 ^ 40} := by
  have haddr : ∀ n < 2 ^ 40, (frameAt n).addr.toNat = n * 4096 := by
    intro n hn
    have hmask : ADDR_MASK.toNat = (2 ^ 40 - 1) <<< 12 := by decide
    have hraw : (UInt64.ofNat (n * 4096)).toNat = n <<< 12 := by
      rw [UInt64.toNat_ofNat', Nat.shiftLeft_eq]
      omega
    calc (frameAt n).addr.toNat = n <<< 12 &&& (2 ^ 40 - 1) <<< 12 := by
          rw [← hraw, ← hmask, ← UInt64.toNat_and]
          rfl
      _ = n * 4096 := by
          rw [← Nat.shiftLeft_and_distrib, Nat.and_two_pow_sub_one_eq_mod, Nat.mod_eq_of_lt hn,
            Nat.shiftLeft_eq]
  intro m hm n hn heq
  have hsame : m * 4096 = n * 4096 := by rw [← haddr m hm, ← haddr n hn, heq]
  omega

/-- The first `n` frames of a host. -/
def firstFrames (n : Nat) (h : n ≤ 2 ^ 40) : FrameSupply where
  frames := (List.range n).map frameAt
  nodup := nodup_range.map_on fun _ hi _ hj heq => frameAt_injOn
    (Nat.lt_of_lt_of_le (mem_range.mp hi) h) (Nat.lt_of_lt_of_le (mem_range.mp hj) h) heq

/-- Enough frames for the tables of one page, for a root VM and for its fork. -/
def rootFrames : FrameSupply :=
  ⟨[frameAt 1, frameAt 2, frameAt 3, frameAt 4], by decide⟩

def forkFrames : FrameSupply :=
  ⟨[frameAt 5, frameAt 6, frameAt 7, frameAt 8], by decide⟩

def zeroRegion (size : Nat) (h : size ≤ 2 ^ 48) : GuestMemory :=
  ⟨size, fun _ => 0, fun _ => ⟨0x100000, by decide⟩, h⟩

theorem onePage_le : 4096 ≤ 2 ^ 48 := by decide

def zeroVm (memory : VmMemory) : VmContext :=
  { state := .new ⟨⟨fun _ => 0, fun _ => none, fun _ => none⟩,
      ⟨fun _ => 0, fun _ => none, fun _ => none⟩⟩
      ⟨⟨⟨0x1000, by decide⟩, [⟨0x1000, by decide⟩], fun _ _ => .empty⟩,
        isTree_of_unused (fun _ => EptEntry.target_empty) 3⟩ 0 false
    memory
    machine := { cpuid := fun _ _ => (0, 0, 0, 0), xxh64 := fun _ => 0 } }

def newVm : VmContext :=
  zeroVm (.root (zeroRegion 0 (by decide)))

theorem newVm_eq : RootVm.new (zeroRegion 0 (by decide)) ⟨[⟨0x1000, by decide⟩], by simp⟩
    newVm.machine (.ok newVm.state.vmcs) 0 false = .ok newVm := by
  unfold newVm zeroRegion
  rfl

/-- One page that userspace has filled: a page table that maps the first gigabyte to
itself, and the instruction `mov [rdi], eax` at 0x200. -/
def imageRegion : GuestMemory :=
  { zeroRegion 4096 onePage_le with
    bytes := fun
      | 0 => 0x81
      | 0x200 => 0x89
      | 0x201 => 0x07
      | _ => 0 }

def imageVm : VmContext :=
  (RootVm.new imageRegion rootFrames newVm.machine (.ok newVm.state.vmcs) 0 true).toOption.getD newVm

theorem imageVm_eq :
    RootVm.new imageRegion rootFrames newVm.machine (.ok newVm.state.vmcs) 0 true = .ok imageVm := by
  have hok : (RootVm.new imageRegion rootFrames newVm.machine (.ok newVm.state.vmcs) 0 true).isOk =
      true := by decide +kernel
  unfold imageVm
  cases h : RootVm.new imageRegion rootFrames newVm.machine (.ok newVm.state.vmcs) 0 true with
  | error e =>
    rw [h] at hok
    cases hok
  | ok ctx => rfl

/-! ## Forks -/

/-- `clone_for_fork` on a page table in use. -/
def EptPageTable.cloneForFork (ept : EptPageTable) (supply : FrameSupply) :
    Except AllocError EptPageTable :=
  match h : ept.toEptTables.cloneForFork supply.frames with
  | .error e => .error e
  | .ok tables => .ok ⟨tables, (cloneForFork_spec supply.nodup h).1⟩

theorem EptPageTable.lookup_cloneForFork {ept clone : EptPageTable}
    (h : ept.cloneForFork supply = .ok clone) (g : Nat) :
    clone.lookup g = (ept.lookup g).map fun m => (m.1, EptPermissions.READ_EXECUTE) := by
  unfold cloneForFork at h
  split at h
  · cases h
  rename_i htables
  cases h
  exact (cloneForFork_spec supply.nodup htables).2 g

inductive ForkedVmError
  | eptClone (e : AllocError)
  | vmcsAlloc
  | vmState (e : VmStateError)
  deriving DecidableEq, Repr

/-- What the host contributes to a fork: frames for the page table, whether each
allocation and each VMCS operation on the copied region succeeds, the address of
the new VM-exit MSR-load page, and the pages of the page pool. -/
structure ForkHost where
  supply : FrameSupply
  vmcsAllocated : Bool := true
  msrBitmap : Bool := true
  pebsPages : Bool := true
  xsavePages : Bool := true
  regionCopied : Bool := true
  invept : Bool := true
  pebsExitMsrLoadPage : UInt64 := 0
  cowPages : List (Option CowGrant) := []

def bareFork : ForkHost :=
  { supply := ⟨[⟨0x2000, by decide⟩], by simp⟩ }

/-- The controls `new_for_fork` rewrites after copying the parent's VMCS region;
the rest of the region, the trap flag included, is the parent's. -/
def forkControls (parent : VmState) (host : ForkHost) :
    Except VmcsWriteError (VmcsTable VmcsControl) :=
  match parent.vmcs.controls.write .vmxPreemptionTimerValue 0x100000 with
  | (.error e, _) => .error e
  | (.ok (), controls) =>
    if parent.precise.pebsState.isNone then .ok controls
    else
      match controls.write .vmExitMsrLoadAddr host.pebsExitMsrLoadPage with
      | (.error e, _) => .error e
      | (.ok (), controls) =>
        match controls.write .vmExitMsrLoadCount 1 with
        | (.error e, _) => .error e
        | (.ok (), controls) => .ok controls

/-- The clock of a fork: its counter starts again, its offset is the emulated time
the parent last recorded. -/
def Clock.forFork (parent : Clock) : Clock :=
  { lastInstructionCount := 0
    emulatedTsc := parent.emulatedTsc
    tscOffset := parent.emulatedTsc }

/-- The record `new_for_fork` returns. -/
def VmState.forFork (parent : VmState) (ept : EptPageTable) (controls : VmcsTable VmcsControl) :
    VmState :=
  { vmcs := { parent.vmcs with controls }
    ept
    guest := { parent.guest with
      guestCr2 := 0
      ioChannel := parent.guest.ioChannel.cloneForFork }
    clock := parent.clock.forFork
    config :=
      { tscFrequency := parent.config.tscFrequency
        pebsSupported := parent.config.pebsSupported }
    precise := { pebsState := parent.precise.pebsState.map PebsState.cloneForFork } }

/-- `new_for_fork` -/
def VmState.newForFork (parent : VmState) (ept : EptPageTable) (host : ForkHost) :
    Except VmStateError VmState :=
  if !host.msrBitmap then .error .msrBitmapAlloc
  else if !host.pebsPages then .error .pebsExitMsrLoadAlloc
  else if !host.xsavePages then .error .xsavePageAlloc
  else if !host.regionCopied then .error .guestStateCopy
  else
    match forkControls parent host with
    | .error _ => .error .guestStateCopy
    | .ok controls => if !host.invept then .error .inveptFailed else .ok (parent.forFork ept controls)

theorem VmState.newForFork_spec {parent child : VmState} {ept : EptPageTable}
    (h : parent.newForFork ept host = .ok child) :
    ∃ controls, forkControls parent host = .ok controls ∧ child = parent.forFork ept controls := by
  unfold newForFork at h
  split at h
  · cases h
  split at h
  · cases h
  split at h
  · cases h
  split at h
  · cases h
  split at h
  · cases h
  rename_i controls hcontrols
  split at h
  · cases h
  · cases h
    exact ⟨controls, hcontrols, rfl⟩

/-- `ForkedVm::new`: the registered I/O page is copied right away, if possible. -/
def ForkedVm.new (parent : VmContext) (host : ForkHost) : Except ForkedVmError VmContext :=
  match parent.state.ept.cloneForFork host.supply with
  | .error e => .error (.eptClone e)
  | .ok ept =>
    if !host.vmcsAllocated then .error .vmcsAlloc
    else
      match parent.state.newForFork ept host with
      | .error e => .error (.vmState e)
      | .ok state =>
        let ctx : VmContext :=
          { state
            memory := .forked .empty parent.memory
            machine := { parent.machine with pebsExitMsrLoadPage := host.pebsExitMsrLoadPage }
            host := { cowPages := host.cowPages } }
        .ok ctx.preCowIoChannelPage

/-- A fork before its I/O page is copied: nothing copied, every page of the parent
mapped read-execute to the same frame. -/
structure FreshFork (parent child : VmContext) : Prop where
  memory : child.memory = .forked .empty parent.memory
  clock : child.state.clock = parent.state.clock.forFork
  pebsState : child.state.precise.pebsState =
    parent.state.precise.pebsState.map PebsState.cloneForFork
  mtfEnabled : child.state.precise.mtfEnabled = false
  lookup : ∀ g, child.state.ept.lookup g =
    (parent.state.ept.lookup g).map fun m => (m.1, EptPermissions.READ_EXECUTE)

theorem ForkedVm.new_eq {parent child : VmContext} (h : new parent host = .ok child) :
    ∃ ept controls, parent.state.ept.cloneForFork host.supply = .ok ept ∧
      forkControls parent.state host = .ok controls ∧ child = VmContext.preCowIoChannelPage
        { state := parent.state.forFork ept controls
          memory := .forked .empty parent.memory
          machine := { parent.machine with pebsExitMsrLoadPage := host.pebsExitMsrLoadPage }
          host := { cowPages := host.cowPages } } := by
  unfold new at h
  split at h
  · cases h
  rename_i ept hept
  split at h
  · cases h
  split at h
  · cases h
  rename_i state hstate
  obtain ⟨controls, hcontrols, rfl⟩ := VmState.newForFork_spec hstate
  cases h
  exact ⟨ept, controls, hept, hcontrols, rfl⟩

theorem ForkedVm.new_spec {parent child : VmContext} (h : new parent host = .ok child) :
    ∃ fresh, FreshFork parent fresh ∧ child = fresh.preCowIoChannelPage := by
  obtain ⟨ept, controls, hept, -, rfl⟩ := new_eq h
  exact ⟨_, ⟨rfl, rfl, rfl, rfl, EptPageTable.lookup_cloneForFork hept⟩, rfl⟩

end Bedrock
