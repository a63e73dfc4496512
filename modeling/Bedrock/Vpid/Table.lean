import Bedrock.Support.Walk
import Bedrock.Vpid.Creation
import Bedrock.Vpid.Fork

/-!
# The VPIDs of all VMs

VMs are created, forked and dropped in any order, and each creation or fork may fail
anywhere.  The bitmap should mark the reserved VPID and those that the VMCSs of the live
VMs use, each by one of them.  It does along a history exactly if no step stops between
taking a VPID and creating its VM, no fork keeps its parent's VPID, and every VM that is
dropped has recorded the VPID of its VMCS.
-/

namespace Bedrock

open Support VpidAllocator List

/-- A live VM: its VMCS and the VPID it has recorded. -/
structure VpidVm where
  id : Nat
  vpid : Nat

structure VpidTable where
  cpu : VmxCpu
  nextId : Nat
  live : List VpidVm

namespace VpidTable

def boot : VpidTable :=
  ⟨⟨none, fun _ _ => 0, .boot⟩, 0, []⟩

/-- What becomes of the VM that was being built; after a panic nothing does. -/
def settle (t : VpidTable) : Except CreateStop Nat × VmxCpu → Option VpidTable
  | (.ok vpid, cpu) => some ⟨cpu, t.nextId + 1, t.live ++ [⟨t.nextId, vpid⟩]⟩
  | (.error (.vmState _), cpu) => some ⟨cpu, t.nextId + 1, t.live⟩
  | (.error .panicked, _) => none

/-- `RootVm::new` with a new VMCS, which is a zeroed page. -/
def createRoot (t : VpidTable) (r : RootRequest) : Option VpidTable :=
  if !r.prepared then some t
  else t.settle (r.newState t.nextId (t.cpu.setRegion t.nextId fun _ => 0))

def isLive (t : VpidTable) (id : Nat) : Bool :=
  t.live.any (·.id == id)

/-- `ForkedVm::new` -/
def fork (t : VpidTable) (parent : Nat) (r : ForkRequest) : Option VpidTable :=
  if !r.prepared || !t.isLive parent then some t
  else t.settle (r.newForFork t.nextId parent t.cpu)

/-- `Drop` of either kind of VM; a failing VMCLEAR is only logged. -/
def drop (t : VpidTable) (id : Nat) (clearFails : Bool) : VpidTable :=
  match t.live.find? (·.id == id) with
  | none => t
  | some vm =>
    let cpu := if clearFails then t.cpu else t.cpu.unload id
    { t with
      cpu := { cpu with vpids := cpu.vpids.deallocateVpid vm.vpid }
      live := t.live.eraseP (·.id == id) }

def vpidOf (t : VpidTable) (vm : VpidVm) : Nat :=
  (t.cpu.regions vm.id).vpid

def held (t : VpidTable) : List Nat :=
  (t.live.map t.vpidOf).filter (· ≠ 0)

/-- The bitmap marks the reserved VPID and those of the live VMs, and no two VMs share
one. -/
structure Exact (t : VpidTable) : Prop where
  marked : ∀ v, t.cpu.vpids.bitmap.mem v = true ↔ v = 0 ∨ ∃ vm ∈ t.live, t.vpidOf vm = v
  unshared : t.held.Nodup

end VpidTable

inductive VpidMove
  | createRoot (r : RootRequest)
  | fork (parent : Nat) (r : ForkRequest)
  | drop (id : Nat)
  | elsewhere

abbrev VpidStep : Type :=
  Transition VpidTable VpidMove

namespace VpidStep

inductive Valid : VpidStep → Prop
  | createRoot {t t' : VpidTable} {r : RootRequest} (h : t.createRoot r = some t') :
      Valid ⟨t, .createRoot r, t'⟩
  | fork {t t' : VpidTable} {parent : Nat} {r : ForkRequest} (h : t.fork parent r = some t') :
      Valid ⟨t, .fork parent r, t'⟩
  | drop (t : VpidTable) (id : Nat) (clearFails : Bool) : Valid ⟨t, .drop id, t.drop id clearFails⟩
  /-- What else happens to VMs leaves the allocator and the two fields alone. -/
  | elsewhere {t : VpidTable} {cpu : VmxCpu} (hvpids : cpu.vpids = t.cpu.vpids)
      (hregions : ∀ id, cpu.regions id .virtualProcessorId = t.cpu.regions id .virtualProcessorId ∧
        cpu.regions id .secondaryProcBasedVmExecControls =
          t.cpu.regions id .secondaryProcBasedVmExecControls) :
      Valid ⟨t, .elsewhere, { t with cpu }⟩

/-- The step gets to `allocate_vpid`. -/
def Allocates (s : VpidStep) : Prop :=
  match s.label with
  | .createRoot r => r.Allocates
  | .fork parent r => s.pre.isLive parent = true ∧ r.Allocates (s.pre.cpu.regions parent)
  | _ => False

/-- The step fails nowhere between `allocate_vpid` and the finished VM; a fork of a VM
with a VPID can read the controls, unless it fails anyway; and a VM that is dropped has
recorded the VPID of its VMCS. -/
def Clean (s : VpidStep) : Prop :=
  match s.label with
  | .createRoot r => r.Allocates → r.Completes
  | .fork parent r => s.pre.isLive parent = true →
    (r.Allocates (s.pre.cpu.regions parent) → r.Completes) ∧
      ((s.pre.cpu.regions parent).vpid ≠ 0 →
        r.fails (.read .secondaryProcBasedVmExecControls) = true → ¬(r.Reaches ∧ r.Finishes))
  | .drop id => ∀ vm ∈ s.pre.live, vm.id = id → vm.vpid = s.pre.vpidOf vm
  | .elsewhere => True

end VpidStep

/-! ## What always holds -/

namespace VpidTable

variable {t t' : VpidTable}

/-- The non-reserved VPIDs that are marked. -/
def Used (t : VpidTable) (v : Nat) : Prop :=
  v ≠ 0 ∧ t.cpu.vpids.bitmap.mem v = true

/-- A VM has recorded the VPID of its VMCS or none. -/
structure Sound (t : VpidTable) : Prop where
  vpids : t.cpu.vpids.Sound
  ids : ∀ vm ∈ t.live, vm.id < t.nextId
  nodup : (t.live.map VpidVm.id).Nodup
  recorded : ∀ vm ∈ t.live, vm.vpid = 0 ∨ vm.vpid = t.vpidOf vm

theorem boot_sound : boot.Sound :=
  ⟨VpidAllocator.boot_sound, by simp [boot], by simp [boot], by simp [boot]⟩

theorem mem_held {v : Nat} : v ∈ t.held ↔ v ≠ 0 ∧ ∃ vm ∈ t.live, t.vpidOf vm = v := by
  rw [held, mem_filter, mem_map, decide_eq_true_eq, and_comm]

theorem used_congr (hvpids : t'.cpu.vpids = t.cpu.vpids) (v : Nat) : t'.Used v ↔ t.Used v := by
  rw [Used, Used, hvpids]

theorem Sound.of_sublist (h : t.Sound) (hvpids : t'.cpu.vpids.Sound) (hnext : t.nextId ≤ t'.nextId)
    (hlive : t'.live.Sublist t.live) (hkept : ∀ vm ∈ t.live, t'.vpidOf vm = t.vpidOf vm) :
    t'.Sound where
  vpids := hvpids
  ids vm hvm := Nat.lt_of_lt_of_le (h.ids vm (hlive.subset hvm)) hnext
  nodup := h.nodup.sublist (hlive.map _)
  recorded vm hvm := by
    rw [hkept vm (hlive.subset hvm)]
    exact h.recorded vm (hlive.subset hvm)

theorem exact_iff : t.Exact ↔ Issued t.Used t.held ∧ t.cpu.vpids.bitmap.mem 0 := by
  constructor
  · intro h
    refine ⟨⟨fun v => ?_, h.unshared⟩, (h.marked 0).mpr (.inl rfl)⟩
    rw [Used, h.marked, mem_held]
    exact and_congr_right fun hv => or_iff_right hv
  rintro ⟨hissued, hreserved⟩
  refine ⟨fun v => ?_, hissued.nodup⟩
  by_cases hv : v = 0
  · rw [hv]
    exact iff_of_true hreserved (.inl rfl)
  have hused := hissued.used_iff v
  rw [Used, mem_held, and_iff_right hv, and_iff_right hv] at hused
  rw [hused, or_iff_right hv]

/-- What a creation or fork leaves: a VPID was taken, for a VM or for none, or no VPID
was taken, and then the VM exists if everything else succeeded. -/
inductive Settled (t : VpidTable) (allocates completes finished : Prop) (plain : Nat)
    (t' : VpidTable) : Prop
  | took {v vpid : Nat} (hallocates : allocates) (hcompletes : completes)
      (halloc : t.cpu.vpids.allocateVpid = some (v, t'.cpu.vpids))
      (hlive : t'.live = t.live ++ [⟨t.nextId, vpid⟩]) (hvpid : (t'.cpu.regions t.nextId).vpid = v)
      (hrecorded : vpid = 0 ∨ vpid = v)
  | leaked {v : Nat} (hallocates : allocates) (hnot : ¬completes)
      (halloc : t.cpu.vpids.allocateVpid = some (v, t'.cpu.vpids)) (hlive : t'.live = t.live)
  | spared (hnot : ¬allocates) (hfinished : finished) (hvpids : t'.cpu.vpids = t.cpu.vpids)
      (hlive : t'.live = t.live ++ [⟨t.nextId, 0⟩])
      (hvpid : (t'.cpu.regions t.nextId).vpid = plain)
  | refused (hnot : ¬allocates) (hunfinished : ¬finished) (hvpids : t'.cpu.vpids = t.cpu.vpids)
      (hlive : t'.live = t.live)

theorem settled_of_ends {allocates completes finished : Prop} {plain : Nat}
    {m : Program CreateStop VmxCpu Nat} {cpu : VmxCpu} (hvpids : cpu.vpids = t.cpu.vpids)
    (hends : m.Ends cpu
      (fun vpid cpu' => VpidDone t.nextId cpu allocates completes plain vpid cpu' ∧
        (¬allocates → finished))
      (fun e cpu' => VpidStopped t.nextId cpu allocates completes (e = .panicked) cpu' ∧
        (¬allocates → ¬finished)))
    (h : t.settle (m cpu) = some t') :
    Settled t allocates completes finished plain t' ∧ t'.nextId = t.nextId + 1 ∧
      ∀ j, j ≠ t.nextId → t'.cpu.regions j = cpu.regions j := by
  unfold Program.Ends at hends
  rcases hrun : m cpu with ⟨(e | _) | vpid, cpu'⟩
  · rw [hrun] at h hends
    cases h
    obtain ⟨hstop, hunfinished⟩ := hends
    refine ⟨?_, rfl, hstop.others⟩
    by_cases hallocates : allocates
    · rcases hstop.took hallocates with hpanic | ⟨v, vpids, halloc, hvpids', hnot⟩
      · cases hpanic
      · rw [hvpids] at halloc
        exact .leaked hallocates hnot (by rw [halloc, hvpids']) rfl
    · exact .refused hallocates (hunfinished hallocates) ((hstop.spared hallocates).trans hvpids) rfl
  · rw [hrun] at h
    cases h
  · rw [hrun] at h hends
    cases h
    obtain ⟨hdone, hfinished⟩ := hends
    refine ⟨?_, rfl, hdone.others⟩
    by_cases hallocates : allocates
    · obtain ⟨v, vpids, halloc, hvpids', hcompletes, hvpid, hrecorded⟩ := hdone.took hallocates
      rw [hvpids] at halloc
      exact .took hallocates hcompletes (by rw [halloc, hvpids']) rfl hvpid hrecorded
    · obtain ⟨hvpids', hvpid, rfl⟩ := hdone.spared hallocates
      exact .spared hallocates (hfinished hallocates) (hvpids'.trans hvpids) rfl hvpid

theorem held_middle {vm : VpidVm} {before after : List VpidVm}
    (hlive : t.live = before ++ vm :: after) :
    t.held = (before.map t.vpidOf).filter (· ≠ 0) ++
      (if t.vpidOf vm = 0 then [] else [t.vpidOf vm]) ++ (after.map t.vpidOf).filter (· ≠ 0) := by
  rw [held, hlive, map_append, filter_append, map_cons, append_assoc]
  congr 1
  by_cases hzero : t.vpidOf vm = 0
  · rw [if_pos hzero]
    simp [hzero]
  · rw [if_neg hzero]
    simp [hzero]

theorem held_append {vm : VpidVm} (hlive : t'.live = t.live ++ [vm])
    (hkept : ∀ vm ∈ t.live, t'.vpidOf vm = t.vpidOf vm) :
    t'.held = t.held ++ if t'.vpidOf vm = 0 then [] else [t'.vpidOf vm] := by
  rw [held_middle hlive, map_congr_left hkept]
  exact append_nil _

theorem held_congr (hlive : t'.live = t.live) (hkept : ∀ vm ∈ t.live, t'.vpidOf vm = t.vpidOf vm) :
    t'.held = t.held := by
  rw [held, held, hlive, map_congr_left hkept]

namespace Settled

variable {allocates completes finished : Prop} {plain : Nat}

theorem used_of_alloc {v : Nat} (hsound : t.Sound)
    (halloc : t.cpu.vpids.allocateVpid = some (v, t'.cpu.vpids)) :
    v ≠ 0 ∧ ¬t.Used v ∧ ∀ u, t'.Used u ↔ u = v ∨ t.Used u := by
  obtain ⟨hne, -, hfree, -, hmarked⟩ := allocateVpid_spec hsound.vpids halloc
  refine ⟨hne, fun h => ?_, fun u => ?_⟩
  · rw [h.2] at hfree
    cases hfree
  rw [Used, Used, hmarked]
  constructor
  · rintro ⟨hu, rfl | rfl | hmem⟩
    · exact absurd rfl hu
    · exact .inl rfl
    · exact .inr ⟨hu, hmem⟩
  · rintro (rfl | ⟨hu, hmem⟩)
    · exact ⟨hne, .inr (.inl rfl)⟩
    · exact ⟨hu, .inr (.inr hmem)⟩

theorem issued_iff (h : Settled t allocates completes finished plain t') (hsound : t.Sound)
    (hkept : ∀ vm ∈ t.live, t'.vpidOf vm = t.vpidOf vm) (hplain : plain ≠ 0 → plain ∈ t.held)
    (hissued : Issued t.Used t.held) :
    Issued t'.Used t'.held ↔ (allocates → completes) ∧ (plain ≠ 0 → ¬allocates → ¬finished) := by
  cases h with
  | took hallocates hcompletes halloc hlive hvpid _ =>
    obtain ⟨hne, hfree, hused⟩ := used_of_alloc hsound halloc
    refine iff_of_true ?_ ⟨fun _ => hcompletes, fun _ hnot => absurd hallocates hnot⟩
    rw [held_append hlive hkept, vpidOf, hvpid, if_neg hne]
    exact hissued.take hfree hused
  | @leaked v hallocates hnot halloc hlive =>
    obtain ⟨-, hfree, hused⟩ := used_of_alloc hsound halloc
    refine iff_of_false ?_ fun h => hnot (h.1 hallocates)
    rw [held_congr hlive hkept]
    exact hissued.not_leak hfree ((hused v).mpr (.inl rfl))
  | spared hnot hfinished hvpids hlive hvpid =>
    rw [held_append hlive hkept, vpidOf, hvpid]
    by_cases hzero : plain = 0
    · rw [if_pos hzero, append_nil]
      exact iff_of_true (hissued.congr (used_congr hvpids))
        ⟨fun h => absurd h hnot, fun h => absurd hzero h⟩
    · rw [if_neg hzero]
      exact iff_of_false (Issued.not_share (hplain hzero)) fun h => h.2 hzero hnot hfinished
  | refused hnot hunfinished hvpids hlive =>
    rw [held_congr hlive hkept]
    exact iff_of_true (hissued.congr (used_congr hvpids)) ⟨fun h => absurd h hnot, fun _ _ => hunfinished⟩

theorem reserved_iff (h : Settled t allocates completes finished plain t') (hsound : t.Sound) :
    t'.cpu.vpids.bitmap.mem 0 ↔ t.cpu.vpids.bitmap.mem 0 ∨ allocates := by
  have hreserved : ∀ {v : Nat}, t.cpu.vpids.allocateVpid = some (v, t'.cpu.vpids) →
      t'.cpu.vpids.bitmap.mem 0 := by
    intro v halloc
    obtain ⟨-, -, -, -, hmarked⟩ := allocateVpid_spec hsound.vpids halloc
    exact (hmarked 0).mpr (.inl rfl)
  cases h with
  | took hallocates _ halloc _ _ _ | leaked hallocates _ halloc _ =>
    exact iff_of_true (hreserved halloc) (.inr hallocates)
  | spared hnot _ hvpids _ _ | refused hnot _ hvpids _ => rw [hvpids, or_iff_left hnot]

theorem vpids_sound (h : Settled t allocates completes finished plain t') (hsound : t.Sound) :
    t'.cpu.vpids.Sound := by
  have htaken : ∀ {v : Nat}, t.cpu.vpids.allocateVpid = some (v, t'.cpu.vpids) →
      t'.cpu.vpids.Sound := fun halloc =>
    (allocateVpid_spec hsound.vpids halloc).2.2.2.1
  cases h with
  | took _ _ halloc _ _ _ | leaked _ _ halloc _ => exact htaken halloc
  | spared _ _ hvpids _ _ | refused _ _ hvpids _ => rw [hvpids]; exact hsound.vpids

theorem sound (h : Settled t allocates completes finished plain t') (hsound : t.Sound)
    (hkept : ∀ vm ∈ t.live, t'.vpidOf vm = t.vpidOf vm) (hnext : t'.nextId = t.nextId + 1) :
    t'.Sound := by
  have hvpids := h.vpids_sound hsound
  have hsame : t'.live = t.live → t'.Sound := fun hlive =>
    hsound.of_sublist hvpids (by omega) (hlive ▸ .refl _) hkept
  have hnew : ∀ vpid, t'.live = t.live ++ [⟨t.nextId, vpid⟩] →
      (vpid = 0 ∨ vpid = (t'.cpu.regions t.nextId).vpid) → t'.Sound := by
    intro vpid hlive hrecorded
    refine ⟨hvpids, ?_, ?_, ?_⟩
    · rw [hlive, hnext, forall_mem_append, forall_mem_singleton]
      exact ⟨fun vm hvm => Nat.lt_succ_of_lt (hsound.ids vm hvm), Nat.lt_succ_self _⟩
    · rw [hlive, map_append]
      refine nodup_append.mpr ⟨hsound.nodup, nodup_singleton _, fun a ha b hb heq => ?_⟩
      obtain ⟨vm, hvm, rfl⟩ := mem_map.mp ha
      have hlt := hsound.ids vm hvm
      rw [heq, mem_singleton.mp hb] at hlt
      exact Nat.lt_irrefl _ hlt
    · rw [hlive, forall_mem_append, forall_mem_singleton]
      refine ⟨fun vm hvm => ?_, hrecorded⟩
      rw [hkept vm hvm]
      exact hsound.recorded vm hvm
  cases h with
  | took _ _ _ hlive hvpid hrecorded => exact hnew _ hlive (by rw [hvpid]; exact hrecorded)
  | leaked _ _ _ hlive => exact hsame hlive
  | spared _ _ _ hlive _ => exact hnew _ hlive (.inl rfl)
  | refused _ _ _ hlive => exact hsame hlive

end Settled

/-! ## Dropping a VM -/

theorem drop_cases (t : VpidTable) (id : Nat) (clearFails : Bool) :
    ((∀ vm ∈ t.live, vm.id ≠ id) ∧ t.drop id clearFails = t) ∨
      ∃ vm before after, t.live = before ++ vm :: after ∧ vm.id = id ∧
        (t.drop id clearFails).live = before ++ after ∧
        (t.drop id clearFails).cpu.vpids = t.cpu.vpids.deallocateVpid vm.vpid ∧
        (t.drop id clearFails).cpu.regions = t.cpu.regions ∧
        (t.drop id clearFails).nextId = t.nextId := by
  unfold drop
  cases hfind : t.live.find? (·.id == id) with
  | none => exact .inl ⟨fun vm hvm => by simpa using List.find?_eq_none.mp hfind vm hvm, rfl⟩
  | some vm =>
    obtain ⟨hid, before, after, hlive, hbefore⟩ := List.find?_eq_some_iff_append.mp hfind
    refine .inr ⟨vm, before, after, hlive, by simpa using hid, ?_, ?_, ?_, rfl⟩
    · rw [hlive, eraseP_append_right _ (fun x hx => by simpa using hbefore x hx),
        eraseP_cons_of_pos (p := fun x : VpidVm => x.id == id) hid]
    all_goals
      dsimp only
      split <;> rfl

theorem drop_step (hsound : t.Sound) (id : Nat) (clearFails : Bool) :
    (t.drop id clearFails).Sound ∧
      ((t.drop id clearFails).cpu.vpids.bitmap.mem 0 = t.cpu.vpids.bitmap.mem 0) ∧
      (Issued t.Used t.held → (Issued (t.drop id clearFails).Used (t.drop id clearFails).held ↔
        ∀ vm ∈ t.live, vm.id = id → vm.vpid = t.vpidOf vm)) := by
  obtain ⟨hnone, hsame⟩ | ⟨vm, before, after, hlive, hid, hlive', hvpids, hregions, hnext⟩ :=
    t.drop_cases id clearFails
  · rw [hsame]
    refine ⟨hsound, rfl, fun hissued => iff_of_true hissued fun vm hvm hid => ?_⟩
    exact absurd hid (hnone vm hvm)
  generalize t.drop id clearFails = t' at *
  have hmem : vm ∈ t.live := by
    rw [hlive]
    exact mem_append_right _ mem_cons_self
  have hkept : t'.vpidOf = t.vpidOf := by
    funext x
    rw [vpidOf, vpidOf, hregions]
  have hheld : t'.held = (before.map t.vpidOf).filter (· ≠ 0) ++
      (after.map t.vpidOf).filter (· ≠ 0) := by
    rw [held, hlive', hkept, map_append, filter_append]
  have hused : ∀ u, t'.Used u ↔ u ≠ vm.vpid ∧ t.Used u := by
    intro u
    rw [Used, Used, hvpids]
    constructor
    · rintro ⟨hu, hmarked⟩
      obtain ⟨hne, hmarked⟩ := (deallocateVpid_mem _ _ hu).mp hmarked
      exact ⟨hne, hu, hmarked⟩
    · rintro ⟨hne, hu, hmarked⟩
      exact ⟨hu, (deallocateVpid_mem _ _ hu).mpr ⟨hne, hmarked⟩⟩
  refine ⟨hsound.of_sublist ?_ hnext.ge ?_ fun x _ => congrFun hkept x, ?_, fun hissued => ?_⟩
  · rw [hvpids]
    exact hsound.vpids.deallocate _
  · rw [hlive, hlive']
    exact (sublist_cons_self vm after).append_left before
  · rw [hvpids, deallocateVpid_reserved]
  · -- ids are unique, so only this VM is meant
    have honly : (∀ x ∈ t.live, x.id = id → x.vpid = t.vpidOf x) ↔ vm.vpid = t.vpidOf vm := by
      refine ⟨fun h => h vm hmem hid, fun h x hx hxid => ?_⟩
      have hsame : x = vm :=
        inj_on_of_nodup_map hsound.nodup hx hmem (hxid.trans hid.symm)
      rw [hsame]
      exact h
    rw [honly]
    rw [held_middle hlive] at hissued
    rw [hheld]
    by_cases hzero : t.vpidOf vm = 0
    · rw [if_pos hzero, append_nil] at hissued
      have hrecorded : vm.vpid = 0 := (hsound.recorded vm hmem).elim (fun h => h) fun h => h.trans hzero
      refine iff_of_true (hissued.congr fun u => ?_) (hrecorded.trans hzero.symm)
      rw [hused, hrecorded]
      exact and_iff_right_of_imp fun h => h.1
    · rw [if_neg hzero, append_assoc] at hissued
      rcases hsound.recorded vm hmem with hrecorded | hrecorded
      · refine iff_of_false (hissued.not_forget ?_) fun h => hzero (h.symm.trans hrecorded)
        rw [hused, hrecorded]
        exact ⟨hzero, (hissued.used_iff _).mpr (mem_append_right _ mem_cons_self)⟩
      · refine iff_of_true (hissued.release fun u => ?_) hrecorded
        rw [hused, hrecorded]

end VpidTable

/-! ## Whole histories -/

namespace VpidStep

variable {t t' : VpidTable}

theorem createRoot_step {r : RootRequest} (hsound : t.Sound) (h : t.createRoot r = some t') :
    t'.Sound ∧ (t'.cpu.vpids.bitmap.mem 0 ↔ t.cpu.vpids.bitmap.mem 0 ∨ r.Allocates) ∧
      (Issued t.Used t.held → (Issued t'.Used t'.held ↔ (r.Allocates → r.Completes))) := by
  unfold VpidTable.createRoot at h
  split at h
  · rename_i hprepared
    cases h
    have hnot : ¬r.Allocates := fun h => by rw [h.prepared] at hprepared; cases hprepared
    exact ⟨hsound, (or_iff_left hnot).symm, fun hissued => iff_of_true hissued fun h => absurd h hnot⟩
  rename_i hprepared
  rw [Bool.not_eq_true', Bool.not_eq_false] at hprepared
  obtain ⟨cpu, hcpu⟩ : ∃ cpu, cpu = t.cpu.setRegion t.nextId fun _ => 0 := ⟨_, rfl⟩
  have hvpids : cpu.vpids = t.cpu.vpids := by rw [hcpu]; rfl
  have hfresh : ∀ f, cpu.regions t.nextId f = 0 := by
    intro f
    rw [hcpu, VmxCpu.setRegion_self]
  have hends : (r.newState t.nextId).Ends cpu
      (fun vpid cpu' => VpidDone t.nextId cpu r.Allocates r.Completes 0 vpid cpu' ∧
        (¬r.Allocates → (r.newState t.nextId cpu).1.isOk))
      (fun e cpu' => VpidStopped t.nextId cpu r.Allocates r.Completes (e = .panicked) cpu' ∧
        (¬r.Allocates → ¬(r.newState t.nextId cpu).1.isOk)) :=
    (r.newState_ends (by rw [hvpids]; exact hsound.vpids) hprepared hfresh).isOk.imp
      (fun _ _ h => ⟨h.1, fun _ => h.2⟩) (fun _ _ h => ⟨h.1, fun _ => h.2⟩)
  rw [← hcpu] at h
  obtain ⟨hsettled, hnext, hothers⟩ := VpidTable.settled_of_ends hvpids hends h
  have hkept : ∀ vm ∈ t.live, t'.vpidOf vm = t.vpidOf vm := by
    intro vm hvm
    have hne : vm.id ≠ t.nextId := Nat.ne_of_lt (hsound.ids vm hvm)
    rw [VpidTable.vpidOf, hothers _ hne, hcpu, VmxCpu.setRegion_of_ne _ hne]
    rfl
  refine ⟨hsettled.sound hsound hkept hnext, hsettled.reserved_iff hsound, fun hissued => ?_⟩
  rw [hsettled.issued_iff hsound hkept (fun h => absurd rfl h) hissued]
  exact and_iff_left fun h => absurd rfl h

theorem fork_step {parent : Nat} {r : ForkRequest} (hsound : t.Sound)
    (h : t.fork parent r = some t') :
    t'.Sound ∧
      (t'.cpu.vpids.bitmap.mem 0 ↔ t.cpu.vpids.bitmap.mem 0 ∨
        t.isLive parent ∧ r.Allocates (t.cpu.regions parent)) ∧
      (Issued t.Used t.held → (Issued t'.Used t'.held ↔ (t.isLive parent →
        (r.Allocates (t.cpu.regions parent) → r.Completes) ∧
          ((t.cpu.regions parent).vpid ≠ 0 →
            r.fails (.read .secondaryProcBasedVmExecControls) →
              ¬(r.Reaches ∧ r.Finishes))))) := by
  unfold VpidTable.fork at h
  split at h
  · rename_i hnone
    cases h
    have hnot : t.isLive parent → ¬r.Reaches := by
      intro hlive hreaches
      rw [hlive, hreaches.prepared] at hnone
      cases hnone
    refine ⟨hsound, (or_iff_left fun h => hnot h.1 h.2.reaches).symm, fun hissued =>
      iff_of_true hissued fun hlive => ⟨fun h => absurd h.reaches (hnot hlive), fun _ _ h => ?_⟩⟩
    exact hnot hlive h.1
  · rename_i hsome
    rw [Bool.or_eq_true, not_or, Bool.not_eq_true', Bool.not_eq_false, Bool.not_eq_true',
      Bool.not_eq_false] at hsome
    obtain ⟨hprepared, hlive⟩ := hsome
    have hends : (r.newForFork t.nextId parent).Ends t.cpu _ _ :=
      r.newForFork_ends hsound.vpids hprepared
    obtain ⟨hsettled, hnext, hothers⟩ := VpidTable.settled_of_ends rfl hends h
    have hkept : ∀ vm ∈ t.live, t'.vpidOf vm = t.vpidOf vm := by
      intro vm hvm
      rw [VpidTable.vpidOf, hothers _ (Nat.ne_of_lt (hsound.ids vm hvm))]
      rfl
    have hparent : (t.cpu.regions parent).vpid ≠ 0 → (t.cpu.regions parent).vpid ∈ t.held := by
      intro hne
      obtain ⟨vm, hvm, hid⟩ := any_eq_true.mp hlive
      rw [beq_iff_eq] at hid
      exact VpidTable.mem_held.mpr ⟨hne, vm, hvm, by rw [VpidTable.vpidOf, hid]⟩
    refine ⟨hsettled.sound hsound hkept hnext, ?_, fun hissued => ?_⟩
    · rw [hsettled.reserved_iff hsound, and_iff_right hlive]
    rw [hsettled.issued_iff hsound hkept hparent hissued, forall_prop_of_true hlive]
    refine and_congr_right fun _ => forall_congr' fun hne => ?_
    have henabled : t.cpu.regions parent .secondaryProcBasedVmExecControls &&& ENABLE_VPID ≠ 0 :=
      fun hzero => hne (if_pos hzero)
    -- with VPIDs enabled, only a failing read keeps a fork from taking one
    constructor
    · intro h hfails hfinished
      refine h (fun hallocates => ?_) hfinished
      rw [hallocates.read] at hfails
      cases hfails
    · intro h hnot hfinished
      refine h ?_ hfinished
      by_contra hread
      exact hnot ⟨hfinished.1, Bool.eq_false_iff.mpr hread, henabled⟩

/-- One step: what always holds keeps holding, the reserved VPID is marked with the first
allocation, and the VPIDs in use are those held exactly if the step is clean. -/
theorem Valid.step {s : VpidStep} (hvalid : s.Valid) (hsound : s.pre.Sound) :
    s.post.Sound ∧ (s.post.cpu.vpids.bitmap.mem 0 ↔ s.pre.cpu.vpids.bitmap.mem 0 ∨ s.Allocates) ∧
      (Issued s.pre.Used s.pre.held → (Issued s.post.Used s.post.held ↔ s.Clean)) := by
  cases hvalid with
  | createRoot h => exact createRoot_step hsound h
  | fork h => exact fork_step hsound h
  | drop t id clearFails =>
    obtain ⟨hsound', hreserved, hissued⟩ := VpidTable.drop_step hsound id clearFails
    refine ⟨hsound', ?_, hissued⟩
    rw [hreserved]
    exact (or_iff_left fun h : False => h).symm
  | @elsewhere t cpu hvpids hregions =>
    have hkept : VpidTable.vpidOf { t with cpu } = t.vpidOf := by
      funext vm
      obtain ⟨hfield, hsecondary⟩ := hregions vm.id
      rw [VpidTable.vpidOf, VpidTable.vpidOf, VmcsRegion.vpid, VmcsRegion.vpid, hfield, hsecondary]
    have hheld : VpidTable.held { t with cpu } = t.held := by
      rw [VpidTable.held, VpidTable.held, hkept]
    refine ⟨hsound.of_sublist ?_ (Nat.le_refl _) (.refl _) fun vm _ => congrFun hkept vm, ?_, ?_⟩
    · rw [hvpids]
      exact hsound.vpids
    · rw [hvpids]
      exact (or_iff_left fun h : False => h).symm
    · intro hissued
      rw [hheld]
      exact iff_of_true (hissued.congr (VpidTable.used_congr hvpids)) trivial

end VpidStep

def VpidRun (ts : List VpidStep) (t : VpidTable) : Prop :=
  Walk VpidTable.boot ts t ∧ ∀ s ∈ ts, s.Valid

namespace VpidRun

variable {ts : List VpidStep} {t : VpidTable}

theorem sound (h : VpidRun ts t) : ∀ s ∈ ts, s.pre.Sound :=
  fun s hs => ((h.1.invariant (fun s hs hsound => ((h.2 s hs).step hsound).1)
    VpidTable.boot_sound).1 s hs).1

/-- The VPIDs in use stay those held exactly if all steps are clean. -/
theorem issued_iff (h : VpidRun ts t) :
    (∀ s ∈ ts, Issued s.post.Used s.post.held) ↔ ∀ s ∈ ts, s.Clean := by
  refine h.1.invariant_iff (I := fun t => Issued t.Used t.held) (fun s hs hissued => ?_) ?_
  · exact ((h.2 s hs).step (h.sound s hs)).2.2 hissued
  · refine ⟨fun v => ?_, nodup_nil⟩
    simp [VpidTable.Used, VpidTable.held, VpidTable.boot, boot]

/-- The reserved VPID is marked from the first step on exactly if that step allocates. -/
theorem reserved_iff (h : VpidRun ts t) :
    (∀ s ∈ ts, s.post.cpu.vpids.bitmap.mem 0) ↔ ∀ s ∈ ts.head?, s.Allocates := by
  cases ts with
  | nil => simp
  | cons first rest =>
    obtain ⟨⟨hpre, hwalk⟩, hvalid⟩ := h
    obtain ⟨hsound, hfirst, -⟩ := (hvalid first mem_cons_self).step
      (by rw [hpre]; exact VpidTable.boot_sound)
    have hboot : first.pre.cpu.vpids.bitmap.mem 0 = false := by
      rw [hpre]
      rfl
    rw [hboot, or_iff_right Bool.false_ne_true] at hfirst
    rw [forall_mem_cons, List.head?_cons]
    constructor
    · rintro ⟨hmarked, -⟩ s hs
      cases hs
      exact hfirst.mp hmarked
    intro hallocates
    have hmarked := hfirst.mpr (hallocates first rfl)
    have hrest := (hwalk.invariant
      (I := fun t => t.Sound ∧ t.cpu.vpids.bitmap.mem 0) (fun s hs hI => ?_)
      ⟨hsound, hmarked⟩).1
    · exact ⟨hmarked, fun s hs => (hrest s hs).2.2⟩
    · obtain ⟨hsound', hreserved, -⟩ := (hvalid s (mem_cons_of_mem _ hs)).step hI.1
      exact ⟨hsound', hreserved.mpr (.inl hI.2)⟩

end VpidRun

/-- Along every history the bitmap marks exactly the reserved VPID and the VPIDs of the
live VMs, none of them shared, exactly if all steps are clean and the first of them gets
to allocate. -/
theorem vpids_exact_iff {ts : List VpidStep} {t : VpidTable} (hrun : VpidRun ts t) :
    (∀ s ∈ ts, s.post.Exact) ↔ (∀ s ∈ ts, s.Clean) ∧ ∀ s ∈ ts.head?, s.Allocates := by
  rw [← hrun.issued_iff, ← hrun.reserved_iff]
  constructor
  · intro h
    exact ⟨fun s hs => (VpidTable.exact_iff.mp (h s hs)).1,
      fun s hs => (VpidTable.exact_iff.mp (h s hs)).2⟩
  · rintro ⟨hissued, hreserved⟩ s hs
    exact VpidTable.exact_iff.mpr ⟨hissued s hs, hreserved s hs⟩

def vpidRequest : RootRequest :=
  { caps := { cpuBasedExecCtrl := 0x80000000, cpuBasedExecCtrl2 := 0x20 } }

theorem vpidRequest_allocates : vpidRequest.Allocates :=
  ⟨rfl, rfl, rfl, rfl, by decide, by decide, fun _ _ => rfl⟩

theorem VpidRun.append {ts : List VpidStep} {t t' : VpidTable} {move : VpidMove}
    (hrun : VpidRun ts t) (hstep : VpidStep.Valid ⟨t, move, t'⟩) :
    VpidRun (ts ++ [⟨t, move, t'⟩]) t' := by
  refine ⟨hrun.1.append ⟨rfl, rfl⟩, fun s hs => ?_⟩
  rcases mem_append.mp hs with hs | hs
  · exact hrun.2 s hs
  · rw [mem_singleton.mp hs]
    exact hstep

theorem VpidRun.nil : VpidRun [] .boot :=
  ⟨rfl, forall_mem_nil _⟩

theorem vpidRequest_tables :
    (VpidTable.boot.createRoot vpidRequest).any (fun rooted =>
      (rooted.drop 0 false).live.isEmpty && (rooted.drop 0 false).cpu.vpids.bitmap.mem 1 &&
      (rooted.fork 0 {}).any fun forked =>
        forked.live.all (fun vm => vm.id != 1 || vm.vpid == forked.vpidOf vm) &&
          (forked.drop 1 false).live.length == 1) := by
  decide +kernel

theorem vpids_exact_after_fork :
    ∃ ts t, VpidRun ts t ∧ t.live.length = 1 ∧ ∀ s ∈ ts, s.post.Exact := by
  obtain ⟨rooted, hrooted, hfacts⟩ := (Option.any_eq_true _ _).mp vpidRequest_tables
  simp only [Bool.and_eq_true, Option.any_eq_true, beq_iff_eq, List.all_eq_true, Bool.or_eq_true,
    bne_iff_ne] at hfacts
  obtain ⟨-, forked, hforked, hrecorded, hlength⟩ := hfacts
  have hrun := ((VpidRun.nil.append (.createRoot hrooted)).append (.fork hforked)).append
    (.drop forked 1 false)
  refine ⟨_, _, hrun, hlength, (vpids_exact_iff hrun).mpr ⟨?_, ?_⟩⟩
  · simp only [List.nil_append, List.cons_append]
    rw [List.forall_mem_cons, List.forall_mem_cons, List.forall_mem_singleton]
    refine ⟨fun _ _ _ => rfl, fun _ => ⟨fun _ => ⟨rfl, rfl, rfl⟩, fun _ h => by cases h⟩, ?_⟩
    intro vm hvm hid
    exact (hrecorded vm hvm).resolve_left fun h => h hid
  · intro s hs
    cases hs
    exact vpidRequest_allocates

/-- A root VM reads its VPID back from a VMCS that is no longer current and records none,
so its VPID stays marked when it is dropped. -/
theorem dropped_root_leaks_vpid :
    ∃ ts t, VpidRun ts t ∧ t.live = [] ∧ t.cpu.vpids.bitmap.mem 1 = true := by
  obtain ⟨rooted, hrooted, hfacts⟩ := (Option.any_eq_true _ _).mp vpidRequest_tables
  simp only [Bool.and_eq_true, List.isEmpty_iff] at hfacts
  obtain ⟨⟨hlive, hmarked⟩, -⟩ := hfacts
  exact ⟨_, _, (VpidRun.nil.append (.createRoot hrooted)).append (.drop rooted 0 false), hlive,
    hmarked⟩

end Bedrock
