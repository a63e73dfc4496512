import Bedrock.ForkContext
import Bedrock.RunGate
import Bedrock.Support.Walk

/-!
# Counting children

A VM counts its children so that it is not run while it has any.  `ForkedVm::new` counts
the child before it builds it and does not take the count back when a step fails;
`handle_create_forked_vm` does.  A fork that is dropped is taken off the count of its
parent.
-/

namespace Bedrock

open Support List Function ForkedVm

/-- The host lets every step of a fork succeed. -/
def ForkHost.supplies (host : ForkHost) (parent : VmContext) : Bool :=
  (parent.state.ept.cloneForFork host.supply).isOk && host.vmcsAllocated && host.msrBitmap &&
    host.pebsPages && host.xsavePages && host.regionCopied &&
    (forkControls parent.state host).isOk && host.invept

theorem ForkedVm.new_isOk (parent : VmContext) (host : ForkHost) :
    (new parent host).isOk = host.supplies parent := by
  unfold new ForkHost.supplies VmState.newForFork
  cases parent.state.ept.cloneForFork host.supply with
  | error e => rfl
  | ok ept =>
    cases host.vmcsAllocated <;> cases host.msrBitmap <;> cases host.pebsPages <;>
      cases host.xsavePages <;> cases host.regionCopied <;>
      cases forkControls parent.state host <;> cases host.invept <;> rfl

/-! ## VMs and their counts -/

/-- A VM that is alive. -/
structure LiveVm where
  id : Nat
  vm : VmContext
  parent : Option Nat

/-- The VMs that are alive and the counters of all. -/
structure VmTable where
  nextId : Nat := 0
  live : List LiveVm := []
  atomics : VmAtomics Nat := ⟨fun _ => false, fun _ => 0⟩
  ids : ∀ v ∈ live, v.id < nextId ∧ ∀ p, v.parent = some p → p < nextId := by simp

/-- What `handle_create_forked_vm` needs around the fork itself: the handler, an id, the
parent in the list of VMs, and the file and its descriptor. -/
structure CreateHost where
  handler : Bool := true
  vmId : Bool := true
  registered : Bool := true
  fork : ForkHost
  file : Bool := true
  fd : Bool := true

inductive ForkOp
  | root (vm : VmContext)
  | new (parent : Nat) (host : ForkHost)
  | create (parent : Nat) (host : CreateHost)
  | drop (id : Nat)
  /-- Anything that changes a VM but forks or drops none. -/
  | change (id : Nat) (vm : VmContext)

namespace VmTable

def find (t : VmTable) (id : Nat) : Option LiveVm :=
  t.live.find? (·.id = id)

def liveChildren (t : VmTable) (id : Nat) : Nat :=
  t.live.countP (·.parent = some id)

variable {t : VmTable} {v : LiveVm} {parent : Option Nat}

theorem find_mem {id : Nat} (h : t.find id = some v) : v ∈ t.live ∧ v.id = id := by
  have hid := List.find?_some h
  exact ⟨mem_of_find?_eq_some h, by simpa using hid⟩

def addChild (t : VmTable) (id : Nat) : VmTable :=
  { t with atomics := t.atomics.addChild id }

def removeChild (t : VmTable) (id : Nat) : VmTable :=
  { t with atomics := t.atomics.removeChild id }

/-- A new VM; its counter starts at zero. -/
def push (t : VmTable) (vm : VmContext) (parent : Option Nat)
    (hparent : ∀ p, parent = some p → p < t.nextId) : VmTable where
  nextId := t.nextId + 1
  live := t.live ++ [⟨t.nextId, vm, parent⟩]
  atomics := { t.atomics with
    childrenCount := Function.update t.atomics.childrenCount t.nextId 0 }
  ids := by
    intro v hv
    rcases mem_append.mp hv with hv | hv
    · obtain ⟨hid, hp⟩ := t.ids v hv
      exact ⟨by omega, fun p h => Nat.lt_succ_of_lt (hp p h)⟩
    · obtain rfl := mem_singleton.mp hv
      exact ⟨Nat.lt_succ_self _, fun p h => Nat.lt_succ_of_lt (hparent p h)⟩

def erase (t : VmTable) (id : Nat) : VmTable :=
  { t with
    live := t.live.eraseP (·.id = id)
    ids := fun v hv => t.ids v (mem_of_mem_eraseP hv) }

theorem find_lt {id : Nat} (h : t.find id = some v) : ∀ p, some id = some p → p < t.nextId := by
  rintro p hp
  obtain ⟨hmem, hid⟩ := find_mem h
  cases hp
  exact hid ▸ (t.ids v hmem).1

/-- `ForkedVm::new` -/
def forkNew (t : VmTable) (parent : Nat) (host : ForkHost) : VmTable :=
  match h : t.find parent with
  | none => t
  | some v =>
    match new v.vm host with
    | .error _ => t.addChild parent
    | .ok child => (t.addChild parent).push child (some parent) (find_lt h)

/-- `handle_create_forked_vm` -/
def createForkedVm (t : VmTable) (parent : Nat) (host : CreateHost) : VmTable :=
  if !host.handler || !host.vmId || !host.registered then t
  else
    match h : t.find parent with
    | none => t
    | some v =>
      let t' := t.addChild parent
      match new v.vm host.fork with
      | .error _ => t'.removeChild parent
      | .ok child =>
        -- without a file the fork is dropped at once
        if !host.file || !host.fd then t'.removeChild parent
        else t'.push child (some parent) (find_lt h)

/-- `Drop`: a VM with live children is kept alive by them. -/
def dropVm (t : VmTable) (id : Nat) : VmTable :=
  match t.find id with
  | none => t
  | some v =>
    if t.liveChildren id ≠ 0 then t
    else
      match v.parent with
      | none => t.erase id
      | some parent => (t.erase id).removeChild parent

def change (t : VmTable) (id : Nat) (vm : VmContext) : VmTable :=
  { t with
    live := t.live.map fun v => if v.id = id then { v with vm } else v
    ids := by
      intro v hv
      obtain ⟨u, hu, rfl⟩ := mem_map.mp hv
      split
      · exact t.ids u hu
      · exact t.ids u hu }

def step (t : VmTable) : ForkOp → VmTable
  | .root vm => t.push vm none nofun
  | .new parent host => t.forkNew parent host
  | .create parent host => t.createForkedVm parent host
  | .drop id => t.dropVm id
  | .change id vm => t.change id vm

/-- Every VM counts its live children. -/
def Counted (t : VmTable) : Prop :=
  ∀ v ∈ t.live, t.atomics.childrenCount v.id = t.liveChildren v.id

/-! ## What each operation does to the counts -/

theorem liveChildren_push (t : VmTable) (vm : VmContext)
    (hparent : ∀ p, parent = some p → p < t.nextId) (id : Nat) :
    (t.push vm parent hparent).liveChildren id =
      t.liveChildren id + if parent = some id then 1 else 0 := by
  simp [liveChildren, push, countP_append, countP_cons]

theorem liveChildren_nextId (t : VmTable) : t.liveChildren t.nextId = 0 := by
  apply countP_eq_zero.mpr
  intro v hv hparent
  exact Nat.lt_irrefl _ ((t.ids v hv).2 _ (by simpa using hparent))

theorem childrenCount_push {vm : VmContext}
    {hparent : ∀ p, parent = some p → p < t.nextId} {id : Nat} (hid : id ≠ t.nextId) :
    (t.push vm parent hparent).atomics.childrenCount id = t.atomics.childrenCount id :=
  update_of_ne hid _ _

theorem counted_push {vm : VmContext} {hparent : ∀ p, parent = some p → p < t.nextId}
    (h : ∀ v ∈ t.live, t.atomics.childrenCount v.id =
      t.liveChildren v.id + if parent = some v.id then 1 else 0) :
    (t.push vm parent hparent).Counted := by
  intro v hv
  rw [liveChildren_push]
  rcases mem_append.mp hv with hv | hv
  · rw [childrenCount_push (Nat.ne_of_lt (t.ids v hv).1)]
    exact h v hv
  obtain rfl := mem_singleton.mp hv
  have hself : parent ≠ some t.nextId := fun heq => Nat.lt_irrefl _ (hparent _ heq)
  rw [if_neg hself, liveChildren_nextId]
  exact update_self _ _ _

/-- `add_child` puts the count of the parent one ahead. -/
theorem Counted.addChild (h : t.Counted) (id : Nat) :
    ∀ v ∈ (t.addChild id).live, (t.addChild id).atomics.childrenCount v.id =
      (t.addChild id).liveChildren v.id + if some id = some v.id then 1 else 0 := by
  intro v hv
  have hcount : t.atomics.childrenCount v.id = t.liveChildren v.id := h v hv
  have hadd := VmAtomics.addChild_childrenCount t.atomics id v.id
  change (t.atomics.addChild id).childrenCount v.id = t.liveChildren v.id + _
  rw [hadd, ← hcount]
  by_cases hid : v.id = id
  · rw [if_pos hid, if_pos (congrArg some hid.symm), hid]
  · rw [if_neg hid, if_neg fun heq => hid (Option.some.inj heq).symm, Nat.add_zero]

theorem Counted.not_addChild (h : t.Counted) {id : Nat}
    (hfind : t.find id = some v) : ¬(t.addChild id).Counted := by
  intro hleak
  obtain ⟨hmem, hid⟩ := find_mem hfind
  have hahead := h.addChild id v hmem
  rw [hleak v hmem, if_pos (congrArg some hid.symm)] at hahead
  omega

theorem forkNew_cases {parent : Nat} (hfind : t.find parent = some v) (host : ForkHost) :
    (host.supplies v.vm = false ∧ t.forkNew parent host = t.addChild parent) ∨
      (host.supplies v.vm ∧ ∃ child hparent,
        t.forkNew parent host = (t.addChild parent).push child (some parent) hparent) := by
  have hok := new_isOk v.vm host
  unfold VmTable.forkNew
  split
  · rename_i hnone
    rw [hfind] at hnone
    cases hnone
  rename_i u hfind'
  obtain rfl := Option.some.inj (hfind.symm.trans hfind')
  cases hnew : new v.vm host with
  | error e =>
    rw [hnew] at hok
    exact .inl ⟨hok.symm, rfl⟩
  | ok child =>
    rw [hnew] at hok
    exact .inr ⟨hok.symm, child, find_lt hfind, rfl⟩

theorem forkNew_of_dead {parent : Nat} (hfind : t.find parent = none)
    (host : ForkHost) : t.forkNew parent host = t := by
  unfold VmTable.forkNew
  split
  · rfl
  rename_i v hsome
  rw [hfind] at hsome
  cases hsome

theorem Counted.forkNew (h : t.Counted) (parent : Nat) (host : ForkHost) :
    (t.forkNew parent host).Counted ↔ ∀ v, t.find parent = some v → host.supplies v.vm := by
  cases hfind : t.find parent with
  | none =>
    rw [forkNew_of_dead hfind]
    exact iff_of_true h (by simp)
  | some v =>
    simp only [Option.some.injEq, forall_eq']
    rcases forkNew_cases hfind host with ⟨hfails, heq⟩ | ⟨hok, child, hparent, heq⟩
    · rw [heq, hfails]
      exact iff_of_false (h.not_addChild hfind) Bool.false_ne_true
    · rw [heq]
      exact iff_of_true (counted_push (h.addChild parent)) hok

theorem Counted.removeChild_addChild (h : t.Counted) (id : Nat) :
    ((t.addChild id).removeChild id).Counted := by
  intro v hv
  have hcount : t.atomics.childrenCount v.id = t.liveChildren v.id := h v hv
  change ((t.atomics.addChild id).removeChild id).childrenCount v.id = t.liveChildren v.id
  rw [← hcount]
  by_cases hid : v.id = id
  · simp [hid]
  · simp [hid]

theorem Counted.createForkedVm (h : t.Counted) (parent : Nat)
    (host : CreateHost) : (t.createForkedVm parent host).Counted := by
  unfold VmTable.createForkedVm
  split
  · exact h
  split
  · exact h
  rename_i v hfind
  dsimp only
  cases new v.vm host.fork with
  | error e => exact h.removeChild_addChild parent
  | ok child =>
    dsimp only
    split
    · exact h.removeChild_addChild parent
    · exact counted_push (h.addChild parent)

theorem erase_live {id : Nat} (h : t.find id = some v) :
    ∃ before after, t.live = before ++ v :: after ∧ (t.erase id).live = before ++ after := by
  obtain ⟨hid, before, after, hlive, hbefore⟩ := List.find?_eq_some_iff_append.mp h
  refine ⟨before, after, hlive, ?_⟩
  have hskip : ∀ u ∈ before, ¬(decide (u.id = id)) := by
    intro u hu
    simpa using hbefore u hu
  change t.live.eraseP _ = _
  rw [hlive, eraseP_append_right _ hskip]
  exact congrArg (before ++ ·) (eraseP_cons_of_pos hid)

theorem liveChildren_erase {id : Nat} (h : t.find id = some v)
    (parent : Nat) : t.liveChildren parent =
      (t.erase id).liveChildren parent + if v.parent = some parent then 1 else 0 := by
  obtain ⟨before, after, hlive, herase⟩ := erase_live h
  unfold liveChildren
  rw [hlive, herase]
  simp only [countP_append, countP_cons, decide_eq_true_eq]
  omega

theorem Counted.dropVm (h : t.Counted) (id : Nat) : (t.dropVm id).Counted := by
  unfold VmTable.dropVm
  split
  · exact h
  rename_i v hfind
  split
  · exact h
  have herase := liveChildren_erase hfind
  have hstay : ∀ u ∈ (t.erase id).live, t.atomics.childrenCount u.id = t.liveChildren u.id :=
    fun u hu => h u (mem_of_mem_eraseP hu)
  split
  · rename_i hparent
    intro u hu
    have hcount := hstay u hu
    rw [herase, if_neg (by simp [hparent])] at hcount
    exact hcount
  rename_i parent hparent
  intro u hu
  have hcount := hstay u hu
  change (t.atomics.removeChild parent).childrenCount u.id = (t.erase id).liveChildren u.id
  rw [VmAtomics.removeChild_childrenCount]
  rw [herase, hparent] at hcount
  by_cases hid : u.id = parent
  · rw [if_pos (congrArg some hid.symm)] at hcount
    rw [if_pos hid, ← hid]
    omega
  · rw [if_neg fun heq => hid (Option.some.inj heq).symm] at hcount
    rw [if_neg hid]
    exact hcount

theorem Counted.change (h : t.Counted) (id : Nat) (vm : VmContext) : (t.change id vm).Counted := by
  have hcount : ∀ n, (t.change id vm).liveChildren n = t.liveChildren n := by
    intro n
    simp only [liveChildren, VmTable.change, countP_map]
    congr 1
    funext v
    simp only [comp_apply]
    split <;> rfl
  intro v hv
  obtain ⟨u, hu, rfl⟩ := mem_map.mp hv
  rw [hcount]
  have hid : (if u.id = id then { u with vm } else u).id = u.id := by split <;> rfl
  rw [hid]
  exact h u hu

end VmTable

/-! ## Runs -/

/-- Operations on VMs, each from where the one before it led. -/
def VmTable.Operations : VmTable → List (Transition VmTable ForkOp) → VmTable → Prop :=
  fun t ts t' => Walk t ts t' ∧ ∀ u ∈ ts, u.post = u.pre.step u.label

/-- The steps that carry out the operations one after the other. -/
def VmTable.perform (t : VmTable) : List ForkOp → List (Transition VmTable ForkOp)
  | [] => []
  | op :: ops => ⟨t, op, t.step op⟩ :: (t.step op).perform ops

theorem VmTable.perform_operations (t : VmTable) (ops : List ForkOp) :
    t.Operations (t.perform ops) (ops.foldl step t) := by
  induction ops generalizing t with
  | nil => exact ⟨rfl, by simp [perform]⟩
  | cons op ops ih =>
    obtain ⟨hwalk, hsteps⟩ := ih (t.step op)
    exact ⟨⟨rfl, hwalk⟩, forall_mem_cons.mpr ⟨rfl, hsteps⟩⟩

/-- `ForkedVm::new` of a live parent that a host does not let through. -/
def FailsUncounted (u : Transition VmTable ForkOp) : Prop :=
  ∃ parent host v, u.label = .new parent host ∧ u.pre.find parent = some v ∧
    host.supplies v.vm = false

theorem VmTable.Counted.step {t : VmTable} (h : t.Counted) (op : ForkOp) :
    (t.step op).Counted ↔ ¬FailsUncounted ⟨t, op, t.step op⟩ := by
  cases op with
  | root vm =>
    have hcounted : (t.push vm none nofun).Counted := by
      apply counted_push
      intro v hv
      rw [if_neg nofun, Nat.add_zero]
      exact h v hv
    exact iff_of_true hcounted (by simp [FailsUncounted])
  | new parent host =>
    refine (h.forkNew parent host).trans ?_
    constructor
    · rintro hall ⟨_, _, v, hop, hfind, hfails⟩
      cases hop
      rw [hall v hfind] at hfails
      cases hfails
    · intro hnone v hfind
      by_contra hfails
      exact hnone ⟨parent, host, v, rfl, hfind, by simpa using hfails⟩
  | create parent host =>
    exact iff_of_true (h.createForkedVm parent host) (by simp [FailsUncounted])
  | drop id => exact iff_of_true (h.dropVm id) (by simp [FailsUncounted])
  | change id vm => exact iff_of_true (h.change id vm) (by simp [FailsUncounted])

/-- Along any operations the counts are right after each exactly if no `ForkedVm::new`
fails. -/
theorem childrenCount_eq_liveChildren_iff {t : VmTable} {ts : List (Transition VmTable ForkOp)}
    (hops : VmTable.Operations {} ts t) :
    (∀ u ∈ ts, u.post.Counted) ↔ ∀ u ∈ ts, ¬FailsUncounted u := by
  obtain ⟨hwalk, hsteps⟩ := hops
  refine hwalk.invariant_iff (I := VmTable.Counted) (fun u hu hpre => ?_) (by simp [VmTable.Counted])
  obtain ⟨pre, op, post⟩ := u
  obtain rfl : post = pre.step op := hsteps _ hu
  exact hpre.step op

/-- One fork is made by `ForkedVm::new`, one fails in `handle_create_forked_vm`, and the
first is dropped. -/
theorem childrenCount_eq_liveChildren_dropped :
    let ts := VmTable.perform {} [.root newVm, .new 0 bareFork,
      .create 0 { fork := { bareFork with invept := false } }, .drop 1]
    ts.length = 4 ∧ ∀ u ∈ ts, u.post.Counted := by
  refine ⟨rfl, (childrenCount_eq_liveChildren_iff (VmTable.perform_operations {} _)).mpr ?_⟩
  simp only [VmTable.perform, List.forall_mem_cons, List.not_mem_nil, IsEmpty.forall_iff,
    implies_true, and_true]
  refine ⟨by simp [FailsUncounted], ?_, by simp [FailsUncounted], by simp [FailsUncounted]⟩
  rintro ⟨_, _, v, hop, hfind, hfails⟩
  cases hop
  obtain rfl : (⟨0, newVm, none⟩ : LiveVm) = v := Option.some.inj hfind
  exact absurd hfails (by decide +kernel)

def noVmcs : ForkHost := { bareFork with vmcsAllocated := false }

/-- A new VM has no child after `ForkedVm::new` failed for want of a VMCS, and counts
one. -/
theorem childrenCount_ne_liveChildren_vmcs :
    ∃ ts t, VmTable.Operations {} ts t ∧ ∃ v ∈ t.live,
      t.atomics.childrenCount v.id = 1 ∧ t.liveChildren v.id = 0 := by
  have hops := VmTable.perform_operations {} [.root newVm, .new 0 noVmcs]
  have hfind : (VmTable.push {} newVm none nofun).find 0 = some ⟨0, newVm, none⟩ := rfl
  have hfails : noVmcs.supplies newVm = false := by decide +kernel
  rcases VmTable.forkNew_cases hfind noVmcs with ⟨-, hleak⟩ | ⟨hok, -⟩
  · have hend : [.root newVm, .new 0 noVmcs].foldl VmTable.step {} =
        (VmTable.push {} newVm none nofun).addChild 0 := hleak
    rw [hend] at hops
    exact ⟨_, _, hops, ⟨0, newVm, none⟩, List.mem_cons_self, rfl, rfl⟩
  · exact absurd (hfails.symm.trans hok) Bool.false_ne_true

end Bedrock
