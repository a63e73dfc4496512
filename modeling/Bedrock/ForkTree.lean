import Bedrock.Support.Lineage
import Bedrock.Vm

/-!
# Memory in a tree of forks

VMs refer to their parents; a fork sees its parent's memory as it is at the time of
the read.  A VM with live children is not run and not written, and this is what
keeps the VMs of a tree apart.
-/

namespace Bedrock

open Support VmMemory Forest CowPageMap List Option ForkedVm VmContext

/-- The memory a VM holds itself: the region of a root, the copied pages of a fork. -/
inductive OwnMemory
  | root (memory : GuestMemory)
  | forked (cowPages : CowPageMap)

def VmMemory.own : VmMemory → OwnMemory
  | .root memory => .root memory
  | .forked cow _ => .forked cow

/-- A VM of the tree without what it refers to. -/
structure TreeVm where
  own : OwnMemory
  state : VmState
  machine : Machine

def VmContext.treeVm (ctx : VmContext) : TreeVm :=
  ⟨ctx.memory.own, ctx.state, ctx.machine⟩

abbrev ForkTree : Type :=
  Forest TreeVm

/-- The memory a VM sees, from its lineage: copied pages over a root region. -/
def lineageMemory : List TreeVm → Option VmMemory
  | [] => none
  | vm :: ancestors =>
    match vm.own, ancestors with
    | .root memory, [] => some (.root memory)
    | .root _, _ :: _ => none
    | .forked cow, ancestors => (lineageMemory ancestors).map (.forked cow)

theorem lineageMemory_root {vm : TreeVm} {memory : GuestMemory} (h : vm.own = .root memory)
    (ancestors : List TreeVm) :
    lineageMemory (vm :: ancestors) = if ancestors = [] then some (.root memory) else none := by
  obtain ⟨own, state, machine⟩ := vm
  cases h
  cases ancestors <;> rfl

theorem lineageMemory_forked {vm : TreeVm} {cow : CowPageMap} (h : vm.own = .forked cow)
    (ancestors : List TreeVm) :
    lineageMemory (vm :: ancestors) = (lineageMemory ancestors).map (.forked cow) := by
  obtain ⟨own, state, machine⟩ := vm
  cases h
  cases ancestors <;> rfl

namespace ForkTree

def memory (t : ForkTree) (k : Nat) : Option VmMemory :=
  lineageMemory (t.lineage k)

def context (t : ForkTree) (k : Nat) (host : HostInputs) : Option VmContext :=
  match t.node? k, t.memory k with
  | some n, some memory =>
    some { state := n.value.state, memory, machine := n.value.machine, host }
  | _, _ => none

def store (t : ForkTree) (k : Nat) (ctx : VmContext) : ForkTree :=
  t.update (fun n => { n with value := ctx.treeVm }) k

/-- What `read_guest_memory` returns on VM `k`. -/
def read (t : ForkTree) (k gpa len : Nat) : Option (List UInt8 × Except MemoryError Unit) :=
  (t.memory k).map fun mem => mem.readGuestMemory gpa len

inductive Op
  | fork (parent : Nat) (host : ForkHost)
  | cowFault (vm gpa : Nat) (cowPages : List (Option CowGrant))
  | write (vm gpa : Nat) (bytes : List UInt8)
  | drop (vm : Nat)

def idle (t : ForkTree) (k : Nat) : Bool :=
  t.isLive k && !t.hasLiveChild k

/-- One operation; `none` if it is refused. -/
def step (t : ForkTree) : Op → Option ForkTree
  | .fork p host =>
    if t.isLive p then
      (t.context p {}).bind fun parent =>
        match new parent host with
        | .ok child => some (⟨child.treeVm, some p, true⟩ :: t)
        | .error _ => some t
    else none
  | .cowFault k gpa cowPages =>
    if t.idle k then
      (t.context k { cowPages }).map fun ctx => t.store k (ctx.handleCowFault gpa).2
    else none
  | .write k gpa bytes =>
    if t.idle k then
      (t.context k {}).map fun ctx =>
        t.store k (ctx.setMemory (ctx.memory.writeGuestMemory gpa bytes).2)
    else none
  | .drop k => if t.idle k then some (t.update (fun n => { n with live := false }) k) else none

/-- Trees that arise from new root VMs and operations. -/
inductive Reachable : ForkTree → Prop
  | nil : Reachable []
  | root {t : ForkTree} (h : Reachable t) (memory : GuestMemory) (state : VmState)
      (machine : Machine) : Reachable (⟨⟨.root memory, state, machine⟩, none, true⟩ :: t)
  | step {t t' : ForkTree} {op : Op} (h : Reachable t) (hstep : t.step op = some t') :
      Reachable t'

end ForkTree

def OwnMemory.copy : OwnMemory → Nat → Option Page
  | .root _, _ => none
  | .forked cow, gpa => cow.get gpa

def OwnMemory.region : OwnMemory → Option GuestMemory
  | .root memory => some memory
  | .forked _ => none

/-- The byte of the nearest copy in a lineage, or of the root region. -/
def nearestByte (vms : List TreeVm) (addr : Nat) : Option UInt8 :=
  match vms.findSome? fun vm => vm.own.copy addr with
  | some page => some (page.data (addr % PAGE_SIZE))
  | none => (vms.findSome? fun vm => vm.own.region).map fun memory => memory.bytes addr

variable {mem : VmMemory} {vms : List TreeVm} {addr : Nat}

theorem byteAt_pageData_eq_nearestByte (hmem : lineageMemory vms = some mem)
    (hfull : pageBase addr + PAGE_SIZE ≤ mem.memorySize) :
    byteAt PAGE_SIZE mem.pageData addr = nearestByte vms addr := by
  induction vms generalizing mem with
  | nil => cases hmem
  | cons vm ancestors ih =>
    cases hown : vm.own with
    | root memory =>
      rw [lineageMemory_root hown] at hmem
      split at hmem
      · rename_i hlast
        cases hmem
        rw [memorySize] at hfull
        rw [byteAt_pageData_root, if_pos hfull]
        simp [nearestByte, hlast, hown, OwnMemory.copy, OwnMemory.region]
      · cases hmem
    | forked cow =>
      rw [lineageMemory_forked hown, map_eq_some_iff] at hmem
      obtain ⟨parent, hparent, rfl⟩ := hmem
      rw [byteAt_pageData_forked]
      cases hcopy : cow.get addr with
      | some page => simp [nearestByte, hown, OwnMemory.copy, hcopy]
      | none =>
        rw [ih hparent hfull]
        simp [nearestByte, hown, OwnMemory.copy, OwnMemory.region, hcopy]

theorem readByte_eq_nearestByte (hmem : lineageMemory vms = some mem)
    (hfull : pageBase addr + PAGE_SIZE ≤ mem.memorySize) :
    mem.readByte addr = nearestByte vms addr := by
  rw [← byteAt_pageData_eq_nearestByte hmem hfull]
  cases mem with
  | root memory =>
    have hin : addr < memory.size := by
      have : pageBase addr + addr % PAGE_SIZE = addr := pageStart_add_mod addr
      have := Nat.mod_lt addr pageSize_pos
      simp only [memorySize] at hfull
      omega
    rw [readByte_root, byteAt_pageData_root, if_pos hin]
    rw [memorySize] at hfull
    rw [if_pos hfull]
  | forked cow parent => rw [readByte_forked]

/-! ## Operations -/

namespace ForkTree

open VmMemory

variable {t t' : ForkTree} {k j : Nat} {host : HostInputs} {ctx ctx' : VmContext}

theorem context_eq_some (h : t.context k host = some ctx) :
    ∃ n, t.node? k = some n ∧ t.memory k = some ctx.memory := by
  unfold context at h
  split at h
  · rename_i n memory hnode hmem
    cases h
    exact ⟨n, hnode, hmem⟩
  · cases h

theorem memory_store_self (h : t.context k host = some ctx)
    (hbase : SameBase ctx.memory ctx'.memory) : (t.store k ctx').memory k = some ctx'.memory := by
  obtain ⟨n, hnode, hmem⟩ := context_eq_some h
  obtain ⟨rest, hold, hnew⟩ : ∃ rest, t.lineage k = n.value :: rest ∧
      (t.store k ctx').lineage k = ctx'.treeVm :: rest :=
    lineage_update_self hnode rfl
  rw [memory, hold] at hmem
  rw [memory, hnew]
  cases hmem' : ctx'.memory with
  | root memory' =>
    have hown' : ctx'.treeVm.own = .root memory' := by rw [treeVm, hmem']; rfl
    cases hown : n.value.own with
    | root memory =>
      rw [lineageMemory_root hown] at hmem
      rw [lineageMemory_root hown']
      split at hmem
      · rename_i hlast
        rw [if_pos hlast]
      · cases hmem
    | forked cow =>
      rw [lineageMemory_forked hown, map_eq_some_iff] at hmem
      obtain ⟨parent, -, hparent⟩ := hmem
      rw [← hparent, hmem'] at hbase
      exact hbase.elim
  | forked cow' parent' =>
    have hown' : ctx'.treeVm.own = .forked cow' := by rw [treeVm, hmem']; rfl
    cases hown : n.value.own with
    | root memory =>
      rw [lineageMemory_root hown] at hmem
      split at hmem
      · rw [← Option.some.inj hmem, hmem'] at hbase
        exact hbase.elim
      · cases hmem
    | forked cow =>
      rw [lineageMemory_forked hown, map_eq_some_iff] at hmem
      obtain ⟨parent, hrest, hparent⟩ := hmem
      rw [← hparent, hmem'] at hbase
      rw [lineageMemory_forked hown', hrest, map_some]
      exact congrArg some (congrArg (forked cow') hbase.symm)

/-- Live VMs form a forest and each of them sees some memory. -/
structure Sound (t : ForkTree) : Prop where
  wf : t.Wf
  memory : ∀ k, t.isLive k = true → ∃ mem, t.memory k = some mem

theorem idle_iff : t.idle k ↔ t.isLive k ∧ t.hasLiveChild k = false := by
  simp [idle]

theorem memory_store_of_ne (hsound : Sound t) (hidle : t.idle k)
    (hlive : t.isLive j) (hne : j ≠ k) : (t.store k ctx').memory j = t.memory j := by
  rw [memory, memory, store, lineage_update_of_ne hsound.wf (idle_iff.mp hidle).2 hlive hne]

theorem Sound.store (hsound : Sound t) (hidle : t.idle k)
    (hctx : t.context k host = some ctx) (hbase : SameBase ctx.memory ctx'.memory) :
    Sound (t.store k ctx') := by
  refine ⟨hsound.wf.update (idle_iff.mp hidle).2 (fun _ => rfl) (fun _ h => h), fun j hj => ?_⟩
  by_cases hjk : j = k
  · subst hjk
    exact ⟨_, memory_store_self hctx hbase⟩
  have hlive : t.isLive j := by
    rw [← hj, ForkTree.store, isLive_update_of_ne hjk]
  rw [memory_store_of_ne hsound hidle hlive hjk]
  exact hsound.memory j hlive

theorem Sound.drop (hsound : Sound t) (hidle : t.idle k) :
    Sound (t.update (fun n => { n with live := false }) k) := by
  obtain ⟨hlive, hchild⟩ := idle_iff.mp hidle
  refine ⟨hsound.wf.update hchild (fun _ => rfl) (fun _ h => by cases h), fun j hj => ?_⟩
  by_cases hjk : j = k
  · -- the dropped VM is not live any more
    subst hjk
    rw [isLive] at hlive hj
    cases hnode : t.node? j with
    | none =>
      rw [hnode] at hlive
      cases hlive
    | some n =>
      rw [node?_update_self hnode] at hj
      cases hj
  · rw [isLive_update_of_ne hjk] at hj
    rw [ForkTree.memory, lineage_update_of_ne hsound.wf hchild hj hjk]
    exact hsound.memory j hj

theorem memory_cons_of_isLive (n : Node TreeVm) (h : t.isLive j) :
    memory (n :: t) j = t.memory j := by
  rw [memory, memory, lineage_cons_of_lt n (lt_length_of_isLive h)]

theorem memory_cons_root (memory : GuestMemory) (state : VmState) (machine : Machine)
    (t : ForkTree) :
    ForkTree.memory (⟨⟨.root memory, state, machine⟩, none, true⟩ :: t) t.length =
      some (.root memory) := by
  rw [ForkTree.memory, lineage, if_pos rfl, lineageMemory_root rfl, if_pos rfl]

theorem memory_cons_fork {p : Nat} {parent child : VmContext} {cow : CowPageMap}
    (hparent : t.memory p = some parent.memory)
    (hchild : child.memory = .forked cow parent.memory) :
    memory (⟨child.treeVm, some p, true⟩ :: t) t.length = some child.memory := by
  have hown : child.treeVm.own = .forked cow := by rw [treeVm, hchild]; rfl
  rw [memory, lineage_cons_self, lineageMemory_forked hown, hchild]
  rw [memory] at hparent
  rw [hparent]
  rfl

theorem Sound.cons_root (hsound : Sound t) (memory : GuestMemory) (state : VmState)
    (machine : Machine) : Sound (⟨⟨.root memory, state, machine⟩, none, true⟩ :: t) := by
  refine ⟨⟨(fun p hp => by cases hp), hsound.wf⟩, fun j hj => ?_⟩
  rcases isLive_cons hj with rfl | hold
  · exact ⟨_, memory_cons_root memory state machine t⟩
  · rw [memory_cons_of_isLive _ hold]
    exact hsound.memory j hold

end ForkTree

theorem ForkedVm.new_memory {parent child : VmContext} {host : ForkHost}
    (h : new parent host = .ok child) :
    SameReads (.forked .empty parent.memory) child.memory := by
  obtain ⟨fresh, hfresh, rfl⟩ := new_spec h
  rw [← hfresh.memory]
  exact fresh.preCowIoChannelPage_sameReads

/-! ## Whole trees -/

namespace ForkTree

open VmMemory

variable {t t' : ForkTree} {op : Op}

/-- What an operation can do: add a fork, fail to, put back a VM it ran on, or drop
one. -/
inductive Effect (t : ForkTree) : Op → ForkTree → Prop
  | forked {p : Nat} {host : ForkHost} {parent child : VmContext} (hlive : t.isLive p = true)
      (hparent : t.memory p = some parent.memory) (hfork : new parent host = .ok child) :
      Effect t (.fork p host) (⟨child.treeVm, some p, true⟩ :: t)
  | notForked {p : Nat} {host : ForkHost} : Effect t (.fork p host) t
  | faulted {k gpa : Nat} {cowPages : List (Option CowGrant)} {ctx : VmContext}
      (hidle : t.idle k = true) (hctx : t.context k { cowPages } = some ctx) :
      Effect t (.cowFault k gpa cowPages) (t.store k (ctx.handleCowFault gpa).2)
  | wrote {k gpa : Nat} {bytes : List UInt8} {ctx : VmContext} (hidle : t.idle k = true)
      (hctx : t.context k {} = some ctx) :
      Effect t (.write k gpa bytes)
        (t.store k (ctx.setMemory (ctx.memory.writeGuestMemory gpa bytes).2))
  | dropped {k : Nat} (hidle : t.idle k = true) :
      Effect t (.drop k) (t.update (fun n => { n with live := false }) k)

theorem step_effect (h : t.step op = some t') : Effect t op t' := by
  cases op with
  | fork p host =>
    simp only [step, ite_none_right_eq_some, bind_eq_some_iff] at h
    obtain ⟨hlive, parent, hctx, h⟩ := h
    obtain ⟨-, -, hparent⟩ := context_eq_some hctx
    split at h
    · rename_i child hfork
      cases h
      exact .forked hlive hparent hfork
    · cases h
      exact .notForked
  | cowFault k gpa cowPages =>
    simp only [step, ite_none_right_eq_some, map_eq_some_iff] at h
    obtain ⟨hidle, ctx, hctx, rfl⟩ := h
    exact .faulted hidle hctx
  | write k gpa bytes =>
    simp only [step, ite_none_right_eq_some, map_eq_some_iff] at h
    obtain ⟨hidle, ctx, hctx, rfl⟩ := h
    exact .wrote hidle hctx
  | drop k =>
    simp only [step, ite_none_right_eq_some, Option.some.injEq] at h
    obtain ⟨hidle, rfl⟩ := h
    exact .dropped hidle

theorem new_memory_forked {parent child : VmContext} {host : ForkHost}
    (h : new parent host = .ok child) :
    ∃ cow, child.memory = .forked cow parent.memory := by
  have hbase := (new_memory h).base
  cases hmem : child.memory with
  | root memory =>
    rw [hmem] at hbase
    exact hbase.elim
  | forked cow parent' =>
    rw [hmem] at hbase
    exact ⟨cow, congrArg (forked cow) hbase⟩

theorem Sound.effect (hsound : Sound t) (h : Effect t op t') : Sound t' := by
  cases h with
  | @forked p host parent child hlive hparent hfork =>
    obtain ⟨cow, hcow⟩ := new_memory_forked hfork
    refine ⟨hsound.wf.cons_child hlive _, fun j hj => ?_⟩
    rcases isLive_cons hj with rfl | hold
    · exact ⟨_, memory_cons_fork hparent hcow⟩
    · rw [memory_cons_of_isLive _ hold]
      exact hsound.memory j hold
  | notForked => exact hsound
  | @faulted k gpa cowPages ctx hidle hctx =>
    exact hsound.store hidle hctx (ctx.handleCowFault_sameReads gpa).base
  | @wrote k gpa bytes ctx hidle hctx =>
    exact hsound.store hidle hctx (ctx.memory.writeGuestMemory_sameBase gpa bytes)
  | dropped hidle => exact hsound.drop hidle

theorem Reachable.sound (h : Reachable t) : Sound t := by
  induction h with
  | nil => exact ⟨trivial, fun k hk => by cases hk⟩
  | root _ memory state machine ih => exact ih.cons_root memory state machine
  | step _ hstep ih => exact ih.effect (step_effect hstep)

def Op.target : Op → Option Nat
  | .cowFault k _ _ | .write k _ _ | .drop k => some k
  | .fork _ _ => none

theorem read_of_ne_target (hsound : Sound t) (h : Effect t op t') {j : Nat}
    (hlive : t.isLive j) (hne : op.target ≠ some j) (gpa len : Nat) :
    t'.read j gpa len = t.read j gpa len := by
  have hmem : t'.memory j = t.memory j := by
    cases h with
    | forked _ _ _ => exact memory_cons_of_isLive _ hlive
    | notForked => rfl
    | faulted hidle _ | wrote hidle _ =>
      exact memory_store_of_ne hsound hidle hlive fun hjk => hne (congrArg some hjk.symm)
    | dropped hidle =>
      rw [memory, memory, lineage_update_of_ne hsound.wf (idle_iff.mp hidle).2 hlive
        fun hjk => hne (congrArg some hjk.symm)]
  rw [read, read, hmem]

theorem read_cowFault {k gpa : Nat} {cowPages : List (Option CowGrant)}
    (h : Effect t (.cowFault k gpa cowPages) t') (a len : Nat) :
    t'.read k a len = t.read k a len := by
  cases h with
  | @faulted _ _ _ ctx hidle hctx =>
    have hsame := ctx.handleCowFault_sameReads gpa
    obtain ⟨-, -, hmem⟩ := context_eq_some hctx
    rw [read, read, memory_store_self hctx hsame.base, hmem]
    exact congrArg some (hsame.read a len)

end ForkTree

def VmMemory.InRoot (mem : VmMemory) (gpa len : Nat) : Prop :=
  0 < len ∧ ∀ i < len, pageBase (gpa + i) + PAGE_SIZE ≤ mem.memorySize

theorem VmMemory.byteAt_pageData_of_full (hfull : pageBase addr + PAGE_SIZE ≤ mem.memorySize) :
    ∃ b, byteAt PAGE_SIZE mem.pageData addr = some b := by
  induction mem with
  | root memory =>
    rw [memorySize] at hfull
    exact ⟨_, by rw [byteAt_pageData_root, if_pos hfull]⟩
  | forked cow parent ih =>
    rw [byteAt_pageData_forked]
    split
    · exact ⟨_, rfl⟩
    · exact ih hfull

theorem readGuestMemory_nearest
    (hmem : lineageMemory vms = some mem) {gpa len : Nat} (hspan : mem.InRoot gpa len) :
    ∃ bytes, mem.readGuestMemory gpa len = (bytes, .ok ()) ∧ bytes.length = len ∧
      ∀ i (h : i < bytes.length), nearestByte vms (gpa + i) = some bytes[i] := by
  have hbyte : ∀ i < len,
      nearestByte vms (gpa + i) = some ((nearestByte vms (gpa + i)).getD 0) := by
    intro i hi
    obtain ⟨b, hb⟩ := byteAt_pageData_of_full (hspan.2 i hi)
    rw [← byteAt_pageData_eq_nearestByte hmem (hspan.2 i hi), hb]
    rfl
  have hread : ∀ i < len, mem.readByte (gpa + i) = some ((nearestByte vms (gpa + i)).getD 0) :=
    fun i hi => (readByte_eq_nearestByte hmem (hspan.2 i hi)).trans (hbyte i hi)
  refine ⟨_, readGuestMemory_of_readByte hspan.1 hread, by simp, fun i h => ?_⟩
  · rw [length_map, length_range] at h
    rw [getElem_map, getElem_range]
    exact hbyte i h

theorem readGuestMemory_forked_empty {gpa len : Nat} (h : mem.isForked ∨ mem.InRoot gpa len) :
    (VmMemory.forked .empty mem).readGuestMemory gpa len = mem.readGuestMemory gpa len := by
  cases mem with
  | forked cow parent =>
    have hdata : (VmMemory.forked .empty (.forked cow parent)).pageData =
        (VmMemory.forked cow parent).pageData := by
      funext base
      simp only [VmMemory.pageData]
      rw [VmMemory.readPage, get_empty, readPage_pageBase]
    simp only [VmMemory.readGuestMemory, hdata]
  | root memory =>
    have hspan := h.resolve_left (by simp [VmMemory.isForked])
    have hdirect : (VmMemory.root memory).readGuestMemory gpa len =
        ((List.range len).map fun i => memory.bytes (gpa + i), .ok ()) := by
      apply readGuestMemory_of_readByte hspan.1
      intro i hi
      have hfull := hspan.2 i hi
      have haddr : pageBase (gpa + i) + (gpa + i) % PAGE_SIZE = gpa + i := pageStart_add_mod _
      have hmod := Nat.mod_lt (gpa + i) pageSize_pos
      simp only [VmMemory.memorySize] at hfull
      rw [readByte_root, if_pos (by omega)]
    rw [hdirect]
    apply readGuestMemory_of_readByte hspan.1
    intro i hi
    have hfull := hspan.2 i hi
    rw [VmMemory.memorySize] at hfull
    rw [readByte_forked, byteAt_pageData_forked, get_empty, byteAt_pageData_root, if_pos hfull]

namespace ForkTree

open VmMemory

def onePageTree : ForkTree :=
  [⟨(zeroVm (.root (zeroRegion 4096 onePage_le))).treeVm, none, true⟩]

end ForkTree

end Bedrock
