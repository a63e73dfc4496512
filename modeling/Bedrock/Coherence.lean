import Bedrock.Run
import Bedrock.Vm

/-!
# The map of copied pages and the page table

A forked VM keeps two records of which pages are its own: the map of copied pages and
the leaves of its page table.  They stay coherent for every page that lies fully
inside the root's region.  The root's page table also maps a partial last page, which
no fork can ever copy.
-/

namespace Bedrock

open Support VmMemory CowPageMap EptTables EptPageTable Program Option VmContext RootVm ForkedVm

namespace VmMemory

/-- The page of `g` lies fully inside the root's region. -/
def FullPage (mem : VmMemory) (g : Nat) : Prop :=
  pageBase g + PAGE_SIZE ≤ mem.memorySize

/-- Nothing outside the root's region has been copied by a VM or its ancestors. -/
def Within : VmMemory → Prop
  | root _ => True
  | forked cow parent => (∀ g, (cow.get g).isSome = true → parent.FullPage g) ∧ parent.Within

def copy : VmMemory → Nat → Option Page
  | root _, _ => none
  | forked cow _, g => cow.get g

theorem memorySize_le (mem : VmMemory) : mem.memorySize ≤ 2 ^ 48 := by
  induction mem with
  | root memory => exact memory.size_le
  | forked cow parent ih => exact ih

theorem FullPage.lt {mem : VmMemory} {g : Nat} (h : mem.FullPage g) : g < 2 ^ 48 := by
  have hsize := mem.memorySize_le
  simp only [FullPage, pageBase, pageStart, PAGE_SIZE] at h
  omega

theorem readPage_isSome_iff {mem : VmMemory} (h : mem.Within) (g : Nat) :
    (mem.readPage g).isSome ↔ mem.FullPage g := by
  induction mem generalizing g with
  | root memory =>
    simp only [readPage, FullPage, memorySize]
    split <;> simp_all
  | forked cow parent ih =>
    rw [readPage]
    cases hcopy : cow.get g with
    | some page => exact ⟨fun _ => h.1 g (by rw [hcopy]; rfl), fun _ => rfl⟩
    | none =>
      rw [ih h.2, FullPage, FullPage, memorySize]
      have hidem : pageBase (pageBase g) = pageBase g := pageStart_idem g
      rw [hidem]

end VmMemory

def VmContext.pebsPage (ctx : VmContext) : Option Nat :=
  ctx.state.precise.pebsState.map PebsState.dsManagementGpa

variable {g : Nat} {after ctx : VmContext} {cow : CowPageMap} {child parent : VmContext}

theorem EptTables.lookup_eq_of_page_eq (ept : EptTables) {g' : Nat}
    (h : pageBase g = pageBase g') : ept.lookup g = ept.lookup g' := by
  have hdiv : g / 4096 = g' / 4096 := by
    simp only [pageBase, pageStart, PAGE_SIZE] at h
    omega
  have hpath : tablePath g = tablePath g' := by
    simp only [tablePath, List.cons.injEq, and_true]
    omega
  have hindex : ptIndex g = ptIndex g' := by
    simp only [ptIndex]
    omega
  rw [lookup, lookup, hpath, hindex]

theorem pageBase_eq_iff (g g' : Nat) : pageBase g = pageBase g' ↔ g / 4096 = g' / 4096 := by
  simp only [pageBase, pageStart, PAGE_SIZE]
  omega

/-! ## Coherence -/

def forkPerms (copied : Bool) : EptPermissions :=
  if copied then .READ_WRITE_EXECUTE else .READ_EXECUTE

/-- On pages fully inside the root's region the page table agrees with what `read_page`
finds, and in a fork a leaf is writable exactly if the page is copied; the page
registered for precise exits is excepted. -/
structure Coherent (ctx : VmContext) : Prop where
  within : ctx.memory.Within
  leaf : ∀ g frame perms, ctx.memory.FullPage g →
    ctx.state.ept.lookup g = some (frame, perms) →
    (ctx.memory.readPage g).map Page.frame = some frame ∧
    (ctx.memory.isForked = true →
      perms = forkPerms (ctx.memory.copy g).isSome ∨
        (ctx.memory.copy g).isSome = true ∧ ctx.pebsPage = some (pageBase g))

/-- One operation on a VM keeps it coherent and keeps what it maps. -/
structure Advance (before after : VmContext) : Prop where
  coherent : Coherent before → Coherent after
  mapped : ∀ g, (after.state.ept.lookup g).isSome = (before.state.ept.lookup g).isSome
  base : SameBase before.memory after.memory
  size : after.memory.memorySize = before.memory.memorySize

namespace Advance

theorem refl (ctx : VmContext) : Advance ctx ctx :=
  ⟨id, fun _ => rfl, .refl _, rfl⟩

theorem trans {a b c : VmContext} (hab : Advance a b) (hbc : Advance b c) : Advance a c :=
  ⟨fun h => hbc.coherent (hab.coherent h), fun g => (hbc.mapped g).trans (hab.mapped g),
    hab.base.trans hbc.base, hbc.size.trans hab.size⟩

/-- A fork keeps its parent. -/
theorem forked {before after : VmContext} {parent : VmMemory}
    (h : Advance before after) (hmem : before.memory = .forked cow parent) :
    ∃ cow', after.memory = .forked cow' parent := by
  have hbase := h.base
  rw [hmem] at hbase
  cases hafter : after.memory with
  | root _ =>
    rw [hafter] at hbase
    exact hbase.elim
  | forked cow' parent' =>
    rw [hafter] at hbase
    exact ⟨cow', congrArg (VmMemory.forked cow') hbase⟩

end Advance

theorem Coherent.withCopy {parent : VmMemory}
    {page : Page} {frame : HostFrame} (h : Coherent ctx) (hmem : ctx.memory = .forked cow parent)
    (hpage : parent.readPage g = some page)
    (hafter : after.memory = .forked (cow.insert g ⟨frame, page.data⟩) parent)
    (hpebs : after.pebsPage = ctx.pebsPage)
    (hlookup : ∀ a, parent.FullPage a → after.state.ept.lookup a =
      if pageBase a = pageBase g then (ctx.state.ept.lookup g).map fun _ =>
        (frame, EptPermissions.READ_WRITE_EXECUTE)
      else ctx.state.ept.lookup a) : Coherent after := by
  have hwithin := h.within
  rw [hmem] at hwithin
  have hfull : parent.FullPage g :=
    (readPage_isSome_iff hwithin.2 g).mp (by rw [hpage]; rfl)
  refine ⟨?_, fun a leafFrame perms ha hleaf => ?_⟩
  · rw [hafter]
    refine ⟨fun a ha => ?_, hwithin.2⟩
    rw [get_insert] at ha
    split at ha
    · rename_i hsame
      rw [FullPage, hsame]
      exact hfull
    · exact hwithin.1 a ha
  · rw [hafter] at ha ⊢
    have ha' : parent.FullPage a := ha
    rw [hlookup a ha'] at hleaf
    simp only [readPage, copy, get_insert]
    by_cases hsame : pageBase a = pageBase g
    · rw [if_pos hsame] at hleaf
      simp only [map_eq_some_iff, Prod.mk.injEq] at hleaf
      obtain ⟨_, -, rfl, rfl⟩ := hleaf
      simp [hsame, forkPerms]
    · rw [if_neg hsame] at hleaf
      obtain ⟨hframe, hperms⟩ := h.leaf a leafFrame perms (by rw [hmem]; exact ha') hleaf
      rw [hmem] at hframe hperms
      simp only [readPage, copy] at hframe hperms
      rw [if_neg hsame, hpebs]
      exact ⟨hframe, hperms⟩

/-! ## The operations -/

theorem copyPage_advance {parent : VmMemory} (hmem : ctx.memory = .forked cow parent) (g : Nat) :
    Advance ctx (ctx.copyPage cow parent g).2 := by
  rcases ctx.copyPage_cases cow parent g with
    ⟨heq, -⟩ | ⟨grant, page, -, -, hpage, ⟨hnone, heq⟩ | ⟨ept, hremap, hmapped, heq⟩⟩
  · rw [heq]
    exact ⟨fun h => ⟨h.within, h.leaf⟩, fun _ => rfl, .refl _, rfl⟩
  · -- the page is not mapped, so the copy without a leaf is coherent
    rw [heq]
    refine ⟨fun h => h.withCopy hmem hpage rfl rfl fun a _ => ?_, fun _ => rfl, ?_, ?_⟩
    · split
      · rename_i hsame
        rw [hnone]
        exact (lookup_eq_of_page_eq _ hsame).trans hnone
      · rfl
    all_goals
      rw [hmem]
      rfl
  · rw [heq]
    refine ⟨fun h => h.withCopy hmem hpage rfl rfl fun a ha => ?_,
      lookup_isSome_remap (by decide) hremap, ?_, ?_⟩
    · have hwithin := h.within
      rw [hmem] at hwithin
      have hfull : parent.FullPage g :=
        (readPage_isSome_iff hwithin.2 g).mp (by rw [hpage]; rfl)
      obtain ⟨m, hm⟩ := isSome_iff_exists.mp hmapped
      simp only [setEpt, withCopy, setMemory, allocateCowPage]
      rw [lookup_remap (by decide) hremap hfull.lt ha.lt, hm]
      simp only [pageBase_eq_iff, map_some]
    all_goals
      rw [hmem]
      rfl

theorem handleCowFault_advance (ctx : VmContext) (gpa : Nat) :
    Advance ctx (ctx.handleCowFault gpa).2 := by
  unfold VmContext.handleCowFault
  split
  · exact .refl ctx
  rename_i cow parent hmem
  split
  · exact .refl ctx
  have hcopy := copyPage_advance hmem (pageBase gpa)
  split
  all_goals
    rename_i heq
    rw [heq] at hcopy
    exact hcopy

theorem preCowIoChannelPage_advance (ctx : VmContext) : Advance ctx ctx.preCowIoChannelPage := by
  unfold VmContext.preCowIoChannelPage
  split
  · exact .refl ctx
  rename_i cow parent hmem
  dsimp only
  split
  · exact .refl ctx
  split
  · exact .refl ctx
  · exact copyPage_advance hmem _

theorem cowFeedbackPage_advance (ctx : VmContext) (g : Nat) : Advance ctx (ctx.cowFeedbackPage g) := by
  unfold cowFeedbackPage
  split
  · exact .refl ctx
  rename_i cow parent hmem
  split
  · exact .refl ctx
  · exact copyPage_advance hmem _

theorem cowFeedbackPages_advance (gpas : List Nat) (ctx : VmContext) :
    Advance ctx (gpas.foldl cowFeedbackPage ctx) := by
  induction gpas generalizing ctx with
  | nil => exact .refl ctx
  | cons g gpas ih => exact (cowFeedbackPage_advance ctx g).trans (ih _)

theorem cowFeedbackBufferForMapping_advance (ctx : VmContext) (index : Nat) :
    Advance ctx (ctx.cowFeedbackBufferForMapping index) := by
  unfold cowFeedbackBufferForMapping
  split
  · exact .refl ctx
  · exact cowFeedbackPages_advance _ ctx

/-- Everything else that happens to a VM: its page table, its registered page and the
frames of its memory stay. -/
structure Elsewhere (before after : VmContext) : Prop where
  ept : after.state.ept = before.state.ept
  pebsPage : after.pebsPage = before.pebsPage
  memory : GuestStores before.memory after.memory

/-- Stores keep everything about a memory except its bytes. -/
theorem GuestStores.frames {mem mem' : VmMemory} (h : GuestStores mem mem') :
    SameBase mem mem' ∧ mem'.memorySize = mem.memorySize ∧
      mem'.isForked = mem.isForked ∧ (mem.Within → mem'.Within) ∧
      (∀ g, (mem'.copy g).map Page.frame = (mem.copy g).map Page.frame) ∧
      ∀ g, (mem'.readPage g).map Page.frame = (mem.readPage g).map Page.frame := by
  cases mem with
  | root memory =>
    cases mem' with
    | forked _ _ => exact h.elim
    | root memory' =>
      obtain ⟨hsize, hphys⟩ := h
      refine ⟨trivial, hsize, rfl, id, fun _ => rfl, fun g => ?_⟩
      simp only [readPage, hsize, hphys]
      split <;> rfl
  | forked cow parent =>
    cases mem' with
    | root _ => exact h.elim
    | forked cow' parent' =>
      obtain ⟨rfl, hframes⟩ := h
      refine ⟨rfl, rfl, rfl, fun hwithin => ⟨fun g hg => ?_, hwithin.2⟩, hframes, fun g => ?_⟩
      · apply hwithin.1 g
        have hframe := congrArg Option.isSome (hframes g)
        rw [isSome_map, isSome_map] at hframe
        rw [← hframe, hg]
      · have hframe := hframes g
        simp only [readPage]
        cases hnew : cow'.get g <;> cases hold : cow.get g <;>
          simp_all

theorem Elsewhere.advance {before : VmContext} (h : Elsewhere before after) :
    Advance before after := by
  obtain ⟨hbase, hsize, hforked, hwithin, hcopy, hread⟩ := h.memory.frames
  have hsome : ∀ g, (after.memory.copy g).isSome = (before.memory.copy g).isSome := by
    intro g
    have hframe := congrArg Option.isSome (hcopy g)
    rwa [isSome_map, isSome_map] at hframe
  refine ⟨fun hcoh => ⟨hwithin hcoh.within, fun g frame perms hfull hleaf => ?_⟩,
    fun g => by rw [h.ept], hbase, hsize⟩
  rw [FullPage, hsize] at hfull
  rw [h.ept] at hleaf
  rw [hread, hforked, hsome, h.pebsPage]
  exact hcoh.leaf g frame perms hfull hleaf

theorem writeGuestMemory_guestStores (mem : VmMemory) (gpa : Nat) (bytes : List UInt8) :
    GuestStores mem (mem.writeGuestMemory gpa bytes).2 := by
  cases mem with
  | root memory =>
    unfold VmMemory.writeGuestMemory
    dsimp only
    split <;> exact ⟨rfl, rfl⟩
  | forked cow parent =>
    exact ⟨rfl, fun a => writeSpan_frames cow (bytes.length + 1) gpa bytes a⟩

theorem setMemory_advance (ctx : VmContext) (gpa : Nat) (bytes : List UInt8) :
    Advance ctx (ctx.setMemory (ctx.memory.writeGuestMemory gpa bytes).2) :=
  Elsewhere.advance ⟨rfl, rfl, writeGuestMemory_guestStores _ _ _⟩

theorem VmMemory.lt_of_canWrite {mem : VmMemory} (hwithin : mem.Within) {a : Nat}
    (h : mem.canWrite a) : a < 2 ^ 48 := by
  cases mem with
  | root memory =>
    have hsize := memory.size_le
    simp only [canWrite, decide_eq_true_eq] at h
    omega
  | forked cow parent =>
    rw [canWrite, contains_eq_isSome_get] at h
    exact (hwithin.1 a h).lt

theorem Coherent.protect {frame : HostFrame}
    {perms : EptPermissions} {ept : EptPageTable} (h : Coherent ctx) (hpebs : ctx.pebsPage = none)
    (haligned : pageBase g = g) (hwrite : ctx.memory.canWrite g)
    (hleaf : ctx.state.ept.lookup g = some (frame, perms))
    (hremap : ctx.state.ept.remap g frame .READ_EXECUTE = .ok ept)
    (hmemory : after.memory = ctx.memory) (hept : after.state.ept = ept)
    (hafter : after.pebsPage = some g) : Coherent after := by
  refine ⟨by rw [hmemory]; exact h.within, fun a leafFrame leafPerms hfull ha => ?_⟩
  rw [hmemory] at hfull
  rw [hept, lookup_remap (by decide) hremap (lt_of_canWrite h.within hwrite) hfull.lt] at ha
  rw [hmemory, hafter]
  by_cases hsame : pageBase a = pageBase g
  · rw [if_pos ((pageBase_eq_iff a g).mp hsame)] at ha
    cases ha
    have hold := h.leaf a frame perms hfull
      ((lookup_eq_of_page_eq _ hsame).trans hleaf)
    refine ⟨hold.1, fun hforked => .inr ⟨?_, by rw [hsame, haligned]⟩⟩
    -- a fork can write only what it has copied
    cases hmem : ctx.memory with
    | root memory =>
      rw [hmem] at hforked
      cases hforked
    | forked cow parent =>
      rw [hmem, canWrite, contains_eq_isSome_get, ← cow.get_pageBase,
        ← hsame, cow.get_pageBase] at hwrite
      exact hwrite
  · rw [if_neg (mt (pageBase_eq_iff a g).mpr hsame)] at ha
    obtain ⟨hframe, hperms⟩ := h.leaf a leafFrame leafPerms hfull ha
    refine ⟨hframe, fun hforked => .inl ?_⟩
    rcases hperms hforked with hperms | ⟨-, hregistered⟩
    · exact hperms
    · rw [hpebs] at hregistered
      cases hregistered

theorem length_dsManagementAreaBytes (va : UInt64) : (dsManagementAreaBytes va).length = 160 := by
  simp [dsManagementAreaBytes]

theorem installPebsPage_advance (hpebs : ctx.pebsPage = none)
    (haligned : pageBase g = g) : Advance ctx (ctx.installPebsPage g).2 := by
  rw [VmContext.installPebsPage]
  dsimp only
  split
  · exact .refl ctx
  have hstored := setMemory_advance ctx g
    (dsManagementAreaBytes (GUEST_LINUX_PAGE_OFFSET + UInt64.ofNat g))
  obtain ⟨count, hwrote⟩ := ctx.memory.writeGuestMemory_spec g
    (dsManagementAreaBytes (GUEST_LINUX_PAGE_OFFSET + UInt64.ofNat g))
  split
  · rename_i heq
    rw [heq] at hstored
    exact hstored
  rename_i memory heq
  rw [heq] at hstored hwrote
  have hcount : count = 160 := (hwrote.complete rfl).trans (length_dsManagementAreaBytes _)
  have hwrite : memory.canWrite g := by
    rw [hwrote.canWrite]
    exact hwrote.accepted 0 (by omega)
  split
  · exact hstored
  rename_i frame perms hleaf
  split
  · exact hstored
  rename_i ept hremap
  refine hstored.trans ⟨fun h => h.protect hpebs haligned hwrite hleaf hremap rfl rfl rfl,
    lookup_isSome_remap (by decide) hremap, .refl _, rfl⟩

theorem registerPebsPage_state (pageVa : UInt64) (ctx : VmContext) :
    (registerPebsPage pageVa ctx).2 = ctx ∨
      ctx.pebsPage = none ∧
        ∃ gpa, (registerPebsPage pageVa ctx).2 = (ctx.installPebsPage (pageBase gpa)).2 := by
  unfold registerPebsPage getConfig pebsRegistered
  rw [act_bind]
  dsimp only
  split
  · exact .inl rfl
  split
  · exact .inl rfl
  rw [act_bind]
  dsimp only
  split
  · exact .inl rfl
  rename_i hregistered
  have hnone : ctx.pebsPage = none := by
    rw [pebsPage, not_isSome_iff_eq_none.mp hregistered]
    rfl
  unfold handle
  rw [bind_ok (attempt_apply _ _)]
  rw [readOnly_state (translateGvaToGpa_built pageVa) ctx]
  cases (translateGvaToGpa pageVa ctx).1 with
  | error _ => exact .inl rfl
  | ok gpa => exact .inr ⟨hnone, gpa, rfl⟩

theorem registerPebsPage_advance (pageVa : UInt64) (ctx : VmContext) :
    Advance ctx (registerPebsPage pageVa ctx).2 := by
  rcases registerPebsPage_state pageVa ctx with heq | ⟨hnone, gpa, heq⟩
  · rw [heq]
    exact .refl ctx
  · rw [heq]
    exact installPebsPage_advance hnone (pageStart_idem gpa)

/-! ## Whole histories -/

/-- What can happen to a VM, with whatever outcome of allocations and insertions its
host inputs hold. -/
inductive CowOp (ctx : VmContext) : VmContext → Prop
  | cowFault (gpa : Nat) : CowOp ctx (ctx.handleCowFault gpa).2
  | preCow : CowOp ctx ctx.preCowIoChannelPage
  | feedback (index : Nat) : CowOp ctx (ctx.cowFeedbackBufferForMapping index)
  | registerPebs (pageVa : UInt64) : CowOp ctx (registerPebsPage pageVa ctx).2
  | elsewhere {after : VmContext} (h : Elsewhere ctx after) : CowOp ctx after

theorem CowOp.advance (h : CowOp ctx after) : Advance ctx after := by
  cases h with
  | cowFault gpa => exact handleCowFault_advance ctx gpa
  | preCow => exact preCowIoChannelPage_advance ctx
  | feedback index => exact cowFeedbackBufferForMapping_advance ctx index
  | registerPebs pageVa => exact registerPebsPage_advance pageVa ctx
  | elsewhere h => exact h.advance

theorem advance_of_ops (h : Relation.ReflTransGen CowOp ctx after) : Advance ctx after := by
  induction h with
  | refl => exact .refl ctx
  | tail _ hop ih => exact ih.trans hop.advance

/-- VMs that are created, forked and operated on. -/
inductive VmReached : VmContext → Prop
  | root {memory : GuestMemory} {supply : FrameSupply} {machine : Machine}
      {setup : Except VmStateError Vmcs} {tscFrequency : Nat} {pebsSupported : Bool}
      {ctx : VmContext}
      (h : new memory supply machine setup tscFrequency pebsSupported = .ok ctx) :
      VmReached ctx
  | fork {parent child : VmContext} {host : ForkHost} (hparent : VmReached parent)
      (h : new parent host = .ok child) : VmReached child
  | op {ctx after : VmContext} (hctx : VmReached ctx) (h : CowOp ctx after) : VmReached after

theorem RootVm.new_coherent {memory : GuestMemory} {supply : FrameSupply} {machine : Machine}
    {setup : Except VmStateError Vmcs} {tscFrequency : Nat} {pebsSupported : Bool}
    (h : new memory supply machine setup tscFrequency pebsSupported = .ok ctx) :
    Coherent ctx := by
  obtain ⟨hmem, -, hlookup⟩ := new_spec h
  refine ⟨by rw [hmem]; trivial, fun g frame perms hfull hleaf => ?_⟩
  rw [hlookup g hfull.lt] at hleaf
  rw [hmem] at hfull ⊢
  split at hleaf
  · cases hleaf
    rw [FullPage, memorySize] at hfull
    refine ⟨?_, fun hforked => by cases hforked⟩
    rw [readPage, if_pos hfull]
    rfl
  · cases hleaf

theorem FreshFork.coherent (hparent : Coherent parent)
    (h : FreshFork parent child) : Coherent child := by
  refine ⟨?_, fun g frame perms hfull hleaf => ?_⟩
  · rw [h.memory]
    exact ⟨fun g hg => by simp at hg, hparent.within⟩
  rw [h.memory] at hfull ⊢
  rw [h.lookup, map_eq_some_iff] at hleaf
  obtain ⟨⟨leafFrame, leafPerms⟩, hleaf, heq⟩ := hleaf
  cases heq
  obtain ⟨hframe, -⟩ := hparent.leaf g leafFrame leafPerms hfull hleaf
  simp only [readPage, copy, get_empty, readPage_pageBase]
  exact ⟨hframe, fun _ => .inl rfl⟩

theorem VmReached.coherent (h : VmReached ctx) : Coherent ctx := by
  induction h with
  | root h => exact new_coherent h
  | fork _ h ih =>
    obtain ⟨fresh, hfresh, rfl⟩ := new_spec h
    exact (preCowIoChannelPage_advance fresh).coherent (hfresh.coherent ih)
  | op _ h ih => exact h.advance.coherent ih

/-- What the map of copied pages and the page table of a fork should say about a page
of its parent. -/
def LeafCoherent (parent child : VmContext) (g : Nat) : Prop :=
  match child.memory.copy g with
  | some page =>
    ∃ perms, child.state.ept.lookup g = some (page.frame, perms) ∧
      (perms = .READ_WRITE_EXECUTE ∨ child.pebsPage = some (pageBase g))
  | none =>
    ∃ page, parent.memory.readPage g = some page ∧
      child.state.ept.lookup g = some (page.frame, .READ_EXECUTE)

theorem forked_memory {fresh : VmContext} (hfresh : FreshFork parent fresh)
    (hadvance : Advance fresh child) : ∃ cow, child.memory = .forked cow parent.memory :=
  hadvance.forked hfresh.memory

theorem LeafCoherent.fullPage
    (h : LeafCoherent parent child g) (hmem : child.memory = .forked cow parent.memory)
    (hwithin : child.memory.Within) : parent.memory.FullPage g := by
  rw [hmem] at hwithin
  simp only [LeafCoherent, hmem, copy] at h
  cases hcopy : cow.get g with
  | some page => exact hwithin.1 g (by rw [hcopy]; rfl)
  | none =>
    rw [hcopy] at h
    obtain ⟨page, hpage, -⟩ := h
    exact (readPage_isSome_iff hwithin.2 g).mp (by rw [hpage]; rfl)

/-- A fork after any operations: a page its parent maps is coherent exactly if it lies
fully inside the root's region. -/
theorem forked_leafCoherent_iff {parent first child : VmContext} {host : ForkHost}
    (hparent : VmReached parent) (hfork : ForkedVm.new parent host = .ok first)
    (hops : Relation.ReflTransGen CowOp first child) {g : Nat}
    (hmapped : (parent.state.ept.lookup g).isSome = true) :
    LeafCoherent parent child g ↔ pageBase g + PAGE_SIZE ≤ parent.memory.memorySize := by
  obtain ⟨fresh, hfresh, rfl⟩ := ForkedVm.new_spec hfork
  have hadvance := (preCowIoChannelPage_advance fresh).trans (advance_of_ops hops)
  have hcoherent := hadvance.coherent (hfresh.coherent hparent.coherent)
  obtain ⟨cow, hmem⟩ := forked_memory hfresh hadvance
  have hleaf : (child.state.ept.lookup g).isSome = true := by
    rw [hadvance.mapped, hfresh.lookup, Option.isSome_map]
    exact hmapped
  obtain ⟨⟨frame, perms⟩, hleaf⟩ := Option.isSome_iff_exists.mp hleaf
  constructor
  · intro h
    exact h.fullPage hmem hcoherent.within
  intro h
  have hfull : child.memory.FullPage g := by rw [hmem]; exact h
  obtain ⟨hframe, hperms⟩ := hcoherent.leaf g frame perms hfull hleaf
  have hperms := hperms (by rw [hmem]; rfl)
  simp only [LeafCoherent, hleaf, hmem, VmMemory.copy]
  rw [hmem] at hframe hperms
  simp only [VmMemory.readPage, VmMemory.copy] at hframe hperms
  cases hcopy : cow.get g with
  | some page =>
    simp only [hcopy, Option.map_some, Option.some.injEq] at hframe
    refine ⟨perms, by rw [hframe], ?_⟩
    rcases hperms with hperms | ⟨-, hregistered⟩
    · exact .inl (by rw [hperms, hcopy]; rfl)
    · exact .inr hregistered
  | none =>
    simp only [hcopy, VmMemory.readPage_pageBase, Option.map_eq_some_iff] at hframe
    obtain ⟨page, hpage, rfl⟩ := hframe
    refine ⟨page, hpage, ?_⟩
    rcases hperms with hperms | ⟨hcopied, -⟩
    · rw [hperms, hcopy]
      rfl
    · rw [hcopy] at hcopied
      cases hcopied

/-! Two root VMs, one with a full page and one with 100 bytes of memory, and a fork of
each. -/

def sampleFork (size : Nat) (h : size ≤ 2 ^ 48) : Except ForkedVmError VmContext :=
  let sample := zeroVm (.root (zeroRegion size h))
  match new (zeroRegion size h) rootFrames sample.machine (.ok sample.state.vmcs) 0 false with
  | .ok parent => new parent { supply := forkFrames }
  | .error _ => .error .vmcsAlloc

theorem sampleFork_spec {size : Nat} {h : size ≤ 2 ^ 48}
    (hok : sampleFork size h = .ok child) (hsize : 0 < size) :
    ∃ parent host, VmReached parent ∧ parent.memory.memorySize = size ∧
      (parent.state.ept.lookup 0).isSome ∧ new parent host = .ok child := by
  unfold sampleFork at hok
  dsimp only at hok
  split at hok
  · rename_i parent hroot
    obtain ⟨hmem, -, hlookup⟩ := new_spec hroot
    refine ⟨parent, _, .root hroot, by rw [hmem]; rfl, ?_, hok⟩
    rw [hlookup 0 (by decide), if_pos ⟨hsize, by decide, by decide⟩]
    rfl
  · cases hok

/-- With 100 bytes of memory page 0 is mapped, but a fork finds no frame for it. -/
theorem forked_leaf_incoherent :
    ∃ parent child host, VmReached parent ∧ ForkedVm.new parent host = .ok child ∧
      (parent.state.ept.lookup 0).isSome = true ∧ ¬LeafCoherent parent child 0 := by
  have hok : (sampleFork 100 (by decide)).isOk = true := by decide +kernel
  cases hsample : sampleFork 100 (by decide) with
  | error e =>
    rw [hsample] at hok
    cases hok
  | ok child =>
    obtain ⟨parent, host, hparent, hsize, hmapped, hfork⟩ := sampleFork_spec hsample (by decide)
    refine ⟨parent, child, host, hparent, hfork, hmapped, fun h => ?_⟩
    obtain ⟨fresh, hfresh, rfl⟩ := ForkedVm.new_spec hfork
    have hadvance := preCowIoChannelPage_advance fresh
    obtain ⟨cow, hmem⟩ := forked_memory hfresh hadvance
    have hfull := h.fullPage hmem (hadvance.coherent (hfresh.coherent hparent.coherent)).within
    rw [VmMemory.FullPage, hsize] at hfull
    revert hfull
    decide

def onePageFork : VmContext :=
  match sampleFork 4096 onePage_le with
  | .ok child => child
  | .error _ => newVm

theorem onePageFork_facts :
    (onePageFork.memory.isForked && (onePageFork.memory.copy 0).isNone &&
      (onePageFork.state.vmcs.fields.readFault .guestPhysicalAddr).isNone) := by
  decide +kernel

theorem onePageFork_spec :
    ∃ parent host, VmReached parent ∧ parent.memory.memorySize = 4096 ∧
      (parent.state.ept.lookup 0).isSome ∧ new parent host = .ok onePageFork := by
  have hfacts := onePageFork_facts
  unfold onePageFork at hfacts ⊢
  cases hsample : sampleFork 4096 onePage_le with
  | error e =>
    rw [hsample] at hfacts
    cases hfacts
  | ok child => exact sampleFork_spec hsample (by decide)

theorem forked_leafCoherent_onePage :
    ∃ parent host, VmReached parent ∧ ForkedVm.new parent host = .ok onePageFork ∧
      LeafCoherent parent onePageFork 0 := by
  obtain ⟨parent, host, hparent, hsize, hmapped, hfork⟩ := onePageFork_spec
  refine ⟨parent, host, hparent, hfork, ?_⟩
  exact (forked_leafCoherent_iff hparent hfork .refl hmapped).mpr (by rw [hsize]; decide)

end Bedrock
