import Bedrock.FeedbackMapping
import Bedrock.Support.Walk

/-!
# The write-protected page of the precise exit

The record the processor writes when the armed counter overflows causes the precise
exit only because the page it is written to is mapped without write access.  The page
is protected when the guest registers it, and a fork inherits the registration together
with a read-only leaf.  The paths that copy a page for a fork do not know about the
registration: whichever of them copies the registered page makes its leaf writable.
-/

namespace Bedrock

open Support CowPageMap VmMemory EptPageTable VmContext List Option ForkedVm EptPermissions RootVm

/-- What happens to a VM: one of the operations that copy pages or protect one, a fork,
after which the child is followed, or anything else. -/
inductive MemoryMove
  | cowFault (gpa : Nat)
  | preCow
  | feedback (index : Nat)
  | registerPebs (pageVa : UInt64)
  | elsewhere
  | fork (host : ForkHost)

abbrev MemoryStep : Type :=
  Transition VmContext MemoryMove

inductive MemoryStep.Valid : MemoryStep → Prop
  | cowFault (ctx : VmContext) (gpa : Nat) : Valid ⟨ctx, .cowFault gpa, (ctx.handleCowFault gpa).2⟩
  | preCow (ctx : VmContext) : Valid ⟨ctx, .preCow, ctx.preCowIoChannelPage⟩
  | feedback (ctx : VmContext) (index : Nat) :
      Valid ⟨ctx, .feedback index, ctx.cowFeedbackBufferForMapping index⟩
  | registerPebs (ctx : VmContext) (pageVa : UInt64) :
      Valid ⟨ctx, .registerPebs pageVa, (registerPebsPage pageVa ctx).2⟩
  | elsewhere {ctx after : VmContext} (h : Elsewhere ctx after) : Valid ⟨ctx, .elsewhere, after⟩
  | fork {parent child : VmContext} {host : ForkHost} (h : new parent host = .ok child) :
      Valid ⟨parent, .fork host, child⟩

/-- A history from a VM to itself or to a VM forked from it, over any generations. -/
def MemoryRun (ctx : VmContext) (ts : List MemoryStep) (ctx' : VmContext) : Prop :=
  Walk ctx ts ctx' ∧ ∀ t ∈ ts, t.Valid

namespace VmContext

/-- A record written to the registered page causes an exit. -/
def TrapsPebs (ctx : VmContext) : Prop :=
  ∀ g m, ctx.pebsPage = some g → ctx.state.ept.lookup g = some m → m.2.writable = false

def requestedPages (ctx : VmContext) : MemoryMove → List Nat
  | .cowFault gpa => [pageBase gpa]
  | .preCow =>
    if ctx.state.guest.ioChannel.pageGpa = 0 then []
    else [pageBase ctx.state.guest.ioChannel.pageGpa]
  | .feedback index =>
    match ctx.state.guest.feedbackBuffers[index]? with
    | none => []
    | some buffer => buffer.gpas
  | _ => []

/-- The VM is a fork that has no copy of the page and is granted a frame for it. -/
def CopiesPage (ctx : VmContext) (gpas : List Nat) (g : Nat) : Prop :=
  ctx.memory.isForked = true ∧ ctx.memory.copy g = none ∧
    ∃ r ∈ ctx.cowRequests gpas, pageBase r.1 = g ∧ Granted r.2

end VmContext

/-- The step copies the page registered for precise exits for a fork.  A fork copies the
page of the I/O channel at its creation; a page that ends outside the root's region
cannot be copied. -/
def MemoryStep.CopiesPebsPage (t : MemoryStep) : Prop :=
  ∃ g, t.pre.pebsPage = some g ∧ (t.pre.memory.readPage g).isSome = true ∧
    match t.label with
    | .fork host => g ∈ t.pre.requestedPages .preCow ∧ Granted (host.cowPages.headD none)
    | move => t.pre.CopiesPage (t.pre.requestedPages move) g

/-! ## One page along the copies -/

theorem EptPermissions.writable_READ_EXECUTE : READ_EXECUTE.writable = false := by
  decide

theorem EptPermissions.writable_READ_WRITE_EXECUTE :
    READ_WRITE_EXECUTE.writable := by
  decide

/-- What copying pages does to the leaf of one page: it stays unless the page becomes
copied, and then it is writable. -/
structure LeafStep (g : Nat) (before after : VmContext) : Prop where
  pebsPage : after.pebsPage = before.pebsPage
  copied : (before.memory.copy g).isSome = true → (after.memory.copy g).isSome = true
  kept : (before.memory.copy g).isSome = true ∨ (after.memory.copy g).isSome = false →
    after.state.ept.lookup g = before.state.ept.lookup g
  opened : (before.memory.copy g).isSome = false → (after.memory.copy g).isSome = true →
    (before.state.ept.lookup g).isSome = true →
    ∃ m, after.state.ept.lookup g = some m ∧ m.2.writable = true

namespace LeafStep

variable {g : Nat} {a b c : VmContext}

theorem of_unchanged (hpebs : b.pebsPage = a.pebsPage) (hept : b.state.ept = a.state.ept)
    (hcopy : (b.memory.copy g).isSome = (a.memory.copy g).isSome) : LeafStep g a b := by
  refine ⟨hpebs, fun h => by rw [hcopy]; exact h, fun _ => by rw [hept], fun hnew hcopied => ?_⟩
  rw [hcopy, hnew] at hcopied
  cases hcopied

theorem refl (g : Nat) (ctx : VmContext) : LeafStep g ctx ctx :=
  of_unchanged rfl rfl rfl

theorem trans (hab : LeafStep g a b) (hbc : LeafStep g b c) : LeafStep g a c := by
  refine ⟨hbc.pebsPage.trans hab.pebsPage, fun h => hbc.copied (hab.copied h), fun h => ?_,
    fun hnew hcopied hmapped => ?_⟩
  · rcases h with hcopied | hnew
    · exact (hbc.kept (.inl (hab.copied hcopied))).trans (hab.kept (.inl hcopied))
    have hmiddle : (b.memory.copy g).isSome = false :=
      Bool.eq_false_iff.mpr fun h => Bool.eq_false_iff.mp hnew (hbc.copied h)
    exact (hbc.kept (.inr hnew)).trans (hab.kept (.inr hmiddle))
  cases hmiddle : (b.memory.copy g).isSome with
  | true =>
    obtain ⟨m, hm, hwritable⟩ := hab.opened hnew hmiddle hmapped
    exact ⟨m, (hbc.kept (.inl hmiddle)).trans hm, hwritable⟩
  | false =>
    refine hbc.opened hmiddle hcopied ?_
    rw [hab.kept (.inr hmiddle)]
    exact hmapped

end LeafStep

variable {ctx after : VmContext} {cow : CowPageMap} {parent : VmMemory} {g a : Nat}

theorem copy_withCopy_isSome (hmem : ctx.memory = .forked cow parent) (page : Page) :
    ((forked (cow.insert a page) parent).copy g).isSome =
      (decide (pageBase g = pageBase a) || (ctx.memory.copy g).isSome) := by
  rw [copy, get_insert, hmem, copy]
  by_cases hsame : pageBase g = pageBase a
  · rw [if_pos hsame, decide_eq_true hsame]
    rfl
  · rw [if_neg hsame, decide_eq_false hsame, Bool.false_or]

theorem copyPage_leafStep (hcoh : Coherent ctx) (hmem : ctx.memory = .forked cow parent)
    (hnew : (ctx.memory.copy a).isSome = false) (hg : g < 2 ^ 48) :
    LeafStep g ctx (ctx.copyPage cow parent a).2 := by
  -- pages that are the same page have the same copy
  have hsame : pageBase g = pageBase a → (ctx.memory.copy g).isSome = false := by
    intro hpage
    rw [hmem, copy] at hnew ⊢
    rw [← cow.get_pageBase, hpage, cow.get_pageBase]
    exact hnew
  rcases ctx.copyPage_cases cow parent a with
    ⟨heq, -⟩ | ⟨grant, page, -, -, hpage, hdone⟩
  · rw [heq]
    exact .of_unchanged rfl rfl rfl
  have hcopy := copy_withCopy_isSome (g := g) (a := a) hmem ⟨grant.frame, page.data⟩
  -- only this page is newly copied
  have hpages : (ctx.memory.copy g).isSome = false →
      ((forked (cow.insert a ⟨grant.frame, page.data⟩) parent).copy g).isSome →
      pageBase g = pageBase a := by
    intro hfresh hcopied
    have h := hcopy.symm.trans hcopied
    rw [hfresh, Bool.or_false, decide_eq_true_eq] at h
    exact h
  rcases hdone with ⟨hunmapped, heq⟩ | ⟨ept, hremap, -, heq⟩
  · rw [heq]
    refine ⟨rfl, fun h => ?_, fun _ => rfl, fun hfresh hcopied hmapped => ?_⟩
    · exact hcopy.trans (by rw [h, Bool.or_true])
    · rw [EptTables.lookup_eq_of_page_eq _ (hpages hfresh hcopied), hunmapped] at hmapped
      cases hmapped
  have hwithin := hcoh.within
  rw [hmem] at hwithin
  have hfull : parent.FullPage a :=
    (readPage_isSome_iff hwithin.2 a).mp (by rw [hpage]; rfl)
  have hlookup := lookup_remap (by decide) hremap hfull.lt hg
  rw [heq]
  refine ⟨rfl, fun h => ?_, fun h => ?_, fun hfresh hcopied _ => ?_⟩
  · exact hcopy.trans (by rw [h, Bool.or_true])
  · refine hlookup.trans (if_neg fun hdiv => ?_)
    have hpages := (pageBase_eq_iff g a).mpr hdiv
    rcases h with h | h
    · rw [hsame hpages] at h
      cases h
    have hcopied := hcopy.symm.trans h
    rw [decide_eq_true hpages] at hcopied
    cases hcopied
  · refine ⟨_, hlookup.trans (if_pos ((pageBase_eq_iff g a).mp (hpages hfresh hcopied))), ?_⟩
    exact writable_READ_WRITE_EXECUTE

theorem cowFeedbackPage_leafStep (hcoh : Coherent ctx) (hg : g < 2 ^ 48) (a : Nat) :
    LeafStep g ctx (ctx.cowFeedbackPage a) := by
  cases hcopied : (ctx.memory.copy a).isSome with
  | true =>
    rw [cowFeedbackPage_of_copied hcopied]
    exact .refl g ctx
  | false =>
    cases hmem : ctx.memory with
    | root memory =>
      have heq : ctx.cowFeedbackPage a = ctx := by
        rw [cowFeedbackPage, hmem]
      rw [heq]
      exact .refl g ctx
    | forked cow parent =>
      rw [cowFeedbackPage_of_new hmem (Bool.eq_false_iff.mp hcopied)]
      exact copyPage_leafStep hcoh hmem hcopied hg

theorem cowFeedbackPages_leafStep (hcoh : Coherent ctx) (hg : g < 2 ^ 48) (gpas : List Nat) :
    LeafStep g ctx (gpas.foldl cowFeedbackPage ctx) := by
  induction gpas generalizing ctx with
  | nil => exact .refl g ctx
  | cons a gpas ih =>
    have hfirst := cowFeedbackPage_leafStep hcoh hg a
    exact hfirst.trans (ih ((cowFeedbackPage_advance ctx a).coherent hcoh))

/-! ## The three copying paths are one loop -/

theorem handleCowFault_eq_cowFeedbackPage (ctx : VmContext) (gpa : Nat) :
    (ctx.handleCowFault gpa).2 = ctx.cowFeedbackPage (pageBase gpa) := by
  cases hmem : ctx.memory with
  | root memory =>
    rw [handleCowFault_root hmem, cowFeedbackPage, hmem]
  | forked cow parent =>
    rw [cowFeedbackPage, hmem]
    dsimp only
    cases hcopied : cow.contains (pageBase gpa) with
    | true =>
      rw [handleCowFault_copied hmem hcopied]
      rfl
    | false =>
      rw [handleCowFault_new hmem hcopied]
      rfl

theorem preCowIoChannelPage_eq_foldl (ctx : VmContext) :
    ctx.preCowIoChannelPage = (ctx.requestedPages .preCow).foldl VmContext.cowFeedbackPage ctx := by
  dsimp only [requestedPages]
  by_cases hzero : ctx.state.guest.ioChannel.pageGpa = 0
  · rw [if_pos hzero]
    unfold VmContext.preCowIoChannelPage
    split
    · rfl
    · exact if_pos hzero
  · rw [if_neg hzero, foldl_cons, foldl_nil]
    unfold VmContext.preCowIoChannelPage VmContext.cowFeedbackPage
    split
    · rfl
    · exact if_neg hzero

theorem cowFeedbackBufferForMapping_eq_foldl (ctx : VmContext) (index : Nat) :
    ctx.cowFeedbackBufferForMapping index =
      (ctx.requestedPages (.feedback index)).foldl cowFeedbackPage ctx := by
  dsimp only [requestedPages]
  unfold cowFeedbackBufferForMapping
  cases ctx.state.guest.feedbackBuffers[index]? <;> rfl

theorem cowFeedbackPages_root {memory : GuestMemory} (hmem : ctx.memory = .root memory)
    (gpas : List Nat) (g : Nat) :
    (gpas.foldl cowFeedbackPage ctx).memory.copy g = none := by
  have hbase := (cowFeedbackPages_advance gpas ctx).base
  rw [hmem] at hbase
  cases hafter : (gpas.foldl cowFeedbackPage ctx).memory with
  | root _ => rfl
  | forked _ _ =>
    rw [hafter] at hbase
    exact hbase.elim

theorem cowFeedbackPages_copies_iff (hcoh : Coherent ctx) (gpas : List Nat)
    (haligned : pageBase g = g) :
    (ctx.memory.copy g).isSome = false ∧
        ((gpas.foldl VmContext.cowFeedbackPage ctx).memory.copy g).isSome ↔
      (ctx.memory.readPage g).isSome ∧ ctx.CopiesPage gpas g := by
  cases hmem : ctx.memory with
  | root memory =>
    rw [cowFeedbackPages_root hmem, CopiesPage, hmem]
    simp [VmMemory.isForked]
  | forked cow parent =>
    constructor
    · rintro ⟨hnew, hcopied⟩
      have hcoh' := (cowFeedbackPages_advance gpas ctx).coherent hcoh
      obtain ⟨cow', hmem'⟩ := (cowFeedbackPages_advance gpas ctx).forked hmem
      have hwithin := hcoh'.within
      have hwithin' := hcoh.within
      rw [hmem'] at hwithin hcopied
      rw [hmem] at hwithin'
      have hfull : parent.FullPage g := hwithin.1 g hcopied
      refine ⟨(readPage_isSome_iff hwithin' g).mpr hfull, by rw [hmem]; rfl, ?_, ?_⟩
      · rw [hmem]
        exact isNone_iff_eq_none.mp (isSome_eq_false_iff.mp hnew)
      rw [← hmem'] at hcopied
      rcases cowFeedbackPages_copied hmem hcopied with hbefore | ⟨r, hr, hpage, hgranted⟩
      · rw [hmem, hnew] at hbefore
        cases hbefore
      · exact ⟨r, hr, hpage.trans haligned, hgranted⟩
    · rintro ⟨hread, -, hnone, r, hr, hpage, hgranted⟩
      rw [hmem] at hnone
      have hnone' : cow.get g = none := hnone
      have hparent : (parent.readPage r.1).isSome := by
        rw [readPage, hnone'] at hread
        dsimp only at hread
        rw [← parent.readPage_pageBase, hpage, ← haligned]
        exact hread
      have hcopied := cowFeedbackPages_of_granted hmem hr hgranted hparent
      refine ⟨by rw [hnone]; rfl, ?_⟩
      rw [← copy_eq_of_page_eq _ (hpage.trans haligned.symm)]
      exact hcopied

/-! ## Registered pages -/

/-- What holds of a registered page in every VM: it is mapped, and at an address the
page table can tell apart from others. -/
structure PebsSound (ctx : VmContext) : Prop where
  coherent : Coherent ctx
  page : ∀ g, ctx.pebsPage = some g →
    pageBase g = g ∧ g < 2 ^ 48 ∧ (ctx.state.ept.lookup g).isSome = true

theorem PebsSound.advance (h : PebsSound ctx) (hadvance : Advance ctx after)
    (hpebs : after.pebsPage = ctx.pebsPage) : PebsSound after := by
  refine ⟨hadvance.coherent h.coherent, fun g hg => ?_⟩
  rw [hpebs] at hg
  rw [hadvance.mapped]
  exact h.page g hg

theorem VmContext.TrapsPebs.of_none (h : ctx.pebsPage = none) : ctx.TrapsPebs := by
  intro g m hg
  rw [h] at hg
  cases hg

/-- A registered page keeps trapping exactly if it does not become copied. -/
theorem LeafStep.traps_iff (hstep : LeafStep g ctx after) (hg : ctx.pebsPage = some g)
    (hmapped : (ctx.state.ept.lookup g).isSome) (htraps : ctx.TrapsPebs) :
    after.TrapsPebs ↔ ¬((ctx.memory.copy g).isSome = false ∧ (after.memory.copy g).isSome) := by
  have hafter : after.pebsPage = some g := hstep.pebsPage.trans hg
  constructor
  · rintro htrapped ⟨hnew, hcopied⟩
    obtain ⟨m, hm, hwritable⟩ := hstep.opened hnew hcopied hmapped
    rw [htrapped g m hafter hm] at hwritable
    cases hwritable
  intro hnot g' m hg' hm
  rw [hafter] at hg'
  cases hg'
  have hsame : (ctx.memory.copy g).isSome ∨ (after.memory.copy g).isSome = false := by
    cases hcopied : (ctx.memory.copy g).isSome with
    | true => exact .inl rfl
    | false => exact .inr (Bool.eq_false_iff.mpr fun h => hnot ⟨hcopied, h⟩)
  rw [hstep.kept hsame] at hm
  exact htraps g m hg hm

/-- The copying loop keeps the registered page protected exactly if it does not copy it. -/
theorem cowFeedbackPages_traps_iff (hsound : PebsSound ctx) (htraps : ctx.TrapsPebs)
    (gpas : List Nat) :
    PebsSound (gpas.foldl cowFeedbackPage ctx) ∧
      ((gpas.foldl cowFeedbackPage ctx).TrapsPebs ↔
        ¬∃ g, ctx.pebsPage = some g ∧ (ctx.memory.readPage g).isSome ∧
          ctx.CopiesPage gpas g) := by
  have hpebs := (cowFeedbackPages_leafStep (g := 0) hsound.coherent (by decide) gpas).pebsPage
  refine ⟨hsound.advance (cowFeedbackPages_advance gpas ctx) hpebs, ?_⟩
  cases hg : ctx.pebsPage with
  | none =>
    refine iff_of_true (.of_none (hpebs.trans hg)) ?_
    rintro ⟨g, hg', -⟩
    cases hg'
  | some g =>
    obtain ⟨haligned, hlt, hmapped⟩ := hsound.page g hg
    rw [(cowFeedbackPages_leafStep hsound.coherent hlt gpas).traps_iff hg hmapped htraps,
      cowFeedbackPages_copies_iff hsound.coherent gpas haligned]
    simp

theorem installPebsPage_protects (hwithin : ctx.memory.Within) (g : Nat) :
    (ctx.installPebsPage g).2.pebsPage = ctx.pebsPage ∨
      (ctx.installPebsPage g).2.pebsPage = some g ∧ g < 2 ^ 48 ∧
        ∃ frame, (ctx.installPebsPage g).2.state.ept.lookup g = some (frame, .READ_EXECUTE) := by
  rw [VmContext.installPebsPage]
  dsimp only
  split
  · exact .inl rfl
  obtain ⟨count, hwrote⟩ := ctx.memory.writeGuestMemory_spec g
    (dsManagementAreaBytes (GUEST_LINUX_PAGE_OFFSET + UInt64.ofNat g))
  split
  · exact .inl rfl
  rename_i memory heq
  rw [heq] at hwrote
  have hcount : count = 160 := (hwrote.complete rfl).trans (length_dsManagementAreaBytes _)
  have hlt : g < 2 ^ 48 := lt_of_canWrite hwithin (hwrote.accepted 0 (by omega))
  split
  · exact .inl rfl
  rename_i frame perms hleaf
  split
  · exact .inl rfl
  rename_i ept hremap
  refine .inr ⟨rfl, hlt, frame, ?_⟩
  exact (lookup_remap (by decide) hremap hlt hlt).trans (if_pos rfl)

theorem registerPebsPage_traps (hsound : PebsSound ctx) (htraps : ctx.TrapsPebs) (pageVa : UInt64) :
    PebsSound (registerPebsPage pageVa ctx).2 ∧ (registerPebsPage pageVa ctx).2.TrapsPebs := by
  have hadvance := registerPebsPage_advance pageVa ctx
  rcases registerPebsPage_state pageVa ctx with heq | ⟨hnone, gpa, heq⟩
  · rw [heq]
    exact ⟨hsound, htraps⟩
  rcases installPebsPage_protects hsound.coherent.within (pageBase gpa) with
    hpebs | ⟨hpebs, hlt, frame, hleaf⟩
  · rw [← heq] at hpebs
    exact ⟨hsound.advance hadvance hpebs, .of_none (hpebs.trans hnone)⟩
  rw [← heq] at hpebs hleaf
  refine ⟨⟨hadvance.coherent hsound.coherent, fun g hg => ?_⟩, fun g m hg hm => ?_⟩
  · rw [hpebs] at hg
    cases hg
    exact ⟨pageStart_idem gpa, hlt, by rw [hleaf]; rfl⟩
  rw [hpebs] at hg
  cases hg
  rw [hleaf] at hm
  cases hm
  exact writable_READ_EXECUTE

theorem Elsewhere.traps_iff (h : Elsewhere ctx after) : after.TrapsPebs ↔ ctx.TrapsPebs := by
  rw [TrapsPebs, TrapsPebs, h.ept, h.pebsPage]

variable {parent fresh : VmContext}

theorem FreshFork.pebsPage (h : FreshFork parent fresh) : fresh.pebsPage = parent.pebsPage := by
  rw [VmContext.pebsPage, VmContext.pebsPage, h.pebsState, Option.map_map]
  rfl

theorem FreshFork.traps (h : FreshFork parent fresh)
    (hsound : PebsSound parent) : PebsSound fresh ∧ fresh.TrapsPebs := by
  refine ⟨⟨h.coherent hsound.coherent, fun g hg => ?_⟩, fun g m _ hm => ?_⟩
  · rw [h.pebsPage] at hg
    rw [h.lookup, isSome_map]
    exact hsound.page g hg
  · rw [h.lookup, map_eq_some_iff] at hm
    obtain ⟨_, -, rfl⟩ := hm
    exact writable_READ_EXECUTE

theorem ForkedVm.new_requests {child : VmContext} {host : ForkHost}
    (h : new parent host = .ok child) :
    ∃ fresh, FreshFork parent fresh ∧
      child = (parent.requestedPages .preCow).foldl cowFeedbackPage fresh ∧
      fresh.allocateCowPage.1 = host.cowPages.headD none := by
  obtain ⟨ept, controls, hept, -, rfl⟩ := new_eq h
  exact ⟨_, ⟨rfl, rfl, rfl, rfl, lookup_cloneForFork hept⟩, preCowIoChannelPage_eq_foldl _, rfl⟩

theorem FreshFork.copiesPage_iff (h : FreshFork parent fresh) (g : Nat) :
    fresh.CopiesPage (parent.requestedPages .preCow) g ↔
      g ∈ parent.requestedPages .preCow ∧ Granted fresh.allocateCowPage.1 := by
  have hcopy : ∀ a, fresh.memory.copy a = none := by
    intro a
    rw [h.memory, copy, get_empty]
  have hforked : fresh.memory.isForked := by rw [h.memory]; rfl
  dsimp only [CopiesPage, requestedPages]
  split
  · simp [cowRequests]
  have hidem : ∀ a, pageBase (pageBase a) = pageBase a := pageStart_idem
  simp only [cowRequests, hcopy, hforked, isSome_none, Bool.false_eq_true,
    if_false, mem_singleton, exists_eq_left, hidem, true_and]
  rw [eq_comm]

theorem FreshFork.readPage_isSome (h : FreshFork parent fresh) (g : Nat) :
    (fresh.memory.readPage g).isSome = (parent.memory.readPage g).isSome := by
  rw [h.memory, readPage, get_empty]
  dsimp only
  rw [readPage_pageBase]

/-- One step from a VM whose registered page traps: it traps afterwards exactly if the
step does not copy it. -/
theorem MemoryStep.Valid.traps_iff {t : MemoryStep} (hvalid : t.Valid) (hsound : PebsSound t.pre)
    (htraps : t.pre.TrapsPebs) : PebsSound t.post ∧ (t.post.TrapsPebs ↔ ¬t.CopiesPebsPage) := by
  cases hvalid with
  | cowFault ctx gpa =>
    dsimp only at hsound htraps ⊢
    rw [handleCowFault_eq_cowFeedbackPage]
    exact cowFeedbackPages_traps_iff hsound htraps [pageBase gpa]
  | preCow ctx =>
    dsimp only at hsound htraps ⊢
    rw [preCowIoChannelPage_eq_foldl]
    exact cowFeedbackPages_traps_iff hsound htraps _
  | feedback ctx index =>
    dsimp only at hsound htraps ⊢
    rw [cowFeedbackBufferForMapping_eq_foldl]
    exact cowFeedbackPages_traps_iff hsound htraps _
  | registerPebs ctx pageVa =>
    obtain ⟨hsound', htraps'⟩ := registerPebsPage_traps hsound htraps pageVa
    refine ⟨hsound', iff_of_true htraps' ?_⟩
    rintro ⟨_, -, -, -, -, r, hr, -⟩
    cases hr
  | elsewhere h =>
    refine ⟨hsound.advance h.advance h.pebsPage, iff_of_true (h.traps_iff.mpr htraps) ?_⟩
    rintro ⟨_, -, -, -, -, r, hr, -⟩
    cases hr
  | @fork parent child host h =>
    obtain ⟨fresh, hfresh, rfl, hgrant⟩ := new_requests h
    obtain ⟨hsound', htraps'⟩ := hfresh.traps hsound
    have hloop := cowFeedbackPages_traps_iff hsound' htraps' (parent.requestedPages .preCow)
    refine ⟨hloop.1, hloop.2.trans (not_congr (exists_congr fun g => ?_))⟩
    rw [hfresh.pebsPage, hfresh.readPage_isSome, hfresh.copiesPage_iff, hgrant]

theorem RootVm.new_pebsSound {memory : GuestMemory} {supply : FrameSupply} {machine : Machine}
    {setup : Except VmStateError Vmcs} {tscFrequency : Nat} {pebsSupported : Bool}
    (h : new memory supply machine setup tscFrequency pebsSupported = .ok ctx) :
    PebsSound ctx ∧ ctx.TrapsPebs := by
  obtain ⟨-, ⟨-, hprecise⟩, -⟩ := new_spec h
  have hnone : ctx.pebsPage = none := by
    rw [pebsPage, hprecise]
    rfl
  refine ⟨⟨new_coherent h, fun g hg => ?_⟩, .of_none hnone⟩
  rw [hnone] at hg
  cases hg

/-- Along every history of a VM and the VMs forked from it, the leaf of the registered
page is never writable exactly if no step copies the page for a fork that inherited the
registration. -/
theorem pebs_page_traps_iff {memory : GuestMemory} {supply : FrameSupply} {machine : Machine}
    {setup : Except VmStateError Vmcs} {tscFrequency : Nat} {pebsSupported : Bool}
    {root : VmContext} {ts : List MemoryStep}
    (hroot : RootVm.new memory supply machine setup tscFrequency pebsSupported = .ok root)
    (hrun : MemoryRun root ts after) :
    (∀ t ∈ ts, t.post.TrapsPebs) ↔ ∀ t ∈ ts, ¬t.CopiesPebsPage := by
  obtain ⟨hwalk, hvalid⟩ := hrun
  constructor
  · intro htraps
    have hpre := (hwalk.invariant (I := fun ctx => PebsSound ctx ∧ ctx.TrapsPebs)
      (fun t ht h => ⟨((hvalid t ht).traps_iff h.1 h.2).1, htraps t ht⟩)
      (RootVm.new_pebsSound hroot)).1
    intro t ht
    obtain ⟨⟨hsound, htrapped⟩, -⟩ := hpre t ht
    exact ((hvalid t ht).traps_iff hsound htrapped).2.mp (htraps t ht)
  · intro hsafe
    have hall := (hwalk.invariant (I := fun ctx => PebsSound ctx ∧ ctx.TrapsPebs)
      (fun t ht h => ?_) (RootVm.new_pebsSound hroot)).1
    · exact fun t ht => (hall t ht).2.2
    · obtain ⟨hsound, hiff⟩ := (hvalid t ht).traps_iff h.1 h.2
      exact ⟨hsound, hiff.mpr (hsafe t ht)⟩

def registeredVm : VmContext :=
  (registerPebsPage 0 imageVm).2

def registeredFork (cowPages : List (Option CowGrant)) : VmContext :=
  (new registeredVm { supply := forkFrames, cowPages }).toOption.getD imageVm

theorem registeredFork_facts :
    ((new registeredVm { supply := forkFrames }).isOk &&
      (new registeredVm
        { supply := forkFrames, cowPages := [some ⟨frameAt 9, true⟩] }).isOk &&
      (registeredFork []).pebsPage == some 0 &&
      ((registeredFork [some ⟨frameAt 9, true⟩]).handleCowFault 0).2.pebsPage == some 0 &&
      (((registeredFork [some ⟨frameAt 9, true⟩]).handleCowFault 0).2.state.ept.lookup 0).any
        fun m => m.2.writable) := by
  decide +kernel

theorem registeredFork_eq {cowPages : List (Option CowGrant)}
    (h : (new registeredVm { supply := forkFrames, cowPages }).isOk) :
    new registeredVm { supply := forkFrames, cowPages } = .ok (registeredFork cowPages) := by
  unfold registeredFork
  cases hfork : new registeredVm { supply := forkFrames, cowPages } with
  | error e =>
    rw [hfork] at h
    cases h
  | ok child => rfl

def registeredSteps (cowPages : List (Option CowGrant)) : List MemoryStep :=
  [⟨imageVm, .registerPebs 0, registeredVm⟩,
    ⟨registeredVm, .fork { supply := forkFrames, cowPages }, registeredFork cowPages⟩]

theorem registeredSteps_run {cowPages : List (Option CowGrant)}
    (h : (new registeredVm { supply := forkFrames, cowPages }).isOk) :
    MemoryRun imageVm (registeredSteps cowPages) (registeredFork cowPages) := by
  refine ⟨⟨rfl, rfl, rfl⟩, ?_⟩
  rw [registeredSteps, forall_mem_cons, forall_mem_singleton]
  exact ⟨.registerPebs imageVm 0, .fork (registeredFork_eq h)⟩

theorem pebs_page_traps_in_fork :
    ∃ ts ctx, MemoryRun imageVm ts ctx ∧ ctx.memory.isForked = true ∧ ctx.pebsPage = some 0 ∧
      ∀ t ∈ ts, t.post.TrapsPebs := by
  have hfacts := registeredFork_facts
  simp only [Bool.and_eq_true, beq_iff_eq] at hfacts
  obtain ⟨⟨⟨⟨hfork, -⟩, hpebs⟩, -⟩, -⟩ := hfacts
  have hrun := registeredSteps_run hfork
  obtain ⟨fresh, hfresh, heq, -⟩ := ForkedVm.new_requests (registeredFork_eq hfork)
  obtain ⟨cow, hmem⟩ := (cowFeedbackPages_advance _ fresh).forked hfresh.memory
  refine ⟨_, _, hrun, ?_, hpebs, (pebs_page_traps_iff imageVm_eq hrun).mpr ?_⟩
  · rw [heq, hmem]
    rfl
  rw [registeredSteps, List.forall_mem_cons, List.forall_mem_singleton]
  constructor
  · rintro ⟨_, -, -, -, -, r, hr, -⟩
    cases hr
  · rintro ⟨_, -, -, -, grant, hgrant, -⟩
    cases hgrant

/-- A fork inherits the registration; a write of its guest to the page makes the leaf
writable while the registration is in force. -/
theorem copied_pebs_page_is_writable :
    ∃ ts ctx m, MemoryRun imageVm ts ctx ∧ ctx.pebsPage = some 0 ∧
      ctx.state.ept.lookup 0 = some m ∧ m.2.writable = true := by
  have hfacts := registeredFork_facts
  simp only [Bool.and_eq_true, beq_iff_eq] at hfacts
  obtain ⟨⟨⟨⟨-, hfork⟩, -⟩, hpebs⟩, hleaf⟩ := hfacts
  obtain ⟨m, hm, hwritable⟩ := (Option.any_eq_true _ _).mp hleaf
  obtain ⟨hwalk, hvalid⟩ := registeredSteps_run hfork
  generalize registeredFork [some ⟨frameAt 9, true⟩] = fork at *
  let fault : MemoryStep := ⟨fork, .cowFault 0, (fork.handleCowFault 0).2⟩
  have hfault : Walk fork [fault] fault.post := ⟨rfl, rfl⟩
  refine ⟨_, fault.post, m, ⟨hwalk.append hfault, ?_⟩, hpebs, hm, hwritable⟩
  intro t ht
  rcases List.mem_append.mp ht with ht | ht
  · exact hvalid t ht
  · cases List.mem_singleton.mp ht
    exact .cowFault _ 0

end Bedrock
