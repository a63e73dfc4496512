import Bedrock.CowProgress
import Bedrock.Handled
import Bedrock.Lab

/-!
# Mapping a feedback buffer of a forked VM

Userspace maps a feedback buffer once and keeps reading it while the guest runs.  In a
fork the mapping therefore has to consist of pages the fork has copied: a page that is
still the parent's is left behind by the guest's first write.  `mmap` copies the pages
before it maps them, but it maps whatever it finds for the pages it could not copy.
-/

namespace Bedrock

open Support CowPageMap List Option VmMemory VmContext Relation

def FEEDBACK_BUFFER_SLOT_SIZE : Nat := FEEDBACK_BUFFER_MAX_PAGES * PAGE_SIZE

def EVENT_BUFFER_MMAP_OFFSET : Nat := 2 ^ 46

/-- What `mmap` puts into the address space of userspace. -/
inductive Mapping
  | eventBuffer
  | feedback (hpas : List HostFrame)

/-- The host's part of one `mmap`: whether an event buffer is allocated, and the failure
of the kernel to map the pages, if it fails. -/
structure MmapHost where
  eventBuffer : Bool := false
  remapFault : Option Errno := none

namespace VmContext

/-- The host frame for one page: the VM's own copy, or the page the parent chain has. -/
def resolvePage (ctx : VmContext) (gpa : Nat) : Except Errno HostFrame :=
  match ctx.memory.copy gpa with
  | some page => .ok page.frame
  | none =>
    match ctx.memory.readPage gpa with
    | none => .error .einval
    | some page => if page.frame.addr = 0 then .error .einval else .ok page.frame

def resolvePages (ctx : VmContext) : List Nat → Except Errno (List HostFrame)
  | [] => .ok []
  | gpa :: gpas =>
    match ctx.resolvePage gpa with
    | .error e => .error e
    | .ok hpa =>
      match ctx.resolvePages gpas with
      | .error e => .error e
      | .ok hpas => .ok (hpa :: hpas)

/-- The branch of `bedrock_forked_vm_mmap` for feedback buffers. -/
def mmapFeedbackBuffer (ctx : VmContext) (bufferIndex requestedSize : Nat) (host : MmapHost) :
    Except Errno Mapping × VmContext :=
  let ctx := ctx.cowFeedbackBufferForMapping bufferIndex
  match ctx.state.guest.feedbackBuffers[bufferIndex]? with
  | none => (.error .einval, ctx)
  | some buffer =>
    if requestedSize ≠ buffer.gpas.length * 4096 then (.error .einval, ctx)
    else
      match ctx.resolvePages buffer.gpas with
      | .error e => (.error e, ctx)
      | .ok hpas =>
        match host.remapFault with
        | some e => (.error e, ctx)
        | none => (.ok (.feedback hpas), ctx)

/-- `bedrock_forked_vm_mmap` -/
def bedrockForkedVmMmap (ctx : VmContext) (offsetBytes requestedSize : Nat) (host : MmapHost) :
    Except Errno Mapping × VmContext :=
  if offsetBytes = EVENT_BUFFER_MMAP_OFFSET then
    if requestedSize ≠ EVENT_BUFFER_SIZE then (.error .einval, ctx)
    else if !host.eventBuffer then (.error .einval, ctx)
    else
      match host.remapFault with
      | some e => (.error e, ctx)
      | none => (.ok .eventBuffer, ctx)
  else if offsetBytes % FEEDBACK_BUFFER_SLOT_SIZE ≠ 0 then (.error .einval, ctx)
  else ctx.mmapFeedbackBuffer (offsetBytes / FEEDBACK_BUFFER_SLOT_SIZE) requestedSize host

/-- The pages the copying loop asks a frame for, and what it is given for each. -/
def cowRequests : VmContext → List Nat → List (Nat × Option CowGrant)
  | _, [] => []
  | ctx, gpa :: gpas =>
    let rest := (ctx.cowFeedbackPage gpa).cowRequests gpas
    if (ctx.memory.copy gpa).isSome then rest else (gpa, ctx.allocateCowPage.1) :: rest

/-- The frame is the VM's own copy of the page and the one the guest accesses. -/
def Owns (ctx : VmContext) (gpa : Nat) (frame : HostFrame) : Prop :=
  (ctx.memory.copy gpa).map Page.frame = some frame ∧
    ∃ perms, ctx.state.ept.lookup gpa = some (frame, perms)

end VmContext

def Granted (grant : Option CowGrant) : Prop :=
  ∃ g, grant = some g ∧ g.inserted = true

/-! ## Copies stay -/

def KeepsCopies (before after : VmContext) : Prop :=
  ∀ g frame, (before.memory.copy g).map Page.frame = some frame →
    (after.memory.copy g).map Page.frame = some frame

namespace KeepsCopies

theorem refl (ctx : VmContext) : KeepsCopies ctx ctx :=
  fun _ _ h => h

theorem trans {a b c : VmContext} (hab : KeepsCopies a b) (hbc : KeepsCopies b c) :
    KeepsCopies a c :=
  fun g frame h => hbc g frame (hab g frame h)

theorem of_memory {a b : VmContext} (h : b.memory = a.memory) : KeepsCopies a b := by
  intro g frame hframe
  rw [h]
  exact hframe

theorem of_stores {a b : VmContext} (h : GuestStores a.memory b.memory) : KeepsCopies a b := by
  intro g frame hframe
  rw [h.frames.2.2.2.2.1]
  exact hframe

theorem isSome {a b : VmContext} (h : KeepsCopies a b) {g : Nat}
    (hcopied : (a.memory.copy g).isSome) : (b.memory.copy g).isSome := by
  obtain ⟨page, hpage⟩ := isSome_iff_exists.mp hcopied
  have hframe := h g page.frame (by rw [hpage]; rfl)
  rw [← isSome_map (f := Page.frame), hframe]
  rfl

end KeepsCopies

variable {ctx : VmContext} {cow : CowPageMap} {parent : VmMemory} {g a : Nat}

theorem copyPage_memory_cases (ctx : VmContext) (cow : CowPageMap) (parent : VmMemory) (a : Nat) :
    ((ctx.copyPage cow parent a).2.memory = ctx.memory ∧
      ¬(Granted ctx.allocateCowPage.1 ∧ (parent.readPage a).isSome)) ∨
    ∃ page, (ctx.copyPage cow parent a).2.memory = .forked (cow.insert a page) parent ∧
      Granted ctx.allocateCowPage.1 ∧ (parent.readPage a).isSome := by
  rcases ctx.copyPage_cases cow parent a with
    ⟨heq, hnot⟩ | ⟨grant, page, hgrant, hinserted, hpage, ⟨-, heq⟩ | ⟨ept, -, -, heq⟩⟩
  · exact .inl ⟨by rw [heq]; rfl, hnot⟩
  all_goals exact .inr ⟨_, by rw [heq]; rfl, ⟨grant, hgrant, hinserted⟩, by rw [hpage]; rfl⟩

theorem copyPage_keepsCopies (hmem : ctx.memory = .forked cow parent)
    (hnew : cow.contains a = false) : KeepsCopies ctx (ctx.copyPage cow parent a).2 := by
  rw [contains_eq_isSome_get, isSome_eq_false_iff, isNone_iff_eq_none] at hnew
  rcases copyPage_memory_cases ctx cow parent a with ⟨heq, -⟩ | ⟨page, heq, -, -⟩
  · exact .of_memory heq
  intro g frame hframe
  rw [hmem, copy] at hframe
  rw [heq, copy, get_insert]
  split
  · rename_i hsame
    rw [← cow.get_pageBase, hsame, cow.get_pageBase, hnew] at hframe
    cases hframe
  · exact hframe

theorem handleCowFault_keepsCopies (ctx : VmContext) (gpa : Nat) :
    KeepsCopies ctx (ctx.handleCowFault gpa).2 := by
  cases hmem : ctx.memory with
  | root memory =>
    rw [handleCowFault_root hmem]
    exact .refl ctx
  | forked cow parent =>
    cases hcopied : cow.contains (pageBase gpa) with
    | true =>
      rw [handleCowFault_copied hmem hcopied]
      exact .refl ctx
    | false =>
      rw [handleCowFault_new hmem hcopied]
      exact copyPage_keepsCopies hmem hcopied

theorem preCowIoChannelPage_keepsCopies (ctx : VmContext) :
    KeepsCopies ctx ctx.preCowIoChannelPage := by
  unfold VmContext.preCowIoChannelPage
  split
  · exact .refl ctx
  rename_i cow parent hmem
  dsimp only
  split
  · exact .refl ctx
  split
  · exact .refl ctx
  · rename_i hnew
    exact copyPage_keepsCopies hmem (Bool.eq_false_iff.mpr hnew)

theorem cowFeedbackPage_keepsCopies (ctx : VmContext) (a : Nat) :
    KeepsCopies ctx (ctx.cowFeedbackPage a) := by
  unfold cowFeedbackPage
  split
  · exact .refl ctx
  rename_i cow parent hmem
  split
  · exact .refl ctx
  · rename_i hnew
    exact copyPage_keepsCopies hmem (Bool.eq_false_iff.mpr hnew)

theorem cowFeedbackPages_keepsCopies (gpas : List Nat) (ctx : VmContext) :
    KeepsCopies ctx (gpas.foldl cowFeedbackPage ctx) := by
  induction gpas generalizing ctx with
  | nil => exact .refl ctx
  | cons g gpas ih => exact (cowFeedbackPage_keepsCopies ctx g).trans (ih _)

theorem registerPebsPage_keepsCopies (pageVa : UInt64) (ctx : VmContext) :
    KeepsCopies ctx (registerPebsPage pageVa ctx).2 := by
  rcases registerPebsPage_state pageVa ctx with heq | ⟨-, gpa, heq⟩
  · rw [heq]
    exact .refl ctx
  rw [heq]
  have hinstall := ctx.installPebsPage_spec (pageBase gpa)
  generalize ctx.installPebsPage (pageBase gpa) = r at hinstall ⊢
  have hstores := writeGuestMemory_guestStores ctx.memory (pageBase gpa)
    (dsManagementAreaBytes (GUEST_LINUX_PAGE_OFFSET + UInt64.ofNat (pageBase gpa)))
  cases hinstall with
  | unmapped _ => exact .refl ctx
  | refused _ _ => exact .of_stores hstores
  | registered _ _ _ hmemory _ => exact .of_stores (by rw [hmemory]; exact hstores)

variable {after : VmContext} {gpas : List Nat} {hpas : List HostFrame}

theorem CowOp.keepsCopies (h : CowOp ctx after) : KeepsCopies ctx after := by
  cases h with
  | cowFault gpa => exact handleCowFault_keepsCopies ctx gpa
  | preCow => exact preCowIoChannelPage_keepsCopies ctx
  | feedback index =>
    unfold cowFeedbackBufferForMapping
    split
    · exact .refl ctx
    · exact cowFeedbackPages_keepsCopies _ ctx
  | registerPebs pageVa => exact registerPebsPage_keepsCopies pageVa ctx
  | elsewhere h => exact .of_stores h.memory

theorem keepsCopies_of_ops (h : ReflTransGen CowOp ctx after) : KeepsCopies ctx after := by
  induction h with
  | refl => exact .refl ctx
  | tail _ hop ih => exact ih.trans hop.keepsCopies

theorem VmReached.of_ops (hctx : VmReached ctx)
    (h : ReflTransGen CowOp ctx after) : VmReached after := by
  induction h with
  | refl => exact hctx
  | tail _ hop ih => exact ih.op hop

/-! ## What the loop copies -/

theorem cowFeedbackPage_of_copied (h : (ctx.memory.copy a).isSome) :
    ctx.cowFeedbackPage a = ctx := by
  unfold cowFeedbackPage
  split
  · rfl
  rename_i cow parent hmem
  rw [hmem, copy, ← contains_eq_isSome_get] at h
  rw [if_pos h]

theorem cowFeedbackPage_of_new (hmem : ctx.memory = .forked cow parent)
    (h : ¬(ctx.memory.copy a).isSome) :
    ctx.cowFeedbackPage a = (ctx.copyPage cow parent a).2 := by
  rw [hmem, copy, ← contains_eq_isSome_get] at h
  unfold cowFeedbackPage
  rw [hmem]
  exact if_neg h

theorem cowFeedbackPages_copied (hmem : ctx.memory = .forked cow parent)
    (h : ((gpas.foldl cowFeedbackPage ctx).memory.copy g).isSome) :
    (ctx.memory.copy g).isSome ∨
      ∃ r ∈ ctx.cowRequests gpas, pageBase r.1 = pageBase g ∧ Granted r.2 := by
  induction gpas generalizing ctx cow with
  | nil => exact .inl h
  | cons a gpas ih =>
    obtain ⟨cow', hmem'⟩ := (cowFeedbackPage_advance ctx a).forked hmem
    unfold cowRequests
    dsimp only
    by_cases hcopied : (ctx.memory.copy a).isSome
    · rw [if_pos hcopied]
      rw [foldl_cons, cowFeedbackPage_of_copied hcopied] at h
      rw [cowFeedbackPage_of_copied hcopied]
      exact ih hmem h
    rw [if_neg hcopied]
    rcases ih hmem' h with hnow | ⟨r, hr, hgranted⟩
    · rw [cowFeedbackPage_of_new hmem hcopied] at hnow
      rcases copyPage_memory_cases ctx cow parent a with ⟨heq, -⟩ | ⟨page, heq, hgranted, -⟩
      · rw [heq] at hnow
        exact .inl hnow
      rw [heq, copy, get_insert] at hnow
      by_cases hsame : pageBase g = pageBase a
      · exact .inr ⟨_, mem_cons_self, hsame.symm, hgranted⟩
      rw [if_neg hsame] at hnow
      rw [hmem]
      exact .inl hnow
    · exact .inr ⟨r, mem_cons_of_mem _ hr, hgranted⟩

theorem cowFeedbackPages_of_granted {r : Nat × Option CowGrant}
    (hmem : ctx.memory = .forked cow parent) (hr : r ∈ ctx.cowRequests gpas)
    (hgranted : Granted r.2) (hpage : (parent.readPage r.1).isSome) :
    ((gpas.foldl cowFeedbackPage ctx).memory.copy r.1).isSome := by
  induction gpas generalizing ctx cow with
  | nil => cases hr
  | cons a gpas ih =>
    obtain ⟨cow', hmem'⟩ := (cowFeedbackPage_advance ctx a).forked hmem
    unfold cowRequests at hr
    dsimp only at hr
    by_cases hcopied : (ctx.memory.copy a).isSome
    · rw [if_pos hcopied] at hr
      exact ih hmem' hr
    rw [if_neg hcopied] at hr
    rcases mem_cons.mp hr with rfl | hr
    · apply (cowFeedbackPages_keepsCopies gpas _).isSome
      rw [cowFeedbackPage_of_new hmem hcopied]
      rcases copyPage_memory_cases ctx cow parent a with ⟨-, hnot⟩ | ⟨page, heq, -, -⟩
      · exact absurd ⟨hgranted, hpage⟩ hnot
      · rw [heq, copy, get_insert, if_pos rfl]
        rfl
    · exact ih hmem' hr

theorem cowFeedbackPages_guest (gpas : List Nat) (ctx : VmContext) :
    (gpas.foldl cowFeedbackPage ctx).state.guest = ctx.state.guest := by
  induction gpas generalizing ctx with
  | nil => rfl
  | cons g gpas ih =>
    refine (ih _).trans ?_
    unfold cowFeedbackPage
    split
    · rfl
    split
    · rfl
    · exact (ctx.copyPage_memory _ _ _).untouched.guest

/-! ## The mapping -/

theorem resolvePages_eq_ok (h : ctx.resolvePages gpas = .ok hpas) :
    List.Forall₂ (fun gpa hpa => ctx.resolvePage gpa = .ok hpa) gpas hpas := by
  induction gpas generalizing hpas with
  | nil =>
    cases h
    exact .nil
  | cons gpa gpas ih =>
    unfold resolvePages at h
    cases hpage : ctx.resolvePage gpa with
    | error e =>
      rw [hpage] at h
      cases h
    | ok hpa =>
      cases hrest : ctx.resolvePages gpas with
      | error e =>
        rw [hpage, hrest] at h
        cases h
      | ok rest =>
        rw [hpage, hrest] at h
        cases h
        exact .cons hpage (ih hrest)

theorem resolvePage_eq_ok {hpa : HostFrame} (h : ctx.resolvePage g = .ok hpa) :
    (ctx.memory.copy g).map Page.frame = some hpa ∨
      ctx.memory.copy g = none ∧ (ctx.memory.readPage g).isSome := by
  unfold resolvePage at h
  cases hcopy : ctx.memory.copy g with
  | some page =>
    rw [hcopy] at h
    cases h
    exact .inl rfl
  | none =>
    cases hread : ctx.memory.readPage g with
    | some page => exact .inr ⟨rfl, rfl⟩
    | none =>
      rw [hcopy, hread] at h
      cases h

theorem forall₂_resolved_iff {resolve : Nat → Except Errno HostFrame} {R : Nat → HostFrame → Prop}
    (h : List.Forall₂ (fun gpa hpa => resolve gpa = .ok hpa) gpas hpas) :
    List.Forall₂ R gpas hpas ↔ ∀ gpa ∈ gpas, ∃ hpa, resolve gpa = .ok hpa ∧ R gpa hpa := by
  induction h with
  | nil => simp
  | @cons gpa hpa gpas hpas hpage _ ih =>
    rw [forall₂_cons, ih, forall_mem_cons]
    refine and_congr_left fun _ => ?_
    constructor
    · exact fun hR => ⟨hpa, hpage, hR⟩
    rintro ⟨hpa', hpage', hR⟩
    rw [hpage] at hpage'
    cases hpage'
    exact hR

theorem cowFeedbackBufferForMapping_eq {index : Nat} {buffer : FeedbackBufferInfo}
    (h : ctx.state.guest.feedbackBuffers[index]? = some buffer) :
    ctx.cowFeedbackBufferForMapping index = buffer.gpas.foldl cowFeedbackPage ctx := by
  rw [cowFeedbackBufferForMapping, h]

theorem mmap_feedback_spec {offsetBytes requestedSize : Nat}
    {host : MmapHost} {buffer : FeedbackBufferInfo}
    (hbuffer : ctx.state.guest.feedbackBuffers[offsetBytes / FEEDBACK_BUFFER_SLOT_SIZE]? =
      some buffer)
    (h : ctx.bedrockForkedVmMmap offsetBytes requestedSize host = (.ok (.feedback hpas), after)) :
    after = buffer.gpas.foldl cowFeedbackPage ctx ∧
      List.Forall₂ (fun gpa hpa => after.resolvePage gpa = .ok hpa) buffer.gpas hpas := by
  unfold bedrockForkedVmMmap mmapFeedbackBuffer at h
  rw [cowFeedbackBufferForMapping_eq hbuffer] at h
  dsimp only at h
  rw [cowFeedbackPages_guest, hbuffer] at h
  dsimp only at h
  split at h
  · -- the event buffer is no feedback buffer
    repeat' split at h
    all_goals cases h
  split at h
  · cases h
  split at h
  · cases h
  split at h
  · cases h
  rename_i hresolve
  split at h
  · cases h
  · cases h
    exact ⟨rfl, resolvePages_eq_ok hresolve⟩

theorem copy_eq_of_page_eq (mem : VmMemory) (h : pageBase a = pageBase g) :
    mem.copy a = mem.copy g := by
  cases mem with
  | root memory => rfl
  | forked cow parent =>
    show cow.get a = cow.get g
    rw [← cow.get_pageBase, h, cow.get_pageBase]

theorem VmReached.owns {later : VmContext} {frame : HostFrame} (hctx : VmReached ctx)
    (hops : ReflTransGen CowOp ctx later)
    (hcopy : (ctx.memory.copy g).map Page.frame = some frame)
    (hmapped : (ctx.state.ept.lookup g).isSome) : later.Owns g frame := by
  have hlater := keepsCopies_of_ops hops g frame hcopy
  have hcoherent := (hctx.of_ops hops).coherent
  rw [← (advance_of_ops hops).mapped] at hmapped
  obtain ⟨⟨leaf, perms⟩, hleaf⟩ := isSome_iff_exists.mp hmapped
  refine ⟨hlater, perms, ?_⟩
  obtain ⟨page, hpage, hframe⟩ := map_eq_some_iff.mp hlater
  cases hmem : later.memory with
  | root memory =>
    rw [hmem] at hpage
    cases hpage
  | forked cow parent =>
    have hwithin := hcoherent.within
    rw [hmem] at hpage hwithin
    have hfull : parent.FullPage g := hwithin.1 g (by rw [show cow.get g = _ from hpage]; rfl)
    obtain ⟨hread, -⟩ := hcoherent.leaf g leaf perms (by rw [hmem]; exact hfull) hleaf
    rw [hmem, readPage, show cow.get g = _ from hpage] at hread
    rw [hleaf, ← hframe, Option.some.inj hread]

theorem copied_of_granted {r : Nat × Option CowGrant}
    (hmem : ctx.memory = .forked cow parent) (hr : r ∈ ctx.cowRequests gpas)
    (hsame : pageBase r.1 = pageBase g) (hgranted : Granted r.2)
    (hread : ((gpas.foldl cowFeedbackPage ctx).memory.readPage g).isSome) :
    ((gpas.foldl cowFeedbackPage ctx).memory.copy g).isSome := by
  by_contra hnot
  obtain ⟨cow', hmem'⟩ := (cowFeedbackPages_advance gpas ctx).forked hmem
  have hparent : (parent.readPage r.1).isSome := by
    rw [hmem', copy, not_isSome_iff_eq_none] at hnot
    rw [hmem', readPage, hnot] at hread
    rw [← parent.readPage_pageBase, hsame]
    exact hread
  have hdone := cowFeedbackPages_of_granted hmem hr hgranted hparent
  rw [copy_eq_of_page_eq _ hsame] at hdone
  exact hnot hdone

/-- If `mmap` of a feedback buffer succeeds, all frames it mapped are the fork's own, now
and after whatever happens to the fork later, exactly if the page table maps every page
of the buffer and each of them was copied before or was granted a frame by the call. -/
theorem feedback_mapping_owned_iff {after : VmContext} {offsetBytes requestedSize : Nat}
    {host : MmapHost} {hpas : List HostFrame} {buffer : FeedbackBufferInfo}
    (hctx : VmReached ctx) (hforked : ctx.memory.isForked = true)
    (hbuffer : ctx.state.guest.feedbackBuffers[offsetBytes / FEEDBACK_BUFFER_SLOT_SIZE]? =
      some buffer)
    (hmmap : ctx.bedrockForkedVmMmap offsetBytes requestedSize host =
      (.ok (.feedback hpas), after)) :
    (∀ later, Relation.ReflTransGen CowOp after later →
        List.Forall₂ later.Owns buffer.gpas hpas) ↔
      ∀ gpa ∈ buffer.gpas, (ctx.state.ept.lookup gpa).isSome = true ∧
        ((ctx.memory.copy gpa).isSome = true ∨
          ∃ r ∈ ctx.cowRequests buffer.gpas, pageBase r.1 = pageBase gpa ∧ Granted r.2) := by
  obtain ⟨rfl, hresolved⟩ := mmap_feedback_spec hbuffer hmmap
  obtain ⟨cow, parent, hmem⟩ : ∃ cow parent, ctx.memory = .forked cow parent := by
    cases hmem : ctx.memory with
    | root memory =>
      rw [hmem] at hforked
      cases hforked
    | forked cow parent => exact ⟨cow, parent, rfl⟩
  have hadvance := cowFeedbackPages_advance buffer.gpas ctx
  constructor
  · intro howns gpa hgpa
    obtain ⟨hpa, -, hcopy, perms, hleaf⟩ :=
      (forall₂_resolved_iff hresolved).mp (howns _ .refl) gpa hgpa
    refine ⟨?_, cowFeedbackPages_copied hmem ?_⟩
    · rw [← hadvance.mapped, hleaf]
      rfl
    · rw [← Option.isSome_map (f := Page.frame), hcopy]
      rfl
  · intro hpages later hops
    have hreached := hctx.op (.feedback (offsetBytes / FEEDBACK_BUFFER_SLOT_SIZE))
    rw [cowFeedbackBufferForMapping_eq hbuffer] at hreached
    rw [forall₂_resolved_iff hresolved]
    intro gpa hgpa
    obtain ⟨hmapped, hcopied⟩ := hpages gpa hgpa
    rw [← hadvance.mapped] at hmapped
    obtain ⟨hpa, hpage, -⟩ :=
      (forall₂_resolved_iff (R := fun _ _ => True) hresolved).mp
        (hresolved.imp fun _ _ _ => trivial) gpa hgpa
    refine ⟨hpa, hpage, ?_⟩
    rcases resolvePage_eq_ok hpage with hcopy | ⟨hnone, hread⟩
    · exact hreached.owns hops hcopy hmapped
    have hcopy : ((buffer.gpas.foldl VmContext.cowFeedbackPage ctx).memory.copy gpa).isSome =
        true := by
      rcases hcopied with hcopied | ⟨r, hr, hsame, hgranted⟩
      · exact (cowFeedbackPages_keepsCopies buffer.gpas ctx).isSome hcopied
      · exact copied_of_granted hmem hr hsame hgranted hread
    rw [hnone] at hcopy
    cases hcopy

def feedbackFork (cowPages : List (Option CowGrant)) : VmContext :=
  { onePageFork with
    state := { onePageFork.state with
      guest := { onePageFork.state.guest with feedbackBuffers := [⟨0, 4096, [0], []⟩] } }
    host := { onePageFork.host with cowPages } }

theorem feedbackFork_reached (cowPages : List (Option CowGrant)) :
    VmReached (feedbackFork cowPages) := by
  obtain ⟨parent, host, hparent, -, -, hfork⟩ := onePageFork_spec
  exact (VmReached.fork hparent hfork).op (.elsewhere ⟨rfl, rfl, .refl _⟩)

def spareFrame : HostFrame := frameAt 9

/-- The frames a successful `mmap` has mapped. -/
def mappedFrames : Except Errno Mapping → Option (List HostFrame)
  | .ok (.feedback hpas) => some hpas
  | _ => none

theorem eq_of_mappedFrames {r : Except Errno Mapping × VmContext}
    (h : mappedFrames r.1 = some hpas) : r = (.ok (.feedback hpas), r.2) := by
  obtain ⟨e | _ | mapped, after⟩ := r
  · cases h
  · cases h
  · cases h
    rfl

/-- One page, one frame for its copy. -/
theorem feedback_mapping_owned_onePage :
    ∃ after, (feedbackFork [some ⟨spareFrame, true⟩]).bedrockForkedVmMmap 0 4096 {} =
        (.ok (.feedback [spareFrame]), after) ∧
      ∀ later, Relation.ReflTransGen CowOp after later →
        List.Forall₂ later.Owns [0] [spareFrame] := by
  have hframes : mappedFrames
      ((feedbackFork [some ⟨spareFrame, true⟩]).bedrockForkedVmMmap 0 4096 {}).1 =
        some [spareFrame] := by
    decide +kernel
  have hmmap := eq_of_mappedFrames hframes
  have hbuffer : (feedbackFork [some ⟨spareFrame, true⟩]).state.guest.feedbackBuffers[
      0 / FEEDBACK_BUFFER_SLOT_SIZE]? = some ⟨0, 4096, [0], []⟩ := rfl
  refine ⟨_, hmmap, ?_⟩
  refine (feedback_mapping_owned_iff (feedbackFork_reached _) (by decide +kernel) hbuffer
    hmmap).mpr ?_
  have hnew : ¬((feedbackFork [some ⟨spareFrame, true⟩]).memory.copy 0).isSome = true := by
    decide +kernel
  have hrequest : (0, some ⟨spareFrame, true⟩) ∈
      (feedbackFork [some ⟨spareFrame, true⟩]).cowRequests [0] := by
    unfold VmContext.cowRequests
    rw [if_neg hnew]
    exact List.mem_cons_self
  exact List.forall_mem_singleton.mpr ⟨by decide +kernel, .inr ⟨_, hrequest, rfl, _, rfl, rfl⟩⟩

/-- If no frame is granted, `mmap` still succeeds, with the frame of the parent. -/
theorem parent_frame_mapped :
    VmReached (feedbackFork [none]) ∧
      ∃ frame after, (feedbackFork [none]).bedrockForkedVmMmap 0 4096 {} =
          (.ok (.feedback [frame]), after) ∧
        frame.addr = 0x100000 ∧ ¬after.Owns 0 frame := by
  refine ⟨feedbackFork_reached _, ⟨0x100000, by decide⟩, _, eq_of_mappedFrames ?_, rfl, ?_⟩
  · decide +kernel
  rintro ⟨hcopy, -⟩
  have hnone : (((feedbackFork [none]).bedrockForkedVmMmap 0 4096 {}).2.memory.copy 0).isNone =
      true := by
    decide +kernel
  rw [Option.isNone_iff_eq_none] at hnone
  rw [hnone] at hcopy
  cases hcopy

end Bedrock
