import Bedrock.State

/-!
# Copy-on-write

The three operations that give a forked VM its own copy of a page share one
sequence: allocate a page, fill it from the parent chain, insert it in the map of
copied pages and remap the EPT leaf.  Each step may fail and then leaves what the
earlier steps did.
-/

namespace Bedrock

open Support Option

namespace VmContext

def setMemory (ctx : VmContext) (memory : VmMemory) : VmContext :=
  { ctx with memory }

def setEpt (ctx : VmContext) (ept : EptPageTable) : VmContext :=
  { ctx with state := { ctx.state with ept } }

/-- `allocate_cow_page` -/
def allocateCowPage (ctx : VmContext) : Option CowGrant × VmContext :=
  (ctx.host.cowPages.headD none,
    { ctx with host := { ctx.host with cowPages := ctx.host.cowPages.tail } })

/-- Allocate, copy from the parent chain, insert and remap; `true` if all of it
succeeded. -/
def copyPage (ctx : VmContext) (cowPages : CowPageMap) (parent : VmMemory) (pageGpa : Nat) :
    Bool × VmContext :=
  match ctx.allocateCowPage with
  | (none, ctx) => (false, ctx)
  | (some grant, ctx) =>
    match parent.readPage pageGpa with
    | none => (false, ctx)
    | some page =>
      if !grant.inserted then (false, ctx)
      else
        let ctx := ctx.setMemory
          (.forked (cowPages.insert pageGpa ⟨grant.frame, page.data⟩) parent)
        match ctx.state.ept.remap pageGpa grant.frame .READ_WRITE_EXECUTE with
        | .error _ => (false, ctx)
        | .ok ept => (true, ctx.setEpt ept)

/-- `handle_cow_fault`: a page that is already copied faulted through a stale TLB
entry and is simply retried. -/
def handleCowFault (ctx : VmContext) (gpa : Nat) : Option ExitHandlerResult × VmContext :=
  match ctx.memory with
  | .root _ => (none, ctx)
  | .forked cowPages parent =>
    if cowPages.contains (pageBase gpa) then (some .continue_, ctx)
    else
      match ctx.copyPage cowPages parent (pageBase gpa) with
      | (true, ctx) => (some .continue_, ctx)
      | (false, ctx) => (none, ctx)

/-- `pre_cow_io_channel_page`: failures are logged and dropped. -/
def preCowIoChannelPage (ctx : VmContext) : VmContext :=
  match ctx.memory with
  | .root _ => ctx
  | .forked cowPages parent =>
    let pageGpaRaw := ctx.state.guest.ioChannel.pageGpa
    if pageGpaRaw = 0 then ctx
    else if cowPages.contains (pageBase pageGpaRaw) then ctx
    else (ctx.copyPage cowPages parent (pageBase pageGpaRaw)).2

/-- One page of `cow_feedback_buffer_for_mapping`. -/
def cowFeedbackPage (ctx : VmContext) (pageGpa : Nat) : VmContext :=
  match ctx.memory with
  | .root _ => ctx
  | .forked cowPages parent =>
    if cowPages.contains pageGpa then ctx
    else (ctx.copyPage cowPages parent pageGpa).2

/-- `cow_feedback_buffer_for_mapping` -/
def cowFeedbackBufferForMapping (ctx : VmContext) (index : Nat) : VmContext :=
  match ctx.state.guest.feedbackBuffers[index]? with
  | none => ctx
  | some buffer => buffer.gpas.foldl cowFeedbackPage ctx

/-! ## What a copy does -/

/-- `ctx` with the page at `g` copied to the granted frame. -/
def withCopy (ctx : VmContext) (cow : CowPageMap) (parent : VmMemory) (g : Nat) (frame : HostFrame)
    (page : Page) : VmContext :=
  ctx.setMemory (.forked (cow.insert g ⟨frame, page.data⟩) parent)

variable (ctx : VmContext)

theorem copyPage_cases (cow : CowPageMap) (parent : VmMemory) (g : Nat) :
    (ctx.copyPage cow parent g = (false, ctx.allocateCowPage.2) ∧
      ¬((∃ grant, ctx.allocateCowPage.1 = some grant ∧ grant.inserted) ∧
        (parent.readPage g).isSome)) ∨
    ∃ grant page, ctx.allocateCowPage.1 = some grant ∧ grant.inserted ∧
      parent.readPage g = some page ∧
      ((ctx.state.ept.lookup g = none ∧ ctx.copyPage cow parent g =
          (false, ctx.allocateCowPage.2.withCopy cow parent g grant.frame page)) ∨
      ∃ ept, ctx.state.ept.remap g grant.frame .READ_WRITE_EXECUTE = .ok ept ∧
        (ctx.state.ept.lookup g).isSome ∧ ctx.copyPage cow parent g =
          (true, (ctx.allocateCowPage.2.withCopy cow parent g grant.frame page).setEpt ept)) := by
  have hept : ∀ mem, (ctx.allocateCowPage.2.setMemory mem).state.ept = ctx.state.ept :=
    fun _ => rfl
  unfold copyPage
  generalize ctx.allocateCowPage = granted at hept ⊢
  rcases granted with ⟨_ | grant, next⟩
  · exact .inl ⟨rfl, by simp⟩
  rcases hpage : parent.readPage g with _ | page
  · exact .inl ⟨rfl, by simp⟩
  cases hinserted : grant.inserted with
  | false => exact .inl ⟨by simp [hinserted], by simp [hinserted]⟩
  | true =>
    refine .inr ⟨grant, page, rfl, hinserted, rfl, ?_⟩
    have hiff := ctx.state.ept.remap_isOk_iff g grant.frame .READ_WRITE_EXECUTE
    simp only [hinserted, Bool.not_true, Bool.false_eq_true, if_false, hept]
    cases hremap : ctx.state.ept.remap g grant.frame .READ_WRITE_EXECUTE with
    | error e =>
      refine .inl ⟨?_, rfl⟩
      rw [← not_isSome_iff_eq_none, ← hiff, hremap]
      rintro ⟨_, h⟩
      cases h
    | ok ept => exact .inr ⟨ept, rfl, hiff.mp ⟨ept, hremap⟩, rfl⟩

open VmMemory

theorem copyPage_sameReads {ctx : VmContext} {cow : CowPageMap} {parent : VmMemory} {g : Nat}
    (hmem : ctx.memory = .forked cow parent) (hnew : cow.contains g = false) :
    SameReads ctx.memory (ctx.copyPage cow parent g).2.memory := by
  rw [CowPageMap.contains_eq_isSome_get, isSome_eq_false_iff, isNone_iff_eq_none] at hnew
  rcases ctx.copyPage_cases cow parent g with ⟨heq, -⟩ | ⟨grant, page, -, -, hpage, hdone⟩
  · rw [heq]
    exact .refl _
  have hmemory : (ctx.copyPage cow parent g).2.memory =
      .forked (cow.insert g ⟨grant.frame, page.data⟩) parent := by
    rcases hdone with ⟨-, heq⟩ | ⟨ept, -, -, heq⟩
    all_goals
      rw [heq]
      rfl
  rw [hmemory, hmem]
  exact ⟨rfl, readGuestMemory_insert hnew hpage grant.frame⟩

theorem handleCowFault_sameReads (gpa : Nat) :
    SameReads ctx.memory (ctx.handleCowFault gpa).2.memory := by
  unfold handleCowFault
  split
  · exact .refl _
  rename_i cow parent hmem
  split
  · exact .refl _
  rename_i hnew
  have hcopy := copyPage_sameReads hmem (Bool.eq_false_iff.mpr hnew)
  split
  all_goals
    rename_i heq
    rw [heq] at hcopy
    exact hcopy

theorem preCowIoChannelPage_sameReads :
    SameReads ctx.memory ctx.preCowIoChannelPage.memory := by
  unfold preCowIoChannelPage
  split
  · exact .refl _
  rename_i cow parent hmem
  dsimp only
  split
  · exact .refl _
  split
  · exact .refl _
  · rename_i hnew
    exact copyPage_sameReads hmem (Bool.eq_false_iff.mpr hnew)

end VmContext

end Bedrock
