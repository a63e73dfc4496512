import Bedrock.Injection

/-!
# What the guest and the handlers can tell

The view of a context is everything that a handler or the guest can distinguish: it
leaves out the event stream, the trap flag, the arming of the precise-exit counter and
the frames behind guest memory.  Handlers are functions of the view, of which pages are
copied and of how the host answers allocations; what the host does around them does not
change the view.
-/

namespace Bedrock

open Support CowPageMap VmcsTable Option Controls VmContext

/-! ## Memory -/

/-- Guest memory as it reads; a forked VM's pages with those it inherits. -/
inductive MemoryView
  | root (memory : GuestMemory)
  | forked (pages : Nat → Option (Nat → UInt8)) (parent : VmMemory)

namespace VmMemory

def view : VmMemory → MemoryView
  | root memory => .root memory
  | forked cow parent => .forked (pageData (forked cow parent)) parent

def copied : VmMemory → Nat → Bool
  | root _, _ => false
  | forked cow _, gpa => cow.contains gpa

theorem pageData_forked (cow : CowPageMap) (parent : VmMemory) (gpa : Nat) :
    pageData (forked cow parent) gpa = ((cow.get gpa).map Page.data).or (parent.pageData gpa) := by
  simp only [pageData, readPage, parent.readPage_pageBase]
  cases cow.get gpa <;> rfl

theorem view_forked {cow cow' : CowPageMap} (parent : VmMemory)
    (h : ∀ gpa, (cow.get gpa).map Page.data = (cow'.get gpa).map Page.data) :
    (forked cow parent).view = (forked cow' parent).view := by
  have hpages : pageData (forked cow parent) = pageData (forked cow' parent) := by
    funext gpa
    rw [pageData_forked, pageData_forked, h]
  simp only [view, hpages]

variable {mem mem' : VmMemory}

theorem readGuestMemory_congr (h : mem.view = mem'.view) (gpa len : Nat) :
    mem.readGuestMemory gpa len = mem'.readGuestMemory gpa len := by
  cases mem with
  | root memory =>
    cases mem' with
    | root memory' =>
      cases h
      rfl
    | forked cow' parent' => cases h
  | forked cow parent =>
    cases mem' with
    | root memory' => cases h
    | forked cow' parent' =>
      have hpages : pageData (forked cow parent) = pageData (forked cow' parent') := by
        injection h
      simp only [readGuestMemory, hpages]

theorem isForked_congr (h : mem.view = mem'.view) : mem.isForked = mem'.isForked := by
  cases mem with
  | root memory =>
    cases mem' with
    | root memory' => rfl
    | forked cow' parent' => cases h
  | forked cow parent =>
    cases mem' with
    | root memory' => cases h
    | forked cow' parent' => rfl

theorem copies_congr {cow cow' : CowPageMap} {parent parent' : VmMemory}
    (hview : (forked cow parent).view = (forked cow' parent').view)
    (hcopied : (forked cow parent).copied = (forked cow' parent').copied) (gpa : Nat) :
    (cow.get gpa).map Page.data = (cow'.get gpa).map Page.data := by
  injection hview with hpages hparent
  have hpage := congrFun hpages gpa
  have hsome : (cow.get gpa).isSome = (cow'.get gpa).isSome := by
    rw [← contains_eq_isSome_get, ← contains_eq_isSome_get]
    exact congrFun hcopied gpa
  rw [pageData_forked, pageData_forked] at hpage
  cases hget : cow.get gpa with
  | none =>
    cases hget' : cow'.get gpa with
    | none => rfl
    | some page' =>
      rw [hget, hget'] at hsome
      cases hsome
  | some page =>
    cases hget' : cow'.get gpa with
    | none =>
      rw [hget, hget'] at hsome
      cases hsome
    | some page' =>
      rw [hget, hget'] at hpage
      exact hpage

theorem writeGuestMemory_congr (hview : mem.view = mem'.view) (hcopied : mem.copied = mem'.copied)
    (gpa : Nat) (bytes : List UInt8) :
    (mem.writeGuestMemory gpa bytes).1 = (mem'.writeGuestMemory gpa bytes).1 ∧
      (mem.writeGuestMemory gpa bytes).2.view = (mem'.writeGuestMemory gpa bytes).2.view := by
  cases mem with
  | root memory =>
    cases mem' with
    | root memory' =>
      cases hview
      exact ⟨rfl, rfl⟩
    | forked cow' parent' => cases hview
  | forked cow parent =>
    cases mem' with
    | root memory' => cases hview
    | forked cow' parent' =>
      have hcopies := copies_congr hview hcopied
      obtain ⟨hflag, hpages⟩ : _ ∧ ∀ a, cowStore.page _ (pageStart PAGE_SIZE a) = _ :=
        writeSpan_congr (bytes.length + 1) gpa bytes hcopies
      injection hview with _ hparent
      subst hparent
      simp only [writeGuestMemory, hflag]
      exact ⟨trivial, view_forked parent hpages⟩

theorem writeGuestMemory_copied (mem : VmMemory) (gpa : Nat) (bytes : List UInt8) :
    (mem.writeGuestMemory gpa bytes).2.copied = mem.copied := by
  cases mem with
  | root memory =>
    unfold writeGuestMemory
    dsimp only
    split <;> rfl
  | forked cow parent =>
    funext addr
    have hframes := congrArg Option.isSome
      (writeSpan_frames cow (bytes.length + 1) gpa bytes addr)
    simp only [writeGuestMemory, copied, contains_eq_isSome_get]
    simpa using hframes

theorem view_insert {cow : CowPageMap} {parent : VmMemory} {g : Nat} {page : Page}
    (hnew : cow.contains g = false) (hpage : parent.readPage g = some page) (frame : HostFrame) :
    (forked (cow.insert g ⟨frame, page.data⟩) parent).view = (forked cow parent).view := by
  rw [contains_eq_isSome_get, isSome_eq_false_iff, isNone_iff_eq_none]
    at hnew
  have hpages : pageData (forked (cow.insert g ⟨frame, page.data⟩) parent) =
      pageData (forked cow parent) := by
    funext gpa
    rw [pageData_forked, pageData_forked, get_insert]
    split
    · rename_i hbase
      have hnone : cow.get gpa = none := by
        rw [← cow.get_pageBase, hbase, cow.get_pageBase, hnew]
      have hparent : parent.pageData gpa = some page.data := by
        rw [pageData, ← parent.readPage_pageBase, hbase, parent.readPage_pageBase, hpage]
        rfl
      rw [hnone, hparent]
      rfl
    · rfl
  simp only [view, hpages]

end VmMemory

/-- What the guest and the handlers can tell about a context. -/
structure View where
  machine : Machine
  guest : GuestState
  clock : Clock
  config : RunConfig
  fields : VmcsTable VmcsField
  controlFaults : (VmcsControl → Option VmcsReadError) × (VmcsControl → Option VmcsWriteError)
  /-- The execution controls without the trap flag. -/
  primary : UInt64
  pebsRegistered : Bool
  mapped : Nat → Bool
  memory : MemoryView

/-- What decides how an exit is handled: the view, which pages are copied, and how the
host answers heap and page allocations. -/
structure HostView where
  view : View
  copied : Nat → Bool
  heap : List Bool
  grants : List (Option Bool)

namespace VmContext

def view (ctx : VmContext) : View where
  machine := ctx.machine
  guest := ctx.state.guest
  clock := ctx.state.clock
  config := ctx.state.config
  fields := ctx.state.vmcs.fields
  controlFaults := (ctx.state.vmcs.controls.readFault, ctx.state.vmcs.controls.writeFault)
  primary := ctx.state.vmcs.controls.value .primaryProcBasedVmExecControls &&&
    ~~~monitorTrapFlag
  pebsRegistered := ctx.state.precise.pebsState.isSome
  mapped := fun gpa => (ctx.state.ept.lookup gpa).isSome
  memory := ctx.memory.view

/-- How the host answers page allocations: whether it grants the page and whether the
insertion in the map of copied pages succeeds. -/
def grants (ctx : VmContext) : List (Option Bool) :=
  ctx.host.cowPages.map (Option.map CowGrant.inserted)

def hostView (ctx : VmContext) : HostView where
  view := ctx.view
  copied := ctx.memory.copied
  heap := ctx.host.heap
  grants := ctx.grants

end VmContext

theorem EventsOnly.hostView {before after : VmContext} (h : EventsOnly before after) :
    after.hostView = before.hostView := by
  obtain ⟨_, _, _, _, hpebs, _, rfl⟩ := h
  simp only [VmContext.hostView, VmContext.view, VmContext.grants, hpebs]

namespace VmContext

variable (ctx : VmContext)

theorem updateMtfState_hostView : ctx.updateMtfState.2.hostView = ctx.hostView := by
  unfold updateMtfState
  dsimp only
  split
  · rfl
  split
  · rfl
  rename_i controls hread
  split
  · rfl
  rename_i table hwrite
  have hvalue := value_of_read hread
  unfold write at hwrite
  split at hwrite
  · cases hwrite
  cases hwrite
  simp only [hostView, view, grants, setValue_value_self, hvalue]
  have hflag : (if ctx.state.wantsMtf ctx.machine.getMtfMargin then
      controls ||| monitorTrapFlag
    else controls &&& ~~~monitorTrapFlag) &&& ~~~monitorTrapFlag =
      controls &&& ~~~monitorTrapFlag := by
    split
    · rw [or_and_distrib, UInt64.and_not_self, UInt64.or_zero]
    · rw [UInt64.and_assoc, UInt64.and_self]
  rw [hflag]
  rfl

theorem writeControl_hostView {control : VmcsControl} (v : UInt64)
    (hne : control ≠ .primaryProcBasedVmExecControls) :
    (ctx.writeControl control v).2.hostView = ctx.hostView := by
  have hvalue := ctx.state.vmcs.controls.write_value_of_ne v (Ne.symm hne)
  simp only [hostView, view, grants, writeControl, setVmcs, hvalue, write_readFault,
    write_writeFault]

theorem armForNextIteration_hostView : ctx.armForNextIteration.hostView = ctx.hostView := by
  unfold armForNextIteration
  split
  · rfl
  · rename_i pebs hpebs
    simp only [hostView, view, grants, hpebs, isSome_some]

theorem handlePebsPreciseExit_hostView : ctx.handlePebsPreciseExit.hostView = ctx.hostView := by
  unfold handlePebsPreciseExit
  dsimp only
  split
  · rfl
  · rename_i pebs hpebs
    simp only [hostView, view, grants, hpebs, isSome_some]

theorem startRun_hostView : ctx.startRun.2.hostView = ctx.hostView :=
  (updateMtfState_hostView _).trans (ctx.writeControl_hostView _ (by decide))

theorem resume_hostView (how : Resume) : (ctx.resume how).2.hostView = ctx.hostView := by
  cases how with
  | loop => rfl
  | refilled => exact ctx.startRun_hostView
  | ioctl => exact startRun_hostView _

theorem leave_hostView : ctx.leave.2.hostView = ctx.handleExit.2.hostView := by
  unfold leave
  split
  · rename_i heq
    rw [heq]
  rename_i heq
  rw [heq]
  exact (finalizeExitRecord_events _).hostView

end VmContext

end Bedrock
