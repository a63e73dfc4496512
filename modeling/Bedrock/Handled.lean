import Bedrock.View

/-!
# Exits are handled by the view

Handlers started in contexts that a handler cannot tell apart return the same result and
end in contexts that a handler cannot tell apart.  Three relations are needed: on the way
into the guest only the view counts, most handlers also depend on which pages are copied
and on heap allocations, and the rest on page allocations.
-/

namespace Bedrock

open Support VmcsTable VmMemory CowPageMap EptPageTable VmContext Program Option Controls VmState

structure SameView (a b : VmContext) : Prop where
  view : a.view = b.view

structure SamePages (a b : VmContext) : Prop extends SameView a b where
  copied : a.memory.copied = b.memory.copied
  heap : a.host.heap = b.host.heap

structure SameHost (a b : VmContext) : Prop extends SamePages a b where
  grants : a.grants = b.grants

variable {b a c : VmContext} {α : Type} {f : VmContext → α × VmContext}

theorem sameHost_iff : SameHost a b ↔ a.hostView = b.hostView := by
  constructor
  · intro h
    simp only [hostView, h.view, h.copied, h.heap, h.grants]
  intro h
  injection h with hview hcopied hheap hgrants
  exact ⟨⟨⟨hview⟩, hcopied, hheap⟩, hgrants⟩

theorem SameHost.trans (hab : SameHost a b) (hbc : SameHost b c) : SameHost a c :=
  sameHost_iff.mpr ((sameHost_iff.mp hab).trans (sameHost_iff.mp hbc))

theorem SameView.trans (hab : SameView a b) (hbc : SameView b c) : SameView a c :=
  ⟨hab.view.trans hbc.view⟩

theorem SamePages.trans (hab : SamePages a b) (hbc : SamePages b c) : SamePages a c :=
  ⟨hab.toSameView.trans hbc.toSameView, hab.copied.trans hbc.copied, hab.heap.trans hbc.heap⟩

section Invisible

variable {a b a' b' : VmContext} (ha : a'.hostView = a.hostView) (hb : b'.hostView = b.hostView)

include ha hb

theorem SameHost.of_hostView (h : SameHost a b) : SameHost a' b' :=
  (sameHost_iff.mpr ha).trans (h.trans (sameHost_iff.mpr hb.symm))

theorem SamePages.of_hostView (h : SamePages a b) : SamePages a' b' :=
  (sameHost_iff.mpr ha).toSamePages.trans (h.trans (sameHost_iff.mpr hb.symm).toSamePages)

theorem SameView.of_hostView (h : SameView a b) : SameView a' b' :=
  (sameHost_iff.mpr ha).toSameView.trans (h.trans (sameHost_iff.mpr hb.symm).toSameView)

end Invisible

/-- Switching interrupt-window exiting, as the view sees it. -/
def View.setInterruptWindowExiting (v : View) (on : Bool) : Except ExitError Unit × View :=
  match v.controlFaults.1 .primaryProcBasedVmExecControls with
  | some e => (.error (.vmcsReadError e), v)
  | none =>
    if (v.primary &&& intrWindowExiting != 0) = on then (.ok (), v)
    else
      match v.controlFaults.2 .primaryProcBasedVmExecControls with
      | some e => (.error (.vmcsWriteError e), v)
      | none =>
        (.ok (), { v with
          primary := if on then v.primary ||| intrWindowExiting
            else v.primary &&& ~~~intrWindowExiting })

theorem window_without_trapFlag (controls : UInt64) :
    (controls &&& ~~~monitorTrapFlag) &&& intrWindowExiting =
      controls &&& intrWindowExiting ∧
    (controls ||| intrWindowExiting) &&& ~~~monitorTrapFlag =
      (controls &&& ~~~monitorTrapFlag) ||| intrWindowExiting ∧
    (controls &&& ~~~intrWindowExiting) &&& ~~~monitorTrapFlag =
      (controls &&& ~~~monitorTrapFlag) &&& ~~~intrWindowExiting := by
  have hwindow : ~~~monitorTrapFlag &&& intrWindowExiting =
      intrWindowExiting := by decide
  have hwindow' : intrWindowExiting &&& ~~~monitorTrapFlag =
      intrWindowExiting := by decide
  refine ⟨?_, ?_, ?_⟩
  · rw [UInt64.and_assoc, hwindow]
  · rw [or_and_distrib, hwindow']
  · rw [UInt64.and_assoc, UInt64.and_assoc, UInt64.and_comm (~~~intrWindowExiting)]

variable (ctx : VmContext)

namespace VmContext

theorem setInterruptWindowExiting_view (on : Bool) :
    (ctx.setInterruptWindowExiting on).1 = (ctx.view.setInterruptWindowExiting on).1 ∧
      (ctx.setInterruptWindowExiting on).2.view = (ctx.view.setInterruptWindowExiting on).2 := by
  have hfaults : ctx.view.controlFaults =
      (ctx.state.vmcs.controls.readFault, ctx.state.vmcs.controls.writeFault) := rfl
  have hprimary : ctx.view.primary =
      ctx.state.vmcs.controls.value .primaryProcBasedVmExecControls &&&
        ~~~Controls.monitorTrapFlag := rfl
  obtain ⟨hbit, hon, hoff⟩ := window_without_trapFlag
    (ctx.state.vmcs.controls.value .primaryProcBasedVmExecControls)
  unfold setInterruptWindowExiting View.setInterruptWindowExiting VmcsTable.read
  rw [hfaults, hprimary, hbit]
  dsimp only
  cases ctx.state.vmcs.controls.readFault .primaryProcBasedVmExecControls with
  | some e => exact ⟨rfl, rfl⟩
  | none =>
    dsimp only
    split
    · exact ⟨rfl, rfl⟩
    unfold writeControl VmcsTable.write
    cases ctx.state.vmcs.controls.writeFault .primaryProcBasedVmExecControls with
    | some e => exact ⟨rfl, rfl⟩
    | none =>
      refine ⟨rfl, ?_⟩
      cases on with
      | true =>
        rw [if_pos rfl, if_pos rfl, ← hon]
        simp only [view, setVmcs, setValue_value_self]
        rfl
      | false =>
        rw [if_neg Bool.false_ne_true, if_neg Bool.false_ne_true, ← hoff]
        simp only [view, setVmcs, setValue_value_self]
        rfl

end VmContext

theorem SameView.setInterruptWindowExiting (h : SameView a b) (on : Bool) :
    (a.setInterruptWindowExiting on).1 = (b.setInterruptWindowExiting on).1 ∧
      SameView (a.setInterruptWindowExiting on).2 (b.setInterruptWindowExiting on).2 := by
  obtain ⟨hresult, hview⟩ := a.setInterruptWindowExiting_view on
  obtain ⟨hresult', hview'⟩ := b.setInterruptWindowExiting_view on
  rw [hresult, hresult', h.view]
  refine ⟨rfl, ⟨?_⟩⟩
  rw [hview, hview', h.view]

/-! ## Guest actions -/

namespace SameView

variable {a b : VmContext}

theorem modifyGuest (h : SameView a b) (f : GuestState → GuestState) :
    SameView (a.setGuest (f a.state.guest)) (b.setGuest (f b.state.guest)) :=
  ⟨congrArg (fun v : View => { v with guest := f v.guest }) h.view⟩

theorem setClock (h : SameView a b) (clock : Clock) :
    SameView (a.setClock clock) (b.setClock clock) :=
  ⟨congrArg (fun v : View => { v with clock }) h.view⟩

theorem writeVmcs (h : SameView a b) (field : VmcsField) (v : UInt64) :
    (a.writeVmcs field v).1 = (b.writeVmcs field v).1 ∧
      SameView (a.writeVmcs field v).2 (b.writeVmcs field v).2 :=
  ⟨congrArg (fun w : View => (w.fields.write field v).1) h.view,
    ⟨congrArg (fun w : View => { w with fields := (w.fields.write field v).2 }) h.view⟩⟩

theorem readVmcs (h : SameView a b) (field : VmcsField) :
    a.state.vmcs.fields.read field = b.state.vmcs.fields.read field :=
  congrArg (fun v : View => v.fields.read field) h.view

theorem guest (h : SameView a b) : a.state.guest = b.state.guest :=
  congrArg View.guest h.view

theorem clock (h : SameView a b) : a.state.clock = b.state.clock :=
  congrArg View.clock h.view

theorem config (h : SameView a b) : a.state.config = b.state.config :=
  congrArg View.config h.view

theorem memory (h : SameView a b) : a.memory.view = b.memory.view :=
  congrArg View.memory h.view

theorem mapped (h : SameView a b) (gpa : Nat) :
    (a.state.ept.lookup gpa).isSome = (b.state.ept.lookup gpa).isSome :=
  congrFun (congrArg View.mapped h.view) gpa

end SameView

theorem GuestAction.samePages (hf : GuestAction α f) (h : SamePages a b) :
    (f a).1 = (f b).1 ∧ SamePages (f a).2 (f b).2 := by
  cases hf with
  | guest => exact ⟨h.guest, h⟩
  | modifyGuest f _ => exact ⟨rfl, h.toSameView.modifyGuest f, h.copied, h.heap⟩
  | clock => exact ⟨h.clock, h⟩
  | config => exact ⟨h.config, h⟩
  | machine => exact ⟨congrArg View.machine h.view, h⟩
  | isForked => exact ⟨isForked_congr h.memory, h⟩
  | pebsRegistered => exact ⟨congrArg View.pebsRegistered h.view, h⟩
  | readVmcs field => exact ⟨h.readVmcs field, h⟩
  | writeVmcs field v =>
    obtain ⟨hresult, hview⟩ := h.toSameView.writeVmcs field v
    exact ⟨hresult, hview, h.copied, h.heap⟩
  | interruptWindow on =>
    obtain ⟨hresult, hview⟩ := h.toSameView.setInterruptWindowExiting on
    obtain ⟨_, ha⟩ := setInterruptWindowExiting_state a on
    obtain ⟨_, hb⟩ := setInterruptWindowExiting_state b on
    refine ⟨hresult, hview, ?_, ?_⟩
    · rw [ha, hb]
      exact h.copied
    · rw [ha, hb]
      exact h.heap
  | readMemory gpa len => exact ⟨readGuestMemory_congr h.memory gpa len, h⟩
  | writeMemory gpa bytes =>
    obtain ⟨hresult, hmemory⟩ := writeGuestMemory_congr h.memory h.copied gpa bytes
    refine ⟨hresult, ⟨?_⟩, ?_, h.heap⟩
    · have hview := h.view
      simp only [VmContext.view, VmContext.writeMemory, VmContext.setMemory] at hview ⊢
      injection hview with h₁ h₂ h₃ h₄ h₅ h₆ h₇ h₈ h₉ _
      rw [h₁, h₂, h₃, h₄, h₅, h₆, h₇, h₈, h₉, hmemory]
    · simp only [VmContext.writeMemory, VmContext.setMemory, writeGuestMemory_copied]
      exact h.copied
  | heapAlloc =>
    have hheap := h.heap
    refine ⟨?_, ⟨h.view⟩, h.copied, ?_⟩
    all_goals simp only [VmContext.heapAlloc, hheap]
  | emit e => exact ⟨rfl, h.of_hostView (e.run_events a).hostView (e.run_events b).hostView⟩

/-- Guest actions do not allocate pages. -/
theorem GuestAction.cowPages (hf : GuestAction α f)
    (ctx : VmContext) : (f ctx).2.host.cowPages = ctx.host.cowPages := by
  cases hf with
  | interruptWindow on =>
    obtain ⟨_, h⟩ := setInterruptWindowExiting_state ctx on
    rw [h]
    rfl
  | emit e =>
    obtain ⟨_, _, _, _, _, _, h⟩ := e.run_events ctx
    dsimp only
    rw [h]
  | _ => rfl

theorem GuestAction.sameHost (hf : GuestAction α f)
    (h : SameHost a b) : (f a).1 = (f b).1 ∧ SameHost (f a).2 (f b).2 := by
  obtain ⟨hresult, hpages⟩ := hf.samePages h.toSamePages
  refine ⟨hresult, hpages, ?_⟩
  unfold VmContext.grants
  rw [hf.cowPages, hf.cowPages]
  exact h.grants

/-! ## Copying pages -/

def VmContext.pageGranted (ctx : VmContext) : Bool :=
  ctx.grants.headD none = some true

/-- What a copy of the page at `g` does to the view of the host; `readable` says whether
the parent chain holds the page. -/
structure CopySpec (ctx : VmContext) (g : Nat) (readable : Bool) (r : Bool × VmContext) :
    Prop where
  view : r.2.view = ctx.view
  heap : r.2.host.heap = ctx.host.heap
  grants : r.2.grants = ctx.grants.tail
  copied : ∀ gpa, r.2.memory.copied gpa =
    (ctx.memory.copied gpa || ctx.pageGranted && readable && pageBase gpa == pageBase g)
  result : r.1 = (ctx.pageGranted && readable && (ctx.state.ept.lookup g).isSome)

namespace VmContext

theorem pageGranted_iff :
    ctx.pageGranted ↔ ∃ grant, ctx.allocateCowPage.1 = some grant ∧ grant.inserted := by
  unfold pageGranted grants allocateCowPage
  cases ctx.host.cowPages with
  | nil => simp
  | cons grant rest => cases grant <;> simp

theorem copied_insert (cow : CowPageMap) (parent : VmMemory) (g : Nat) (page : Page) (gpa : Nat) :
    (forked (cow.insert g page) parent).copied gpa =
      ((forked cow parent).copied gpa || pageBase gpa == pageBase g) := by
  simp only [copied, contains_eq_isSome_get, get_insert]
  by_cases h : pageBase gpa = pageBase g
  · simp [h]
  · simp [h]

theorem copyPage_spec {ctx : VmContext} {cow : CowPageMap} {parent : VmMemory} {g : Nat}
    (hmem : ctx.memory = .forked cow parent) (hnew : cow.contains g = false) :
    CopySpec ctx g (parent.readPage g).isSome (ctx.copyPage cow parent g) := by
  have hgrants : ctx.allocateCowPage.2.grants = ctx.grants.tail := by
    simp only [grants, allocateCowPage, List.map_tail]
  rcases ctx.copyPage_cases cow parent g with
    ⟨heq, hnot⟩ | ⟨grant, page, hgrant, hinserted, hpage, hdone⟩
  · have hnone : (ctx.pageGranted && (parent.readPage g).isSome) = false := by
      rwa [← Bool.not_eq_true, Bool.and_eq_true, ctx.pageGranted_iff]
    rw [heq]
    refine ⟨rfl, rfl, hgrants, fun gpa => ?_, ?_⟩
    · rw [hnone, Bool.false_and, Bool.or_false]
      rfl
    · rw [hnone, Bool.false_and]
  · have hsome : (ctx.pageGranted && (parent.readPage g).isSome) := by
      rw [ctx.pageGranted_iff.mpr ⟨grant, hgrant, hinserted⟩, hpage]
      rfl
    have hview := view_insert hnew hpage grant.frame
    have hcopied : ∀ gpa,
        (forked (cow.insert g ⟨grant.frame, page.data⟩) parent).copied gpa =
          (ctx.memory.copied gpa || pageBase gpa == pageBase g) := by
      intro gpa
      rw [copied_insert, hmem]
    rw [← hmem] at hview
    rcases hdone with ⟨hunmapped, heq⟩ | ⟨ept, hremap, hmapped, heq⟩
    · rw [heq]
      refine ⟨?_, rfl, hgrants, fun gpa => ?_, ?_⟩
      · exact congrArg (fun memory => { ctx.view with memory }) hview
      · rw [hsome, Bool.true_and]
        exact hcopied gpa
      · rw [hunmapped, isSome_none, Bool.and_false]
    have hlookup : (fun gpa => (ept.lookup gpa).isSome) =
        fun gpa => (ctx.state.ept.lookup gpa).isSome := by
      funext gpa
      exact lookup_isSome_remap (by decide) hremap gpa
    rw [heq]
    refine ⟨?_, rfl, hgrants, fun gpa => ?_, ?_⟩
    · calc
        _ = { ctx.view with
              mapped := fun gpa => (ept.lookup gpa).isSome
              memory := (forked (cow.insert g ⟨grant.frame, page.data⟩) parent).view } :=
          rfl
        _ = ctx.view := by
          rw [hlookup, hview]
          rfl
    · rw [hsome, Bool.true_and]
      exact hcopied gpa
    · rw [hsome, hmapped]
      rfl

end VmContext

theorem CopySpec.sameHost {g : Nat} {readable : Bool} {r r' : Bool × VmContext}
    (ha : CopySpec a g readable r) (hb : CopySpec b g readable r') (h : SameHost a b) :
    r.1 = r'.1 ∧ SameHost r.2 r'.2 := by
  have hgranted : a.pageGranted = b.pageGranted := by
    unfold pageGranted
    rw [h.grants]
  refine ⟨?_, ⟨⟨?_⟩, ?_, ?_⟩, ?_⟩
  · rw [ha.result, hb.result, hgranted, h.mapped]
  · rw [ha.view, hb.view, h.view]
  · funext gpa
    rw [ha.copied, hb.copied, h.copied, hgranted]
  · rw [ha.heap, hb.heap, h.heap]
  · rw [ha.grants, hb.grants, h.grants]

namespace SameHost

variable {a b : VmContext}

/-- Both VMs are roots, or forks of one parent that have copied the same pages. -/
theorem memory_cases (h : SameHost a b) :
    (∃ memory memory', a.memory = .root memory ∧ b.memory = .root memory') ∨
      ∃ cow cow' parent, a.memory = .forked cow parent ∧ b.memory = .forked cow' parent ∧
        ∀ g, cow.contains g = cow'.contains g := by
  have hview := h.memory
  have hcopied := h.copied
  cases ha : a.memory with
  | root memory =>
    cases hb : b.memory with
    | root memory' => exact .inl ⟨_, _, rfl, rfl⟩
    | forked cow' parent' =>
      rw [ha, hb] at hview
      cases hview
  | forked cow parent =>
    cases hb : b.memory with
    | root memory' =>
      rw [ha, hb] at hview
      cases hview
    | forked cow' parent' =>
      rw [ha, hb] at hview hcopied
      injection hview with _ hparent
      subst hparent
      exact .inr ⟨_, _, _, rfl, rfl, congrFun hcopied⟩

theorem handleCowFault (h : SameHost a b) (gpa : Nat) :
    (a.handleCowFault gpa).1 = (b.handleCowFault gpa).1 ∧
      SameHost (a.handleCowFault gpa).2 (b.handleCowFault gpa).2 := by
  unfold VmContext.handleCowFault
  rcases h.memory_cases with ⟨_, _, ha, hb⟩ | ⟨cow, cow', parent, ha, hb, hcontains⟩
  · rw [ha, hb]
    exact ⟨rfl, h⟩
  rw [ha, hb]
  dsimp only
  rw [hcontains]
  split
  · exact ⟨rfl, h⟩
  rename_i hnew
  have hnew' := Bool.eq_false_iff.mpr hnew
  obtain ⟨hresult, hhost⟩ :=
    (copyPage_spec ha ((hcontains _).trans hnew')).sameHost (copyPage_spec hb hnew') h
  generalize a.copyPage cow parent (pageBase gpa) = r at hresult hhost
  generalize b.copyPage cow' parent (pageBase gpa) = r' at hresult hhost
  obtain ⟨ok, a'⟩ := r
  obtain ⟨ok', b'⟩ := r'
  cases hresult
  cases ok with
  | true | false => exact ⟨rfl, hhost⟩

theorem preCowIoChannelPage (h : SameHost a b) :
    SameHost a.preCowIoChannelPage b.preCowIoChannelPage := by
  unfold VmContext.preCowIoChannelPage
  rw [h.guest]
  rcases h.memory_cases with ⟨_, _, ha, hb⟩ | ⟨cow, cow', parent, ha, hb, hcontains⟩
  · rw [ha, hb]
    exact h
  rw [ha, hb]
  dsimp only
  split
  · exact h
  rw [hcontains]
  split
  · exact h
  rename_i hnew
  have hnew' := Bool.eq_false_iff.mpr hnew
  exact ((copyPage_spec ha ((hcontains _).trans hnew')).sameHost (copyPage_spec hb hnew') h).2

end SameHost

/-! ## Registering the precise-exit page -/

/-- How `register_pebs_page` ends: the page is unmapped, it cannot be written, or it is
registered. -/
inductive PebsInstall (ctx : VmContext) (written : Except MemoryError Unit × VmMemory)
    (mapped : Bool) : RegisterPebsPageResult × VmContext → Prop
  | unmapped (h : mapped = false) : PebsInstall ctx written mapped (.notEptMapped, ctx)
  | refused {e : MemoryError} (h : mapped = true) (hwrite : written.1 = .error e) :
      PebsInstall ctx written mapped (.notEptMapped, ctx.setMemory written.2)
  | registered {ctx' : VmContext} (h : mapped = true) (hwrite : written.1 = .ok ())
      (hview : ctx'.view =
        { ctx.view with memory := written.2.view, pebsRegistered := true })
      (hmemory : ctx'.memory = written.2) (hhost : ctx'.host = ctx.host) :
      PebsInstall ctx written mapped (.success, ctx')

theorem VmContext.installPebsPage_spec (g : Nat) :
    PebsInstall ctx (ctx.memory.writeGuestMemory g
        (dsManagementAreaBytes (GUEST_LINUX_PAGE_OFFSET + UInt64.ofNat g)))
      (ctx.state.ept.lookup g).isSome (ctx.installPebsPage g) := by
  generalize hwritten : ctx.memory.writeGuestMemory g
    (dsManagementAreaBytes (GUEST_LINUX_PAGE_OFFSET + UInt64.ofNat g)) = written
  unfold installPebsPage
  dsimp only
  rw [hwritten]
  cases hlookup : ctx.state.ept.lookup g with
  | none => exact .unmapped rfl
  | some entry =>
    rw [if_neg (by simp)]
    obtain ⟨r, memory⟩ := written
    cases r with
    | error e => exact .refused rfl rfl
    | ok u =>
      have hept : (ctx.setMemory memory).state.ept = ctx.state.ept := rfl
      dsimp only
      rw [hept, hlookup]
      dsimp only
      have hmapped : (ctx.state.ept.lookup g).isSome := by rw [hlookup]; rfl
      obtain ⟨ept, hremap⟩ :=
        (ctx.state.ept.remap_isOk_iff g entry.1 .READ_EXECUTE).mpr hmapped
      have hlookups : (fun gpa => (ept.lookup gpa).isSome) =
          fun gpa => (ctx.state.ept.lookup gpa).isSome := by
        funext gpa
        exact lookup_isSome_remap (by decide) hremap gpa
      rw [hremap]
      refine .registered rfl rfl ?_ rfl rfl
      -- none of the three controls written is the one the view holds
      simp only [view, setMemory, hlookups, write_readFault, write_writeFault, isSome_some]
      rw [write_value_of_ne _ _ (by decide), write_value_of_ne _ _ (by decide)]
      split
      · rw [write_value_of_ne _ _ (by decide), write_readFault, write_writeFault]
      · rfl

theorem SamePages.installPebsPage (h : SamePages a b) (g : Nat) :
    (a.installPebsPage g).1 = (b.installPebsPage g).1 ∧
      SamePages (a.installPebsPage g).2 (b.installPebsPage g).2 := by
  have ha := a.installPebsPage_spec g
  have hb := b.installPebsPage_spec g
  obtain ⟨hresult, hmemory⟩ := writeGuestMemory_congr h.memory h.copied g
    (dsManagementAreaBytes (GUEST_LINUX_PAGE_OFFSET + UInt64.ofNat g))
  have hcopied := a.memory.writeGuestMemory_copied g
    (dsManagementAreaBytes (GUEST_LINUX_PAGE_OFFSET + UInt64.ofNat g))
  have hcopied' := b.memory.writeGuestMemory_copied g
    (dsManagementAreaBytes (GUEST_LINUX_PAGE_OFFSET + UInt64.ofNat g))
  rw [h.mapped] at ha
  generalize a.memory.writeGuestMemory g _ = w at *
  generalize b.memory.writeGuestMemory g _ = w' at *
  generalize a.installPebsPage g = r at *
  generalize b.installPebsPage g = r' at *
  cases ha with
  | unmapped hmapped =>
    cases hb with
    | unmapped _ => exact ⟨rfl, h⟩
    | refused hmapped' _ => rw [hmapped] at hmapped'; cases hmapped'
    | registered hmapped' => rw [hmapped] at hmapped'; cases hmapped'
  | refused hmapped hwrite =>
    cases hb with
    | unmapped hmapped' => rw [hmapped] at hmapped'; cases hmapped'
    | refused _ _ =>
      refine ⟨rfl, ⟨?_⟩, ?_, h.heap⟩
      · calc
          _ = { a.view with memory := w.2.view } := rfl
          _ = { b.view with memory := w'.2.view } := by rw [h.view, hmemory]
      · exact hcopied.trans (h.copied.trans hcopied'.symm)
    | registered _ hwrite' => rw [hresult, hwrite'] at hwrite; cases hwrite
  | registered hmapped hwrite hview hmem hhost =>
    cases hb with
    | unmapped hmapped' => rw [hmapped] at hmapped'; cases hmapped'
    | refused _ hwrite' => rw [hresult, hwrite'] at hwrite; cases hwrite
    | registered _ _ hview' hmem' hhost' =>
      refine ⟨rfl, ⟨?_⟩, ?_, ?_⟩
      · rw [hview, hview', h.view, hmemory]
      · rw [hmem, hmem', hcopied, hcopied', h.copied]
      · rw [hhost, hhost', h.heap]

theorem VmContext.installPebsPage_cowPages (g : Nat) :
    (ctx.installPebsPage g).2.host.cowPages = ctx.host.cowPages := by
  have h := ctx.installPebsPage_spec g
  generalize ctx.installPebsPage g = r at h
  cases h with
  | unmapped _ | refused _ _ => rfl
  | registered _ _ _ _ hhost => rw [hhost]

/-! ## All handlers -/

theorem HandlerAction.sameHost (hf : HandlerAction α f)
    (h : SameHost a b) : (f a).1 = (f b).1 ∧ SameHost (f a).2 (f b).2 := by
  cases hf with
  | guest hf => exact hf.sameHost h
  | cowFault gpa => exact h.handleCowFault gpa
  | preCow => exact ⟨rfl, h.preCowIoChannelPage⟩
  | installPebs gpaPage =>
    obtain ⟨hresult, hpages⟩ := h.toSamePages.installPebsPage gpaPage
    refine ⟨hresult, hpages, ?_⟩
    unfold VmContext.grants
    rw [a.installPebsPage_cowPages, b.installPebsPage_cowPages]
    exact h.grants

theorem DispatchAction.sameHost (hf : DispatchAction α f) (h : SameHost a b) :
    (f a).1 = (f b).1 ∧ SameHost (f a).2 (f b).2 := by
  cases hf with
  | handler hf => exact hf.sameHost h
  | pebsExit =>
    exact ⟨rfl, h.of_hostView a.handlePebsPreciseExit_hostView b.handlePebsPreciseExit_hostView⟩
  | preemptionTimer =>
    have hfault : a.state.vmcs.controls.writeFault = b.state.vmcs.controls.writeFault :=
      congrArg (fun v : View => v.controlFaults.2) h.view
    refine ⟨?_, h.of_hostView (a.writeControl_hostView _ (by decide))
      (b.writeControl_hostView _ (by decide))⟩
    dsimp only [writeControl]
    unfold write
    rw [hfault]
    cases b.state.vmcs.controls.writeFault .vmxPreemptionTimerValue <;> rfl

theorem ExitAction.sameHost (hf : ExitAction α f)
    (h : SameHost a b) : (f a).1 = (f b).1 ∧ SameHost (f a).2 (f b).2 := by
  cases hf with
  | dispatch hf => exact hf.sameHost h
  | capture p => exact ⟨rfl, h.of_hostView (p.run_events a).hostView (p.run_events b).hostView⟩
  | consume =>
    refine ⟨rfl, ⟨?_, h.copied, h.heap⟩, h.grants⟩
    exact h.toSameView.modifyGuest fun g => { g with ioChannel := g.ioChannel.consumeRequest }

/-- An idle guest sleeps as long. -/
theorem SameView.advanceToWake (h : SameView a b) : SameView a.advanceToWake b.advanceToWake := by
  have htarget : a.state.idleTarget = b.state.idleTarget := by
    unfold idleTarget nextIoChannelTargetTsc
    rw [h.guest, h.config]
  unfold VmContext.advanceToWake
  rw [htarget, h.clock]
  cases b.state.idleTarget with
  | none => exact h
  | some target =>
    dsimp only
    split
    · exact h.setClock _
    · exact h

theorem VmContext.advanceToWake_hostInputs :
    ctx.advanceToWake.memory = ctx.memory ∧ ctx.advanceToWake.host = ctx.host := by
  obtain ⟨clock, hwake⟩ := ctx.advanceToWake_setClock
  rw [hwake]
  exact ⟨rfl, rfl⟩

theorem SameHost.advanceToWake (h : SameHost a b) : SameHost a.advanceToWake b.advanceToWake := by
  obtain ⟨ha, ha'⟩ := a.advanceToWake_hostInputs
  obtain ⟨hb, hb'⟩ := b.advanceToWake_hostInputs
  refine ⟨⟨h.toSameView.advanceToWake, ?_, ?_⟩, ?_⟩
  · rw [ha, hb, h.copied]
  · rw [ha', hb', h.heap]
  unfold VmContext.grants
  rw [ha', hb']
  exact h.grants

/-- HLT and MWAIT. -/
theorem SameHost.handleIdle (h : SameHost a b) :
    (handleIdle a).1 = (handleIdle b).1 ∧ SameHost (handleIdle a).2 (handleIdle b).2 :=
  Built.respects (A := GuestAction) (R := SameHost) (fun _ hf _ _ h => hf.sameHost h)
    (inferInstance : Built GuestAction (advanceAndReturn .continue_)) _ _ h.advanceToWake

/-- Every exit is handled by the view of the host. -/
theorem SameHost.dispatch (h : SameHost a b) (reason : ExitReason) (qual : UInt64) :
    (dispatch reason qual a).1 = (dispatch reason qual b).1 ∧
      SameHost (dispatch reason qual a).2 (dispatch reason qual b).2 := by
  by_cases hreason : reason = .hlt ∨ reason = .mwait
  · rw [dispatch_idle qual hreason]
    obtain ⟨hresult, hhost⟩ := h.handleIdle
    unfold call handle
    rw [bind_ok (attempt_apply _ _), bind_ok (attempt_apply _ _), hresult]
    cases (Bedrock.handleIdle b).1 with
    | error r | ok r => exact ⟨rfl, hhost⟩
  · exact (dispatch_built qual (fun h => hreason (.inl h)) (fun h => hreason (.inr h))).respects
      (R := SameHost) (fun _ hf _ _ h => hf.sameHost h) _ _ h

namespace SameView

variable {a b : VmContext}

theorem exitInfo (h : SameView a b) : a.exitInfo = b.exitInfo := by
  unfold VmContext.exitInfo
  rw [h.readVmcs, h.readVmcs]

theorem nonDeterministicExit (h : SameView a b) (reason : ExitReason) (qual : UInt64) :
    a.state.nonDeterministicExit reason qual = b.state.nonDeterministicExit reason qual := by
  unfold VmState.nonDeterministicExit onBoundary inSingleStep
    nextTimerExitCount timerTarget nextIoChannelExitCount
    nextIoChannelTargetTsc stopAtCount readOrZero
  rw [h.guest, h.clock, h.config, h.readVmcs]

theorem beginExit (h : SameView a b) (deterministic : Bool) :
    SameView (a.beginExit deterministic) (b.beginExit deterministic) :=
  ⟨congrArg (fun v : View => { v with
    clock := if deterministic then { v.clock with emulatedTsc := v.clock.now } else v.clock })
    h.view⟩

end SameView

theorem SameHost.beginExit (h : SameHost a b) (deterministic : Bool) :
    SameHost (a.beginExit deterministic) (b.beginExit deterministic) :=
  ⟨⟨h.toSameView.beginExit deterministic, h.copied, h.heap⟩, h.grants⟩

namespace VmContext

theorem handleExit_hostView {ctx : VmContext} {reason : ExitReason} {qual : UInt64}
    (hinfo : ctx.exitInfo = .ok (reason, qual)) :
    ctx.handleExit.2.hostView =
      (dispatch reason qual
        (ctx.beginExit !ctx.state.nonDeterministicExit reason qual)).2.hostView :=
  (CaptureFrame.of_events fun h => h.hostView).handleExit_of_dispatch updateMtfState_hostView hinfo

end VmContext

/-- An exit is handled alike in contexts that handlers cannot tell apart. -/
theorem SameHost.handleExit (h : SameHost a b) {reason : ExitReason}
    {qual : UInt64} (hinfo : a.exitInfo = .ok (reason, qual)) :
    SameHost a.handleExit.2 b.handleExit.2 := by
  have hinfo' : b.exitInfo = .ok (reason, qual) := h.exitInfo ▸ hinfo
  have hclass := h.nonDeterministicExit reason qual
  rw [sameHost_iff, handleExit_hostView hinfo, handleExit_hostView hinfo', hclass, ← sameHost_iff]
  exact ((h.beginExit _).dispatch reason qual).2

end Bedrock
