import Bedrock.Invisible
import Bedrock.Support.Stutter

/-!
# Runs that differ in unnoticed exits

The guest is any function of what it can see.  Between two deterministic exits it may be
interrupted any number of times, at any point, by exits it does not notice.  Two runs
from one state that pass the same deterministic exits then agree at each of them, if they
have copied the same pages there.
-/

namespace Bedrock

open Support VmcsTable VmContext Iteration List

/-- The processor reports an exit in this field. -/
def VmcsField.reportsExit : VmcsField → Bool
  | .vmExitReason | .exitQualification | .guestPhysicalAddr | .vmExitInstructionLen
  | .vmExitInstructionInfo | .vmExitInterruptionInfo | .vmExitInterruptionErrorCode
  | .idtVectoringInfo | .idtVectoringErrorCode => true
  | _ => false

/-- What the processor reports about an exit. -/
abbrev ExitReport : Type :=
  VmcsField → UInt64

namespace VmcsTable

/-- After an exit the report is filled in, and the event field is no longer valid. -/
def exit (fields : VmcsTable VmcsField) (report : ExitReport) : VmcsTable VmcsField :=
  { fields with
    value := fun field =>
      if field.reportsExit then report field
      else if field = .vmEntryInterruptionInfo then fields.value field &&& ~~~0x80000000
      else fields.value field }

/-- What the fields hold besides the report of the last exit. -/
def withoutReport (fields : VmcsTable VmcsField) : VmcsTable VmcsField :=
  { fields with value := fun field => if field.reportsExit then 0 else fields.value field }

/-- The processor reports an event that the guest has not finished taking. -/
def Reports (fields : VmcsTable VmcsField) (report : ExitReport) : Prop :=
  let event := fields.value .vmEntryInterruptionInfo
  if bitSet event 31 = true then
    report .idtVectoringInfo = event ∧
      (bitSet event 11 = true →
        report .idtVectoringErrorCode = fields.value .vmEntryExceptionErrorCode)
  else bitSet (report .idtVectoringInfo) 31 = false

theorem withoutReport_congr {fields fields' : VmcsTable VmcsField}
    (hread : fields.readFault = fields'.readFault) (hwrite : fields.writeFault = fields'.writeFault)
    (hvalue : ∀ field, field.reportsExit = false → fields.value field = fields'.value field) :
    fields.withoutReport = fields'.withoutReport := by
  have hall : fields.withoutReport.value = fields'.withoutReport.value := by
    funext field
    cases h : field.reportsExit with
    | true => simp [withoutReport, h]
    | false => simp [withoutReport, h, hvalue field h]
  simp only [withoutReport] at hall ⊢
  rw [hall, hread, hwrite]

theorem exit_withoutReport (fields : VmcsTable VmcsField) (report : ExitReport) :
    fields.withoutReport.exit report = fields.exit report := by
  have hvalue : (fields.withoutReport.exit report).value = (fields.exit report).value := by
    funext field
    cases h : field.reportsExit with
    | true => simp [exit, h]
    | false => simp [exit, withoutReport, h]
  simp only [exit] at hvalue ⊢
  rw [hvalue]
  rfl

end VmcsTable

namespace VmContext

/-- The guest is left with the given report; `host` is what the host will contribute. -/
def exit (ctx : VmContext) (report : ExitReport) (host : HostInputs) : VmContext :=
  { ctx.setVmcs { ctx.state.vmcs with fields := ctx.state.vmcs.fields.exit report } with host }

/-- What the guest can tell while it runs. -/
def runView (ctx : VmContext) : View :=
  { ctx.view with fields := ctx.state.vmcs.fields.withoutReport }

theorem exit_view (ctx : VmContext) (report : ExitReport) (host : HostInputs) :
    (ctx.exit report host).view =
      { ctx.runView with fields := ctx.runView.fields.exit report } := by
  have hfields : ctx.runView.fields.exit report = ctx.state.vmcs.fields.exit report :=
    exit_withoutReport _ report
  rw [hfields]
  rfl

end VmContext

/-! ## Unnoticed exits are silent -/

theorem clear_valid {w : UInt64} (h : bitSet w 31 = false) : w &&& ~~~0x80000000 = w := by
  have hbit : w.toBitVec.getLsbD 31 = false := by
    have hzero : (w >>> 31) &&& 1 = 0 := by simpa [bitSet] using h
    simpa using congrArg (fun x : UInt64 => x.toBitVec.getLsbD 0) hzero
  have hmask : (0x80000000 : UInt64).toBitVec = BitVec.twoPow 64 31 := by decide
  apply UInt64.eq_of_toBitVec_eq
  rw [UInt64.toBitVec_and, UInt64.toBitVec_not, hmask]
  apply BitVec.eq_of_getLsbD_eq
  intro i hi
  rw [BitVec.getLsbD_and, BitVec.getLsbD_not, BitVec.getLsbD_twoPow]
  by_cases h31 : i = 31
  · subst h31
    rw [hbit]
    rfl
  · simp [hi, Ne.symm h31]

variable {start ctx : VmContext} {g : Guest} {stop : Stop} {b a : VmContext} {qual : UInt64}
  {reason : ExitReason}

theorem VmContext.enter_unnoticed {entered : VmContext} {how : Resume}
    {injected : Option UInt32} (hdet : start.state.lastExitDeterministic = false)
    (henter : start.enter how = (.ok injected, entered)) :
    injected = none ∧ entered.view = { start.view with
      fields := if bitSet (start.state.vmcs.fields.value .idtVectoringInfo) 31 then
        start.state.vmcs.fields.reinject else start.state.vmcs.fields } := by
  obtain ⟨resumed, hresume, hinject⟩ := enter_ok henter
  have hview := congrArg HostView.view (start.resume_hostView how)
  have hresumed := start.resume_deterministic how
  rw [hresume] at hview hresumed
  have hfields : resumed.state.vmcs.fields = start.state.vmcs.fields := congrArg View.fields hview
  obtain ⟨v, hread⟩ := injectPendingInterrupt_reads hinject
  have hinterrupted :
      resumed.interrupted = bitSet (start.state.vmcs.fields.value .idtVectoringInfo) 31 := by
    rw [← hfields, value_of_read hread, interrupted, readOrZero_of_read hread]
  rw [← hinterrupted]
  obtain ⟨eligible, queued, heligible, hrest⟩ := injectPendingInterrupt_ok hinject
  have harm := congrArg HostView.view queued.armForNextIteration_hostView
  cases heligible with
  | reinjected h =>
    rcases hrest with ⟨_, rfl, rfl⟩ | ⟨hfalse, -⟩
    · refine ⟨rfl, harm.trans ?_⟩
      rw [if_pos h, ← hfields]
      exact congrArg (fun v : View =>
        { v with fields := resumed.state.vmcs.fields.reinject }) hview
    · cases hfalse
  | deferred h _ =>
    rcases hrest with ⟨_, rfl, rfl⟩ | ⟨hfalse, -⟩
    · refine ⟨rfl, harm.trans ?_⟩
      rw [if_neg (by simp [h])]
      exact hview
    · cases hfalse
  | raised h _ =>
    have hconsiders : resumed.state.lastExitDeterministic := by
      simp only [considers, Bool.and_eq_true] at h
      exact h.1.2
    rw [hresumed.trans hdet] at hconsiders
    cases hconsiders

namespace VmcsTable

variable {fields : VmcsTable VmcsField} {report : ExitReport}

theorem exit_value {field : VmcsField} (hreport : field.reportsExit = false)
    (hevent : field ≠ .vmEntryInterruptionInfo) :
    (fields.exit report).value field = fields.value field := by
  simp [exit, hreport, hevent]

theorem reinject_faults (fields : VmcsTable VmcsField) :
    fields.reinject.readFault = fields.readFault ∧
      fields.reinject.writeFault = fields.writeFault := by
  unfold reinject
  dsimp only
  split
  all_goals exact ⟨rfl, rfl⟩

theorem reinject_exit_value (hevent : report .idtVectoringInfo = fields.value .vmEntryInterruptionInfo)
    (hcode : bitSet (fields.value .vmEntryInterruptionInfo) 11 →
      report .idtVectoringErrorCode = fields.value .vmEntryExceptionErrorCode)
    (field : VmcsField) (hreport : field.reportsExit = false) :
    (fields.exit report).reinject.value field = fields.value field := by
  have hinfo : (fields.exit report).value .idtVectoringInfo =
      fields.value .vmEntryInterruptionInfo := hevent
  have herror : (fields.exit report).value .idtVectoringErrorCode =
      report .idtVectoringErrorCode := rfl
  unfold reinject
  rw [hinfo, herror]
  dsimp only
  by_cases hqueue : field = .vmEntryInterruptionInfo
  · subst hqueue
    split
    · rw [setValue_value_of_ne _ _ (by decide), setValue_value_self]
    · rw [setValue_value_self]
  have hkept : (fields.exit report).value field = fields.value field :=
    exit_value hreport hqueue
  split
  · rename_i hbit
    by_cases hfield : field = .vmEntryExceptionErrorCode
    · subst hfield
      rw [setValue_value_self, hcode hbit]
    · rw [setValue_value_of_ne _ _ hfield, setValue_value_of_ne _ _ hqueue, hkept]
  · rw [setValue_value_of_ne _ _ hqueue, hkept]

theorem reenter_withoutReport (h : fields.Reports report) :
    (if bitSet ((fields.exit report).value .idtVectoringInfo) 31 then
        (fields.exit report).reinject
      else fields.exit report).withoutReport = fields.withoutReport := by
  have hinfo : (fields.exit report).value .idtVectoringInfo = report .idtVectoringInfo := rfl
  rw [hinfo]
  unfold Reports at h
  dsimp only at h
  split at h
  · rename_i hvalid
    obtain ⟨hevent, hcode⟩ := h
    obtain ⟨hread, hwrite⟩ := reinject_faults (fields.exit report)
    rw [hevent, if_pos hvalid]
    exact withoutReport_congr hread hwrite (reinject_exit_value hevent hcode)
  · rename_i hvalid
    rw [if_neg (by simp [h])]
    refine withoutReport_congr rfl rfl fun field hreport => ?_
    by_cases hqueue : field = .vmEntryInterruptionInfo
    · subst hqueue
      exact clear_valid (Bool.eq_false_iff.mpr hvalid)
    · exact exit_value hreport hqueue

end VmcsTable

/-- One exit the guest does not notice, and the entry after it. -/
def Unnoticed (paused entered : VmContext) : Prop :=
  ∃ report host how, paused.state.vmcs.fields.Reports report ∧
    (paused.exit report host).ExitsUnnoticed ∧
    (paused.exit report host).leave.2.enter how = (.ok none, entered)

theorem VmContext.leave_unnoticed (h : ctx.ExitsUnnoticed) :
    ctx.leave.2.view = ctx.view ∧ ctx.leave.2.state.lastExitDeterministic = false := by
  refine ⟨(congrArg HostView.view ctx.leave_hostView).trans (handleExit_view h), ?_⟩
  obtain ⟨reason, qual, hinfo, hnon, -⟩ := h
  rw [leave_deterministic hinfo, hnon]
  rfl

theorem Unnoticed.runView {paused entered : VmContext} (h : Unnoticed paused entered) :
    entered.runView = paused.runView := by
  obtain ⟨report, host, how, hreports, hexit, henter⟩ := h
  obtain ⟨hleave, hdet⟩ := leave_unnoticed hexit
  obtain ⟨-, hview⟩ := enter_unnoticed hdet henter
  have hfields : (paused.exit report host).leave.2.state.vmcs.fields =
      paused.state.vmcs.fields.exit report := congrArg View.fields hleave
  have hentered : entered.state.vmcs.fields.withoutReport =
      paused.state.vmcs.fields.withoutReport := by
    rw [← reenter_withoutReport hreports, ← hfields]
    exact congrArg (fun v : View => v.fields.withoutReport) hview
  calc
    entered.runView = { entered.view with fields := entered.state.vmcs.fields.withoutReport } := rfl
    _ = { paused.view with fields := paused.state.vmcs.fields.withoutReport } := by
      rw [hview, hleave, hentered]
      rfl

/-- A guest: what it does in one step is a function of what it can tell.  A step is
blocked while a page it writes is not copied. -/
structure Guest where
  step : VmContext → Option VmContext
  ran : ∀ {c c' : VmContext}, step c = some c' → Ran c c'
  respects : ∀ {c d c' d' : VmContext}, c.runView = d.runView → step c = some c' →
    step d = some d' → c'.runView = d'.runView

namespace Guest

def steps (g : Guest) : Nat → VmContext → Option VmContext
  | 0, c => some c
  | n + 1, c => (g.step c).bind (g.steps n)

/-- The guest with the exits it does not notice. -/
def system (g : Guest) : Stuttering VmContext View where
  view := runView
  tick := g.step
  silent := Unnoticed
  silent_view := Unnoticed.runView
  tick_view := g.respects

theorem reaches_of_steps {n : Nat} {c c' : VmContext} (h : g.steps n c = some c') :
    g.system.Reaches n c c' := by
  induction n generalizing c with
  | zero =>
    cases h
    exact .refl _
  | succ n ih =>
    obtain ⟨c₁, hstep, hrest⟩ := Option.bind_eq_some_iff.mp h
    exact .tick hstep (ih hrest)

end Guest

/-! ## Stretches -/

/-- The guest runs `n` steps and is then left with `report`, while it is at `paused`. -/
structure Iteration.Executes (it : Iteration) (g : Guest) (n : Nat) (report : ExitReport)
    (paused : VmContext) : Prop where
  valid : it.Valid
  runs : g.steps n it.entered = some paused
  exits : ∃ host, it.exited = paused.exit report host

/-- A deterministic exit: where it happens, what the processor reports, and how the host
answers the allocations made to handle it. -/
structure Stop where
  steps : Nat
  report : ExitReport
  heap : List Bool
  grants : List (Option Bool)

/-- The iterations up to a deterministic exit; all but the last end in an exit the guest
does not notice. -/
structure Stretch where
  interrupted : List Iteration
  last : Iteration

/-- From `start` the guest runs to the stop; `n` counts the steps that are left. -/
inductive Passes (g : Guest) (stop : Stop) :
    VmContext → Nat → List Iteration → Iteration → Prop
  | last {it : Iteration} {n : Nat} {paused : VmContext}
      (hexec : it.Executes g n stop.report paused) (hexit : it.exited.ExitsDeterministically)
      (hheap : it.exited.host.heap = stop.heap) (hgrants : it.exited.grants = stop.grants) :
      Passes g stop it.start n [] it
  | interrupted {it last : Iteration} {n m : Nat} {report : ExitReport} {paused : VmContext}
      {its : List Iteration} (hexec : it.Executes g n report paused)
      (hreports : paused.state.vmcs.fields.Reports report) (hexit : it.exited.ExitsUnnoticed)
      (hrest : Passes g stop it.done m its last) : Passes g stop it.start (n + m) (it :: its) last

def Stretch.Valid (s : Stretch) (g : Guest) (start : VmContext) (stop : Stop) : Prop :=
  Passes g stop start stop.steps s.interrupted s.last

def Stretch.injected (s : Stretch) : List UInt32 :=
  (s.interrupted ++ [s.last]).filterMap (·.injected)

def Replays (g : Guest) : VmContext → List Stop → List Stretch → Prop
  | _, [], [] => True
  | start, stop :: stops, s :: run => s.Valid g start stop ∧ Replays g s.last.done stops run
  | _, _, _ => False

/-- A stretch is one entry, the steps of the guest with unnoticed exits in between, and
the exit at the stop. -/
theorem Passes.reaches {n : Nat}
    {its : List Iteration} {last : Iteration} (h : Passes g stop start n its last) :
    ∃ how injected entered paused host, start.enter how = (.ok injected, entered) ∧
      g.system.Reaches n entered paused ∧ last.exited = paused.exit stop.report host ∧
      (its ++ [last]).filterMap (·.injected) = injected.toList := by
  induction h with
  | @last it n paused hexec _ _ _ =>
    obtain ⟨host, hexits⟩ := hexec.exits
    refine ⟨it.how, it.injected, it.entered, paused, host, hexec.valid.enter,
      Guest.reaches_of_steps hexec.runs, hexits, ?_⟩
    rw [nil_append, filterMap_cons]
    cases it.injected <;> rfl
  | @interrupted it last n m report paused its hexec hreports hexit _ ih =>
    obtain ⟨host, hexits⟩ := hexec.exits
    obtain ⟨how, injected, entered, paused', host', henter, hreach, hlast, hinjected⟩ := ih
    have hleave : it.exited.leave.2 = it.done := congrArg Prod.snd hexec.valid.leave
    obtain ⟨-, hdet⟩ := leave_unnoticed hexit
    rw [hleave] at hdet
    obtain ⟨rfl, -⟩ := enter_unnoticed hdet henter
    have hsilent : Unnoticed paused entered := by
      refine ⟨report, host, how, hreports, ?_, ?_⟩
      · rw [← hexits]
        exact hexit
      · rw [← hexits, hleave]
        exact henter
    refine ⟨it.how, it.injected, it.entered, paused', host', hexec.valid.enter,
      (Guest.reaches_of_steps hexec.runs).trans (.silent hsilent hreach), hlast, ?_⟩
    rw [cons_append, filterMap_cons, hinjected]
    cases it.injected <;> rfl

/-- How a stretch ends. -/
theorem Passes.end {n : Nat}
    {its : List Iteration} {last : Iteration} (h : Passes g stop start n its last) :
    last.exited.ExitsDeterministically ∧ last.exited.host.heap = stop.heap ∧
      last.exited.grants = stop.grants ∧ last.exited.leave.2 = last.done := by
  induction h with
  | last hexec hexit hheap hgrants =>
    exact ⟨hexit, hheap, hgrants, congrArg Prod.snd hexec.valid.leave⟩
  | interrupted _ _ _ _ ih => exact ih

/-- The state the guest and its devices are in. -/
structure SameState (a b : VmContext) : Prop where
  gprs : a.state.guest.gprs = b.state.guest.gprs
  rip : a.state.vmcs.fields.value .guestRip = b.state.vmcs.fields.value .guestRip
  rflags : a.state.vmcs.fields.value .guestRflags = b.state.vmcs.fields.value .guestRflags
  devices : a.state.guest.devices = b.state.guest.devices
  msrState : a.state.guest.msrState = b.state.guest.msrState
  ioChannel : a.state.guest.ioChannel = b.state.guest.ioChannel
  emulatedTsc : a.state.clock.emulatedTsc = b.state.clock.emulatedTsc
  tscOffset : a.state.clock.tscOffset = b.state.clock.tscOffset
  memory : ∀ gpa len, a.memory.readGuestMemory gpa len = b.memory.readGuestMemory gpa len

theorem SameState.of_view {fields : VmcsTable VmcsField} (h : a.view = { b.view with fields })
    (hrip : fields.value .guestRip = b.state.vmcs.fields.value .guestRip)
    (hrflags : fields.value .guestRflags = b.state.vmcs.fields.value .guestRflags) :
    SameState a b where
  gprs := congrArg (fun v : View => v.guest.gprs) h
  rip := (congrArg (fun v : View => v.fields.value .guestRip) h).trans hrip
  rflags := (congrArg (fun v : View => v.fields.value .guestRflags) h).trans hrflags
  devices := congrArg (fun v : View => v.guest.devices) h
  msrState := congrArg (fun v : View => v.guest.msrState) h
  ioChannel := congrArg (fun v : View => v.guest.ioChannel) h
  emulatedTsc := congrArg (fun v : View => v.clock.emulatedTsc) h
  tscOffset := congrArg (fun v : View => v.clock.tscOffset) h
  memory := VmMemory.readGuestMemory_congr (congrArg View.memory h)

theorem SameView.sameState (h : SameView a b) : SameState a b :=
  .of_view h.view rfl rfl

/-- Two stretches agree: on the vectors injected on the way, and on the state at the
deterministic exit and after it is handled. -/
structure Stretch.Agree (s s' : Stretch) : Prop where
  injected : s.injected = s'.injected
  exited : SameState s.last.exited s'.last.exited
  done : SameState s.last.done s'.last.done

def Stretch.SameCopies (s s' : Stretch) : Prop :=
  s.last.exited.memory.copied = s'.last.exited.memory.copied

/-- Two stretches to one stop. -/
theorem Stretch.Valid.agree {s s' : Stretch}
    (hs : s.Valid g a stop) (hs' : s'.Valid g b stop) (h : SameEntry a b)
    (hcopies : s.SameCopies s') :
    s.injected = s'.injected ∧ SameHost s.last.exited s'.last.exited ∧
      SameEntry s.last.done s'.last.done := by
  obtain ⟨how, i, e, c, host, henter, hreach, hexit, hinjected⟩ := hs.reaches
  obtain ⟨how', i', e', c', host', henter', hreach', hexit', hinjected'⟩ := hs'.reaches
  obtain ⟨hdet, hheap, hgrants, hleave⟩ := hs.end
  obtain ⟨-, hheap', hgrants', hleave'⟩ := hs'.end
  obtain ⟨rfl, hentry⟩ := h.enter henter henter'
  have hentered : e.runView = e'.runView :=
    congrArg (fun v : View => { v with fields := v.fields.withoutReport }) hentry.view
  have hpaused : c.runView = c'.runView := hreach.view_unique hreach' hentered
  have hexited : SameHost s.last.exited s'.last.exited := by
    refine ⟨⟨⟨?_⟩, hcopies, hheap.trans hheap'.symm⟩, hgrants.trans hgrants'.symm⟩
    rw [hexit, hexit', exit_view, exit_view, hpaused]
  obtain ⟨reason, qual, hinfo, hnon⟩ := hdet
  have hinfo' : s'.last.exited.exitInfo = .ok (reason, qual) := hexited.exitInfo ▸ hinfo
  have hnon' : s'.last.exited.state.nonDeterministicExit reason qual = false :=
    hexited.nonDeterministicExit reason qual ▸ hnon
  have hdone := (hexited.handleExit hinfo).of_hostView s.last.exited.leave_hostView
    s'.last.exited.leave_hostView
  rw [hleave, hleave'] at hdone
  refine ⟨hinjected.trans hinjected'.symm, hexited, hdone.toSameView, ?_⟩
  rw [← hleave, ← hleave', leave_deterministic hinfo, leave_deterministic hinfo', hnon, hnon']

/-- Two runs through the same stops. -/
theorem Replays.agree {stops : List Stop} {run run' : List Stretch}
    (hcopies : List.Forall₂ Stretch.SameCopies run run') (h : SameEntry a b)
    (hrun : Replays g a stops run) (hrun' : Replays g b stops run') :
    List.Forall₂ Stretch.Agree run run' := by
  induction hcopies generalizing a b stops with
  | nil => exact .nil
  | @cons s s' run run' hcopies _ ih =>
    cases stops with
    | nil => exact hrun.elim
    | cons stop stops =>
      obtain ⟨hs, hrest⟩ := hrun
      obtain ⟨hs', hrest'⟩ := hrun'
      obtain ⟨hinjected, hexited, hdone⟩ := hs.agree hs' h hcopies
      exact .cons ⟨hinjected, hexited.sameState, hdone.sameState⟩ (ih hdone hrest hrest')

/-- What an unnoticed exit and the injection after it leave of a context. -/
structure LeftAlone (ctx : VmContext) (result : Except ExitError (Option UInt32) × VmContext) :
    Prop where
  state : SameState result.2 ctx
  /-- The event to inject is written only to deliver an interrupted one again. -/
  event : result.2.state.vmcs.fields.value .vmEntryInterruptionInfo =
      ctx.state.vmcs.fields.value .vmEntryInterruptionInfo ∨
    bitSet (ctx.state.vmcs.fields.value .idtVectoringInfo) 31 = true ∧
      result.2.state.vmcs.fields.value .vmEntryInterruptionInfo =
        ctx.state.vmcs.fields.value .idtVectoringInfo
  vector : ∀ vector, result.1 ≠ .ok (some vector)

theorem VmContext.leftAlone (h : ctx.ExitsUnnoticed) :
    LeftAlone ctx (injectPendingInterrupt ctx.handleExit.2) := by
  have hview := handleExit_view h
  have hfields : ctx.handleExit.2.state.vmcs.fields = ctx.state.vmcs.fields :=
    congrArg View.fields hview
  obtain ⟨reason, qual, hinfo, hnon, -⟩ := h
  have hdet : ctx.handleExit.2.state.lastExitDeterministic = false := by
    rw [handleExit_deterministic hinfo, hnon]
    rfl
  obtain ⟨⟨fields, hreinjected, hafter⟩, hvector⟩ := injectPendingInterrupt_unnoticed hdet
  have hstate : (injectPendingInterrupt ctx.handleExit.2).2.state.vmcs.fields = fields :=
    congrArg View.fields hafter
  have hevent := hreinjected.event
  have hvalue := hreinjected.value
  rw [hfields] at hevent hvalue
  rw [hview] at hafter
  refine ⟨.of_view hafter (hvalue _ (by decide) (by decide)) (hvalue _ (by decide) (by decide)),
    ?_, hvector⟩
  rw [hstate]
  exact hevent

/-- Non-deterministic exits are invisible: each leaves the guest alone, and two runs with
the same deterministic exits agree at each of them if they have copied the same pages. -/
theorem unnoticed_exits_invisible :
    (∀ ctx : VmContext, ctx.ExitsUnnoticed →
      LeftAlone ctx (injectPendingInterrupt ctx.handleExit.2)) ∧
    ∀ (g : Guest) (start : VmContext) (stops : List Stop) (run run' : List Stretch),
      Replays g start stops run → Replays g start stops run' →
      List.Forall₂ Stretch.SameCopies run run' → List.Forall₂ Stretch.Agree run run' := by
  refine ⟨fun ctx h => VmContext.leftAlone h, ?_⟩
  intro g start stops run run' hrun hrun' hcopies
  exact hrun.agree hcopies ⟨⟨rfl⟩, rfl⟩ hrun'

/-! ## A guest that only counts -/

/-- `n` instructions that change nothing. -/
def VmContext.retire (ctx : VmContext) (n : Nat) : VmContext :=
  ctx.setClock { ctx.state.clock with
    lastInstructionCount := ctx.state.clock.lastInstructionCount + n }

theorem ran_retire_exit (ctx : VmContext) (n : Nat) (report : ExitReport) (host : HostInputs) :
    Ran ctx ((ctx.retire n).exit report host) := by
  constructor
  all_goals first | rfl | exact .refl _ | exact ⟨rfl, rfl⟩

theorem ran_retire (ctx : VmContext) (n : Nat) : Ran ctx (ctx.retire n) :=
  { ran_retire_exit ctx n (fun _ => 0) {} with fieldFaults := ⟨rfl, rfl⟩ }

def countingGuest : Guest where
  step ctx := some (ctx.retire 1)
  ran h := by
    cases h
    exact ran_retire _ 1
  respects hview h h' := by
    cases h
    cases h'
    exact congrArg (fun v : View => { v with
      clock := { v.clock with lastInstructionCount := v.clock.lastInstructionCount + 1 } }) hview

theorem countingGuest_steps (n : Nat) (ctx : VmContext) :
    countingGuest.steps n ctx = some (ctx.retire n) := by
  induction n generalizing ctx with
  | zero => rfl
  | succ n ih =>
    have hadd : (ctx.retire 1).retire n = ctx.retire (n + 1) := by
      simp only [retire, setClock]
      rw [Nat.add_assoc, Nat.add_comm 1 n]
    rw [← hadd, ← ih]
    rfl

/-- The iteration in which that guest runs `n` instructions. -/
def Iteration.counted (how : Resume) (start : VmContext) (n : Nat) (report : ExitReport)
    (host : HostInputs) : Iteration :=
  .simulate how start fun ctx => (ctx.retire n).exit report host

theorem Iteration.counted_executes {how : Resume} (n : Nat)
    (report : ExitReport) (host : HostInputs) (h : (start.enter how).1.isOk) :
    (counted how start n report host).Executes countingGuest n report
      ((start.enter how).2.retire n) :=
  ⟨simulate_valid h (ran_retire_exit _ _ _ _), countingGuest_steps _ _, host, rfl⟩

theorem VmcsTable.reports_idle {fields : VmcsTable VmcsField} {report : ExitReport}
    (hqueued : bitSet (fields.value .vmEntryInterruptionInfo) 31 = false)
    (hreport : bitSet (report .idtVectoringInfo) 31 = false) : fields.Reports report := by
  unfold Reports
  rw [if_neg (by simp [hqueued])]
  exact hreport

/-- The exit is classified as said; a test that can be evaluated. -/
def VmContext.exitsAs (ctx : VmContext) (reason : ExitReason) (qual : UInt64)
    (nonDeterministic : Bool) : Bool :=
  ctx.exitInfo.toOption == some (reason, qual) &&
    ctx.state.nonDeterministicExit reason qual == nonDeterministic &&
    !ctx.isGuestException reason

theorem VmContext.exitInfo_of_exitsAs
    {nonDeterministic : Bool} (h : ctx.exitsAs reason qual nonDeterministic) :
    ctx.exitInfo = .ok (reason, qual) ∧
      ctx.state.nonDeterministicExit reason qual = nonDeterministic ∧
      ctx.isGuestException reason = false := by
  simp only [exitsAs, Bool.and_eq_true, beq_iff_eq, Bool.not_eq_true'] at h
  obtain ⟨⟨hinfo, hclass⟩, hexc⟩ := h
  refine ⟨?_, hclass, hexc⟩
  cases hok : ctx.exitInfo with
  | error e =>
    rw [hok] at hinfo
    cases hinfo
  | ok info =>
    rw [hok] at hinfo
    cases hinfo
    rfl

theorem VmContext.deterministic_of_exitsAs
    (h : ctx.exitsAs reason qual false) : ctx.ExitsDeterministically := by
  obtain ⟨hinfo, hclass, -⟩ := exitInfo_of_exitsAs h
  exact ⟨reason, qual, hinfo, hclass⟩

theorem VmContext.unnoticed_of_exitsAs (h : ctx.exitsAs reason qual true) : ctx.ExitsUnnoticed := by
  obtain ⟨hinfo, hclass, hexc⟩ := exitInfo_of_exitsAs h
  exact ⟨reason, qual, hinfo, hclass, hexc⟩

def reasonOnly (code : UInt64) : ExitReport
  | .vmExitReason => code
  | _ => 0

def cpuidStop : Stop :=
  ⟨2, reasonOnly 10, [], []⟩

def straightStretch : Stretch :=
  ⟨[], .counted .ioctl newVm 2 (reasonOnly 10) {}⟩

def hostInterrupt : Iteration :=
  .counted .ioctl newVm 1 (reasonOnly 1) {}

def interruptedStretch : Stretch :=
  ⟨[hostInterrupt], .counted .loop hostInterrupt.done 1 (reasonOnly 10) {}⟩

theorem straightStretch_valid : straightStretch.Valid countingGuest newVm cpuidStop := by
  have henter : (newVm.enter .ioctl).1.isOk := by decide +kernel
  have hexit : straightStretch.last.exited.exitsAs .cpuid 0 false := by decide +kernel
  have hlast : Passes countingGuest cpuidStop straightStretch.last.start 2 []
      straightStretch.last :=
    .last (counted_executes _ _ _ henter) (deterministic_of_exitsAs hexit)
      rfl rfl
  exact hlast

theorem interruptedStretch_valid : interruptedStretch.Valid countingGuest newVm cpuidStop := by
  have henter : (newVm.enter .ioctl).1.isOk := by decide +kernel
  have hagain : (hostInterrupt.done.enter .loop).1.isOk := by decide +kernel
  have hqueued : bitSet ((newVm.enter .ioctl).2.state.vmcs.fields.value
      .vmEntryInterruptionInfo) 31 = false := by decide +kernel
  have hinterrupt : hostInterrupt.exited.exitsAs .externalInterrupt 0 true := by
    decide +kernel
  have hexit : interruptedStretch.last.exited.exitsAs .cpuid 0 false := by decide +kernel
  have hlast : Passes countingGuest cpuidStop interruptedStretch.last.start 1 []
      interruptedStretch.last :=
    .last (counted_executes _ _ _ hagain) (deterministic_of_exitsAs hexit)
      rfl rfl
  exact .interrupted (counted_executes _ _ _ henter)
    (reports_idle hqueued rfl) (unnoticed_of_exitsAs hinterrupt) hlast

/-- With and without the interrupt, the guest and its devices are in one state at the
CPUID. -/
theorem unnoticed_interrupt_invisible :
    LeftAlone hostInterrupt.exited (injectPendingInterrupt hostInterrupt.exited.handleExit.2) ∧
      straightStretch.Agree interruptedStretch := by
  have hinterrupt : hostInterrupt.exited.exitsAs .externalInterrupt 0 true = true := by
    decide +kernel
  have hagree := unnoticed_exits_invisible.2 countingGuest newVm [cpuidStop] [straightStretch]
    [interruptedStretch] ⟨straightStretch_valid, trivial⟩ ⟨interruptedStretch_valid, trivial⟩
    (.cons rfl .nil)
  refine ⟨unnoticed_exits_invisible.1 _ (VmContext.unnoticed_of_exitsAs hinterrupt), ?_⟩
  cases hagree with
  | cons h _ => exact h

/-! ## Pages copied in one run only -/

def registeringFork : VmContext :=
  let fork := (ForkedVm.new imageVm { supply := forkFrames }).toOption.getD imageVm
  fork.setGuest { fork.state.guest with gprs := { fork.state.guest.gprs with rax := 3 } }

def cowViolation : ExitReport
  | .vmExitReason => 48
  | .exitQualification => 2
  | _ => 0

def copyingExit : Iteration :=
  .counted .ioctl registeringFork 0 cowViolation { cowPages := [some ⟨frameAt 9, true⟩] }

/-- The VMCALL without and with the copy before it. -/
def registerUncopied : Stretch :=
  ⟨[], .counted .ioctl registeringFork 0 (reasonOnly 18) {}⟩

def registerCopied : Stretch :=
  ⟨[copyingExit], .counted .loop copyingExit.done 0 (reasonOnly 18) {}⟩

def nextCpuid (s : Stretch) : Stretch :=
  ⟨[], .counted .ioctl s.last.done 1 (reasonOnly 10) {}⟩

/-- The registration writes to the page, which fails unless the page is copied: if a
copy-on-write violation precedes it in one run only, RAX differs from then on. -/
theorem copied_page_visible :
    ∃ g start stops run run', Replays g start stops run ∧ Replays g start stops run' ∧
      ¬List.Forall₂ Stretch.Agree run run' := by
  have hchecks : ((registeringFork.enter .ioctl).1.isOk &&
      (copyingExit.done.enter .loop).1.isOk &&
      (registerUncopied.last.done.enter .ioctl).1.isOk &&
      (registerCopied.last.done.enter .ioctl).1.isOk &&
      !bitSet ((registeringFork.enter .ioctl).2.state.vmcs.fields.value
        .vmEntryInterruptionInfo) 31 &&
      copyingExit.exited.exitsAs .eptViolation 2 true &&
      registerUncopied.last.exited.exitsAs .vmcall 0 false &&
      registerCopied.last.exited.exitsAs .vmcall 0 false &&
      (nextCpuid registerUncopied).last.exited.exitsAs .cpuid 0 false &&
      (nextCpuid registerCopied).last.exited.exitsAs .cpuid 0 false &&
      (nextCpuid registerUncopied).last.exited.state.guest.gprs.rax != 0 &&
      (nextCpuid registerCopied).last.exited.state.guest.gprs.rax == 0) = true := by
    decide +kernel
  simp only [Bool.and_eq_true, Bool.not_eq_true', bne_iff_ne, beq_iff_eq] at hchecks
  obtain ⟨⟨⟨⟨⟨⟨⟨⟨⟨⟨⟨henter, hagain⟩, hnext⟩, hnext'⟩, hqueued⟩, hcopy⟩, hcall⟩, hcall'⟩,
    hcpuid⟩, hcpuid'⟩, hfailed⟩, hdone⟩ := hchecks
  have huncopied : registerUncopied.Valid countingGuest registeringFork
      ⟨0, reasonOnly 18, [], []⟩ := by
    have hlast : Passes countingGuest ⟨0, reasonOnly 18, [], []⟩ registerUncopied.last.start 0 []
        registerUncopied.last :=
      .last (Iteration.counted_executes _ _ _ henter) (VmContext.deterministic_of_exitsAs hcall)
        rfl rfl
    exact hlast
  have hcopied : registerCopied.Valid countingGuest registeringFork
      ⟨0, reasonOnly 18, [], []⟩ := by
    have hlast : Passes countingGuest ⟨0, reasonOnly 18, [], []⟩ registerCopied.last.start 0 []
        registerCopied.last :=
      .last (Iteration.counted_executes _ _ _ hagain) (VmContext.deterministic_of_exitsAs hcall')
        rfl rfl
    exact .interrupted (Iteration.counted_executes _ _ _ henter)
      (VmcsTable.reports_idle hqueued rfl) (VmContext.unnoticed_of_exitsAs hcopy) hlast
  have hcpuids : ∀ s : Stretch, (s.last.done.enter .ioctl).1.isOk = true →
      (nextCpuid s).last.exited.exitsAs .cpuid 0 false = true →
      (nextCpuid s).Valid countingGuest s.last.done ⟨1, reasonOnly 10, [], []⟩ := by
    intro s henter hexit
    have hlast : Passes countingGuest ⟨1, reasonOnly 10, [], []⟩ (nextCpuid s).last.start 1 []
        (nextCpuid s).last :=
      .last (Iteration.counted_executes _ _ _ henter) (VmContext.deterministic_of_exitsAs hexit)
        rfl rfl
    exact hlast
  refine ⟨countingGuest, registeringFork, [⟨0, reasonOnly 18, [], []⟩, ⟨1, reasonOnly 10, [], []⟩],
    [registerUncopied, nextCpuid registerUncopied], [registerCopied, nextCpuid registerCopied],
    ⟨huncopied, hcpuids _ hnext hcpuid, trivial⟩, ⟨hcopied, hcpuids _ hnext' hcpuid', trivial⟩, ?_⟩
  intro h
  cases h with
  | cons _ h =>
    cases h with
    | cons hagree _ =>
      have hgprs := hagree.exited.gprs
      rw [hgprs] at hfailed
      exact hfailed hdone

end Bedrock
