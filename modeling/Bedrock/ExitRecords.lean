import Bedrock.Recording
import Bedrock.Vm

/-!
# Exit records over whole runs

The run loop fills in the memory hash and the number of copied pages of a captured exit
once it is handled.  A record gets them unless a second one is captured in the same exit
or the exit fails.
-/

namespace Bedrock

open Support EventStream VmContext List EventKind

namespace VmContext

def memoryHash (ctx : VmContext) : UInt64 :=
  ctx.machine.xxh64 (memoryHashBytes ctx.memory)

def copiedPages (ctx : VmContext) : UInt32 :=
  UInt32.ofNat (cowPageCount ctx.memory)

variable (ctx : VmContext)

theorem finalizeExitRecord_frame :
    ctx.finalizeExitRecord.memoryHash = ctx.memoryHash ∧
      ctx.finalizeExitRecord.copiedPages = ctx.copiedPages := by
  unfold finalizeExitRecord
  split
  all_goals exact ⟨rfl, rfl⟩

theorem finalizeExitRecord_of_none (h : ctx.state.events.pendingExitLoc = none) :
    ctx.finalizeExitRecord = ctx := by
  unfold finalizeExitRecord
  rw [if_pos (by rw [h]; rfl)]

theorem finalizeExitRecord_stream (hskip : ctx.state.capture.skipMemoryHash = false)
    (htrigger : ctx.state.capture.exitTrigger ≠ .disabled) :
    ctx.finalizeExitRecord.state.events =
      ctx.state.events.finalizeExit ctx.memoryHash ctx.copiedPages := by
  cases hloc : ctx.state.events.pendingExitLoc with
  | none =>
    rw [ctx.finalizeExitRecord_of_none hloc]
    unfold finalizeExit
    rw [hloc]
  | some loc =>
    unfold finalizeExitRecord
    rw [if_neg (by simp [hloc]), if_neg (by simp [hskip, htrigger])]
    rfl

theorem leave_records {ctx done : VmContext} {result : ExitHandlerResult}
    (hleave : ctx.leave = (result, done)) {rs : List EventRecord}
    (hrs : ctx.state.events.Holds rs) (hloc : ctx.state.events.pendingExitLoc = none)
    (hskip : ctx.state.capture.skipMemoryHash = false)
    (hfree : done.state.events.pending = none) (honce : ctx.capturesTwice = false)
    (hfinal : ctx.captures → result.finalizes) :
    done.state.events.pendingExitLoc = none ∧ ∃ more, done.state.events.Holds (rs ++ more) ∧
        ∀ r ∈ more, r.kind = exit.asU16 → r.Carries done.memoryHash done.copiedPages := by
  have hrecord := ctx.handleExit_recording honce
  have hgrows := ctx.handleExit_grows
  unfold leave at hleave
  generalize ctx.handleExit = exit at hrecord hgrows hleave
  obtain ⟨outcome, after⟩ := exit
  -- what is added without a capture holds no exit record
  have hquiet : ctx.state.events.Grows after.state.events →
      after.state.events.pendingExitLoc = none ∧
        ∃ more, after.state.events.Holds (rs ++ more) ∧ ∀ r ∈ more, r.kind = exit.asU16 →
          r.Carries after.memoryHash after.copiedPages := by
    intro hgrows
    obtain ⟨more, hmore, hkind⟩ := hgrows.records rs hrs
    exact ⟨hgrows.loc.trans hloc, more, hmore, fun r hr hexit => absurd hexit (hkind r hr)⟩
  have hfinalized : done = after.finalizeExitRecord → after.finalizeExitRecord.state.events.pendingExitLoc = none ∧
        ∃ more, after.finalizeExitRecord.state.events.Holds (rs ++ more) ∧
          ∀ r ∈ more, r.kind = exit.asU16 → r.Carries after.memoryHash after.copiedPages := by
    rintro rfl
    rcases hrecord.events with hgrows | ⟨hon, haccepts, es, d, tsc, realTsc, payload, hbefore, hlen, hafter⟩
    · have hgrown := hquiet hgrows
      rwa [after.finalizeExitRecord_of_none hgrown.1]
    have hstream := after.finalizeExitRecord_stream (hrecord.skip.trans hskip)
      (fun h => hon (hrecord.trigger.symm.trans h))
    rw [hstream] at hfree ⊢
    rw [finalizeExit_pending] at hfree
    have haccepts' : es.accepts .exit := by
      rw [hbefore.accepts]
      exact haccepts
    exact ⟨finalizeExit_pendingExitLoc _ _ _,
      capture_finalized hrs hbefore haccepts' hlen hafter hfree⟩
  cases outcome with
  | error e =>
    cases hleave
    apply hquiet
    apply hgrows
    cases hcaptures : ctx.captures with
    | false => rfl
    | true => exact absurd (hfinal hcaptures) Bool.false_ne_true
  | continue_ | exitToUserspace reason =>
    cases hleave
    obtain ⟨hhash, hcount⟩ := after.finalizeExitRecord_frame
    rw [hhash, hcount]
    exact hfinalized rfl

theorem startRun_quiet : Quiet ctx ctx.startRun.2 := by
  have hpf : Quiet ctx ctx.applyInterceptPf := .of_same rfl rfl
  exact hpf.trans ctx.applyInterceptPf.updateMtfState_quiet

/-- The stream the entry starts from: RUN drains it. -/
def resumedEvents (ctx : VmContext) : Resume → EventStream
  | .ioctl => ctx.state.events.clear
  | _ => ctx.state.events

theorem enter_grows {ctx entered : VmContext} {how : Resume} {injected : Option UInt32}
    (h : ctx.enter how = (.ok injected, entered)) :
    (ctx.resumedEvents how).Grows entered.state.events := by
  have hresume : (ctx.resumedEvents how).Grows (ctx.resume how).2.state.events := by
    cases how with
    | loop => exact .refl _
    | refilled => exact ctx.startRun_quiet.events
    | ioctl => exact (ctx.setEvents ctx.state.events.clear).startRun_quiet.events
  unfold enter at h
  generalize ctx.resume how = resumed at h hresume
  obtain ⟨_ | _, after⟩ := resumed
  · cases h
  have hinject := injectPendingInterrupt_quiet after
  dsimp only at h
  rw [h] at hinject
  exact hresume.trans hinject.events

end VmContext

/-! ## Whole runs -/

def Iteration.newRecords (it : Iteration) : List EventRecord :=
  (EventRecord.stream it.done.state.events.buffer).drop
    (EventRecord.stream it.entered.state.events.buffer).length

/-- Every exit record was captured in an iteration, and carries the hash of the memory
and the number of copied pages as they were when that exit was done. -/
def Accounted (run : List Iteration) (records : List EventRecord) : Prop :=
  ∀ r ∈ records, r.kind = exit.asU16 →
    ∃ it ∈ run, r ∈ it.newRecords ∧ r.Carries it.done.memoryHash it.done.copiedPages

def Iteration.NoOverflow (it : Iteration) : Prop :=
  it.start.state.events.pending = none ∧ it.done.state.events.pending = none

/-- No ioctl except RUN moves the place of a record that is to be finalized. -/
def PlaceKept (ctx : VmContext) : List Iteration → Prop
  | [] => True
  | it :: run =>
    it.start.state.events.pendingExitLoc = (lastContext ctx run).state.events.pendingExitLoc ∧
      PlaceKept ctx run

/-- The exit is captured at most once, and if it is captured, it does not fail. -/
def Iteration.RecordFinalized (it : Iteration) : Prop :=
  it.exited.capturesTwice = false ∧ (it.exited.captures = true → it.result.finalizes = true)

variable {run : List Iteration} {it : Iteration}

theorem Accounted.mono {records : List EventRecord}
    (h : Accounted run records) (it : Iteration) : Accounted (it :: run) records := by
  intro r hr hkind
  obtain ⟨it', hit', hrest⟩ := h r hr hkind
  exact ⟨it', mem_cons_of_mem _ hit', hrest⟩

theorem Iteration.Valid.accounted (hvalid : it.Valid)
    {rs : List EventRecord} (hrs : (it.start.resumedEvents it.how).Holds rs)
    (haccounted : Accounted run rs) (hloc : (it.start.resumedEvents it.how).pendingExitLoc = none)
    (hskip : it.exited.state.capture.skipMemoryHash = false) (hroom : it.NoOverflow)
    (hfinal : it.RecordFinalized) :
    it.done.state.events.pendingExitLoc = none ∧
      ∃ rs', it.done.state.events.Holds rs' ∧ Accounted (it :: run) rs' := by
  have hgrows := enter_grows hvalid.enter
  obtain ⟨before, hentered, hbefore⟩ := hgrows.records rs hrs
  have hexited : it.exited.state.events = it.entered.state.events := hvalid.ran.events
  have hbefore' : it.exited.state.events.Holds (rs ++ before) := hexited ▸ hentered
  obtain ⟨hdone, more, hholds, hcarries⟩ := leave_records hvalid.leave hbefore'
    (by rw [hexited]; exact hgrows.loc.trans hloc) hskip hroom.2 hfinal.1 hfinal.2
  refine ⟨hdone, _, hholds, fun r hr hkind => ?_⟩
  rcases mem_append.mp hr with hr | hr
  · rcases mem_append.mp hr with hr | hr
    · exact haccounted.mono it r hr hkind
    · exact absurd hkind (hbefore r hr)
  refine ⟨it, mem_cons_self, ?_, hcarries r hr hkind⟩
  unfold newRecords
  rw [hholds.stream, hentered.stream, drop_left]
  exact hr

theorem Iteration.resumed_ioctl (hhow : it.how = .ioctl)
    (hfree : it.start.state.events.pending = none)
    (hloc : it.start.state.events.pendingExitLoc = none) :
    (it.start.resumedEvents it.how).Holds [] ∧
      (it.start.resumedEvents it.how).pendingExitLoc = none := by
  rw [hhow]
  have hholds := it.start.state.events.holds_clear
  rw [(staged_eq_none_iff _).mpr hfree] at hholds
  refine ⟨hholds, Eq.trans (clear_pendingExitLoc fun hexit => ?_) hloc⟩
  rw [hfree] at hexit
  cases hexit

theorem Run.accounted {ctx : VmContext} (hloc : ctx.state.events.pendingExitLoc = none)
    (hrun : Run ctx (it :: run))
    (hplace : PlaceKept ctx (it :: run)) (hroom : ∀ it' ∈ it :: run, it'.NoOverflow)
    (hskip : ∀ it' ∈ it :: run, it'.exited.state.capture.skipMemoryHash = false)
    (hfinal : ∀ it' ∈ it :: run, it'.RecordFinalized) :
    it.done.state.events.pendingExitLoc = none ∧
      ∃ rs, it.done.state.events.Holds rs ∧ Accounted (it :: run) rs := by
  induction run generalizing it with
  | nil =>
    cases hrun with
    | first hvalid hhow _ =>
      have hhead := mem_cons_self (a := it) (l := [])
      obtain ⟨hempty, hnone⟩ :=
        it.resumed_ioctl hhow (hroom it hhead).1 (hplace.1.trans hloc)
      exact hvalid.accounted hempty nofun hnone (hskip it hhead) (hroom it hhead) (hfinal it hhead)
  | cons prev run ih =>
    cases hrun with
    | next hrun hvalid hfollows =>
      obtain ⟨hnone, rs, hrs, haccounted⟩ := ih hrun hplace.2
        (fun it' h => hroom it' (mem_cons_of_mem _ h))
        (fun it' h => hskip it' (mem_cons_of_mem _ h))
        (fun it' h => hfinal it' (mem_cons_of_mem _ h))
      have hhead := mem_cons_self (a := it) (l := prev :: run)
      have hstream : ∃ rs', (it.start.resumedEvents it.how).Holds rs' ∧
          Accounted (prev :: run) rs' ∧
          (it.start.resumedEvents it.how).pendingExitLoc = none := by
        cases hfollows with
        | loop _ hhow hstart =>
          rw [hhow, hstart]
          exact ⟨rs, hrs, haccounted, hnone⟩
        | refilled _ hhow hstart =>
          rw [hhow, hstart]
          exact ⟨rs, hrs, haccounted, hnone⟩
        | ioctl hhow _ =>
          obtain ⟨hempty, hcleared⟩ :=
            it.resumed_ioctl hhow (hroom it hhead).1 (hplace.1.trans hnone)
          exact ⟨[], hempty, nofun, hcleared⟩
      obtain ⟨rs', hrs', haccounted', hloc'⟩ := hstream
      exact hvalid.accounted hrs' haccounted' hloc' (hskip it hhead) (hroom it hhead)
        (hfinal it hhead)

def hashingVm : VmContext :=
  { newVm with
    machine := { newVm.machine with xxh64 := fun bytes => UInt64.ofNat (bytes.length + 1) } }

def recordedFork : VmContext :=
  let fork := (ForkedVm.new hashingVm bareFork).toOption.getD hashingVm
  { fork with
    state := { fork.state with events := openStream, capture := { exitTrigger := .allExits } } }

def recordedExit (reason rax : UInt64) : Iteration :=
  .simulate .ioctl recordedFork fun ctx => ctx.exitWith 1 (fun
    | .vmExitReason => reason
    | _ => 0) rax 0

theorem recordedExit_run (reason rax : UInt64) : Run recordedFork [recordedExit reason rax] := by
  have henter : (recordedFork.enter .ioctl).1.isOk := by decide +kernel
  exact .first (Iteration.simulate_valid henter (ran_exitWith _ _ _ _ _)) rfl .refl

end Bedrock
