import Bedrock.IoDelivery
import Bedrock.Lab.Override
import Bedrock.RunIoctl

/-!
# What operations on a branch are made of

Whatever is done with a branch comes down to a few steps: an ioctl on its VM, a RUN whose
report is drained, a mapping of guest memory, and notes the branch takes.  A session is a
sequence of such steps, and of checkpoints the next branch is forked from.  Every operation
of a branch is a session, so what holds along sessions holds for all of them.
-/

namespace Bedrock

open Support List EventKind VmContext VmStep

namespace Lab

namespace Branch

variable {S : Type}

/-- `sched_bash` -/
def schedBash (startsAt : VirtTime) (target : BashTarget) (command : String) (recordOutput : Bool)
    (host : QueueHost) : Act S Unit := do
  checkFreq startsAt.frequency
  callVm .queueIoAction fun vm =>
    vm.queueIoAction (encodeRequest target command recordOutput) startsAt.instructions host

/-- The categories that are always captured. -/
def alwaysCaptured (b : Branch S) : UInt32 :=
  if b.inputSource.isSome then serial.category ||| RECORDING_CATEGORIES
  else serial.category

/-- The capture of `single_step`: every exit in the range. -/
def stepConfig (b : Branch S) : BedrockEventConfig :=
  ⟨1, exit.category ||| b.alwaysCaptured, triggerCode .tscRange, 1, 0, 0⟩

/-- How the two ioctls of `single_step` go. -/
structure StepHost where
  stepCopied : Bool := true
  eventCopied : Bool := true
  eventAllocated : Bool := true
  eventMapped : Bool := true

def setSingleStep (config : BedrockSingleStepConfig) (copied : Bool) : Act S Unit :=
  callVm .setSingleStep fun vm => osError (vm.handleSetSingleStep config copied)

/-- `single_step` after its checks. -/
def startSingleStep (first last : VirtTime) (host : StepHost) : Act S Unit := do
  setSingleStep ⟨1, .ofNat first.instructions, .ofNat last.instructions⟩ host.stepCopied
  let config ← Program.read fun b : Branch S => b.stepConfig
  sendEventConfig config host.eventCopied host.eventAllocated host.eventMapped

/-- `single_step` -/
def singleStep (first last : VirtTime) (host : StepHost) : Act S Unit := do
  checkFreq first.frequency
  checkFreq last.frequency
  if last < first then Program.exit (.targetInPast first last)
  else startSingleStep first last host

/-- `disable_single_step` -/
def disableSingleStep (host : StepHost) : Act S Unit := do
  setSingleStep ⟨0, 0, 0⟩ host.stepCopied
  applyEventConfig host.eventCopied host.eventAllocated host.eventMapped

variable [InputSource S]

/-- `next_io_input`: the input is handed to the caller. -/
def nextIoInput : Act S (Option IoInput) := do
  let answer ← askSource Bedrock.InputSource.nextIoInput
  pure (answer.getD none)

end Branch

/-- An operation on a branch, with what is outside of the lab during it. -/
inductive BranchOp
  | runUntil (target : VirtTime) (turns : List Turn)
  | bash (target : BashTarget) (command : String) (recordOutput : Bool) (host : Branch.BashHost)
      (turns : List Turn)
  | schedBash (startsAt : VirtTime) (target : BashTarget) (command : String) (recordOutput : Bool)
      (host : QueueHost)
  | setEventConfig (config : EventConfig) (copied allocated mapped : Bool)
  | singleStep (first last : VirtTime) (host : Branch.StepHost)
  | disableSingleStep (host : Branch.StepHost)
  | nextIoInput
  | feedbackBuffers (read : VmContext → Except IoError (List (List UInt8)) × VmContext)

namespace Branch

variable {S : Type} [InputSource S]

def perform : BranchOp → Act S Unit
  | .runUntil target turns => do let _ ← runUntil target turns
  | .bash target command recordOutput host turns => do
    let _ ← bash target command recordOutput host turns
  | .schedBash startsAt target command recordOutput host =>
    schedBash startsAt target command recordOutput host
  | .setEventConfig config copied allocated mapped => setEventConfig config copied allocated mapped
  | .singleStep first last host => singleStep first last host
  | .disableSingleStep host => disableSingleStep host
  | .nextIoInput => do let _ ← nextIoInput
  | .feedbackBuffers read => do let _ ← callVm .mapFeedbackBuffer read

end Branch

/-! ## Steps -/

/-- The report of RUN is about this VM. -/
structure VmExit.Reports (exit : VmExit) (vm : VmContext) : Prop where
  eventLen : exit.eventLen = vm.state.events.len
  emulatedTsc : exit.emulatedTsc = vm.state.clock.emulatedTsc

/-- Mapping a buffer, or writing to it, changes guest memory and its mapping only. -/
def MemoryOnly (before after : VmContext) : Prop :=
  after.state = { before.state with ept := after.state.ept }

/-- What RUN does in this turn is what RUN can do, with steps of the kind `P`, and the
buffers are in guest memory. -/
structure Turn.Real (P : VmStep → Prop) (turn : Turn) : Prop where
  returned : ∀ vm exit vm', turn.run vm = (.ok exit, vm') → exit.Reports vm' ∧
    ∃ ts, RunIoctl vm ts (some exit.exitReason) vm' ∧ ∀ t ∈ ts, P t
  failed : ∀ vm e vm', turn.run vm = (.error e, vm') →
    ∃ ts, RunIoctl vm ts none vm' ∧ ∀ t ∈ ts, P t
  output : ∀ vm, MemoryOnly vm (turn.output vm).2
  fileWrite : ∀ vm, MemoryOnly vm (turn.fileWrite vm).2

def Turn.simulate (guest : VmContext → VmContext) : Turn where
  run vm :=
    let it := Iteration.simulate .ioctl vm guest
    if (vm.enter .ioctl).1.isOk then
      match it.result.report with
      | none => (.error (.os .efault), it.done)
      | some reason =>
        (.ok { exitReason := reason
               eventLen := it.done.state.events.len
               emulatedTsc := it.done.state.clock.emulatedTsc }, it.done)
    else (.error (.os .efault), vm)

theorem Turn.simulate_real {P : VmStep → Prop} {guest : VmContext → VmContext}
    (hran : ∀ ctx, Ran ctx (guest ctx))
    (hstep : ∀ it : Iteration, it.exited = guest it.entered → P it.step) :
    (simulate guest).Real P := by
  have hloop : ∀ vm, (vm.enter .ioctl).1.isOk →
      RunLoop .ioctl vm [(Iteration.simulate .ioctl vm guest).step]
        (Iteration.simulate .ioctl vm guest).result.report
        (Iteration.simulate .ioctl vm guest).done :=
    fun vm henter => .last (Iteration.simulate_valid henter (hran _)) (ExitHandlerResult.ends_report _)
  refine ⟨fun vm exit vm' h => ?_, fun vm e vm' h => ?_, fun _ => rfl, fun _ => rfl⟩
  · simp only [simulate] at h
    split at h
    · rename_i henter
      split at h
      · cases h
      rename_i reason hreport
      have hrun := hloop vm henter
      rw [hreport] at hrun
      cases h
      exact ⟨⟨rfl, rfl⟩, _, .returned hrun, forall_mem_singleton.mpr (hstep _ rfl)⟩
    · cases h
  · simp only [simulate] at h
    split at h
    · rename_i henter
      split at h
      · cases h
        exact ⟨_, .notCopied (hloop vm henter), forall_mem_singleton.mpr (hstep _ rfl)⟩
      · cases h
    · cases h
      exact ⟨_, .refused, forall_mem_nil _⟩

def Turn.toStop : Turn :=
  simulate fun ctx => ctx.exitAfter (ctx.state.config.stopAtTsc.getD 0 - ctx.state.clock.now) fun
    | .vmExitReason => 10
    | _ => 0

theorem Turn.toStop_real : toStop.Real CountsUp := by
  refine simulate_real (fun ctx => ran_exitAfter ctx _ _) fun it hexited it' hit' => ?_
  cases hit'
  rw [hexited]
  exact Nat.le_add_right _ _

/-- The turns of an operation are real. -/
def BranchOp.Real (P : VmStep → Prop) : BranchOp → Prop
  | .runUntil _ turns => ∀ turn ∈ turns, turn.Real P
  | .bash _ _ _ host turns =>
    (∀ vm, MemoryOnly vm (host.output vm).2) ∧ ∀ turn ∈ turns, turn.Real P
  | .feedbackBuffers read => ∀ vm, MemoryOnly vm (read vm).2
  | _ => True

/-- The capture of a branch, with a source or without. -/
structure Captures (sourced : Bool) (config : BedrockEventConfig) : Prop where
  enabled : config.enabled = 1
  serial : config.categories &&& serial.category = serial.category
  recording : sourced = true →
    config.categories &&& RECORDING_CATEGORIES = RECORDING_CATEGORIES

/-- The ioctls a branch uses. -/
def FromLab (sourced : Bool) : Ioctl → Prop
  | .setRegs _ _ => False
  | .setRdrandConfig _ _ => False
  | .setEventConfig config _ _ => Captures sourced config
  | _ => True

namespace Branch

variable {S : Type}

/-- What a branch notes for itself: all but the VM, the time and what was drained. -/
structure Noted (b b' : Branch S) : Prop where
  vm : b'.vm = b.vm
  currentTime : b'.currentTime = b.currentTime
  tscFrequency : b'.tscFrequency = b.tscFrequency
  sourced : b'.inputSource.isSome = b.inputSource.isSome
  origin : b'.origin = b.origin
  partialLine : b'.partialLine = b.partialLine
  inputRecording : b'.inputRecording = b.inputRecording
  sink : b'.sink = b.sink
  eventMapped : b.eventMapped = true → b'.eventMapped = true

/-- The branch after a RUN that left `vm` behind and reported `exit`. -/
def ran (b : Branch S) (vm : VmContext) (exit : VmExit) : Branch S :=
  (drainEvents exit.eventLen
    { b with vm, currentTime := ⟨exit.emulatedTsc, b.tscFrequency⟩ }).2

end Branch

inductive BranchMove (S : Type)
  | ioctl (call : Ioctl)
  | run (steps : List VmStep) (exit : Option VmExit)
  | map
  | note
  | renew (source : Option S) (force : Bool) (host : BranchHost)

abbrev BranchStep (S : Type) := Transition (Branch S) (BranchMove S)

section Steps

variable {S : Type} (P : VmStep → Prop)

/-- The step does what the code does; the VM takes steps of the kind `P`. -/
inductive BranchStep.Valid : BranchStep S → Prop
  | ioctl {b : Branch S} {call : Ioctl} (hcall : FromLab b.inputSource.isSome call) :
      Valid ⟨b, .ioctl call, { b with vm := (b.vm.ioctl call).2 }⟩
  | returned {b : Branch S} {ts : List VmStep} {exit : VmExit} {vm : VmContext}
      (hrun : RunIoctl b.vm ts (some exit.exitReason) vm) (hreports : exit.Reports vm)
      (hsteps : ∀ t ∈ ts, P t) : Valid ⟨b, .run ts (some exit), b.ran vm exit⟩
  | failed {b : Branch S} {ts : List VmStep} {vm : VmContext} (hrun : RunIoctl b.vm ts none vm)
      (hsteps : ∀ t ∈ ts, P t) : Valid ⟨b, .run ts none, { b with vm }⟩
  | map {b : Branch S} {vm : VmContext} (hmemory : MemoryOnly b.vm vm) :
      Valid ⟨b, .map, { b with vm }⟩
  | note {b b' : Branch S} (hnoted : b.Noted b') : Valid ⟨b, .note, b'⟩
  | renew {b b' : Branch S} {id : Nat} {source : Option S} {force : Bool} {host : BranchHost}
      (hsource : (force = false ∧ source = b.inputSource) ∨ (force = true ∧ source.isSome))
      (hbranch : b.freeze.branchInner id source force host = .ok b') :
      Valid ⟨b, .renew source force host, b'⟩

/-- The steps are valid and lead from `b` to `b'`. -/
structure Session (b : Branch S) (ts : List (BranchStep S)) (b' : Branch S) : Prop where
  walk : Walk b ts b'
  valid : ∀ t ∈ ts, t.Valid P

def BranchStep.Stays (t : BranchStep S) : Prop :=
  ∀ source force host, t.label ≠ .renew source force host

/-- An operation on a branch whose event buffer is mapped is a session. -/
def Lasts (b b' : Branch S) : Prop :=
  b.eventMapped = true →
    (∃ ts, Session P b ts b' ∧ ∀ t ∈ ts, t.Stays) ∧ b'.eventMapped = true

end Steps

/-! ## Operations are sessions -/

variable {S : Type} {P : VmStep → Prop}

namespace Session

variable {b b' b'' : Branch S} {ts us : List (BranchStep S)}

theorem nil (b : Branch S) : Session P b [] b :=
  ⟨rfl, forall_mem_nil _⟩

theorem single {t : BranchStep S} (h : t.Valid P) : Session P t.pre [t] t.post :=
  ⟨⟨rfl, rfl⟩, forall_mem_singleton.mpr h⟩

theorem append (h : Session P b ts b') (h' : Session P b' us b'') : Session P b (ts ++ us) b'' := by
  refine ⟨h.walk.append h'.walk, fun t ht => ?_⟩
  rcases mem_append.mp ht with ht | ht
  · exact h.valid t ht
  · exact h'.valid t ht

theorem ledgerPath {β : Type} {L : Ledger (Branch S) (BranchStep S) β} (h : Session P b ts b')
    (hpre : ∀ t, L.pre t = t.pre) (hpost : ∀ t, L.post t = t.post) : L.Path b ts b' := by
  have hpath := h.walk.ledgerPath (L := L) (f := id) (g := id) hpre hpost
  rwa [map_id] at hpath

end Session

namespace Lasts

variable {b b' b'' : Branch S}

theorem refl (b : Branch S) : Lasts P b b :=
  fun hmapped => ⟨⟨[], .nil b, forall_mem_nil _⟩, hmapped⟩

theorem trans (h : Lasts P b b') (h' : Lasts P b' b'') : Lasts P b b'' := by
  intro hmapped
  obtain ⟨⟨ts, hts, hstay⟩, hmapped⟩ := h hmapped
  obtain ⟨⟨us, hus, hstay'⟩, hmapped⟩ := h' hmapped
  refine ⟨⟨ts ++ us, hts.append hus, fun t ht => ?_⟩, hmapped⟩
  rcases mem_append.mp ht with ht | ht
  · exact hstay t ht
  · exact hstay' t ht

theorem single {move : BranchMove S} (hvalid : BranchStep.Valid P ⟨b, move, b'⟩)
    (hstays : BranchStep.Stays ⟨b, move, b'⟩)
    (hmapped : b.eventMapped → b'.eventMapped) : Lasts P b b' :=
  fun h => ⟨⟨_, .single hvalid, forall_mem_singleton.mpr hstays⟩, hmapped h⟩

theorem ioctl (call : Ioctl) (h : FromLab b.inputSource.isSome call) :
    Lasts P b { b with vm := (b.vm.ioctl call).2 } :=
  .single (.ioctl h) (fun _ _ _ h => nomatch h) id

theorem map {vm : VmContext} (h : MemoryOnly b.vm vm) : Lasts P b { b with vm } :=
  .single (.map h) (fun _ _ _ h => nomatch h) id

theorem note (h : b.Noted b') : Lasts P b b' :=
  .single (.note h) (fun _ _ _ h => nomatch h) h.eventMapped

end Lasts

end Lab

variable (target : VirtTime)

namespace Branch

variable {S : Type}

/-- What the look-ahead leaves alone. -/
structure LooksAhead (b b' : Branch S) : Prop where
  currentTime : b'.currentTime = b.currentTime
  tscFrequency : b'.tscFrequency = b.tscFrequency
  sourced : b'.inputSource.isSome = b.inputSource.isSome

namespace LooksAhead

theorem refl (b : Branch S) : LooksAhead b b :=
  ⟨rfl, rfl, rfl⟩

theorem trans {b b' b'' : Branch S} (h : LooksAhead b b') (h' : LooksAhead b' b'') :
    LooksAhead b b'' :=
  ⟨h'.currentTime.trans h.currentTime, h'.tscFrequency.trans h.tscFrequency,
    h'.sourced.trans h.sourced⟩

end LooksAhead

variable [InputSource S] (b : Branch S)

theorem pullInput_looksAhead : LooksAhead b b.pullInput.2 := by
  unfold pullInput
  split
  · exact .refl b
  · rename_i hsource
    exact ⟨rfl, rfl, by rw [hsource]; rfl⟩

theorem inputAtHand_looksAhead : LooksAhead b b.inputAtHand.2 := by
  unfold inputAtHand
  split
  · exact .refl b
  · exact b.pullInput_looksAhead

theorem dueInput_looksAhead (target : VirtTime) :
    (∀ r, b.dueInput target = .inl r → LooksAhead b r.2) ∧
      ∀ input b', b.dueInput target = .inr (input, b') → LooksAhead b b' := by
  have hhand := b.inputAtHand_looksAhead
  unfold dueInput
  split
  · constructor
    · rintro r ⟨⟩
      exact .refl b
    · rintro input b' ⟨⟩
  rcases hat : b.inputAtHand with ⟨_ | input, b₁⟩
  · rw [hat] at hhand
    constructor
    · rintro r ⟨⟩
      exact hhand
    · rintro input b' ⟨⟩
  rw [hat] at hhand
  dsimp only
  constructor
  · intro r hr
    repeat' split at hr
    all_goals cases hr
    all_goals exact hhand
  · intro input b' hr
    repeat' split at hr
    all_goals cases hr
    exact ⟨hhand.currentTime, hhand.tscFrequency, hhand.sourced⟩

theorem stopForNext_looksAhead (target : VirtTime) : LooksAhead b (b.stopForNext target).2 := by
  have hpull := b.pullInput_looksAhead
  unfold stopForNext
  rcases hnext : b.pullInput with ⟨_ | next, b₁⟩
  · rw [hnext] at hpull
    exact hpull
  rw [hnext] at hpull
  dsimp only
  split
  all_goals exact hpull

theorem submitInput_looksAhead (input : IoInput) (target : VirtTime)
    (host : QueueHost) : LooksAhead b (b.submitInput input target host).2 := by
  unfold submitInput
  split
  · rename_i vm _
    have hstop := ({ b with vm } : Branch S).stopForNext_looksAhead target
    exact ⟨hstop.currentTime, hstop.tscFrequency, hstop.sourced⟩
  all_goals exact ⟨rfl, rfl, rfl⟩

theorem prepareNextIoInput_spec (target : VirtTime) (host : QueueHost) :
    LooksAhead b (b.prepareNextIoInput target host).2 ∧
      ((b.prepareNextIoInput target host).2.vm = b.vm ∨
        ∃ action, (b.prepareNextIoInput target host).2.vm =
          (b.vm.ioctl (.queueIoAction action host)).2) := by
  obtain ⟨hreturn, hdue⟩ := b.dueInput_looksAhead target
  obtain ⟨hreturnVm, hdueVm⟩ := b.dueInput_vm target
  unfold prepareNextIoInput
  rcases hinput : b.dueInput target with r | ⟨input, b₁⟩
  · exact ⟨hreturn r hinput, .inl (hreturnVm r hinput)⟩
  dsimp only
  refine ⟨(hdue input b₁ hinput).trans (b₁.submitInput_looksAhead input target host),
    .inr ⟨input.action, ?_⟩⟩
  rw [submitInput_vm, hdueVm input b₁ hinput]
  rfl

end Branch

variable {config : BedrockEventConfig}

namespace Lab

namespace Branch

variable {S : Type} {P : VmStep → Prop}

variable {operation : VmOperation} {α : Type} {call : VmContext → Except IoError α × VmContext}
  {turn : Turn} {b b' : Branch S}

theorem callVm_built (h : ∀ b : Branch S, Lasts P b { b with vm := (call b.vm).2 }) :
    Obeys (Lasts P) (callVm operation call : Act S α) :=
  .mapExit _ (.call h)

theorem callIoctl_built (ioctl : Ioctl)
    (hcall : ∀ vm, (call vm).2 = (vm.ioctl ioctl).2) (hlab : ∀ sourced, FromLab sourced ioctl) :
    Obeys (Lasts P) (callVm operation call : Act S α) := by
  refine callVm_built fun b => ?_
  rw [hcall]
  exact .ioctl ioctl (hlab _)

theorem callSame_built (hcall : ∀ vm, (call vm).2 = vm) :
    Obeys (Lasts P) (callVm operation call : Act S α) := by
  refine callVm_built fun b => ?_
  rw [hcall]
  exact .refl b

theorem note_built {f : Branch S → α × Branch S} (h : ∀ b, Noted b (f b).2) :
    Obeys (Lasts P) (Program.act f : Act S α) :=
  .act fun b => .note (h b)

theorem Noted.refl (b : Branch S) : b.Noted b :=
  ⟨rfl, rfl, rfl, rfl, rfl, rfl, rfl, rfl, id⟩

instance {α : Type} (f : Branch S → α) : Obeys (Lasts P) (Program.read f : Act S α) :=
  note_built fun b => .refl b

instance (freq : Nat) : Obeys (Lasts P) (checkFreq freq : Act S Unit) :=
  .mapExit _ (.call fun b => .refl b)

instance (value : Option Nat) (copied : Bool) :
    Obeys (Lasts P) (setStopAt value copied : Act S Unit) := by
  have hcall : Obeys (Lasts P) (callVm .setStopTsc fun vm =>
      osError (vm.handleSetStopTsc (.ofNat (value.getD 0)) copied) : Act S Unit) :=
    callIoctl_built (.setStopTsc _ copied) (fun _ => rfl) fun _ => trivial
  have hnote : Obeys (Lasts P)
      (Program.update fun b : Branch S => { b with lastStopAt := some value } : Act S Unit) :=
    note_built fun _ => ⟨rfl, rfl, rfl, rfl, rfl, rfl, rfl, rfl, id⟩
  unfold setStopAt
  infer_instance

instance {α : Type} (question : S → α × S) :
    Obeys (Lasts P) (askSource question : Act S (Option α)) :=
  note_built fun _ => ⟨rfl, rfl, rfl, Option.isSome_map, rfl, rfl, rfl, rfl, id⟩

instance (turn : Turn) : Obeys (Lasts P) (randomRequest turn : Act S _) :=
  callSame_built fun _ => rfl

instance (turn : Turn) : Obeys (Lasts P) (onFeedbackBufferRegistered turn : Act S Unit) :=
  callSame_built fun _ => rfl

instance (turn : Turn) : Obeys (Lasts P) (drainIoResponse turn : Act S _) :=
  callIoctl_built (.drainIoResponse _ _) (fun _ => rfl) fun _ => trivial

theorem bashOutputFromResponse_built (resp : List UInt8)
    {output : VmContext → Except IoError (List (List UInt8)) × VmContext}
    (h : ∀ vm, MemoryOnly vm (output vm).2) :
    Obeys (Lasts P) (bashOutputFromResponse resp output : Act S _) := by
  have hcall : Obeys (Lasts P) (callVm .mapFeedbackBuffer output : Act S _) :=
    callVm_built fun b => .map (h b.vm)
  unfold bashOutputFromResponse
  split
  all_goals infer_instance

theorem drainRecord_eq (b : Branch S) (r : EventRecord) : ∃ partialLine inputRecording sink,
    b.drainRecord r = { b with partialLine, inputRecording, sink } := by
  unfold drainRecord
  split
  all_goals exact ⟨_, _, _, rfl⟩

theorem drainRecords_eq (b : Branch S) (rs : List EventRecord) : ∃ partialLine inputRecording sink,
    rs.foldl drainRecord b = { b with partialLine, inputRecording, sink } := by
  induction rs generalizing b with
  | nil => exact ⟨_, _, _, rfl⟩
  | cons r rs ih =>
    obtain ⟨line, recording, sink, hfirst⟩ := b.drainRecord_eq r
    rw [foldl_cons, hfirst]
    exact ih _

theorem drainEvents_snd (eventLen : Nat) (b : Branch S) : (drainEvents eventLen b).2 =
    if eventLen = 0 ∨ b.eventMapped = false then b
    else (EventRecord.stream ((List.range (min eventLen EVENT_BUFFER_SIZE)).map
      b.vm.state.events.bytes)).foldl drainRecord b := rfl

theorem ran_eq (b : Branch S) (vm : VmContext) (exit : VmExit) :
    ∃ partialLine inputRecording sink, b.ran vm exit =
      { b with
        vm
        currentTime := ⟨exit.emulatedTsc, b.tscFrequency⟩
        partialLine, inputRecording, sink } := by
  unfold ran
  rw [drainEvents_snd]
  split
  · exact ⟨_, _, _, rfl⟩
  · exact drainRecords_eq _ _

theorem runVm_lasts (h : turn.Real P) (b : Branch S) : Lasts P b (runVm turn b).2 := by
  have hmapped : ∀ (vm : VmContext) (exit : VmExit),
      (b.ran vm exit).eventMapped = b.eventMapped := by
    intro vm exit
    obtain ⟨line, recording, sink, hran⟩ := b.ran_eq vm exit
    rw [hran]
  rcases hrun : turn.run b.vm with ⟨e | exit, vm⟩
  · obtain ⟨ts, hts, hsteps⟩ := h.failed _ _ _ hrun
    have hfail : runVm turn b = (.error (.vm .run e), { b with vm }) :=
      Program.bind_error (callVm_error hrun)
    rw [hfail]
    exact .single (.failed hts hsteps) (fun _ _ _ h => nomatch h) id
  · obtain ⟨hreports, ts, hts, hsteps⟩ := h.returned _ _ _ hrun
    have hok : runVm turn b = (.ok exit, b.ran vm exit) :=
      Program.bind_ok (callVm_ok hrun)
    rw [hok]
    exact .single (.returned hts hreports hsteps) (fun _ _ _ h => nomatch h) fun h => (hmapped vm exit).trans h

theorem runVm_built (h : turn.Real P) : Obeys (Lasts P) (runVm turn : Act S _) :=
  .call (runVm_lasts h)

/-! ### Capture -/

theorem alwaysCaptured_serial (b : Branch S) :
    b.alwaysCaptured &&& serial.category = serial.category := by
  unfold alwaysCaptured
  split
  · decide
  · decide

theorem alwaysCaptured_recording (h : b.inputSource.isSome) :
    b.alwaysCaptured &&& RECORDING_CATEGORIES = RECORDING_CATEGORIES := by
  rw [alwaysCaptured, if_pos h]
  decide

theorem or_and_of_and {x c : UInt32} (extra : UInt32) (h : c &&& x = x) :
    (extra ||| c) &&& x = x := by
  rw [← UInt32.toBitVec_inj] at h ⊢
  ext i hi
  have hbit := congrArg (fun v => v.getLsbD i) h
  simp only [UInt32.toBitVec_and, UInt32.toBitVec_or, BitVec.getElem_and, BitVec.getElem_or,
    BitVec.getLsbD_eq_getElem hi] at hbit ⊢
  grind

theorem stepConfig_captures (b : Branch S) : Captures b.inputSource.isSome b.stepConfig where
  enabled := rfl
  serial := or_and_of_and _ b.alwaysCaptured_serial
  recording h := or_and_of_and _ (alwaysCaptured_recording h)

theorem toVmConfigWith_captures (b : Branch S) (config : EventConfig) :
    Captures b.inputSource.isSome (config.toVmConfigWith b.alwaysCaptured) := by
  have hserial := or_and_of_and config.effectiveCategories b.alwaysCaptured_serial
  have hsome : config.effectiveCategories ||| b.alwaysCaptured ≠ 0 := by
    intro hzero
    rw [hzero] at hserial
    exact absurd hserial (by decide)
  have hconfig : (config.toVmConfigWith b.alwaysCaptured).enabled = 1 ∧
      (config.toVmConfigWith b.alwaysCaptured).categories =
        config.effectiveCategories ||| b.alwaysCaptured := by
    unfold EventConfig.toVmConfigWith
    rw [if_neg hsome]
    exact ⟨rfl, rfl⟩
  refine ⟨hconfig.1, ?_, fun h => ?_⟩
  · rw [hconfig.2]
    exact hserial
  · rw [hconfig.2]
    exact or_and_of_and _ (alwaysCaptured_recording h)

theorem mapEventBuffer_lasts (enabled mapped : Bool) (b : Branch S) (h : enabled) :
    Lasts P b (mapEventBuffer enabled mapped b).2 := by
  intro hmapped
  subst h
  have hmap : mapEventBuffer true mapped b = (.ok (), { b with eventMapped := true }) := by
    simp [mapEventBuffer, hmapped]
  rw [hmap]
  exact Lasts.note ⟨rfl, rfl, rfl, rfl, rfl, rfl, rfl, rfl, fun _ => rfl⟩ hmapped

theorem sendEventConfig_lasts
    (h : Captures b.inputSource.isSome config) (copied allocated mapped : Bool) :
    Lasts P b (sendEventConfig config copied allocated mapped b).2 := by
  have hioctl : Lasts P b (callVm .setEventConfig (fun vm =>
      osError (vm.handleSetEventConfig config copied allocated)) b).2 := by
    rw [callVm, Program.mapExit_state]
    exact .ioctl (.setEventConfig config copied allocated) h
  unfold sendEventConfig
  rcases hcall : callVm .setEventConfig (fun vm =>
      osError (vm.handleSetEventConfig config copied allocated)) b with ⟨e | u, b'⟩
  · rw [hcall] at hioctl
    rw [Program.bind_error hcall]
    exact hioctl
  · rw [hcall] at hioctl
    rw [Program.bind_ok hcall]
    exact hioctl.trans (mapEventBuffer_lasts _ mapped b' (by simp [h.enabled]))

theorem applyEventConfig_built (copied allocated mapped : Bool) :
    Obeys (Lasts P) (applyEventConfig copied allocated mapped : Act S Unit) :=
  .call fun b => by
    exact sendEventConfig_lasts (toVmConfigWith_captures b b.eventConfig) copied allocated mapped

theorem setEventConfig_built (config : EventConfig) (copied allocated mapped : Bool) :
    Obeys (Lasts P) (setEventConfig config copied allocated mapped : Act S Unit) :=
  .bind (note_built fun _ => ⟨rfl, rfl, rfl, rfl, rfl, rfl, rfl, rfl, id⟩)
    fun _ => applyEventConfig_built copied allocated mapped

instance (config : BedrockSingleStepConfig) (copied : Bool) :
    Obeys (Lasts P) (setSingleStep config copied : Act S Unit) :=
  callIoctl_built (.setSingleStep config copied) (fun _ => rfl) fun _ => trivial

theorem singleStep_built (first last : VirtTime) (host : StepHost) :
    Obeys (Lasts P) (singleStep first last host : Act S Unit) := by
  have hsend : Obeys (Lasts P) (do
      let config ← Program.read fun b : Branch S => b.stepConfig
      sendEventConfig config host.eventCopied host.eventAllocated host.eventMapped : Act S Unit) :=
    .call fun b => sendEventConfig_lasts b.stepConfig_captures _ _ _
  have hstart : Obeys (Lasts P) (startSingleStep first last host : Act S Unit) :=
    .bind inferInstance fun _ => hsend
  unfold singleStep
  infer_instance

theorem disableSingleStep_built (host : StepHost) :
    Obeys (Lasts P) (disableSingleStep host : Act S Unit) :=
  .bind inferInstance fun _ => applyEventConfig_built _ _ _

theorem queueIoAction_built (data : List UInt8) (targetTsc : Nat) (host : QueueHost) :
    Obeys (Lasts P) (callVm .queueIoAction fun vm =>
      vm.queueIoAction data targetTsc host : Act S Unit) :=
  callIoctl_built (.queueIoAction ⟨targetTsc, data⟩ host)
    (fun vm => vm.queueIoAction_snd ⟨targetTsc, data⟩ host) fun _ => trivial

theorem schedBash_built (startsAt : VirtTime) (target : BashTarget) (command : String)
    (recordOutput : Bool) (host : QueueHost) : Obeys (Lasts P)
      (schedBash startsAt target command recordOutput host : Act S Unit) :=
  .bind inferInstance fun _ => queueIoAction_built _ _ _

/-! ### Runs -/

variable [InputSource S]

instance (turn : Turn) : Obeys (Lasts P) (feedRng turn : Act S _) := by
  refine .bind inferInstance fun answer => ?_
  rcases answer with _ | _ | value
  · infer_instance
  · infer_instance
  · exact .bind (callIoctl_built (.setRdrandValue value turn.valueCopied) (fun _ => rfl)
      fun _ => trivial) fun _ => .pure _

instance (turn : Turn) : Obeys (Lasts P) (feedRandom turn : Act S _) := by
  refine .bind inferInstance fun request => .bind inferInstance fun answer => ?_
  rcases answer with _ | bytes
  · infer_instance
  · exact .bind (callIoctl_built (.setRandomBytes bytes turn.bytesCopied) (fun _ => rfl)
      fun _ => trivial) fun _ => .pure _

theorem serve_built (exit : VmExit) (h : turn.Real P) :
    Obeys (Lasts P) (serve target exit turn : Act S _) := by
  have houtput := fun resp => bashOutputFromResponse_built (S := S) (P := P) resp h.output
  unfold serve
  split
  all_goals infer_instance

theorem prepare_built (host : QueueHost) :
    Obeys (Lasts P)
      (onInputs fun b : Bedrock.Branch S => b.prepareNextIoInput target host : Act S _) := by
  refine .mapExit _ (.call fun b => ?_)
  obtain ⟨hlooks, hvm⟩ := b.toBranch.prepareNextIoInput_spec target host
  have hnote : ∀ vm, (b.toBranch.prepareNextIoInput target host).2.vm = vm →
      Noted { b with vm } { b with toBranch := (b.toBranch.prepareNextIoInput target host).2 } :=
    fun vm hvm => ⟨hvm, hlooks.currentTime, hlooks.tscFrequency, hlooks.sourced, rfl, rfl, rfl, rfl, id⟩
  rcases hvm with hvm | ⟨action, hvm⟩
  · exact .note (hnote b.vm hvm)
  · exact Lasts.trans (.ioctl (.queueIoAction action host) trivial) (.note (hnote _ hvm))

theorem runTurn_built (h : turn.Real P) : Obeys (Lasts P) (runTurn target turn : Act S _) := by
  have hprepare := prepare_built (S := S) (P := P) target turn.queue
  have hrun := runVm_built (S := S) h
  have hserve := fun exit => serve_built (S := S) target exit h
  unfold runTurn
  infer_instance

theorem runUntil_built {turns : List Turn} (h : ∀ turn ∈ turns, turn.Real P) :
    Obeys (Lasts P) (runUntil target turns : Act S _) := by
  have hdrive : Obeys (Lasts P) (Program.drive (runTurn target) turns : Act S _) :=
    .call (Program.drive_rel Lasts.refl Lasts.trans fun turn hturn b =>
      (runTurn_built target (h turn hturn)).keeping Lasts.refl Lasts.trans b)
  unfold runUntil
  infer_instance

theorem serveIo_built (exit : VmExit) (h : turn.Real P) :
    Obeys (Lasts P) (serveIo exit turn : Act S _) := by
  have hwrite : ∀ stoppedAt, Obeys (Lasts P)
      (Program.mapExit (.fileStoreFailed stoppedAt) (Program.call fun b : Branch S =>
        ((turn.fileWrite b.vm).1, { b with vm := (turn.fileWrite b.vm).2 })) : Act S Unit) :=
    fun _ => .mapExit _ (.call fun b => .map (h.fileWrite b.vm))
  refine .bind inferInstance fun stoppedAt => ?_
  split
  case h_4 | h_5 =>
    refine .bind inferInstance fun result => ?_
    cases result <;> infer_instance
  all_goals infer_instance

theorem ioTurn_built (h : turn.Real P) : Obeys (Lasts P) (ioTurn turn : Act S _) :=
  .bind (runVm_built h) fun exit => serveIo_built exit h

theorem bash_built (target : BashTarget) (command : String) (recordOutput : Bool) {host : BashHost}
    {turns : List Turn} (houtput : ∀ vm, MemoryOnly vm (host.output vm).2)
    (h : ∀ turn ∈ turns, turn.Real P) :
    Obeys (Lasts P) (bash target command recordOutput host turns : Act S _) := by
  have hdrive : Obeys (Lasts P) (Program.drive ioTurn turns : Act S _) :=
    .call (Program.drive_rel Lasts.refl Lasts.trans fun turn hturn b =>
      (ioTurn_built (h turn hturn)).keeping Lasts.refl Lasts.trans b)
  refine .bind (.bind inferInstance fun _ => .bind (queueIoAction_built _ _ _) fun _ => hdrive)
    fun bytes => ?_
  rcases bytes with _ | bytes
  · infer_instance
  · exact .bind (bashOutputFromResponse_built bytes houtput) fun _ => .pure _

theorem perform_lasts {op : BranchOp} (h : op.Real P) (b : Branch S) :
    Lasts P b (perform op b).2 := by
  have hbuilt : Obeys (Lasts P) (perform op : Act S Unit) := by
    cases op with
    | runUntil target turns => exact .bind (runUntil_built target h) fun _ => .pure _
    | bash target command recordOutput host turns =>
      exact .bind (bash_built target command recordOutput h.1 h.2) fun _ => .pure _
    | schedBash startsAt target command recordOutput host => exact schedBash_built _ _ _ _ _
    | setEventConfig config copied allocated mapped => exact setEventConfig_built _ _ _ _
    | singleStep first last host => exact singleStep_built _ _ _
    | disableSingleStep host => exact disableSingleStep_built _
    | nextIoInput =>
      exact .bind (.bind inferInstance fun _ => .pure _) fun _ => .pure _
    | feedbackBuffers read =>
      exact .bind (callVm_built fun b => .map (h b.vm)) fun _ => .pure _
  exact hbuilt.keeping Lasts.refl Lasts.trans b

/-! ### Branching -/

omit [InputSource S]

theorem callVm_eq_ok_iff {a : α} :
    callVm operation call b = (.ok a, b') ↔ ∃ vm, call b.vm = (.ok a, vm) ∧ b' = { b with vm } := by
  unfold callVm
  rw [Program.mapExit_eq_ok_iff, Program.call_apply, Prod.mk.injEq]
  constructor
  · rintro ⟨hok, rfl⟩
    exact ⟨_, Prod.ext hok rfl, rfl⟩
  rintro ⟨vm, hcall, rfl⟩
  rw [hcall]
  exact ⟨rfl, rfl⟩

theorem mapEventBuffer_eq_ok {mapped : Bool}
    (h : mapEventBuffer true mapped b = (.ok (), b')) : b' = { b with eventMapped := true } := by
  unfold mapEventBuffer at h
  rw [Program.call_apply] at h
  split at h
  · exact absurd (congrArg Prod.fst h) (by simp)
  · exact (congrArg Prod.snd h).symm

theorem sendEventConfig_eq_ok {copied allocated mapped : Bool} (henabled : config.enabled = 1)
    (h : sendEventConfig config copied allocated mapped b = (.ok (), b')) :
    (b.vm.handleSetEventConfig config copied allocated).1 = .ok () ∧
      b' = { b with
        vm := (b.vm.handleSetEventConfig config copied allocated).2
        eventMapped := true } := by
  obtain ⟨⟨⟩, b₁, hcall, hmap⟩ := Program.bind_eq_ok_iff.mp h
  obtain ⟨vm, hset, rfl⟩ := callVm_eq_ok_iff.mp hcall
  have hflag : decide (config.enabled ≠ 0) := by
    rw [henabled]
    rfl
  rw [hflag] at hmap
  obtain rfl := mapEventBuffer_eq_ok hmap
  obtain ⟨hok, rfl⟩ := Prod.mk.inj hset
  refine ⟨?_, rfl⟩
  cases hresult : (b.vm.handleSetEventConfig config copied allocated).1 with
  | error e =>
    rw [hresult] at hok
    cases hok
  | ok u => rfl

def forcedVm (force : Bool) (copied : Bool) (vm : VmContext) : VmContext :=
  if force then (vm.handleSetRdrandConfig exitToUserspace copied).2 else vm

theorem forceExits_eq_ok {force : Bool} {host : BranchHost}
    (h : forceExits force host b = (.ok (), b')) :
    b' = { b with vm := forcedVm force host.rdrandCopied b.vm } := by
  unfold forceExits at h
  unfold forcedVm
  cases force with
  | false => exact (congrArg Prod.snd h).symm
  | true =>
    rw [if_pos rfl] at h
    obtain ⟨vm, hset, rfl⟩ := callVm_eq_ok_iff.mp h
    obtain ⟨-, rfl⟩ := Prod.mk.inj hset
    rfl

end Branch

theorem Checkpoint.branchInner_spec {S : Type} {c : Checkpoint S} {id : Nat} {source : Option S}
    {force : Bool} {host : BranchHost} {b : Branch S}
    (h : c.branchInner id source force host = .ok b) :
    ∃ vm config, ForkedVm.new c.vm host.fork = .ok vm ∧ Captures source.isSome config ∧
      ((Branch.forcedVm force host.rdrandCopied vm).handleSetEventConfig config host.eventCopied
        host.eventAllocated).1 = .ok () ∧
      b = { c.forked id source vm with
        vm := ((Branch.forcedVm force host.rdrandCopied vm).handleSetEventConfig config
          host.eventCopied host.eventAllocated).2
        eventMapped := true } := by
  obtain ⟨vm, hfork, henable⟩ := branchInner_eq_ok_iff.mp h
  obtain ⟨⟨⟩, b₁, hforce, happly⟩ := Program.bind_eq_ok_iff.mp henable
  obtain rfl := Branch.forceExits_eq_ok hforce
  let forced : Branch S := { c.forked id source vm with
    vm := Branch.forcedVm force host.rdrandCopied vm }
  have hcaptures : Captures source.isSome
      (EventConfig.toVmConfigWith {} forced.alwaysCaptured) :=
    Branch.toVmConfigWith_captures forced {}
  obtain ⟨hok, hb⟩ := Branch.sendEventConfig_eq_ok hcaptures.enabled happly
  exact ⟨vm, _, hfork, hcaptures, hok, hb⟩

/-! ## Event streams -/

end Lab

def EventStream.opened (categories : UInt32) : EventStream :=
  { ({} : EventStream).setEventBuffer with categories }

theorem ForkedVm.new_events {parent child : VmContext} {host : ForkHost}
    (h : new parent host = .ok child) : child.state.events = {} := by
  obtain ⟨ept, controls, -, -, rfl⟩ := new_eq h
  exact MemoryOnly.events (preCowIoChannelPage_memory _)

namespace VmContext

theorem ioctl_events (ctx : VmContext) (call : Ioctl)
    (h : ∀ config copied allocated, call ≠ .setEventConfig config copied allocated) :
    (ctx.ioctl call).2.state.events = ctx.state.events := by
  have heffect := ctx.ioctl_effect call
  generalize (ctx.ioctl call).2 = after at heffect ⊢
  cases heffect with
  | events config copied allocated _ _ _ => exact absurd rfl (h config copied allocated)
  | _ => rfl

theorem handleSetEventConfig_events (ctx : VmContext) (config : BedrockEventConfig)
    (copied allocated : Bool) :
    ((ctx.handleSetEventConfig config copied allocated).1 ≠ .ok () ∧
      (ctx.handleSetEventConfig config copied allocated).2.state.events = ctx.state.events) ∨
    ctx.reconfigureEvents config allocated =
      some (ctx.handleSetEventConfig config copied allocated).2.state.events := by
  unfold handleSetEventConfig
  split
  · exact .inl ⟨by simp, rfl⟩
  split
  · exact .inl ⟨by simp, rfl⟩
  rename_i events hevents
  dsimp only
  split
  all_goals exact .inr hevents

theorem handleSetEventConfig_attached {ctx : VmContext}
    (hattached : ctx.state.events.attached) (henabled : config.enabled = 1)
    (copied allocated : Bool) : ∃ categories,
      (categories = ctx.state.events.categories ∨ categories = config.categories) ∧
      (ctx.handleSetEventConfig config copied allocated).2.state.events =
        { ctx.state.events with categories } := by
  rcases ctx.handleSetEventConfig_events config copied allocated with ⟨-, hsame⟩ | hchanged
  · exact ⟨_, .inl rfl, hsame⟩
  refine ⟨config.categories, .inr rfl, ?_⟩
  have hevents : ctx.reconfigureEvents config allocated =
      some { ctx.state.events with categories := config.categories } := by
    simp [reconfigureEvents, hattached, henabled]
  exact Option.some.inj (hchanged.symm.trans hevents)

theorem handleSetEventConfig_opened {ctx : VmContext}
    (hfresh : ctx.state.events = {}) (henabled : config.enabled = 1) {copied allocated : Bool}
    (hok : (ctx.handleSetEventConfig config copied allocated).1 = .ok ()) :
    (ctx.handleSetEventConfig config copied allocated).2.state.events =
      .opened config.categories := by
  rcases ctx.handleSetEventConfig_events config copied allocated with ⟨hfailed, -⟩ | hchanged
  · exact absurd hok hfailed
  cases allocated with
  | false => simp [reconfigureEvents, hfresh, henabled] at hchanged
  | true =>
    have hevents : ctx.reconfigureEvents config true = some (.opened config.categories) := by
      simp [reconfigureEvents, hfresh, henabled, EventStream.opened]
    exact Option.some.inj (hchanged.symm.trans hevents)

end VmContext

namespace Lab

/-- The ioctls of a branch change at most the categories of its stream. -/
theorem FromLab.events {sourced : Bool} {call : Ioctl} (h : FromLab sourced call) {ctx : VmContext}
    (hattached : ctx.state.events.attached) : ∃ categories,
      (categories = ctx.state.events.categories ∨
        ∃ config, Captures sourced config ∧ categories = config.categories) ∧
      (ctx.ioctl call).2.state.events = { ctx.state.events with categories } := by
  cases call with
  | setEventConfig config copied allocated =>
    have hcaptures : Captures sourced config := h
    obtain ⟨categories, hcategories, hevents⟩ := handleSetEventConfig_attached hattached
      hcaptures.enabled copied allocated
    exact ⟨categories, hcategories.imp_right fun heq => ⟨config, hcaptures, heq⟩, hevents⟩
  | _ => exact ⟨_, .inl rfl, ctx.ioctl_events _ (by simp)⟩

theorem Checkpoint.branchInner_opened {S : Type} {c : Checkpoint S} {id : Nat} {source : Option S}
    {force : Bool} {host : BranchHost} {b : Branch S}
    (h : c.branchInner id source force host = .ok b) :
    ∃ config, Captures source.isSome config ∧ b.vm.state.events = .opened config.categories := by
  obtain ⟨vm, config, hfork, hcaptures, hok, rfl⟩ := branchInner_spec h
  refine ⟨config, hcaptures, handleSetEventConfig_opened ?_ hcaptures.enabled hok⟩
  have hfresh := ForkedVm.new_events hfork
  unfold Branch.forcedVm
  split
  · exact (vm.ioctl_events (.setRdrandConfig _ _) (by simp)).trans hfresh
  · exact hfresh

theorem Branch.ran_of_mapped {S : Type} {b : Branch S} {vm : VmContext} {exit : VmExit}
    (hmapped : b.eventMapped) (hreports : exit.Reports vm) :
    b.ran vm exit = (EventRecord.stream vm.state.events.buffer).foldl drainRecord
      { b with vm, currentTime := ⟨exit.emulatedTsc, b.tscFrequency⟩ } := by
  have hbuffer : (List.range (min exit.eventLen EVENT_BUFFER_SIZE)).map vm.state.events.bytes =
      vm.state.events.buffer := by
    rw [hreports.eventLen, Nat.min_eq_left vm.state.events.len_le]
    simp [EventStream.buffer, window]
  unfold ran
  rw [drainEvents_snd]
  split
  · rename_i hempty
    rcases hempty with hzero | hunmapped
    · have hnil : vm.state.events.buffer = [] := by
        rw [← hbuffer, hzero]
        rfl
      rw [hnil]
      rfl
    · rw [hmapped] at hunmapped
      cases hunmapped
  · rw [hbuffer]

/-- The VM has reached the time. -/
structure Timely (time : VirtTime) (tscFrequency : Nat) (vm : VmContext) : Prop where
  frequency : time.frequency = tscFrequency
  reached : time.instructions ≤ vm.state.clock.emulatedTsc
  sound : vm.state.clock.Sound

theorem Timely.forward {time : VirtTime} {tscFrequency : Nat} {vm vm' : VmContext}
    (h : Timely time tscFrequency vm) (hforward : Forward vm vm') : Timely time tscFrequency vm' := by
  obtain ⟨hle, hsound⟩ := hforward h.sound
  exact ⟨h.frequency, h.reached.trans hle, hsound⟩

section

variable {S : Type} {P : VmStep → Prop}

/-- A step that stays on the branch keeps its origin and frequency. -/
theorem BranchStep.Valid.kept {t : BranchStep S} (h : t.Valid P) (hstays : t.Stays) :
    t.post.origin = t.pre.origin ∧ t.post.tscFrequency = t.pre.tscFrequency := by
  cases h with
  | ioctl _ => exact ⟨rfl, rfl⟩
  | @returned b ts exit vm _ _ _ =>
    obtain ⟨line, recording, sink, hran⟩ := b.ran_eq vm exit
    dsimp only
    rw [hran]
    exact ⟨rfl, rfl⟩
  | failed _ _ | map _ => exact ⟨rfl, rfl⟩
  | note hnoted => exact ⟨hnoted.origin, hnoted.tscFrequency⟩
  | renew _ _ => exact absurd rfl (hstays _ _ _)

theorem Session.kept {b b' : Branch S} {ts : List (BranchStep S)} (h : Session P b ts b')
    (hstays : ∀ t ∈ ts, t.Stays) : b'.origin = b.origin ∧ b'.tscFrequency = b.tscFrequency := by
  refine (h.walk.invariant (I := fun c => c.origin = b.origin ∧ c.tscFrequency = b.tscFrequency)
    (fun t ht hpre => ?_) ⟨rfl, rfl⟩).2
  obtain ⟨horigin, hfreq⟩ := (h.valid t ht).kept (hstays t ht)
  exact ⟨horigin.trans hpre.1, hfreq.trans hpre.2⟩

theorem BranchStep.Valid.timely {t : BranchStep S} (h : t.Valid CountsUp) (hstays : t.Stays)
    (htimely : Timely t.pre.currentTime t.pre.tscFrequency t.pre.vm) :
    Timely t.post.currentTime t.post.tscFrequency t.post.vm ∧
      t.pre.currentTime.instructions ≤ t.post.currentTime.instructions := by
  cases h with
  | ioctl _ => exact ⟨htimely.forward (.of_clock (ioctl_clock _ _)), Nat.le_refl _⟩
  | @returned b ts exit vm hrun hreports hsteps =>
    obtain ⟨hle, hsound⟩ := hrun.history.forward hsteps htimely.sound
    obtain ⟨line, recording, sink, hran⟩ := b.ran_eq vm exit
    dsimp only
    rw [hran]
    refine ⟨⟨rfl, hreports.emulatedTsc.le, hsound⟩, ?_⟩
    rw [hreports.emulatedTsc]
    exact htimely.reached.trans hle
  | failed hrun hsteps => exact ⟨htimely.forward (hrun.history.forward hsteps), Nat.le_refl _⟩
  | map hmemory =>
    refine ⟨htimely.forward (.of_clock ?_), Nat.le_refl _⟩
    rw [hmemory]
  | note hnoted =>
    refine ⟨?_, (congrArg VirtTime.instructions hnoted.currentTime).ge⟩
    rw [hnoted.currentTime, hnoted.tscFrequency, hnoted.vm]
    exact htimely
  | renew _ _ => exact absurd rfl (hstays _ _ _)

theorem Session.timely {b b' : Branch S} {ts : List (BranchStep S)}
    (h : Session CountsUp b ts b') (hstays : ∀ t ∈ ts, t.Stays)
    (htimely : Timely b.currentTime b.tscFrequency b.vm) :
    Timely b'.currentTime b'.tscFrequency b'.vm ∧
      b.currentTime.instructions ≤ b'.currentTime.instructions := by
  refine (h.walk.invariant (I := fun c => Timely c.currentTime c.tscFrequency c.vm ∧
    b.currentTime.instructions ≤ c.currentTime.instructions)
    (fun t ht hpre => ?_) ⟨htimely, Nat.le_refl _⟩).2
  obtain ⟨hpost, hle⟩ := (h.valid t ht).timely (hstays t ht) hpre.1
  exact ⟨hpost, hpre.2.trans hle⟩

end

end Lab

end Bedrock
