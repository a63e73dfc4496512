import Bedrock.ForkContext
import Bedrock.Lab.Schedule

/-!
# Branching with another source

`branch_with_input_source` puts another source in place of the checkpoint's.  It keeps
the look-ahead of the checkpoint, though: an input the old source had handed out is
queued before those of the new one, and a new source is never asked for I/O inputs if the
old one had none left.
-/

namespace Bedrock

open Support Built Program Lookahead Branch EventKind ForkedVm VmContext

namespace Lab

variable (target : VirtTime)

namespace Branch

variable {S : Type}

theorem onInputs_alike {α : Type}
    (m : Bedrock.Branch S → Except Bedrock.LabError α × Bedrock.Branch S) :
    Built (Alike SameRun) (onInputs m) := by
  refine .mapExit _ (.call fun b b' h => ?_)
  dsimp only
  rw [h.toBranch]
  exact ⟨rfl, rfl, h.lastStopAt, h.eventConfig, h.eventMapped⟩

theorem TurnAction.built_alike {α : Type} {m : Act S α} (h : Built TurnAction m) :
    Built (Alike SameRun) m :=
  h.mono fun _ hf => hf.alike

instance (config : BedrockEventConfig) (copied allocated mapped : Bool) :
    Built (Alike SameRun) (sendEventConfig config copied allocated mapped : Act S Unit) := by
  refine .bind (TurnAction.built_alike inferInstance) fun _ => .call fun b b' h => ?_
  have hvm : b.vm = b'.vm := congrArg Bedrock.Branch.vm h.toBranch
  rw [h.eventMapped, hvm]
  split
  · refine ⟨rfl, ?_, h.lastStopAt, h.eventConfig, rfl⟩
    dsimp only
    rw [h.toBranch]
  · exact ⟨rfl, h.toBranch, h.lastStopAt, h.eventConfig, rfl⟩

theorem enable_alike (force : Bool) (host : BranchHost) :
    Built (Alike SameRun) (enable force host : Act S Unit) := by
  have hread : Built (Alike SameRun) (read fun b : Branch S =>
      b.eventConfig.toVmConfigWith (if b.inputSource.isSome
        then serial.category ||| RECORDING_CATEGORIES else serial.category) :
      Act S _) := by
    refine .act fun b b' h => ⟨?_, h⟩
    have hsource : b.inputSource = b'.inputSource := congrArg Bedrock.Branch.inputSource h.toBranch
    dsimp only
    rw [h.eventConfig, hsource]
  have happly : Built (Alike SameRun)
      (applyEventConfig host.eventCopied host.eventAllocated host.eventMapped : Act S Unit) :=
    .bind hread fun config => inferInstance
  refine .bind ?_ fun _ => happly
  unfold forceExits
  split
  · exact TurnAction.built_alike inferInstance
  · exact .pure ()

variable [InputSource S]

theorem runTurn_alike (turn : Turn) :
    Built (Alike SameRun) (runTurn target turn : Act S _) := by
  rw [runTurn_eq]
  exact .bind (onInputs_alike _) fun stopAt => TurnAction.built_alike inferInstance

theorem runUntilCalls_sameRun (turns : List Turn) {b b' : Branch S}
    (h : SameRun b b') : runUntilCalls target turns b = runUntilCalls target turns b' := by
  have htrace : driveTrace (turnCalls target) (runTurn target) turns b =
      driveTrace (turnCalls target) (runTurn target) turns b' :=
    driveTrace_alike (R := SameRun) (fun turn b b' h => by rw [turnCalls, turnCalls, h.toBranch])
      (fun turn => (runTurn_alike target turn).alike) turns h
  rw [runUntilCalls, runUntilCalls, htrace, h.toBranch]

theorem runUntil_sameRun (turns : List Turn) {b b' : Branch S} (h : SameRun b b') :
    (runUntil target turns b).1 = (runUntil target turns b').1 ∧
      SameRun (runUntil target turns b).2 (runUntil target turns b').2 := by
  have hturn : ∀ turn, Built (Alike SameRun) (runTurn target turn : Act S _) :=
    runTurn_alike target
  have hdrive := (inferInstance : Built (Alike SameRun)
    (drive (runTurn target) turns : Act S _)).alike b b' h
  rw [runUntil_eq, runUntil_eq, h.toBranch]
  split
  · exact ⟨rfl, h⟩
  split
  · exact ⟨rfl, h⟩
  split
  · exact ⟨rfl, h⟩
  · exact hdrive

theorem sessionCalls_sameRun (ops : List (VirtTime × List Turn)) {b b' : Branch S}
    (h : SameRun b b') : sessionCalls ops b = sessionCalls ops b' := by
  induction ops generalizing b b' with
  | nil => rfl
  | cons op ops ih =>
    obtain ⟨target, turns⟩ := op
    obtain ⟨hvalue, hstate⟩ := runUntil_sameRun target turns h
    rw [sessionCalls, sessionCalls, runUntilCalls_sameRun target turns h]
    rcases hb : runUntil target turns b with ⟨r, c⟩
    rcases hb' : runUntil target turns b' with ⟨r', c'⟩
    rw [hb, hb'] at hvalue hstate
    dsimp only at hvalue hstate
    subst hvalue
    rcases r with e | _ | outcome
    · rfl
    · rfl
    · exact congrArg _ (ih hstate)

end Branch

/-! ## A fresh branch -/

/-- The branch `branch_inner` makes of a fork. -/
def Checkpoint.forked {S : Type} (c : Checkpoint S) (id : Nat) (source : Option S)
    (vm : VmContext) : Branch S where
  vm
  currentTime := c.time
  tscFrequency := c.tscFrequency
  inputSource := source
  pendingInputIo := c.pendingInputIo
  inputIoExhausted := c.inputIoExhausted
  origin := id
  partialLine := c.partialLine
  inputRecording := c.inputRecording

theorem Checkpoint.branchInner_eq_ok_iff {S : Type} {c : Checkpoint S} {id : Nat}
    {source : Option S} {force : Bool} {host : BranchHost} {b : Branch S} :
    c.branchInner id source force host = .ok b ↔
      ∃ vm, ForkedVm.new c.vm host.fork = .ok vm ∧
        Branch.enable force host (c.forked id source vm) = (.ok (), b) := by
  unfold branchInner Bedrock.Checkpoint.branchInner
  cases ForkedVm.new c.vm host.fork with
  | error e => simp
  | ok vm =>
    simp only [Except.ok.injEq, exists_eq_left']
    rw [forked]
    generalize Branch.enable force host _ = enabled
    rcases enabled with ⟨e | u, b'⟩
    · simp
    · simp

namespace Branch

variable {S : Type}

/-- Ioctls on a fresh branch change its VM and whether the event buffer is mapped. -/
def Configured (b b' : Branch S) : Prop :=
  ∃ vm mapped, b' = { b with vm, eventMapped := mapped }

theorem Configured.refl (b : Branch S) : Configured b b :=
  ⟨b.vm, b.eventMapped, rfl⟩

theorem Configured.trans {b b' b'' : Branch S} (h : Configured b b') (h' : Configured b' b'') :
    Configured b b'' := by
  obtain ⟨vm, mapped, rfl⟩ := h
  obtain ⟨vm', mapped', rfl⟩ := h'
  exact ⟨vm', mapped', rfl⟩

theorem enable_configured (force : Bool) (host : BranchHost) (b : Branch S) :
    Configured b (enable force host b).2 := by
  have hcall : ∀ {α : Type} (operation : VmOperation)
      (call : VmContext → Except IoError α × VmContext),
      Obeys Configured (callVm operation call : Act S α) :=
    fun _ _ => .mapExit _ (.call fun b => ⟨_, b.eventMapped, rfl⟩)
  have hforce : Obeys Configured (forceExits force host : Act S Unit) := by
    unfold forceExits
    split
    · exact hcall _ _
    · exact .pure ()
  have hmap : ∀ enabled mapped, Obeys Configured
      (mapEventBuffer enabled mapped : Act S Unit) := by
    intro enabled mapped
    refine .call fun b => ?_
    split
    · exact ⟨_, b.eventMapped, rfl⟩
    · exact ⟨b.vm, _, rfl⟩
  have henable : Obeys Configured (enable force host : Act S Unit) :=
    .bind hforce fun _ => .bind (.act fun b => .refl b) fun _ => .bind (hcall _ _) fun _ => hmap _ _
  exact henable.keeping Configured.refl Configured.trans b

theorem ofCode_triggerCode (trigger : ExitTrigger) :
    ExitTrigger.ofCode (triggerCode trigger).toNat = some trigger := by
  cases trigger <;> rfl

theorem toVmConfigWith_trigger (config : EventConfig) (extra : UInt32) :
    ∃ trigger, ExitTrigger.ofCode (config.toVmConfigWith extra).exitTrigger.toNat =
      some trigger := by
  unfold EventConfig.toVmConfigWith
  dsimp only
  split
  · exact ⟨.disabled, rfl⟩
  · exact ⟨_, ofCode_triggerCode _⟩

variable (vm : VmContext)

theorem handleSetEventConfig_ok {config : BedrockEventConfig} {trigger : ExitTrigger}
    (h : ExitTrigger.ofCode config.exitTrigger.toNat = some trigger) :
    (vm.handleSetEventConfig config true true).1 = .ok () := by
  have hevents : ∃ events, vm.reconfigureEvents config true = some events := by
    unfold reconfigureEvents
    dsimp only
    split
    · exact ⟨_, rfl⟩
    · split
      all_goals exact ⟨_, rfl⟩
  obtain ⟨events, hevents⟩ := hevents
  simp [handleSetEventConfig, hevents, h]

theorem enable_ok (force : Bool) (fork : ForkHost) (b : Branch S) :
    ∃ b', enable force { fork } b = (.ok (), b') := by
  have hcall : ∀ (operation : VmOperation) (call : VmContext → Except Errno Unit × VmContext)
      (b : Branch S), (call b.vm).1 = .ok () →
        ∃ b', callVm operation (fun vm => osError (call vm)) b = (.ok (), b') := by
    intro operation call b hok
    refine ⟨{ b with vm := (call b.vm).2 }, callVm_ok ?_⟩
    rw [osError, hok]
    rfl
  have hforce : ∃ b', forceExits force { fork } b = (.ok (), b') := by
    cases force with
    | false => exact ⟨b, rfl⟩
    | true => exact hcall .setRdrandConfig (·.handleSetRdrandConfig exitToUserspace true) b rfl
  obtain ⟨b₁, hforce⟩ := hforce
  unfold enable applyEventConfig sendEventConfig
  rw [bind_ok hforce, bind_ok (read_apply _ b₁)]
  obtain ⟨trigger, htrigger⟩ := toVmConfigWith_trigger b₁.eventConfig
    (if b₁.inputSource.isSome then serial.category ||| RECORDING_CATEGORIES
      else serial.category)
  obtain ⟨b₂, hsend⟩ := hcall .setEventConfig (·.handleSetEventConfig _ true true) b₁
    (handleSetEventConfig_ok b₁.vm htrigger)
  rw [bind_ok hsend]
  simp [mapEventBuffer]

variable [InputSource S]

/-! ## A probe -/

def queuedInputs (ops : List (VirtTime × List Turn)) (b : Branch S) : List IoInput :=
  accepted (sessionCalls ops b)

/-- An input for the moment after `now` that is not `old`. -/
def probeInput (now freq : Nat) (old : Option IoInput) : IoInput where
  startsAt := ⟨now + 1, freq⟩
  target := .host
  command := ""
  recordOutput := !(old.map IoInput.recordOutput).getD false

theorem probeInput_ne (now freq : Nat) (old : Option IoInput) :
    old ≠ some (probeInput now freq old) := by
  rintro h
  cases old with
  | none => cases h
  | some input =>
    have hrecord : input.recordOutput = !input.recordOutput :=
      congrArg IoInput.recordOutput (Option.some.inj h)
    cases hvalue : input.recordOutput with
    | false => simp [hvalue] at hrecord
    | true => simp [hvalue] at hrecord

def idleVm (vm : VmContext) : VmContext :=
  vm.setGuest { vm.state.guest with
    ioChannel := { vm.state.guest.ioChannel with pending := [] } }

/-- The VM runs to the moment after `now` and has room for an action then. -/
def probeTurn (now : Nat) : Turn where
  run vm := (.ok { exitReason := .needResched, emulatedTsc := now + 1 }, idleVm vm)

def probeRun (now freq : Nat) : List (VirtTime × List Turn) :=
  [(⟨now + 2, freq⟩, [probeTurn now, probeTurn now])]

omit [InputSource S] in
theorem setStopAt_ok (value : Option Nat) (b : Branch S) :
    ∃ vm, setStopAt value true b = (.ok (), { b with vm, lastStopAt := some value }) := by
  unfold setStopAt
  rw [bind_ok (read_apply _ b)]
  by_cases hsame : b.lastStopAt = some value
  · rw [if_pos hsame]
    refine ⟨b.vm, ?_⟩
    rw [← hsame]
    rfl
  · rw [if_neg hsame]
    exact ⟨_, rfl⟩

theorem afterPrepare_probe (now : Nat) (stopAt : VirtTime) (b : Branch S) :
    ∃ vm, afterPrepare target (probeTurn now) stopAt b =
      (.ok none, { b with
        vm := idleVm vm
        currentTime := ⟨now + 1, b.tscFrequency⟩
        lastStopAt := some (some stopAt.instructions) }) := by
  obtain ⟨vm, hstop⟩ := setStopAt_ok (some stopAt.instructions) b
  exact ⟨vm, bind_ok hstop⟩

theorem queueIoAction_of_room {data : List UInt8} (targetTsc : Nat)
    (hdata : data.length ≤ IO_CHANNEL_BUF_SIZE)
    (hroom : vm.state.guest.ioChannel.pending.length < PENDING_IO_QUEUE_CAP) :
    ∃ vm', vm.queueIoAction data targetTsc {} = (.ok (), vm') := by
  simp [queueIoAction, handleQueueIoAction, IoChannelState.enqueuePending,
    not_lt.mpr hdata, not_le.mpr hroom]

theorem idleVm_room :
    (idleVm vm).state.guest.ioChannel.pending.length < PENDING_IO_QUEUE_CAP :=
  (by decide : 0 < PENDING_IO_QUEUE_CAP)

theorem probeInput_fits (now freq : Nat) (old : Option IoInput) :
    (probeInput now freq old).action.data.length ≤ IO_CHANNEL_BUF_SIZE := by
  have hfits : ∀ recordOutput,
      (encodeRequest .host "" recordOutput).length ≤ IO_CHANNEL_BUF_SIZE := by decide +kernel
  exact hfits _

end Branch

end Lab

namespace Branch

variable {S : Type} [InputSource S] {b : Branch S} {target : VirtTime} {input : IoInput}

theorem pullCalls_accepted (b : Branch S) : accepted b.pullCalls = [] := by
  unfold pullCalls
  split
  · rfl
  · rfl

theorem prepareNextIoInput_pull {source source' : S} (hsource : b.inputSource = some source)
    (hnext : InputSource.nextIoInput source = (some input, source'))
    (hpending : b.pendingInputIo = none) (hexhausted : b.inputIoExhausted = false)
    (hfreq : input.startsAt.frequency = b.tscFrequency) (htarget : ¬target < input.startsAt)
    (hearly : b.currentTime < input.startsAt) (host : QueueHost) :
    b.prepareNextIoInput target host =
        (.ok input.startsAt, { b with inputSource := some source', pendingInputIo := some input }) ∧
      b.prepareCalls target host = [.pulled (some input)] := by
  have hhand : b.inputAtHand = (some input, { b with
      inputSource := some source', pendingInputIo := some input }) := by
    simp [inputAtHand, pullInput, hpending, hsource, hnext, hexhausted]
  have hdue : b.dueInput target = .inl (.ok input.startsAt, { b with
      inputSource := some source', pendingInputIo := some input }) := by
    simp [dueInput, hhand, hexhausted, checkFreq, hfreq, htarget, hearly]
  refine ⟨?_, ?_⟩
  · rw [prepareNextIoInput, hdue]
  · rw [prepareCalls, hdue, dueCalls, if_neg (by simp [hexhausted, hpending])]
    simp [pullCalls, hsource, hnext]

theorem prepareCalls_accepted (hpending : b.pendingInputIo = some input)
    (hexhausted : b.inputIoExhausted = false) (hfreq : input.startsAt.frequency = b.tscFrequency)
    (htarget : ¬target < input.startsAt) (hnow : ¬b.currentTime < input.startsAt)
    {host : QueueHost} {vm : VmContext}
    (hqueue : b.vm.queueIoAction input.action.data input.action.targetTsc host = (.ok (), vm)) :
    accepted (b.prepareCalls target host) = [input] := by
  have hdue : b.dueInput target = .inr (input, { b with pendingInputIo := none }) := by
    simp [dueInput, inputAtHand, hpending, hexhausted, checkFreq, hfreq, htarget, hnow]
  rw [prepareCalls, hdue, dueCalls, if_pos (by simp [hpending])]
  simp only [submitCalls, hqueue, List.nil_append, Lookahead.accepted, pullCalls_accepted]

end Branch

namespace Lab

namespace Branch

theorem queuedInputs_probe {b : Branch RecordedInputSource} {now freq : Nat} {old : Option IoInput}
    (htime : b.currentTime.instructions = now) (hfreq : b.tscFrequency = freq)
    (hsource : b.inputSource = some { recording := { ioInputs := [probeInput now freq old] } })
    (hpending : b.pendingInputIo = none) (hexhausted : b.inputIoExhausted = false) :
    queuedInputs (probeRun now freq) b = [probeInput now freq old] := by
  subst htime hfreq
  set now := b.currentTime.instructions with hnow
  set input := probeInput now b.tscFrequency old with hinput
  set target : VirtTime := ⟨now + 2, b.tscFrequency⟩ with htarget
  have hlate : ¬target < input.startsAt := by
    rintro (h | ⟨h, -⟩) <;> simp [htarget, hinput, probeInput] at h
  have hearly : b.currentTime < input.startsAt := .inl (Nat.lt_succ_self _)
  -- the first turn pulls the input and runs to its time
  have hnext : InputSource.nextIoInput
      ({ recording := { ioInputs := [input] } } : RecordedInputSource) =
        (some input, { recording := { ioInputs := [input] }, ioPos := 1 }) := rfl
  obtain ⟨hprepare, hpulled⟩ := Bedrock.Branch.prepareNextIoInput_pull hsource hnext hpending
    hexhausted rfl hlate hearly (probeTurn now).queue
  obtain ⟨vm, hafter⟩ := afterPrepare_probe (S := RecordedInputSource) target now
    input.startsAt { b with
    inputSource := some { recording := { ioInputs := [input] }, ioPos := 1 }
    pendingInputIo := some input }
  have hturn := (runTurn_of_prepare hprepare).trans hafter
  -- the second turn offers it to a VM that has room
  obtain ⟨vm', hqueue⟩ := queueIoAction_of_room (idleVm vm) input.action.targetTsc
    (probeInput_fits now b.tscFrequency old) (idleVm_room vm)
  let base : Bedrock.Branch RecordedInputSource :=
    { b.toBranch with
      vm := idleVm vm
      currentTime := ⟨now + 1, b.tscFrequency⟩
      inputSource := some { recording := { ioInputs := [input] }, ioPos := 1 }
      pendingInputIo := some input }
  have hdue : ¬base.currentTime < input.startsAt := by
    rintro (h | ⟨-, h⟩) <;> exact absurd h (Nat.lt_irrefl _)
  have haccepted := Bedrock.Branch.prepareCalls_accepted (b := base) rfl hexhausted rfl hlate hdue
    hqueue
  have hrun : ¬(target.frequency ≠ b.tscFrequency ∨ target < b.currentTime ∨
      target = b.currentTime) := by
    rintro (h | (h | ⟨h, -⟩) | h)
    · exact h rfl
    · simp [htarget, hnow] at h
    · simp [htarget, hnow] at h
    · have hinstr := congrArg VirtTime.instructions h
      simp [htarget, hnow] at hinstr
  have hcalls : accepted (runUntilCalls target [probeTurn now, probeTurn now] b) =
      [input] := by
    rw [runUntilCalls, if_neg hrun, driveTrace_of_continued hturn,
      driveTrace_singleton, accepted_append]
    exact congrArg₂ (· ++ ·) (congrArg Lookahead.accepted hpulled) haccepted
  rw [queuedInputs, probeRun, sessionCalls, accepted_append, hcalls]
  split
  · rfl
  · rfl

theorem sessionCalls_exhausted {S : Type} [InputSource S] (ops : List (VirtTime × List Turn))
    {b : Branch S} (h : b.inputIoExhausted) : sessionCalls ops b = [] := by
  have hbegin : ([] : List InputCall) = [] ∧ b.inputIoExhausted := ⟨rfl, h⟩
  refine sessionCalls_notes (I := fun log (b : Branch S) => log = [] ∧ b.inputIoExhausted)
    (J := fun log => log = []) And.left ?_ ops hbegin
  rintro target turn log b ⟨rfl, hexhausted⟩
  have hdue : b.toBranch.dueInput target = .inl (.ok target, b.toBranch) := by
    rw [Bedrock.Branch.dueInput, if_pos hexhausted]
  have hcalls : turnCalls target turn b = [] := by
    rw [turnCalls, Bedrock.Branch.prepareCalls, hdue, Bedrock.Branch.dueCalls,
      if_pos (.inl hexhausted)]
    rfl
  have hprepare : b.toBranch.prepareNextIoInput target turn.queue = (.ok target, b.toBranch) := by
    rw [Bedrock.Branch.prepareNextIoInput, hdue]
  refine ⟨hcalls, fun r b' hrun => ⟨hcalls, ?_⟩⟩
  rw [runTurn_of_prepare hprepare] at hrun
  have hkept := (afterPrepare_kept target turn target b).inputIoExhausted
  rw [hrun] at hkept
  exact hkept.trans hexhausted

end Branch

/-! ## The new source only -/

/-- Whatever its new source, a branch of the checkpoint queues inputs of that source only,
in order, and the same as branches of any other checkpoint of the same VM and time whose
look-ahead is empty. -/
def Checkpoint.SourceOnly {S : Type} (c : Checkpoint S) : Prop :=
  ∀ (T : Type) [InputSource T] (source : T) (id : Nat) (host : BranchHost) (b : Branch T),
    c.branchWithInputSource id source host = .ok b → ∀ ops,
      Branch.queuedInputs ops b <+: pulled (Branch.sessionCalls ops b) ∧
      ∀ (S' : Type) (c' : Checkpoint S') (id' : Nat) (b' : Branch T),
        c'.vm = c.vm → c'.time = c.time → c'.tscFrequency = c.tscFrequency →
        c'.pendingInputIo = none → c'.inputIoExhausted = false →
        c'.branchWithInputSource id' source host = .ok b' →
          Branch.queuedInputs ops b' = Branch.queuedInputs ops b

namespace Checkpoint

variable {S T : Type}

theorem branchWithInputSource_spec {c : Checkpoint S} {source : T} {id : Nat} {host : BranchHost}
    {b : Branch T} (h : c.branchWithInputSource id source host = .ok b) :
    b.currentTime = c.time ∧ b.tscFrequency = c.tscFrequency ∧ b.inputSource = some source ∧
      b.pendingInputIo = c.pendingInputIo ∧ b.inputIoExhausted = c.inputIoExhausted := by
  obtain ⟨vm, -, henable⟩ := branchInner_eq_ok_iff.mp h
  obtain ⟨vm', mapped, hb⟩ := Branch.enable_configured true host
    ((c.override source).forked id (some source) vm)
  rw [henable] at hb
  dsimp only at hb
  subst hb
  exact ⟨rfl, rfl, rfl, rfl, rfl⟩

theorem branchWithInputSource_ok (c : Checkpoint S) (source : T) (id : Nat) {fork : ForkHost}
    {vm : VmContext} (h : ForkedVm.new c.vm fork = .ok vm) :
    ∃ b, c.branchWithInputSource id source { fork } = .ok b := by
  obtain ⟨b, henable⟩ := Branch.enable_ok true fork ((c.override source).forked id (some source) vm)
  exact ⟨b, branchInner_eq_ok_iff.mpr ⟨vm, h, henable⟩⟩

theorem branchWithInputSource_sameRun {S' : Type} {c : Checkpoint S} {c' : Checkpoint S'}
    {source : T} {id id' : Nat} {host : BranchHost} {b b' : Branch T} (hvm : c'.vm = c.vm)
    (htime : c'.time = c.time) (hfreq : c'.tscFrequency = c.tscFrequency)
    (hpending : c'.pendingInputIo = c.pendingInputIo)
    (hexhausted : c'.inputIoExhausted = c.inputIoExhausted)
    (h : c.branchWithInputSource id source host = .ok b)
    (h' : c'.branchWithInputSource id' source host = .ok b') : Branch.SameRun b' b := by
  obtain ⟨vm, hnew, henable⟩ := branchInner_eq_ok_iff.mp h
  obtain ⟨vm', hnew', henable'⟩ := branchInner_eq_ok_iff.mp h'
  obtain rfl : vm' = vm := by
    have hsame : ForkedVm.new c.vm host.fork = .ok vm' := hvm ▸ hnew'
    exact Except.ok.inj (hsame.symm.trans hnew)
  have hforked : Branch.SameRun ((c'.override source).forked id' (some source) vm')
      ((c.override source).forked id (some source) vm') := by
    refine ⟨?_, rfl, rfl, rfl⟩
    simp only [forked, override, htime, hfreq, hpending, hexhausted]
  have hrun := ((Branch.enable_alike true host).alike _ _ hforked).2
  rw [henable, henable'] at hrun
  exact hrun

def forget (c : Checkpoint S) : Checkpoint S :=
  { c with pendingInputIo := none, inputIoExhausted := false }

def ofNewVm (pending : Option IoInput) : Checkpoint RecordedInputSource where
  vm := newVm
  time := ⟨0, 1000⟩
  tscFrequency := 1000
  inputSource := none
  pendingInputIo := pending
  inputIoExhausted := false

end Checkpoint

end Lab

end Bedrock
