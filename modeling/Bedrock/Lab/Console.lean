import Bedrock.ExitRecords
import Bedrock.Lab.Session
import Bedrock.Printing
import Bedrock.Support.Lines

/-!
# Serial lines end to end

What the guest prints passes through two accumulators: the line buffer of the VM, which
cuts the output into records, and the partial line of the branch, which puts the lines
together again.  Along a path of branches and checkpoints the lines the sink is told of
are the lines that were printed, as long as no line is open in the line buffer when the
VM is forked, and no RUN that fails takes output with it.
-/

namespace Bedrock

open Support EventStream VmContext Checkpoint List Option VmStep Iteration EventRecord Lab

/-! ## One RUN -/

namespace VmContext

theorem resume_silent (ctx : VmContext) (how : Resume) :
    Prints [] (ctx.resumedEvents how) (ctx.resume how).2.state.events := by
  cases how with
  | loop => exact .refl _
  | refilled => exact ctx.startRun_silent
  | ioctl => exact (ctx.setEvents ctx.state.events.clear).startRun_silent

theorem enter_silent (ctx : VmContext) (how : Resume) :
    Prints [] (ctx.resumedEvents how) (ctx.enter how).2.state.events := by
  have hresume := ctx.resume_silent how
  unfold enter
  generalize ctx.resume how = begun at hresume ⊢
  obtain ⟨e | _, resumed⟩ := begun
  · exact hresume
  · exact hresume.trans resumed.injectPendingInterrupt_silent

theorem abort_silent (ctx : VmContext) (how : Resume) (point : AbortPoint) :
    Prints [] (ctx.resumedEvents how) (ctx.abort how point).state.events := by
  cases point with
  | load =>
    rw [abort]
    cases how with
    | loop => exact .refl _
    | refilled => exact .refl _
    | ioctl => exact .refl _
  | start => exact ctx.resume_silent how
  | entry => exact ctx.enter_silent how

theorem leave_place {ctx done : VmContext} {result : ExitHandlerResult}
    (h : ctx.leave = (result, done)) (hok : ∀ e, result ≠ .error e) :
    done.state.events.pendingExitLoc = none := by
  have hfinal : ∀ after : VmContext,
      after.finalizeExitRecord.state.events.pendingExitLoc = none := by
    intro after
    rw [finalizeExitRecord]
    split
    · rename_i hnone
      exact isNone_iff_eq_none.mp hnone
    · exact finalizeExit_pendingExitLoc _ _ _
  unfold leave at h
  split at h
  · cases h
    exact absurd rfl (hok _)
  · cases h
    exact hfinal _

end VmContext

/-- What the guest prints in an iteration. -/
theorem Iteration.Valid.prints {it : Iteration} (h : it.Valid) :
    Prints it.exited.consoleOutput (it.start.resumedEvents it.how) it.done.state.events := by
  have henter := it.start.enter_silent it.how
  have hleave := it.exited.leave_prints
  rw [h.enter] at henter
  rw [h.leave, h.ran.events] at hleave
  exact henter.append hleave

def VmStep.printed (t : VmStep) : List UInt8 :=
  match t.label with
  | .iterate it => it.exited.consoleOutput
  | _ => []

variable {how : Resume} {ctx ctx' : VmContext} {ts : List VmStep}

theorem VmContext.resumedEvents_of_next {result : ExitHandlerResult}
    (h : result.next = some how) (ctx : VmContext) : ctx.resumedEvents how = ctx.state.events := by
  cases how with
  | loop | refilled => rfl
  | ioctl =>
    exfalso
    unfold ExitHandlerResult.next at h
    split at h <;> cases h

theorem RunLoop.prints {r : Option ExitReason} (h : RunLoop how ctx ts r ctx') :
    Prints (ts.flatMap printed) (ctx.resumedEvents how) ctx'.state.events := by
  induction h with
  | @again it how ts r ctx' hvalid hnext hrest ih =>
    rw [resumedEvents_of_next hnext] at ih
    exact hvalid.prints.append ih
  | last hvalid hends =>
    have hprints := hvalid.prints
    rwa [← append_nil (exited _).consoleOutput] at hprints
  | aborted how ctx point => exact ctx.abort_silent how point

theorem RunLoop.ne_nil {r : Option ExitReason} (h : RunLoop how ctx ts r ctx') : ts ≠ [] := by
  cases h with
  | again _ _ _ | last _ _ | aborted _ _ _ => simp

/-- A RUN that returns leaves no record to be finalized. -/
theorem RunLoop.place {reason : ExitReason}
    (h : RunLoop how ctx ts (some reason) ctx') : ctx'.state.events.pendingExitLoc = none := by
  generalize hr : some reason = r at h
  induction h with
  | again _ _ _ ih => exact ih hr
  | last hvalid hends =>
    refine leave_place hvalid.leave fun e he => ?_
    rw [he] at hends
    cases hends
    cases hr
  | aborted _ _ _ => cases hr

namespace RunIoctl

variable {ctx ctx' : VmContext} {ts : List VmStep} {r : Option ExitReason}

theorem cases_loop (h : RunIoctl ctx ts r ctx') :
    (ts = [] ∧ ctx' = ctx) ∨ ∃ r', RunLoop .ioctl ctx ts r' ctx' := by
  cases h with
  | refused => exact .inl ⟨rfl, rfl⟩
  | returned h | notCopied h => exact .inr ⟨_, h⟩

theorem place {reason : ExitReason} (h : RunIoctl ctx ts (some reason) ctx') :
    ctx'.state.events.pendingExitLoc = none := by
  cases h with
  | returned h => exact h.place

end RunIoctl

/-! ## The partial line -/

namespace Lab

def LabEvent.line : LabEvent → Option (VirtTime × List UInt8)
  | serialLine startsAt line => some (startsAt, line)
  | record _ => none

def serialLines (events : List LabEvent) : List (VirtTime × List UInt8) :=
  events.filterMap LabEvent.line

/-- The partial line after one more byte, with the tag of its record, and the line it
ends. -/
def readByte (freq : Nat) (line : PartialLine) (x : UInt8 × UInt64) :
    PartialLine × List (VirtTime × List UInt8) :=
  let startTsc := if line.bytes = [] then x.2 else line.startTsc
  if x.1 = NEWLINE then (⟨[], startTsc⟩, [(fromInstructions startTsc freq, line.bytes)])
  else (⟨line.bytes ++ [x.1], startTsc⟩, [])

def readBytes (freq : Nat) : PartialLine → List (UInt8 × UInt64) →
    PartialLine × List (VirtTime × List UInt8)
  | line, [] => (line, [])
  | line, x :: xs =>
    let (line, first) := readByte freq line x
    let (line, more) := readBytes freq line xs
    (line, first ++ more)

variable {freq : Nat}

theorem readBytes_append (line : PartialLine) (xs ys : List (UInt8 × UInt64)) :
    readBytes freq line (xs ++ ys) =
      ((readBytes freq (readBytes freq line xs).1 ys).1,
        (readBytes freq line xs).2 ++ (readBytes freq (readBytes freq line xs).1 ys).2) := by
  induction xs generalizing line with
  | nil => rfl
  | cons x xs ih =>
    rw [cons_append, readBytes, readBytes]
    dsimp only
    rw [ih, append_assoc]

/-- After these bytes the branch has this partial line, and has told the sink the lines
they end. -/
structure Reads (xs : List (UInt8 × UInt64)) (before after : PartialLine × List LabEvent)
    (freq : Nat) : Prop where
  line : after.1 = (readBytes freq before.1 xs).1
  told : ∃ told, after.2 = before.2 ++ told ∧ serialLines told = (readBytes freq before.1 xs).2

namespace Reads

variable {a b c : PartialLine × List LabEvent} {xs ys : List (UInt8 × UInt64)}

theorem refl (a : PartialLine × List LabEvent) (freq : Nat) : Reads [] a a freq :=
  ⟨rfl, [], (append_nil _).symm, rfl⟩

theorem append (hab : Reads xs a b freq) (hbc : Reads ys b c freq) : Reads (xs ++ ys) a c freq := by
  obtain ⟨told, htold, hlines⟩ := hab.told
  obtain ⟨more, hmore, hmorelines⟩ := hbc.told
  rw [hab.line] at hmorelines
  refine ⟨?_, told ++ more, ?_, ?_⟩
  · rw [readBytes_append, hbc.line, hab.line]
  · rw [hmore, htold, append_assoc]
  · rw [readBytes_append, ← hlines, ← hmorelines]
    exact filterMap_append

end Reads

theorem serialByteIntoSink_reads (tsc : UInt64) (state : PartialLine × List LabEvent)
    (byte : UInt8) : Reads [(byte, tsc)] state (serialByteIntoSink freq tsc state byte) freq := by
  unfold serialByteIntoSink
  obtain ⟨line, sink⟩ := state
  by_cases hends : byte = NEWLINE
  · simp only [hends, if_true]
    refine ⟨?_, _, rfl, ?_⟩
    · simp [readBytes, readByte]
    · simp [readBytes, readByte, serialLines, LabEvent.line]
  · simp only [hends, if_false]
    refine ⟨?_, [], (append_nil _).symm, ?_⟩
    · simp [readBytes, readByte, hends]
    · simp [readBytes, readByte, hends, serialLines]

theorem serialRecordIntoSink_reads (bytes : List UInt8) (tsc : UInt64)
    (state : PartialLine × List LabEvent) :
    Reads (bytes.map fun byte => (byte, tsc)) state (serialRecordIntoSink freq bytes tsc state)
      freq := by
  unfold serialRecordIntoSink
  induction bytes generalizing state with
  | nil => exact .refl state freq
  | cons byte bytes ih => exact (serialByteIntoSink_reads tsc state byte).append (ih _)

namespace Branch

variable {S : Type}

theorem drainRecord_reads (b : Branch S) (r : EventRecord) :
    Reads (carriedBytes [r]) (b.partialLine, b.sink)
      ((b.drainRecord r).partialLine, (b.drainRecord r).sink) b.tscFrequency := by
  by_cases hserial : r.kind = EventKind.serial.asU16
  · have hconsole : r.isConsole := beq_iff_eq.mpr hserial
    have hcarried : carriedBytes [r] = r.payload.map fun byte => (byte, r.tsc) := by
      simp [carriedBytes, hconsole]
    rw [hcarried, drainRecord, if_pos hserial]
    exact serialRecordIntoSink_reads r.payload r.tsc _
  · have hconsole : r.isConsole = false := beq_eq_false_iff_ne.mpr hserial
    have hcarried : carriedBytes [r] = [] := by
      simp [carriedBytes, hconsole]
    rw [hcarried, drainRecord, if_neg hserial]
    exact ⟨rfl, [.record r], rfl, rfl⟩

theorem carriedBytes_cons (r : EventRecord) (rs : List EventRecord) :
    carriedBytes (r :: rs) = carriedBytes [r] ++ carriedBytes rs := by
  unfold carriedBytes
  rw [← singleton_append, filter_append, flatMap_append]

theorem drainRecords_reads (b : Branch S) (rs : List EventRecord) :
    Reads (carriedBytes rs) (b.partialLine, b.sink)
      ((rs.foldl drainRecord b).partialLine, (rs.foldl drainRecord b).sink) b.tscFrequency := by
  induction rs generalizing b with
  | nil => exact .refl _ _
  | cons r rs ih =>
    have hfreq : (b.drainRecord r).tscFrequency = b.tscFrequency := by
      obtain ⟨line, recording, sink, heq⟩ := b.drainRecord_eq r
      rw [heq]
    have hrest := ih (b.drainRecord r)
    rw [hfreq] at hrest
    rw [carriedBytes_cons]
    exact (b.drainRecord_reads r).append hrest

end Branch

/-! ## Steps of a session -/

variable {S : Type} {P : VmStep → Prop}

namespace BranchStep

def printed (t : BranchStep S) : List UInt8 :=
  match t.label with
  | .run steps _ => steps.flatMap VmStep.printed
  | _ => []

def carried (t : BranchStep S) : List (UInt8 × UInt64) :=
  match t.label with
  | .run _ (some _) => carriedBytes (stream t.post.vm.state.events.buffer)
  | _ => []

/-- What the sink is told in a step; a new branch has told it nothing yet. -/
def told (t : BranchStep S) : List LabEvent :=
  t.post.sink.drop t.pre.sink.length

/-- The event buffer had room for every record of the step. -/
def NoOverflow (t : BranchStep S) : Prop :=
  t.post.vm.state.events.pending = none

/-- No line is open in the line buffer at a fork, and a RUN that fails leaves neither
output nor an unfinished exit record in the event buffer. -/
def SavesOutput (t : BranchStep S) : Prop :=
  match t.label with
  | .renew _ _ _ => t.pre.vm.state.events.serialLine = []
  | .run steps none => steps ≠ [] →
    t.post.vm.state.events.pendingExitLoc = none ∧
      carriedBytes (stream t.post.vm.state.events.buffer) = []
  | _ => True

end BranchStep

/-- The branch between two steps: its console is captured, nothing is staged or
unfinished, and no line ends in the line buffer. -/
structure Listening (freq : Nat) (b : Branch S) : Prop where
  mapped : b.eventMapped = true
  frequency : b.tscFrequency = freq
  accepts : b.vm.state.events.accepts .serial = true
  free : b.vm.state.events.pending = none
  place : b.vm.state.events.pendingExitLoc = none
  line : b.vm.state.events.LineOpen

/-- A step hands on what was printed, and the partial line follows. -/
structure Relays (t : BranchStep S) (freq : Nat) : Prop where
  listening : Listening freq t.post
  bytes : t.pre.vm.state.events.serialLine ++ t.printed =
    t.carried.map Prod.fst ++ t.post.vm.state.events.serialLine
  line : t.post.partialLine = (readBytes freq t.pre.partialLine t.carried).1
  told : serialLines t.told = (readBytes freq t.pre.partialLine t.carried).2

end Lab

namespace EventStream

theorem LineOpen.nil {es : EventStream} (h : es.serialLine = []) : es.LineOpen := by
  unfold LineOpen
  rw [h]
  exact ⟨by decide, forall_mem_nil _⟩

/-- What a RUN prints into a stream without overflow. -/
theorem Prints.relays {es es' : EventStream} {bytes : List UInt8} (h : Prints bytes es.clear es')
    (hon : es.accepts .serial) (hfree : es.pending = none)
    (hplace : es.pendingExitLoc = none) (hline : es.LineOpen) (hfree' : es'.pending = none) :
    es'.accepts .serial ∧ es'.LineOpen ∧
      es.serialLine ++ bytes = consoleText (stream es'.buffer) ++ es'.serialLine := by
  have hon' : es.clear.accepts .serial := by
    rw [accepts_clear]
    exact hon
  obtain ⟨hlegible, -⟩ := clear_legible hfree hplace hline
  refine ⟨h.accepts ▸ hon', (h.legible hon' hfree' hlegible).line, ?_⟩
  rw [← clear_shown hfree, ← h.shown hon' hfree' hlegible]
  rfl

end EventStream

namespace Lab

variable {S : Type} {P : VmStep → Prop} {freq : Nat}

theorem Captures.accepts {sourced : Bool} {config : BedrockEventConfig}
    (h : Captures sourced config) {es : EventStream} (hattached : es.attached)
    (hcategories : es.categories = config.categories) : es.accepts .serial := by
  unfold EventStream.accepts EventStream.enabled
  rw [hattached, hcategories, h.serial]
  rfl

theorem Relays.of_stream {t : BranchStep S} (hpre : Listening freq t.pre)
    (hmapped : t.post.eventMapped) (hfreq : t.post.tscFrequency = freq) {categories : UInt32}
    (hevents : t.post.vm.state.events = { t.pre.vm.state.events with categories })
    (haccepts : t.post.vm.state.events.accepts .serial) (hprinted : t.printed = [])
    (hcarried : t.carried = []) (hunfinished : t.post.partialLine = t.pre.partialLine)
    (hsink : t.post.sink = t.pre.sink) : Relays t freq := by
  refine ⟨⟨hmapped, hfreq, haccepts, ?_, ?_, ?_⟩, ?_, ?_, ?_⟩
  · rw [hevents]
    exact hpre.free
  · rw [hevents]
    exact hpre.place
  · rw [hevents]
    exact hpre.line
  · rw [hprinted, hcarried, hevents, append_nil]
    rfl
  · rw [hcarried, hunfinished]
    rfl
  · rw [hcarried, BranchStep.told, hsink, drop_length]
    rfl

variable {b : Branch S}

theorem relays_returned {exit : VmExit} {vm : VmContext}
    (hrun : RunIoctl b.vm ts (some exit.exitReason) vm) (hreports : exit.Reports vm)
    (hpre : Listening freq b) (hfree : vm.state.events.pending = none) :
    Relays ⟨b, .run ts (some exit), b.ran vm exit⟩ freq := by
  obtain ⟨line, recording, sink, hran⟩ := b.ran_eq vm exit
  have hvm : (b.ran vm exit).vm = vm := by rw [hran]
  have hprints : Prints (ts.flatMap VmStep.printed) b.vm.state.events.clear
      vm.state.events := by
    cases hrun with
    | returned hloop => exact hloop.prints
  obtain ⟨haccepts, hopen, hbytes⟩ :=
    hprints.relays hpre.accepts hpre.free hpre.place hpre.line hfree
  have hreads := Branch.drainRecords_reads
    { b with vm, currentTime := ⟨exit.emulatedTsc, b.tscFrequency⟩ }
    (EventRecord.stream vm.state.events.buffer)
  rw [← Branch.ran_of_mapped hpre.mapped hreports] at hreads
  obtain ⟨told, htold, hlines⟩ := hreads.told
  have hfreq := hpre.frequency
  subst hfreq
  have hcarried : BranchStep.carried ⟨b, .run ts (some exit), b.ran vm exit⟩ =
      carriedBytes (EventRecord.stream vm.state.events.buffer) := by
    unfold BranchStep.carried
    dsimp only
    rw [hvm]
  refine ⟨⟨?_, ?_, ?_, ?_, ?_, ?_⟩, ?_, ?_, ?_⟩
  · dsimp only
    rw [hran]
    exact hpre.mapped
  · dsimp only
    rw [hran]
  · dsimp only
    rw [hvm]
    exact haccepts
  · dsimp only
    rw [hvm]
    exact hfree
  · dsimp only
    rw [hvm]
    exact hrun.place
  · dsimp only
    rw [hvm]
    exact hopen
  · dsimp only
    rw [hcarried, hvm]
    exact hbytes
  · rw [hcarried]
    exact hreads.line
  · rw [hcarried]
    unfold BranchStep.told
    dsimp only at htold ⊢
    rw [htold, drop_left]
    exact hlines

/-- Every step relays the output, as long as it saves it. -/
theorem BranchStep.Valid.relays {t : BranchStep S} (h : t.Valid P) (hpre : Listening freq t.pre)
    (hroom : t.NoOverflow) (hsaves : t.SavesOutput) : Relays t freq := by
  cases h with
  | @ioctl b call hcall =>
    have hattached : b.vm.state.events.attached := (Bool.and_eq_true_iff.mp hpre.accepts).1
    obtain ⟨categories, hcategories, hevents⟩ := hcall.events hattached
    refine .of_stream hpre hpre.mapped hpre.frequency hevents ?_ rfl rfl rfl rfl
    dsimp only
    rw [hevents]
    rcases hcategories with rfl | ⟨config, hcaptures, rfl⟩
    · exact hpre.accepts
    · exact hcaptures.accepts hattached rfl
  | @returned b ts exit vm hrun hreports hsteps =>
    have hfree : vm.state.events.pending = none := by
      obtain ⟨line, recording, sink, hran⟩ := b.ran_eq vm exit
      unfold NoOverflow at hroom
      rwa [hran] at hroom
    exact relays_returned hrun hreports hpre hfree
  | @failed b ts vm hrun hsteps =>
    rcases hrun.cases_loop with ⟨rfl, rfl⟩ | ⟨r, hloop⟩
    · exact .of_stream hpre hpre.mapped hpre.frequency rfl hpre.accepts rfl rfl rfl rfl
    obtain ⟨hplace, hnone⟩ := hsaves hloop.ne_nil
    obtain ⟨haccepts, hopen, hbytes⟩ :=
      hloop.prints.relays hpre.accepts hpre.free hpre.place hpre.line hroom
    refine ⟨⟨hpre.mapped, hpre.frequency, haccepts, hroom, hplace, hopen⟩, ?_, rfl, ?_⟩
    · rw [consoleText, hnone] at hbytes
      exact hbytes
    · rw [told, drop_length]
      rfl
  | @map b vm hmemory =>
    have hevents : vm.state.events = b.vm.state.events := by rw [hmemory]
    refine .of_stream hpre hpre.mapped hpre.frequency hevents ?_ rfl rfl rfl rfl
    dsimp only
    rw [hevents]
    exact hpre.accepts
  | @note b b' hnoted =>
    have hevents : b'.vm.state.events = b.vm.state.events := by rw [hnoted.vm]
    refine .of_stream hpre (hnoted.eventMapped hpre.mapped)
      (hnoted.tscFrequency.trans hpre.frequency) hevents ?_ rfl rfl hnoted.partialLine hnoted.sink
    dsimp only
    rw [hevents]
    exact hpre.accepts
  | @renew b b' id source force host hsource hbranch =>
    obtain ⟨config, hcaptures, hevents⟩ := Checkpoint.branchInner_opened hbranch
    have hfresh := Checkpoint.branchInner_spec hbranch
    obtain ⟨vm, config', -, -, -, rfl⟩ := hfresh
    have hline : b.vm.state.events.serialLine = [] := hsaves
    have htold : ([] : List LabEvent).drop b.sink.length = [] := drop_nil
    refine ⟨⟨rfl, hpre.frequency, ?_, ?_, ?_, .nil ?_⟩, ?_, rfl, congrArg serialLines htold⟩
    · rw [hevents]
      exact hcaptures.accepts rfl rfl
    · rw [hevents]
      rfl
    · rw [hevents]
      rfl
    · rw [hevents]
      rfl
    · rw [hevents, hline]
      rfl

/-! ## Lines along a path -/

/-- The bytes in the line buffers of the VMs along a path. -/
def consoleLedger (S : Type) : Ledger (Branch S) (BranchStep S) UInt8 where
  pre t := t.pre
  post t := t.post
  held b := b.vm.state.events.serialLine
  taken t := t.printed
  handed t := t.carried.map Prod.fst

namespace Session

variable {b b' : Branch S} {ts : List (BranchStep S)}

theorem relays (h : Session P b ts b') (hb : Listening freq b) (hroom : ∀ t ∈ ts, t.NoOverflow)
    (hsaves : ∀ t ∈ ts, t.SavesOutput) : (∀ t ∈ ts, Relays t freq) ∧ Listening freq b' := by
  obtain ⟨hall, hend⟩ := h.walk.invariant (I := Listening freq)
    (fun t ht hpre => ((h.valid t ht).relays hpre (hroom t ht) (hsaves t ht)).listening) hb
  exact ⟨fun t ht => (h.valid t ht).relays (hall t ht).1 (hroom t ht) (hsaves t ht), hend⟩

theorem printed_eq (h : Session P b ts b') (hrelays : ∀ t ∈ ts, Relays t freq) :
    b.vm.state.events.serialLine ++ ts.flatMap BranchStep.printed =
      (ts.flatMap BranchStep.carried).map Prod.fst ++ b'.vm.state.events.serialLine := by
  have hpath : (consoleLedger S).Path b ts b' := h.ledgerPath (fun _ => rfl) fun _ => rfl
  have hbalanced := hpath.balanced fun t ht => (hrelays t ht).bytes
  rw [map_flatMap]
  exact hbalanced

end Session

theorem reads_of_relays {b b' : Branch S} {ts : List (BranchStep S)} (hwalk : Walk b ts b')
    (hrelays : ∀ t ∈ ts, Relays t freq) :
    serialLines (ts.flatMap BranchStep.told) =
      (readBytes freq b.partialLine (ts.flatMap BranchStep.carried)).2 := by
  induction ts generalizing b with
  | nil => rfl
  | cons t ts ih =>
    obtain ⟨rfl, hrest⟩ := hwalk
    obtain ⟨hfirst, hlater⟩ := forall_mem_cons.mp hrelays
    rw [flatMap_cons, flatMap_cons, readBytes_append, ← hfirst.line, ← hfirst.told,
      ← ih hrest hlater]
    exact filterMap_append

/-- A line as the sink is told of it: the time of its first byte, and its text without
the newline. -/
def stamped (freq : Nat) (line : List (UInt8 × UInt64)) : VirtTime × List UInt8 :=
  (fromInstructions ((line.head?.map Prod.snd).getD 0) freq, (line.map Prod.fst).dropLast)

/-- The partial line holds this rest of a stream. -/
structure PartialLine.Shows (line : PartialLine) (rest : List (UInt8 × UInt64)) : Prop where
  bytes : line.bytes = rest.map Prod.fst
  start : ∀ x more, rest = x :: more → line.startTsc = x.2

/-- One more byte extends the rest or ends a line. -/
theorem PartialLine.Shows.readByte (freq : Nat) {line : PartialLine}
    {stream rest : List (UInt8 × UInt64)} {lines : List (List (UInt8 × UInt64))}
    (hshows : line.Shows rest)
    (hsplits : Splits (fun x : UInt8 × UInt64 => x.1 = NEWLINE) stream lines rest)
    (x : UInt8 × UInt64) : ∃ more rest',
      Splits (fun x : UInt8 × UInt64 => x.1 = NEWLINE) (stream ++ [x]) (lines ++ more) rest' ∧
      (Lab.readByte freq line x).1.Shows rest' ∧
      (Lab.readByte freq line x).2 = more.map (stamped freq) := by
  have hempty : line.bytes = [] ↔ rest = [] := by rw [hshows.bytes, map_eq_nil_iff]
  have hhead : ((rest ++ [x]).head?.map Prod.snd).getD 0 =
      if line.bytes = [] then x.2 else line.startTsc := by
    cases rest with
    | nil => rw [if_pos (hempty.mpr rfl)]; rfl
    | cons y more =>
      rw [if_neg (by simp [hempty]), hshows.start y more rfl]
      rfl
  unfold Lab.readByte
  dsimp only
  by_cases hends : x.1 = NEWLINE
  · rw [if_pos hends]
    refine ⟨[rest ++ [x]], [], hsplits.close hends, ⟨rfl, nofun⟩, ?_⟩
    rw [map_singleton, stamped, hhead, map_append, map_singleton, dropLast_concat, hshows.bytes]
  rw [if_neg hends]
  refine ⟨[], rest ++ [x], ?_, ⟨?_, fun y more hy => ?_⟩, rfl⟩
  · rw [append_nil]
    exact hsplits.append (forall_mem_singleton.mpr hends)
  · rw [map_append, hshows.bytes]
    rfl
  · rw [← hhead, hy]
    rfl

/-- The lines that are read are the lines of the stream. -/
theorem PartialLine.Shows.readBytes (freq : Nat) {line : PartialLine}
    {stream rest : List (UInt8 × UInt64)} {lines : List (List (UInt8 × UInt64))}
    (hshows : line.Shows rest)
    (hsplits : Splits (fun x : UInt8 × UInt64 => x.1 = NEWLINE) stream lines rest)
    (xs : List (UInt8 × UInt64)) : ∃ more rest',
      Splits (fun x : UInt8 × UInt64 => x.1 = NEWLINE) (stream ++ xs) (lines ++ more) rest' ∧
      (Lab.readBytes freq line xs).2 = more.map (stamped freq) := by
  induction xs generalizing line stream lines rest with
  | nil => exact ⟨[], rest, by simpa using hsplits, rfl⟩
  | cons x xs ih =>
    obtain ⟨first, rest₁, hsplits₁, hshows₁, hfirst⟩ := hshows.readByte freq hsplits x
    obtain ⟨more, rest', hsplits', hmore⟩ := ih hshows₁ hsplits₁
    refine ⟨first ++ more, rest', ?_, ?_⟩
    · rw [append_assoc, append_assoc] at hsplits'
      exact hsplits'
    rw [Lab.readBytes]
    dsimp only
    rw [hfirst, hmore, map_append]

/-- The stream of the VM was just opened with the console among its categories, and no
line is begun. -/
structure Branch.Opened (b : Branch S) : Prop where
  mapped : b.eventMapped = true
  stream : b.vm.state.events = .opened b.vm.state.events.categories
  console : b.vm.state.events.enabled .serial = true
  line : b.partialLine.bytes = []

theorem Branch.Opened.listening (h : b.Opened) : Listening b.tscFrequency b := by
  have hattached : b.vm.state.events.attached := by
    rw [h.stream]
    rfl
  refine ⟨h.mapped, rfl, Bool.and_eq_true_iff.mpr ⟨hattached, h.console⟩, ?_, ?_, .nil ?_⟩
  all_goals
    rw [h.stream]
    rfl

/-- Along a path without overflow that saves its output, the sink is told exactly the
lines that were printed, each with the time of the record that carried its first byte. -/
theorem serial_lines {b b' : Branch S} {ts : List (BranchStep S)} (hopened : b.Opened)
    (hsession : Session P b ts b') (hroom : ∀ t ∈ ts, t.NoOverflow)
    (hsaves : ∀ t ∈ ts, t.SavesOutput) :
    ∃ lines rest,
      Splits (fun x : UInt8 × UInt64 => x.1 = NEWLINE) (ts.flatMap BranchStep.carried) lines rest ∧
      Splits (· = NEWLINE) (ts.flatMap BranchStep.printed) (lines.map (List.map Prod.fst))
        (rest.map Prod.fst ++ b'.vm.state.events.serialLine) ∧
      serialLines (ts.flatMap BranchStep.told) = lines.map (stamped b.tscFrequency) := by
  obtain ⟨hrelays, hend⟩ := hsession.relays hopened.listening hroom hsaves
  have hprinted := hsession.printed_eq hrelays
  have hbegin : b.vm.state.events.serialLine = [] := by
    rw [hopened.stream]
    rfl
  rw [hbegin, List.nil_append] at hprinted
  have hshows : b.partialLine.Shows [] := ⟨hopened.line, nofun⟩
  obtain ⟨lines, rest, hsplits, hlines⟩ := hshows.readBytes b.tscFrequency (.nil _)
    (ts.flatMap BranchStep.carried)
  refine ⟨lines, rest, hsplits, ?_, (reads_of_relays hsession.walk hrelays).trans hlines⟩
  rw [hprinted]
  exact (hsplits.map (f := Prod.fst) fun _ => Iff.rfl).append hend.line.2

/-! ## Executable paths -/

namespace BranchStep

def simulate (b : Branch S) (guest : VmContext → VmContext) : BranchStep S :=
  let it := Iteration.simulate .ioctl b.vm guest
  let exit : VmExit :=
    { exitReason := it.result.report.getD .needResched
      eventLen := it.done.state.events.len
      emulatedTsc := it.done.state.clock.emulatedTsc }
  ⟨b, .run [it.step] (some exit), b.ran it.done exit⟩

theorem simulate_valid {guest : VmContext → VmContext} (henter : (b.vm.enter .ioctl).1.isOk)
    (hran : Ran (b.vm.enter .ioctl).2 (guest (b.vm.enter .ioctl).2))
    (hreport : (Iteration.simulate .ioctl b.vm guest).result.report.isSome)
    (hstep : P (Iteration.simulate .ioctl b.vm guest).step) : (simulate b guest).Valid P := by
  obtain ⟨reason, hreason⟩ := isSome_iff_exists.mp hreport
  have hends := (Iteration.simulate .ioctl b.vm guest).result.ends_report
  refine .returned (.returned (.last (Iteration.simulate_valid henter hran) ?_)) ⟨rfl, rfl⟩
    (forall_mem_singleton.mpr hstep)
  rw [hreason] at hends ⊢
  exact hends

def fork (b : Branch S) : BranchStep S where
  pre := b
  label := .renew b.inputSource false { fork := bareFork }
  post :=
    match b.freeze.branchInner 0 b.inputSource false { fork := bareFork } with
    | .ok b' => b'
    | .error _ => b

theorem fork_valid (h : (b.freeze.branchInner 0 b.inputSource false { fork := bareFork }).isOk) :
    (fork b).Valid P := by
  unfold fork
  cases hbranch : b.freeze.branchInner 0 b.inputSource false { fork := bareFork } with
  | ok b' => exact .renew (.inl ⟨rfl, rfl⟩) hbranch
  | error e =>
    rw [hbranch] at h
    cases h

end BranchStep

def sends (byte : UInt64) (ctx : VmContext) : VmContext :=
  ctx.exitWith 1 (fun | .vmExitReason => 30 | .exitQualification => 0x3F80000 | _ => 0) byte 0

def bootBranch : Branch RecordedInputSource where
  vm := (newVm.handleSetEventConfig ⟨1, EventKind.serial.category, 0, 1, 0, 0⟩ true true).2
  currentTime := ⟨0, 1000⟩
  tscFrequency := 1000
  inputSource := none
  pendingInputIo := none
  inputIoExhausted := false
  origin := 0
  eventMapped := true

theorem bootBranch_opened : bootBranch.Opened :=
  ⟨rfl, handleSetEventConfig_opened rfl rfl rfl, by decide +kernel, rfl⟩

theorem sends_valid {byte : UInt64} (henter : (b.vm.enter .ioctl).1.isOk)
    (hreport : (Iteration.simulate .ioctl b.vm (sends byte)).result.report.isSome) :
    (BranchStep.simulate b (sends byte)).Valid fun _ => True :=
  BranchStep.simulate_valid henter (ran_exitWith _ _ _ _ _) hreport trivial

/-- The guest prints an `a`. -/
def letterStep : BranchStep RecordedInputSource :=
  BranchStep.simulate bootBranch (sends 97)

example : letterStep.post.vm.state.events.serialLine = [97] := by
  decide +kernel

theorem letterStep_valid : letterStep.Valid fun _ => True :=
  sends_valid (by decide +kernel) (by decide +kernel)

/-- A line that ends on the branch it began on. -/
theorem serial_lines_one :
    let ts := [letterStep, BranchStep.simulate letterStep.post (sends 10)]
    serialLines (ts.flatMap BranchStep.told) = [(⟨1, 1000⟩, [97])] ∧
      ∃ lines rest, Splits (· = NEWLINE) (ts.flatMap BranchStep.printed) lines rest ∧
        (serialLines (ts.flatMap BranchStep.told)).length = lines.length := by
  intro ts
  have hsession : Session (fun _ => True) bootBranch ts
      (BranchStep.simulate letterStep.post (sends 10)).post :=
    ⟨⟨rfl, rfl, rfl⟩, List.forall_mem_cons.mpr ⟨letterStep_valid, List.forall_mem_singleton.mpr
      (sends_valid (by decide +kernel) (by decide +kernel))⟩⟩
  obtain ⟨lines, rest, -, hsplits, htold⟩ := serial_lines bootBranch_opened hsession
    (by unfold BranchStep.NoOverflow; decide +kernel) fun t ht => by
      rcases List.mem_cons.mp ht with rfl | ht
      · trivial
      · obtain rfl := List.mem_singleton.mp ht
        trivial
  refine ⟨by decide +kernel, _, _, hsplits, ?_⟩
  rw [htold, List.length_map, List.length_map]

/-- A checkpoint between the two letters of a line: the first one is lost. -/
theorem fork_cuts_line :
    let forked := BranchStep.fork letterStep.post
    let letter := BranchStep.simulate forked.post (sends 98)
    let newline := BranchStep.simulate letter.post (sends 10)
    let ts := [letterStep, forked, letter, newline]
    bootBranch.Opened ∧ Session (fun _ => True) bootBranch ts newline.post ∧
      (∀ t ∈ ts, t.NoOverflow) ∧ ts.flatMap BranchStep.printed = [97, 98, 10] ∧
      serialLines (ts.flatMap BranchStep.told) = [(⟨2, 1000⟩, [98])] := by
  intro forked letter newline ts
  refine ⟨bootBranch_opened, ⟨⟨rfl, rfl, rfl, rfl, rfl⟩, fun t ht => ?_⟩, ?_, by decide +kernel,
    by decide +kernel⟩
  · simp only [ts, List.mem_cons, List.not_mem_nil, or_false] at ht
    rcases ht with rfl | rfl | rfl | rfl
    · exact letterStep_valid
    · exact BranchStep.fork_valid (by decide +kernel)
    all_goals exact sends_valid (by decide +kernel) (by decide +kernel)
  · unfold BranchStep.NoOverflow
    decide +kernel

end Lab

end Bedrock
