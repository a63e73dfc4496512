import Bedrock.Finalize
import Bedrock.Frame

/-!
# What an exit captures

An exit is captured at the end of its handling, and by two hypercalls before that.  Every
other access of a handler leaves the capture configuration alone and emits no exit
record.
-/

namespace Bedrock

open Support EventStream Program List EventKind EventRecord

/-- The two deferred fields of an exit record have these values. -/
def EventRecord.Carries (r : EventRecord) (memoryHash : UInt64) (cowPageCount : UInt32) : Prop :=
  (r.payload.drop MEMORY_HASH_OFFSET).take 8 = leBytes 8 memoryHash.toNat ∧
    (r.payload.drop COW_PAGE_COUNT_OFFSET).take 4 = leBytes 4 cowPageCount.toNat

variable {deterministic : Bool}

namespace EventStream

/-- From `es` to `es'` only events other than exit records were emitted. -/
structure Grows (es es' : EventStream) : Prop where
  accepts : es'.accepts = es.accepts
  loc : es'.pendingExitLoc = es.pendingExitLoc
  records : ∀ rs, es.Holds rs →
    ∃ more, es'.Holds (rs ++ more) ∧ ∀ r ∈ more, r.kind ≠ exit.asU16
  free : es'.pending = none → es.pending = none

variable (es : EventStream)

namespace Grows

theorem refl : es.Grows es :=
  ⟨rfl, rfl, fun rs h => ⟨[], by rwa [append_nil], nofun⟩, id⟩

theorem trans {a b c : EventStream} (hab : a.Grows b) (hbc : b.Grows c) : a.Grows c := by
  refine ⟨hbc.accepts.trans hab.accepts, hbc.loc.trans hab.loc, fun rs hrs => ?_,
    fun h => hab.free (hbc.free h)⟩
  obtain ⟨more, hmore, hkind⟩ := hab.records rs hrs
  obtain ⟨more', hmore', hkind'⟩ := hbc.records _ hmore
  refine ⟨more ++ more', by rwa [← append_assoc], fun r hr => ?_⟩
  rcases mem_append.mp hr with hr | hr
  · exact hkind r hr
  · exact hkind' r hr

/-- The accumulated serial line is not part of the stream. -/
theorem serialLine (line : List UInt8) (tsc realTsc : UInt64) :
    es.Grows { es with
      serialLine := line, serialLineTsc := tsc, serialLineRealTsc := realTsc } :=
  ⟨rfl, rfl, fun rs h => ⟨[], by rw [append_nil]; exact h, nofun⟩, id⟩

theorem emit {e : Event} (hkind : e.kind ≠ .exit) : es.Grows (es.emit e) := by
  refine ⟨accepts_emit es e, emit_pendingExitLoc es e, fun rs hrs => ?_, fun h => ?_⟩
  · obtain ⟨more, hmore, hmorekind⟩ := hrs.emit e
    refine ⟨more, hmore, fun r hr => ?_⟩
    rw [hmorekind r hr]
    exact fun heq => hkind (asU16_injective heq)
  · rw [← staged_eq_none_iff] at h ⊢
    rcases es.staged_emit e with hsame | ⟨-, -, hnone, -⟩
    · exact hsame.symm.trans h
    · exact hnone

end Grows

/-- A preorder on streams that the line buffer and the events that carry it respect. -/
structure LineFrame (R : EventStream → EventStream → Prop) : Prop where
  refl : ∀ es, R es es
  trans : ∀ {a b c}, R a b → R b c → R a c
  line : ∀ es line tsc realTsc, R es { es with
    serialLine := line, serialLineTsc := tsc, serialLineRealTsc := realTsc }
  carry : ∀ es e, e.kind = .serial → R es (es.emit e)

namespace LineFrame

variable {R : EventStream → EventStream → Prop} (hR : LineFrame R)
include hR

theorem flushSerialLine : R es es.flushSerialLine.2 := by
  unfold EventStream.flushSerialLine
  split_ifs
  · exact hR.refl es
  exact hR.trans (hR.line es [] es.serialLineTsc es.serialLineRealTsc)
    (hR.carry _ ⟨.serial, serial.defaultFlags, es.serialLineTsc,
      es.serialLineRealTsc, es.serialLine⟩ rfl)

theorem serialByte (byte : UInt8) (tsc realTsc : UInt64) :
    R es (es.serialByte byte tsc realTsc).2 := by
  have hstamp : R es (if es.serialLine = [] then
      { es with serialLineTsc := tsc, serialLineRealTsc := realTsc } else es) := by
    split_ifs
    · exact hR.line es _ _ _
    · exact hR.refl es
  have hpush : ∀ es' : EventStream,
      R es' (if es'.serialLine.length < SERIAL_LINE_ACC_SIZE then
        { es' with serialLine := es'.serialLine ++ [byte] } else es') := by
    intro es'
    split_ifs
    · exact hR.line es' _ _ _
    · exact hR.refl es'
  have hline : ∀ es' : EventStream, R es es' → R es
      (if byte = 10 ∨ es'.serialLine.length = SERIAL_LINE_ACC_SIZE then es'.flushSerialLine
        else (true, es')).2 := by
    intro es' h
    split_ifs
    · exact hR.trans h (hR.flushSerialLine es')
    · exact h
  unfold EventStream.serialByte
  split
  · exact hR.refl es
  · exact hline _ (hR.trans hstamp (hpush _))

end LineFrame

theorem Grows.lineFrame : LineFrame Grows where
  refl := .refl
  trans := .trans
  line := .serialLine
  carry es _ hkind := .emit es (hkind ▸ by decide)

theorem Grows.flushSerialLine : es.Grows es.flushSerialLine.2 :=
  Grows.lineFrame.flushSerialLine es

theorem Grows.serialByte (byte : UInt8) (tsc realTsc : UInt64) :
    es.Grows (es.serialByte byte tsc realTsc).2 :=
  Grows.lineFrame.serialByte es byte tsc realTsc

/-! ## One captured record -/

variable {es es₁ es₂ : EventStream} {memoryHash : UInt64} {cowPageCount : UInt32}

theorem patchExit_carries (r : EventRecord) (bytes : Nat → UInt8) (base : Nat) :
    (r.withPayload (window (patchExit bytes base memoryHash cowPageCount) base
      EXIT_RECORD_SIZE)).Carries memoryHash cowPageCount := by
  unfold Carries withPayload patchExit
  constructor
  · rw [window_drop_take _ _ (by decide)]
    have hlen := leBytes_length 8 memoryHash.toNat
    have hbefore : base + MEMORY_HASH_OFFSET + 8 ≤ base + COW_PAGE_COUNT_OFFSET := by
      unfold MEMORY_HASH_OFFSET COW_PAGE_COUNT_OFFSET
      omega
    rw [window_splice_of_le _ _ hbefore]
    have hread := window_splice bytes (base + MEMORY_HASH_OFFSET) (leBytes 8 memoryHash.toNat)
    rwa [hlen] at hread
  · rw [window_drop_take _ _ (by decide)]
    have hlen := leBytes_length 4 cowPageCount.toNat
    have hread := window_splice
      (splice bytes (base + MEMORY_HASH_OFFSET) (leBytes 8 memoryHash.toNat))
      (base + COW_PAGE_COUNT_OFFSET) (leBytes 4 cowPageCount.toNat)
    rwa [hlen] at hread

theorem fits_of_free {e : Event} (haccepts : es.accepts e.kind)
    (hfree : (es.emit e).pending = none) : es.fits e.payload.length := by
  by_contra hfull
  rw [Bool.not_eq_true] at hfull
  by_cases hslot : es.pending = none
  · have hstaged := (emit_of_full haccepts hfull hslot).2.2.1
    rw [(staged_eq_none_iff _).mpr hfree] at hstaged
    cases hstaged
  · rw [emit_of_taken hfull hslot] at hfree
    exact hslot hfree

theorem emitExit_of_free {rs : List EventRecord} (hrs : es.Holds rs)
    (haccepts : es.accepts .exit) {tsc realTsc : UInt64} {payload : List UInt8}
    (hfree : (es.emitExit deterministic tsc realTsc payload).pending = none) :
    (es.emitExit deterministic tsc realTsc payload).Holds
        (rs ++ [(captureEvent deterministic tsc realTsc payload).record es.seq]) ∧
      (es.emitExit deterministic tsc realTsc payload).pendingExitLoc =
        some (.buffer ((rs.flatMap encode).length + EVENT_HEADER_SIZE)) ∧
      (es.emitExit deterministic tsc realTsc payload).attached := by
  let e := captureEvent deterministic tsc realTsc payload
  rw [emitExit_of_accepts haccepts] at hfree ⊢
  have hfits : es.fits payload.length := fits_of_free (e := e) haccepts hfree
  have hbase : es.len = (rs.flatMap encode).length := by
    rw [← es.buffer_length, hrs]
  refine ⟨hrs.emit_of_fits (e := e) haccepts hfits, ?_,
    (emit_attached es e).trans (Bool.and_eq_true_iff.mp haccepts).1⟩
  rw [if_pos hfits, hbase]

theorem capture_finalized {rs : List EventRecord} (hrs : es.Holds rs) (hgrows : es.Grows es₁)
    (haccepts : es₁.accepts .exit) {tsc realTsc : UInt64}
    {payload : List UInt8} (hlen : payload.length = EXIT_RECORD_SIZE)
    (hafter : (es₁.emitExit deterministic tsc realTsc payload).Grows es₂)
    (hfree : es₂.pending = none) :
    ∃ more, (es₂.finalizeExit memoryHash cowPageCount).Holds (rs ++ more) ∧
      ∀ r ∈ more, r.kind = exit.asU16 → r.Carries memoryHash cowPageCount := by
  obtain ⟨before, hbefore, hbeforekind⟩ := hgrows.records rs hrs
  obtain ⟨hholds, hloc, hattached⟩ := emitExit_of_free hbefore haccepts (hafter.free hfree)
  obtain ⟨after, hholds₂, hafterkind⟩ := hafter.records _ hholds
  have hattached₂ : es₂.attached := by
    have haccepts₂ : es₂.accepts .exit := by
      rw [hafter.accepts, emitExit_of_accepts haccepts]
      exact (congrFun (accepts_emit es₁ _) .exit).trans haccepts
    exact (Bool.and_eq_true_iff.mp haccepts₂).1
  rw [append_assoc, singleton_append] at hholds₂
  -- the only exit record among the new ones is the one that is patched
  rcases es₂.finalizeExit_cases memoryHash cowPageCount with
    ⟨hnone, -⟩ | ⟨base, -, hdetached, -⟩ | ⟨base, hbase, -, heq⟩ | ⟨hpending, -⟩
  · rw [hafter.loc, hloc] at hnone
    cases hnone
  · rw [hattached₂] at hdetached
    cases hdetached
  · rw [hafter.loc, hloc] at hbase
    have hplace := (ExitLoc.buffer.inj (Option.some.inj hbase)).symm
    let record := ((captureEvent deterministic tsc realTsc payload).record es₁.seq).withPayload
      (window (patchExit es₂.bytes base memoryHash cowPageCount) base EXIT_RECORD_SIZE)
    have hpatched : window (patchExit es₂.bytes base memoryHash cowPageCount) 0 es₂.len =
        (rs ++ before ++ record :: after).flatMap encode :=
      hholds₂.patch hlen hplace fun i hi =>
        patchExit_of_not_deferred _ _ _ fun hfield => hi hfield.inside
    refine ⟨before ++ record :: after, ?_, fun r hr hkind => ?_⟩
    · rw [heq, ← append_assoc]
      exact hpatched
    rcases mem_append.mp hr with hr | hr
    · exact absurd hkind (hbeforekind r hr)
    rcases mem_cons.mp hr with rfl | hr
    · exact patchExit_carries _ _ _
    · exact absurd hkind (hafterkind r hr)
  · rw [hafter.loc, hloc] at hpending
    cases hpending

end EventStream

/-! ## Handlers that capture nothing -/

/-- From `before` to `after` no exit record was captured. -/
structure Quiet (before after : VmContext) : Prop where
  capture : after.state.capture = before.state.capture
  events : before.state.events.Grows after.state.events

variable (ctx : VmContext)

namespace Quiet

theorem refl : Quiet ctx ctx :=
  ⟨rfl, .refl _⟩

theorem trans {a b c : VmContext} (hab : Quiet a b) (hbc : Quiet b c) : Quiet a c :=
  ⟨hbc.capture.trans hab.capture, hab.events.trans hbc.events⟩

theorem of_same {before after : VmContext} (hcapture : after.state.capture = before.state.capture)
    (hevents : after.state.events = before.state.events) : Quiet before after :=
  ⟨hcapture, hevents ▸ .refl _⟩

end Quiet

theorem MemoryOnly.quiet {before after : VmContext} (h : MemoryOnly before after) :
    Quiet before after := by
  obtain ⟨_, _, _, rfl⟩ := h
  exact .of_same rfl rfl

namespace VmContext

theorem emitEvent_quiet {kind : EventKind} (hkind : kind ≠ .exit) (flags : UInt16)
    (payload : List UInt8) : Quiet ctx (ctx.emitEvent kind flags payload) := by
  rw [emitEvent]
  split
  · exact .refl ctx
  · exact ⟨rfl, .emit _ (e := ⟨kind, flags, _, _, payload⟩) hkind⟩

theorem eventSerialByte_quiet (byte : UInt8) : Quiet ctx (ctx.eventSerialByte byte) := by
  rw [eventSerialByte]
  split
  · exact .refl ctx
  · split
    all_goals exact ⟨rfl, .serialByte _ _ _ _⟩

theorem setInterruptWindowExiting_quiet (on : Bool) :
    Quiet ctx (ctx.setInterruptWindowExiting on).2 := by
  rw [setInterruptWindowExiting]
  split
  · exact .refl ctx
  split
  · exact .refl ctx
  dsimp only
  have hwrite : ∀ v r, ctx.writeControl .primaryProcBasedVmExecControls v = r →
      Quiet ctx r.2 := by
    rintro v r rfl
    exact .of_same rfl rfl
  split
  all_goals
    rename_i heq
    exact hwrite _ _ heq

theorem installPebsPage_quiet (g : Nat) : Quiet ctx (ctx.installPebsPage g).2 := by
  rw [installPebsPage]
  dsimp only
  split
  · exact .refl ctx
  split
  · exact .of_same rfl rfl
  split
  · exact .of_same rfl rfl
  · split
    all_goals exact .of_same rfl rfl

theorem handlePebsPreciseExit_quiet : Quiet ctx ctx.handlePebsPreciseExit := by
  rw [handlePebsPreciseExit]
  dsimp only
  split
  · exact .refl ctx
  · exact .of_same rfl rfl

theorem armForNextIteration_quiet : Quiet ctx ctx.armForNextIteration := by
  rw [armForNextIteration]
  split
  · exact .refl ctx
  · exact .of_same rfl rfl

theorem updateMtfState_quiet : Quiet ctx ctx.updateMtfState.2 := by
  obtain ⟨_, _, h⟩ := ctx.updateMtfState_eq
  rw [h]
  exact .of_same rfl rfl

end VmContext

theorem Emission.run_quiet (e : Emission) : Quiet ctx (e.run ctx) := by
  have hio : EventKind.ioChannel ≠ .exit := by decide
  cases e with
  | append kind payload hkind => exact ctx.emitEvent_quiet hkind _ _
  | serialByte byte => exact ctx.eventSerialByte_quiet byte
  | flushSerialLine => exact ⟨rfl, .flushSerialLine _⟩
  | ioChannel phase targetTsc =>
    cases phase
    all_goals exact ctx.emitEvent_quiet hio _ _

variable {α : Type} {f : VmContext → α × VmContext}

theorem GuestAction.quiet (h : GuestAction α f) (ctx : VmContext) : Quiet ctx (f ctx).2 := by
  cases h with
  | interruptWindow on => exact ctx.setInterruptWindowExiting_quiet on
  | emit e => exact e.run_quiet ctx
  | _ => exact .of_same rfl rfl

theorem HandlerAction.quiet (h : HandlerAction α f) (ctx : VmContext) : Quiet ctx (f ctx).2 := by
  cases h with
  | guest h => exact h.quiet ctx
  | cowFault gpa => exact (ctx.handleCowFault_memory gpa).quiet
  | preCow => exact ctx.preCowIoChannelPage_memory.quiet
  | installPebs gpaPage => exact ctx.installPebsPage_quiet gpaPage

theorem DispatchAction.quiet (h : DispatchAction α f) (ctx : VmContext) : Quiet ctx (f ctx).2 := by
  cases h with
  | handler h => exact h.quiet ctx
  | pebsExit => exact ctx.handlePebsPreciseExit_quiet
  | preemptionTimer => exact .of_same rfl rfl

theorem EntryAction.quiet (h : EntryAction α f) (ctx : VmContext) : Quiet ctx (f ctx).2 := by
  cases h with
  | guest h => exact h.quiet ctx
  | lastExitDeterministic => exact .refl ctx
  | arm => exact ctx.armForNextIteration_quiet

/-- The accesses that capture nothing. -/
inductive QuietAction : ActionClass
  | dispatch {α : Type} {f : VmContext → α × VmContext} (h : DispatchAction α f) : QuietAction α f
  | consume : QuietAction _ fun ctx => ((), ctx.consumeIoRequest)

instance (priority := low) {ε α : Type} {m : Program ε VmContext α}
    [h : Built DispatchAction m] : Built QuietAction m :=
  h.mono fun _ hf => .dispatch hf

instance {ε : Type} : Built QuietAction (consumeIoRequest : Program ε VmContext Unit) :=
  .act .consume

instance : Built QuietAction vmcallIoGetRequest := by
  unfold vmcallIoGetRequest
  infer_instance

theorem QuietAction.quiet (h : QuietAction α f) (ctx : VmContext) : Quiet ctx (f ctx).2 := by
  cases h with
  | dispatch h => exact h.quiet ctx
  | consume => exact .of_same rfl rfl

theorem Quiet.of_built {ε : Type} {m : Program ε VmContext α} (h : Built QuietAction m)
    (ctx : VmContext) : Quiet ctx (m ctx).2 :=
  h.rel Quiet.refl Quiet.trans (fun _ hf => hf.quiet) ctx

theorem injectPendingInterrupt_quiet : Quiet ctx (injectPendingInterrupt ctx).2 :=
  Built.rel (A := EntryAction) Quiet.refl Quiet.trans (fun _ h => h.quiet) inferInstance ctx

/-! ## Captures -/

/-- From `before` to `after` at most one exit record was captured, between other events. -/
structure Recording (before after : VmContext) : Prop where
  trigger : after.state.capture.exitTrigger = before.state.capture.exitTrigger
  skip : after.state.capture.skipMemoryHash = before.state.capture.skipMemoryHash
  events : before.state.events.Grows after.state.events ∨
    (before.state.capture.exitTrigger ≠ .disabled ∧ before.state.events.accepts .exit = true ∧
      ∃ es deterministic tsc realTsc payload, before.state.events.Grows es ∧
        payload.length = EXIT_RECORD_SIZE ∧
        (es.emitExit deterministic tsc realTsc payload).Grows after.state.events)

theorem Quiet.recording {before after : VmContext} (h : Quiet before after) :
    Recording before after :=
  ⟨congrArg _ h.capture, congrArg _ h.capture, .inl h.events⟩

namespace Recording

theorem refl : Recording ctx ctx :=
  (Quiet.refl ctx).recording

theorem after_quiet {a b c : VmContext} (hab : Quiet a b) (hbc : Recording b c) :
    Recording a c := by
  have htrigger := congrArg CaptureConfig.exitTrigger hab.capture
  have hskip := congrArg CaptureConfig.skipMemoryHash hab.capture
  refine ⟨hbc.trigger.trans htrigger, hbc.skip.trans hskip, ?_⟩
  rcases hbc.events with hgrows | ⟨hon, haccepts, es, d, tsc, realTsc, payload, hbefore, hrest⟩
  · exact .inl (hab.events.trans hgrows)
  refine .inr ⟨htrigger ▸ hon, ?_, es, d, tsc, realTsc, payload, hab.events.trans hbefore, hrest⟩
  rw [← hab.events.accepts]
  exact haccepts

theorem then_quiet {a b c : VmContext} (hab : Recording a b) (hbc : Quiet b c) : Recording a c := by
  refine ⟨(congrArg _ hbc.capture).trans hab.trigger, (congrArg _ hbc.capture).trans hab.skip, ?_⟩
  rcases hab.events with hgrows | ⟨hon, haccepts, es, d, tsc, realTsc, payload, hbefore, hlen, hafter⟩
  · exact .inl (hgrows.trans hbc.events)
  · exact .inr ⟨hon, haccepts, es, d, tsc, realTsc, payload, hbefore, hlen, hafter.trans hbc.events⟩

theorem grows_of_not_accepts {a b : VmContext} (h : Recording a b)
    (haccepts : a.state.events.accepts .exit = false) : a.state.events.Grows b.state.events := by
  rcases h.events with hgrows | ⟨-, hyes, -⟩
  · exact hgrows
  · rw [haccepts] at hyes
    cases hyes

theorem after_setCapture {ctx after : VmContext} {capture : CaptureConfig}
    (htrigger : capture.exitTrigger = ctx.state.capture.exitTrigger)
    (hskip : capture.skipMemoryHash = ctx.state.capture.skipMemoryHash)
    (h : Recording (ctx.setCapture capture) after) : Recording ctx after := by
  refine ⟨h.trigger.trans htrigger, h.skip.trans hskip, ?_⟩
  rcases h.events with hgrows | ⟨hon, hrecord⟩
  · exact .inl hgrows
  · exact .inr ⟨htrigger ▸ hon, hrecord⟩

theorem setCapture {ctx after : VmContext} (h : Recording ctx after) {capture : CaptureConfig}
    (htrigger : capture.exitTrigger = ctx.state.capture.exitTrigger)
    (hskip : capture.skipMemoryHash = ctx.state.capture.skipMemoryHash) :
    Recording ctx (after.setCapture capture) :=
  ⟨htrigger, hskip, h.events⟩

end Recording

variable (reason : ExitReason) (qual : UInt64)

namespace VmContext

theorem writeExitRecord_recording
    (flags : UInt32) (htrigger : ctx.state.capture.exitTrigger ≠ .disabled) :
    Recording ctx (ctx.writeExitRecord reason qual flags) := by
  unfold writeExitRecord
  split_ifs with hguard
  · exact .refl ctx
  refine ⟨rfl, rfl, .inr ⟨htrigger, ?_, _, _, _, _, _, .refl _,
    ctx.exitRecord_length reason qual flags, .refl _⟩⟩
  unfold accepts
  simpa using hguard

/-- Whether `capture_exit` captures the exit. -/
def capturesExit (ctx : VmContext) (deterministic : Bool) : Bool :=
  let capture := ctx.state.capture
  let tsc := ctx.state.clock.emulatedTsc
  !ctx.beforeExitStart &&
    match capture.exitTrigger with
    | .disabled => false
    | .atShutdown => false
    | .checkpoints => deterministic && capture.exitTargetTsc != 0 &&
        decide (capture.lastCheckpointIdx < tsc / capture.exitTargetTsc)
    | .atTsc => deterministic && !capture.exitCaptured && decide (capture.exitTargetTsc ≤ tsc)
    | .allExits => true
    | .tscRange =>
      match ctx.state.config.singleStepTscRange with
      | none => false
      | some (first, last) => decide (first ≤ tsc) && decide (tsc < last)

/-- Whether `capture_exit_at_shutdown` does. -/
def capturesShutdown (ctx : VmContext) : Bool :=
  ctx.state.capture.exitTrigger == .atShutdown && !ctx.state.capture.exitCaptured &&
    !ctx.beforeExitStart

/-- Whether `capture_exit_at_snapshot` does. -/
def capturesSnapshot (ctx : VmContext) : Bool :=
  !ctx.beforeExitStart && ctx.state.capture.exitTrigger != .disabled

/-- Whether the end of `handle_exit` captures the exit. -/
def capturesAtEnd (ctx : VmContext) (deterministic : Bool) : Bool :=
  if deterministic && ctx.stopReached then ctx.capturesShutdown
  else ctx.capturesExit deterministic

theorem captureExit_of_not (h : ctx.capturesExit deterministic = false) :
    ctx.captureExit reason qual deterministic = ctx := by
  unfold captureExit
  dsimp only
  by_cases hstart : ctx.beforeExitStart
  · rw [if_pos hstart]
  rw [if_neg hstart]
  have hstart' : ctx.beforeExitStart = false := by simpa using hstart
  unfold capturesExit at h
  rw [hstart', Bool.not_false, Bool.true_and] at h
  cases htrigger : ctx.state.capture.exitTrigger with
  | disabled | atShutdown => rfl
  | checkpoints =>
    rw [htrigger] at h
    cases deterministic with
    | false => rfl
    | true =>
      dsimp only at h ⊢
      rw [if_neg (by decide)]
      split
      · rfl
      next htarget =>
        split
        next hdue => simp [htarget, hdue] at h
        · rfl
  | atTsc =>
    rw [htrigger] at h
    cases deterministic with
    | false => rfl
    | true =>
      dsimp only at h ⊢
      rw [if_neg (by decide)]
      split
      · rfl
      next hdue =>
        simp only [Bool.or_eq_true, decide_eq_true_eq, not_or, Nat.not_lt] at hdue
        simp [hdue.1, hdue.2] at h
  | allExits =>
    rw [htrigger] at h
    cases h
  | tscRange =>
    rw [htrigger] at h
    dsimp only at h ⊢
    cases hrange : ctx.state.config.singleStepTscRange with
    | none => rfl
    | some range =>
      rw [hrange] at h
      dsimp only at h ⊢
      rw [if_pos]
      simp only [Bool.and_eq_false_iff, decide_eq_false_iff_not, Bool.or_eq_true,
        decide_eq_true_eq] at h ⊢
      omega

theorem captureExit_recording
    (deterministic : Bool) : Recording ctx (ctx.captureExit reason qual deterministic) := by
  unfold captureExit
  dsimp only
  split
  · exact .refl ctx
  split
  · exact .refl ctx
  · exact .refl ctx
  next htrigger =>
    split
    · exact .refl ctx
    split
    · exact .refl ctx
    split
    · refine .after_setCapture ?_ ?_ (writeExitRecord_recording _ _ _ _ ?_)
      · rfl
      · rfl
      · simp [setCapture, htrigger]
    · exact .refl ctx
  next htrigger =>
    split
    · exact .refl ctx
    split
    · exact .refl ctx
    · exact (ctx.writeExitRecord_recording _ _ _ (by simp [htrigger])).setCapture rfl rfl
  next htrigger =>
    exact ctx.writeExitRecord_recording _ _ _ (by simp [htrigger])
  next htrigger =>
    split
    · exact .refl ctx
    split
    · exact .refl ctx
    · exact ctx.writeExitRecord_recording _ _ _ (by simp [htrigger])

theorem captureExitAtShutdown_of_not (h : ctx.capturesShutdown = false) :
    ctx.captureExitAtShutdown = ctx := by
  unfold capturesShutdown at h
  unfold captureExitAtShutdown
  split_ifs with hguard hstart
  · rfl
  · rfl
  simp only [ne_eq, decide_not, Bool.or_eq_true, Bool.not_eq_true', decide_eq_false_iff_not,
    not_or, not_not, Bool.not_eq_true] at hguard
  simp [hguard.1, hguard.2, hstart] at h

theorem captureExitAtShutdown_recording : Recording ctx ctx.captureExitAtShutdown := by
  unfold captureExitAtShutdown
  split_ifs with hguard hstart
  · exact .refl ctx
  · exact .refl ctx
  have htrigger : ctx.state.capture.exitTrigger ≠ .disabled := by
    intro hdisabled
    simp [hdisabled] at hguard
  exact (ctx.writeExitRecord_recording _ _ _ htrigger).setCapture rfl rfl

theorem captureExitAtShutdown_once (h : ctx.capturesShutdown) :
    ctx.captureExitAtShutdown.state.capture.exitTrigger = .atShutdown ∧
      ctx.captureExitAtShutdown.state.capture.exitCaptured := by
  unfold capturesShutdown at h
  unfold captureExitAtShutdown
  simp only [Bool.and_eq_true, beq_iff_eq, Bool.not_eq_true'] at h
  obtain ⟨⟨htrigger, hcaptured⟩, hstart⟩ := h
  rw [if_neg (by simp [htrigger, hcaptured]), if_neg (by simp [hstart])]
  exact ⟨htrigger, rfl⟩

theorem capturesAtEnd_of_shutdown (deterministic : Bool)
    (htrigger : ctx.state.capture.exitTrigger = .atShutdown)
    (hcaptured : ctx.state.capture.exitCaptured) :
    ctx.capturesAtEnd deterministic = false := by
  unfold capturesAtEnd capturesShutdown capturesExit
  simp [htrigger, hcaptured]

theorem captureExitAtSnapshot_of_not (h : ctx.capturesSnapshot = false) :
    ctx.captureExitAtSnapshot = ctx := by
  unfold capturesSnapshot at h
  unfold captureExitAtSnapshot
  split_ifs with hstart htrigger
  · rfl
  · rfl
  · simp [hstart, htrigger] at h

theorem captureExitAtSnapshot_recording : Recording ctx ctx.captureExitAtSnapshot := by
  unfold captureExitAtSnapshot
  split_ifs with hstart htrigger
  · exact .refl ctx
  · exact .refl ctx
  · exact ctx.writeExitRecord_recording _ _ _ htrigger

theorem captureExitAtSnapshot_capture :
    ctx.captureExitAtSnapshot.state.capture = ctx.state.capture := by
  unfold captureExitAtSnapshot writeExitRecord
  split_ifs <;> rfl

theorem capturesAtEnd_congr {ctx ctx' : VmContext} (hcapture : ctx'.state.capture = ctx.state.capture)
    (hclock : ctx'.state.clock = ctx.state.clock) (hconfig : ctx'.state.config = ctx.state.config)
    (deterministic : Bool) : ctx'.capturesAtEnd deterministic = ctx.capturesAtEnd deterministic := by
  unfold capturesAtEnd capturesShutdown capturesExit stopReached beforeExitStart
  rw [hcapture, hclock, hconfig]

/-! ## One exit -/

/-- Whether the handler of an exit captures it itself. -/
def capturesInHandler (ctx : VmContext) (reason : ExitReason) : Bool :=
  reason == .vmcall &&
    (ctx.state.guest.gprs.rax.toNat == 0 && ctx.capturesShutdown ||
      ctx.state.guest.gprs.rax.toNat == 1 && ctx.capturesSnapshot)

/-- A snapshot hypercall whose exit is captured once more at its end. -/
def capturesTwice (ctx : VmContext) : Bool :=
  match ctx.exitInfo with
  | .ok (.vmcall, _) =>
    let begun := ctx.beginExit true
    ctx.state.events.accepts .exit && ctx.state.guest.gprs.rax.toNat == 1 &&
      begun.capturesSnapshot && begun.capturesAtEnd true
  | _ => false

def captures (ctx : VmContext) : Bool :=
  match ctx.exitInfo with
  | .error _ => false
  | .ok (reason, qual) =>
    let deterministic := !ctx.state.nonDeterministicExit reason qual
    let begun := ctx.beginExit deterministic
    let handled := dispatch reason qual begun
    ctx.state.events.accepts .exit &&
      (begun.capturesInHandler reason ||
        handled.1.isOk && handled.2.updateMtfState.1.isOk && handled.2.capturesAtEnd deterministic)

end VmContext

/-- What the handler of an exit captures. -/
inductive HandlerCapture (reason : ExitReason) (before after : VmContext) : Prop
  | nothing (h : Quiet before after)
  | shutdown (hreason : reason = .vmcall) (hrax : before.state.guest.gprs.rax.toNat = 0)
      (hcaptures : before.capturesShutdown = true) (h : Quiet before.captureExitAtShutdown after)
  | snapshot (hreason : reason = .vmcall) (hrax : before.state.guest.gprs.rax.toNat = 1)
      (hcaptures : before.capturesSnapshot = true) (h : Quiet before.captureExitAtSnapshot after)

theorem capture_bind_quiet {k : Unit → Handler α} (hk : Built QuietAction (k ()))
    (p : CapturePoint) (ctx : VmContext) : Quiet (p.run ctx) ((capture p >>= k) ctx).2 := by
  unfold capture
  rw [act_bind]
  exact .of_built hk _

theorem handleVmcall_capture : HandlerCapture .vmcall ctx (handleVmcall ctx).2 := by
  have hshutdown : Quiet ctx.captureExitAtShutdown (vmcallShutdown ctx).2 :=
    capture_bind_quiet inferInstance .shutdown ctx
  have hsnapshot : Quiet ctx.captureExitAtSnapshot (vmcallSnapshot ctx).2 :=
    capture_bind_quiet inferInstance .snapshot ctx
  unfold handleVmcall getGuest
  rw [act_bind]
  dsimp only
  rcases hrax : ctx.state.guest.gprs.rax.toNat with _ | _ | n
  · cases hcaptures : ctx.capturesShutdown with
    | true => exact .shutdown rfl hrax hcaptures hshutdown
    | false =>
      rw [ctx.captureExitAtShutdown_of_not hcaptures] at hshutdown
      exact .nothing hshutdown
  · cases hcaptures : ctx.capturesSnapshot with
    | true => exact .snapshot rfl hrax hcaptures hsnapshot
    | false =>
      rw [ctx.captureExitAtSnapshot_of_not hcaptures] at hsnapshot
      exact .nothing hsnapshot
  · refine .nothing (.of_built ?_ ctx)
    split
    all_goals first | infer_instance | omega

theorem handleIdle_quiet : Quiet ctx (handleIdle ctx).2 := by
  have hwake : Quiet ctx ctx.advanceToWake := by
    obtain ⟨clock, hwake⟩ := ctx.advanceToWake_setClock
    rw [hwake]
    exact .of_same rfl rfl
  unfold handleIdle
  rw [act_bind]
  exact hwake.trans (.of_built inferInstance _)

theorem dispatch_capture (ctx : VmContext) :
    HandlerCapture reason ctx (dispatch reason qual ctx).2 := by
  by_cases hvmcall : reason = .vmcall
  · subst hvmcall
    have hcapture := handleVmcall_capture ctx
    rwa [← call_state] at hcapture
  refine .nothing ?_
  by_cases hidle : reason = .hlt ∨ reason = .mwait
  · rw [dispatch_idle qual hidle, call_state]
    exact handleIdle_quiet ctx
  rw [not_or] at hidle
  have hbuilt := dispatch_built_quiet qual hidle.1 hidle.2 hvmcall
  exact .of_built inferInstance ctx

namespace HandlerCapture

variable {reason : ExitReason} {before after : VmContext}

theorem recording (h : HandlerCapture reason before after) : Recording before after := by
  cases h with
  | nothing h => exact h.recording
  | shutdown _ _ _ h => exact before.captureExitAtShutdown_recording.then_quiet h
  | snapshot _ _ _ h => exact before.captureExitAtSnapshot_recording.then_quiet h

theorem quiet (h : HandlerCapture reason before after)
    (hnot : before.capturesInHandler reason = false) : Quiet before after := by
  unfold VmContext.capturesInHandler at hnot
  cases h with
  | nothing h => exact h
  | shutdown hreason hrax hcaptures _ | snapshot hreason hrax hcaptures _ =>
    simp [hreason, hrax, hcaptures] at hnot

end HandlerCapture

namespace VmContext

theorem finishExit_recording (deterministic : Bool) (result : ExitHandlerResult) :
    Recording ctx (ctx.finishExit reason qual deterministic result).2 := by
  have hquiet := ctx.updateMtfState_quiet
  unfold finishExit
  generalize ctx.updateMtfState = update at hquiet ⊢
  rcases update with ⟨_ | _, after⟩
  · exact hquiet.recording
  dsimp only at hquiet ⊢
  split
  · exact .after_quiet hquiet after.captureExitAtShutdown_recording
  have hrecord := Recording.after_quiet hquiet
    (after.captureExit_recording reason qual deterministic)
  split
  all_goals exact hrecord

theorem finishExit_quiet (result : ExitHandlerResult)
    (hnot : ctx.updateMtfState.1.isOk → ctx.capturesAtEnd deterministic = false) :
    Quiet ctx (ctx.finishExit reason qual deterministic result).2 := by
  have hquiet := ctx.updateMtfState_quiet
  have hclock := ctx.updateMtfState_clock
  have hconfig := ctx.updateMtfState_config
  unfold finishExit
  rcases hupdate : ctx.updateMtfState with ⟨_ | _, after⟩
  · rw [hupdate] at hquiet
    exact hquiet
  rw [hupdate] at hquiet hclock hconfig hnot
  have hend : after.capturesAtEnd deterministic = false :=
    (capturesAtEnd_congr hquiet.capture hclock hconfig deterministic).trans (hnot rfl)
  unfold capturesAtEnd at hend
  dsimp only
  split
  next hstop =>
    rw [if_pos hstop] at hend
    rw [after.captureExitAtShutdown_of_not hend]
    exact hquiet
  next hstop =>
    rw [if_neg hstop] at hend
    rw [after.captureExit_of_not reason qual hend]
    split
    all_goals exact hquiet

theorem beginExit_quiet (deterministic : Bool) : Quiet ctx (ctx.beginExit deterministic) :=
  .of_same rfl rfl

theorem handleExit_recording (honce : ctx.capturesTwice = false) :
    Recording ctx ctx.handleExit.2 := by
  unfold handleExit
  unfold capturesTwice at honce
  generalize ctx.exitInfo = info at honce ⊢
  rcases info with e | ⟨reason, qual⟩
  · exact .refl ctx
  dsimp only
  generalize hdet : (!ctx.state.nonDeterministicExit reason qual) = deterministic
  have hbegin := ctx.beginExit_quiet deterministic
  have hhandler := dispatch_capture reason qual (ctx.beginExit deterministic)
  have hkept : reason ≠ .hlt → reason ≠ .mwait →
      Kept (ctx.beginExit deterministic) (dispatch reason qual (ctx.beginExit deterministic)).2 :=
    fun hhlt hmwait => dispatch_kept qual hhlt hmwait _
  generalize dispatch reason qual (ctx.beginExit deterministic) = run at hhandler hkept ⊢
  rcases run with ⟨r | result, handled⟩
  · exact .after_quiet hbegin hhandler.recording
  refine .after_quiet hbegin ?_
  cases hhandler with
  | nothing hquiet => exact .after_quiet hquiet (handled.finishExit_recording _ _ _ _)
  | shutdown hreason hrax hcaptures hquiet =>
    obtain ⟨htrigger, hcaptured⟩ := captureExitAtShutdown_once _ hcaptures
    have hend : handled.capturesAtEnd deterministic = false :=
      handled.capturesAtEnd_of_shutdown deterministic ((congrArg _ hquiet.capture).trans htrigger)
        ((congrArg _ hquiet.capture).trans hcaptured)
    exact (captureExitAtShutdown_recording _).then_quiet
      (hquiet.trans (handled.finishExit_quiet _ _ _ fun _ => hend))
  | snapshot hreason hrax hcaptures hquiet =>
    subst hreason
    obtain rfl : true = deterministic := hdet
    have hcapture := (ctx.beginExit true).captureExitAtSnapshot_capture
    have hrecord := (ctx.beginExit true).captureExitAtSnapshot_recording
    cases haccepts : ctx.state.events.accepts .exit with
    | false =>
      have hsnapshot : Quiet (ctx.beginExit true) (ctx.beginExit true).captureExitAtSnapshot :=
        ⟨hcapture, hrecord.grows_of_not_accepts haccepts⟩
      exact .after_quiet (hsnapshot.trans hquiet) (handled.finishExit_recording _ _ _ _)
    | true =>
      have hkept := hkept (by decide) (by decide)
      have hbegun : (ctx.beginExit true).capturesAtEnd true = false := by
        have hrax' : ctx.state.guest.gprs.rax.toNat = 1 := hrax
        simpa [haccepts, hrax', hcaptures] using honce
      have hend : handled.capturesAtEnd true = false :=
        (capturesAtEnd_congr (hquiet.capture.trans hcapture) hkept.clock hkept.config
          true).trans hbegun
      exact hrecord.then_quiet (hquiet.trans (handled.finishExit_quiet _ _ _ fun _ => hend))

theorem handleExit_grows (hnot : ctx.captures = false) :
    ctx.state.events.Grows ctx.handleExit.2.state.events := by
  unfold handleExit
  unfold captures at hnot
  generalize ctx.exitInfo = info at hnot ⊢
  rcases info with e | ⟨reason, qual⟩
  · exact .refl _
  dsimp only at hnot ⊢
  generalize (!ctx.state.nonDeterministicExit reason qual) = deterministic at hnot ⊢
  have hbegin := ctx.beginExit_quiet deterministic
  have hhandler := dispatch_capture reason qual (ctx.beginExit deterministic)
  cases haccepts : ctx.state.events.accepts .exit with
  | false =>
    have hnone : (ctx.beginExit deterministic).state.events.accepts .exit = false := haccepts
    generalize dispatch reason qual (ctx.beginExit deterministic) = run at hhandler ⊢
    rcases run with ⟨r | result, handled⟩
    · exact hbegin.events.trans (hhandler.recording.grows_of_not_accepts hnone)
    have hgrows := hhandler.recording.grows_of_not_accepts hnone
    have hnone' : handled.state.events.accepts .exit = false := by
      rw [hgrows.accepts]
      exact hnone
    have hfinish := (handled.finishExit_recording reason qual deterministic
      result).grows_of_not_accepts hnone'
    exact hbegin.events.trans (hgrows.trans hfinish)
  | true =>
    rw [haccepts, Bool.true_and, Bool.or_eq_false_iff] at hnot
    have hquiet := hhandler.quiet hnot.1
    generalize dispatch reason qual (ctx.beginExit deterministic) = run at hquiet hnot ⊢
    rcases run with ⟨r | result, handled⟩
    · exact (hbegin.trans hquiet).events
    have hend : handled.updateMtfState.1.isOk →
        handled.capturesAtEnd deterministic = false := by
      intro hok
      have hend := hnot.2
      rw [hok] at hend
      exact hend
    exact ((hbegin.trans hquiet).trans (handled.finishExit_quiet _ _ _ hend)).events

end VmContext

end Bedrock
