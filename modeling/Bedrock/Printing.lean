import Bedrock.Recording

/-!
# Console output

What the guest prints byte by byte is collected in a line buffer until a newline or until
the buffer is full; what it prints through the console page follows in a record of its
own.  Without overflow nothing is lost or reordered on this way: the records in the event
buffer and the line buffer together hold what was printed.
-/

namespace Bedrock

open Support EventStream List EventKind EventRecord VmContext Built Emission Program

def EventRecord.isConsole (r : EventRecord) : Bool :=
  r.kind == serial.asU16

/-- The bytes of the console records, each with the time of the record that carries it. -/
def carriedBytes (rs : List EventRecord) : List (UInt8 × UInt64) :=
  (rs.filter isConsole).flatMap fun r => r.payload.map fun byte => (byte, r.tsc)

def consoleText (rs : List EventRecord) : List UInt8 :=
  (carriedBytes rs).map Prod.fst

theorem consoleText_append (rs more : List EventRecord) :
    consoleText (rs ++ more) = consoleText rs ++ consoleText more := by
  simp [consoleText, carriedBytes]

theorem consoleText_singleton (r : EventRecord) :
    consoleText [r] = if r.isConsole then r.payload else [] := by
  unfold consoleText carriedBytes
  cases h : r.isConsole with
  | true => simp [h, Function.comp_def]
  | false => simp [h]

namespace EventStream

/-- What the stream shows: the console records in the buffer and the line buffer. -/
def shown (es : EventStream) : List UInt8 :=
  consoleText (stream es.buffer) ++ es.serialLine

/-- The line buffer has room and no line ends in it. -/
def LineOpen (es : EventStream) : Prop :=
  es.serialLine.length < SERIAL_LINE_ACC_SIZE ∧ ∀ byte ∈ es.serialLine, byte ≠ 10

/-- The buffer holds whole records, and an exit record that is to be finalized is among
them. -/
structure Legible (es : EventStream) : Prop where
  records : ∃ rs, es.Holds rs
  target : es.TargetPresent
  line : es.LineOpen

/-- From `es` to `es'` these bytes were printed. -/
structure Prints (bytes : List UInt8) (es es' : EventStream) : Prop where
  accepts : es'.accepts = es.accepts
  free : es'.pending = none → es.pending = none
  legible : es.accepts .serial = true → es'.pending = none → es.Legible → es'.Legible
  shown : es.accepts .serial = true → es'.pending = none → es.Legible →
    es'.shown = es.shown ++ bytes

variable {es es' : EventStream} {e : Event}

namespace Prints

theorem refl (es : EventStream) : Prints [] es es :=
  ⟨rfl, id, fun _ _ h => h, fun _ _ _ => (append_nil _).symm⟩

theorem of_eq (h : es' = es) : Prints [] es es' :=
  h ▸ .refl es

theorem append {a b c : EventStream} {bytes more : List UInt8} (hab : Prints bytes a b)
    (hbc : Prints more b c) : Prints (bytes ++ more) a c where
  accepts := hbc.accepts.trans hab.accepts
  free h := hab.free (hbc.free h)
  legible hon hfree h :=
    hbc.legible (hab.accepts ▸ hon) hfree (hab.legible hon (hbc.free hfree) h)
  shown hon hfree h := by
    have hmid := hab.legible hon (hbc.free hfree) h
    rw [hbc.shown (hab.accepts ▸ hon) hfree hmid, hab.shown hon (hbc.free hfree) h, append_assoc]

theorem trans {a b c : EventStream} (hab : Prints [] a b) (hbc : Prints [] b c) : Prints [] a c :=
  hab.append hbc

theorem append_silent {a b c : EventStream} {bytes : List UInt8} (hab : Prints bytes a b)
    (hbc : Prints [] b c) : Prints bytes a c := by
  have h := hab.append hbc
  rwa [append_nil] at h

end Prints

/-! ## Events -/

theorem shown_of_holds {rs : List EventRecord} (h : es.Holds rs) :
    es.shown = consoleText rs ++ es.serialLine := by
  rw [shown, h.stream]

@[simp] theorem emit_serialLine (es : EventStream) (e : Event) :
    (es.emit e).serialLine = es.serialLine := by
  unfold emit write
  split_ifs <;> rfl

theorem pending_of_emit (hfree : (es.emit e).pending = none) : es.pending = none := by
  rw [← staged_eq_none_iff] at hfree ⊢
  rcases es.staged_emit e with hsame | ⟨-, -, hnone, -⟩
  · exact hsame.symm.trans hfree
  · exact hnone

theorem TargetPresent.emit (h : es.TargetPresent) (hfree : es.pending = none) (e : Event) :
    (es.emit e).TargetPresent := by
  unfold TargetPresent at h ⊢
  rw [emit_pendingExitLoc]
  cases hloc : es.pendingExitLoc with
  | none => trivial
  | some loc =>
    rw [hloc] at h
    cases loc with
    | buffer base =>
      intro hattached
      exact (h ((emit_attached es e).symm.trans hattached)).emit e
    | pending =>
      rw [hfree] at h
      cases h

theorem Legible.emit (h : es.Legible) (hfree : es.pending = none) (e : Event) :
    (es.emit e).Legible := by
  obtain ⟨rs, hrs⟩ := h.records
  obtain ⟨more, hmore, -⟩ := hrs.emit e
  refine ⟨⟨_, hmore⟩, h.target.emit hfree e, ?_⟩
  unfold LineOpen
  rw [emit_serialLine]
  exact h.line

theorem emit_silent (es : EventStream) (hkind : e.kind ≠ .serial) : Prints [] es (es.emit e) where
  accepts := accepts_emit es e
  free := pending_of_emit
  legible _ hfree h := h.emit (pending_of_emit hfree) e
  shown _ _ h := by
    obtain ⟨rs, hrs⟩ := h.records
    obtain ⟨more, hmore, hmorekind⟩ := hrs.emit e
    have hnone : consoleText more = [] := by
      have hfilter : more.filter isConsole = [] := by
        apply filter_eq_nil_iff.mpr
        intro r hr hconsole
        have hserial := (hmorekind r hr).symm.trans (beq_iff_eq.mp hconsole)
        exact hkind (asU16_injective hserial)
      rw [consoleText, carriedBytes, hfilter]
      rfl
    rw [shown_of_holds hmore, shown_of_holds hrs, consoleText_append, hnone, append_nil,
      append_nil, emit_serialLine]

theorem emit_console (es : EventStream) (hkind : e.kind = .serial) (hline : es.serialLine = []) :
    Prints e.payload es (es.emit e) where
  accepts := accepts_emit es e
  free := pending_of_emit
  legible _ hfree h := h.emit (pending_of_emit hfree) e
  shown hon hfree h := by
    have haccepts : es.accepts e.kind := hkind ▸ hon
    obtain ⟨rs, hrs⟩ := h.records
    have hfits := fits_of_free haccepts hfree
    have hconsole : (e.record es.seq).isConsole := by
      unfold isConsole
      rw [Event.record, hkind]
      rfl
    rw [shown_of_holds (hrs.emit_of_fits haccepts hfits), shown_of_holds hrs, consoleText_append,
      consoleText_singleton, if_pos hconsole, emit_serialLine, hline, append_nil,
      append_nil]
    rfl

/-! ## The line buffer -/

def withoutLine (es : EventStream) : EventStream :=
  { es with serialLine := [] }

def lineEvent (es : EventStream) : Event :=
  ⟨.serial, serial.defaultFlags, es.serialLineTsc, es.serialLineRealTsc, es.serialLine⟩

theorem flushSerialLine_eq (es : EventStream) :
    es.flushSerialLine.2 =
      if es.serialLine = [] then es else es.withoutLine.emit es.lineEvent := by
  unfold flushSerialLine
  split_ifs
  · rfl
  · rfl

theorem flushSerialLine_shown (hon : es.accepts .serial)
    (hfree : es.flushSerialLine.2.pending = none) (hrecords : ∃ rs, es.Holds rs)
    (htarget : es.TargetPresent) :
    es.flushSerialLine.2.Legible ∧ es.flushSerialLine.2.shown = es.shown := by
  have hroom : ([] : List UInt8).length < SERIAL_LINE_ACC_SIZE := by decide
  have hempty : es.withoutLine.LineOpen := ⟨hroom, nofun⟩
  rw [flushSerialLine_eq] at hfree ⊢
  split_ifs at hfree ⊢ with hline
  · refine ⟨⟨hrecords, htarget, ?_⟩, rfl⟩
    unfold LineOpen
    rw [hline]
    exact hempty
  · have hprints := es.withoutLine.emit_console (e := es.lineEvent) rfl rfl
    have hlegible : es.withoutLine.Legible := ⟨hrecords, htarget, hempty⟩
    have hshown : es.withoutLine.shown ++ es.serialLine = es.shown := by
      unfold shown
      exact congrArg (· ++ es.serialLine) (append_nil _)
    exact ⟨hprints.legible hon hfree hlegible, (hprints.shown hon hfree hlegible).trans hshown⟩

theorem flushSerialLine_silent (es : EventStream) : Prints [] es es.flushSerialLine.2 where
  accepts := (Grows.flushSerialLine es).accepts
  free := (Grows.flushSerialLine es).free
  legible hon hfree h := (flushSerialLine_shown hon hfree h.records h.target).1
  shown hon hfree h := by
    rw [(flushSerialLine_shown hon hfree h.records h.target).2, append_nil]

/-- The stream with one more byte in the line buffer; the stamps are set by the first. -/
def pushByte (es : EventStream) (byte : UInt8) (tsc realTsc : UInt64) : EventStream :=
  if es.serialLine = [] then
    { es with
      serialLine := es.serialLine ++ [byte], serialLineTsc := tsc, serialLineRealTsc := realTsc }
  else { es with serialLine := es.serialLine ++ [byte] }

theorem serialByte_eq (hon : es.enabled .serial)
    (hroom : es.serialLine.length < SERIAL_LINE_ACC_SIZE) (byte : UInt8) (tsc realTsc : UInt64) :
    (es.serialByte byte tsc realTsc).2 =
      if byte = 10 ∨ (es.serialLine ++ [byte]).length = SERIAL_LINE_ACC_SIZE then
        (es.pushByte byte tsc realTsc).flushSerialLine.2
      else es.pushByte byte tsc realTsc := by
  have hempty : ([] : List UInt8).length < SERIAL_LINE_ACC_SIZE := by decide
  unfold serialByte pushByte
  rw [if_neg (by simp [hon])]
  by_cases hline : es.serialLine = []
  · simp only [hline, if_true, hempty]
    split_ifs
    · rfl
    · rfl
  · simp only [hline, if_false, hroom, if_true]
    split_ifs
    · rfl
    · rfl

theorem serialByte_prints (es : EventStream) (byte : UInt8) (tsc realTsc : UInt64) :
    Prints [byte] es (es.serialByte byte tsc realTsc).2 := by
  have hgrows := Grows.serialByte es byte tsc realTsc
  have hpushed : (es.pushByte byte tsc realTsc).shown = es.shown ++ [byte] ∧
      (es.pushByte byte tsc realTsc).serialLine = es.serialLine ++ [byte] := by
    unfold pushByte shown
    split_ifs
    all_goals exact ⟨(append_assoc _ _ _).symm, rfl⟩
  have hkept : es.Legible → (∃ rs, (es.pushByte byte tsc realTsc).Holds rs) ∧
      (es.pushByte byte tsc realTsc).TargetPresent ∧
      (es.pushByte byte tsc realTsc).accepts = es.accepts := by
    intro h
    unfold pushByte
    split_ifs
    all_goals exact ⟨h.records, h.target, rfl⟩
  have hdone : es.accepts .serial → (es.serialByte byte tsc realTsc).2.pending = none →
      es.Legible → (es.serialByte byte tsc realTsc).2.Legible ∧
        (es.serialByte byte tsc realTsc).2.shown = es.shown ++ [byte] := by
    intro hon hfree h
    obtain ⟨hrecords, htarget, haccepts⟩ := hkept h
    rw [serialByte_eq (Bool.and_eq_true_iff.mp hon).2 h.line.1] at hfree ⊢
    split_ifs at hfree ⊢ with hends
    · obtain ⟨hlegible, hshown⟩ :=
        flushSerialLine_shown (haccepts ▸ hon) hfree hrecords htarget
      exact ⟨hlegible, hshown.trans hpushed.1⟩
    rw [not_or] at hends
    refine ⟨⟨hrecords, htarget, ?_⟩, hpushed.1⟩
    unfold LineOpen
    rw [hpushed.2]
    refine ⟨?_, forall_mem_append.mpr ⟨h.line.2, forall_mem_singleton.mpr hends.1⟩⟩
    have hroom := h.line.1
    rw [length_append, length_singleton] at hends ⊢
    omega
  exact ⟨hgrows.accepts, hgrows.free, fun hon hfree h => (hdone hon hfree h).1,
    fun hon hfree h => (hdone hon hfree h).2⟩

/-! ## Exit records -/

theorem emitExit_silent (es : EventStream) (deterministic : Bool) (tsc realTsc : UInt64)
    {payload : List UInt8} (hlen : payload.length = EXIT_RECORD_SIZE) :
    Prints [] es (es.emitExit deterministic tsc realTsc payload) := by
  cases haccepts : es.accepts .exit with
  | false =>
    rw [emitExit_of_not_accepts haccepts]
    exact ⟨rfl, id, fun _ _ h => ⟨h.records, trivial, h.line⟩, fun _ _ _ => (append_nil _).symm⟩
  | true =>
    let e := captureEvent deterministic tsc realTsc payload
    have hkind : EventKind.exit ≠ .serial := by decide
    have hemit : Prints [] es (es.emit e) := es.emit_silent hkind
    have hdone := emitExit_of_accepts haccepts deterministic tsc realTsc payload
    refine ⟨?_, fun hfree => ?_, fun hon hfree h => ?_, fun hon hfree h => ?_⟩
    · rw [hdone]
      exact hemit.accepts
    · rw [hdone] at hfree
      exact hemit.free hfree
    · obtain ⟨rs, hrs⟩ := h.records
      obtain ⟨hholds, hloc, -⟩ := emitExit_of_free hrs haccepts hfree
      refine ⟨⟨_, hholds⟩, ?_, ?_⟩
      · unfold TargetPresent
        rw [hloc]
        exact fun _ => ⟨rs, _, [], hholds, rfl, hlen, rfl⟩
      · rw [hdone] at hfree ⊢
        exact (hemit.legible hon hfree h).line
    · rw [hdone] at hfree ⊢
      exact hemit.shown hon hfree h

/-- Finalizing in the buffer replaces an exit record by an exit record. -/
theorem HoldsExit.finalizeExit {base : Nat} (h : es.HoldsExit base)
    (hloc : es.pendingExitLoc = some (.buffer base)) (hattached : es.attached)
    (memoryHash : UInt64) (cowPageCount : UInt32) :
    ∃ before after r r', es.Holds (before ++ r :: after) ∧
      (es.finalizeExit memoryHash cowPageCount).Holds (before ++ r' :: after) ∧
      r.kind = EventKind.exit.asU16 ∧ r'.kind = EventKind.exit.asU16 := by
  obtain ⟨before, r, after, hrecords, hkind, hlen, hbase⟩ := h
  let bytes := patchExit es.bytes base memoryHash cowPageCount
  have hwindow : window bytes 0 es.len =
      (before ++ r.withPayload (window bytes base EXIT_RECORD_SIZE) :: after).flatMap encode :=
    hrecords.patch hlen hbase fun i hi =>
      patchExit_of_not_deferred _ _ _ fun hfield => hi hfield.inside
  refine ⟨before, after, r, r.withPayload (window bytes base EXIT_RECORD_SIZE), hrecords, ?_, hkind,
    (r.kind_withPayload _).trans hkind⟩
  unfold EventStream.finalizeExit
  rw [hloc]
  dsimp only
  rw [if_pos hattached]
  exact hwindow

theorem finalizeExit_silent (es : EventStream) (memoryHash : UInt64) (cowPageCount : UInt32) :
    Prints [] es (es.finalizeExit memoryHash cowPageCount) := by
  rcases es.finalizeExit_cases memoryHash cowPageCount with
    ⟨-, heq⟩ | ⟨base, -, -, heq⟩ | ⟨base, hloc, hattached, heq⟩ | ⟨hloc, heq⟩
  · exact .of_eq heq
  · rw [heq]
    exact ⟨rfl, id, fun _ _ h => ⟨h.records, trivial, h.line⟩, fun _ _ _ => (append_nil _).symm⟩
  · have hpatched : es.Legible → ∃ before after r r', es.Holds (before ++ r :: after) ∧
        (es.finalizeExit memoryHash cowPageCount).Holds (before ++ r' :: after) ∧
        r.kind = exit.asU16 ∧ r'.kind = exit.asU16 := by
      intro h
      have htarget := h.target
      unfold TargetPresent at htarget
      rw [hloc] at htarget
      exact (htarget hattached).finalizeExit hloc hattached memoryHash cowPageCount
    have hsame : (es.finalizeExit memoryHash cowPageCount).accepts = es.accepts ∧
        (es.finalizeExit memoryHash cowPageCount).serialLine = es.serialLine := by
      rw [heq]
      exact ⟨rfl, rfl⟩
    refine ⟨hsame.1, fun hfree => ?_, fun _ _ h => ?_, fun _ _ h => ?_⟩
    · rwa [finalizeExit_pending] at hfree
    · obtain ⟨before, after, r, r', -, hholds, -⟩ := hpatched h
      refine ⟨⟨_, hholds⟩, ?_, ?_⟩
      · unfold TargetPresent
        rw [finalizeExit_pendingExitLoc]
        trivial
      · unfold LineOpen
        rw [hsame.2]
        exact h.line
    · obtain ⟨before, after, r, r', hrecords, hholds, hr, hr'⟩ := hpatched h
      have htext : ∀ x : EventRecord, x.kind = exit.asU16 →
          consoleText (before ++ x :: after) = consoleText (before ++ after) := by
        intro x hx
        have hconsole : x.isConsole = false := by
          unfold isConsole
          rw [hx]
          rfl
        simp [consoleText, carriedBytes, hconsole]
      rw [shown_of_holds hholds, shown_of_holds hrecords, htext r hr, htext r' hr', hsame.2,
        append_nil]
  · rw [heq]
    exact ⟨rfl, id, fun _ _ h => ⟨h.records, trivial, h.line⟩, fun _ _ _ => (append_nil _).symm⟩

@[simp] theorem emptied_serialLine (es : EventStream) : es.emptied.serialLine = es.serialLine := rfl

theorem clear_shown (hfree : es.pending = none) : es.clear.shown = es.serialLine := by
  rw [es.clear_eq.1 ((staged_eq_none_iff es).mpr hfree)]
  have hholds : es.emptied.Holds [] := rfl
  rw [shown_of_holds hholds]
  rfl

theorem clear_legible (hfree : es.pending = none) (hloc : es.pendingExitLoc = none)
    (hline : es.LineOpen) : es.clear.Legible ∧ es.clear.pending = none := by
  rw [es.clear_eq.1 ((staged_eq_none_iff es).mpr hfree)]
  refine ⟨⟨⟨[], rfl⟩, ?_, hline⟩, rfl⟩
  have hloc' : es.emptied.pendingExitLoc = none := hloc
  unfold TargetPresent
  rw [hloc']
  trivial

@[simp] theorem flushSerialLine_serialLine (es : EventStream) :
    es.flushSerialLine.2.serialLine = [] := by
  rw [flushSerialLine_eq]
  split_ifs with hline
  · exact hline
  · exact emit_serialLine _ _

theorem Prints.of_disabled (h : es.enabled .serial = false) (bytes : List UInt8) :
    Prints bytes es es where
  accepts := rfl
  free := id
  legible _ _ h := h
  shown hon _ _ := by
    unfold EventStream.accepts at hon
    rw [h, Bool.and_false] at hon
    cases hon

end EventStream

/-! ## Handlers that print nothing -/

/-- From `before` to `after` nothing was printed. -/
def Silent (before after : VmContext) : Prop :=
  Prints [] before.state.events after.state.events

variable (ctx : VmContext)

namespace Silent

theorem refl : Silent ctx ctx :=
  Prints.refl _

theorem trans {a b c : VmContext} (hab : Silent a b) (hbc : Silent b c) : Silent a c :=
  Prints.trans hab hbc

theorem of_events {before after : VmContext} (h : after.state.events = before.state.events) :
    Silent before after :=
  .of_eq h

end Silent

namespace VmContext

theorem emitEvent_silent {kind : EventKind} (hkind : kind ≠ .serial)
    (flags : UInt16) (payload : List UInt8) : Silent ctx (ctx.emitEvent kind flags payload) := by
  rw [emitEvent]
  split
  · exact .refl ctx
  · exact emit_silent (e := ⟨kind, flags, _, _, payload⟩) _ hkind

theorem writeExitRecord_silent (reason : ExitReason) (qual : UInt64)
    (flags : UInt32) : Silent ctx (ctx.writeExitRecord reason qual flags) := by
  rw [writeExitRecord]
  split
  · exact .refl ctx
  · exact emitExit_silent _ _ _ _ (ctx.exitRecord_length reason qual flags)

theorem finalizeExitRecord_silent : Silent ctx ctx.finalizeExitRecord := by
  rw [finalizeExitRecord]
  split
  · exact .refl ctx
  · exact finalizeExit_silent _ _ _

theorem updateMtfState_silent : Silent ctx ctx.updateMtfState.2 := by
  obtain ⟨_, _, h⟩ := ctx.updateMtfState_eq
  rw [h]
  exact .refl ctx

end VmContext

theorem Silent.surrounds : Surrounds Silent where
  refl := .refl
  trans := .trans
  record := writeExitRecord_silent
  bookkeeping _ _ := .of_events rfl
  finalizeRecord := finalizeExitRecord_silent
  trapFlag := updateMtfState_silent
  begin _ _ := .of_events rfl

theorem Emission.run_silent {e : Emission} (h : e.kind ≠ .serial) (ctx : VmContext) :
    Silent ctx (e.run ctx) := by
  cases e with
  | append kind payload _ => exact ctx.emitEvent_silent h _ _
  | serialByte byte | flushSerialLine => exact absurd rfl h
  | ioChannel phase targetTsc =>
    cases phase with
    | request => exact ctx.emitEvent_silent h _ _
    | response => exact ctx.emitEvent_silent h _ _

instance (A : ActionClass) : Covers (Keeping Silent) A :=
  ⟨fun _ h ctx => .of_events (h ctx)⟩

instance : Emits (Keeping Silent) .inject :=
  ⟨fun _ he => run_silent (he ▸ by decide)⟩

instance : Emits (Keeping Silent) .randomness :=
  ⟨fun _ he => run_silent (he ▸ by decide)⟩

instance : Emits (Keeping Silent) .ioChannel :=
  ⟨fun _ he => run_silent (he ▸ by decide)⟩

instance : Captures (Keeping Silent) :=
  ⟨fun c ctx => Silent.surrounds.run ctx c⟩

instance : Consumes (Keeping Silent) :=
  ⟨fun _ => .of_events rfl⟩

instance (priority := low) {ε α : Type} {m : Program ε VmContext α}
    [h : Built (Framed .nothing (Keeping Silent)) m] : Obeys Silent m :=
  h.mono fun _ hf => hf.1

/-- Flushing the line buffer prints nothing new. -/
instance {ε : Type} : Obeys Silent (emit .flushSerialLine : Program ε VmContext _) :=
  .act fun ctx => ctx.state.events.flushSerialLine_silent

theorem Silent.of_built {ε α : Type} {m : Program ε VmContext α}
    (h : Obeys Silent m) (ctx : VmContext) : Silent ctx (m ctx).2 :=
  h.keeping refl trans ctx

instance : Obeys Silent handleIdle := by
  refine .bind (.act fun ctx => ?_) inferInstance
  obtain ⟨clock, hwake⟩ := ctx.advanceToWake_setClock
  rw [hwake]
  exact .of_events rfl

theorem dispatch_silent {reason : ExitReason} (hio : reason ≠ .ioInstruction)
    (hvmcall : reason ≠ .vmcall) (qual : UInt64) (ctx : VmContext) :
    Silent ctx (dispatch reason qual ctx).2 := by
  refine .of_built ?_ ctx
  unfold dispatch
  split
  all_goals first | contradiction | infer_instance

namespace VmContext

/-- The byte an `OUT` sends to the serial port. -/
def portOutput (ctx : VmContext) (qual : IoQualification) : List UInt8 :=
  if qual.string = false ∧ qual.direction = .out ∧ qual.port = 0x3F8 ∧
      ctx.state.guest.devices.serial.dlab = false then
    [(ctx.state.guest.gprs.rax &&& 0xFF).toUInt8]
  else []

theorem eventSerialByte_prints (byte : UInt8) :
    Prints [byte] ctx.state.events (ctx.eventSerialByte byte).state.events := by
  rw [eventSerialByte]
  split
  · rename_i hoff
    exact .of_disabled (by simpa using hoff) _
  · split
    all_goals exact serialByte_prints _ _ _ _

end VmContext

theorem handleIo_prints (qual : IoQualification) (ctx : VmContext) :
    Prints (ctx.portOutput qual) ctx.state.events (handleIo qual ctx).2.state.events := by
  have hrest : ∀ c : VmContext, Silent c (advanceAndReturn .continue_ c).2 :=
    fun c => .of_built inferInstance c
  by_cases hprints : qual.string = false ∧ qual.direction = .out ∧ qual.port = 0x3F8 ∧
      ctx.state.guest.devices.serial.dlab = false
  · obtain ⟨hstring, hout, hport, hdlab⟩ := hprints
    have hbyte := ctx.eventSerialByte_prints (ctx.state.guest.gprs.rax &&& 0xFF).toUInt8
    rw [portOutput, if_pos ⟨hstring, hout, hport, hdlab⟩]
    unfold handleIo getGuest getClock getConfig emit
    simp only [hstring, hout, Bool.false_eq_true, if_false]
    rw [act_bind, act_bind, act_bind, if_pos ⟨hport, hdlab⟩, act_bind]
    exact hbyte.append_silent (hrest _)
  · rw [portOutput, if_neg hprints]
    unfold handleIo getGuest getClock getConfig
    by_cases hstring : qual.string
    · rw [if_pos hstring]
      exact .refl _
    rw [if_neg hstring, act_bind, act_bind, act_bind]
    rw [Bool.not_eq_true] at hstring
    cases hdir : qual.direction with
    | in_ => exact Silent.of_built inferInstance _
    | out =>
      dsimp only
      rw [if_neg fun h => hprints ⟨hstring, hdir, h⟩]
      exact Silent.of_built inferInstance _

/-! ## The console page -/

theorem copySerialConsoleFromGuest_of_readable {rounds gpa len : Nat} {ctx : VmContext}
    {f : Nat → UInt8} (hrounds : len ≤ rounds)
    (hread : ∀ i < len, ctx.memory.readByte (gpa + i) = some (f i)) :
    copySerialConsoleFromGuest rounds gpa len ctx = (.ok ((List.range len).map f), ctx) := by
  induction rounds generalizing gpa len f with
  | zero =>
    obtain rfl := Nat.le_zero.mp hrounds
    rfl
  | succ rounds ih =>
    unfold copySerialConsoleFromGuest readGuestMemory
    split
    · rename_i hlen
      rw [hlen]
      rfl
    have hchunk : 0 < IO_COPY_CHUNK := by decide
    have hfirst : ctx.memory.readGuestMemory gpa (min len IO_COPY_CHUNK) =
        ((List.range (min len IO_COPY_CHUNK)).map f, .ok ()) :=
      VmMemory.readGuestMemory_of_readByte (by omega) fun i hi => hread i (by omega)
    have hlater := @ih (gpa + IO_COPY_CHUNK) (len - IO_COPY_CHUNK)
      (fun i => f (IO_COPY_CHUNK + i)) (by omega) fun i hi => by
        rw [Nat.add_assoc]
        exact hread _ (by omega)
    have hjoin : (List.range (min len IO_COPY_CHUNK)).map f ++
        (List.range (len - IO_COPY_CHUNK)).map (fun i => f (IO_COPY_CHUNK + i)) =
          (List.range len).map f := by
      rcases Nat.le_total len IO_COPY_CHUNK with hle | hle
      · rw [Nat.min_eq_left hle, Nat.sub_eq_zero_of_le hle]
        exact append_nil _
      obtain ⟨n, rfl⟩ := Nat.exists_eq_add_of_le hle
      rw [Nat.min_eq_right hle, Nat.add_sub_cancel_left, range_add, map_append, map_map]
      rfl
    rw [act_bind, hfirst, bind_ok (check_eq_ok_iff.mpr ⟨rfl, rfl⟩), bind_ok hlater, hjoin]
    rfl

theorem copySerialConsoleFromGuest_of_unreadable {rounds gpa len i : Nat} {ctx : VmContext}
    (hrounds : len ≤ rounds) (hi : i < len) (hread : ctx.memory.readByte (gpa + i) = none) :
    ∃ e, copySerialConsoleFromGuest rounds gpa len ctx = (.error e, ctx) := by
  induction rounds generalizing gpa len i with
  | zero => omega
  | succ rounds ih =>
    unfold copySerialConsoleFromGuest readGuestMemory
    rw [if_neg (by omega), act_bind]
    obtain ⟨hbytes, hcomplete⟩ :=
      ctx.memory.readGuestMemory_bytes gpa (min len IO_COPY_CHUNK)
    cases hok : (ctx.memory.readGuestMemory gpa (min len IO_COPY_CHUNK)).2 with
    | error e => exact ⟨e, rfl⟩
    | ok u =>
      -- the byte lies behind the chunk that was read
      have hlength := hcomplete hok
      have hchunk : 0 < IO_COPY_CHUNK := by decide
      have hlater : IO_COPY_CHUNK ≤ i := by
        by_contra hlt
        have hin : i < (ctx.memory.readGuestMemory gpa (min len IO_COPY_CHUNK)).1.length := by
          omega
        rw [hbytes i hin] at hread
        cases hread
      obtain ⟨e, herr⟩ := @ih (gpa + IO_COPY_CHUNK) (len - IO_COPY_CHUNK)
        (i - IO_COPY_CHUNK) (by omega) (by omega) (by
          rw [Nat.add_assoc, Nat.add_sub_cancel' hlater]
          exact hread)
      refine ⟨e, ?_⟩
      rw [bind_ok (check_eq_ok_iff.mpr ⟨rfl, rfl⟩), bind_error herr]

namespace VmContext

/-- The bytes SERIAL_WRITE takes from the console page, if it succeeds. -/
def pageOutput (ctx : VmContext) : List UInt8 :=
  let g := ctx.state.guest
  let len := min g.gprs.rbx.toNat PAGE_SIZE
  let byte := fun i => ctx.memory.readByte (g.serialConsoleGpa + i)
  if g.serialConsoleGpa ≠ 0 ∧ (∀ i < len, (byte i).isSome = true) ∧
      (vmcallReturn 0 .continue_ ctx).1.isOk = true then
    (List.range len).map fun i => (byte i).getD 0
  else []

theorem emitEvent_prints {ctx : VmContext} (hline : ctx.state.events.serialLine = [])
    (flags : UInt16) (payload : List UInt8) :
    Prints payload ctx.state.events (ctx.emitEvent .serial flags payload).state.events := by
  rw [emitEvent]
  split
  · rename_i hoff
    exact .of_disabled (by simpa using hoff) _
  · exact emit_console (e := ⟨.serial, flags, _, _, payload⟩) _ rfl hline

end VmContext

theorem vmcallSerialWrite_prints :
    Prints ctx.pageOutput ctx.state.events (vmcallSerialWrite ctx).2.state.events := by
  have hfailed : Silent ctx (vmcallReturn VMCALL_FAILED .continue_ ctx).2 :=
    .of_built inferInstance ctx
  have hreturn : Silent ctx (vmcallReturn 0 .continue_ ctx).2 := .of_built inferInstance ctx
  have hprinted : ∀ (bytes : List UInt8) (c : VmContext), Silent ctx c →
      Prints bytes ctx.state.events
        ((c.eventFlushSerialLine).eventAppend .serial bytes).state.events := by
    intro bytes c hc
    have hflush : Silent c c.eventFlushSerialLine := c.state.events.flushSerialLine_silent
    have hline : c.eventFlushSerialLine.state.events.serialLine = [] :=
      c.state.events.flushSerialLine_serialLine
    exact (hc.trans hflush).append (emitEvent_prints hline _ bytes)
  unfold vmcallSerialWrite getGuest pageOutput
  rw [act_bind]
  dsimp only
  by_cases hgpa : ctx.state.guest.serialConsoleGpa = 0
  · rw [if_neg fun h : _ ≠ 0 ∧ _ => h.1 hgpa, if_pos hgpa]
    exact hfailed
  rw [if_neg hgpa]
  by_cases hread : ∀ i < min ctx.state.guest.gprs.rbx.toNat PAGE_SIZE,
      (ctx.memory.readByte (ctx.state.guest.serialConsoleGpa + i)).isSome
  · have hcopied : ∀ i < min ctx.state.guest.gprs.rbx.toNat PAGE_SIZE,
        ctx.memory.readByte (ctx.state.guest.serialConsoleGpa + i) =
          some ((ctx.memory.readByte (ctx.state.guest.serialConsoleGpa + i)).getD 0) := by
      intro i hi
      obtain ⟨byte, hbyte⟩ := Option.isSome_iff_exists.mp (hread i hi)
      rw [hbyte, Option.getD_some]
    rw [handle_ok (copySerialConsoleFromGuest_of_readable (Nat.le_refl _) hcopied)]
    rcases hrun : vmcallReturn 0 .continue_ ctx with ⟨e | r, c⟩
    · rw [hrun] at hreturn
      rw [bind_error hrun, if_neg fun h : _ ∧ _ ∧ _ => Bool.noConfusion h.2.2]
      exact hreturn
    · rw [hrun] at hreturn
      rw [bind_ok hrun, if_pos ⟨hgpa, hread, rfl⟩]
      exact hprinted _ c hreturn
  · rw [if_neg fun h : _ ∧ _ ∧ _ => hread h.2.1]
    push Not at hread
    obtain ⟨i, hi, hnone⟩ := hread
    obtain ⟨e, herr⟩ := copySerialConsoleFromGuest_of_unreadable (Nat.le_refl _) hi
      (Option.not_isSome_iff_eq_none.mp hnone)
    rw [handle_error herr]
    exact hfailed

theorem handleVmcall_prints :
    Prints (if ctx.state.guest.gprs.rax = 9 then ctx.pageOutput else [])
      ctx.state.events (handleVmcall ctx).2.state.events := by
  have hwrite := vmcallSerialWrite_prints ctx
  unfold handleVmcall getGuest
  rw [act_bind]
  dsimp only
  by_cases hrax : ctx.state.guest.gprs.rax = 9
  · rw [if_pos hrax, hrax]
    exact hwrite
  rw [if_neg hrax]
  have hnumber : ctx.state.guest.gprs.rax.toNat ≠ 9 := fun h => hrax (UInt64.toNat_inj.mp h)
  have hshutdown : Obeys Silent vmcallShutdown := by
    unfold vmcallShutdown
    infer_instance
  refine Silent.of_built ?_ ctx
  split
  all_goals first | contradiction | infer_instance

namespace VmContext

/-- What the guest prints at an exit: a byte sent to the serial port, or the bytes of the
console page. -/
def consoleOutput (ctx : VmContext) : List UInt8 :=
  match ctx.exitInfo with
  | .ok (.ioInstruction, qual) => ctx.portOutput (.ofRaw qual)
  | .ok (.vmcall, _) => if ctx.state.guest.gprs.rax = 9 then ctx.pageOutput else []
  | _ => []

theorem pageOutput_beginExit (deterministic : Bool) :
    (ctx.beginExit deterministic).pageOutput = ctx.pageOutput := by
  have hreturn : (vmcallReturn 0 .continue_ (ctx.beginExit deterministic)).1 =
      (vmcallReturn 0 .continue_ ctx).1 := by
    apply vmcallReturn_fst
    rfl
  unfold pageOutput
  rw [hreturn]
  rfl

theorem leave_prints :
    Prints ctx.consoleOutput ctx.state.events ctx.leave.2.state.events := by
  cases hinfo : ctx.exitInfo with
  | error e =>
    rw [consoleOutput, hinfo]
    exact Silent.surrounds.leave_of_error hinfo
  | ok info =>
    obtain ⟨reason, qual⟩ := info
    have hafter := Silent.surrounds.leave_of_dispatch hinfo
    rw [consoleOutput, hinfo]
    let begun := ctx.beginExit (!ctx.state.nonDeterministicExit reason qual)
    split
    · rename_i hcase
      cases hcase
      have hport := handleIo_prints (.ofRaw qual) begun
      rw [← call_state] at hport
      exact hport.append_silent hafter
    · rename_i hcase
      cases hcase
      have hpage := handleVmcall_prints begun
      rw [← call_state, pageOutput_beginExit] at hpage
      exact hpage.append_silent hafter
    · rename_i hio hvmcall
      refine Silent.surrounds.leave_of_handled hinfo fun begun _ => dispatch_silent ?_ ?_ _ _
      · rintro rfl
        exact hio qual rfl
      · rintro rfl
        exact hvmcall qual rfl

theorem injectPendingInterrupt_silent : Silent ctx (injectPendingInterrupt ctx).2 :=
  .of_built inferInstance ctx

theorem startRun_silent : Silent ctx ctx.startRun.2 :=
  Silent.trans (.of_events rfl) ctx.applyInterceptPf.updateMtfState_silent

end VmContext

end Bedrock
