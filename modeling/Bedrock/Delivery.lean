import Bedrock.Stream

/-!
# Delivery of events

What the stream of records looks like to userspace: emissions that fit are read back
exactly, a staged record comes back after the next drain as far as the staging area holds
it, losses are silent, and a small record can overtake a staged one.
-/

namespace Bedrock

open Support EventStream EventRecord StagedLog List Event

namespace EventStream

/-! ## Reading back what fits -/

def AllFit : EventStream → List Event → Prop
  | _, [] => True
  | es, e :: events =>
    (es.accepts e.kind = true → es.fits e.payload.length = true) ∧ AllFit (es.emit e) events

def emitAll (es : EventStream) (events : List Event) : EventStream :=
  events.foldl emit es

theorem emitAll_cons (es : EventStream) (e : Event) (events : List Event) :
    es.emitAll (e :: events) = (es.emit e).emitAll events := rfl

@[simp] theorem accepts_emitAll (es : EventStream) (events : List Event) :
    (es.emitAll events).accepts = es.accepts := by
  induction events generalizing es with
  | nil => rfl
  | cons e events ih => rw [emitAll_cons, ih, accepts_emit]

/-- The events the buffer holds: a staged one that the last drain left, then the new ones,
without those that are filtered out. -/
def written (es : EventStream) (events : List Event) : List Event :=
  (es.staged.toList ++ events).filter fun e => es.accepts e.kind

end EventStream

def keptLog (events : List Event) : StagedLog (Nat × Event) :=
  ⟨events.map (Prod.mk 0), none⟩

theorem keptLog_events (events : List Event) : (keptLog events).kept.map Prod.snd = events := by
  simp [keptLog]

variable {e : Event}

namespace Represents

variable {es : EventStream} {events : List Event} {first : UInt64}

theorem of_clear (es : EventStream) :
    Represents (keptLog (es.staged.toList.filter fun e => es.accepts e.kind)) es.seq es.clear := by
  cases hstaged : es.staged with
  | none =>
    obtain ⟨hbuffer, hseq, hnone, -⟩ := clear_of_free hstaged
    exact ⟨hbuffer, by simpa [keptLog] using hseq, hnone, fun r hr => (by cases hr)⟩
  | some e =>
    by_cases haccepts : es.accepts e.kind
    · obtain ⟨hbuffer, hseq, hnone, -⟩ := clear_of_staged hstaged haccepts
      refine ⟨?_, ?_, hnone, fun r hr => (by cases hr)⟩
      · simpa [keptLog, haccepts, number] using hbuffer
      · simpa [keptLog, haccepts] using hseq
    -- the staged event's category was switched off in the meantime
    have hclear := es.clear_eq.2 e hstaged
    have hfiltered : es.emptied.accepts e.kind = false := by simpa using haccepts
    rw [emit_of_not_accepts hfiltered] at hclear
    rw [hclear]
    refine ⟨?_, ?_, rfl, fun r hr => (by cases hr)⟩
    · simp [keptLog, haccepts, number, EventStream.buffer, EventStream.emptied, window]
    · simp [keptLog, haccepts, EventStream.emptied]

/-- Events that fit are appended one after the other. -/
theorem emitAll (h : Represents (keptLog events) first es) {more : List Event}
    (hfit : es.AllFit more) :
    Represents (keptLog (events ++ more.filter fun e => es.accepts e.kind)) first
      (es.emitAll more) := by
  induction more generalizing es events with
  | nil => simpa [emitAll] using h
  | cons e more ih =>
    obtain ⟨hfirst, hrest⟩ := hfit
    rw [emitAll_cons]
    by_cases haccepts : es.accepts e.kind
    · have hroom : hasRoom (keptLog events).kept (0, e) :=
        (h.fits 0 e).symm.trans (hfirst haccepts)
      have hnext := h.emit haccepts 0
      rw [append, if_pos hroom] at hnext
      have hlog : { keptLog events with kept := (keptLog events).kept ++ [(0, e)] } =
          keptLog (events ++ [e]) := by simp [keptLog]
      rw [hlog] at hnext
      have hdone := ih hnext hrest
      simpa [haccepts] using hdone
    · have hfiltered : es.accepts e.kind = false := by simpa using haccepts
      rw [emit_of_not_accepts hfiltered] at hrest ⊢
      have hdone := ih h hrest
      simpa [haccepts] using hdone

theorem bytes (h : Represents (keptLog events) first es) {k : Nat} (hk : k < es.len) :
    ((number first events).flatMap EventRecord.encode)[k]? = some (es.bytes k) := by
  have hbuffer := h.buffer
  rw [keptLog_events] at hbuffer
  rw [← hbuffer, EventStream.buffer, window_getElem? _ _ hk, Nat.zero_add]

theorem padding (h : Represents (keptLog events) first es) {before after : List Event}
    (hevents : events = before ++ e :: after) {k : Nat} (hle : e.payload.length ≤ k)
    (hlt : k < alignUp8 e.payload.length) :
    es.bytes (totalSize before + EVENT_HEADER_SIZE + k) = 0 := by
  have hlen : es.len = totalSize before + (e.size + totalSize after) := by
    rw [h.len, keptLog_events, hevents]
    simp [totalSize]
  have hsize : EVENT_HEADER_SIZE + k < e.size := by
    unfold Event.size EventRecord.size
    omega
  have hbyte := h.bytes (k := totalSize before + EVENT_HEADER_SIZE + k) (by omega)
  -- the record of `e` starts at offset `totalSize before`
  rw [hevents, number_append, flatMap_append,
    List.getElem?_append_right (by rw [number_encode_length]; omega), number_encode_length, number,
    flatMap_cons, Nat.add_assoc, Nat.add_sub_cancel_left,
    List.getElem?_append_left (by rw [encode_length]; exact hsize)] at hbyte
  have hzero : (e.record (first + .ofNat before.length)).encode[EVENT_HEADER_SIZE + k]? =
      some 0 := encode_padding _ hle hlt
  rw [hzero] at hbyte
  rw [Nat.add_assoc]
  exact (Option.some.inj hbyte).symm

end Represents

/-- Emissions that fit behind the last drain are read back as they were emitted, with
consecutive sequence numbers and nothing after them; the padding is zero. -/
theorem stream_roundtrip (es : EventStream) (events : List Event) (hfit : es.clear.AllFit events) :
    (∀ fuel, (es.written events).length < fuel →
        EventRecord.decodeAll fuel (es.clear.emitAll events).buffer =
          number es.seq (es.written events)) ∧
      (∀ before e after, es.written events = before ++ e :: after →
        ∀ k, e.payload.length ≤ k → k < alignUp8 e.payload.length →
          (es.clear.emitAll events).bytes (totalSize before + EVENT_HEADER_SIZE + k) = 0) ∧
      (es.clear.emitAll events).len = totalSize (es.written events) ∧
      (es.clear.emitAll events).len % 8 = 0 ∧
      (es.clear.emitAll events).len ≤ EVENT_BUFFER_SIZE := by
  have h : Represents (keptLog (es.written events)) es.seq (es.clear.emitAll events) := by
    have hdone := (Represents.of_clear es).emitAll hfit
    rwa [EventStream.accepts_clear, ← List.filter_append] at hdone
  have hlen := h.len
  rw [keptLog_events] at hlen
  have hbuffer := h.buffer
  rw [keptLog_events] at hbuffer
  refine ⟨?_, ?_, hlen, EventStream.len_mod _, EventStream.len_le _⟩
  · intro fuel hfuel
    rw [hbuffer]
    apply EventRecord.decodeAll_encode
    · exact number_payload_lt (hlen ▸ EventStream.len_le _)
    · rwa [number_length]
  · intro before e after hevents k hle hlt
    exact h.padding hevents hle hlt

def openStream : EventStream :=
  { attached := true, categories := 0x3f }

def shortEvents : List Event :=
  [⟨.inject, 1, 100, 7, injectPayload 32 90⟩, ⟨.serial, 1, 120, 8, [104, 105, 10]⟩]

theorem stream_roundtrip_short :
    EventRecord.decodeAll 3 (openStream.clear.emitAll shortEvents).buffer =
      [⟨0, 100, 7, 2, 1, injectPayload 32 90⟩, ⟨1, 120, 8, 1, 1, [104, 105, 10]⟩] :=
  (stream_roundtrip openStream shortEvents
    ⟨fun _ => by decide +kernel, fun _ => by decide +kernel, trivial⟩).1 3 (by decide)

/-! ## The staging area -/

variable {es : EventStream}

namespace EventStream

theorem staged_emitAll (hstaged : es.staged = some e)
    (more : List Event) : (es.emitAll more).staged = some e := by
  induction more generalizing es with
  | nil => exact hstaged
  | cons e' more ih =>
    rw [emitAll_cons]
    apply ih
    rcases es.staged_emit e' with hsame | ⟨-, -, hnone, -⟩
    · exact hsame.trans hstaged
    · rw [hstaged] at hnone
      cases hnone

theorem stream_clear_of_staged (hstaged : es.staged = some e) (haccepts : es.accepts e.kind) :
    stream es.clear.buffer = [e.record es.seq] := by
  obtain ⟨hbuffer, -⟩ := clear_of_staged hstaged haccepts
  have hone : (e.record es.seq).encode = (number es.seq [e]).flatMap encode := by
    simp [number]
  rw [hbuffer, hone]
  apply stream_number
  simpa [totalSize] using staged_size_le hstaged

end EventStream

def fullStream : EventStream :=
  { openStream with len := EVENT_BUFFER_SIZE, len_le := Nat.le_refl _, len_mod := rfl }

def shortLine : Event :=
  ⟨.serial, 1, 120, 8, [104, 105, 10]⟩

namespace EventStream

theorem stream_ne_of_long (haccepts : es.accepts e.kind)
    (hfull : es.fits e.payload.length = false) (hfree : es.pending = none)
    (hlong : IO_CHANNEL_BUF_SIZE < e.payload.length) :
    stream (es.emit e).clear.buffer ≠ [e.record (es.emit e).seq] := by
  obtain ⟨-, -, hstaged, -⟩ := emit_of_full haccepts hfull hfree
  have haccepts' : (es.emit e).accepts e.trim.kind := by
    rw [accepts_emit]
    exact haccepts
  rw [stream_clear_of_staged hstaged haccepts']
  intro h
  have hpayload : (e.payload.take IO_CHANNEL_BUF_SIZE) = e.payload :=
    record_inj (List.cons.inj h).1
  have hlen := length_take_le IO_CHANNEL_BUF_SIZE e.payload
  rw [hpayload] at hlen
  exact absurd hlen (Nat.not_le_of_lt hlong)

theorem emitAll_replicate (hfresh : es.Fresh)
    (haccepts : es.accepts e.kind) {n : Nat} (hroom : n * e.size ≤ EVENT_BUFFER_SIZE) :
    (es.emitAll (List.replicate n e)).len = n * e.size ∧
      (es.emitAll (List.replicate n e)).pending = none := by
  induction n with
  | zero => exact ⟨by simpa [emitAll] using hfresh.len, hfresh.pending⟩
  | succ n ih =>
    have hmul : (n + 1) * e.size = n * e.size + e.size := Nat.succ_mul n e.size
    obtain ⟨hlen, hpending⟩ := ih (by omega)
    have hsplit : es.emitAll (List.replicate (n + 1) e) =
        (es.emitAll (List.replicate n e)).emit e := by
      simp [emitAll, replicate_succ', foldl_append]
    have haccepts' : (es.emitAll (List.replicate n e)).accepts e.kind := by
      rwa [accepts_emitAll]
    have hfits : (es.emitAll (List.replicate n e)).fits e.payload.length := by
      rw [fits_iff, hlen]
      exact hmul ▸ hroom
    obtain ⟨-, -, hstaged, hlen'⟩ := emit_of_fits haccepts' hfits
    rw [hsplit, hlen', hlen, hmul]
    refine ⟨rfl, ?_⟩
    rw [← staged_eq_none_iff, hstaged, staged_eq_none_iff]
    exact hpending

theorem replicate_full (hfresh : es.Fresh)
    (haccepts : es.accepts e.kind) {n : Nat} (hroom : n * e.size ≤ EVENT_BUFFER_SIZE)
    (hfull : EVENT_BUFFER_SIZE < n * e.size + e.size) :
    (es.emitAll (List.replicate n e)).fits e.payload.length = false := by
  rw [Bool.eq_false_iff, Ne, fits_iff, (emitAll_replicate hfresh haccepts hroom).1]
  exact Nat.not_le_of_lt hfull

end EventStream

theorem openStream_fresh : openStream.Fresh :=
  ⟨rfl, rfl, rfl⟩

def longRequest : Event :=
  ⟨.ioChannel, 1, 100, 7, ioChannelPayload .request 100 (List.replicate IO_CHANNEL_BUF_SIZE 65)⟩

theorem longRequest_length : longRequest.payload.length = 4112 := by
  unfold longRequest
  rw [ioChannelPayload_length, length_replicate]
  rfl

theorem longRequest_size : longRequest.size = 4144 := by
  rw [Event.size, longRequest_length]
  rfl

/-- Some record does not carry the next sequence number. -/
def ShowsGap (first : UInt64) (records : List EventRecord) : Prop :=
  ∃ k r, records[k]? = some r ∧ r.seq ≠ first + .ofNat k

theorem not_showsGap_number (first : UInt64) (events : List Event) :
    ¬ShowsGap first (number first events) := by
  rintro ⟨k, r, hr, hseq⟩
  rw [number_getElem?] at hr
  obtain ⟨e, -, rfl⟩ := Option.map_eq_some_iff.mp hr
  exact hseq rfl

variable {ops : List StreamOp}

namespace EventStream

theorem accepted_inOrder (es : EventStream) (ops : List StreamOp) :
    InOrder Prod.fst (contents {} ++ appended (logOps es.accepts 0 ops)) :=
  logOps_inOrder es.accepts 0 ops

/-- With everything drained in the end, each accepted emission is delivered, or the
sequence numbers of what is delivered show a gap. -/
def LossDetectable (es : EventStream) (ops : List StreamOp) : Prop :=
  ∀ i e, (emissions ops)[i]? = some e → es.accepts e.kind = true →
    i ∈ (es.delivered (ops ++ [.drain, .drain])).map Prod.fst ∨
      ShowsGap es.seq ((es.delivered (ops ++ [.drain, .drain])).map Prod.snd)

variable {es : EventStream}

theorem Fresh.not_showsGap (h : es.Fresh) (ops : List StreamOp) :
    ¬ShowsGap es.seq ((es.delivered ops).map Prod.snd) := by
  rw [h.delivered_records]
  exact not_showsGap_number _ _

theorem Fresh.delivered_all_iff (h : es.Fresh) (ops : List StreamOp) :
    (∀ i e, (emissions ops)[i]? = some e → es.accepts e.kind →
        i ∈ (es.delivered (ops ++ [.drain, .drain])).map Prod.fst) ↔ es.NothingDropped ops := by
  have hnodup := (es.accepted_inOrder ops).imp Nat.ne_of_lt
  rw [← h.represents.nothingDropped_iff 0 ops,
    ← delivered_complete_iff trimmed_fst hnodup, h.delivered_positions, logOps_append]
  constructor
  · intro hall x hx
    obtain ⟨r, hr, rfl⟩ := mem_map.mp hx
    obtain ⟨k, hpos, he, haccepts⟩ := mem_appended_logOps.mp hr
    rw [Nat.zero_add] at hpos
    exact hall r.1 r.2 (hpos ▸ he) haccepts
  · intro hall i e he haccepts
    apply hall
    have hmem : (i, e) ∈ appended (logOps es.accepts 0 ops) :=
      mem_appended_logOps.mpr ⟨i, (Nat.zero_add i).symm, he, haccepts⟩
    exact mem_map_of_mem hmem

theorem Fresh.nothingDropped (h : es.Fresh)
    (hdetectable : es.LossDetectable ops) : es.NothingDropped ops := by
  rw [← h.delivered_all_iff ops]
  intro i e he haccepts
  rcases hdetectable i e he haccepts with hdelivered | hgap
  · exact hdelivered
  · exact absurd hgap (h.not_showsGap _)

theorem NothingDropped.after_emitAll {events : List Event}
 (h : es.NothingDropped (events.map .emit ++ ops)) :
    (es.emitAll events).NothingDropped ops := by
  induction events generalizing es with
  | nil => exact h
  | cons e events ih => exact ih h.2

end EventStream

def exitEvent : Event :=
  ⟨.exit, 1, 200, 9, List.replicate 512 0⟩

theorem exitEvent_size : exitEvent.size = 544 := by
  unfold exitEvent Event.size
  rw [length_replicate]
  rfl

theorem exits_staged :
    ((openStream.emitAll (List.replicate 1927 exitEvent)).emit exitEvent).len = 1927 * 544 ∧
      ((openStream.emitAll (List.replicate 1927 exitEvent)).emit exitEvent).pending ≠ none := by
  have haccepts : openStream.accepts exitEvent.kind := by decide
  have hroom : 1927 * exitEvent.size ≤ EVENT_BUFFER_SIZE := by
    rw [exitEvent_size]
    decide
  have hnext : EVENT_BUFFER_SIZE < 1927 * exitEvent.size + exitEvent.size := by
    rw [exitEvent_size]
    decide
  have hfull := replicate_full openStream_fresh haccepts hroom hnext
  obtain ⟨hlen, hpending⟩ := emitAll_replicate openStream_fresh haccepts hroom
  have haccepts' :
      (openStream.emitAll (List.replicate 1927 exitEvent)).accepts exitEvent.kind := by
    rw [accepts_emitAll]
    exact haccepts
  obtain ⟨-, -, hstaged, hsame⟩ := emit_of_full haccepts' hfull hpending
  refine ⟨by rw [hsame, hlen, exitEvent_size], ?_⟩
  rw [Ne, ← staged_eq_none_iff, hstaged]
  simp

namespace EventStream

def InOrder (es : EventStream) (ops : List StreamOp) : Prop :=
  ((es.delivered ops).map Prod.fst).Pairwise (· < ·)

theorem Fresh.noOvertaking (h : es.Fresh) (horder : es.InOrder ops) : es.NoOvertaking ops := by
  rw [InOrder, h.delivered_positions] at horder
  rw [← h.represents.noOvertaking_iff 0 ops]
  exact (delivered_inOrder_iff trimmed_fst (es.accepted_inOrder ops)).mp horder

theorem NoOvertaking.after_emitAll {events : List Event}
 (h : es.NoOvertaking (events.map .emit ++ ops)) :
    (es.emitAll events).NoOvertaking ops := by
  induction events generalizing es with
  | nil => exact h
  | cons e events ih => exact ih h.2

end EventStream

/-- Records are delivered in the order of their emission exactly when no record is appended
past a staged one and both are delivered. -/
theorem delivered_in_order_iff {es : EventStream} (hfresh : es.Fresh) (ops : List StreamOp) :
    es.InOrder ops ↔ es.NoOvertaking ops := by
  constructor
  · exact hfresh.noOvertaking
  intro h
  rw [← hfresh.represents.noOvertaking_iff 0 ops] at h
  rw [EventStream.InOrder, hfresh.delivered_positions]
  exact (StagedLog.delivered_inOrder_iff trimmed_fst (es.accepted_inOrder ops)).mpr h

theorem delivered_in_order_short :
    openStream.InOrder [.emit shortLine, .drain, .emit shortLine, .drain] :=
  (delivered_in_order_iff openStream_fresh _).mpr
    ⟨fun _ _ _ => rfl, fun _ _ h => absurd h (by decide), trivial⟩

/-- An exit record that finds the buffer full is overtaken by a console line. -/
theorem line_overtakes_exit :
    ¬openStream.InOrder ((List.replicate 1927 exitEvent).map .emit ++
      [.emit exitEvent, .emit shortLine, .drain, .drain]) := by
  intro h
  obtain ⟨-, hline, -⟩ := (openStream_fresh.noOvertaking h).after_emitAll
  obtain ⟨hlen, htaken⟩ := exits_staged
  refine htaken (hline ?_ ?_ (by decide))
  · rw [EventStream.accepts_emit, EventStream.accepts_emitAll]
    decide
  · rw [EventStream.fits_iff, hlen]
    decide

end Bedrock
