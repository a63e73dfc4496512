import Bedrock.Events
import Bedrock.Support.StagedLog

/-!
# What userspace reads from the event stream

Emissions and drains in any order, from a buffer that was just attached.  The buffer
and its staging area refine a staged log of events, `Represents`, so what the drains
deliver follows from what the log delivers.  For each delivered record `deliveries` also
gives the emission it comes from.
-/

namespace Bedrock

open Support EventRecord List Option StagedLog

/-- What an emitter hands to `event_write`. -/
structure Event where
  kind : EventKind
  flags : UInt16
  tsc : UInt64
  realTsc : UInt64
  payload : List UInt8
  deriving DecidableEq

namespace Event

def record (e : Event) (seq : UInt64) : EventRecord :=
  ⟨seq, e.tsc, e.realTsc, e.kind.asU16, e.flags, e.payload⟩

def size (e : Event) : Nat :=
  EventRecord.size e.payload.length

def trim (e : Event) : Event :=
  { e with payload := e.payload.take IO_CHANNEL_BUF_SIZE }

theorem trim_eq_self_iff (e : Event) : e.trim = e ↔ e.payload.length ≤ IO_CHANNEL_BUF_SIZE := by
  constructor
  · intro h
    have hpayload : e.payload.take IO_CHANNEL_BUF_SIZE = e.payload := congrArg payload h
    rw [← hpayload]
    exact length_take_le _ _
  · intro h
    unfold trim
    rw [take_of_length_le h]

theorem record_inj {e e' : Event} {seq seq' : UInt64} (h : e.record seq = e'.record seq') :
    e.payload = e'.payload :=
  congrArg EventRecord.payload h

end Event

def number : UInt64 → List Event → List EventRecord
  | _, [] => []
  | seq, e :: events => e.record seq :: number (seq + 1) events

variable (seq : UInt64)

theorem number_append (events more : List Event) :
    number seq (events ++ more) = number seq events ++ number (seq + .ofNat events.length) more := by
  induction events generalizing seq with
  | nil => simp [number]
  | cons e events ih =>
    have hseq : seq + 1 + UInt64.ofNat events.length = seq + UInt64.ofNat (events.length + 1) := by
      rw [UInt64.add_assoc, UInt64.ofNat_add, UInt64.add_comm 1]
      rfl
    simp only [cons_append, number, ih, hseq, length_cons]

@[simp] theorem number_length (events : List Event) :
    (number seq events).length = events.length := by
  induction events generalizing seq with
  | nil => rfl
  | cons e events ih => simp [number, ih]

theorem number_getElem? (events : List Event) (k : Nat) :
    (number seq events)[k]? = events[k]?.map (·.record (seq + .ofNat k)) := by
  induction events generalizing seq k with
  | nil => rfl
  | cons e events ih =>
    cases k with
    | zero => simp [number]
    | succ k =>
      have hseq : seq + 1 + UInt64.ofNat k = seq + UInt64.ofNat (k + 1) := by
        rw [UInt64.add_assoc, UInt64.ofNat_add, UInt64.add_comm 1]
        rfl
      simp [number, ih, hseq]

def totalSize (events : List Event) : Nat :=
  (events.map Event.size).sum

theorem number_encode_length (events : List Event) :
    ((number seq events).flatMap EventRecord.encode).length = totalSize events := by
  induction events generalizing seq with
  | nil => rfl
  | cons e events ih =>
    rw [number, flatMap_cons, length_append, ih, encode_length]
    simp [totalSize, Event.size, Event.record]

/-! ## Emissions and drains -/

namespace EventStream

def accepts (es : EventStream) (kind : EventKind) : Bool :=
  es.attached && es.enabled kind

/-- `event_write` of one event. -/
def emit (es : EventStream) (e : Event) : EventStream :=
  (es.write e.kind e.flags e.tsc e.realTsc e.payload).2

def staged (es : EventStream) : Option Event :=
  es.pending.map fun kind =>
    ⟨kind, es.pendingFlags, es.pendingTsc, es.pendingRealTsc, es.pendingBuf⟩

theorem staged_eq_none_iff (es : EventStream) : es.staged = none ↔ es.pending = none := by
  simp [staged]

theorem buffer_length (es : EventStream) : es.buffer.length = es.len := by
  simp [buffer]

variable {es : EventStream} {e : Event}

/-- An event that is filtered out leaves the stream as it is. -/
theorem emit_of_not_accepts (h : es.accepts e.kind = false) : es.emit e = es := by
  unfold emit write
  simp only [accepts, Bool.and_eq_false_iff] at h
  rcases h with h | h
  · by_cases henabled : es.enabled e.kind
    · simp [henabled, h]
    · simp [henabled]
  · simp [h]

/-- An event for which there is room is appended. -/
theorem emit_of_fits (haccepts : es.accepts e.kind) (hfits : es.fits e.payload.length) :
    (es.emit e).buffer = es.buffer ++ (e.record es.seq).encode ∧
      (es.emit e).seq = es.seq + 1 ∧ (es.emit e).staged = es.staged ∧
      (es.emit e).len = es.len + e.size := by
  obtain ⟨hattached, henabled⟩ := Bool.and_eq_true_iff.mp haccepts
  have hlen : (e.record es.seq).encode.length = EventRecord.size e.payload.length :=
    encode_length _
  have hrecord : es.record e.kind e.flags e.tsc e.realTsc e.payload = e.record es.seq := rfl
  unfold emit write
  rw [if_neg (by simp [henabled]), if_neg (by simp [hattached]), dif_pos hfits]
  refine ⟨?_, rfl, rfl, rfl⟩
  simp only [buffer, hrecord, ← hlen]
  exact window_splice_append _ _ _

/-- An event without room goes to a free staging area, as far as it fits there. -/
theorem emit_of_full (haccepts : es.accepts e.kind)
    (hfull : es.fits e.payload.length = false) (hfree : es.pending = none) :
    (es.emit e).buffer = es.buffer ∧ (es.emit e).seq = es.seq ∧
      (es.emit e).staged = some e.trim ∧ (es.emit e).len = es.len := by
  obtain ⟨hattached, henabled⟩ := Bool.and_eq_true_iff.mp haccepts
  unfold emit write
  rw [if_neg (by simp [henabled]), if_neg (by simp [hattached]), dif_neg (by simp [hfull]),
    if_pos (by simp [hfree])]
  refine ⟨rfl, rfl, ?_, rfl⟩
  simp only [staged, pendingBuf, map_some, Event.trim, window_splice]

/-- It is dropped if the staging area is taken. -/
theorem emit_of_taken (hfull : es.fits e.payload.length = false) (htaken : es.pending ≠ none) :
    es.emit e = es := by
  have hsome : es.pending.isNone = false := by
    cases hp : es.pending with
    | none => exact absurd hp htaken
    | some kind => rfl
  unfold emit write
  rw [dif_neg (by simp [hfull]), hsome]
  split_ifs <;> trivial

/-- An event is dropped, appended or staged. -/
theorem emit_cases (es : EventStream) (e : Event) :
    es.emit e = es ∨ (es.accepts e.kind ∧ es.fits e.payload.length) ∨
      (es.accepts e.kind ∧ es.fits e.payload.length = false ∧ es.pending = none) := by
  cases haccepts : es.accepts e.kind with
  | false => exact .inl (emit_of_not_accepts haccepts)
  | true =>
    cases hfits : es.fits e.payload.length with
    | true => exact .inr (.inl ⟨rfl, rfl⟩)
    | false =>
      by_cases hfree : es.pending = none
      · exact .inr (.inr ⟨rfl, rfl, hfree⟩)
      · exact .inl (emit_of_taken hfits hfree)

theorem staged_emit (es : EventStream) (e : Event) :
    (es.emit e).staged = es.staged ∨
      (es.accepts e.kind ∧ es.fits e.payload.length = false ∧ es.staged = none ∧
        (es.emit e).staged = some e.trim) := by
  rcases es.emit_cases e with hsame | ⟨haccepts, hfits⟩ | ⟨haccepts, hfull, hfree⟩
  · exact .inl (by rw [hsame])
  · exact .inl (emit_of_fits haccepts hfits).2.2.1
  · exact .inr ⟨haccepts, hfull, (staged_eq_none_iff es).mpr hfree,
      (emit_of_full haccepts hfull hfree).2.2.1⟩

@[simp] theorem emit_attached (es : EventStream) (e : Event) :
    (es.emit e).attached = es.attached := by
  unfold emit write
  split_ifs <;> rfl

@[simp] theorem emit_categories (es : EventStream) (e : Event) :
    (es.emit e).categories = es.categories := by
  unfold emit write
  split_ifs <;> rfl

@[simp] theorem accepts_emit (es : EventStream) (e : Event) : (es.emit e).accepts = es.accepts := by
  funext kind
  simp [accepts, enabled]

def emptied (es : EventStream) : EventStream :=
  { es with len := 0, pending := none, len_le := Nat.zero_le _, len_mod := zero_aligned }

@[simp] theorem accepts_emptied (es : EventStream) : es.emptied.accepts = es.accepts := rfl

@[simp] theorem emptied_buffer (es : EventStream) : es.emptied.buffer = [] := rfl

@[simp] theorem emit_pendingExitLoc (es : EventStream) (e : Event) :
    (es.emit e).pendingExitLoc = es.pendingExitLoc := by
  unfold emit write
  split_ifs <;> rfl

/-- Where the deferred exit record is once the staged event `e` was emitted again. -/
def relocated (es : EventStream) (e : Event) : Option ExitLoc :=
  if e.kind = .exit ∧ es.pendingExitLoc = some .pending then
    some (.buffer (es.emptied.emit e).lenAtLastRecord)
  else es.pendingExitLoc

/-- `event_clear` empties the buffer and emits the staged event again. -/
theorem clear_eq (es : EventStream) :
    (es.staged = none → es.clear = es.emptied) ∧ ∀ e, es.staged = some e → es.clear =
        { es.emptied.emit e with
          pendingExitLoc := es.relocated e, pendingLen := 0, pendingLen_le := Nat.zero_le _ } := by
  unfold clear staged
  cases hp : es.pending with
  | none =>
    refine ⟨fun _ => ?_, fun e h => (by cases h)⟩
    unfold emptied
    rfl
  | some kind =>
    refine ⟨fun h => (by cases h), fun e h => ?_⟩
    have hloc : (es.emptied.emit e).pendingExitLoc = es.pendingExitLoc := emit_pendingExitLoc _ _
    let forget (es : EventStream) : EventStream :=
      { es with pendingLen := 0, pendingLen_le := Nat.zero_le _ }
    obtain rfl := Option.some.inj h
    unfold relocated
    by_cases hmoves : kind = .exit ∧ es.pendingExitLoc = some .pending
    · rw [if_pos hmoves]
      exact congrArg forget (if_pos ⟨hmoves.1, hloc.trans hmoves.2⟩)
    have hsame : ∀ (x : EventStream) (loc : Option ExitLoc), x.pendingExitLoc = loc →
        forget x = { x with
          pendingExitLoc := loc, pendingLen := 0, pendingLen_le := Nat.zero_le _ } := by
      rintro x loc rfl
      rfl
    rw [if_neg hmoves]
    exact (congrArg forget (if_neg fun h => hmoves ⟨h.1, hloc.symm.trans h.2⟩)).trans
      (hsame _ _ hloc)

theorem clear_config (es : EventStream) :
    es.clear.attached = es.attached ∧ es.clear.categories = es.categories := by
  cases hstaged : es.staged with
  | none =>
    rw [es.clear_eq.1 hstaged]
    exact ⟨rfl, rfl⟩
  | some e =>
    rw [es.clear_eq.2 e hstaged]
    exact ⟨emit_attached _ _, emit_categories _ _⟩

@[simp] theorem accepts_clear (es : EventStream) : es.clear.accepts = es.accepts := by
  funext kind
  simp [accepts, enabled, es.clear_config]

theorem clear_of_free (hfree : es.staged = none) :
    es.clear.buffer = [] ∧ es.clear.seq = es.seq ∧ es.clear.staged = none ∧ es.clear.len = 0 := by
  rw [es.clear_eq.1 hfree]
  exact ⟨rfl, rfl, rfl, rfl⟩

theorem staged_length_le (hstaged : es.staged = some e) :
    e.payload.length ≤ IO_CHANNEL_BUF_SIZE := by
  unfold staged at hstaged
  obtain ⟨kind, -, rfl⟩ := map_eq_some_iff.mp hstaged
  simpa [pendingBuf] using es.pendingLen_le

theorem staged_size_le (hstaged : es.staged = some e) : e.size ≤ EVENT_BUFFER_SIZE := by
  have hlen := staged_length_le hstaged
  simp only [Event.size, EventRecord.size, EVENT_BUFFER_SIZE, EVENT_HEADER_SIZE, alignUp8,
    IO_CHANNEL_BUF_SIZE] at hlen ⊢
  omega

theorem emptied_fits_of_staged (hstaged : es.staged = some e) :
    es.emptied.fits e.payload.length := by
  rw [fits_iff]
  simpa [emptied, Event.size] using staged_size_le hstaged

theorem clear_of_staged (hstaged : es.staged = some e) (haccepts : es.accepts e.kind) :
    es.clear.buffer = (e.record es.seq).encode ∧ es.clear.seq = es.seq + 1 ∧
      es.clear.staged = none ∧ es.clear.len = e.size := by
  have hfits := emptied_fits_of_staged hstaged
  have haccepts' : es.emptied.accepts e.kind := haccepts
  obtain ⟨hbuffer, hseq, hfree, hlen⟩ := emit_of_fits haccepts' hfits
  rw [es.clear_eq.2 e hstaged]
  refine ⟨hbuffer, hseq, ?_, hlen.trans (Nat.zero_add _)⟩
  have hpending := (staged_eq_none_iff _).mp (hfree.trans rfl)
  exact (staged_eq_none_iff _).mpr hpending

end EventStream

/-! ## The staged log behind the stream -/

variable {events : List Event}

theorem payload_length_le_totalSize {e : Event} (h : e ∈ events) :
    e.payload.length ≤ totalSize events := by
  obtain ⟨before, after, rfl⟩ := append_of_mem h
  have hsize : e.size ≤ totalSize (before ++ e :: after) := by
    simp only [totalSize, map_append, map_cons, sum_append, sum_cons]
    omega
  have hpayload : e.payload.length ≤ e.size := by
    have := le_alignUp8 e.payload.length
    unfold Event.size EventRecord.size
    omega
  exact hpayload.trans hsize

theorem number_payload_lt {seq : UInt64} (hsize : totalSize events ≤ EVENT_BUFFER_SIZE) :
    ∀ r ∈ number seq events, r.payload.length < 2 ^ 32 := by
  intro r hr
  obtain ⟨k, hk⟩ := mem_iff_getElem?.mp hr
  rw [number_getElem?] at hk
  obtain ⟨e, he, rfl⟩ := map_eq_some_iff.mp hk
  have hlen := payload_length_le_totalSize (mem_of_getElem? he)
  have hbuffer : EVENT_BUFFER_SIZE < 2 ^ 32 := by decide
  exact (hlen.trans hsize).trans_lt hbuffer

theorem stream_number {seq : UInt64} (hsize : totalSize events ≤ EVENT_BUFFER_SIZE) :
    stream ((number seq events).flatMap encode) = number seq events :=
  stream_encode (number_payload_lt hsize)

/-- Whether an event still fits behind others; events carry their position among all
emissions. -/
def hasRoom (kept : List (Nat × Event)) (r : Nat × Event) : Bool :=
  totalSize (kept.map Prod.snd) + r.2.size ≤ EVENT_BUFFER_SIZE

def trimmed (r : Nat × Event) : Nat × Event :=
  (r.1, r.2.trim)

/-- The stream holds the records of a log, numbered from `first`. -/
structure Represents (log : StagedLog (Nat × Event)) (first : UInt64) (es : EventStream) :
    Prop where
  buffer : es.buffer = (number first (log.kept.map Prod.snd)).flatMap encode
  seq : es.seq = first + .ofNat log.kept.length
  staged : es.staged = log.staged.map Prod.snd
  accepted : ∀ r, log.staged = some r → es.accepts r.2.kind = true

namespace Represents

variable {log : StagedLog (Nat × Event)} {first : UInt64} {es : EventStream}

theorem len (h : Represents log first es) : es.len = totalSize (log.kept.map Prod.snd) := by
  rw [← es.buffer_length, h.buffer, number_encode_length]

theorem fits (h : Represents log first es) (i : Nat) (e : Event) :
    es.fits e.payload.length = hasRoom log.kept (i, e) := by
  unfold EventStream.fits hasRoom Event.size
  rw [h.len]

theorem pending (h : Represents log first es) : es.pending = none ↔ log.staged = none := by
  rw [← es.staged_eq_none_iff, h.staged, map_eq_none_iff]

theorem stream (h : Represents log first es) :
    stream es.buffer = number first (log.kept.map Prod.snd) := by
  rw [h.buffer]
  apply stream_number
  rw [← h.len]
  exact es.len_le

/-- Emitting is appending to the log. -/
theorem emit (h : Represents log first es) {e : Event} (haccepts : es.accepts e.kind)
    (i : Nat) : Represents (log.append hasRoom trimmed (i, e)) first (es.emit e) := by
  rcases append_cases hasRoom trimmed log (i, e) with
    ⟨hroom, heq⟩ | ⟨hroom, hstaged, heq⟩ | ⟨hroom, hstaged, heq⟩
  · rw [← h.fits] at hroom
    obtain ⟨hbuffer, hseq, hsame, -⟩ := EventStream.emit_of_fits haccepts hroom
    rw [heq]
    constructor
    · have hlast : number (first + .ofNat (log.kept.map Prod.snd).length) [e] =
          [e.record es.seq] := by
        rw [h.seq, length_map]
        rfl
      simp only [map_append, map_cons, map_nil, number_append, hlast,
        flatMap_append, flatMap_cons, flatMap_nil, append_nil]
      rw [hbuffer, h.buffer]
    · rw [hseq, h.seq, length_append, length_singleton, UInt64.ofNat_add, UInt64.add_assoc]
      rfl
    · exact hsame.trans h.staged
    · intro r hr
      rw [EventStream.accepts_emit]
      exact h.accepted r hr
  · rw [← h.fits] at hroom
    obtain ⟨hbuffer, hseq, hnew, -⟩ :=
      EventStream.emit_of_full haccepts hroom (h.pending.mpr hstaged)
    rw [heq]
    constructor
    · exact hbuffer.trans h.buffer
    · exact hseq.trans h.seq
    · exact hnew
    intro r hr
    obtain rfl := Option.some.inj hr
    rw [EventStream.accepts_emit]
    exact haccepts
  · rw [← h.fits] at hroom
    have htaken : es.pending ≠ none := fun hp => hstaged (h.pending.mp hp)
    rw [heq, EventStream.emit_of_taken hroom htaken]
    exact h

/-- Draining the stream drains the log. -/
theorem clear (h : Represents log first es) : Represents log.drain es.seq es.clear := by
  cases hstaged : log.staged with
  | none =>
    have hfree : es.staged = none := by rw [h.staged, hstaged, map_none]
    obtain ⟨hbuffer, hseq, hnone, -⟩ := EventStream.clear_of_free hfree
    constructor
    · simpa [drain, hstaged, number] using hbuffer
    · simpa [drain, hstaged] using hseq
    · exact hnone
    · intro r hr
      cases hr
  | some r =>
    have htaken : es.staged = some r.2 := by rw [h.staged, hstaged, map_some]
    obtain ⟨hbuffer, hseq, hnone, -⟩ := EventStream.clear_of_staged htaken (h.accepted r hstaged)
    constructor
    · simpa [drain, hstaged, number] using hbuffer
    · simpa [drain, hstaged] using hseq
    · exact hnone
    · intro r hr
      cases hr

end Represents

/-! ## Runs of the stream -/

inductive StreamOp
  | emit (e : Event)
  | drain

def emissions : List StreamOp → List Event
  | [] => []
  | .emit e :: ops => e :: emissions ops
  | .drain :: ops => emissions ops

def drainCount : List StreamOp → Nat
  | [] => 0
  | .emit _ :: ops => drainCount ops
  | .drain :: ops => drainCount ops + 1

namespace EventStream

/-- A buffer that was just attached. -/
structure Fresh (es : EventStream) : Prop where
  attached : es.attached = true
  len : es.len = 0
  pending : es.pending = none

/-- Which emissions stand in the buffer and in the staging area after emission `i`. -/
def track (es : EventStream) (origins : StagedLog Nat) (i : Nat) (e : Event) : StagedLog Nat :=
  if !es.accepts e.kind then origins
  else if es.fits e.payload.length then { origins with kept := origins.kept ++ [i] }
  else if es.pending.isNone then { origins with staged := some i }
  else origins

/-- The records that the drains deliver, each with the position of the emission it comes
from; `i` is the position of the next emission. -/
def deliveries (es : EventStream) (origins : StagedLog Nat) (i : Nat) :
    List StreamOp → List (Nat × EventRecord)
  | [] => []
  | .emit e :: ops => deliveries (es.emit e) (es.track origins i e) (i + 1) ops
  | .drain :: ops =>
    origins.kept.zip (stream es.buffer) ++ deliveries es.clear origins.drain i ops

/-- What the drains deliver from a buffer that was just attached. -/
def delivered (es : EventStream) (ops : List StreamOp) : List (Nat × EventRecord) :=
  es.deliveries {} 0 ops

end EventStream

/-- The operations on the log behind the stream; filtered events do not reach it. -/
def logOps (accepts : EventKind → Bool) (i : Nat) : List StreamOp → List (LogOp (Nat × Event))
  | [] => []
  | .emit e :: ops =>
    if accepts e.kind then .append (i, e) :: logOps accepts (i + 1) ops
    else logOps accepts (i + 1) ops
  | .drain :: ops => .drain :: logOps accepts i ops

namespace Represents

variable {log : StagedLog (Nat × Event)} {first : UInt64} {es : EventStream}

def positions (log : StagedLog (Nat × Event)) : StagedLog Nat :=
  ⟨log.kept.map Prod.fst, log.staged.map Prod.fst⟩

theorem positions_drain (log : StagedLog (Nat × Event)) :
    (positions log).drain = positions log.drain := by
  cases hstaged : log.staged <;> simp [positions, drain, hstaged]

theorem track (h : Represents log first es) (i : Nat) {e : Event} (haccepts : es.accepts e.kind) :
    es.track (positions log) i e = positions (log.append hasRoom trimmed (i, e)) := by
  unfold EventStream.track
  rw [if_neg (by simp [haccepts]), h.fits i e]
  rcases append_cases hasRoom trimmed log (i, e) with
    ⟨hroom, heq⟩ | ⟨hroom, hstaged, heq⟩ | ⟨hroom, hstaged, heq⟩
  · rw [heq, if_pos hroom]
    simp [positions]
  · have hfree : es.pending = none := h.pending.mpr hstaged
    rw [heq, if_neg (by simp [hroom]), if_pos (by simp [hfree])]
    rfl
  · have htaken : es.pending ≠ none := fun hp => hstaged (h.pending.mp hp)
    rw [heq, if_neg (by simp [hroom]), if_neg (by simpa using htaken)]

def numbered (first : UInt64) (rs : List (Nat × Event)) : List (Nat × EventRecord) :=
  (rs.map Prod.fst).zip (number first (rs.map Prod.snd))

theorem numbered_append (first : UInt64) (rs more : List (Nat × Event)) :
    numbered first (rs ++ more) =
      numbered first rs ++ numbered (first + .ofNat rs.length) more := by
  unfold numbered
  rw [map_append, map_append, number_append, length_map]
  exact zip_append (by simp)

/-- The stream delivers what the log delivers, in the same order and numbered without
gaps. -/
theorem deliveries (h : Represents log first es) (i : Nat) (ops : List StreamOp) :
    es.deliveries (positions log) i ops =
      numbered first (log.delivered hasRoom trimmed (logOps es.accepts i ops)) := by
  induction ops generalizing log first es i with
  | nil => rfl
  | cons op ops ih =>
    cases op with
    | emit e =>
      rw [EventStream.deliveries, logOps]
      by_cases haccepts : es.accepts e.kind
      · rw [h.track i haccepts, ih (h.emit haccepts i), if_pos haccepts, EventStream.accepts_emit]
        rfl
      have hfiltered : es.accepts e.kind = false := by simpa using haccepts
      have hsame : es.track (positions log) i e = positions log := by
        simp [EventStream.track, hfiltered]
      rw [EventStream.emit_of_not_accepts hfiltered, hsame, ih h, if_neg haccepts]
    | drain =>
      rw [EventStream.deliveries, h.stream, positions_drain, ih h.clear,
        EventStream.accepts_clear, logOps, delivered, numbered_append, h.seq]
      rfl

end Represents

/-! ## Loss and order -/

namespace EventStream

/-- Every accepted event finds room or a free staging area. -/
def NothingDropped : EventStream → List StreamOp → Prop
  | _, [] => True
  | es, .emit e :: ops =>
    (es.accepts e.kind = true → es.fits e.payload.length = true ∨ es.pending = none) ∧
      NothingDropped (es.emit e) ops
  | es, .drain :: ops => NothingDropped es.clear ops

/-- No event is appended while another one is staged and two drains are still to come,
the first to deliver the appended event and the second to deliver the staged one. -/
def NoOvertaking : EventStream → List StreamOp → Prop
  | _, [] => True
  | es, .emit e :: ops =>
    (es.accepts e.kind = true → es.fits e.payload.length = true → 2 ≤ drainCount ops →
      es.pending = none) ∧ NoOvertaking (es.emit e) ops
  | es, .drain :: ops => NoOvertaking es.clear ops

end EventStream

variable (accepts : EventKind → Bool)

theorem drains_logOps (i : Nat) (ops : List StreamOp) :
    drains (logOps accepts i ops) = drainCount ops := by
  induction ops generalizing i with
  | nil => rfl
  | cons op ops ih =>
    cases op with
    | emit e =>
      rw [logOps]
      split_ifs
      all_goals exact ih _
    | drain => exact congrArg (· + 1) (ih i)

theorem logOps_append (i : Nat) (ops : List StreamOp) :
    logOps accepts i (ops ++ [.drain, .drain]) = logOps accepts i ops ++ [.drain, .drain] := by
  induction ops generalizing i with
  | nil => rfl
  | cons op ops ih =>
    cases op with
    | emit e =>
      rw [cons_append, logOps, logOps, ih]
      split_ifs <;> rfl
    | drain => exact congrArg (LogOp.drain :: ·) (ih i)

theorem mem_appended_logOps {accepts : EventKind → Bool} {i : Nat} {ops : List StreamOp}
    {r : Nat × Event} :
    r ∈ appended (logOps accepts i ops) ↔
      ∃ k, r.1 = i + k ∧ (emissions ops)[k]? = some r.2 ∧ accepts r.2.kind := by
  induction ops generalizing i with
  | nil => simp [logOps, appended, emissions]
  | cons op ops ih =>
    cases op with
    | emit e =>
      have hrest : r ∈ appended (logOps accepts (i + 1) ops) ↔
          ∃ k, r.1 = i + (k + 1) ∧ (emissions ops)[k]? = some r.2 ∧ accepts r.2.kind := by
        rw [ih]
        simp only [Nat.add_assoc, Nat.add_comm 1]
      have hfirst : r ∈ appended (logOps accepts i (.emit e :: ops)) ↔
          (r = (i, e) ∧ accepts e.kind) ∨ r ∈ appended (logOps accepts (i + 1) ops) := by
        rw [logOps]
        split_ifs with haccepts
        · simp [appended, haccepts]
        · simp [haccepts]
      rw [hfirst, hrest, emissions]
      constructor
      · rintro (⟨rfl, haccepts⟩ | ⟨k, hk⟩)
        · exact ⟨0, rfl, rfl, haccepts⟩
        · exact ⟨k + 1, hk⟩
      rintro ⟨k, hpos, hevent, haccepts⟩
      cases k with
      | zero =>
        obtain rfl : e = r.2 := Option.some.inj hevent
        exact .inl ⟨Prod.ext hpos rfl, haccepts⟩
      | succ k => exact .inr ⟨k, hpos, hevent, haccepts⟩
    | drain => exact ih

theorem logOps_inOrder (i : Nat) (ops : List StreamOp) :
    InOrder Prod.fst (appended (logOps accepts i ops)) := by
  induction ops generalizing i with
  | nil => exact List.Pairwise.nil
  | cons op ops ih =>
    cases op with
    | emit e =>
      rw [logOps]
      split_ifs
      · refine List.Pairwise.cons ?_ (ih (i + 1))
        intro x hx
        obtain ⟨r, hr, rfl⟩ := mem_map.mp hx
        obtain ⟨k, hk, -⟩ := mem_appended_logOps.mp hr
        rw [hk]
        omega
      · exact ih (i + 1)
    | drain => exact ih i

theorem trimmed_fst (r : Nat × Event) : (trimmed r).1 = r.1 := rfl

namespace Represents

variable {log : StagedLog (Nat × Event)} {first : UInt64} {es : EventStream}

theorem nothingDropped_iff (h : Represents log first es) (i : Nat) (ops : List StreamOp) :
    log.NothingDropped hasRoom trimmed (logOps es.accepts i ops) ↔ es.NothingDropped ops := by
  induction ops generalizing log first es i with
  | nil => exact Iff.rfl
  | cons op ops ih =>
    cases op with
    | emit e =>
      rw [logOps, EventStream.NothingDropped]
      by_cases haccepts : es.accepts e.kind
      · rw [if_pos haccepts, NothingDropped, ← h.fits, ← h.pending,
          ← ih (h.emit haccepts i) (i + 1), EventStream.accepts_emit]
        simp [haccepts]
      · have hfiltered : es.accepts e.kind = false := by simpa using haccepts
        rw [if_neg haccepts, EventStream.emit_of_not_accepts hfiltered, ih h]
        simp [haccepts]
    | drain =>
      rw [EventStream.NothingDropped, ← ih h.clear i, EventStream.accepts_clear]
      rfl

theorem noOvertaking_iff (h : Represents log first es) (i : Nat) (ops : List StreamOp) :
    log.NoOvertaking hasRoom trimmed (logOps es.accepts i ops) ↔ es.NoOvertaking ops := by
  induction ops generalizing log first es i with
  | nil => exact Iff.rfl
  | cons op ops ih =>
    cases op with
    | emit e =>
      rw [logOps, EventStream.NoOvertaking]
      by_cases haccepts : es.accepts e.kind
      · rw [if_pos haccepts, NoOvertaking, ← h.fits, ← h.pending, drains_logOps,
          ← ih (h.emit haccepts i) (i + 1), EventStream.accepts_emit]
        simp [haccepts]
      · have hfiltered : es.accepts e.kind = false := by simpa using haccepts
        rw [if_neg haccepts, EventStream.emit_of_not_accepts hfiltered, ih h]
        simp [haccepts]
    | drain =>
      rw [EventStream.NoOvertaking, ← ih h.clear i, EventStream.accepts_clear]
      rfl

end Represents

namespace EventStream.Fresh

variable {es : EventStream}

theorem represents (h : es.Fresh) : Represents {} es.seq es where
  buffer := by simp [buffer, h.len, window, number]
  seq := by simp
  staged := (staged_eq_none_iff es).mpr h.pending
  accepted := fun r hr => (by cases hr)

theorem delivered_eq (h : es.Fresh) (ops : List StreamOp) :
    es.delivered ops = Represents.numbered es.seq
      (StagedLog.delivered hasRoom trimmed {} (logOps es.accepts 0 ops)) :=
  h.represents.deliveries 0 ops

theorem delivered_positions (h : es.Fresh) (ops : List StreamOp) :
    (es.delivered ops).map Prod.fst =
      (StagedLog.delivered hasRoom trimmed {} (logOps es.accepts 0 ops)).map Prod.fst := by
  rw [h.delivered_eq, Represents.numbered]
  exact map_fst_zip (by simp)

theorem delivered_records (h : es.Fresh) (ops : List StreamOp) :
    (es.delivered ops).map Prod.snd = number es.seq
      ((StagedLog.delivered hasRoom trimmed {} (logOps es.accepts 0 ops)).map Prod.snd) := by
  rw [h.delivered_eq, Represents.numbered]
  exact map_snd_zip (by simp)

end EventStream.Fresh

end Bedrock
