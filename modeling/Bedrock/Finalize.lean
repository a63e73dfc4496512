import Bedrock.Capture
import Bedrock.Delivery

/-!
# Deferred fields of exit records

An exit record is emitted before the memory hash and the number of copied pages are
known; `finalize_exit_memory_hash` writes them into the record afterwards, at the place
`emit_exit_event` remembered.  Between the two other events can be emitted, handlers can
fail, and RUN can be called again.  This module says for which sequences the place is
still the right one.
-/

namespace Bedrock

open Support EventRecord List Option EventKind

theorem EventKind.asU16_injective {kind kind' : EventKind} (h : kind.asU16 = kind'.asU16) :
    kind = kind' := by
  cases kind <;> cases kind' <;> first | rfl | exact absurd h (by decide)

namespace EventStream

def Holds (es : EventStream) (records : List EventRecord) : Prop :=
  es.buffer = records.flatMap encode

/-- An exit record with its payload at `base` stands in the buffer. -/
def HoldsExit (es : EventStream) (base : Nat) : Prop :=
  ∃ before r after, es.Holds (before ++ r :: after) ∧ r.kind = exit.asU16 ∧
    r.payload.length = EXIT_RECORD_SIZE ∧
    base = (before.flatMap encode).length + EVENT_HEADER_SIZE

variable {es : EventStream}

/-- The records can be read off the buffer. -/
theorem Holds.stream {records : List EventRecord} (h : es.Holds records) :
    stream es.buffer = records := by
  rw [h]
  apply stream_encode
  intro r hr
  obtain ⟨before, after, rfl⟩ := append_of_mem hr
  have hlen := congrArg List.length h
  rw [buffer_length, flatMap_append, flatMap_cons, length_append,
    length_append, encode_length, size] at hlen
  have hle := le_alignUp8 r.payload.length
  have hbuffer := es.len_le
  have hsize : EVENT_BUFFER_SIZE < 2 ^ 32 := by decide
  omega

theorem Holds.unique {rs rs' : List EventRecord} (h : es.Holds rs) (h' : es.Holds rs') : rs = rs' :=
  h.stream.symm.trans h'.stream

theorem Holds.not_holdsExit {records : List EventRecord} (h : es.Holds records)
    (hnone : ∀ r ∈ records, r.kind ≠ exit.asU16) (base : Nat) : ¬es.HoldsExit base := by
  rintro ⟨before, r, after, hrecords, hkind, -⟩
  obtain rfl := h.unique hrecords
  exact hnone r (by simp) hkind

/-! ## What finalization writes -/

/-- The bytes of the two deferred fields of a record with its payload at `base`. -/
def DeferredField (base i : Nat) : Prop :=
  (base + MEMORY_HASH_OFFSET ≤ i ∧ i < base + MEMORY_HASH_OFFSET + 8) ∨
    (base + COW_PAGE_COUNT_OFFSET ≤ i ∧ i < base + COW_PAGE_COUNT_OFFSET + 4)

theorem patchExit_of_not_deferred (bytes : Nat → UInt8) {base i : Nat} (memoryHash : UInt64)
    (cowPageCount : UInt32) (h : ¬DeferredField base i) :
    patchExit bytes base memoryHash cowPageCount i = bytes i := by
  have houtside : ∀ (data : Nat → UInt8) (offset : Nat) (new : List UInt8),
      ¬(offset ≤ i ∧ i < offset + new.length) → splice data offset new i = data i := by
    intro data offset new hi
    by_cases hlt : i < offset
    · exact splice_of_lt data new hlt
    · exact splice_of_ge data (by omega)
  rw [DeferredField, not_or] at h
  unfold patchExit
  rw [houtside _ _ _ (by simpa using h.2), houtside _ _ _ (by simpa using h.1)]

theorem finalizeExit_cases (es : EventStream) (memoryHash : UInt64) (cowPageCount : UInt32) :
    (es.pendingExitLoc = none ∧ es.finalizeExit memoryHash cowPageCount = es) ∨
      (∃ base, es.pendingExitLoc = some (.buffer base) ∧ es.attached = false ∧
        es.finalizeExit memoryHash cowPageCount = { es with pendingExitLoc := none }) ∨
      (∃ base, es.pendingExitLoc = some (.buffer base) ∧ es.attached ∧
        es.finalizeExit memoryHash cowPageCount =
          { es with
            pendingExitLoc := none
            bytes := patchExit es.bytes base memoryHash cowPageCount }) ∨
      (es.pendingExitLoc = some .pending ∧
        es.finalizeExit memoryHash cowPageCount =
          { es with
            pendingExitLoc := none
            pendingBytes := patchExit es.pendingBytes 0 memoryHash cowPageCount }) := by
  unfold finalizeExit
  cases hloc : es.pendingExitLoc with
  | none => exact .inl ⟨rfl, rfl⟩
  | some loc =>
    cases loc with
    | buffer base =>
      cases hattached : es.attached with
      | false => exact .inr (.inl ⟨base, rfl, rfl, rfl⟩)
      | true => exact .inr (.inr (.inl ⟨base, rfl, rfl, rfl⟩))
    | pending => exact .inr (.inr (.inr ⟨rfl, rfl⟩))

/-- Where finalization would write is an exit record that is still there. -/
def TargetPresent (es : EventStream) : Prop :=
  match es.pendingExitLoc with
  | none => True
  | some (.buffer base) => es.attached = true → es.HoldsExit base
  | some .pending => es.pending = some .exit

/-- Finalizing writes only the deferred fields of an exit record in the buffer or in the
staging area. -/
structure Confined (es : EventStream) (memoryHash : UInt64) (cowPageCount : UInt32) : Prop where
  target : es.TargetPresent
  buffer : ∀ i, (es.finalizeExit memoryHash cowPageCount).bytes i ≠ es.bytes i →
    ∃ base, es.HoldsExit base ∧ DeferredField base i
  staging : ∀ i, (es.finalizeExit memoryHash cowPageCount).pendingBytes i ≠ es.pendingBytes i →
    es.pending = some .exit ∧ DeferredField 0 i

theorem confined_iff (es : EventStream) (memoryHash : UInt64) (cowPageCount : UInt32) :
    es.Confined memoryHash cowPageCount ↔ es.TargetPresent := by
  constructor
  · exact Confined.target
  intro h
  have hfield : ∀ (bytes : Nat → UInt8) (base i : Nat),
      patchExit bytes base memoryHash cowPageCount i ≠ bytes i → DeferredField base i := by
    intro bytes base i hne
    by_contra hno
    exact hne (patchExit_of_not_deferred bytes memoryHash cowPageCount hno)
  have htarget := h
  unfold TargetPresent at htarget
  rcases es.finalizeExit_cases memoryHash cowPageCount with
    ⟨-, heq⟩ | ⟨base, -, -, heq⟩ | ⟨base, hloc, hattached, heq⟩ | ⟨hloc, heq⟩
  · exact ⟨h, fun i hne => absurd (by rw [heq]) hne, fun i hne => absurd (by rw [heq]) hne⟩
  · exact ⟨h, fun i hne => absurd (by rw [heq]) hne, fun i hne => absurd (by rw [heq]) hne⟩
  · rw [hloc] at htarget
    refine ⟨h, fun i hne => ⟨base, htarget hattached, ?_⟩, fun i hne => absurd (by rw [heq]) hne⟩
    rw [heq] at hne
    exact hfield _ _ _ hne
  · rw [hloc] at htarget
    refine ⟨h, fun i hne => absurd (by rw [heq]) hne, fun i hne => ⟨htarget, ?_⟩⟩
    rw [heq] at hne
    exact hfield _ _ _ hne

end EventStream

/-- What happens to the stream: another event or an exit record is emitted, a handler
returns and, unless it failed, the run loop finalizes, or RUN is called. -/
inductive CaptureOp
  | emit (e : Event) (hkind : e.kind ≠ .exit)
  | capture (deterministic : Bool) (tsc realTsc : UInt64) (payload : List UInt8)
      (hlen : payload.length = EXIT_RECORD_SIZE)
  | outcome (result : ExitHandlerResult) (memoryHash : UInt64) (cowPageCount : UInt32)
  | run

def ExitHandlerResult.finalizes : ExitHandlerResult → Bool
  | .error _ => false
  | _ => true

/-- How many RUN calls come before the next finalization; `none` if another exit record
is captured first, or nothing is finalized. -/
def runsUntilFinalize : List CaptureOp → Option Nat
  | [] => none
  | .emit _ _ :: ops => runsUntilFinalize ops
  | .capture .. :: _ => none
  | .outcome result _ _ :: ops => if result.finalizes then some 0 else runsUntilFinalize ops
  | .run :: ops => (runsUntilFinalize ops).map (· + 1)

namespace EventStream

def captureStep (es : EventStream) : CaptureOp → EventStream
  | .emit e _ => es.emit e
  | .capture deterministic tsc realTsc payload _ => es.emitExit deterministic tsc realTsc payload
  | .outcome result memoryHash cowPageCount =>
    if result.finalizes then es.finalizeExit memoryHash cowPageCount else es
  | .run => es.clear

def AllConfined : EventStream → List CaptureOp → Prop
  | _, [] => True
  | es, op :: ops =>
    (∀ result memoryHash cowPageCount, op = .outcome result memoryHash cowPageCount →
      result.finalizes = true → es.Confined memoryHash cowPageCount) ∧
    AllConfined (es.captureStep op) ops

/-- How many RUN calls a captured exit record outlives, and one more: a record in the
buffer is gone after the next one, a staged one after two; a record that finds the
staging area taken by another event is not there at all. -/
def lifetime (es : EventStream) : Nat :=
  if es.fits EXIT_RECORD_SIZE then 1
  else if es.pending = none ∨ es.pending = some .exit then 2
  else 0

def Timely : EventStream → List CaptureOp → Prop
  | _, [] => True
  | es, op :: ops =>
    (∀ deterministic tsc realTsc payload hlen, op = .capture deterministic tsc realTsc payload hlen →
      es.accepts .exit = true → ∀ n, runsUntilFinalize ops = some n → n < es.lifetime) ∧
    Timely (es.captureStep op) ops

/-! ## One step -/

variable {es : EventStream} {e : Event}

/-- The event that `emit_exit_event` writes. -/
def captureEvent (deterministic : Bool) (tsc realTsc : UInt64) (payload : List UInt8) : Event :=
  ⟨.exit, if deterministic then EVENT_FLAG_DETERMINISTIC else 0, tsc, realTsc, payload⟩

theorem write_pendingExitLoc (es : EventStream) (loc : Option ExitLoc) (kind : EventKind)
    (flags : UInt16) (tsc realTsc : UInt64) (payload : List UInt8) :
    ({ es with pendingExitLoc := loc } : EventStream).write kind flags tsc realTsc payload =
      ((es.write kind flags tsc realTsc payload).1,
        { (es.write kind flags tsc realTsc payload).2 with pendingExitLoc := loc }) := by
  unfold write enabled fits record
  dsimp only
  split_ifs <;> rfl

theorem write_fst (h : es.accepts e.kind) :
    (es.write e.kind e.flags e.tsc e.realTsc e.payload).1 = es.fits e.payload.length := by
  obtain ⟨hattached, henabled⟩ := Bool.and_eq_true_iff.mp h
  unfold write
  rw [if_neg (by simp [henabled]), if_neg (by simp [hattached])]
  split_ifs with hfits
  · exact hfits.symm
  all_goals simpa using hfits

theorem emitExit_of_not_accepts (h : es.accepts .exit = false) (deterministic : Bool)
    (tsc realTsc : UInt64) (payload : List UInt8) :
    es.emitExit deterministic tsc realTsc payload = { es with pendingExitLoc := none } := by
  have hguard : (!es.attached || !es.enabled .exit) := by
    rw [← Bool.not_and]
    exact congrArg not h
  exact if_pos hguard

theorem emitExit_of_accepts (h : es.accepts .exit) (deterministic : Bool)
    (tsc realTsc : UInt64) (payload : List UInt8) :
    es.emitExit deterministic tsc realTsc payload =
      { es.emit (captureEvent deterministic tsc realTsc payload) with
        pendingExitLoc := some (if es.fits payload.length then .buffer (es.len + EVENT_HEADER_SIZE)
          else .pending) } := by
  have hguard : ¬(!es.attached || !es.enabled .exit) := by
    rw [← Bool.not_and]
    exact fun hnot => absurd ((congrArg not h).symm.trans hnot) (by decide)
  have hfst : (es.write .exit (if deterministic then EVENT_FLAG_DETERMINISTIC else 0) tsc realTsc
      payload).1 = es.fits payload.length :=
    write_fst (e := captureEvent deterministic tsc realTsc payload) h
  unfold emitExit
  refine (if_neg hguard).trans ?_
  dsimp only
  rw [write_pendingExitLoc, ← hfst]
  rfl

theorem pending_eq_some_iff {kind : EventKind} :
    es.pending = some kind ↔ ∃ e, es.staged = some e ∧ e.kind = kind := by
  unfold staged
  cases hp : es.pending with
  | none | some k => simp

theorem clear_pendingExitLoc (h : es.pending = some .exit → es.pendingExitLoc ≠ some .pending) :
    es.clear.pendingExitLoc = es.pendingExitLoc := by
  cases hstaged : es.staged with
  | none =>
    rw [es.clear_eq.1 hstaged]
    rfl
  | some e =>
    rw [es.clear_eq.2 e hstaged, relocated, if_neg]
    rintro ⟨hkind, hloc⟩
    have hpending : es.pending = some .exit := pending_eq_some_iff.mpr ⟨e, hstaged, hkind⟩
    exact h hpending hloc

theorem emit_pendingLen (haccepts : es.accepts e.kind)
    (hfits : es.fits e.payload.length) : (es.emit e).pendingLen = es.pendingLen := by
  obtain ⟨hattached, henabled⟩ := Bool.and_eq_true_iff.mp haccepts
  unfold emit write
  rw [if_neg (by simp [henabled]), if_neg (by simp [hattached]), dif_pos hfits]

theorem Holds.emit_of_fits {rs : List EventRecord} (h : es.Holds rs)
    (haccepts : es.accepts e.kind) (hfits : es.fits e.payload.length) :
    (es.emit e).Holds (rs ++ [e.record es.seq]) := by
  unfold Holds at h ⊢
  rw [(EventStream.emit_of_fits haccepts hfits).1, h]
  simp

theorem staged_payload_length (hstaged : es.staged = some e) :
    e.payload.length = es.pendingLen := by
  unfold staged at hstaged
  obtain ⟨kind, -, rfl⟩ := map_eq_some_iff.mp hstaged
  exact window_length _ _ _

theorem clear_pendingExitLoc_of_staged (hstaged : es.staged = some e) (hkind : e.kind = .exit)
    (haccepts : es.accepts e.kind) (hloc : es.pendingExitLoc = some .pending) :
    es.clear.pendingExitLoc = some (.buffer EVENT_HEADER_SIZE) := by
  have hfits := emptied_fits_of_staged hstaged
  have haccepts' : es.emptied.accepts e.kind := haccepts
  have hlen := (emit_of_fits haccepts' hfits).2.2.2
  have hpendingLen := emit_pendingLen haccepts' hfits
  rw [es.clear_eq.2 e hstaged, relocated, if_pos ⟨hkind, hloc⟩, lenAtLastRecord, hlen, hpendingLen]
  simp only [emptied, Event.size, staged_payload_length hstaged, Nat.zero_add,
    Nat.add_sub_cancel_left]
  rfl

/-! ## The place of the record from step to step -/

/-- The buffer holds whole records, and a staged exit record is complete and waits for
room. -/
structure WellFormed (es : EventStream) : Prop where
  records : ∃ rs, es.Holds rs
  staged : ∀ e, es.staged = some e → e.kind = .exit →
    es.accepts .exit = true ∧ es.fits EXIT_RECORD_SIZE = false ∧ e.payload.length = EXIT_RECORD_SIZE

/-- The place `finalize_exit_memory_hash` would write to, by how many RUN calls it is
still good for, and one more. -/
inductive Survives (es : EventStream) : Nat → Prop
  | drained {base : Nat} {rs : List EventRecord} (hloc : es.pendingExitLoc = some (.buffer base))
      (hattached : es.attached = true) (hrecords : es.Holds rs)
      (hnone : ∀ r ∈ rs, r.kind ≠ exit.asU16) (hstaged : es.pending ≠ some .exit) :
      Survives es 0
  | misplaced (hloc : es.pendingExitLoc = some .pending) (hstaged : es.pending ≠ some .exit) :
      Survives es 0
  | buffered {base : Nat} (hloc : es.pendingExitLoc = some (.buffer base))
      (hattached : es.attached = true) (hexit : es.HoldsExit base)
      (hstaged : es.pending ≠ some .exit) : Survives es 1
  | staged (hloc : es.pendingExitLoc = some .pending) (hstaged : es.pending = some .exit) :
      Survives es 2

variable {n base : Nat} {payload : List UInt8} {t : Option Nat}

theorem Survives.targetPresent_iff (h : es.Survives n) : es.TargetPresent ↔ 0 < n := by
  unfold TargetPresent
  cases h with
  | drained hloc hattached hrecords hnone hstaged =>
    rw [hloc]
    refine ⟨fun htarget => ?_, fun h0 => absurd h0 (Nat.lt_irrefl 0)⟩
    exact absurd (htarget hattached) (hrecords.not_holdsExit hnone _)
  | misplaced hloc hstaged =>
    rw [hloc]
    exact ⟨fun htarget => absurd htarget hstaged, fun h0 => absurd h0 (Nat.lt_irrefl 0)⟩
  | buffered hloc hattached hexit hstaged =>
    rw [hloc]
    exact ⟨fun _ => Nat.one_pos, fun _ _ => hexit⟩
  | staged hloc hstaged =>
    rw [hloc]
    exact ⟨fun _ => Nat.two_pos, fun _ => hstaged⟩

/-- Emitting appends records of the event's kind, if any. -/
theorem Holds.emit {rs : List EventRecord} (h : es.Holds rs) (e : Event) :
    ∃ more, (es.emit e).Holds (rs ++ more) ∧ ∀ r ∈ more, r.kind = e.kind.asU16 := by
  rcases es.emit_cases e with hsame | ⟨haccepts, hfits⟩ | ⟨haccepts, hfull, hfree⟩
  · exact ⟨[], by rwa [hsame, append_nil], nofun⟩
  · refine ⟨[e.record es.seq], h.emit_of_fits haccepts hfits, fun r hr => ?_⟩
    rw [mem_singleton.mp hr]
    rfl
  · exact ⟨[], by rw [append_nil]; exact (emit_of_full haccepts hfull hfree).1.trans h, nofun⟩

theorem HoldsExit.emit (h : es.HoldsExit base) (e : Event) : (es.emit e).HoldsExit base := by
  obtain ⟨before, r, after, hrecords, hkind, hlen, hbase⟩ := h
  obtain ⟨more, hmore, -⟩ := hrecords.emit e
  rw [append_assoc, cons_append] at hmore
  exact ⟨before, r, after ++ more, hmore, hkind, hlen, hbase⟩

theorem len_le_emit (es : EventStream) (e : Event) : es.len ≤ (es.emit e).len := by
  rcases es.emit_cases e with hsame | ⟨haccepts, hfits⟩ | ⟨haccepts, hfull, hfree⟩
  · rw [hsame]
  · rw [(emit_of_fits haccepts hfits).2.2.2]
    exact Nat.le_add_right _ _
  · rw [(emit_of_full haccepts hfull hfree).2.2.2]

theorem fits_emit_of_full (h : es.fits n = false) (e : Event) : (es.emit e).fits n = false := by
  have hlen := es.len_le_emit e
  rw [Bool.eq_false_iff, Ne, fits_iff] at h ⊢
  omega

theorem pending_emit_ne_exit (h : es.pending ≠ some .exit) (hkind : e.kind ≠ .exit) :
    (es.emit e).pending ≠ some .exit := by
  intro hexit
  obtain ⟨s, hs, hskind⟩ := pending_eq_some_iff.mp hexit
  rcases es.staged_emit e with hsame | ⟨-, -, -, hnew⟩
  · exact h (pending_eq_some_iff.mpr ⟨s, hsame ▸ hs, hskind⟩)
  rw [hnew] at hs
  obtain rfl := Option.some.inj hs
  exact hkind hskind

theorem pending_emit_eq_exit (h : es.pending = some .exit) (e : Event) :
    (es.emit e).pending = some .exit := by
  obtain ⟨s, hs, hskind⟩ := pending_eq_some_iff.mp h
  rcases es.staged_emit e with hsame | ⟨-, -, hnone, -⟩
  · exact pending_eq_some_iff.mpr ⟨s, hsame.trans hs, hskind⟩
  · rw [hnone] at hs
    cases hs

theorem WellFormed.emit (h : es.WellFormed) (hlen : e.kind = .exit →
    e.payload.length = EXIT_RECORD_SIZE) : (es.emit e).WellFormed := by
  obtain ⟨rs, hrs⟩ := h.records
  obtain ⟨more, hmore, -⟩ := hrs.emit e
  refine ⟨⟨_, hmore⟩, fun s hs hkind => ?_⟩
  rw [accepts_emit]
  rcases es.staged_emit e with hsame | ⟨haccepts, hfull, -, hnew⟩
  · obtain ⟨haccepts, hfull, hslen⟩ := h.staged s (hsame ▸ hs) hkind
    exact ⟨haccepts, fits_emit_of_full hfull e, hslen⟩
  rw [hnew] at hs
  obtain rfl := Option.some.inj hs
  have hkind' : e.kind = .exit := hkind
  have hpayload := hlen hkind'
  rw [hpayload] at hfull
  refine ⟨hkind' ▸ haccepts, fits_emit_of_full hfull e, ?_⟩
  rw [Event.trim, length_take, hpayload]
  rfl

theorem Survives.emit (h : es.Survives n) (hkind : e.kind ≠ .exit) : (es.emit e).Survives n := by
  cases h with
  | drained hloc hattached hrecords hnone hstaged =>
    obtain ⟨more, hmore, hmorekind⟩ := hrecords.emit e
    refine .drained ((emit_pendingExitLoc _ _).trans hloc) ((emit_attached _ _).trans hattached)
      hmore ?_ (pending_emit_ne_exit hstaged hkind)
    intro r hr
    rcases mem_append.mp hr with hold | hnew
    · exact hnone r hold
    · rw [hmorekind r hnew]
      exact fun heq => hkind (asU16_injective heq)
  | misplaced hloc hstaged =>
    exact .misplaced ((emit_pendingExitLoc _ _).trans hloc) (pending_emit_ne_exit hstaged hkind)
  | buffered hloc hattached hexit hstaged =>
    exact .buffered ((emit_pendingExitLoc _ _).trans hloc)
      ((emit_attached _ _).trans hattached) (hexit.emit e) (pending_emit_ne_exit hstaged hkind)
  | staged hloc hstaged =>
    exact .staged ((emit_pendingExitLoc _ _).trans hloc) (pending_emit_eq_exit hstaged e)

/-! RUN -/

theorem holds_clear (es : EventStream) :
    es.clear.Holds (number es.seq (es.staged.toList.filter fun e => es.accepts e.kind)) := by
  have h := (Represents.of_clear es).buffer
  rwa [keptLog_events] at h

theorem staged_clear (es : EventStream) : es.clear.staged = none :=
  (Represents.of_clear es).staged

theorem clear_pending_ne (es : EventStream) (kind : EventKind) : es.clear.pending ≠ some kind := by
  rw [(staged_eq_none_iff _).mp es.staged_clear]
  exact nofun

theorem clear_no_exit (h : es.pending ≠ some .exit) :
    ∀ r ∈ number es.seq (es.staged.toList.filter fun e => es.accepts e.kind),
      r.kind ≠ exit.asU16 := by
  intro r hr hkind
  obtain ⟨k, hk⟩ := mem_iff_getElem?.mp hr
  rw [number_getElem?] at hk
  obtain ⟨e, he, rfl⟩ := map_eq_some_iff.mp hk
  have hmem := mem_of_mem_filter (mem_of_getElem? he)
  have hstaged : es.staged = some e := mem_toList.mp hmem
  exact h (pending_eq_some_iff.mpr ⟨e, hstaged, asU16_injective hkind⟩)

theorem WellFormed.clear (es : EventStream) : es.clear.WellFormed := by
  refine ⟨⟨_, es.holds_clear⟩, fun e he _ => ?_⟩
  rw [staged_clear] at he
  cases he

theorem Survives.clear (hwf : es.WellFormed) (h : es.Survives n) : es.clear.Survives (n - 1) := by
  have hattached' := es.clear_config.1
  have hkept : es.pending ≠ some .exit → es.clear.pendingExitLoc = es.pendingExitLoc :=
    fun hstaged => clear_pendingExitLoc fun hexit => absurd hexit hstaged
  cases h with
  | drained hloc hattached hrecords hnone hstaged =>
    exact .drained ((hkept hstaged).trans hloc) (hattached'.trans hattached) es.holds_clear
      (clear_no_exit hstaged) (es.clear_pending_ne _)
  | misplaced hloc hstaged =>
    exact .misplaced ((hkept hstaged).trans hloc) (es.clear_pending_ne _)
  | buffered hloc hattached hexit hstaged =>
    exact .drained ((hkept hstaged).trans hloc) (hattached'.trans hattached) es.holds_clear
      (clear_no_exit hstaged) (es.clear_pending_ne _)
  | staged hloc hstaged =>
    obtain ⟨e, he, hkind⟩ := pending_eq_some_iff.mp hstaged
    obtain ⟨haccepts, -, hlen⟩ := hwf.staged e he hkind
    have haccepts' : es.accepts e.kind := hkind ▸ haccepts
    have hloc' := clear_pendingExitLoc_of_staged he hkind haccepts' hloc
    have hrecords := es.holds_clear
    rw [he] at hrecords
    simp only [toList_some, filter_cons, haccepts', if_true, filter_nil, number] at hrecords
    have hattached := (Bool.and_eq_true_iff.mp haccepts).1
    refine .buffered hloc' (hattached'.trans hattached) ?_ (es.clear_pending_ne _)
    refine ⟨[], e.record es.seq, [], hrecords, congrArg asU16 hkind, hlen, ?_⟩
    rfl

/-! Capturing an exit record -/

theorem WellFormed.emitExit (h : es.WellFormed) (deterministic : Bool) (tsc realTsc : UInt64)
    (hlen : payload.length = EXIT_RECORD_SIZE) :
    (es.emitExit deterministic tsc realTsc payload).WellFormed := by
  by_cases haccepts : es.accepts .exit
  · rw [emitExit_of_accepts haccepts]
    have hnext := h.emit (e := captureEvent deterministic tsc realTsc payload) fun _ => hlen
    exact ⟨hnext.records, hnext.staged⟩
  · rw [emitExit_of_not_accepts (by simpa using haccepts)]
    exact ⟨h.records, h.staged⟩

theorem Survives.emitExit (hwf : es.WellFormed) (haccepts : es.accepts .exit)
    (deterministic : Bool) (tsc realTsc : UInt64) (hlen : payload.length = EXIT_RECORD_SIZE) :
    (es.emitExit deterministic tsc realTsc payload).Survives es.lifetime := by
  have hattached := (Bool.and_eq_true_iff.mp haccepts).1
  let e := captureEvent deterministic tsc realTsc payload
  have hsize : e.payload.length = EXIT_RECORD_SIZE := hlen
  rw [emitExit_of_accepts haccepts, lifetime, hlen]
  cases hfits : es.fits EXIT_RECORD_SIZE with
  | true =>
    have hnot : es.pending ≠ some .exit := by
      intro hexit
      obtain ⟨s, hs, hkind⟩ := pending_eq_some_iff.mp hexit
      rw [(hwf.staged s hs hkind).2.1] at hfits
      cases hfits
    obtain ⟨rs, hrs⟩ := hwf.records
    have hroom : es.fits e.payload.length := (congrArg es.fits hsize).trans hfits
    have hstaged := (emit_of_fits (e := e) haccepts hroom).2.2.1
    have hbase : es.len = (rs.flatMap encode).length := by
      rw [← es.buffer_length, hrs]
    refine .buffered rfl ((emit_attached es e).trans hattached) ?_ ?_
    · exact ⟨rs, e.record es.seq, [], hrs.emit_of_fits (e := e) haccepts hroom, rfl, hsize,
        by rw [hbase]⟩
    intro hexit
    have hexit' : (es.emit e).pending = some .exit := hexit
    obtain ⟨s, hs, hkind⟩ := pending_eq_some_iff.mp hexit'
    exact hnot (pending_eq_some_iff.mpr ⟨s, hstaged ▸ hs, hkind⟩)
  | false =>
    have hfull : es.fits e.payload.length = false := (congrArg es.fits hsize).trans hfits
    by_cases hslot : es.pending = none ∨ es.pending = some .exit
    · simp only [Bool.false_eq_true, if_false, if_pos hslot]
      refine .staged rfl ?_
      rcases hslot with hfree | htaken
      · have hstaged := (emit_of_full (e := e) haccepts hfull hfree).2.2.1
        exact pending_eq_some_iff.mpr ⟨e.trim, hstaged, rfl⟩
      · exact pending_emit_eq_exit htaken e
    · simp only [Bool.false_eq_true, if_false, if_neg hslot]
      refine .misplaced rfl ?_
      rw [not_or] at hslot
      have hsame := emit_of_taken hfull hslot.1
      intro hexit
      exact hslot.2 (by rw [← hsame]; exact hexit)

/-! Finalizing -/

theorem Holds.patch {before after : List EventRecord} {r : EventRecord}
    (h : es.Holds (before ++ r :: after)) (hlen : r.payload.length = EXIT_RECORD_SIZE)
    (hbase : base = (before.flatMap encode).length + EVENT_HEADER_SIZE)
    {bytes : Nat → UInt8}
    (hsame : ∀ i, ¬(base ≤ i ∧ i < base + EXIT_RECORD_SIZE) → bytes i = es.bytes i) :
    window bytes 0 es.len =
      (before ++ r.withPayload (window bytes base EXIT_RECORD_SIZE) :: after).flatMap encode := by
  have hr : r.encode = r.header ++ r.payload := by
    rw [r.encode_eq, hlen]
    simp [alignUp8, EXIT_RECORD_SIZE]
  have hr' : (r.withPayload (window bytes base EXIT_RECORD_SIZE)).encode =
      r.header ++ window bytes base EXIT_RECORD_SIZE := by
    rw [encode_eq, r.header_withPayload (by rw [window_length, hlen])]
    simp [alignUp8, EXIT_RECORD_SIZE, withPayload]
  -- cut the buffer into what precedes the payload, the payload and what follows it
  have hsplit : es.len = base + (EXIT_RECORD_SIZE + (after.flatMap encode).length) := by
    rw [← es.buffer_length, h, flatMap_append, flatMap_cons, hr, length_append,
      length_append, length_append, r.header_length, hlen, hbase]
    omega
  have hcut := h
  unfold Holds buffer at hcut
  rw [hsplit, window_add, window_add, flatMap_append, flatMap_cons, hr,
    append_assoc, ← append_assoc (before.flatMap _), Nat.zero_add] at hcut
  obtain ⟨hfirst, hrest⟩ := append_inj hcut
    (by rw [window_length, length_append, r.header_length, hbase])
  obtain ⟨-, hlast⟩ := append_inj hrest (by rw [window_length, hlen])
  have hbefore : window bytes 0 base = before.flatMap encode ++ r.header :=
    (window_congr fun i _ hi => hsame i (by omega)).trans hfirst
  have hafter : window bytes (base + EXIT_RECORD_SIZE) (after.flatMap encode).length =
      after.flatMap encode :=
    (window_congr fun i hi _ => hsame i (by omega)).trans hlast
  rw [hsplit, window_add, window_add, Nat.zero_add, hbefore, hafter, flatMap_append,
    flatMap_cons, hr', append_assoc, append_assoc]

/-- Both deferred fields lie inside the payload. -/
theorem DeferredField.inside {i : Nat} (h : DeferredField base i) :
    base ≤ i ∧ i < base + EXIT_RECORD_SIZE := by
  unfold DeferredField MEMORY_HASH_OFFSET COW_PAGE_COUNT_OFFSET at h
  unfold EXIT_RECORD_SIZE
  omega

theorem WellFormed.finalize (h : es.WellFormed) (htarget : es.TargetPresent) (memoryHash : UInt64)
    (cowPageCount : UInt32) : (es.finalizeExit memoryHash cowPageCount).WellFormed := by
  unfold TargetPresent at htarget
  rcases es.finalizeExit_cases memoryHash cowPageCount with
    ⟨-, heq⟩ | ⟨base, -, -, heq⟩ | ⟨base, hloc, hattached, heq⟩ | ⟨hloc, heq⟩
  · rwa [heq]
  · rw [heq]
    exact ⟨h.records, h.staged⟩
  · rw [heq]
    rw [hloc] at htarget
    obtain ⟨before, r, after, hrecords, -, hlen, hbase⟩ := htarget hattached
    refine ⟨⟨_, hrecords.patch hlen hbase fun i hi => ?_⟩, h.staged⟩
    exact patchExit_of_not_deferred _ _ _ fun hfield => hi hfield.inside
  · rw [heq]
    refine ⟨h.records, fun e he hkind => ?_⟩
    rw [hloc] at htarget
    obtain ⟨s, hs, hskind⟩ := pending_eq_some_iff.mp htarget
    obtain ⟨haccepts, hfull, hlen⟩ := h.staged s hs hskind
    refine ⟨haccepts, hfull, ?_⟩
    rw [staged_payload_length hs] at hlen
    exact (staged_payload_length he).trans hlen

theorem finalizeExit_pendingExitLoc (es : EventStream) (memoryHash : UInt64)
    (cowPageCount : UInt32) : (es.finalizeExit memoryHash cowPageCount).pendingExitLoc = none := by
  rcases es.finalizeExit_cases memoryHash cowPageCount with
    ⟨hloc, heq⟩ | ⟨base, -, -, heq⟩ | ⟨base, -, -, heq⟩ | ⟨-, heq⟩
  · rw [heq, hloc]
  all_goals rw [heq]

theorem finalizeExit_pending (es : EventStream) (memoryHash : UInt64) (cowPageCount : UInt32) :
    (es.finalizeExit memoryHash cowPageCount).pending = es.pending := by
  rcases es.finalizeExit_cases memoryHash cowPageCount with
    ⟨hloc, heq⟩ | ⟨base, -, -, heq⟩ | ⟨base, -, -, heq⟩ | ⟨-, heq⟩
  all_goals rw [heq]

/-! ## Whole sequences -/

/-- The place of the last captured record, if it is still to be finalized. -/
def Tracks (es : EventStream) : Option Nat → Prop
  | none => es.pendingExitLoc = none
  | some n => es.Survives n

def InTime (ops : List CaptureOp) : Option Nat → Prop
  | none => True
  | some n => ∀ k, runsUntilFinalize ops = some k → k < n

theorem Tracks.targetPresent_iff (h : es.Tracks t) :
    es.TargetPresent ↔ ∀ n, t = some n → 0 < n := by
  cases t with
  | none =>
    have hloc : es.pendingExitLoc = none := h
    unfold TargetPresent
    rw [hloc]
    exact ⟨fun _ n hn => (by cases hn), fun _ => trivial⟩
  | some n =>
    rw [Survives.targetPresent_iff h]
    constructor
    · intro hn k hk
      exact Option.some.inj hk ▸ hn
    · intro hall
      exact hall n rfl

theorem Tracks.emit (h : es.Tracks t) (hkind : e.kind ≠ .exit) : (es.emit e).Tracks t := by
  cases t with
  | none => exact (emit_pendingExitLoc es e).trans h
  | some n => exact Survives.emit h hkind

theorem Tracks.clear (hwf : es.WellFormed) (h : es.Tracks t) : es.clear.Tracks (t.map (· - 1)) := by
  cases t with
  | none =>
    have hloc : es.pendingExitLoc = none := h
    refine (clear_pendingExitLoc fun _ => ?_).trans hloc
    rw [hloc]
    exact nofun
  | some n => exact Survives.clear hwf h

def captured (es : EventStream) : Option Nat :=
  if es.accepts .exit then some es.lifetime else none

theorem tracks_emitExit (hwf : es.WellFormed) (deterministic : Bool) (tsc realTsc : UInt64)
    (hlen : payload.length = EXIT_RECORD_SIZE) :
    (es.emitExit deterministic tsc realTsc payload).Tracks es.captured := by
  unfold captured
  split_ifs with haccepts
  · exact Survives.emitExit hwf haccepts deterministic tsc realTsc hlen
  · rw [emitExit_of_not_accepts (by simpa using haccepts)]
    rfl

theorem inTime_run_iff (ops : List CaptureOp) (t : Option Nat) :
    InTime (.run :: ops) t ↔ InTime ops (t.map (· - 1)) := by
  cases t with
  | none => exact Iff.rfl
  | some n =>
    simp only [InTime, runsUntilFinalize, map_some, map_eq_some_iff]
    constructor
    · intro h k hk
      have hlt := h (k + 1) ⟨k, hk, rfl⟩
      omega
    · rintro h k ⟨m, hm, rfl⟩
      have hlt := h m hm
      omega

theorem allConfined_iff (hwf : es.WellFormed) (ht : es.Tracks t)
    (ops : List CaptureOp) : es.AllConfined ops ↔ InTime ops t ∧ es.Timely ops := by
  induction ops generalizing es t with
  | nil =>
    refine ⟨fun _ => ⟨?_, trivial⟩, fun _ => trivial⟩
    cases t with
    | none => trivial
    | some n => exact fun k hk => (by cases hk)
  | cons op ops ih =>
    rw [AllConfined, Timely]
    cases op with
    | emit e hkind =>
      have hnext := ih (hwf.emit fun h => absurd h hkind) (ht.emit hkind)
      have hin : InTime (.emit e hkind :: ops) t ↔ InTime ops t := by
        cases t <;> exact Iff.rfl
      rw [captureStep, hnext, hin]
      constructor
      · exact fun h => ⟨h.2.1, nofun, h.2.2⟩
      · exact fun h => ⟨nofun, h.1, h.2.2⟩
    | capture deterministic tsc realTsc payload hlen =>
      have hnext := ih (hwf.emitExit deterministic tsc realTsc hlen)
        (tracks_emitExit hwf deterministic tsc realTsc hlen)
      have hin : InTime (.capture deterministic tsc realTsc payload hlen :: ops) t := by
        cases t with
        | none => trivial
        | some n => exact fun k hk => (by cases hk)
      have hcaptured : InTime ops es.captured ↔
          (es.accepts .exit → ∀ n, runsUntilFinalize ops = some n → n < es.lifetime) := by
        unfold captured
        split_ifs with haccepts
        · exact ⟨fun h _ => h, fun h => h haccepts⟩
        · exact ⟨fun _ h => absurd h haccepts, fun _ => trivial⟩
      rw [captureStep, hnext, hcaptured]
      constructor
      · rintro ⟨-, htime, hrest⟩
        exact ⟨hin, fun _ _ _ _ _ _ => htime, hrest⟩
      · rintro ⟨-, htime, hrest⟩
        exact ⟨nofun, htime _ _ _ _ _ rfl, hrest⟩
    | outcome result memoryHash cowPageCount =>
      cases hfin : result.finalizes with
      | false =>
        have hstep : es.captureStep (.outcome result memoryHash cowPageCount) = es := by
          simp [captureStep, hfin]
        have hin : InTime (.outcome result memoryHash cowPageCount :: ops) t ↔
            InTime ops t := by
          cases t <;> simp [InTime, runsUntilFinalize, hfin]
        rw [hstep, ih hwf ht, hin]
        constructor
        · exact fun h => ⟨h.2.1, nofun, h.2.2⟩
        rintro ⟨htime, -, hrest⟩
        refine ⟨?_, htime, hrest⟩
        intro result' memoryHash' cowPageCount' heq hfin'
        cases heq
        rw [hfin] at hfin'
        cases hfin'
      | true =>
        have hstep : es.captureStep (.outcome result memoryHash cowPageCount) =
            es.finalizeExit memoryHash cowPageCount := by
          simp [captureStep, hfin]
        have hin : InTime (.outcome result memoryHash cowPageCount :: ops) t ↔
            ∀ n, t = some n → 0 < n := by
          cases t <;> simp [InTime, runsUntilFinalize, hfin]
        rw [hstep, hin, ← ht.targetPresent_iff]
        have hnext : es.TargetPresent →
            ((es.finalizeExit memoryHash cowPageCount).AllConfined ops ↔
              (es.finalizeExit memoryHash cowPageCount).Timely ops) := by
          intro htarget
          have hafter := ih (hwf.finalize htarget memoryHash cowPageCount)
            (t := none) (finalizeExit_pendingExitLoc es memoryHash cowPageCount)
          exact hafter.trans (and_iff_right trivial)
        constructor
        · rintro ⟨hconfined, hrest⟩
          have htarget := (hconfined result memoryHash cowPageCount rfl hfin).target
          exact ⟨htarget, nofun, (hnext htarget).mp hrest⟩
        rintro ⟨htarget, -, hrest⟩
        refine ⟨?_, (hnext htarget).mpr hrest⟩
        rintro _ _ _ ⟨⟩ _
        exact (es.confined_iff memoryHash cowPageCount).mpr htarget
    | run =>
      rw [captureStep, ih (WellFormed.clear es) (ht.clear hwf), inTime_run_iff]
      constructor
      · exact fun h => ⟨h.2.1, nofun, h.2.2⟩
      · exact fun h => ⟨nofun, h.1, h.2.2⟩

theorem Fresh.wellFormed (h : es.Fresh) : es.WellFormed := by
  refine ⟨⟨[], h.represents.buffer⟩, fun e he _ => ?_⟩
  rw [(staged_eq_none_iff es).mpr h.pending] at he
  cases he

end EventStream

/-- From a buffer that was just attached, finalization touches only deferred fields of exit
records that are still there exactly when every captured record is finalized in its
lifetime. -/
theorem finalize_confined_iff {es : EventStream} (hfresh : es.Fresh)
    (hloc : es.pendingExitLoc = none) (ops : List CaptureOp) :
    es.AllConfined ops ↔ es.Timely ops := by
  rw [EventStream.allConfined_iff hfresh.wellFormed (t := none) hloc]
  exact and_iff_right trivial

def blankRecord : List UInt8 :=
  List.replicate EXIT_RECORD_SIZE 0

theorem blankRecord_length : blankRecord.length = EXIT_RECORD_SIZE :=
  length_replicate

theorem openStream_lifetime : openStream.accepts .exit ∧ openStream.lifetime = 1 := by
  decide +kernel

theorem finalize_confined_one :
    openStream.AllConfined
      [.capture true 200 9 blankRecord blankRecord_length, .outcome .continue_ 0x1234 3] := by
  refine (finalize_confined_iff openStream_fresh rfl _).mpr ⟨?_, nofun, trivial⟩
  intro deterministic tsc realTsc payload hlen _ _ n hn
  rw [openStream_lifetime.2, ← Option.some.inj hn]
  exact Nat.one_pos

/-- A handler fails after its exit was captured, RUN is called again, and the next exit is
not captured: finalization writes where no record is. -/
theorem failed_exit_finalized_late :
    ¬openStream.AllConfined
      [.capture true 200 9 blankRecord blankRecord_length,
        .outcome (.error .tripleFault) 0x1234 3, .run, .outcome .continue_ 0x5678 3] := by
  rw [EventStream.allConfined_iff openStream_fresh.wellFormed (t := none) rfl]
  rintro ⟨-, htimely, -⟩
  have hlate := htimely _ _ _ _ _ rfl openStream_lifetime.1 1 rfl
  rw [openStream_lifetime.2] at hlate
  exact absurd hlate (Nat.lt_irrefl 1)

end Bedrock
