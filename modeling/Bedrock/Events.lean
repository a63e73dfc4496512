import Bedrock.Support.Bytes

/-!
# The unified event stream

Records are a 32-byte header, the payload and zero padding up to a multiple of
eight bytes.  They are appended to a 1 MB buffer that userspace drains; one record
that does not fit is staged and appended after the next drain.
-/

namespace Bedrock

open Support List Option

def EVENT_BUFFER_SIZE : Nat := 1024 * 1024

def EVENT_HEADER_SIZE : Nat := 32

/-- Capacity of the staging buffer for the one pending record. -/
def IO_CHANNEL_BUF_SIZE : Nat := 4096

def SERIAL_LINE_ACC_SIZE : Nat := 256

def EVENT_FLAG_DETERMINISTIC : UInt16 := 1

/-- `align_up(n, 8)` -/
def alignUp8 (n : Nat) : Nat :=
  (n + 7) / 8 * 8

inductive EventKind
  | exit | serial | inject | randomness | ioChannel | diagnostic
  deriving DecidableEq, Repr

namespace EventKind

def toNat : EventKind → Nat
  | exit => 0
  | serial => 1
  | inject => 2
  | randomness => 3
  | ioChannel => 4
  | diagnostic => 5

def asU16 (kind : EventKind) : UInt16 :=
  .ofNat kind.toNat

def category (kind : EventKind) : UInt32 :=
  (1 : UInt32) <<< .ofNat kind.toNat

def defaultFlags : EventKind → UInt16
  | diagnostic => 0
  | _ => EVENT_FLAG_DETERMINISTIC

end EventKind

/-! ## Records -/

structure EventRecord where
  seq : UInt64
  tsc : UInt64
  realTsc : UInt64
  kind : UInt16
  flags : UInt16
  payload : List UInt8
  deriving DecidableEq

namespace EventRecord

def encode (r : EventRecord) : List UInt8 :=
  leBytes 8 r.seq.toNat ++ (leBytes 8 r.tsc.toNat ++ (leBytes 8 r.realTsc.toNat ++
    (leBytes 2 r.kind.toNat ++ (leBytes 2 r.flags.toNat ++ (leBytes 4 r.payload.length ++
      (r.payload ++ List.replicate (alignUp8 r.payload.length - r.payload.length) 0))))))

def size (len : Nat) : Nat :=
  EVENT_HEADER_SIZE + alignUp8 len

/-- Cut one record off the front, as the userspace iterator does. -/
def decode (bytes : List UInt8) : Option (EventRecord × List UInt8) := do
  let (seq, bytes) ← takeField 8 bytes
  let (tsc, bytes) ← takeField 8 bytes
  let (realTsc, bytes) ← takeField 8 bytes
  let (kind, bytes) ← takeField 2 bytes
  let (flags, bytes) ← takeField 2 bytes
  let (len, bytes) ← takeField 4 bytes
  if bytes.length < len then none
  else
    some (⟨.ofNat seq, .ofNat tsc, .ofNat realTsc, .ofNat kind, .ofNat flags,
      bytes.take len⟩, bytes.drop (alignUp8 len))

def deterministic (r : EventRecord) : Bool :=
  r.flags &&& EVENT_FLAG_DETERMINISTIC != 0

theorem le_alignUp8 (n : Nat) : n ≤ alignUp8 n := by
  unfold alignUp8
  omega

theorem add_size_mod {n : Nat} (h : n % 8 = 0) (len : Nat) : (n + size len) % 8 = 0 := by
  unfold size EVENT_HEADER_SIZE alignUp8
  omega

variable (r : EventRecord)

theorem encode_length : r.encode.length = size r.payload.length := by
  have := le_alignUp8 r.payload.length
  simp only [encode, size, EVENT_HEADER_SIZE, length_append, leBytes_length, length_replicate]
  omega

def header (r : EventRecord) : List UInt8 :=
  leBytes 8 r.seq.toNat ++ leBytes 8 r.tsc.toNat ++ leBytes 8 r.realTsc.toNat ++
    leBytes 2 r.kind.toNat ++ leBytes 2 r.flags.toNat ++ leBytes 4 r.payload.length

theorem header_length : r.header.length = EVENT_HEADER_SIZE := by
  simp [header, EVENT_HEADER_SIZE]

def withPayload (r : EventRecord) (payload : List UInt8) : EventRecord :=
  { r with payload }

@[simp] theorem kind_withPayload (payload : List UInt8) :
    (r.withPayload payload).kind = r.kind := rfl

theorem header_withPayload {payload : List UInt8}
    (h : payload.length = r.payload.length) : (r.withPayload payload).header = r.header := by
  simp [header, withPayload, h]

theorem encode_eq : r.encode = r.header ++ (r.payload ++
    List.replicate (alignUp8 r.payload.length - r.payload.length) 0) := by
  simp only [encode, header, append_assoc]

theorem encode_padding {k : Nat} (hle : r.payload.length ≤ k)
    (hlt : k < alignUp8 r.payload.length) : r.encode[EVENT_HEADER_SIZE + k]? = some 0 := by
  have hheader := r.header_length
  rw [encode_eq, List.getElem?_append_right (by omega), hheader, Nat.add_sub_cancel_left,
    List.getElem?_append_right hle, List.getElem?_replicate, if_pos (by omega)]

theorem decode_encode {r : EventRecord} (h : r.payload.length < 2 ^ 32) (rest : List UInt8) :
    decode (r.encode ++ rest) = some (r, rest) := by
  have h64 : ∀ w : UInt64, w.toNat < 256 ^ 8 := fun w => w.toNat_lt
  have h16 : ∀ w : UInt16, w.toNat < 256 ^ 2 := fun w => w.toNat_lt
  have hlen : r.payload.length < 256 ^ 4 := h
  have hpad := le_alignUp8 r.payload.length
  have hblock : (r.payload ++ List.replicate (alignUp8 r.payload.length - r.payload.length)
      (0 : UInt8)).length = alignUp8 r.payload.length := by
    rw [length_append, length_replicate]
    omega
  have hshort : ¬(r.payload ++ (List.replicate
      (alignUp8 r.payload.length - r.payload.length) (0 : UInt8) ++ rest)).length <
        r.payload.length := by
    rw [length_append]
    omega
  have hdrop : (r.payload ++ (List.replicate
      (alignUp8 r.payload.length - r.payload.length) (0 : UInt8) ++ rest)).drop
        (alignUp8 r.payload.length) = rest := by
    rw [← append_assoc]
    exact drop_left' hblock
  simp only [decode, encode, append_assoc, takeField_leBytes (h64 _),
    takeField_leBytes (h16 _), takeField_leBytes hlen, bind_eq_bind, bind_some,
    hshort, if_false, hdrop, take_left, UInt64.ofNat_toNat, UInt16.ofNat_toNat]

def decodeAll : (fuel : Nat) → List UInt8 → List EventRecord
  | 0, _ => []
  | fuel + 1, bytes =>
    match decode bytes with
    | none => []
    | some (r, rest) => r :: decodeAll fuel rest

def stream (bytes : List UInt8) : List EventRecord :=
  decodeAll (bytes.length + 1) bytes

theorem decode_nil : decode [] = none := by
  simp [decode, takeField]

theorem decodeAll_encode {rs : List EventRecord} (h : ∀ r ∈ rs, r.payload.length < 2 ^ 32)
    {fuel : Nat} (hfuel : rs.length < fuel) : decodeAll fuel (rs.flatMap encode) = rs := by
  induction rs generalizing fuel with
  | nil =>
    cases fuel with
    | zero => rfl
    | succ fuel => simp [decodeAll, decode_nil]
  | cons r rs ih =>
    cases fuel with
    | zero => exact absurd hfuel (Nat.not_lt_zero _)
    | succ fuel =>
      rw [length_cons] at hfuel
      rw [flatMap_cons, decodeAll, decode_encode (h r mem_cons_self)]
      simp only
      rw [ih (fun r' hr' => h r' (mem_cons_of_mem _ hr')) (by omega)]

theorem length_le_flatMap_encode (rs : List EventRecord) :
    rs.length ≤ (rs.flatMap encode).length := by
  induction rs with
  | nil => exact Nat.le_refl _
  | cons r rs ih =>
    rw [flatMap_cons, length_append, encode_length, length_cons, size, EVENT_HEADER_SIZE]
    omega

theorem stream_encode {rs : List EventRecord} (h : ∀ r ∈ rs, r.payload.length < 2 ^ 32) :
    stream (rs.flatMap encode) = rs :=
  decodeAll_encode h (Nat.lt_succ_of_le (length_le_flatMap_encode rs))

end EventRecord

/-! ## The buffer and its staging area -/

/-- Where the payload of the last exit record lives until its memory hash is known. -/
inductive ExitLoc
  | buffer (offset : Nat)
  | pending
  deriving DecidableEq, Repr

theorem randomness_ne_exit : EventKind.randomness ≠ .exit := by decide

theorem zero_aligned : 0 % 8 = 0 := rfl

/-- The event-stream part of the VM state.  `bytes` is the event buffer and `len` its
write cursor `event_len`; `pendingBytes` is the staging buffer and `pendingLen` the length
of the payload in it; `serialLine` is the serial line being accumulated.  The cursor
stays inside the buffer and on a multiple of eight bytes, and a staged payload inside
the staging buffer. -/
structure EventStream where
  attached : Bool := false
  bytes : Nat → UInt8 := fun _ => 0
  len : Nat := 0
  seq : UInt64 := 0
  categories : UInt32 := 0
  pending : Option EventKind := none
  pendingBytes : Nat → UInt8 := fun _ => 0
  pendingLen : Nat := 0
  pendingFlags : UInt16 := 0
  pendingTsc : UInt64 := 0
  pendingRealTsc : UInt64 := 0
  pendingExitLoc : Option ExitLoc := none
  serialLine : List UInt8 := []
  serialLineTsc : UInt64 := 0
  serialLineRealTsc : UInt64 := 0
  len_le : len ≤ EVENT_BUFFER_SIZE := by exact Nat.zero_le _
  len_mod : len % 8 = 0 := by exact zero_aligned
  pendingLen_le : pendingLen ≤ IO_CHANNEL_BUF_SIZE := by exact Nat.zero_le _

namespace EventStream

def buffer (es : EventStream) : List UInt8 :=
  window es.bytes 0 es.len

def pendingBuf (es : EventStream) : List UInt8 :=
  window es.pendingBytes 0 es.pendingLen

def enabled (es : EventStream) (kind : EventKind) : Bool :=
  es.categories &&& kind.category == kind.category

def fits (es : EventStream) (len : Nat) : Bool :=
  es.len + EventRecord.size len ≤ EVENT_BUFFER_SIZE

/-- The record `event_write` appends. -/
def record (es : EventStream) (kind : EventKind) (flags : UInt16) (tsc realTsc : UInt64)
    (payload : List UInt8) : EventRecord :=
  ⟨es.seq, tsc, realTsc, kind.asU16, flags, payload⟩

theorem fits_iff (es : EventStream) (len : Nat) :
    es.fits len ↔ es.len + EventRecord.size len ≤ EVENT_BUFFER_SIZE := by
  simp [fits]

/-- `event_write`; the head and tail of the payload are passed as one string. -/
def write (es : EventStream) (kind : EventKind) (flags : UInt16) (tsc realTsc : UInt64)
    (payload : List UInt8) : Bool × EventStream :=
  if !es.enabled kind then (true, es)
  else if !es.attached then (true, es)
  else if hfits : es.fits payload.length = true then
    (true, { es with
      bytes := splice es.bytes es.len (es.record kind flags tsc realTsc payload).encode
      len := es.len + EventRecord.size payload.length
      seq := es.seq + 1
      len_le := (es.fits_iff _).mp hfits
      len_mod := EventRecord.add_size_mod es.len_mod _ })
  else if es.pending.isNone then
    (false, { es with
      pending := some kind
      pendingBytes := splice es.pendingBytes 0 (payload.take IO_CHANNEL_BUF_SIZE)
      pendingLen := (payload.take IO_CHANNEL_BUF_SIZE).length
      pendingFlags := flags
      pendingTsc := tsc
      pendingRealTsc := realTsc
      pendingLen_le := length_take_le _ _ })
  else (false, es)

/-- `event_len_at_last_record`, in the arithmetic of `usize`. -/
def lenAtLastRecord (es : EventStream) : Nat :=
  (es.len + 2 ^ 64 - EventRecord.size es.pendingLen + EVENT_HEADER_SIZE) % 2 ^ 64

/-- `event_clear`: forget the drained records and append the staged one. -/
def clear (es : EventStream) : EventStream :=
  let drained := { es with len := 0, len_le := Nat.zero_le _, len_mod := zero_aligned }
  match es.pending with
  | none => drained
  | some kind =>
    let es := ({ drained with pending := none }.write kind es.pendingFlags es.pendingTsc
      es.pendingRealTsc es.pendingBuf).2
    let relocated :=
      if kind = .exit ∧ es.pendingExitLoc = some .pending then
        { es with pendingExitLoc := some (.buffer es.lenAtLastRecord) }
      else es
    { relocated with pendingLen := 0, pendingLen_le := Nat.zero_le _ }

/-- `event_flush_serial_line` -/
def flushSerialLine (es : EventStream) : Bool × EventStream :=
  if es.serialLine = [] then (true, es)
  else
    { es with serialLine := [] }.write .serial EventKind.serial.defaultFlags
      es.serialLineTsc es.serialLineRealTsc es.serialLine

/-- `event_serial_byte`; the stamps are used if the byte starts a line. -/
def serialByte (es : EventStream) (byte : UInt8) (tsc realTsc : UInt64) :
    Bool × EventStream :=
  if !es.enabled .serial then (true, es)
  else
    let es :=
      if es.serialLine = [] then { es with serialLineTsc := tsc, serialLineRealTsc := realTsc }
      else es
    let es :=
      if es.serialLine.length < SERIAL_LINE_ACC_SIZE then
        { es with serialLine := es.serialLine ++ [byte] }
      else es
    if byte = 10 ∨ es.serialLine.length = SERIAL_LINE_ACC_SIZE then es.flushSerialLine
    else (true, es)

/-- `emit_exit_event`: append an exit record and remember where its payload went. -/
def emitExit (es : EventStream) (deterministic : Bool) (tsc realTsc : UInt64)
    (payload : List UInt8) : EventStream :=
  let es := { es with pendingExitLoc := none }
  if !es.attached || !es.enabled .exit then es
  else
    let flags := if deterministic then EVENT_FLAG_DETERMINISTIC else 0
    let offset := es.len + EVENT_HEADER_SIZE
    let (fit, es) := es.write .exit flags tsc realTsc payload
    { es with pendingExitLoc := some (if fit then .buffer offset else .pending) }

/-- Byte offsets of `memory_hash` and `cow_page_count` in an exit record. -/
def MEMORY_HASH_OFFSET : Nat := 216

def COW_PAGE_COUNT_OFFSET : Nat := 300

/-- Write the two deferred fields of the exit record whose payload starts at `base`. -/
def patchExit (bytes : Nat → UInt8) (base : Nat) (memoryHash : UInt64) (cowPageCount : UInt32) :
    Nat → UInt8 :=
  splice (splice bytes (base + MEMORY_HASH_OFFSET) (leBytes 8 memoryHash.toNat))
    (base + COW_PAGE_COUNT_OFFSET) (leBytes 4 cowPageCount.toNat)

/-- `finalize_exit_memory_hash` -/
def finalizeExit (es : EventStream) (memoryHash : UInt64) (cowPageCount : UInt32) :
    EventStream :=
  match es.pendingExitLoc with
  | none => es
  | some (.buffer offset) =>
    let es := { es with pendingExitLoc := none }
    if es.attached then { es with bytes := patchExit es.bytes offset memoryHash cowPageCount }
    else es
  | some .pending =>
    { es with
      pendingExitLoc := none
      pendingBytes := patchExit es.pendingBytes 0 memoryHash cowPageCount }

end EventStream

/-! ## Payloads -/

/-- `InjectPayload` of an APIC-timer interrupt. -/
def injectPayload (vector : UInt8) (targetTsc : Nat) : List UInt8 :=
  vector :: 0 :: List.replicate 6 0 ++ leBytes 8 targetTsc

inductive RandomSource
  | rdrand | rdseed | getRandom
  deriving DecidableEq, Repr

def RandomSource.asU8 : RandomSource → UInt8
  | rdrand => 0
  | rdseed => 1
  | getRandom => 2

/-- `RandomPayload`, followed by the served bytes. -/
def randomPayload (value : UInt64) (pid : UInt32) (source : RandomSource) (width : UInt8)
    (bytes : List UInt8) : List UInt8 :=
  leBytes 8 value.toNat ++ leBytes 4 pid.toNat ++ [source.asU8, width, 0, 0] ++ bytes

inductive IoChannelPhase
  | request | response
  deriving DecidableEq, Repr

def IoChannelPhase.asU8 : IoChannelPhase → UInt8
  | request => 0
  | response => 1

/-- `IoChannelPayload`, followed by the bytes of the transaction. -/
def ioChannelPayload (phase : IoChannelPhase) (targetTsc : Nat) (bytes : List UInt8) :
    List UInt8 :=
  phase.asU8 :: List.replicate 7 0 ++ leBytes 8 targetTsc ++ bytes

theorem ioChannelPayload_length (phase : IoChannelPhase) (targetTsc : Nat) (bytes : List UInt8) :
    (ioChannelPayload phase targetTsc bytes).length = 16 + bytes.length := by
  simp only [ioChannelPayload, length_append, length_cons, length_replicate, leBytes_length]

end Bedrock
