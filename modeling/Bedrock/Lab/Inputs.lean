import Bedrock.Lab

/-!
# Recording and replaying inputs

A branch with an input source rebuilds from its event stream which randomness and which
I/O requests reached the guest.  A recording is itself an input source: asked for the same
things again, it gives the same answers.
-/

namespace Bedrock

open Support List EventKind InputSource

namespace Lab

/-- The ranges of the bytes that continue a character begun with `b`; `none` if no
character begins so. -/
def utf8Continuation (b : UInt8) : Option (List (UInt8 × UInt8)) :=
  if b ≤ 0x7F then some []
  else if 0xC2 ≤ b ∧ b ≤ 0xDF then some [(0x80, 0xBF)]
  else if b = 0xE0 then some [(0xA0, 0xBF), (0x80, 0xBF)]
  else if b = 0xED then some [(0x80, 0x9F), (0x80, 0xBF)]
  else if 0xE1 ≤ b ∧ b ≤ 0xEF then some [(0x80, 0xBF), (0x80, 0xBF)]
  else if b = 0xF0 then some [(0x90, 0xBF), (0x80, 0xBF), (0x80, 0xBF)]
  else if b = 0xF4 then some [(0x80, 0x8F), (0x80, 0xBF), (0x80, 0xBF)]
  else if 0xF1 ≤ b ∧ b ≤ 0xF3 then some [(0x80, 0xBF), (0x80, 0xBF), (0x80, 0xBF)]
  else none

/-- Split off the bytes that continue a character, as far as they do; the flag says
whether they complete it. -/
def takeContinuation : List (UInt8 × UInt8) → List UInt8 → Bool × List UInt8 × List UInt8
  | [], bytes => (true, [], bytes)
  | _ :: _, [] => (false, [], [])
  | (lo, hi) :: ranges, b :: bytes =>
    if lo ≤ b ∧ b ≤ hi then
      let (complete, taken, rest) := takeContinuation ranges bytes
      (complete, b :: taken, rest)
    else (false, [], b :: bytes)

/-- The character with this first byte and these continuation bytes. -/
def utf8Char (b : UInt8) (continuation : List UInt8) : Char :=
  let first := if continuation = [] then b.toNat else b.toNat % 2 ^ (6 - continuation.length)
  .ofNat (continuation.foldl (fun n b => n * 64 + b.toNat % 64) first)

/-- `String::from_utf8_lossy`, character by character. -/
def utf8Lossy : (fuel : Nat) → List UInt8 → List Char
  | 0, _ => []
  | _, [] => []
  | fuel + 1, b :: bytes =>
    match utf8Continuation b with
    | none => .ofNat 0xFFFD :: utf8Lossy fuel bytes
    | some ranges =>
      let (complete, taken, rest) := takeContinuation ranges bytes
      (if complete then utf8Char b taken else .ofNat 0xFFFD) :: utf8Lossy fuel rest

/-- `split_cstr` -/
def splitCstr (bytes : List UInt8) : String × List UInt8 :=
  let text := bytes.takeWhile (· ≠ 0)
  (.ofList (utf8Lossy text.length text), (bytes.dropWhile (· ≠ 0)).drop 1)

def REQUEST_HEADER_LEN : Nat := 12

/-- `IoRequest` -/
structure IoRequest where
  target : BashTarget
  command : String
  recordOutput : Bool
  deriving DecidableEq, Repr

/-- `decode_request`: the declared length of the payload is ignored. -/
def decodeRequest (bytes : List UInt8) : Option IoRequest := do
  let (magic, rest) ← takeField 4 bytes
  if magic ≠ IO_REQUEST_MAGIC then none
  else
    let (flags, _) ← takeField 4 rest
    let (container, rest) := splitCstr (bytes.drop REQUEST_HEADER_LEN)
    some
      { target := if container = "" then .host else .container container
        command := (splitCstr rest).1
        recordOutput := flags.testBit 0 }

/-! ## Event records -/

/-- `RandomPayload` -/
structure RandomPayload where
  value : UInt64
  pid : UInt32
  source : UInt8
  width : UInt8
  deriving DecidableEq, Repr

/-- `IoChannelPayload` -/
structure IoChannelPayload where
  phase : UInt8
  targetTsc : UInt64
  deriving DecidableEq, Repr

/-- The two payloads a recording is made from, each with the bytes that follow it; the
kinds of event that carry no input are one case. -/
inductive RecordedEvent
  | randomness (p : RandomPayload) (bytes : List UInt8)
  | ioChannel (p : IoChannelPayload) (data : List UInt8)
  | other
  deriving DecidableEq, Repr

/-- `ref_from_prefix` of a `RandomPayload`. -/
def splitRandomPayload (payload : List UInt8) : Option (RandomPayload × List UInt8) := do
  let (value, rest) ← takeField 8 payload
  let (pid, rest) ← takeField 4 rest
  let (source, rest) ← takeField 1 rest
  let (width, rest) ← takeField 1 rest
  let (_, rest) ← takeField 2 rest
  some (⟨.ofNat value, .ofNat pid, .ofNat source, .ofNat width⟩, rest)

/-- `ref_from_prefix` of an `IoChannelPayload`. -/
def splitIoChannelPayload (payload : List UInt8) : Option (IoChannelPayload × List UInt8) := do
  let (phase, rest) ← takeField 1 payload
  let (_, rest) ← takeField 7 rest
  let (targetTsc, rest) ← takeField 8 rest
  some (⟨.ofNat phase, .ofNat targetTsc⟩, rest)

/-- `EventRecord::event` -/
def event (r : EventRecord) : RecordedEvent :=
  if r.kind = randomness.asU16 then
    match splitRandomPayload r.payload with
    | some (p, bytes) => .randomness p bytes
    | none => .other
  else if r.kind = ioChannel.asU16 then
    match splitIoChannelPayload r.payload with
    | some (p, data) => .ioChannel p data
    | none => .other
  else .other

/-- `RandomSource::from_u8` -/
def randomSourceFromU8 (v : UInt8) : RandomSource :=
  if v = RandomSource.rdseed.asU8 then .rdseed
  else if v = RandomSource.getRandom.asU8 then .getRandom
  else .rdrand

/-! ## Recordings -/

/-- `RandomInput`; `servedAt` is its `at`. -/
structure RandomInput where
  servedAt : VirtTime
  source : RandomSource
  pid : UInt32
  bytes : List UInt8
  deriving DecidableEq, Repr

structure InputRecording where
  randomInputs : List RandomInput := []
  ioInputs : List IoInput := []
  deriving DecidableEq, Repr

/-- `VirtTime::from_instructions` -/
def fromInstructions (instructions : UInt64) (freq : Nat) : VirtTime :=
  ⟨instructions.toNat, freq⟩

def randomInput (freq : Nat) (r : EventRecord) : Option RandomInput :=
  match event r with
  | .randomness p bytes =>
    let source := randomSourceFromU8 p.source
    let (pid, bytes) :=
      if source = .getRandom then (p.pid, bytes) else (0, leBytes 8 p.value.toNat)
    some ⟨fromInstructions r.tsc freq, source, pid, bytes⟩
  | _ => none

def ioInput (freq : Nat) (r : EventRecord) : Option IoInput :=
  match event r with
  | .ioChannel p data =>
    if p.phase = IoChannelPhase.request.asU8 then
      (decodeRequest data).map fun req =>
        ⟨fromInstructions r.tsc freq, req.target, req.command, req.recordOutput⟩
    else none
  | _ => none

namespace InputRecording

/-- `record_event` -/
def recordEvent (rec : InputRecording) (r : EventRecord) (freq : Nat) : InputRecording :=
  { randomInputs := rec.randomInputs ++ (randomInput freq r).toList
    ioInputs := rec.ioInputs ++ (ioInput freq r).toList }

def recordAll (rec : InputRecording) (rs : List EventRecord) (freq : Nat) : InputRecording :=
  rs.foldl (fun rec r => rec.recordEvent r freq) rec

theorem recordAll_eq (rec : InputRecording) (rs : List EventRecord) (freq : Nat) :
    rec.recordAll rs freq =
      { randomInputs := rec.randomInputs ++ rs.filterMap (randomInput freq)
        ioInputs := rec.ioInputs ++ rs.filterMap (ioInput freq) } := by
  unfold recordAll
  induction rs generalizing rec with
  | nil => simp
  | cons r rs ih =>
    rw [foldl_cons, ih]
    cases hrandom : randomInput freq r <;> cases hio : ioInput freq r <;>
      simp [recordEvent, hrandom, hio]

end InputRecording

/-! ## Sources -/

/-- The bytes the default `next_random` puts together from whole numbers; an exhausted
source counts as zero. -/
def synthesize {S : Type} (next : S → Option UInt64 × S) : (rounds len : Nat) → S → List UInt8 × S
  | 0, _, s => ([], s)
  | rounds + 1, len, s =>
    if len = 0 then ([], s)
    else
      let (v, s) := next s
      let (rest, s) := synthesize next rounds (len - 8) s
      ((leBytes 8 (v.getD 0).toNat).take len ++ rest, s)

/-- `InputSource` with its randomness. -/
class InputSource (S : Type) extends Bedrock.InputSource S where
  nextRngU64 : S → Option UInt64 × S
  nextRandom : (len : Nat) → (pid : UInt32) → S → List UInt8 × S :=
    fun len _ s => synthesize nextRngU64 len len s

/-- `RecordedInputSource` -/
structure RecordedInputSource where
  recording : InputRecording
  randomPos : Nat := 0
  ioPos : Nat := 0
  deriving DecidableEq, Repr

namespace RecordedInputSource

/-- Its `next_rng_u64`. -/
def nextRngU64 (s : RecordedInputSource) : Option UInt64 × RecordedInputSource :=
  match s.recording.randomInputs[s.randomPos]? with
  | none => (none, s)
  | some input =>
    -- shorter values are filled up with zeros
    (some (.ofNat (ofLeBytes (input.bytes.take 8))), { s with randomPos := s.randomPos + 1 })

/-- `Vec::resize` with zeros. -/
def resize (bytes : List UInt8) (len : Nat) : List UInt8 :=
  bytes.take len ++ List.replicate (len - bytes.length) 0

/-- Its `next_random`: the cursor moves even past the end. -/
def nextRandom (len : Nat) (s : RecordedInputSource) : List UInt8 × RecordedInputSource :=
  let bytes := (s.recording.randomInputs[s.randomPos]?.map RandomInput.bytes).getD []
  (resize bytes len, { s with randomPos := s.randomPos + 1 })

/-- Its `next_io_input`. -/
def nextIoInput (s : RecordedInputSource) : Option IoInput × RecordedInputSource :=
  let input := s.recording.ioInputs[s.ioPos]?
  (input, if input.isSome then { s with ioPos := s.ioPos + 1 } else s)

end RecordedInputSource

instance : InputSource RecordedInputSource where
  nextIoInput := RecordedInputSource.nextIoInput
  nextRngU64 := RecordedInputSource.nextRngU64
  nextRandom len _ := RecordedInputSource.nextRandom len

/-! ## Asking a source -/

/-- What is asked of a source. -/
inductive Ask
  | rngU64
  | random (len : Nat) (pid : UInt32)
  | ioInput
  deriving DecidableEq, Repr

inductive Answer
  | rngU64 (value : Option UInt64)
  | random (bytes : List UInt8)
  | ioInput (input : Option IoInput)
  deriving DecidableEq, Repr

variable {S : Type} [InputSource S]

def ask (s : S) : Ask → Answer × S
  | .rngU64 => (.rngU64 (InputSource.nextRngU64 s).1, (InputSource.nextRngU64 s).2)
  | .random len pid =>
    (.random (InputSource.nextRandom len pid s).1, (InputSource.nextRandom len pid s).2)
  | .ioInput =>
    (.ioInput (Bedrock.InputSource.nextIoInput s).1, (Bedrock.InputSource.nextIoInput s).2)

def answers (s : S) : List Ask → List Answer
  | [] => []
  | q :: qs => (ask s q).1 :: answers (ask s q).2 qs

/-! ## Replay -/

def Ask.isRandom : Ask → Bool
  | .ioInput => false
  | _ => true

def Answer.isRandom : Answer → Bool
  | .ioInput _ => false
  | _ => true

def Answer.io : Answer → Option (Option IoInput)
  | .ioInput input => some input
  | _ => none

def served (r : EventRecord) : Option Answer :=
  match event r with
  | .randomness p bytes =>
    some (if randomSourceFromU8 p.source = .getRandom then .random bytes
      else .rngU64 (some p.value))
  | _ => none

/-- The question is of the kind the record answered, and of the same length. -/
def Ask.Repeats (q : Ask) (r : EventRecord) : Prop :=
  match event r with
  | .randomness p bytes =>
    if randomSourceFromU8 p.source = .getRandom then ∃ pid, q = .random bytes.length pid
    else q = .rngU64
  | _ => False

namespace RandomInput

def answer (input : RandomInput) : Answer :=
  if input.source = .getRandom then .random input.bytes
  else .rngU64 (some (.ofNat (ofLeBytes (input.bytes.take 8))))

/-- The question an input answers. -/
def Asked (q : Ask) (input : RandomInput) : Prop :=
  if input.source = .getRandom then ∃ pid, q = .random input.bytes.length pid else q = .rngU64

end RandomInput

theorem randomInput_answer (r : EventRecord) (freq : Nat) :
    (randomInput freq r).map RandomInput.answer = served r := by
  unfold randomInput served
  cases event r with
  | other | ioChannel p data => rfl
  | randomness p bytes =>
    by_cases hsource : randomSourceFromU8 p.source = .getRandom
    · simp [hsource, RandomInput.answer]
    have hvalue : p.value.toNat < 256 ^ 8 := p.value.toNat_lt
    simp [hsource, RandomInput.answer, ofLeBytes_leBytes_of_lt hvalue,
      take_of_length_le (leBytes_length 8 p.value.toNat).le]

theorem Ask.Repeats.asked {q : Ask} {r : EventRecord} (h : q.Repeats r) (freq : Nat) :
    ∃ input, randomInput freq r = some input ∧ RandomInput.Asked q input := by
  unfold Ask.Repeats at h
  unfold randomInput RandomInput.Asked
  cases hevent : event r with
  | other | ioChannel p data =>
    rw [hevent] at h
    exact h.elim
  | randomness p bytes =>
    rw [hevent] at h
    dsimp only at h ⊢
    by_cases hsource : randomSourceFromU8 p.source = .getRandom
    · rw [if_pos hsource] at h
      exact ⟨_, rfl, by simpa [hsource] using h⟩
    · rw [if_neg hsource] at h
      exact ⟨_, rfl, by simpa [hsource] using h⟩

namespace RecordedInputSource

variable {s : RecordedInputSource}

theorem resize_self (bytes : List UInt8) : resize bytes bytes.length = bytes := by
  simp [resize]

theorem ask_random {q : Ask} {input : RandomInput}
    (hinput : s.recording.randomInputs[s.randomPos]? = some input)
    (hasked : RandomInput.Asked q input) :
    ask s q = (input.answer, { s with randomPos := s.randomPos + 1 }) := by
  unfold RandomInput.Asked at hasked
  unfold RandomInput.answer
  split at hasked
  · rename_i hsource
    obtain ⟨pid, rfl⟩ := hasked
    simp [ask, InputSource.nextRandom, nextRandom, hinput, hsource, resize_self]
  · rename_i hsource
    subst hasked
    simp [ask, InputSource.nextRngU64, nextRngU64, hinput, hsource]

theorem ask_io_pos {q : Ask} (hq : q.isRandom) :
    (ask s q).2.recording = s.recording ∧ (ask s q).2.ioPos = s.ioPos := by
  cases q with
  | ioInput => cases hq
  | random len pid => exact ⟨rfl, rfl⟩
  | rngU64 =>
    simp only [ask, InputSource.nextRngU64, nextRngU64]
    split
    all_goals exact ⟨rfl, rfl⟩

theorem ask_io_randomPos :
    (ask s .ioInput).2.recording = s.recording ∧ (ask s .ioInput).2.randomPos = s.randomPos := by
  simp only [ask, Bedrock.InputSource.nextIoInput, nextIoInput]
  split
  all_goals exact ⟨rfl, rfl⟩

theorem answers_random {qs : List Ask}
    (h : List.Forall₂ RandomInput.Asked (qs.filter Ask.isRandom)
      (s.recording.randomInputs.drop s.randomPos)) :
    (answers s qs).filter Answer.isRandom =
      (s.recording.randomInputs.drop s.randomPos).map RandomInput.answer := by
  induction qs generalizing s with
  | nil =>
    cases hrest : s.recording.randomInputs.drop s.randomPos with
    | nil => rfl
    | cons input rest =>
      rw [hrest] at h
      cases h
  | cons q qs ih =>
    cases hq : q.isRandom with
    | false =>
      cases q with
      | ioInput =>
        obtain ⟨hrec, hpos⟩ := ask_io_randomPos (s := s)
        have hrest := ih (s := (ask s .ioInput).2) (by
          rw [hrec, hpos]
          simpa [Ask.isRandom] using h)
        rw [hrec, hpos] at hrest
        rw [← hrest]
        rfl
      | rngU64 => cases hq
      | random len pid => cases hq
    | true =>
      rw [filter_cons_of_pos hq] at h
      cases hrest : s.recording.randomInputs.drop s.randomPos with
      | nil =>
        rw [hrest] at h
        cases h
      | cons input rest =>
        rw [hrest] at h
        obtain ⟨hasked, htail⟩ := forall₂_cons.mp h
        have hinput : s.recording.randomInputs[s.randomPos]? = some input := by
          rw [← List.head?_drop, hrest]
          rfl
        have hlater : s.recording.randomInputs.drop (s.randomPos + 1) = rest := by
          rw [← tail_drop, hrest]
          rfl
        have hstep := ask_random hinput hasked
        have hrandom : input.answer.isRandom := by
          unfold RandomInput.answer
          split
          all_goals rfl
        rw [answers, hstep, filter_cons_of_pos hrandom, map_cons, ← hlater]
        exact congrArg _ (ih (s := { s with randomPos := s.randomPos + 1 }) (hlater ▸ htail))

theorem answers_io (s : RecordedInputSource) (qs : List Ask) :
    (answers s qs).filterMap Answer.io =
      (List.range (qs.count .ioInput)).map fun i => s.recording.ioInputs[s.ioPos + i]? := by
  induction qs generalizing s with
  | nil => rfl
  | cons q qs ih =>
    cases hq : q.isRandom with
    | true =>
      obtain ⟨hrec, hpos⟩ := ask_io_pos (s := s) hq
      have hanswer : (ask s q).1.io = none := by
        cases q with
        | ioInput => cases hq
        | random len pid => rfl
        | rngU64 => rfl
      have hne : q ≠ .ioInput := by
        rintro rfl
        cases hq
      rw [answers, filterMap_cons_none hanswer, ih, hrec, hpos, count_cons_of_ne hne]
    | false =>
      cases q with
      | rngU64 => cases hq
      | random len pid => cases hq
      | ioInput =>
        have hanswer : (ask s .ioInput).1.io = some s.recording.ioInputs[s.ioPos]? := rfl
        -- past the end the cursor stays, and nothing follows it
        have hlater : ∀ i, (ask s .ioInput).2.recording.ioInputs[(ask s .ioInput).2.ioPos + i]? =
            s.recording.ioInputs[s.ioPos + (i + 1)]? := by
          intro i
          simp only [ask, Bedrock.InputSource.nextIoInput, nextIoInput]
          cases hinput : s.recording.ioInputs[s.ioPos]? with
          | some input =>
            have hpos : s.ioPos + 1 + i = s.ioPos + (i + 1) := by omega
            rw [Option.isSome_some, if_pos rfl, ← hpos]
          | none =>
            have hend := List.getElem?_eq_none_iff.mp hinput
            rw [Option.isSome_none, if_neg Bool.false_ne_true,
              List.getElem?_eq_none (by omega), List.getElem?_eq_none (by omega)]
        rw [answers, filterMap_cons_some hanswer, ih, count_cons_self,
          range_succ_eq_map, map_cons, map_map]
        exact congrArg _ (map_congr_left fun i _ => hlater i)

end RecordedInputSource

theorem asked_of_repeats (freq : Nat) {rs : List EventRecord} {qs : List Ask}
    (h : List.Forall₂ Ask.Repeats qs (rs.filter fun r => (served r).isSome)) :
    List.Forall₂ RandomInput.Asked qs (rs.filterMap (randomInput freq)) := by
  induction rs generalizing qs with
  | nil =>
    cases h
    exact .nil
  | cons r rs ih =>
    have hanswer := randomInput_answer r freq
    cases hserved : served r with
    | none =>
      have hnone : randomInput freq r = none := by
        rw [hserved] at hanswer
        exact Option.map_eq_none_iff.mp hanswer
      rw [filter_cons_of_neg (by simp [hserved])] at h
      rw [filterMap_cons_none hnone]
      exact ih h
    | some answer =>
      rw [filter_cons_of_pos (by simp [hserved])] at h
      cases h with
      | cons hrepeats hrest =>
        obtain ⟨input, hinput, hasked⟩ := hrepeats.asked freq
        rw [filterMap_cons_some hinput]
        exact .cons hasked (ih hrest)

/-- A recording of a stream, asked again for the randomness that was served, with I/O
inputs asked for in between, gives the same randomness in the same order, and the recorded
I/O inputs in their order and then none. -/
theorem replay_answers (freq : Nat) (rs : List EventRecord) (qs : List Ask)
    (h : List.Forall₂ Ask.Repeats (qs.filter Ask.isRandom)
      (rs.filter fun r => (served r).isSome)) :
    let source : RecordedInputSource := { recording := InputRecording.recordAll {} rs freq }
    (answers source qs).filter Answer.isRandom = rs.filterMap served ∧
      (answers source qs).filterMap Answer.io =
        (List.range (qs.count .ioInput)).map fun i => (rs.filterMap (ioInput freq))[i]? := by
  intro source
  have hrec := InputRecording.recordAll_eq {} rs freq
  have hrandom : source.recording.randomInputs = rs.filterMap (randomInput freq) :=
    congrArg InputRecording.randomInputs hrec
  have hio : source.recording.ioInputs = rs.filterMap (ioInput freq) :=
    congrArg InputRecording.ioInputs hrec
  constructor
  · have hasked : List.Forall₂ RandomInput.Asked (qs.filter Ask.isRandom)
        (source.recording.randomInputs.drop source.randomPos) := by
      rw [hrandom]
      exact asked_of_repeats freq h
    rw [RecordedInputSource.answers_random hasked]
    show source.recording.randomInputs.map RandomInput.answer = _
    rw [hrandom, List.map_filterMap]
    exact List.filterMap_congr fun r _ => randomInput_answer r freq
  · rw [RecordedInputSource.answers_io, hio]
    refine List.map_congr_left fun i _ => ?_
    rw [show source.ioPos + i = i from Nat.zero_add i]

/-- An RDRAND, a reply to GET_RANDOM and a request to run `ls` on the host. -/
def mixedRecords : List EventRecord :=
  [⟨0, 100, 0, randomness.asU16, 1, randomPayload 7 0 .rdrand 8 []⟩,
    ⟨1, 200, 0, randomness.asU16, 1, randomPayload 0 42 .getRandom 0 [1, 2, 3]⟩,
    ⟨2, 300, 0, ioChannel.asU16, 1,
      ioChannelPayload .request 0 (encodeRequest .host "ls" false)⟩]

theorem replay_answers_mixed :
    let source : RecordedInputSource := { recording := InputRecording.recordAll {} mixedRecords 10 }
    (answers source [.rngU64, .ioInput, .random 3 0]).filter Answer.isRandom =
      [.rngU64 (some 7), .random [1, 2, 3]] :=
  (replay_answers 10 mixedRecords [.rngU64, .ioInput, .random 3 0]
    (.cons rfl (.cons ⟨0, rfl⟩ .nil))).1

end Lab

end Bedrock
