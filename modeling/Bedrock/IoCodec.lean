import Bedrock.IoWorker

/-!
# Requests between the host and the guest

The host encodes requests and decodes those in the event stream; the guest's worker parses
them with a parser of its own.  What the worker accepts the host decodes to the same
request, and what the host encodes the worker accepts.
-/

namespace Bedrock

open Support List Option

namespace Lab

theorem utf8Lossy_of_continuation {fuel : Nat} {b : UInt8} {bytes taken rest : List UInt8}
    {ranges : List (UInt8 × UInt8)} (hb : utf8Continuation b = some ranges)
    (htaken : takeContinuation ranges bytes = (true, taken, rest)) :
    utf8Lossy (fuel + 1) (b :: bytes) = utf8Char b taken :: utf8Lossy fuel rest := by
  rw [utf8Lossy, hb]
  simp only [htaken, if_true]

theorem takeContinuation_ofNat {lo hi : UInt8} {n : Nat} {ranges : List (UInt8 × UInt8)}
    {bytes taken rest : List UInt8} (h : lo.toNat ≤ n ∧ n ≤ hi.toNat)
    (htaken : takeContinuation ranges bytes = (true, taken, rest)) :
    takeContinuation ((lo, hi) :: ranges) (UInt8.ofNat n :: bytes) =
      (true, UInt8.ofNat n :: taken, rest) := by
  have hn : (UInt8.ofNat n).toNat = n := UInt8.toNat_ofNat_of_lt' (h.2.trans_lt hi.toNat_lt)
  rw [takeContinuation, if_pos (by rwa [UInt8.le_iff_toNat_le, UInt8.le_iff_toNat_le, hn]), htaken]

/-- The first bytes of characters of one to four bytes. -/
theorem utf8Continuation_leads :
    (∀ n < 128, utf8Continuation (.ofNat n) = some []) ∧
    (∀ n < 32, 2 ≤ n → utf8Continuation (.ofNat (n + 192)) = some [(0x80, 0xBF)]) ∧
    (∀ n < 16, utf8Continuation (.ofNat (n + 224)) =
      some [(if n = 0 then 0xA0 else 0x80, if n = 13 then 0x9F else 0xBF), (0x80, 0xBF)]) ∧
    ∀ n < 5, utf8Continuation (.ofNat (n + 240)) =
      some [(if n = 0 then 0x90 else 0x80, if n = 4 then 0x8F else 0xBF), (0x80, 0xBF),
        (0x80, 0xBF)] := by
  refine ⟨?_, ?_, ?_, ?_⟩ <;> decide +kernel

theorem utf8Lossy_encodeChar (fuel : Nat) (c : Char) (rest : List UInt8) :
    utf8Lossy (fuel + 1) (String.utf8EncodeChar c ++ rest) = c :: utf8Lossy fuel rest := by
  have hvalid : c.val.toNat < 0xD800 ∨ 0xDFFF < c.val.toNat ∧ c.val.toNat < 0x110000 := c.valid
  have hchar : ∀ n, n = c.val.toNat → Char.ofNat n = c := by
    rintro n rfl
    exact Char.ofNat_toNat c
  obtain ⟨hone, htwo, hthree, hfour⟩ := utf8Continuation_leads
  unfold String.utf8EncodeChar
  generalize c.val.toNat = v at *
  dsimp only
  split_ifs with h1 h2 h3
  · refine (utf8Lossy_of_continuation (hone v (by omega)) rfl).trans
      (congrArg (· :: _) (hchar _ ?_))
    simp
    omega
  · refine (utf8Lossy_of_continuation (htwo (v / 64 % 32) (by omega) (by omega))
      (takeContinuation_ofNat (by simp; omega) rfl)).trans (congrArg (· :: _) (hchar _ ?_))
    simp
    omega
  · refine (utf8Lossy_of_continuation (hthree (v / 4096 % 16) (by omega))
      (takeContinuation_ofNat ?_ (takeContinuation_ofNat (by simp; omega) rfl))).trans
      (congrArg (· :: _) (hchar _ ?_))
    · split_ifs <;> simp <;> omega
    · simp
      omega
  · refine (utf8Lossy_of_continuation (hfour (v / 262144 % 8) (by omega))
      (takeContinuation_ofNat ?_ (takeContinuation_ofNat (by simp; omega)
        (takeContinuation_ofNat (by simp; omega) rfl)))).trans (congrArg (· :: _) (hchar _ ?_))
    · split_ifs <;> simp <;> omega
    · simp
      omega

theorem utf8Lossy_flatMap {cs : List Char} :
    ∀ {fuel : Nat}, (cs.flatMap String.utf8EncodeChar).length ≤ fuel →
      utf8Lossy fuel (cs.flatMap String.utf8EncodeChar) = cs := by
  induction cs with
  | nil =>
    intro fuel _
    cases fuel <;> rfl
  | cons c cs ih =>
    intro fuel h
    have hpos : 0 < (String.utf8EncodeChar c).length := by
      rw [String.length_utf8EncodeChar]
      exact c.utf8Size_pos
    rw [flatMap_cons, length_append] at h
    obtain ⟨fuel, rfl⟩ : ∃ n, fuel = n + 1 := ⟨fuel - 1, by omega⟩
    rw [flatMap_cons, utf8Lossy_encodeChar, ih (by omega)]

/-- `String::from_utf8_lossy` -/
def fromUtf8Lossy (bytes : List UInt8) : String :=
  .ofList (utf8Lossy bytes.length bytes)

theorem fromUtf8Lossy_toUTF8 (s : String) : fromUtf8Lossy s.toUTF8.data.toList = s := by
  have hbytes : s.toUTF8.data.toList = s.toList.flatMap String.utf8EncodeChar := by
    conv_lhs => rw [← String.ofList_toList (s := s)]
    rw [String.toUTF8_eq_toByteArray, String.toByteArray_ofList, List.utf8Encode, data_toByteArray]
  rw [fromUtf8Lossy, hbytes, utf8Lossy_flatMap le_rfl, String.ofList_toList]

theorem fromUtf8Lossy_eq_empty_iff (bytes : List UInt8) :
    fromUtf8Lossy bytes = "" ↔ bytes = [] := by
  cases bytes with
  | nil => simp [fromUtf8Lossy, utf8Lossy]
  | cons b bytes =>
    simp only [fromUtf8Lossy, length_cons, utf8Lossy, reduceCtorEq, iff_false]
    cases utf8Continuation b <;> simp

end Lab

/-! ## The two parsers -/

namespace IoWorker

open Lab

/-- What the worker's parser takes from a request, whatever else is in the shared page. -/
def parseRequest (bytes stale : List UInt8) : Option (List UInt8 × List UInt8 × Bool) :=
  let env : Env := ⟨true, .ofNat bytes.length, bytes ++ stale, true, 0, 0, 0⟩
  env.fetch.bind fun (header, payload) =>
    (parsePayload payload).toOption.map fun (container, command) =>
      (container, command, header.flags.testBit 0)

theorem takeWhile_take {p : UInt8 → Bool} {l : List UInt8} {n : Nat}
    (h : ((l.take n).takeWhile p).length ≠ (l.take n).length) :
    (l.take n).takeWhile p = l.takeWhile p := by
  conv_rhs => rw [← take_append_drop n l, takeWhile_append, if_neg h]

theorem splitCstr_eq (l : List UInt8) : splitCstr l =
    (fromUtf8Lossy (l.takeWhile (· ≠ 0)), l.drop ((l.takeWhile (· ≠ 0)).length + 1)) := by
  have hdrop : l.dropWhile (· ≠ 0) = l.drop (l.takeWhile (· ≠ 0)).length := by
    conv_rhs => rw [← takeWhile_append_dropWhile (p := (· ≠ 0)) (l := l)]
    rw [drop_left' (by rw [takeWhile_append_dropWhile])]
  rw [splitCstr, hdrop, drop_drop, fromUtf8Lossy]

theorem parsePayload_take {l container command : List UInt8} {n : Nat}
    (h : (parsePayload (l.take n)).toOption = some (container, command)) :
    container = l.takeWhile (· ≠ 0) ∧
      command = (l.drop (container.length + 1)).takeWhile (· ≠ 0) := by
  unfold parsePayload at h
  dsimp only at h
  split_ifs at h with hempty hcontainer hcommand
  all_goals cases h
  rw [drop_take] at hcommand ⊢
  exact ⟨takeWhile_take hcontainer, takeWhile_take hcommand⟩

/-- What the worker accepts the host decodes to the same request. -/
theorem decodeRequest_of_parse {bytes stale container command : List UInt8} {record : Bool}
    (hlen : bytes.length ≤ IO_CHANNEL_BUF_SIZE)
    (h : parseRequest bytes stale = some (container, command, record)) :
    decodeRequest bytes = some
      { target := if container = [] then .host else .container (fromUtf8Lossy container)
        command := fromUtf8Lossy command
        recordOutput := record } := by
  obtain ⟨⟨header, payload⟩, hfetch, hparsed⟩ := bind_eq_some_iff.mp h
  obtain ⟨⟨_, _⟩, hok, heq⟩ := map_eq_some_iff.mp hparsed
  have hwhole : ∀ a n, a + n ≤ bytes.length →
      ((bytes ++ stale).drop a).take n = (bytes.drop a).take n := by
    intro a n hle
    rw [drop_append_of_le_length (by omega), take_append_of_le_length (by rw [length_drop]; omega)]
  have hreq : (UInt64.ofNat bytes.length).toNat = bytes.length :=
    UInt64.toNat_ofNat_of_lt' (hlen.trans_lt (by decide))
  unfold Env.fetch at hfetch
  dsimp only [REQUEST_HEADER_SIZE] at hfetch
  rw [hreq] at hfetch
  split_ifs at hfetch with hrequest hshort hmagic hlong hlost
  cases hfetch
  rw [hwhole _ _ (by omega)] at hok
  cases heq
  obtain ⟨hcontainer, hcommand⟩ := parsePayload_take hok
  have hmagic' : ofLeBytes (bytes.take 4) = IO_REQUEST_MAGIC :=
    (congrArg ofLeBytes (hwhole 0 4 (by omega))).symm.trans (not_not.mp hmagic)
  have hflags : (requestHeader (bytes ++ stale)).flags = ofLeBytes ((bytes.drop 4).take 4) :=
    congrArg ofLeBytes (hwhole 4 4 (by omega))
  simp only [decodeRequest, takeField, splitCstr_eq, REQUEST_HEADER_LEN, ← hcontainer, ← hcommand,
    hflags, if_neg (show ¬bytes.length < 4 by omega)]
  simp [hmagic', fromUtf8Lossy_eq_empty_iff, show ¬bytes.length - 4 < 4 by omega]

theorem parseRequest_of_header {bytes stale payload container command : List UInt8} {flags : Nat}
    (hheader : requestHeader (bytes ++ stale) = ⟨IO_REQUEST_MAGIC, flags, payload.length⟩)
    (hlen : bytes.length = 12 + payload.length) (hfits : bytes.length ≤ IO_CHANNEL_BUF_SIZE)
    (hpayload : ((bytes ++ stale).drop 12).take payload.length = payload)
    (hparse : parsePayload payload = .ok (container, command)) :
    parseRequest bytes stale = some (container, command, flags.testBit 0) := by
  have hreq : (UInt64.ofNat bytes.length).toNat = bytes.length :=
    UInt64.toNat_ofNat_of_lt' (hfits.trans_lt (by decide))
  rw [IO_CHANNEL_BUF_SIZE] at hfits
  have hrequest : IsRequest (UInt64.ofNat bytes.length) := by
    refine ⟨fun h => ?_, fun h => ?_⟩
    all_goals
      have hval := congrArg UInt64.toNat h
      rw [hreq] at hval
      simp only [VMCALL_ERR, UInt64.reduceToNat] at hval
      omega
  have hsize : REQUEST_HEADER_SIZE = 12 := rfl
  have hfetch : Env.fetch ⟨true, .ofNat bytes.length, bytes ++ stale, true, 0, 0, 0⟩ =
      some (⟨IO_REQUEST_MAGIC, flags, payload.length⟩, payload) := by
    unfold Env.fetch
    dsimp only
    rw [hheader, if_neg (not_not.mpr hrequest), hreq, if_neg (by omega), if_neg (not_not.mpr rfl),
      if_neg (by dsimp only; omega), if_neg (by simp)]
    exact congrArg (fun p => some (_, p)) hpayload
  rw [parseRequest, hfetch, bind_some]
  dsimp only
  rw [hparse]
  rfl

theorem parsePayload_encoded {container command : List UInt8} (hcontainer : 0 ∉ container)
    (hcommand : 0 ∉ command) :
    parsePayload (container ++ [0] ++ command ++ [0]) = .ok (container, command) := by
  have htaken : ∀ s rest : List UInt8, 0 ∉ s → (s ++ 0 :: rest).takeWhile (· ≠ 0) = s := by
    intro s rest hs
    rw [takeWhile_append_of_pos fun b hb => decide_eq_true (ne_of_mem_of_not_mem hb hs)]
    simp
  have hfirst : (container ++ [0] ++ command ++ [0]).takeWhile (· ≠ 0) = container := by
    simpa using htaken _ (command ++ [0]) hcontainer
  have hrest :
      (container ++ [0] ++ command ++ [0]).drop (container.length + 1) = command ++ [0] := by
    rw [append_assoc (container ++ [0]), drop_left' (by simp)]
  simp only [parsePayload, hfirst, hrest, htaken _ _ hcommand]
  simp

/-- What the host encodes the worker accepts. -/
theorem parse_encodeRequest {target : BashTarget} {command : String}
    (htarget : 0 ∉ target.containerName.toUTF8.data.toList)
    (hcommand : 0 ∉ command.toUTF8.data.toList) (record : Bool)
    (hfits : (encodeRequest target command record).length ≤ IO_CHANNEL_BUF_SIZE)
    (stale : List UInt8) : parseRequest (encodeRequest target command record) stale =
      some (target.containerName.toUTF8.data.toList, command.toUTF8.data.toList, record) := by
  have hparse := parsePayload_encoded htarget hcommand
  have hlen : (encodeRequest target command record).length = 12 +
      (target.containerName.toUTF8.data.toList ++ [0] ++
        command.toUTF8.data.toList ++ [0]).length := by
    rw [encodeRequest, length_append]
    rfl
  have hpayload : ((encodeRequest target command record ++ stale).drop 12).take
      (target.containerName.toUTF8.data.toList ++ [0] ++
        command.toUTF8.data.toList ++ [0]).length = _ :=
    take_left
  have hrecord : (if record then IO_FLAG_RECORD_OUTPUT else 0).testBit 0 = record := by
    cases record <;> rfl
  rw [parseRequest_of_header ?_ hlen hfits hpayload hparse, hrecord]
  rw [IO_CHANNEL_BUF_SIZE] at hfits
  change RequestHeader.mk (ofLeBytes (leBytes 4 _)) (ofLeBytes (leBytes 4 _))
    (ofLeBytes (leBytes 4 _)) = _
  rw [ofLeBytes_leBytes_of_lt (by decide), ofLeBytes_leBytes_of_lt (by cases record <;> decide),
    ofLeBytes_leBytes_of_lt (by omega)]

/-- The worker's parser and `decode_request` agree, and `encode_request` is inverse to both. -/
theorem request_codecs_agree :
    (∀ bytes stale container command record, bytes.length ≤ IO_CHANNEL_BUF_SIZE →
      parseRequest bytes stale = some (container, command, record) →
      decodeRequest bytes = some
        ⟨if container = [] then .host else .container (fromUtf8Lossy container),
          fromUtf8Lossy command, record⟩) ∧
    ∀ target command record stale, 0 ∉ target.containerName.toUTF8.data.toList →
      0 ∉ command.toUTF8.data.toList →
      (encodeRequest target command record).length ≤ IO_CHANNEL_BUF_SIZE →
      parseRequest (encodeRequest target command record) stale =
          some (target.containerName.toUTF8.data.toList, command.toUTF8.data.toList, record) ∧
        decodeRequest (encodeRequest target command record) = some
          ⟨if target.containerName = "" then .host else .container target.containerName, command,
            record⟩ := by
  refine ⟨fun _ _ _ _ _ => decodeRequest_of_parse, ?_⟩
  intro target command record stale htarget hcommand hfits
  have hparse := parse_encodeRequest htarget hcommand record hfits stale
  refine ⟨hparse, ?_⟩
  rw [decodeRequest_of_parse hfits hparse, fromUtf8Lossy_toUTF8, fromUtf8Lossy_toUTF8]
  simp only [← fromUtf8Lossy_eq_empty_iff, fromUtf8Lossy_toUTF8]

theorem request_codecs_agree_ls :
    decodeRequest (encodeRequest .host "ls" true) = some ⟨.host, "ls", true⟩ :=
  (request_codecs_agree.2 .host "ls" true [] (by decide) (by decide) (by decide)).2

end IoWorker

end Bedrock
