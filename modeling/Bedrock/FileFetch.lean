import Bedrock.IoCodec

/-!
# Fetching files

The guest's `fetch_one` asks for a file chunk by chunk in a buffer it shares with the host,
and the host's `FileServer::serve` answers there.  How far the single `read` and `write`
calls get is given by schedules; after its schedule a call transfers all it is asked for.
-/

namespace Bedrock

open Support List Option Function

namespace FileXfer

def FILE_XFER_HEADER_LEN : Nat := 16

/-- `-1` as the guest reads it back. -/
def FILE_XFER_RESULT_NOT_FOUND : Nat := 2 ^ 64 - 1

/-- How a `read` or `write` turns out; a `read` before the end of the file returns at least
one byte. -/
inductive Transfer
  | upTo (n : Nat)
  | interrupted
  | failed

/-- The files that the host can open, by their names for the guest. -/
structure FileServer where
  files : String → Option (List UInt8)
  size_lt : ∀ name, ∀ file ∈ files name, file.length < 2 ^ 63

def FileServer.hostFile (server : FileServer) (name : List UInt8) : Option (List UInt8) :=
  server.files (Lab.fromUtf8Lossy name)

/-- `read_up_to`, from what is left of the file. -/
def readUpTo : List Transfer → (file : List UInt8) → (room : Nat) → Option (List UInt8)
  | [], file, room => some (file.take room)
  | t :: reads, file, room =>
    -- the loop ends when the buffer is full or a `read` returns nothing
    if room = 0 ∨ file = [] then some []
    else
      match t with
      | .interrupted => readUpTo reads file room
      | .failed => none
      | .upTo n =>
        let k := min (max n 1) room
        (readUpTo reads (file.drop k) (room - k)).map (file.take k ++ ·)

/-- `write_result` -/
def writeResult (buf : Nat → UInt8) (result : Nat) : Nat → UInt8 :=
  splice (splice buf 0 (leBytes 8 result)) 8 (List.replicate 8 0)

/-- `serve` on a buffer of `size` bytes; `none` is an error of the host. -/
def FileServer.serve (server : FileServer) (size : Nat) (reads : List Transfer)
    (buf : Nat → UInt8) : Option (Nat → UInt8) :=
  let offset := ofLeBytes (window buf 0 8)
  let nameLen := ofLeBytes (window buf 8 4)
  if size < FILE_XFER_HEADER_LEN then none
  else if FILE_XFER_HEADER_LEN + nameLen > size then none
  else
    match server.hostFile (window buf FILE_XFER_HEADER_LEN nameLen) with
    | none => some (writeResult buf FILE_XFER_RESULT_NOT_FOUND)
    | some file =>
      (readUpTo reads (file.drop offset) (size - FILE_XFER_HEADER_LEN)).map fun data =>
        writeResult (splice buf FILE_XFER_HEADER_LEN data) data.length

/-- The inner loop of `fetch_one`: whether it writes the whole chunk, and what it writes. -/
def writeAll : List Transfer → (chunk : List UInt8) → Bool × List UInt8
  | [], chunk => (true, chunk)
  | t :: writes, chunk =>
    if chunk = [] then (true, [])
    else
      match t with
      | .interrupted => writeAll writes chunk
      | .failed => (false, [])
      | .upTo n =>
        let (done, bytes) := writeAll writes (chunk.drop n)
        (done, chunk.take n ++ bytes)

/-- The request as it is framed in the buffer. -/
def request (buf : Nat → UInt8) (offset : Nat) (name : List UInt8) : Nat → UInt8 :=
  splice (splice (splice (splice buf 0 (leBytes 8 offset)) 8 (leBytes 4 name.length)) 12
    (List.replicate 4 0)) FILE_XFER_HEADER_LEN name

/-- A pair of `argv`, and what `fetch_one` meets: whether `open` and `close` succeed, and
the schedules of the calls in each round. -/
structure Pair where
  name : List UInt8
  path : String
  opened : Bool
  closed : Bool
  reads : Nat → List Transfer
  writes : Nat → List Transfer

section Guest

variable (server : FileServer) (dataCap : Nat) (p : Pair)

/-- The loop of `fetch_one`: whether it succeeds, with `none` if the fuel runs out, the file
that it has written by then, and the buffer. -/
def fetchLoop : (fuel round offset : Nat) → (file : List UInt8) → (buf : Nat → UInt8) →
    Option Bool × List UInt8 × (Nat → UInt8)
  | 0, _, _, file, buf => (none, file, buf)
  | fuel + 1, round, offset, file, buf =>
    match server.serve (FILE_XFER_HEADER_LEN + dataCap) (p.reads round)
      (request buf offset p.name) with
    | none => (some false, file, buf)
    | some buf =>
      let want := ofLeBytes (window buf 0 8)
      -- `VMCALL_FILE_XFER_NOT_FOUND` and the other negative results
      if want ≥ 2 ^ 63 then (some false, file, buf)
      else if want = 0 then (some p.closed, file, buf)
      else if want > dataCap then (some false, file, buf)
      else
        match writeAll (p.writes round) (window buf FILE_XFER_HEADER_LEN want) with
        | (false, bytes) => (some false, file ++ bytes, buf)
        | (true, bytes) => fetchLoop fuel (round + 1) (offset + want) (file ++ bytes) buf

/-- `fetch_one` on the files of the guest. -/
def fetchOne (fuel : Nat) (fs : String → Option (List UInt8)) (buf : Nat → UInt8) :
    Option Bool × (String → Option (List UInt8)) × (Nat → UInt8) :=
  if p.name.length = 0 ∨ p.name.length > dataCap then (some false, fs, buf)
  else if p.opened = false then (some false, fs, buf)
  else
    let (result, file, buf) := fetchLoop server dataCap p fuel 0 0 [] buf
    (result, Function.update fs p.path (some file), buf)

/-- The loop of `main`: what is reported for each pair and the files then, up to the first
pair that fails. -/
def fetchAll (fuel : Nat) : List Pair → (fs : String → Option (List UInt8)) →
    (buf : Nat → UInt8) → List (Pair × Option Bool × (String → Option (List UInt8)))
  | [], _, _ => []
  | p :: pairs, fs, buf =>
    let (result, fs, buf) := fetchOne server dataCap p fuel fs buf
    (p, result, fs) :: if result = some true then fetchAll fuel pairs fs buf else []

end Guest

/-- However short the single reads are, a chunk is as large as the file and the buffer
allow. -/
theorem readUpTo_eq {reads : List Transfer} : ∀ {file data : List UInt8} {room : Nat},
    readUpTo reads file room = some data → data = file.take room := by
  induction reads with
  | nil =>
    intro file data room h
    exact (Option.some.inj h).symm
  | cons t reads ih =>
    intro file data room h
    unfold readUpTo at h
    split at h
    next hend => obtain rfl | rfl := hend <;> simpa using h.symm
    next hmore =>
      cases t with
      | interrupted => exact ih h
      | failed => cases h
      | upTo n =>
        obtain ⟨rest, hrest, rfl⟩ := map_eq_some_iff.mp h
        rw [ih hrest, ← take_add, Nat.add_sub_cancel' (Nat.min_le_right _ _)]

theorem writeAll_eq {writes : List Transfer} : ∀ {chunk bytes : List UInt8},
    writeAll writes chunk = (true, bytes) → bytes = chunk := by
  induction writes with
  | nil =>
    intro chunk bytes h
    exact (congrArg Prod.snd h).symm
  | cons t writes ih =>
    intro chunk bytes h
    unfold writeAll at h
    split at h
    next hend => exact (congrArg Prod.snd h).symm.trans hend.symm
    next hmore =>
      cases t with
      | interrupted => exact ih h
      | failed => cases h
      | upTo n =>
        obtain ⟨hdone, rfl⟩ := Prod.mk.inj h
        exact (congrArg (chunk.take n ++ ·) (ih (Prod.ext hdone rfl))).trans (take_append_drop n _)

theorem ofLeBytes_window_splice (buf : Nat → UInt8) (offset : Nat) {width n : Nat}
    (h : n < 256 ^ width) :
    ofLeBytes (window (splice buf offset (leBytes width n)) offset width) = n := by
  have hread := window_splice buf offset (leBytes width n)
  rw [leBytes_length] at hread
  rw [hread, ofLeBytes_leBytes_of_lt h]

theorem window_writeResult {buf : Nat → UInt8} {result : Nat} (h : result < 256 ^ 8) :
    ofLeBytes (window (writeResult buf result) 0 8) = result := by
  rw [writeResult, window_splice_of_le _ _ (by omega), ofLeBytes_window_splice _ _ h]

theorem window_writeResult_data (buf : Nat → UInt8) (result : Nat) (data : List UInt8) :
    window (writeResult (splice buf FILE_XFER_HEADER_LEN data) result) FILE_XFER_HEADER_LEN
      data.length = data := by
  refine (window_congr fun i hi _ => ?_).trans (window_splice buf FILE_XFER_HEADER_LEN data)
  rw [FILE_XFER_HEADER_LEN] at hi
  rw [writeResult, splice_of_ge _ (by simpa using hi),
    splice_of_ge _ (by rw [leBytes_length]; omega)]

variable {server : FileServer} {dataCap : Nat} {p : Pair}

/-- The answer to a request: there is no such file, or the next chunk of it. -/
theorem serve_request {reads : List Transfer} {buf buf' : Nat → UInt8} {offset : Nat}
    (hcap : dataCap < 2 ^ 32) (hname : p.name.length ≤ dataCap) (hoffset : offset < 2 ^ 64)
    (h : server.serve (FILE_XFER_HEADER_LEN + dataCap) reads (request buf offset p.name) =
      some buf') :
    ofLeBytes (window buf' 0 8) = FILE_XFER_RESULT_NOT_FOUND ∨
      ∃ file, server.hostFile p.name = some file ∧
        let chunk := (file.drop offset).take dataCap
        ofLeBytes (window buf' 0 8) = chunk.length ∧
          window buf' FILE_XFER_HEADER_LEN chunk.length = chunk := by
  have hheader : FILE_XFER_HEADER_LEN = 16 := rfl
  have hoff : ofLeBytes (window (request buf offset p.name) 0 8) = offset := by
    rw [request, window_splice_of_le _ _ (by omega), window_splice_of_le _ _ (by omega),
      window_splice_of_le _ _ (by omega), ofLeBytes_window_splice _ _ (by omega)]
  have hlen : ofLeBytes (window (request buf offset p.name) 8 4) = p.name.length := by
    rw [request, window_splice_of_le _ _ (by omega), window_splice_of_le _ _ (by omega),
      ofLeBytes_window_splice _ _ (by omega)]
  have hbytes : window (request buf offset p.name) FILE_XFER_HEADER_LEN p.name.length = p.name :=
    window_splice _ _ p.name
  unfold FileServer.serve at h
  dsimp only at h
  rw [hoff, hlen, hbytes, if_neg (by omega), if_neg (by omega), Nat.add_sub_cancel_left] at h
  cases hfind : server.hostFile p.name with
  | none =>
    rw [hfind] at h
    cases h
    exact .inl (window_writeResult (by decide))
  | some file =>
    rw [hfind] at h
    obtain ⟨chunk, hchunk, rfl⟩ := map_eq_some_iff.mp h
    obtain rfl := readUpTo_eq hchunk
    have hsmall := length_take_le dataCap (file.drop offset)
    exact .inr ⟨file, rfl, window_writeResult (by omega), window_writeResult_data _ _ _⟩

/-- With the first `offset` bytes of the file written, the loop fails or ends with all of
it. -/
theorem fetchLoop_spec (hcap : dataCap < 2 ^ 32) (hpos : p.name.length ≠ 0)
    (hname : p.name.length ≤ dataCap) {host : List UInt8}
    (hhost : (server.hostFile p.name).getD [] = host) {fuel : Nat} :
    ∀ {round offset : Nat} {buf : Nat → UInt8}, offset ≤ host.length → host.length < offset + fuel →
      (fetchLoop server dataCap p fuel round offset (host.take offset) buf).1 = some false ∨
        server.hostFile p.name = some host ∧
        (fetchLoop server dataCap p fuel round offset (host.take offset) buf).1 = some true ∧
        (fetchLoop server dataCap p fuel round offset (host.take offset) buf).2.1 = host := by
  have hlt : host.length < 2 ^ 63 := by
    cases hfile : server.hostFile p.name with
    | none => simp [← hhost, hfile]
    | some file =>
      rw [← hhost, hfile]
      exact server.size_lt _ _ hfile
  induction fuel with
  | zero =>
    intro round offset buf hle hfuel
    omega
  | succ fuel ih =>
    intro round offset buf hle hfuel
    rw [fetchLoop]
    cases hserve : server.serve (FILE_XFER_HEADER_LEN + dataCap) (p.reads round)
      (request buf offset p.name) with
    | none => exact .inl rfl
    | some buf' =>
      dsimp only
      obtain hwant | ⟨file, hfile, hwant, hchunk⟩ := serve_request hcap hname (by omega) hserve
      · rw [hwant, if_pos (by decide)]
        exact .inl rfl
      obtain rfl : file = host := by rw [← hhost, hfile, getD_some]
      have hlength : ((file.drop offset).take dataCap).length =
          min dataCap (file.length - offset) := by simp
      rw [hwant, if_neg (by omega)]
      by_cases hend : ((file.drop offset).take dataCap).length = 0
      · obtain rfl : offset = file.length := by omega
        rw [if_pos hend]
        cases p.closed with
        | false => exact .inl rfl
        | true => exact .inr ⟨hfile, rfl, take_length⟩
      rw [if_neg hend, if_neg (by omega), hchunk]
      cases hwrite : writeAll (p.writes round) ((file.drop offset).take dataCap) with
      | mk done bytes =>
        cases done with
        | false => exact .inl rfl
        | true =>
          obtain rfl := writeAll_eq hwrite
          have hnext : file.take offset ++ (file.drop offset).take dataCap =
              file.take (offset + ((file.drop offset).take dataCap).length) := by
            rw [take_add, hlength, ← length_drop, ← take_eq_take_min]
          dsimp only
          rw [hnext]
          exact ih (by omega) (by omega)

theorem fetchOne_spec (hcap : dataCap < 2 ^ 32) {fuel : Nat}
    (hfuel : ((server.hostFile p.name).getD []).length < fuel)
    (fs : String → Option (List UInt8)) (buf : Nat → UInt8) :
    (fetchOne server dataCap p fuel fs buf).1 = some false ∨
      (fetchOne server dataCap p fuel fs buf).1 = some true ∧
        ∃ host, server.hostFile p.name = some host ∧
          (fetchOne server dataCap p fuel fs buf).2.1 p.path = some host := by
  unfold fetchOne
  split_ifs with hname hopened
  · exact .inl rfl
  · exact .inl rfl
  rw [not_or, Nat.not_lt] at hname
  have hloop := @fetchLoop_spec server dataCap p hcap hname.1 hname.2 _ rfl fuel 0 0 buf
    (Nat.zero_le _) (by omega)
  obtain hfailed | ⟨hfile, hok, hwritten⟩ := hloop
  · exact .inl hfailed
  refine .inr ⟨hok, _, hfile, ?_⟩
  rw [← hwritten]
  exact update_self _ _ _

end FileXfer

end Bedrock
