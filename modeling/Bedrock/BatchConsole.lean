import Bedrock.Support.Bytes

/-!
# The batch console of the guest

`bedrock_emit` copies what the guest prints into one shared page, with `\r\n` for each
newline, and hands the page over with a hypercall when it is full and at the end.
-/

namespace Bedrock.BatchConsole

open Support

def BEDROCK_CONSOLE_PAGE_SIZE : Nat := 4096

/-- The shared page, how much of it is staged, and what the hypercalls handed over. -/
structure Staging where
  page : Nat → UInt8
  fill : Nat := 0
  flushed : List (List UInt8) := []

namespace Staging

/-- `bedrock_flush`; the host reads the first `fill` bytes of the page. -/
def bedrockFlush (st : Staging) : Staging :=
  if st.fill = 0 then st
  else { st with flushed := st.flushed ++ [window st.page 0 st.fill] }

/-- `page[fill++] = ch` -/
def put (st : Staging) (ch : UInt8) : Staging :=
  { st with page := splice st.page st.fill [ch], fill := st.fill + 1 }

/-- Flush if there is no room for `n` more bytes. -/
def reserve (st : Staging) (n : Nat) : Staging :=
  if st.fill + n > BEDROCK_CONSOLE_PAGE_SIZE then { st.bedrockFlush with fill := 0 } else st

/-- One round of the loop of `bedrock_emit`. -/
def emitByte (st : Staging) (ch : UInt8) : Staging :=
  if ch = 10 then ((st.reserve 2).put 13).put 10 else (st.reserve 1).put ch

end Staging

/-- `bedrock_emit`: what it flushes, and the page it leaves. -/
def bedrockEmit (sharedPage : Option (Nat → UInt8)) (buf : List UInt8) :
    List (List UInt8) × Option (Nat → UInt8) :=
  match sharedPage with
  | none => ([], none)
  | some page =>
    let st := (buf.foldl Staging.emitByte { page }).bedrockFlush
    (st.flushed, some st.page)

/-- The flushes of calls one after another; `page_lock` keeps them apart. -/
def emitAll (sharedPage : Option (Nat → UInt8)) : List (List UInt8) → List (List UInt8)
  | [] => []
  | buf :: bufs =>
    (bedrockEmit sharedPage buf).1 ++ emitAll (bedrockEmit sharedPage buf).2 bufs

def expand (bytes : List UInt8) : List UInt8 :=
  bytes.flatMap fun ch => if ch = 10 then [13, 10] else [ch]

theorem expand_append (xs ys : List UInt8) : expand (xs ++ ys) = expand xs ++ expand ys :=
  List.flatMap_append

theorem expand_flatten (parts : List (List UInt8)) :
    expand parts.flatten = (parts.map expand).flatten := by
  induction parts with
  | nil => rfl
  | cons part parts ih =>
    rw [List.flatten_cons, expand_append, ih, List.map_cons, List.flatten_cons]

/-- Whole pieces of the input were flushed, each expanded. -/
structure Flushed (input : List UInt8) (flushes : List (List UInt8)) : Prop where
  pieces : ∃ parts : List (List UInt8), parts.flatten = input ∧ flushes = parts.map expand
  sized : ∀ flush ∈ flushes, 1 ≤ flush.length ∧ flush.length ≤ BEDROCK_CONSOLE_PAGE_SIZE

theorem Flushed.append {xs ys : List UInt8} {fs gs : List (List UInt8)} (hx : Flushed xs fs)
    (hy : Flushed ys gs) : Flushed (xs ++ ys) (fs ++ gs) := by
  obtain ⟨parts, rfl, rfl⟩ := hx.pieces
  obtain ⟨more, rfl, rfl⟩ := hy.pieces
  refine ⟨⟨parts ++ more, List.flatten_append, List.map_append.symm⟩, ?_⟩
  exact List.forall_mem_append.mpr ⟨hx.sized, hy.sized⟩

namespace Staging

variable {st : Staging} {input : List UInt8}

/-- The rest of the input is staged, expanded. -/
def Holds (st : Staging) (input : List UInt8) : Prop :=
  ∃ done rest, done ++ rest = input ∧ Flushed done st.flushed ∧
    window st.page 0 st.fill = expand rest ∧ st.fill ≤ BEDROCK_CONSOLE_PAGE_SIZE

theorem Holds.bedrockFlush (h : st.Holds input) : Flushed input st.bedrockFlush.flushed := by
  obtain ⟨done, rest, rfl, hflushed, hstaged, hfill⟩ := h
  unfold Staging.bedrockFlush
  have hlength := congrArg List.length hstaged
  rw [window_length] at hlength
  split
  · rename_i hzero
    have hrest : rest = [] := by
      rw [hzero, eq_comm, List.length_eq_zero_iff, expand, List.flatMap_eq_nil_iff] at hlength
      refine List.eq_nil_iff_forall_not_mem.mpr fun ch hch => ?_
      have hnil := hlength ch hch
      split at hnil <;> cases hnil
    rwa [hrest, List.append_nil]
  · refine hflushed.append ⟨⟨[rest], List.append_nil rest, congrArg ([·]) hstaged⟩, ?_⟩
    refine List.forall_mem_singleton.mpr ?_
    rw [window_length]
    omega

theorem Holds.reserve (h : st.Holds input) {n : Nat} (hn : n ≤ BEDROCK_CONSOLE_PAGE_SIZE) :
    (st.reserve n).Holds input ∧ (st.reserve n).fill + n ≤ BEDROCK_CONSOLE_PAGE_SIZE := by
  have hflush := h.bedrockFlush
  unfold Staging.reserve
  split
  · refine ⟨⟨input, [], List.append_nil input, hflush, rfl, Nat.zero_le _⟩, ?_⟩
    rwa [Nat.zero_add]
  · exact ⟨h, by omega⟩

theorem window_put (st : Staging) (ch : UInt8) :
    window (st.put ch).page 0 (st.put ch).fill = window st.page 0 st.fill ++ [ch] :=
  window_splice_append st.page st.fill [ch]

theorem Holds.emitByte (h : st.Holds input) (ch : UInt8) :
    (st.emitByte ch).Holds (input ++ [ch]) := by
  unfold Staging.emitByte
  split
  · rename_i hch
    obtain ⟨⟨done, rest, rfl, hflushed, hstaged, -⟩, hroom⟩ := h.reserve (n := 2) (by decide)
    refine ⟨done, rest ++ [ch], (List.append_assoc ..).symm, hflushed, ?_, hroom⟩
    rw [window_put, window_put, hstaged, expand_append, hch, List.append_assoc]
    rfl
  · rename_i hch
    obtain ⟨⟨done, rest, rfl, hflushed, hstaged, -⟩, hroom⟩ := h.reserve (n := 1) (by decide)
    refine ⟨done, rest ++ [ch], (List.append_assoc ..).symm, hflushed, ?_, hroom⟩
    rw [window_put, hstaged, expand_append]
    simp [expand, hch]

theorem Holds.foldl (h : st.Holds input) (buf : List UInt8) :
    (buf.foldl Staging.emitByte st).Holds (input ++ buf) := by
  induction buf generalizing st input with
  | nil => rwa [List.append_nil]
  | cons ch buf ih =>
    rw [List.foldl_cons, List.append_cons]
    exact ih (h.emitByte ch)

end Staging

theorem bedrockEmit_flushed (page : Nat → UInt8) (buf : List UInt8) :
    Flushed buf (bedrockEmit (some page) buf).1 := by
  have hempty : ({ page } : Staging).Holds [] :=
    ⟨[], [], rfl, ⟨⟨[], rfl, rfl⟩, nofun⟩, rfl, Nat.zero_le _⟩
  exact (hempty.foldl buf).bedrockFlush

theorem emitAll_flushed (page : Nat → UInt8) (bufs : List (List UInt8)) :
    Flushed bufs.flatten (emitAll (some page) bufs) := by
  induction bufs generalizing page with
  | nil => exact ⟨⟨[], rfl, rfl⟩, nofun⟩
  | cons buf bufs ih => exact (bedrockEmit_flushed page buf).append (ih _)

/-- The flushes make up the input with each newline expanded, each carries 1 to 4096 bytes,
and each is the expansion of a whole piece of the input, so that no pair is split. -/
theorem console_output_exact (page : Nat → UInt8) (bufs : List (List UInt8)) :
    (emitAll (some page) bufs).flatten = expand bufs.flatten ∧
    (∀ flush ∈ emitAll (some page) bufs, 1 ≤ flush.length ∧ flush.length ≤ 4096) ∧
    ∃ parts : List (List UInt8), parts.flatten = bufs.flatten ∧
      emitAll (some page) bufs = parts.map expand := by
  have h := emitAll_flushed page bufs
  obtain ⟨parts, hinput, hflushes⟩ := h.pieces
  refine ⟨?_, h.sized, parts, hinput, hflushes⟩
  rw [hflushes, ← hinput, expand_flatten]

end Bedrock.BatchConsole
