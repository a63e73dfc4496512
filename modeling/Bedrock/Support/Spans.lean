import Bedrock.Support.Bytes
import Mathlib.Logic.Function.Basic

/-!
# Accesses that span pages

A paged store holds its bytes in pages of a fixed size, each of which may be
absent.  `readSpan` and `writeSpan` split an access at page boundaries and stop
at the first absent page.  The results below compare such an access with
single-byte accesses.
-/

namespace Support

open List

variable {β : Type} (size : Nat)

/-- First address of the page that holds `addr`. -/
def pageStart (addr : Nat) : Nat :=
  addr - addr % size

section Reading

variable (page : Nat → Option (Nat → β))

/-- The byte at `addr`, if its page is present. -/
def byteAt (addr : Nat) : Option β :=
  (page (pageStart size addr)).map fun data => data (addr % size)

/-- Read `len` bytes from `addr`, page by page.  The flag says whether every page
was present; the bytes read before an absent page are kept. -/
def readSpan : (fuel addr len : Nat) → List β × Bool
  | 0, _, _ => ([], false)
  | fuel + 1, addr, len =>
    match page (pageStart size addr) with
    | none => ([], false)
    | some data =>
      let offset := addr % size
      let available := size - offset
      if len ≤ available then ((List.range len).map fun i => data (offset + i), true)
      else
        let rest := readSpan fuel (pageStart size addr + size) (len - available)
        ((List.range available).map (fun i => data (offset + i)) ++ rest.1, rest.2)

end Reading

section Arithmetic

variable {size}

variable (addr : Nat)

theorem pageStart_add_mod : pageStart size addr + addr % size = addr :=
  Nat.sub_add_cancel (Nat.mod_le _ _)

theorem pageStart_le : pageStart size addr ≤ addr :=
  Nat.sub_le _ _

theorem pageStart_mod : pageStart size addr % size = 0 := by
  have h : pageStart size addr = size * (addr / size) := by
    have := Nat.div_add_mod addr size
    unfold pageStart
    omega
  rw [h, Nat.mul_mod_right]

theorem add_mod_of_lt {addr i : Nat} (h : addr % size + i < size) :
    (addr + i) % size = addr % size + i := by
  conv_lhs => rw [← @pageStart_add_mod size addr, Nat.add_assoc, Nat.add_mod,
    pageStart_mod, Nat.zero_add, Nat.mod_mod]
  exact Nat.mod_eq_of_lt h

theorem pageStart_add_of_lt {addr i : Nat} (h : addr % size + i < size) :
    pageStart size (addr + i) = pageStart size addr := by
  have := @pageStart_add_mod size addr
  have := @pageStart_add_mod size (addr + i)
  rw [add_mod_of_lt h] at this
  omega

theorem pageStart_idem :
    pageStart size (pageStart size addr) = pageStart size addr := by
  rw [pageStart, pageStart_mod, Nat.sub_zero]

theorem next_page_eq :
    pageStart size addr + size = addr + (size - addr % size) ∨ size = 0 := by
  rcases Nat.eq_zero_or_pos size with h | h
  · exact Or.inr h
  have := @pageStart_add_mod size addr
  have := Nat.mod_lt addr h
  exact Or.inl (by omega)

end Arithmetic

section ReadResults

variable {size} {page : Nat → Option (Nat → β)}

theorem byteAt_add_of_lt {addr i : Nat} {data : Nat → β}
    (hpage : page (pageStart size addr) = some data) (h : addr % size + i < size) :
    byteAt size page (addr + i) = some (data (addr % size + i)) := by
  simp [byteAt, pageStart_add_of_lt h, add_mod_of_lt h, hpage]

/-- What a spanning read returns, compared with single-byte reads: every byte it
returns is the byte at its address, a complete read has the full length, and an
incomplete one stopped at an absent page. -/
structure ReadSpec (size : Nat) (page : Nat → Option (Nat → β)) (addr len : Nat)
    (result : List β × Bool) : Prop where
  bytes : ∀ i (h : i < result.1.length), byteAt size page (addr + i) = some result.1[i]
  complete : result.2 = true → result.1.length = len
  stopped : result.2 = false →
    (0 < len → result.1.length < len) ∧ byteAt size page (addr + result.1.length) = none

theorem readSpan_spec (hsize : 0 < size) :
    ∀ {fuel addr len : Nat}, len < fuel →
      ReadSpec size page addr len (readSpan size page fuel addr len)
  | 0, _, _, h => absurd h (Nat.not_lt_zero _)
  | fuel + 1, addr, len, h => by
    have hmod := Nat.mod_lt addr hsize
    cases hpage : page (pageStart size addr) with
    | none =>
      have hres : readSpan size page (fuel + 1) addr len = ([], false) := by
        simp [readSpan, hpage]
      rw [hres]
      exact ⟨by simp, by simp, by simp [byteAt, hpage]⟩
    | some data =>
      by_cases hlen : len ≤ size - addr % size
      · have hres : readSpan size page (fuel + 1) addr len =
            ((List.range len).map fun i => data (addr % size + i), true) := by
          simp [readSpan, hpage, hlen]
        rw [hres]
        refine ⟨fun i hi => ?_, by simp, by simp⟩
        simp only [length_map, length_range] at hi
        simpa using byteAt_add_of_lt hpage (by omega)
      · -- the first page is taken to its end and the rest is read by recursion
        set available := size - addr % size with havail
        set next := pageStart size addr + size with hnext
        set rest := readSpan size page fuel next (len - available) with hrest
        have hres : readSpan size page (fuel + 1) addr len =
            ((List.range available).map (fun i => data (addr % size + i)) ++ rest.1,
              rest.2) := by
          simp [readSpan, hpage, hlen, ← havail, ← hnext, ← hrest]
        have hnext' : next = addr + available :=
          (next_page_eq addr).resolve_right (by omega)
        have ih : ReadSpec size page next (len - available) rest :=
          readSpan_spec hsize (by omega)
        rw [hres]
        refine ⟨fun i hi => ?_, fun hok => ?_, fun hstop => ?_⟩
        · by_cases hi' : i < available
          · simpa [getElem_append, hi'] using byteAt_add_of_lt hpage (by omega)
          simp only [length_append, length_map, length_range] at hi
          have := ih.bytes (i - available) (by omega)
          rw [hnext', Nat.add_assoc, Nat.add_sub_cancel' (by omega)] at this
          simpa [getElem_append, hi'] using this
        · have := ih.complete hok
          simp only [length_append, length_map, length_range]
          omega
        · obtain ⟨hlt, hnone⟩ := ih.stopped hstop
          simp only [length_append, length_map, length_range]
          rw [hnext', Nat.add_assoc] at hnone
          exact ⟨by omega, hnone⟩

end ReadResults

/-! ## Writing -/

/-- A store of pages whose present pages can be replaced. -/
structure PagedStore (M β : Type) where
  page : M → Nat → Option (Nat → β)
  put : M → Nat → (Nat → β) → M
  page_put : ∀ m k data k',
    page (put m k data) k' = if k' = k ∧ (page m k).isSome then some data else page m k'

section Writing

variable {M : Type} (store : PagedStore M β)

/-- Write `bytes` at `addr`, page by page, stopping at the first absent page. -/
def writeSpan : (fuel : Nat) → (m : M) → (addr : Nat) → (bytes : List β) → M × Bool
  | 0, m, _, _ => (m, false)
  | fuel + 1, m, addr, bytes =>
    match store.page m (pageStart size addr) with
    | none => (m, false)
    | some data =>
      let offset := addr % size
      let available := size - offset
      let m' := store.put m (pageStart size addr) (splice data offset (bytes.take available))
      if bytes.length ≤ available then (m', true)
      else writeSpan fuel m' (pageStart size addr + size) (bytes.drop available)

variable {size store}

/-- What replacing one page keeps, a spanning write keeps. -/
theorem writeSpan_preserves {P : M → Prop} (hput : ∀ m k data, P m → P (store.put m k data)) :
    ∀ (fuel : Nat) {m : M} (addr : Nat) (bytes : List β), P m →
      P (writeSpan size store fuel m addr bytes).1
  | 0, _, _, _, hm => hm
  | fuel + 1, m, addr, bytes, hm => by
    unfold writeSpan
    split
    · exact hm
    dsimp only
    split
    · exact hput _ _ _ hm
    · exact writeSpan_preserves hput fuel _ _ (hput _ _ _ hm)

/-- Where two stores hold the same pages, a spanning write does the same. -/
theorem writeSpan_congr :
    ∀ (fuel : Nat) {m m' : M} (addr : Nat) (bytes : List β),
      (∀ a, store.page m (pageStart size a) = store.page m' (pageStart size a)) →
      (writeSpan size store fuel m addr bytes).2 = (writeSpan size store fuel m' addr bytes).2 ∧
        ∀ a, store.page (writeSpan size store fuel m addr bytes).1 (pageStart size a) =
          store.page (writeSpan size store fuel m' addr bytes).1 (pageStart size a)
  | 0, _, _, _, _, h => ⟨rfl, h⟩
  | fuel + 1, m, m', addr, bytes, h => by
    have hpage := h addr
    unfold writeSpan
    rw [hpage]
    cases hdata : store.page m' (pageStart size addr) with
    | none => exact ⟨rfl, h⟩
    | some data =>
      have hput : ∀ chunk a,
          store.page (store.put m (pageStart size addr) chunk) (pageStart size a) =
            store.page (store.put m' (pageStart size addr) chunk) (pageStart size a) := by
        intro chunk a
        rw [store.page_put, store.page_put, h a, hpage]
      dsimp only
      split
      · exact ⟨rfl, hput _⟩
      · exact writeSpan_congr fuel _ _ (hput _)

theorem byteAt_put_splice {m : M} {addr : Nat} {data : Nat → β} {chunk : List β}
    (hpage : store.page m (pageStart size addr) = some data)
    (hchunk : addr % size + chunk.length ≤ size) (hsize : 0 < size) (a : Nat) :
    byteAt size (store.page (store.put m (pageStart size addr)
        (splice data (addr % size) chunk))) a =
      if addr ≤ a ∧ a < addr + chunk.length then chunk[a - addr]?
      else byteAt size (store.page m) a := by
  have hstart := @pageStart_add_mod size addr
  have hstarta := @pageStart_add_mod size a
  have hmod := Nat.mod_lt a hsize
  by_cases hsame : pageStart size a = pageStart size addr
  · have hlhs : byteAt size (store.page (store.put m (pageStart size addr)
        (splice data (addr % size) chunk))) a =
          some (splice data (addr % size) chunk (a % size)) := by
      simp [byteAt, store.page_put, hsame, hpage]
    have hold : byteAt size (store.page m) a = some (data (a % size)) := by
      simp [byteAt, hsame, hpage]
    rw [hlhs, hold, splice]
    by_cases hin : addr ≤ a ∧ a < addr + chunk.length
    · have hidx : a % size - addr % size = a - addr := by omega
      have hlt : a - addr < chunk.length := by omega
      simp only [hin, and_self, if_true, hidx, show addr % size ≤ a % size by omega,
        List.getElem?_eq_getElem hlt, Option.getD_some]
    · rw [if_neg hin]
      by_cases hle : addr % size ≤ a % size
      · have : chunk[a % size - addr % size]? = none :=
          List.getElem?_eq_none (by omega)
        simp [hle, this]
      · simp [hle]
  · have hout : ¬(addr ≤ a ∧ a < addr + chunk.length) := by
      rintro ⟨h1, h2⟩
      apply hsame
      have := @pageStart_add_of_lt size addr (a - addr) (by omega)
      rwa [Nat.add_sub_cancel' h1] at this
    rw [if_neg hout]
    simp [byteAt, store.page_put, hsame]

/-- What a spanning write does, byte by byte: the first `count` bytes land at their
addresses, no other byte changes, and an incomplete write stopped at an absent page. -/
structure WriteSpec (store : PagedStore M β) (size : Nat) (m : M) (addr : Nat)
    (bytes : List β) (result : M × Bool) (count : Nat) : Prop where
  landed : ∀ a, byteAt size (store.page result.1) a =
    if addr ≤ a ∧ a < addr + count then bytes[a - addr]? else byteAt size (store.page m) a
  le : count ≤ bytes.length
  complete : result.2 = true → count = bytes.length
  stopped : result.2 = false → byteAt size (store.page m) (addr + count) = none

theorem writeSpan_spec (hsize : 0 < size) :
    ∀ {fuel : Nat} {m : M} {addr : Nat} {bytes : List β}, bytes.length < fuel →
      ∃ count, WriteSpec store size m addr bytes (writeSpan size store fuel m addr bytes) count
  | 0, _, _, _, h => absurd h (Nat.not_lt_zero _)
  | fuel + 1, m, addr, bytes, h => by
    have hmod := Nat.mod_lt addr hsize
    cases hpage : store.page m (pageStart size addr) with
    | none =>
      have hres : writeSpan size store (fuel + 1) m addr bytes = (m, false) := by
        simp [writeSpan, hpage]
      rw [hres]
      refine ⟨0, fun a => ?_, Nat.zero_le _, by simp, by simp [byteAt, hpage]⟩
      rw [if_neg (by omega)]
    | some data =>
      have hput := fun (chunk : List β) hchunk a =>
        @byteAt_put_splice β size M store m addr data chunk hpage hchunk hsize a
      by_cases hlen : bytes.length ≤ size - addr % size
      · have htake : bytes.take (size - addr % size) = bytes := take_of_length_le hlen
        have hres : writeSpan size store (fuel + 1) m addr bytes =
            (store.put m (pageStart size addr) (splice data (addr % size) bytes), true) := by
          simp [writeSpan, hpage, hlen, htake]
        rw [hres]
        exact ⟨bytes.length, hput bytes (by omega), Nat.le_refl _, by simp, by simp⟩
      set available := size - addr % size with havail
      set next := pageStart size addr + size with hnext
      set m' := store.put m (pageStart size addr)
        (splice data (addr % size) (bytes.take available)) with hm'
      have hres : writeSpan size store (fuel + 1) m addr bytes =
          writeSpan size store fuel m' next (bytes.drop available) := by
        simp [writeSpan, hpage, hlen, ← havail, ← hnext, ← hm']
      have hnext' : next = addr + available :=
        (next_page_eq addr).resolve_right (by omega)
      obtain ⟨count, hspec⟩ := @writeSpan_spec hsize fuel m' next (bytes.drop available)
        (by rw [length_drop]; omega)
      have hm'bytes := hput (bytes.take available) (by rw [length_take]; omega)
      have htakelen : (bytes.take available).length = available := by
        rw [length_take]; omega
      have hle := hspec.le
      rw [length_drop] at hle
      rw [hres]
      refine ⟨available + count, fun a => ?_, by omega, fun hok => ?_, fun hstop => ?_⟩
      · -- bytes of the first page come from the splice, later ones from the recursion
        rw [hspec.landed a, hnext']
        by_cases hlate : addr + available ≤ a ∧ a < addr + available + count
        · rw [if_pos hlate, if_pos (by omega), List.getElem?_drop]
          congr 1
          omega
        rw [if_neg hlate, hm'bytes a, htakelen]
        by_cases hearly : addr ≤ a ∧ a < addr + available
        · rw [if_pos hearly, if_pos (by omega), List.getElem?_take_of_lt (by omega)]
        · rw [if_neg hearly, if_neg (by omega)]
      · have := hspec.complete hok
        rw [length_drop] at this
        omega
      · have := hspec.stopped hstop
        rw [hm'bytes, htakelen, if_neg (by omega), hnext', Nat.add_assoc] at this
        exact this

end Writing

end Support
