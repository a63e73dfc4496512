import Bedrock.Support.Identifiers

/-!
# The VPID allocator

Every VM gets an identifier of its own for its entries in the translation caches.  A
static bitmap marks the identifiers in use.  `allocate_vpid` searches it word by word
from a hint and panics if no identifier is left.
-/

namespace Bedrock

open Support Bitmap List Option

def BITMAP_WORDS : Nat := 1024

/-- The bitmap and the search hint, both static. -/
structure VpidAllocator where
  bitmap : Bitmap
  hint : Nat

namespace VpidAllocator

/-- `VpidBitmap::new` leaves the bit of the reserved VPID 0 clear. -/
def boot : VpidAllocator :=
  ⟨.empty, 1⟩

/-- `try_allocate` -/
def tryAllocate (b : Bitmap) (vpid : Nat) : Bool × Bitmap :=
  (!b.mem vpid, b.insert vpid)

/-- The loop of `try_allocate_in_word`.  If nobody else changes the word it makes at most
two rounds. -/
def tryAllocateInWord (b : Bitmap) (wordIdx : Nat) : Nat → Option Nat × Bitmap
  | 0 => (none, b)
  | rounds + 1 =>
    if b.words wordIdx = 0xFFFFFFFFFFFFFFFF then (none, b)
    else
      let vpid := wordIdx * 64 + trailingZeros (~~~(b.words wordIdx))
      -- the reserved VPID is marked on the way
      if vpid = 0 then tryAllocateInWord (b.insert 0) wordIdx rounds
      else
        match tryAllocate b vpid with
        | (true, b) => (some vpid, b)
        | (false, b) => tryAllocateInWord b wordIdx rounds

/-- One of the two loops of `allocate_any`. -/
def searchWords (b : Bitmap) : List Nat → Option Nat × Bitmap
  | [] => (none, b)
  | wordIdx :: rest =>
    match tryAllocateInWord b wordIdx 2 with
    | (some vpid, b) => (some vpid, b)
    | (none, b) => searchWords b rest

/-- `allocate_any` -/
def allocateAny (b : Bitmap) (hint : Nat) : Option Nat × Bitmap :=
  let startWord := hint / 64
  match searchWords b (List.range' startWord (BITMAP_WORDS - startWord)) with
  | (some vpid, b) => (some vpid, b)
  | (none, b) => searchWords b (List.range startWord)

/-- `allocate_vpid`; `none` is the panic. -/
def allocateVpid (a : VpidAllocator) : Option (Nat × VpidAllocator) :=
  match allocateAny a.bitmap a.hint with
  | (some vpid, bitmap) => some (vpid, ⟨bitmap, (vpid + 1) % 2 ^ 16⟩)
  | (none, _) => none

/-- `deallocate_vpid` -/
def deallocateVpid (a : VpidAllocator) (vpid : Nat) : VpidAllocator :=
  ⟨if vpid = 0 then a.bitmap else a.bitmap.erase vpid, if vpid < a.hint then vpid else a.hint⟩

/-- The hint is a VPID, and the reserved VPID is marked unless nothing has been allocated
yet. -/
structure Sound (a : VpidAllocator) : Prop where
  hint_lt : a.hint < 2 ^ 16
  reserved : a.bitmap.mem 0 = true ∨ a.hint < 64

/-- What a search of words leaves: what it found was free and is marked, and so is the
reserved VPID, at the latest once word 0 has been searched. -/
structure Searched (b : Bitmap) (found : Option Nat) (b' : Bitmap) : Prop where
  free : ∀ v ∈ found, v ≠ 0 ∧ v < 2 ^ 16 ∧ b.mem v = false
  marked : ∀ v, v ≠ 0 → (b'.mem v = true ↔ v ∈ found ∨ b.mem v = true)
  reserved : b.mem 0 = true → b'.mem 0 = true

variable (b : Bitmap)

theorem tryAllocateInWord_succ (w rounds : Nat) :
    tryAllocateInWord b w (rounds + 1) =
      if b.words w = 0xFFFFFFFFFFFFFFFF then (none, b)
      else if w * 64 + trailingZeros (~~~(b.words w)) = 0 then
        tryAllocateInWord (b.insert 0) w rounds
      else (some (w * 64 + trailingZeros (~~~(b.words w))),
        b.insert (w * 64 + trailingZeros (~~~(b.words w)))) := by
  rw [tryAllocateInWord]
  split
  · rfl
  rename_i hfull
  obtain ⟨hlt, hclear⟩ := testBit_trailingZeros_not hfull
  dsimp only
  split
  · rfl
  · rw [tryAllocate, b.mem_word w hlt, hclear]
    rfl

/-- One round once the reserved VPID is marked. -/
theorem tryAllocateInWord_one_cases {b : Bitmap} {w : Nat} (h : w = 0 → b.mem 0) (rounds : Nat) :
    b.words w = 0xFFFFFFFFFFFFFFFF ∧ tryAllocateInWord b w (rounds + 1) = (none, b) ∨
      ∃ v, b.words w ≠ 0xFFFFFFFFFFFFFFFF ∧ v = w * 64 + trailingZeros (~~~(b.words w)) ∧
        v < w * 64 + 64 ∧ v ≠ 0 ∧ b.mem v = false ∧
        tryAllocateInWord b w (rounds + 1) = (some v, b.insert v) := by
  rw [tryAllocateInWord_succ]
  by_cases hfull : b.words w = 0xFFFFFFFFFFFFFFFF
  · exact .inl ⟨hfull, if_pos hfull⟩
  obtain ⟨hlt, hclear⟩ := testBit_trailingZeros_not hfull
  rw [← b.mem_word w hlt] at hclear
  have hne : w * 64 + trailingZeros (~~~(b.words w)) ≠ 0 := by
    intro hzero
    rw [hzero, h (by omega)] at hclear
    cases hclear
  refine .inr ⟨_, hfull, rfl, Nat.add_lt_add_left hlt _, hne, hclear, ?_⟩
  rw [if_neg hfull, if_neg hne]

theorem mem_insert_zero : (b.insert 0).mem 0 := by
  rw [mem_insert]
  rfl

/-- Two rounds are one, from the bitmap with the reserved VPID marked if it was not. -/
theorem tryAllocateInWord_two (w : Nat) :
    (w = 0 → b.mem 0) ∨
      w = 0 ∧ b.words 0 ≠ 0xFFFFFFFFFFFFFFFF ∧ trailingZeros (~~~(b.words 0)) = 0 ∧
        tryAllocateInWord b w 2 = tryAllocateInWord (b.insert 0) w 1 := by
  by_cases hreserved : w = 0 → b.mem 0
  · exact .inl hreserved
  obtain ⟨rfl, hclear⟩ := Classical.not_imp.mp hreserved
  rw [Bool.not_eq_true] at hclear
  have hbit : (b.words 0).toNat.testBit 0 = false := hclear
  have hnotFull : b.words 0 ≠ 0xFFFFFFFFFFFFFFFF := by
    intro hfull
    rw [hfull] at hbit
    cases hbit
  have hzero := trailingZeros_not_of_clear hbit
  refine .inr ⟨rfl, hnotFull, hzero, ?_⟩
  rw [tryAllocateInWord_succ b 0 1, if_neg hnotFull, hzero, if_pos rfl]

theorem tryAllocateInWord_one_searched {b : Bitmap} {w : Nat} (hw : w < BITMAP_WORDS)
    (h : w = 0 → b.mem 0) (rounds : Nat) :
    Searched b (tryAllocateInWord b w (rounds + 1)).1 (tryAllocateInWord b w (rounds + 1)).2 := by
  rw [BITMAP_WORDS] at hw
  rcases tryAllocateInWord_one_cases h rounds with ⟨-, hrun⟩ | ⟨v, -, -, hlt, hne, hfree, hrun⟩
  · rw [hrun]
    exact ⟨by simp, by simp, id⟩
  rw [hrun]
  refine ⟨?_, fun u _ => ?_, fun hmem => ?_⟩
  · rintro u hu
    cases hu
    exact ⟨hne, by omega, hfree⟩
  · rw [mem_insert, Bool.or_eq_true, decide_eq_true_eq, mem_some, eq_comm]
  · rw [mem_insert, hmem, Bool.or_true]

theorem Searched.of_insert {b b' : Bitmap} {found : Option Nat}
    (h : Searched (b.insert 0) found b') : Searched b found b' := by
  have hmem : ∀ v, v ≠ 0 → (b.insert 0).mem v = b.mem v := by
    intro v hv
    rw [mem_insert, decide_eq_false hv, Bool.false_or]
  refine ⟨fun v hv => ?_, fun v hv => ?_, fun _ => ?_⟩
  · obtain ⟨hne, hlt, hfree⟩ := h.free v hv
    exact ⟨hne, hlt, (hmem v hne).symm.trans hfree⟩
  · rw [h.marked v hv, hmem v hv]
  · exact h.reserved (by rw [mem_insert]; rfl)

theorem tryAllocateInWord_searched {w : Nat} (hw : w < BITMAP_WORDS) :
    Searched b (tryAllocateInWord b w 2).1 (tryAllocateInWord b w 2).2 ∧
      (w = 0 → (tryAllocateInWord b w 2).2.mem 0) := by
  rcases tryAllocateInWord_two b w with hreserved | ⟨-, -, -, hrun⟩
  · have h := tryAllocateInWord_one_searched hw hreserved 1
    exact ⟨h, fun hzero => h.reserved (hreserved hzero)⟩
  have h := tryAllocateInWord_one_searched hw (fun _ => mem_insert_zero b) 0
  rw [hrun]
  exact ⟨h.of_insert, fun _ => h.reserved (mem_insert_zero b)⟩

/-- A search that goes on after finding nothing. -/
theorem Searched.trans {b b₁ b₂ : Bitmap} {found : Option Nat} (h₁ : Searched b none b₁)
    (h₂ : Searched b₁ found b₂) : Searched b found b₂ := by
  have hsame : ∀ v, v ≠ 0 → (b₁.mem v ↔ b.mem v) := by
    intro v hv
    rw [h₁.marked v hv]
    simp
  refine ⟨fun v hv => ?_, fun v hv => ?_, fun h => h₂.reserved (h₁.reserved h)⟩
  · obtain ⟨hne, hlt, hfree⟩ := h₂.free v hv
    rw [Bool.eq_false_iff, ne_eq, hsame v hne, ← ne_eq, ← Bool.eq_false_iff] at hfree
    exact ⟨hne, hlt, hfree⟩
  · rw [h₂.marked v hv, hsame v hv]

theorem searchWords_searched {ws : List Nat} (hws : ∀ w ∈ ws, w < BITMAP_WORDS) (b : Bitmap) :
    Searched b (searchWords b ws).1 (searchWords b ws).2 := by
  induction ws generalizing b with
  | nil => exact ⟨by simp [searchWords], by simp [searchWords], id⟩
  | cons w ws ih =>
    obtain ⟨hw, hrest⟩ := forall_mem_cons.mp hws
    have hfirst := (tryAllocateInWord_searched b hw).1
    rw [searchWords]
    rcases hrun : tryAllocateInWord b w 2 with ⟨_ | v, b₁⟩
    · rw [hrun] at hfirst
      exact hfirst.trans (ih hrest b₁)
    · rw [hrun] at hfirst
      exact hfirst

theorem searchWords_zero_reserved {ws : List Nat} (hws : ∀ w ∈ ws, w < BITMAP_WORDS) (b : Bitmap) :
    (searchWords b (0 :: ws)).2.mem 0 := by
  have hfirst := (tryAllocateInWord_searched b (w := 0) (by decide)).2 rfl
  rw [searchWords]
  rcases hrun : tryAllocateInWord b 0 2 with ⟨_ | v, b₁⟩
  · rw [hrun] at hfirst
    exact (searchWords_searched hws b₁).reserved hfirst
  · rw [hrun] at hfirst
    exact hfirst

/-- The words in the order in which `allocate_any` searches them. -/
def searchOrder (hint : Nat) : List Nat :=
  List.range' (hint / 64) (BITMAP_WORDS - hint / 64) ++ List.range (hint / 64)

theorem mem_searchOrder {hint : Nat} (hhint : hint < 2 ^ 16) {w : Nat} :
    w ∈ searchOrder hint ↔ w < BITMAP_WORDS := by
  rw [searchOrder, mem_append, mem_range'_1, mem_range, BITMAP_WORDS]
  omega

theorem searchWords_append (ws ws' : List Nat) (b : Bitmap) :
    searchWords b (ws ++ ws') = match searchWords b ws with
      | (some vpid, b) => (some vpid, b)
      | (none, b) => searchWords b ws' := by
  induction ws generalizing b with
  | nil => rfl
  | cons w ws ih =>
    rw [cons_append, searchWords, searchWords]
    rcases tryAllocateInWord b w 2 with ⟨_ | v, b₁⟩
    · exact ih b₁
    · rfl

theorem allocateAny_eq (hint : Nat) :
    allocateAny b hint = searchWords b (searchOrder hint) :=
  (searchWords_append _ _ b).symm

theorem allocateAny_searched {hint : Nat} (hhint : hint < 2 ^ 16) :
    Searched b (allocateAny b hint).1 (allocateAny b hint).2 ∧
      (hint < 64 → (allocateAny b hint).2.mem 0) := by
  have hws : ∀ w ∈ searchOrder hint, w < BITMAP_WORDS := fun w => (mem_searchOrder hhint).mp
  rw [allocateAny_eq]
  refine ⟨searchWords_searched hws b, fun hlt => ?_⟩
  have hstart : searchOrder hint = 0 :: (List.range' 1 1023 ++ []) := by
    rw [searchOrder, Nat.div_eq_of_lt hlt]
    rfl
  rw [hstart] at hws ⊢
  exact searchWords_zero_reserved (fun w hw => hws w (mem_cons_of_mem 0 hw)) b

theorem boot_sound : boot.Sound :=
  ⟨by decide, .inr (by decide)⟩

theorem allocateVpid_spec {a a' : VpidAllocator} {v : Nat} (hsound : a.Sound)
    (h : a.allocateVpid = some (v, a')) :
    v ≠ 0 ∧ v < 2 ^ 16 ∧ a.bitmap.mem v = false ∧ a'.Sound ∧
      ∀ u, a'.bitmap.mem u ↔ u = 0 ∨ u = v ∨ a.bitmap.mem u := by
  obtain ⟨hsearched, hzero⟩ := allocateAny_searched a.bitmap hsound.hint_lt
  rw [allocateVpid] at h
  rcases hrun : allocateAny a.bitmap a.hint with ⟨_ | v', b⟩
  · rw [hrun] at h
    cases h
  rw [hrun] at h hsearched hzero
  cases h
  obtain ⟨hne, hlt, hfree⟩ := hsearched.free v rfl
  have hreserved : b.mem 0 := hsound.reserved.elim hsearched.reserved hzero
  refine ⟨hne, hlt, hfree, ⟨Nat.mod_lt _ (by decide), .inl hreserved⟩, fun u => ?_⟩
  by_cases hu : u = 0
  · rw [hu]
    exact iff_of_true hreserved (.inl rfl)
  have hmarked := hsearched.marked u hu
  rw [mem_some, @eq_comm _ v] at hmarked
  rw [or_iff_right hu]
  exact hmarked

theorem deallocateVpid_mem (a : VpidAllocator) (v : Nat) {u : Nat} (hu : u ≠ 0) :
    (a.deallocateVpid v).bitmap.mem u ↔ u ≠ v ∧ a.bitmap.mem u := by
  unfold deallocateVpid
  dsimp only
  split
  · rename_i hv
    rw [hv]
    exact (and_iff_right hu).symm
  · rw [mem_erase, Bool.and_eq_true, decide_eq_true_eq]

theorem deallocateVpid_reserved (a : VpidAllocator) (v : Nat) :
    (a.deallocateVpid v).bitmap.mem 0 = a.bitmap.mem 0 := by
  unfold deallocateVpid
  dsimp only
  split
  · rfl
  · rename_i hv
    rw [mem_erase, decide_eq_true (Ne.symm hv), Bool.true_and]

theorem Sound.deallocate {a : VpidAllocator} (h : a.Sound) (v : Nat) :
    (a.deallocateVpid v).Sound := by
  have hhint : (a.deallocateVpid v).hint ≤ a.hint := by
    unfold deallocateVpid
    dsimp only
    split <;> omega
  refine ⟨Nat.lt_of_le_of_lt hhint h.hint_lt, ?_⟩
  rw [deallocateVpid_reserved]
  exact h.reserved.imp_right fun hlt => Nat.lt_of_le_of_lt hhint hlt

end VpidAllocator

end Bedrock
