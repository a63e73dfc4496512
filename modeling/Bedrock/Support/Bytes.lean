import Mathlib.Algebra.Order.Ring.Nat
import Mathlib.Tactic.Common

/-!
# Little-endian fields and patches of byte strings

Fixed-width little-endian encodings of natural numbers, and overwriting part of a
byte string in place.
-/

namespace Support

open List Option

/-- The `width` low bytes of `n`, least significant first. -/
def leBytes : (width n : Nat) → List UInt8
  | 0, _ => []
  | width + 1, n => UInt8.ofNat n :: leBytes width (n / 256)

def ofLeBytes : List UInt8 → Nat
  | [] => 0
  | b :: bytes => b.toNat + 256 * ofLeBytes bytes

@[simp] theorem leBytes_length (width n : Nat) : (leBytes width n).length = width := by
  induction width generalizing n with
  | zero => rfl
  | succ width ih => simp [leBytes, ih]

theorem ofLeBytes_leBytes (width n : Nat) : ofLeBytes (leBytes width n) = n % 256 ^ width := by
  induction width generalizing n with
  | zero => simp [leBytes, ofLeBytes, Nat.mod_one]
  | succ width ih =>
    have hbyte : (UInt8.ofNat n).toNat = n % 256 := UInt8.toNat_ofNat'
    rw [leBytes, ofLeBytes, ih, hbyte, Nat.pow_succ', Nat.mod_mul]

theorem ofLeBytes_leBytes_of_lt {width n : Nat} (h : n < 256 ^ width) :
    ofLeBytes (leBytes width n) = n := by
  rw [ofLeBytes_leBytes, Nat.mod_eq_of_lt h]

/-- Cut a field of the given width off the front. -/
def takeField (width : Nat) (bytes : List UInt8) : Option (Nat × List UInt8) :=
  if bytes.length < width then none
  else some (ofLeBytes (bytes.take width), bytes.drop width)

theorem takeField_append {width : Nat} {field : List UInt8} (h : field.length = width)
    (rest : List UInt8) : takeField width (field ++ rest) = some (ofLeBytes field, rest) := by
  unfold takeField
  rw [if_neg (by simp [h]), take_left' h, drop_left' h]

theorem takeField_leBytes {width n : Nat} (h : n < 256 ^ width) (rest : List UInt8) :
    takeField width (leBytes width n ++ rest) = some (n, rest) := by
  rw [takeField_append (leBytes_length width n), ofLeBytes_leBytes_of_lt h]

theorem takeField_cons (byte : UInt8) (rest : List UInt8) :
    takeField 1 (byte :: rest) = some (byte.toNat, rest) := by
  have hone : [byte].length = 1 := rfl
  have hvalue : ofLeBytes [byte] = byte.toNat := by simp [ofLeBytes]
  rw [← singleton_append, takeField_append hone, hvalue]

section Memory

variable {β : Type}

/-- Overwrite `data` from `offset` on with `bytes`. -/
def splice (data : Nat → β) (offset : Nat) (bytes : List β) : Nat → β :=
  fun i => if offset ≤ i then (bytes[i - offset]?).getD (data i) else data i

/-- The `len` elements from `start` on. -/
def window (data : Nat → β) (start len : Nat) : List β :=
  (List.range len).map fun i => data (start + i)

variable (data : Nat → β)

@[simp] theorem window_length (start len : Nat) : (window data start len).length = len := by
  simp [window]

theorem window_getElem? (start : Nat) {len i : Nat} (h : i < len) :
    (window data start len)[i]? = some (data (start + i)) := by
  simp [window, h]

theorem window_add (start m n : Nat) :
    window data start (m + n) = window data start m ++ window data (start + m) n := by
  simp [window, range_add, Nat.add_assoc]

/-- Part of a window is a window. -/
theorem window_drop_take (start : Nat) {len k m : Nat} (h : k + m ≤ len) :
    ((window data start len).drop k).take m = window data (start + k) m := by
  obtain ⟨rest, rfl⟩ := Nat.exists_eq_add_of_le h
  rw [Nat.add_assoc, window_add, drop_left' (window_length _ _ _), window_add,
    take_left' (window_length _ _ _)]

theorem window_congr {data data' : Nat → β} {start len : Nat}
    (h : ∀ i, start ≤ i → i < start + len → data i = data' i) :
    window data start len = window data' start len := by
  unfold window
  apply map_congr_left
  intro i hi
  rw [mem_range] at hi
  exact h (start + i) (by omega) (by omega)

theorem splice_of_lt {offset i : Nat} (bytes : List β) (h : i < offset) :
    splice data offset bytes i = data i := by
  rw [splice, if_neg (by omega)]

theorem splice_of_ge {offset i : Nat} {bytes : List β}
    (h : offset + bytes.length ≤ i) : splice data offset bytes i = data i := by
  rw [splice, if_pos (by omega), List.getElem?_eq_none (by omega), getD_none]

/-- What was written is read back. -/
theorem window_splice (offset : Nat) (bytes : List β) :
    window (splice data offset bytes) offset bytes.length = bytes := by
  apply ext_getElem?
  intro i
  by_cases hi : i < bytes.length
  · rw [window_getElem? _ _ hi, splice, if_pos (by omega), Nat.add_sub_cancel_left,
      List.getElem?_eq_getElem hi, getD_some]
  · rw [List.getElem?_eq_none (by rw [window_length]; omega), List.getElem?_eq_none (by omega)]

/-- A window that ends before the write is not affected by it. -/
theorem window_splice_of_le {start len offset : Nat} (bytes : List β)
    (h : start + len ≤ offset) : window (splice data offset bytes) start len =
      window data start len := by
  apply window_congr
  intro i _ hlt
  exact splice_of_lt data bytes (by omega)

/-- Writing at the end of a window extends it. -/
theorem window_splice_append (len : Nat) (bytes : List β) :
    window (splice data len bytes) 0 (len + bytes.length) = window data 0 len ++ bytes := by
  rw [window_add, window_splice_of_le data bytes (by omega), Nat.zero_add, window_splice]

end Memory

end Support
