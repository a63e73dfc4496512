import Bedrock.Ept.Entry
import Bedrock.Support.Spans
import Mathlib.Data.Finmap

/-!
# Guest memory of root and forked VMs

A root VM owns one contiguous region.  A forked VM owns the pages it has copied
and reads every other page through its parent.  Copy-on-write pages are keyed by
page-aligned guest-physical address.
-/

namespace Bedrock

open Support List Option

def PAGE_SIZE : Nat := 4096

/-- `gpa & !0xFFF` -/
def pageBase (gpa : Nat) : Nat :=
  pageStart PAGE_SIZE gpa

inductive MemoryError
  | outOfRange | notMapped | permissionDenied
  deriving DecidableEq, Repr

/-- A host page: its physical address and its bytes. -/
structure Page where
  frame : HostFrame
  data : Nat → UInt8

/-- The region a root VM allocates; `vmallocToPhys` is the host's page table for it.
No host can allocate more than a 48-bit address space. -/
structure GuestMemory where
  size : Nat
  bytes : Nat → UInt8
  vmallocToPhys : Nat → HostFrame
  size_le : size ≤ 2 ^ 48

/-- `page_phys_addr`: refused past the end and where the host has no frame. -/
def GuestMemory.pagePhysAddr (memory : GuestMemory) (offset : Nat) : Option HostFrame :=
  if memory.size ≤ offset then none
  else if (memory.vmallocToPhys offset).addr = 0 then none
  else some (memory.vmallocToPhys offset)

structure CowPageMap where
  pages : Std.TreeMap Nat Page

variable (cow : CowPageMap)

namespace CowPageMap

def empty : CowPageMap := ⟨∅⟩

def get (cow : CowPageMap) (gpa : Nat) : Option Page :=
  cow.pages[pageBase gpa]?

def contains (cow : CowPageMap) (gpa : Nat) : Bool :=
  cow.pages.contains (pageBase gpa)

def insert (cow : CowPageMap) (gpa : Nat) (page : Page) : CowPageMap :=
  ⟨cow.pages.insert (pageBase gpa) page⟩

/-- Overwrite the bytes of a copied page; nothing happens if it is not copied. -/
def setData (cow : CowPageMap) (gpa : Nat) (data : Nat → UInt8) : CowPageMap :=
  ⟨cow.pages.modify (pageBase gpa) fun page => { page with data }⟩

def len (cow : CowPageMap) : Nat :=
  cow.pages.size

variable (gpa : Nat)

theorem contains_eq_isSome_get : cow.contains gpa = (cow.get gpa).isSome :=
  Std.TreeMap.contains_eq_isSome_getElem?

@[simp] theorem get_empty : empty.get gpa = none := by
  simp [empty, get]

theorem get_insert (page : Page) (gpa' : Nat) :
    (cow.insert gpa page).get gpa' =
      if pageBase gpa' = pageBase gpa then some page else cow.get gpa' := by
  simp only [insert, get, Std.TreeMap.getElem?_insert, compare_eq_iff_eq, @eq_comm _ (pageBase gpa)]

@[simp] theorem get_pageBase : cow.get (pageBase gpa) = cow.get gpa := by
  simp [get, pageBase, pageStart_idem]

end CowPageMap

inductive VmMemory
  | root (memory : GuestMemory)
  | forked (cowPages : CowPageMap) (parent : VmMemory)

namespace VmMemory

def isForked : VmMemory → Bool
  | root _ => false
  | forked _ _ => true

/-- `memory_size`: that of the root of the chain. -/
def memorySize : VmMemory → Nat
  | root memory => memory.size
  | forked _ parent => parent.memorySize

/-- `ParentVm::read_page`: a root serves the pages that lie fully inside its
region; a forked VM serves its own copy or asks its parent. -/
def readPage : VmMemory → Nat → Option Page
  | root memory, gpa =>
    if pageBase gpa + PAGE_SIZE ≤ memory.size then
      some ⟨memory.vmallocToPhys (pageBase gpa), fun i => memory.bytes (pageBase gpa + i)⟩
    else none
  | forked cowPages parent, gpa =>
    match cowPages.get gpa with
    | some page => some page
    | none => parent.readPage (pageBase gpa)

theorem readPage_pageBase (mem : VmMemory) (gpa : Nat) :
    mem.readPage (pageBase gpa) = mem.readPage gpa := by
  have hidem : pageBase (pageBase gpa) = pageBase gpa := pageStart_idem gpa
  cases mem with
  | root memory => simp only [readPage, hidem]
  | forked cow parent => simp only [readPage, hidem, CowPageMap.get_pageBase]

/-- Bytes of the page at `gpa`, as `readPage` finds them. -/
def pageData (mem : VmMemory) (gpa : Nat) : Option (Nat → UInt8) :=
  (mem.readPage gpa).map Page.data

/-- `read_guest_memory`: the bytes copied to the buffer and the result. -/
def readGuestMemory (mem : VmMemory) (gpa len : Nat) :
    List UInt8 × Except MemoryError Unit :=
  match mem with
  | root memory =>
    if memory.size < gpa + len then ([], .error .outOfRange)
    else ((List.range len).map fun i => memory.bytes (gpa + i), .ok ())
  | forked cowPages parent =>
    let (bytes, ok) := readSpan PAGE_SIZE (pageData (forked cowPages parent)) (len + 1) gpa len
    (bytes, if ok then .ok () else .error .outOfRange)

/-- Copied pages as a store that `write_guest_memory` can write to. -/
def cowStore : PagedStore CowPageMap UInt8 where
  page cow base := (cow.pages[base]?).map Page.data
  put cow base data := ⟨cow.pages.modify base fun page => { page with data }⟩
  page_put cow base data base' := by
    simp only [Std.TreeMap.getElem?_modify, compare_eq_iff_eq]
    by_cases h : base = base'
    · subst h
      cases cow.pages[base]? <;> simp
    · simp [h, Ne.symm h]

/-- `write_guest_memory`: a forked VM writes only pages it has copied, and keeps
the pages written before the first one it has not. -/
def writeGuestMemory (mem : VmMemory) (gpa : Nat) (bytes : List UInt8) :
    Except MemoryError Unit × VmMemory :=
  match mem with
  | root memory =>
    if memory.size < gpa + bytes.length then (.error .outOfRange, mem)
    else (.ok (), root { memory with bytes := splice memory.bytes gpa bytes })
  | forked cowPages parent =>
    let (cowPages, ok) := writeSpan PAGE_SIZE cowStore (bytes.length + 1) cowPages gpa bytes
    (if ok then .ok () else .error .permissionDenied, forked cowPages parent)

/-! ## Byte by byte -/

/-- The byte a single-byte read returns. -/
def readByte (mem : VmMemory) (addr : Nat) : Option UInt8 :=
  match mem.readGuestMemory addr 1 with
  | ([b], .ok ()) => some b
  | _ => none

/-- Single-byte writes, one after the other; `none` if one of them is refused. -/
def writeEach : VmMemory → Nat → List UInt8 → Option VmMemory
  | mem, _, [] => some mem
  | mem, gpa, b :: bytes =>
    match mem.writeGuestMemory gpa [b] with
    | (.ok (), mem) => mem.writeEach (gpa + 1) bytes
    | (.error _, _) => none

theorem pageSize_pos : 0 < PAGE_SIZE := by decide

variable (addr : Nat)

theorem pageBase_pageStart : pageBase (pageStart PAGE_SIZE addr) = pageBase addr :=
  pageStart_idem addr

variable (memory : GuestMemory)

theorem readByte_root (addr : Nat) :
    (root memory).readByte addr = if addr < memory.size then some (memory.bytes addr) else none := by
  by_cases h : addr < memory.size
  · have hin : ¬memory.size < addr + 1 := by omega
    simp [readByte, readGuestMemory, h, hin]
  · have hout : memory.size < addr + 1 := by omega
    simp [readByte, readGuestMemory, h, hout]

variable (parent : VmMemory)

theorem readByte_forked :
    (forked cow parent).readByte addr = byteAt PAGE_SIZE (pageData (forked cow parent)) addr := by
  have hmod := Nat.mod_lt addr pageSize_pos
  cases hpage : pageData (forked cow parent) (pageStart PAGE_SIZE addr) with
  | none => simp [readByte, readGuestMemory, readSpan, byteAt, hpage]
  | some data =>
    have hfits : 1 ≤ PAGE_SIZE - addr % PAGE_SIZE := by omega
    simp [readByte, readGuestMemory, readSpan, byteAt, hpage, hfits]

theorem byteAt_pageData_forked :
    byteAt PAGE_SIZE (pageData (forked cow parent)) addr =
      match cow.get addr with
      | some page => some (page.data (addr % PAGE_SIZE))
      | none => byteAt PAGE_SIZE parent.pageData addr := by
  have hget : cow.get (pageStart PAGE_SIZE addr) = cow.get addr := cow.get_pageBase addr
  simp only [byteAt, pageData, readPage, hget]
  cases cow.get addr with
  | some page => rfl
  | none => rw [pageBase_pageStart]; rfl

theorem byteAt_pageData_root (addr : Nat) :
    byteAt PAGE_SIZE (root memory).pageData addr =
      if pageBase addr + PAGE_SIZE ≤ memory.size then some (memory.bytes addr) else none := by
  simp only [byteAt, pageData, readPage, pageBase_pageStart]
  by_cases h : pageBase addr + PAGE_SIZE ≤ memory.size
  · have haddr : pageBase addr + addr % PAGE_SIZE = addr := pageStart_add_mod addr
    simp [h, haddr]
  · simp [h]

theorem readGuestMemory_bytes (mem : VmMemory) (gpa len : Nat) :
    (∀ i (h : i < (mem.readGuestMemory gpa len).1.length),
      mem.readByte (gpa + i) = some (mem.readGuestMemory gpa len).1[i]) ∧
    ((mem.readGuestMemory gpa len).2 = .ok () → (mem.readGuestMemory gpa len).1.length = len) := by
  cases mem with
  | root memory =>
    by_cases hout : memory.size < gpa + len
    · simp [readGuestMemory, hout]
    simp only [readGuestMemory, hout, if_false, readByte_root, getElem_map,
      getElem_range, length_map, length_range, implies_true, and_true]
    intro i hi
    rw [if_pos (by omega)]
  | forked cow parent =>
    have hspec : ReadSpec PAGE_SIZE (pageData (forked cow parent)) gpa len
        (readSpan PAGE_SIZE (pageData (forked cow parent)) (len + 1) gpa len) :=
      readSpan_spec pageSize_pos (Nat.lt_succ_self len)
    refine ⟨fun i hi => ?_, fun hok => ?_⟩
    · rw [readByte_forked]
      exact hspec.bytes i hi
    apply hspec.complete
    by_contra hstop
    simp [readGuestMemory, hstop] at hok

variable {mem : VmMemory} {gpa : Nat}

theorem readGuestMemory_of_readByte {len : Nat} {f : Nat → UInt8}
    (hlen : 0 < len) (h : ∀ i < len, mem.readByte (gpa + i) = some (f i)) :
    mem.readGuestMemory gpa len = ((List.range len).map f, .ok ()) := by
  obtain ⟨hbytes, hcomplete⟩ := mem.readGuestMemory_bytes gpa len
  have hok : (mem.readGuestMemory gpa len).2 = .ok () := by
    cases mem with
    | root memory =>
      have hlast := h (len - 1) (by omega)
      rw [readByte_root] at hlast
      have hin : ¬memory.size < gpa + len := by
        intro hout
        rw [if_neg (by omega)] at hlast
        cases hlast
      simp [readGuestMemory, hin]
    | forked cow parent =>
      have hspec : ReadSpec PAGE_SIZE (pageData (forked cow parent)) gpa len
          (readSpan PAGE_SIZE (pageData (forked cow parent)) (len + 1) gpa len) :=
        readSpan_spec pageSize_pos (Nat.lt_succ_self len)
      cases hread : (readSpan PAGE_SIZE (pageData (forked cow parent)) (len + 1) gpa len).2 with
      | true => simp [readGuestMemory, hread]
      | false =>
        obtain ⟨hlt, hnone⟩ := hspec.stopped hread
        have hsome := h _ (hlt hlen)
        rw [readByte_forked, hnone] at hsome
        cases hsome
  refine Prod.ext (ext_getElem ?_ fun i hi hi' => ?_) hok
  · rw [hcomplete hok, length_map, length_range]
  have hlt : i < len := hcomplete hok ▸ hi
  have hbyte := hbytes i hi
  rw [h i hlt] at hbyte
  rw [getElem_map, getElem_range]
  exact (Option.some.inj hbyte).symm

theorem readGuestMemory_insert {cow : CowPageMap} {parent : VmMemory} {g : Nat} {page : Page}
    (hnew : cow.get g = none) (hpage : parent.readPage g = some page) (frame : HostFrame)
    (gpa len : Nat) :
    (forked (cow.insert g ⟨frame, page.data⟩) parent).readGuestMemory gpa len =
      (forked cow parent).readGuestMemory gpa len := by
  have hdata : pageData (forked (cow.insert g ⟨frame, page.data⟩) parent) =
      pageData (forked cow parent) := by
    funext base
    simp only [pageData, readPage, CowPageMap.get_insert]
    by_cases hbase : pageBase base = pageBase g
    · have hnone : cow.get base = none := by
        rw [← cow.get_pageBase, hbase, cow.get_pageBase, hnew]
      rw [if_pos hbase, hnone, hbase, parent.readPage_pageBase, hpage]
      rfl
    · rw [if_neg hbase]
  simp only [readGuestMemory, hdata]

/-- Two stages of the memory of one VM: a root, or a fork of one parent. -/
def SameBase : VmMemory → VmMemory → Prop
  | root _, root _ => True
  | forked _ parent, forked _ parent' => parent' = parent
  | _, _ => False

theorem SameBase.refl (mem : VmMemory) : SameBase mem mem := by
  cases mem with
  | root memory => trivial
  | forked cow parent => rfl

theorem SameBase.trans {a b c : VmMemory} (hab : SameBase a b) (hbc : SameBase b c) :
    SameBase a c := by
  cases a <;> cases b <;> cases c <;> simp_all [SameBase]

/-- Stages of the memory of one VM between which nothing that is read changes. -/
structure SameReads (mem mem' : VmMemory) : Prop where
  base : SameBase mem mem'
  read : ∀ gpa len, mem'.readGuestMemory gpa len = mem.readGuestMemory gpa len

theorem SameReads.refl (mem : VmMemory) : SameReads mem mem :=
  ⟨.refl mem, fun _ _ => rfl⟩

theorem SameReads.trans {a b c : VmMemory} (hab : SameReads a b) (hbc : SameReads b c) :
    SameReads a c :=
  ⟨hab.base.trans hbc.base, fun gpa len => (hbc.read gpa len).trans (hab.read gpa len)⟩

theorem writeGuestMemory_sameBase (mem : VmMemory) (gpa : Nat) (bytes : List UInt8) :
    SameBase mem (mem.writeGuestMemory gpa bytes).2 := by
  cases mem with
  | root memory =>
    unfold writeGuestMemory
    dsimp only
    split <;> trivial
  | forked cow parent => rfl

/-- A single-byte write at `addr` is accepted. -/
def canWrite : VmMemory → Nat → Bool
  | root memory, addr => addr < memory.size
  | forked cow _, addr => cow.contains addr

theorem cowStore_page :
    cowStore.page cow (pageStart PAGE_SIZE addr) = (cow.get addr).map Page.data :=
  rfl

theorem readByte_forked_eq :
    (forked cow parent).readByte addr =
      (byteAt PAGE_SIZE (cowStore.page cow) addr).or (byteAt PAGE_SIZE parent.pageData addr) := by
  rw [readByte_forked, byteAt_pageData_forked]
  conv_rhs => rw [byteAt, cowStore_page]
  cases cow.get addr <;> rfl

theorem writeSpan_frames (fuel gpa : Nat) (bytes : List UInt8) (addr : Nat) :
    ((writeSpan PAGE_SIZE cowStore fuel cow gpa bytes).1.get addr).map Page.frame =
      (cow.get addr).map Page.frame := by
  have hkept : ∀ cow' : CowPageMap, ∀ base data,
      (∀ addr, (cow'.get addr).map Page.frame = (cow.get addr).map Page.frame) →
      ∀ addr, ((cowStore.put cow' base data).get addr).map Page.frame =
        (cow.get addr).map Page.frame := by
    intro cow' base data hcow' addr
    rw [← hcow' addr]
    simp only [CowPageMap.get, cowStore, Std.TreeMap.getElem?_modify, compare_eq_iff_eq]
    split
    · rename_i h
      rw [h]
      cases cow'.pages[pageBase addr]? <;> rfl
    · rfl
  exact writeSpan_preserves (P := fun cow' : CowPageMap => ∀ addr,
    (cow'.get addr).map Page.frame = (cow.get addr).map Page.frame) hkept fuel gpa bytes
    (fun _ => rfl) addr

/-- What a write does, byte by byte: the first `count` bytes land at their addresses,
each of which accepts writes, and nothing else changes. -/
structure Wrote (mem : VmMemory) (gpa : Nat) (bytes : List UInt8)
    (result : Except MemoryError Unit × VmMemory) (count : Nat) : Prop where
  le : count ≤ bytes.length
  complete : result.1 = .ok () → count = bytes.length
  accepted : ∀ i < count, mem.canWrite (gpa + i) = true
  canWrite : ∀ a, result.2.canWrite a = mem.canWrite a
  readByte : ∀ a, result.2.readByte a =
    if gpa ≤ a ∧ a < gpa + count then bytes[a - gpa]? else mem.readByte a

theorem writeGuestMemory_root_spec (gpa : Nat) (bytes : List UInt8) :
    ∃ count, Wrote (root memory) gpa bytes ((root memory).writeGuestMemory gpa bytes) count := by
  by_cases hout : memory.size < gpa + bytes.length
  · have hres : (root memory).writeGuestMemory gpa bytes = (.error .outOfRange, root memory) := by
      simp [writeGuestMemory, hout]
    rw [hres]
    refine ⟨0, Nat.zero_le _, by simp, by simp, fun _ => rfl, fun a => ?_⟩
    rw [if_neg (by omega)]
  have hres : (root memory).writeGuestMemory gpa bytes =
      (.ok (), root { memory with bytes := splice memory.bytes gpa bytes }) := by
    simp [writeGuestMemory, hout]
  rw [hres]
  refine ⟨bytes.length, Nat.le_refl _, fun _ => rfl, fun i hi => ?_, fun _ => rfl, fun a => ?_⟩
  · simp only [VmMemory.canWrite, decide_eq_true_eq]
    omega
  simp only [readByte_root, splice]
  by_cases hin : gpa ≤ a ∧ a < gpa + bytes.length
  · rw [if_pos hin, if_pos (by omega), if_pos hin.1,
      List.getElem?_eq_getElem (show a - gpa < bytes.length by omega), getD_some]
  rw [if_neg hin]
  by_cases hle : gpa ≤ a
  · rw [if_pos hle, List.getElem?_eq_none (by omega), getD_none]
  · rw [if_neg hle]

theorem writeGuestMemory_forked_spec (gpa : Nat) (bytes : List UInt8) :
    ∃ count, Wrote (forked cow parent) gpa bytes
      ((forked cow parent).writeGuestMemory gpa bytes) count := by
  obtain ⟨count, hspec⟩ : ∃ count, WriteSpec cowStore PAGE_SIZE cow gpa bytes
      (writeSpan PAGE_SIZE cowStore (bytes.length + 1) cow gpa bytes) count :=
    writeSpan_spec pageSize_pos (Nat.lt_succ_self bytes.length)
  have hframes := writeSpan_frames cow (bytes.length + 1) gpa bytes
  set written := writeSpan PAGE_SIZE cowStore (bytes.length + 1) cow gpa bytes with hwritten
  have hres : (forked cow parent).writeGuestMemory gpa bytes =
      (if written.2 then .ok () else .error .permissionDenied, forked written.1 parent) := by
    simp [writeGuestMemory, ← hwritten]
  have hcontains : ∀ a, written.1.contains a = cow.contains a := by
    intro a
    have hframe := congrArg Option.isSome (hframes a)
    simpa [CowPageMap.contains_eq_isSome_get] using hframe
  rw [hres]
  refine ⟨count, hspec.le, fun hok => ?_, fun i hi => ?_, hcontains, fun a => ?_⟩
  · apply hspec.complete
    by_contra hstop
    simp [hstop] at hok
  · have hlanded := hspec.landed (gpa + i)
    rw [if_pos (by omega), List.getElem?_eq_getElem (by have := hspec.le; omega)] at hlanded
    rw [VmMemory.canWrite, ← hcontains, CowPageMap.contains_eq_isSome_get]
    rw [byteAt, cowStore_page] at hlanded
    cases hget : written.1.get (gpa + i) with
    | none =>
      rw [hget] at hlanded
      cases hlanded
    | some page => rfl
  · rw [readByte_forked_eq, readByte_forked_eq, hspec.landed a]
    split
    · rename_i hin
      rw [List.getElem?_eq_getElem (by have := hspec.le; omega)]
      rfl
    · rfl

theorem writeGuestMemory_spec (mem : VmMemory) (gpa : Nat) (bytes : List UInt8) :
    ∃ count, Wrote mem gpa bytes (mem.writeGuestMemory gpa bytes) count := by
  cases mem with
  | root memory => exact writeGuestMemory_root_spec memory gpa bytes
  | forked cow parent => exact writeGuestMemory_forked_spec cow parent gpa bytes

theorem writeGuestMemory_single_ok (h : mem.canWrite gpa)
    (b : UInt8) : (mem.writeGuestMemory gpa [b]).1 = .ok () := by
  cases mem with
  | root memory =>
    simp only [canWrite, decide_eq_true_eq] at h
    have hin : ¬memory.size < gpa + 1 := by omega
    simp [writeGuestMemory, hin]
  | forked cow parent =>
    rw [canWrite, CowPageMap.contains_eq_isSome_get] at h
    obtain ⟨page, hpage⟩ := isSome_iff_exists.mp h
    have hfits : 1 ≤ PAGE_SIZE - gpa % PAGE_SIZE := by
      have := Nat.mod_lt gpa pageSize_pos
      omega
    simp [writeGuestMemory, writeSpan, cowStore_page, hpage, hfits]

theorem writeEach_spec {bytes : List UInt8} (h : ∀ i < bytes.length, mem.canWrite (gpa + i)) :
    ∃ mem', mem.writeEach gpa bytes = some mem' ∧ ∀ a, mem'.readByte a =
      if gpa ≤ a ∧ a < gpa + bytes.length then bytes[a - gpa]? else mem.readByte a := by
  induction bytes generalizing mem gpa with
  | nil =>
    refine ⟨mem, rfl, fun a => ?_⟩
    rw [if_neg (by simp)]
  | cons b bytes ih =>
    have hok := writeGuestMemory_single_ok (h 0 (by simp)) b
    obtain ⟨count, hwrote⟩ := mem.writeGuestMemory_spec gpa [b]
    have hcount : count = 1 := hwrote.complete hok
    subst hcount
    generalize hres : mem.writeGuestMemory gpa [b] = result at hok hwrote
    obtain ⟨r, mem₁⟩ := result
    cases hok
    have hnext : ∀ i < bytes.length, mem₁.canWrite (gpa + 1 + i) := by
      intro i hi
      rw [hwrote.canWrite, Nat.add_assoc, Nat.add_comm 1 i]
      exact h (i + 1) (by simp; omega)
    obtain ⟨mem', heach, hread⟩ := ih hnext
    refine ⟨mem', ?_, fun a => ?_⟩
    · simp only [writeEach, hres, heach]
    rw [hread a, hwrote.readByte a, length_cons]
    by_cases hfirst : a = gpa
    · rw [if_neg (by omega), if_pos (by omega), if_pos (by omega), hfirst]
      simp
    by_cases hlater : gpa + 1 ≤ a ∧ a < gpa + 1 + bytes.length
    · rw [if_pos hlater, if_pos (by omega), show a - gpa = a - (gpa + 1) + 1 by omega,
        List.getElem?_cons_succ]
    · rw [if_neg hlater, if_neg (by omega), if_neg (by omega)]

theorem writeGuestMemory_eq_writeEach (mem : VmMemory) (gpa : Nat) (bytes : List UInt8) :
    ∃ count ≤ bytes.length, ((mem.writeGuestMemory gpa bytes).1 = .ok () → count = bytes.length) ∧
      ∃ mem', mem.writeEach gpa (bytes.take count) = some mem' ∧
        ∀ a, (mem.writeGuestMemory gpa bytes).2.readByte a = mem'.readByte a := by
  obtain ⟨count, hwrote⟩ := mem.writeGuestMemory_spec gpa bytes
  have hlen : (bytes.take count).length = count := by
    rw [length_take]
    exact Nat.min_eq_left hwrote.le
  have haccepted : ∀ i < (bytes.take count).length, mem.canWrite (gpa + i) :=
    fun i hi => hwrote.accepted i (hlen ▸ hi)
  obtain ⟨mem', heach, hread⟩ := writeEach_spec haccepted
  refine ⟨count, hwrote.le, hwrote.complete, mem', heach, fun a => ?_⟩
  rw [hwrote.readByte a, hread a, hlen]
  split
  · rw [List.getElem?_take_of_lt (by omega)]
  · rfl

end VmMemory

end Bedrock
