import Bedrock.Support.Words

/-!
# EPT entries

An entry packs the frame it points to (bits 51:12), three permission bits and, in
a leaf, the memory type.
-/

namespace Bedrock

open Support

/-- `EptEntry::ADDR_MASK`: bits 51:12. -/
def ADDR_MASK : UInt64 := 0x000FFFFFFFFFF000

/-- A page-aligned host-physical address below `2 ^ 52`. -/
structure HostFrame where
  addr : UInt64
  aligned : addr &&& ADDR_MASK = addr
  deriving DecidableEq

structure EptPermissions where
  bits : UInt64
  low : bits &&& 0b111 = bits
  deriving DecidableEq

namespace EptPermissions

def READ_WRITE_EXECUTE : EptPermissions := ⟨0b111, by decide⟩

def READ_EXECUTE : EptPermissions := ⟨0b101, by decide⟩

def fromBits (bits : UInt64) : EptPermissions :=
  ⟨bits &&& 0b111, and_mask_idem _ _⟩

def writable (perms : EptPermissions) : Bool :=
  perms.bits &&& 0b010 != 0

end EptPermissions

/-- `EptMemoryType::WriteBack.to_bits()` -/
def WRITE_BACK_BITS : UInt64 := 0x30

/-- A raw entry of any level. -/
structure EptEntry where
  raw : UInt64
  deriving DecidableEq

namespace EptEntry

def empty : EptEntry := ⟨0⟩

def tableEntry (frame : HostFrame) (perms : EptPermissions) : EptEntry :=
  ⟨(frame.addr &&& ADDR_MASK) ||| perms.bits⟩

def pageEntry4k (frame : HostFrame) (perms : EptPermissions) : EptEntry :=
  ⟨(frame.addr &&& ADDR_MASK) ||| perms.bits ||| WRITE_BACK_BITS⟩

def isPresent (e : EptEntry) : Bool :=
  e.raw &&& 0b111 != 0

def addr (e : EptEntry) : HostFrame :=
  ⟨e.raw &&& ADDR_MASK, and_mask_idem _ _⟩

def permissions (e : EptEntry) : EptPermissions :=
  .fromBits e.raw

/-- The frame a present entry points to. -/
def target (e : EptEntry) : Option HostFrame :=
  if e.isPresent then some e.addr else none

theorem perms_and_addr_mask (perms : EptPermissions) : perms.bits &&& ADDR_MASK = 0 :=
  and_eq_zero_of_disjoint perms.low (by decide)

variable (frame : HostFrame)

theorem addr_and_low : frame.addr &&& 0b111 = 0 :=
  and_eq_zero_of_disjoint frame.aligned (by decide)

theorem HostFrame_ext {f g : HostFrame} (h : f.addr = g.addr) : f = g := by
  cases f
  cases g
  simpa using h

variable (perms : EptPermissions)

@[simp] theorem addr_tableEntry : (tableEntry frame perms).addr = frame := by
  apply HostFrame_ext
  simp [addr, tableEntry, or_and_distrib, frame.aligned, perms_and_addr_mask]

@[simp] theorem addr_pageEntry4k : (pageEntry4k frame perms).addr = frame := by
  have hwb : WRITE_BACK_BITS &&& ADDR_MASK = 0 := by decide
  apply HostFrame_ext
  simp [addr, pageEntry4k, or_and_distrib, frame.aligned, perms_and_addr_mask, hwb]

theorem raw_low_tableEntry : (tableEntry frame perms).raw &&& 0b111 = perms.bits := by
  simp [tableEntry, or_and_distrib, frame.aligned, addr_and_low, perms.low]

theorem raw_low_pageEntry4k : (pageEntry4k frame perms).raw &&& 0b111 = perms.bits := by
  have hwb : WRITE_BACK_BITS &&& 0b111 = 0 := by decide
  simp [pageEntry4k, or_and_distrib, frame.aligned, addr_and_low, perms.low, hwb]

@[simp] theorem permissions_pageEntry4k : (pageEntry4k frame perms).permissions = perms := by
  cases perms
  simp [permissions, EptPermissions.fromBits, raw_low_pageEntry4k]

@[simp] theorem permissions_tableEntry : (tableEntry frame perms).permissions = perms := by
  cases perms
  simp [permissions, EptPermissions.fromBits, raw_low_tableEntry]

theorem target_tableEntry {perms : EptPermissions} (h : perms.bits ≠ 0) (frame : HostFrame) :
    (tableEntry frame perms).target = some frame := by
  simp [target, isPresent, raw_low_tableEntry, h]

theorem target_pageEntry4k {perms : EptPermissions} (h : perms.bits ≠ 0) (frame : HostFrame) :
    (pageEntry4k frame perms).target = some frame := by
  simp [target, isPresent, raw_low_pageEntry4k, h]

@[simp] theorem target_empty : empty.target = none := by
  decide

theorem permissions_bits_ne_zero {e : EptEntry} (h : e.target.isSome) : e.permissions.bits ≠ 0 := by
  by_contra hcon
  have : e.isPresent = false := by
    simpa [isPresent, permissions, EptPermissions.fromBits] using hcon
  simp [target, this] at h

end EptEntry

end Bedrock
