import Bedrock.Decoder
import Bedrock.Exits.Basic

/-!
# Guest page tables and emulated interrupt controllers

Accesses to the APIC pages fault.  The handler translates the instruction pointer,
fetches and decodes the instruction, and performs the register access.
-/

namespace Bedrock

open Support

variable (p : Part) {G : ActionClass} [Covers G GuestAction]

/-- Address bits of a guest page-table entry. -/
def GUEST_ADDR_MASK : UInt64 := 0x000FFFFFFFFFF000

def readTableEntry (table : UInt64) (index : UInt64) : Program Unit VmContext UInt64 := do
  let (bytes, r) ← readGuestMemory ((table &&& GUEST_ADDR_MASK) + (index &&& 0x1FF) * 8).toNat 8
  check (fun _ => ()) r
  let entry := UInt64.ofNat (ofLeBytes bytes)
  if entry &&& 1 = 0 then .exit () else pure entry

/-- The last two levels of the walk, with 2 MB pages. -/
def walkPageDirectory (pdpte gva : UInt64) : Program Unit VmContext Nat := do
  let pde ← readTableEntry pdpte (gva >>> 21)
  if pde &&& 0x80 ≠ 0 then
    pure ((pde &&& 0x000FFFFFFFE00000) ||| (gva &&& 0x1FFFFF)).toNat
  else do
    let pte ← readTableEntry pde (gva >>> 12)
    pure ((pte &&& GUEST_ADDR_MASK) ||| (gva &&& 0xFFF)).toNat

/-- `translate_gva_to_gpa`: a four-level walk with 1 GB and 2 MB pages. -/
def translateGvaToGpa (gva : UInt64) : Program Unit VmContext Nat := do
  let cr3 ← check (fun _ => ()) (← readVmcs .guestCr3)
  let pml4e ← readTableEntry cr3 (gva >>> 39)
  let pdpte ← readTableEntry pml4e (gva >>> 30)
  if pdpte &&& 0x80 ≠ 0 then
    pure ((pdpte &&& 0x000FFFFFC0000000) ||| (gva &&& 0x3FFFFFFF)).toNat
  else walkPageDirectory pdpte gva

/-- The loop of `translate_gva_range_to_gpas`: page-aligned addresses of `n` pages. -/
def translatePages (startPage : UInt64) : Nat → Program Unit VmContext (List Nat)
  | 0 => pure []
  | n + 1 => do
    let gpa ← translateGvaToGpa startPage
    let rest ← translatePages (startPage + 4096) n
    pure (pageBase gpa :: rest)

/-- `translate_gva_range_to_gpas`; `maxPages` is the capacity of the output array. -/
def translateGvaRangeToGpas (gva size : UInt64) (maxPages : Nat) :
    Program Unit VmContext (List Nat) :=
  if size = 0 then pure []
  else if 2 ^ 64 ≤ gva.toNat + (size.toNat - 1) then .exit ()
  else
    let startPage := gva &&& ~~~0xFFF
    let endPage := (gva + (size - 1)) &&& ~~~0xFFF
    let numPages := ((endPage - startPage) / 4096).toNat + 1
    if maxPages < numPages then .exit () else translatePages startPage numPages

instance (table index : UInt64) : Built ReadAction (readTableEntry table index) := by
  unfold readTableEntry
  refine .bind inferInstance fun read => ?_
  obtain ⟨bytes, r⟩ := read
  infer_instance

instance (pdpte gva : UInt64) : Built ReadAction (walkPageDirectory pdpte gva) := by
  unfold walkPageDirectory
  infer_instance

instance translateGvaToGpa_built (gva : UInt64) : Built ReadAction (translateGvaToGpa gva) := by
  unfold translateGvaToGpa
  infer_instance

instance (gva : UInt64) : Built (Framed p G) (translateGvaToGpa gva) :=
  Framed.of_readOnly (translateGvaToGpa_built gva)

instance translatePages_built (startPage : UInt64) (n : Nat) :
    Built (Framed p G) (translatePages startPage n) := by
  induction n generalizing startPage with
  | zero => exact .pure _
  | succ n ih =>
    have := ih (startPage + 4096)
    unfold translatePages
    infer_instance

instance (gva size : UInt64) (maxPages : Nat) :
    Built (Framed p G) (translateGvaRangeToGpas gva size maxPages) := by
  unfold translateGvaRangeToGpas
  infer_instance

/-! ## Interrupt controllers -/

def APIC_BASE : Nat := 0xFEE00000

def APIC_SIZE : Nat := 0x1000

def IOAPIC_BASE : Nat := 0xFEC00000

def IOAPIC_SIZE : Nat := 0x1000

def isApicGpa (gpa : Nat) : Bool :=
  APIC_BASE ≤ gpa && gpa < APIC_BASE + APIC_SIZE

def isIoApicGpa (gpa : Nat) : Bool :=
  IOAPIC_BASE ≤ gpa && gpa < IOAPIC_BASE + IOAPIC_SIZE

/-- What a controller does with its own failures to find or decode the instruction. -/
structure MmioFailures where
  translate : ExitHandlerResult
  fetch : ExitHandlerResult
  decode : ExitHandlerResult
  advance : String

/-- Fetch and decode the instruction at `rip`. -/
def fetchInstruction (failures : MmioFailures) (rip : UInt64) : Handler DecodedInstruction := do
  let instrGpa ← (translateGvaToGpa rip).mapExit fun _ => failures.translate
  let (bytes, r) ← readGuestMemory instrGpa 15
  check (fun _ => failures.fetch) r
  check (fun _ => failures.decode) (decodeInstruction bytes)

/-- A device-register access: `load` is the value a read returns and `store` the
effect of a write; the instruction is skipped by its decoded length. -/
def handleMmio (failures : MmioFailures) (qual : EptViolationQualification)
    (load : DeviceStates → UInt32) (store : Clock → DeviceStates → UInt32 → DeviceStates) :
    Handler ExitHandlerResult := do
  let rip ← orError (readField .guestRip)
  let decoded ← fetchInstruction failures rip
  let g ← getGuest
  let clock ← getClock
  if qual.read = true then
    modifyGprs fun gprs => setGprValue gprs decoded.register (load g.devices).toUInt64
  else if qual.write = true then
    let v := (getGprValue g.gprs decoded.register).toUInt32
    modifyDevices fun dev => store clock dev v
  else pure ()
  orError (writeFieldOr failures.advance .guestRip (rip + UInt64.ofNat decoded.length))
  pure .continue_

/-- `handle_apic_access`: an instruction that cannot be found or decoded goes to
userspace. -/
def handleApicAccess (gpa : Nat) (qual : EptViolationQualification) :
    Handler ExitHandlerResult :=
  let offset := gpa - APIC_BASE
  handleMmio
    { translate := .exitToUserspace .eptViolation
      fetch := .exitToUserspace .eptViolation
      decode := .exitToUserspace .eptViolation
      advance := "Failed to advance RIP for APIC access" } qual
    (fun dev => dev.apic.readRegister offset)
    fun clock dev v => { dev with apic := dev.apic.writeRegister offset v clock.emulatedTsc }

def ioApicLoad (offset : Nat) (dev : DeviceStates) : UInt32 :=
  match offset with
  | 0x00 => dev.ioapic.ioregsel
  | 0x10 => dev.ioapic.readRegister
  | _ => 0

def ioApicStore (offset : Nat) (dev : DeviceStates) (v : UInt32) : DeviceStates :=
  match offset with
  | 0x00 => { dev with ioapic := { dev.ioapic with ioregsel := v } }
  | 0x10 => { dev with ioapic := dev.ioapic.writeRegister v }
  | _ => dev

instance (offset : Nat) (v : UInt32) : p.LeavesDevices fun dev => ioApicStore offset dev v where
  random _ dev := by
    unfold ioApicStore
    split <;> rfl
  irr _ dev := by
    unfold ioApicStore
    split <;> rfl

/-- `handle_ioapic_access`: here the same failures are fatal. -/
def handleIoapicAccess (gpa : Nat) (qual : EptViolationQualification) :
    Handler ExitHandlerResult :=
  let offset := gpa - IOAPIC_BASE
  handleMmio
    { translate := .error (.fatal "Failed to translate I/O APIC instruction address")
      fetch := .error (.fatal "Failed to read I/O APIC instruction")
      decode := .error (.fatal "Failed to decode I/O APIC instruction")
      advance := "Failed to advance RIP for I/O APIC access" } qual
    (ioApicLoad offset) fun _ => ioApicStore offset

instance (failures : MmioFailures) (rip : UInt64) :
    Built (Framed p G) (fetchInstruction failures rip) := by
  unfold fetchInstruction
  refine .bind inferInstance fun instrGpa => .bind inferInstance fun read => ?_
  obtain ⟨bytes, r⟩ := read
  infer_instance

instance [p.Other .stackPointer] (failures : MmioFailures) (qual : EptViolationQualification)
    (load : DeviceStates → UInt32) (store : Clock → DeviceStates → UInt32 → DeviceStates)
    [∀ clock v, p.LeavesDevices fun dev => store clock dev v] :
    Built (Framed p G) (handleMmio failures qual load store) := by
  unfold handleMmio
  infer_instance

instance [p.Other .stackPointer] (gpa : Nat) (qual : EptViolationQualification) :
    Built (Framed p G) (handleApicAccess gpa qual) := by
  unfold handleApicAccess
  infer_instance

instance [p.Other .stackPointer] (gpa : Nat) (qual : EptViolationQualification) :
    Built (Framed p G) (handleIoapicAccess gpa qual) := by
  unfold handleIoapicAccess
  infer_instance

end Bedrock
