import Bedrock.Footprint

/-!
# Helpers and the handlers that touch only registers

CPUID, control registers, XSETBV, the time-stamp counter and exceptions.
-/

namespace Bedrock

open Support

variable (p : Part) {G : ActionClass} [Covers G GuestAction]

/-- `advance_rip` -/
def advanceRip : Fallible Unit := do
  let rip ← readField .guestRip
  let len ← readField32 .vmExitInstructionLen
  writeFieldOr "Failed to write guest RIP" .guestRip (rip + len.toUInt64)

/-- Advance past the instruction and return `r`. -/
def advanceAndReturn (r : ExitHandlerResult) : Handler ExitHandlerResult := do
  orError advanceRip
  pure r

/-- `inject_exception` -/
def injectException (info : InterruptionInfo) (errorCode : Option UInt64) : Fallible Unit := do
  writeFieldOr "Failed to write interruption info" .vmEntryInterruptionInfo info.encode
  match errorCode with
  | none => pure ()
  | some ec => writeFieldOr "Failed to write error code" .vmEntryExceptionErrorCode ec

def modifyGprs (f : GeneralPurposeRegisters → GeneralPurposeRegisters) : Handler Unit :=
  modifyGuest fun g => { g with gprs := f g.gprs }

def modifyDevices (f : DeviceStates → DeviceStates) : Handler Unit :=
  modifyGuest fun g => { g with devices := f g.devices }

instance : Built (Framed p G) advanceRip := by
  unfold advanceRip
  infer_instance

instance (r : ExitHandlerResult) : Built (Framed p G) (advanceAndReturn r) := by
  unfold advanceAndReturn
  infer_instance

instance (info : InterruptionInfo) (errorCode : Option UInt64) :
    Built (Framed p G) (injectException info errorCode) := by
  unfold injectException
  cases errorCode <;> infer_instance

instance (f : GeneralPurposeRegisters → GeneralPurposeRegisters) [p.LeavesGprs f] :
    Built (Framed p G) (modifyGprs f) := by
  unfold modifyGprs
  infer_instance

instance (f : DeviceStates → DeviceStates) [p.LeavesDevices f] :
    Built (Framed p G) (modifyDevices f) := by
  unfold modifyDevices
  infer_instance

/-! ## CPUID -/

def clearBits (v : UInt32) (bits : List UInt32) : UInt32 :=
  bits.foldl (fun v b => v &&& ~~~((1 : UInt32) <<< b)) v

/-- The values `handle_cpuid` reports for a leaf: the host's, edited. -/
def cpuidValues (machine : Machine) (tscFrequency : Nat) (leaf subleaf : UInt32) :
    UInt32 × UInt32 × UInt32 × UInt32 :=
  let (eax, ebx, ecx, edx) := machine.cpuid leaf subleaf
  match leaf.toNat with
  | 0x0 => (if eax > 0x16 then 0x16 else eax, ebx, ecx, edx)
  | 0x1 =>
    -- no VMX and no TSC deadline timer; a hypervisor is present; one logical processor
    (0x00050657, (ebx &&& 0x0000FFFF) ||| 0x00010000,
      clearBits ecx [5, 24] ||| 0x80000000, clearBits edx [28])
  | 0x4 => (if subleaf = 0 then eax &&& ~~~0x3FFC000 else eax, ebx, ecx, edx)
  | 0x6 => (0, 0, 0, 0)
  | 0x7 =>
    if subleaf = 0 then
      (eax, clearBits ebx [2, 4, 7, 11, 16, 17, 18, 19, 20, 21, 26, 27, 28, 30, 31], 0, 0)
    else (0, 0, 0, 0)
  | 0xD =>
    match subleaf.toNat with
    | 0 => (0x7, 832, 832, 0)
    | 2 => (256, 576, 0, 0)
    | _ => (0, 0, 0, 0)
  | 0xB | 0x1F =>
    if subleaf = 0 ∨ subleaf = 1 then (eax, 0, (ecx &&& 0xFFFFFF00) ||| subleaf, 0)
    else (0, 0, subleaf, 0)
  | 0x80000000 => (if eax < 0x80000004 then 0x80000004 else eax, ebx, ecx, edx)
  -- the brand string, then two leaves of spaces
  | 0x80000002 => (0x72646542, 0x206b636f, 0x43204d56, 0x20205550)
  | 0x80000003 | 0x80000004 => (0x20202020, 0x20202020, 0x20202020, 0)
  | 0xA => (0, 0, 0, 0)
  | 0x15 => (1, 1, UInt32.ofNat tscFrequency, 0)
  | 0x80000008 => (eax, ebx, ecx &&& 0xFFFFFF00, edx)
  | 0x16 => (3000, 5800, 100, 0)
  | _ => (0, 0, 0, 0)

/-- `handle_cpuid` -/
def handleCpuid : Handler ExitHandlerResult := do
  let gprs := (← getGuest).gprs
  let values := cpuidValues (← getMachine) (← getConfig).tscFrequency gprs.rax.toUInt32
    gprs.rcx.toUInt32
  modifyGprs fun gprs => { gprs with
    rax := values.1.toUInt64
    rbx := values.2.1.toUInt64
    rcx := values.2.2.1.toUInt64
    rdx := values.2.2.2.toUInt64 }
  advanceAndReturn .continue_

instance : Built (Framed p G) handleCpuid := by
  unfold handleCpuid
  infer_instance

/-! ## Control registers -/

/-- The value VMX operation allows for a requested control register. -/
def constrainCr (fixed0 fixed1 v : UInt64) : UInt64 :=
  (v ||| (fixed0 &&& fixed1)) &&& ~~~(~~~fixed0 &&& ~~~fixed1)

/-- A write to CR0 or CR4: the constrained value, and the requested one in the
read shadow. -/
def writeShadowedCr (message : String) (field shadow : VmcsField) (actual shown : UInt64) :
    Fallible Unit := do
  writeFieldOr message field actual
  writeFieldOr message shadow shown

/-- `MOV` to a control register. -/
def movToCr (machine : Machine) (crNumber : Nat) (v : UInt64) : Fallible Unit :=
  match crNumber with
  | 0 => writeShadowedCr "Failed to write CR0" .guestCr0 .cr0ReadShadow
      (constrainCr machine.cr0Fixed0 machine.cr0Fixed1 v) v
  -- bit 63 is the PCID preserve flag, which the VMCS does not store
  | 3 => writeFieldOr "Failed to write CR3" .guestCr3 (v &&& ~~~0x8000000000000000)
  | 4 => writeShadowedCr "Failed to write CR4" .guestCr4 .cr4ReadShadow
      (constrainCr machine.cr4Fixed0 machine.cr4Fixed1 v) v
  | 8 => pure ()
  | _ => .exit (.fatal "Write to unsupported CR")

/-- `MOV` from a control register. -/
def movFromCr (crNumber : Nat) : Fallible UInt64 :=
  match crNumber with
  | 0 => readField .guestCr0
  | 3 => readField .guestCr3
  | 4 => readField .guestCr4
  | 8 => pure 0
  | _ => .exit (.fatal "Read from unsupported CR")

/-- The CR0 updates of CLTS and LMSW. -/
def updateCr0 (message shadowMessage : String) (f : UInt64 → UInt64) : Fallible Unit := do
  let cr0 ← readField .guestCr0
  writeFieldOr message .guestCr0 (f cr0)
  writeFieldOr shadowMessage .cr0ReadShadow (f cr0)

/-- `handle_cr_access` -/
def handleCrAccess (qual : CrAccessQualification) : Handler ExitHandlerResult := do
  let register := qual.register.toNat
  let v := getGprValue (← getGuest).gprs register
  let machine ← getMachine
  match qual.accessType with
  | .movToCr =>
    orError (movToCr machine qual.crNumber.toNat v)
    advanceAndReturn .continue_
  | .movFromCr =>
    let v ← orError (movFromCr qual.crNumber.toNat)
    modifyGprs fun gprs => setGprValue gprs register v
    advanceAndReturn .continue_
  | .clts =>
    orError (updateCr0 "Failed to write CR0 for CLTS" "Failed to write CR0 shadow for CLTS"
      fun cr0 => cr0 &&& ~~~0x8)
    advanceAndReturn .continue_
  | .lmsw =>
    orError (updateCr0 "Failed to write CR0 for LMSW" "Failed to write CR0 shadow for LMSW"
      fun cr0 => (cr0 &&& 0xFFFFFFF0) ||| (qual.lmswSourceData &&& 0xF))
    advanceAndReturn .continue_

instance (message : String) (field shadow : VmcsField) [p.LeavesField field]
    [p.LeavesField shadow] (actual shown : UInt64) :
    Built (Framed p G) (writeShadowedCr message field shadow actual shown) := by
  unfold writeShadowedCr
  infer_instance

instance (machine : Machine) (crNumber : Nat) (v : UInt64) :
    Built (Framed p G) (movToCr machine crNumber v) := by
  unfold movToCr
  split <;> infer_instance

instance (crNumber : Nat) : Built (Framed p G) (movFromCr crNumber) := by
  unfold movFromCr
  split <;> infer_instance

instance (message shadowMessage : String) (f : UInt64 → UInt64) :
    Built (Framed p G) (updateCr0 message shadowMessage f) := by
  unfold updateCr0
  infer_instance

instance [p.Other .stackPointer] (qual : CrAccessQualification) :
    Built (Framed p G) (handleCrAccess qual) := by
  unfold handleCrAccess
  cases qual.accessType <;> infer_instance

/-! ## Time-stamp counter -/

def setEdxEax (v : UInt64) (gprs : GeneralPurposeRegisters) : GeneralPurposeRegisters :=
  { gprs with rax := v &&& 0xFFFFFFFF, rdx := v >>> 32 }

instance (v : UInt64) : p.LeavesGprs (setEdxEax v) :=
  ⟨fun _ _ => rfl⟩

instance (v w : UInt64) : p.LeavesGprs fun gprs => { setEdxEax v gprs with rcx := w } :=
  ⟨fun _ _ => rfl⟩

/-- `handle_rdtsc` -/
def handleRdtsc : Handler ExitHandlerResult := do
  let tsc := UInt64.ofNat (← getClock).emulatedTsc
  modifyGprs (setEdxEax tsc)
  advanceAndReturn .continue_

/-- `handle_rdtscp` -/
def handleRdtscp : Handler ExitHandlerResult := do
  let tsc := UInt64.ofNat (← getClock).emulatedTsc
  let tscAux := (← getGuest).msrState.tscAux
  modifyGprs fun gprs => { setEdxEax tsc gprs with rcx := tscAux &&& 0xFFFFFFFF }
  advanceAndReturn .continue_

/-- `handle_rdpmc` -/
def handleRdpmc : Handler ExitHandlerResult := do
  modifyGprs (setEdxEax 0)
  advanceAndReturn .continue_

instance : Built (Framed p G) handleRdtsc := by
  unfold handleRdtsc
  infer_instance

instance : Built (Framed p G) handleRdtscp := by
  unfold handleRdtscp
  infer_instance

instance : Built (Framed p G) handleRdpmc := by
  unfold handleRdpmc
  infer_instance

/-! ## XSETBV and exceptions -/

/-- `handle_xsetbv`: refused values go to userspace. -/
def handleXsetbv : Handler ExitHandlerResult := do
  let gprs := (← getGuest).gprs
  let v : UInt64 := (gprs.rdx <<< 32) ||| (gprs.rax &&& 0xFFFFFFFF)
  if gprs.rcx.toUInt32 ≠ 0 then pure (.exitToUserspace .xsetbv)
  else if v &&& 1 = 0 then pure (.exitToUserspace .xsetbv)
  else if v &&& 4 ≠ 0 ∧ v &&& 2 = 0 then pure (.exitToUserspace .xsetbv)
  else do
    modifyGuest fun g => { g with xcr0Mask := v }
    advanceAndReturn .continue_

/-- `handle_exception_nmi`: host NMIs are passed to the host, intercepted page
faults go back to the guest. -/
def handleExceptionNmi : Handler ExitHandlerResult := do
  let info := InterruptionInfo.ofRaw (← orError (readField .vmExitInterruptionInfo))
  if info.interruptionType = .nmi then pure .continue_
  else if info.vector = 14 ∧ (← getConfig).interceptPf = true then do
    let errorCode ← readFieldOrZero .vmExitInterruptionErrorCode
    let faultAddr ← readFieldOrZero .exitQualification
    modifyGuest fun g => { g with guestCr2 := faultAddr }
    orError (injectException ⟨14, .hardwareException, true, false, true⟩ (some errorCode))
    pure .continue_
  else pure (.exitToUserspace .exceptionNmi)

instance [p.Other .xcr0] : Built (Framed p G) handleXsetbv := by
  unfold handleXsetbv
  infer_instance

instance : Built (Framed p G) handleExceptionNmi := by
  unfold handleExceptionNmi
  infer_instance

end Bedrock
