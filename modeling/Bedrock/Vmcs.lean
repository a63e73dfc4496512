import Mathlib.Logic.Function.Basic

/-!
# The VMCS and what an exit leaves in it

The virtual-machine control structure is a table of fields.  The processor may
refuse an access, so a read or write returns the error the source passes on.
The second half decodes the exit reason and the exit qualifications.
-/

namespace Bedrock

/-- The segment registers, the task register and the local descriptor table. -/
inductive Segment
  | cs | ds | es | fs | gs | ss | ldtr | tr
  deriving DecidableEq, Repr

/-- Guest state, the event to inject at the next entry, and what the processor
reports about the last exit. -/
inductive VmcsField
  | guestInterruptibilityState | idtVectoringErrorCode | idtVectoringInfo
  | vmEntryExceptionErrorCode | vmEntryInterruptionInfo
  | vmExitInstructionInfo | vmExitInstructionLen | vmExitInterruptionErrorCode
  | vmExitInterruptionInfo | vmExitReason | guestPhysicalAddr | cr0ReadShadow
  | cr4ReadShadow | exitQualification | guestCr0 | guestCr3 | guestCr4
  | guestRflags | guestRip | guestRsp | guestCsBase | guestDsBase | guestEsBase
  | guestSsBase | guestFsBase | guestGsBase | guestPendingDebugExceptions
  | guestLdtrBase | guestTrBase | guestSelector (seg : Segment) | guestLimit (seg : Segment)
  | guestAccessRights (seg : Segment) | guestDr7 | guestGdtrBase | guestGdtrLimit
  | guestIdtrBase | guestIdtrLimit | guestIa32Efer | guestIa32SysenterCs
  | guestIa32SysenterEsp | guestIa32SysenterEip | guestIa32Debugctl | guestIa32Pat
  | guestActivityState
  deriving DecidableEq, Repr

/-- Fields that configure the exit machinery; the guest cannot observe them. -/
inductive VmcsControl
  | exceptionBitmap | primaryProcBasedVmExecControls | vmExitMsrLoadAddr
  | vmExitMsrLoadCount | vmxPreemptionTimerValue | guestIa32PerfGlobalCtrl
  deriving DecidableEq, Repr

inductive VmcsReadError
  | vmcsNotLoaded | invalidField
  deriving DecidableEq, Repr

inductive VmcsWriteError
  | vmcsNotLoaded | invalidField | readOnlyField
  deriving DecidableEq, Repr

/-- A table of fields: the value of each and the accesses the processor refuses. -/
structure VmcsTable (F : Type) where
  value : F → UInt64
  readFault : F → Option VmcsReadError := fun _ => none
  writeFault : F → Option VmcsWriteError := fun _ => none

namespace VmcsTable

variable {F : Type}

def read (table : VmcsTable F) (field : F) : Except VmcsReadError UInt64 :=
  match table.readFault field with
  | some e => .error e
  | none => .ok (table.value field)

/-- A read whose failure counts as zero (`unwrap_or(0)`). -/
def readOrZero (table : VmcsTable F) (field : F) : UInt64 :=
  match table.read field with
  | .ok v => v
  | .error _ => 0

variable {table : VmcsTable F} {v : UInt64} {field : F}

theorem value_of_read (h : table.read field = .ok v) : table.value field = v := by
  unfold read at h
  split at h
  · cases h
  · cases h
    rfl

theorem readOrZero_of_read (h : table.read field = .ok v) : table.readOrZero field = v := by
  rw [readOrZero, h]

theorem readOrZero_of_readable
    (h : table.readFault field = none) : table.readOrZero field = table.value field := by
  rw [readOrZero, read, h]

theorem readable_of_read (h : table.read field = .ok v) : table.readFault field = none := by
  unfold read at h
  split at h
  · cases h
  · assumption

variable [DecidableEq F]

def setValue (table : VmcsTable F) (field : F) (v : UInt64) : VmcsTable F :=
  { table with value := Function.update table.value field v }

def write (table : VmcsTable F) (field : F) (v : UInt64) :
    Except VmcsWriteError Unit × VmcsTable F :=
  match table.writeFault field with
  | some e => (.error e, table)
  | none => (.ok (), table.setValue field v)

@[simp] theorem setValue_value_self (table : VmcsTable F) (field : F) (v : UInt64) :
    (table.setValue field v).value field = v := by
  simp [setValue]

@[simp] theorem setValue_value_of_ne (table : VmcsTable F) {other : F} (v : UInt64)
    (h : other ≠ field) : (table.setValue field v).value other = table.value other := by
  simp [setValue, h]

theorem write_eq_ok
    (h : (table.write field v).1 = .ok ()) : (table.write field v).2 = table.setValue field v := by
  unfold write at h ⊢
  split at h
  · cases h
  · rfl

@[simp] theorem write_readFault (table : VmcsTable F) (field : F) (v : UInt64) :
    (table.write field v).2.readFault = table.readFault := by
  unfold write
  split <;> rfl

@[simp] theorem write_writeFault (table : VmcsTable F) (field : F) (v : UInt64) :
    (table.write field v).2.writeFault = table.writeFault := by
  unfold write
  split <;> rfl

/-- A write, refused or not, touches no other field. -/
theorem write_value_of_ne (table : VmcsTable F) {other : F} (v : UInt64)
    (h : other ≠ field) : (table.write field v).2.value other = table.value other := by
  unfold write
  split
  · rfl
  · exact setValue_value_of_ne table v h

end VmcsTable

structure Vmcs where
  fields : VmcsTable VmcsField
  controls : VmcsTable VmcsControl

/-! ## Execution-control bits -/

namespace Controls

/-- `cpu_based::INTR_WINDOW_EXITING` -/
def intrWindowExiting : UInt64 := 0x4

/-- `cpu_based::MONITOR_TRAP_FLAG` -/
def monitorTrapFlag : UInt64 := 0x8000000

end Controls

/-! ## Exit reasons -/

/-- Basic exit reasons in the order of their codes, then the synthetic ones. -/
inductive ExitReason
  | exceptionNmi | externalInterrupt | tripleFault | init | sipi | ioSmi | otherSmi
  | interruptWindow | nmiWindow | taskSwitch | cpuid | getsec | hlt | invd | invlpg
  | rdpmc | rdtsc | rsm | vmcall | vmclear | vmlaunch | vmptrld | vmptrst | vmread
  | vmresume | vmwrite | vmxoff | vmxon | crAccess | drAccess | ioInstruction
  | msrRead | msrWrite | invalidGuestState | msrLoadFail | reserved35 | mwait
  | monitorTrapFlag | reserved38 | monitor | pause | mceDuringVmentry | reserved42
  | tprBelowThreshold | apicAccess | virtualizedEoi | gdtrIdtrAccess | ldtrTrAccess
  | eptViolation | eptMisconfiguration | invept | rdtscp | vmxPreemptionTimer
  | invvpid | wbinvd | xsetbv | apicWrite | rdrand | invpcid | vmfunc | encls
  | rdseed | pmlFull | xsaves | xrstors | pconfig | sppRelated | umwait | tpause
  | loadiwkey | reserved70 | reserved71 | enqcmdPasid | enqcmdsPasid | busLock
  | instructionTimeout | seamcall | tdcall | rdmsrlist | wrmsrlist
  | needResched | vmcallShutdown | stopTscReached | vmcallSnapshot
  | vmcallFeedbackBuffer | poolExhausted | vmcallPebsPage | vmcallIoRegisterPage
  | vmcallIoResponse | vmcallReady | eventBufferFull | vmcallFileFetch
  | vmcallGetRandom | vmcallFileStore
  deriving DecidableEq, Repr

namespace ExitReason

/-- The hardware reasons; the position in the list is the basic exit reason. -/
def hardware : List ExitReason :=
  [exceptionNmi, externalInterrupt, tripleFault, init, sipi, ioSmi, otherSmi,
   interruptWindow, nmiWindow, taskSwitch, cpuid, getsec, hlt, invd, invlpg,
   rdpmc, rdtsc, rsm, vmcall, vmclear, vmlaunch, vmptrld, vmptrst, vmread,
   vmresume, vmwrite, vmxoff, vmxon, crAccess, drAccess, ioInstruction,
   msrRead, msrWrite, invalidGuestState, msrLoadFail, reserved35, mwait,
   monitorTrapFlag, reserved38, monitor, pause, mceDuringVmentry, reserved42,
   tprBelowThreshold, apicAccess, virtualizedEoi, gdtrIdtrAccess, ldtrTrAccess,
   eptViolation, eptMisconfiguration, invept, rdtscp, vmxPreemptionTimer,
   invvpid, wbinvd, xsetbv, apicWrite, rdrand, invpcid, vmfunc, encls,
   rdseed, pmlFull, xsaves, xrstors, pconfig, sppRelated, umwait, tpause,
   loadiwkey, reserved70, reserved71, enqcmdPasid, enqcmdsPasid, busLock,
   instructionTimeout, seamcall, tdcall, rdmsrlist, wrmsrlist]

/-- `ExitReason::try_from`: the low sixteen bits select the reason; the error
carries those bits. -/
def tryFrom (raw : UInt64) : Except Nat ExitReason :=
  let basic := (raw &&& 0xFFFF).toNat
  match hardware[basic]? with
  | some reason => .ok reason
  | none => .error basic

def code : ExitReason → Nat
  | needResched => 256
  | vmcallShutdown => 258
  | stopTscReached => 259
  | vmcallSnapshot => 260
  | vmcallFeedbackBuffer => 261
  | poolExhausted => 262
  | vmcallPebsPage => 263
  | vmcallIoRegisterPage => 264
  | vmcallIoResponse => 265
  | vmcallReady => 266
  | eventBufferFull => 267
  | vmcallFileFetch => 268
  | vmcallGetRandom => 269
  | vmcallFileStore => 270
  | reason => hardware.idxOf reason

end ExitReason

/-! ## Exit qualifications -/

/-- Whether bit `i` of a register value is set. -/
def bitSet (w : UInt64) (i : UInt64) : Bool :=
  (w >>> i) &&& 1 != 0

inductive CrAccessType
  | movToCr | movFromCr | clts | lmsw
  deriving DecidableEq, Repr

structure CrAccessQualification where
  crNumber : UInt64
  accessType : CrAccessType
  register : UInt64
  lmswSourceData : UInt64

def CrAccessQualification.ofRaw (qual : UInt64) : CrAccessQualification where
  crNumber := qual &&& 0xF
  accessType :=
    match ((qual >>> 4) &&& 0x3).toNat with
    | 1 => .movFromCr
    | 2 => .clts
    | 3 => .lmsw
    | _ => .movToCr
  register := (qual >>> 8) &&& 0xF
  lmswSourceData := (qual >>> 16) &&& 0xFFFF

inductive IoDirection
  | out | in_
  deriving DecidableEq, Repr

inductive IoAccessSize
  | byte | word | dword
  deriving DecidableEq, Repr

structure IoQualification where
  size : IoAccessSize
  direction : IoDirection
  string : Bool
  port : Nat

/-- Size encodings the table does not define fall back to a byte access. -/
def IoQualification.ofRaw (qual : UInt64) : IoQualification where
  size :=
    match (qual &&& 0x7).toNat with
    | 1 => .word
    | 3 => .dword
    | _ => .byte
  direction := if bitSet qual 3 then .in_ else .out
  string := bitSet qual 4
  port := ((qual >>> 16) &&& 0xFFFF).toNat

/-- The bits of an EPT-violation qualification that the handlers consult. -/
structure EptViolationQualification where
  read : Bool
  write : Bool
  execute : Bool
  readable : Bool
  writable : Bool
  executable : Bool
  guestLinearValid : Bool
  asynchronous : Bool
  deriving DecidableEq, Repr

def EptViolationQualification.ofRaw (qual : UInt64) : EptViolationQualification where
  read := bitSet qual 0
  write := bitSet qual 1
  execute := bitSet qual 2
  readable := bitSet qual 3
  writable := bitSet qual 4
  executable := bitSet qual 5
  guestLinearValid := bitSet qual 7
  asynchronous := bitSet qual 16

inductive InterruptionType
  | externalInterrupt | reserved | nmi | hardwareException | softwareInterrupt
  | privilegedSoftwareException | softwareException | otherEvent
  deriving DecidableEq, Repr

def InterruptionType.code : InterruptionType → UInt64
  | externalInterrupt => 0
  | reserved => 1
  | nmi => 2
  | hardwareException => 3
  | softwareInterrupt => 4
  | privilegedSoftwareException => 5
  | softwareException => 6
  | otherEvent => 7

def InterruptionType.ofCode : Nat → InterruptionType
  | 0 => externalInterrupt
  | 1 => reserved
  | 2 => nmi
  | 3 => hardwareException
  | 4 => softwareInterrupt
  | 5 => privilegedSoftwareException
  | 6 => softwareException
  | _ => otherEvent

structure InterruptionInfo where
  vector : UInt64
  interruptionType : InterruptionType
  errorCodeValid : Bool
  nmiUnblocking : Bool
  valid : Bool

namespace InterruptionInfo

def externalInterrupt (vector : UInt64) : InterruptionInfo :=
  ⟨vector, .externalInterrupt, false, false, true⟩

def encode (info : InterruptionInfo) : UInt64 :=
  info.vector
    ||| (info.interruptionType.code <<< 8)
    ||| (if info.errorCodeValid then 0x800 else 0)
    ||| (if info.nmiUnblocking then 0x1000 else 0)
    ||| (if info.valid then 0x80000000 else 0)

def ofRaw (raw : UInt64) : InterruptionInfo where
  vector := raw &&& 0xFF
  interruptionType := .ofCode ((raw >>> 8) &&& 0x7).toNat
  errorCodeValid := bitSet raw 11
  nmiUnblocking := bitSet raw 12
  valid := bitSet raw 31

end InterruptionInfo

inductive RdrandOperandSize
  | size16 | size32 | size64
  deriving DecidableEq, Repr

def RdrandOperandSize.width : RdrandOperandSize → UInt8
  | size16 => 2
  | size32 => 4
  | size64 => 8

structure RdrandInstructionInfo where
  destReg : UInt64
  operandSize : RdrandOperandSize

def RdrandInstructionInfo.ofRaw (raw : UInt64) : RdrandInstructionInfo where
  destReg := (raw >>> 3) &&& 0xF
  operandSize :=
    match ((raw >>> 11) &&& 0x3).toNat with
    | 0 => .size16
    | 1 => .size32
    | _ => .size64

end Bedrock
