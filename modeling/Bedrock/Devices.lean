import Bedrock.Support.Bytes
import Bedrock.Vmcs

/-!
# Emulated devices

Registers of the local APIC, the I/O APIC, the serial port, the CMOS clock, the
memory-type range registers and the controlled-randomness device, with the
register-level reads and writes the exit handlers perform on them.
-/

namespace Bedrock

structure GeneralPurposeRegisters where
  rax : UInt64 := 0
  rcx : UInt64 := 0
  rdx : UInt64 := 0
  rbx : UInt64 := 0
  rsp : UInt64 := 0
  rbp : UInt64 := 0
  rsi : UInt64 := 0
  rdi : UInt64 := 0
  r8 : UInt64 := 0
  r9 : UInt64 := 0
  r10 : UInt64 := 0
  r11 : UInt64 := 0
  r12 : UInt64 := 0
  r13 : UInt64 := 0
  r14 : UInt64 := 0
  r15 : UInt64 := 0
  deriving DecidableEq, Repr

/-- `get_gpr_value`: unknown register numbers read as zero. -/
def getGprValue (gprs : GeneralPurposeRegisters) : Nat → UInt64
  | 0 => gprs.rax
  | 1 => gprs.rcx
  | 2 => gprs.rdx
  | 3 => gprs.rbx
  | 4 => gprs.rsp
  | 5 => gprs.rbp
  | 6 => gprs.rsi
  | 7 => gprs.rdi
  | 8 => gprs.r8
  | 9 => gprs.r9
  | 10 => gprs.r10
  | 11 => gprs.r11
  | 12 => gprs.r12
  | 13 => gprs.r13
  | 14 => gprs.r14
  | 15 => gprs.r15
  | _ => 0

/-- `set_gpr_value`: unknown register numbers are ignored. -/
def setGprValue (gprs : GeneralPurposeRegisters) (reg : Nat) (v : UInt64) :
    GeneralPurposeRegisters :=
  match reg with
  | 0 => { gprs with rax := v }
  | 1 => { gprs with rcx := v }
  | 2 => { gprs with rdx := v }
  | 3 => { gprs with rbx := v }
  | 4 => { gprs with rsp := v }
  | 5 => { gprs with rbp := v }
  | 6 => { gprs with rsi := v }
  | 7 => { gprs with rdi := v }
  | 8 => { gprs with r8 := v }
  | 9 => { gprs with r9 := v }
  | 10 => { gprs with r10 := v }
  | 11 => { gprs with r11 := v }
  | 12 => { gprs with r12 := v }
  | 13 => { gprs with r13 := v }
  | 14 => { gprs with r14 := v }
  | 15 => { gprs with r15 := v }
  | _ => gprs

/-! ## Local APIC -/

def APIC_BASE_DEFAULT : UInt64 := 0xFEE00900

structure ApicState where
  base : UInt64 := APIC_BASE_DEFAULT
  id : UInt32 := 0
  version : UInt32 := 0x00050014
  tpr : UInt32 := 0
  ldr : UInt32 := 0
  dfr : UInt32 := 0xFFFFFFFF
  svr : UInt32 := 0xFF
  isr : Vector UInt32 8 := .replicate 8 0
  tmr : Vector UInt32 8 := .replicate 8 0
  irr : Vector UInt32 8 := .replicate 8 0
  esr : UInt32 := 0
  icrLo : UInt32 := 0
  icrHi : UInt32 := 0
  lvtTimer : UInt32 := 0x10000
  lvtThermal : UInt32 := 0x10000
  lvtPerf : UInt32 := 0x10000
  lvtLint0 : UInt32 := 0x10000
  lvtLint1 : UInt32 := 0x10000
  lvtError : UInt32 := 0x10000
  timerInitial : UInt32 := 0
  timerDivide : UInt32 := 0
  /-- Emulated TSC at which the timer fires; `0` when it is not running. -/
  timerDeadline : Nat := 0
  deriving DecidableEq, Repr

namespace ApicState

def enabled (apic : ApicState) : Bool :=
  apic.svr &&& 0x100 != 0

def timerMasked (apic : ApicState) : Bool :=
  apic.lvtTimer &&& 0x10000 != 0

def timerPeriodic (apic : ApicState) : Bool :=
  apic.lvtTimer &&& 0x20000 != 0

/-- `apic_timer_divisor` -/
def timerDivisor (dcr : UInt32) : Nat :=
  match (((dcr >>> 1) &&& 4) ||| (dcr &&& 3)).toNat with
  | 0 => 2
  | 1 => 4
  | 2 => 8
  | 3 => 16
  | 4 => 32
  | 5 => 64
  | 6 => 128
  | _ => 1

def timerTicks (apic : ApicState) : Nat :=
  apic.timerInitial.toNat * timerDivisor apic.timerDivide

/-- Set the bit of `vector` in a 256-bit interrupt register. -/
def setVectorBit (reg : Vector UInt32 8) (vector : UInt32) : Vector UInt32 8 :=
  let i := (vector / 32).toNat
  reg.setIfInBounds i (reg.getD i 0 ||| ((1 : UInt32) <<< (vector % 32)))

def clearVectorBit (reg : Vector UInt32 8) (vector : UInt32) : Vector UInt32 8 :=
  let i := (vector / 32).toNat
  reg.setIfInBounds i (reg.getD i 0 &&& ~~~((1 : UInt32) <<< (vector % 32)))

/-- The highest vector whose bit is set, scanning words from the top down. -/
def highestVector (reg : Vector UInt32 8) : Option UInt32 :=
  [7, 6, 5, 4, 3, 2, 1, 0].findSome? fun i =>
    let word := reg.getD i 0
    if word = 0 then none else some (UInt32.ofNat (i * 32 + word.toNat.log2))

/-- `read_apic_register` -/
def readRegister (apic : ApicState) (offset : Nat) : UInt32 :=
  if 0x100 ≤ offset ∧ offset ≤ 0x170 then apic.isr.getD ((offset - 0x100) / 16) 0
  else if 0x180 ≤ offset ∧ offset ≤ 0x1F0 then apic.tmr.getD ((offset - 0x180) / 16) 0
  else if 0x200 ≤ offset ∧ offset ≤ 0x270 then apic.irr.getD ((offset - 0x200) / 16) 0
  else
    match offset with
    | 0x020 => apic.id <<< 24
    | 0x030 => apic.version
    | 0x080 => apic.tpr
    | 0x0A0 => apic.tpr &&& 0xF0
    | 0x0D0 => apic.ldr
    | 0x0E0 => apic.dfr
    | 0x0F0 => apic.svr
    | 0x280 => apic.esr
    | 0x300 => apic.icrLo
    | 0x310 => apic.icrHi
    | 0x320 => apic.lvtTimer
    | 0x330 => apic.lvtThermal
    | 0x340 => apic.lvtPerf
    | 0x350 => apic.lvtLint0
    | 0x360 => apic.lvtLint1
    | 0x370 => apic.lvtError
    | 0x380 => apic.timerInitial
    | 0x3E0 => apic.timerDivide
    -- arbitration priority, EOI, remote read, current count and reserved offsets
    | _ => 0

/-- `write_apic_register`; `currentTsc` is the emulated TSC the timer starts from. -/
def writeRegister (apic : ApicState) (offset : Nat) (v : UInt32) (currentTsc : Nat) :
    ApicState :=
  match offset with
  | 0x020 => { apic with id := (v >>> 24) &&& 0xFF }
  | 0x080 => { apic with tpr := v &&& 0xFF }
  | 0x0B0 =>
    -- end of interrupt: retire the highest-priority interrupt in service
    match highestVector apic.isr with
    | some vector => { apic with isr := clearVectorBit apic.isr vector }
    | none => apic
  | 0x0D0 => { apic with ldr := v }
  | 0x0E0 => { apic with dfr := v ||| 0x0FFFFFFF }
  | 0x0F0 => { apic with svr := v }
  | 0x280 => { apic with esr := 0 }
  | 0x300 => { apic with icrLo := v }
  | 0x310 => { apic with icrHi := v }
  | 0x320 => { apic with lvtTimer := v }
  | 0x330 => { apic with lvtThermal := v }
  | 0x340 => { apic with lvtPerf := v }
  | 0x350 => { apic with lvtLint0 := v }
  | 0x360 => { apic with lvtLint1 := v }
  | 0x370 => { apic with lvtError := v }
  | 0x380 =>
    let started := { apic with timerInitial := v }
    if v = 0 then { started with timerDeadline := 0 }
    else { started with timerDeadline := currentTsc + started.timerTicks }
  | 0x3E0 => { apic with timerDivide := v }
  | _ => apic

theorem writeRegister_irr (apic : ApicState) (offset : Nat) (v : UInt32) (currentTsc : Nat) :
    (apic.writeRegister offset v currentTsc).irr = apic.irr := by
  unfold writeRegister
  split
  all_goals first | rfl | (split <;> rfl)

end ApicState

/-! ## I/O APIC -/

def IOAPIC_NUM_PINS : Nat := 24

structure IoApicState where
  ioregsel : UInt32 := 0
  id : UInt32 := 0
  redtbl : Vector UInt64 IOAPIC_NUM_PINS := .replicate IOAPIC_NUM_PINS 0x10000
  deriving DecidableEq

namespace IoApicState

def entry (ioapic : IoApicState) (pin : Nat) : UInt64 :=
  ioapic.redtbl.getD pin 0

/-- A redirection entry that can deliver: unmasked and with a legal vector. -/
def routable (e : UInt64) : Bool :=
  !(bitSet e 16) && !((e &&& 0xFF) < 16)

/-- `read_ioapic_register` -/
def readRegister (ioapic : IoApicState) : UInt32 :=
  let reg := ioapic.ioregsel.toNat
  match reg with
  | 0x00 => ioapic.id
  | 0x01 => 0x00170020
  | 0x02 => ioapic.id
  | _ =>
    if 0x10 ≤ reg ∧ reg < 0x10 + 48 then
      let e := ioapic.entry ((reg - 0x10) / 2)
      if (reg - 0x10) % 2 = 1 then (e >>> 32).toUInt32 else e.toUInt32
    else 0

/-- `write_ioapic_register` -/
def writeRegister (ioapic : IoApicState) (v : UInt32) : IoApicState :=
  let reg := ioapic.ioregsel.toNat
  match reg with
  | 0x00 => { ioapic with id := v &&& 0x0F000000 }
  | 0x01 | 0x02 => ioapic
  | _ =>
    if 0x10 ≤ reg ∧ reg < 0x10 + 48 then
      let pin := (reg - 0x10) / 2
      let e := ioapic.entry pin
      let e' : UInt64 :=
        if (reg - 0x10) % 2 = 1 then (e &&& 0x00000000FFFFFFFF) ||| (v.toUInt64 <<< (32 : UInt64))
        else (e &&& 0xFFFFFFFF00000000) ||| v.toUInt64
      { ioapic with redtbl := ioapic.redtbl.setIfInBounds pin e' }
    else ioapic

end IoApicState

/-! ## Serial port -/

structure SerialState where
  ier : UInt8 := 0
  lcr : UInt8 := 0
  mcr : UInt8 := 0
  scr : UInt8 := 0
  dll : UInt8 := 0
  dlh : UInt8 := 0
  deriving DecidableEq, Repr

def SerialState.dlab (serial : SerialState) : Bool :=
  serial.lcr &&& 0x80 != 0

/-! ## CMOS clock -/

structure RtcState where
  index : UInt8 := 0
  baseTime : Nat := 1704067200
  deriving DecidableEq, Repr

namespace RtcState

def toBcd (v : Nat) : UInt8 :=
  let byte := UInt8.ofNat v
  ((byte / 10) <<< 4) ||| (byte % 10)

def isLeapYear (year : Nat) : Bool :=
  (year % 4 == 0 && year % 100 != 0) || year % 400 == 0

def daysInYear (year : Nat) : Nat :=
  if isLeapYear year then 366 else 365

/-- The year loop of `days_to_date`; each round consumes at least 365 days, so
`days` rounds always suffice. -/
def yearLoop : (fuel year remaining : Nat) → Nat × Nat
  | 0, year, remaining => (year, remaining)
  | fuel + 1, year, remaining =>
    if remaining < daysInYear year then (year, remaining)
    else yearLoop fuel (year + 1) (remaining - daysInYear year)

def monthLoop : (months : List Nat) → (month remaining : Nat) → Nat × Nat
  | [], month, remaining => (month, remaining)
  | d :: months, month, remaining =>
    if remaining < d then (month, remaining)
    else monthLoop months (month + 1) (remaining - d)

def monthLengths (year : Nat) : List Nat :=
  [31, if isLeapYear year then 29 else 28, 31, 30, 31, 30, 31, 31, 30, 31, 30, 31]

/-- `days_to_date`: year, month, day and day of the week. -/
def daysToDate (days : Nat) : Nat × Nat × Nat × Nat :=
  let dayOfWeek := (days + 4) % 7 + 1
  let (year, remaining) := yearLoop days 1970 days
  let (month, remaining) := monthLoop (monthLengths year) 1 remaining
  (year, month, remaining + 1, dayOfWeek)

/-- `read_register_with_tsc`; Lean's division by zero is the source's
`checked_div(..).unwrap_or(0)`. -/
def readRegisterWithTsc (rtc : RtcState) (emulatedTsc tscFrequency : Nat) : UInt8 :=
  let secs := rtc.baseTime + emulatedTsc / tscFrequency
  let timeOfDay := secs % 86400
  let (year, month, day, dayOfWeek) := daysToDate (secs / 86400)
  match rtc.index.toNat with
  | 0x00 => toBcd (timeOfDay % 60)
  | 0x02 => toBcd (timeOfDay % 3600 / 60)
  | 0x04 => toBcd (timeOfDay / 3600)
  | 0x06 => toBcd dayOfWeek
  | 0x07 => toBcd day
  | 0x08 => toBcd month
  | 0x09 => toBcd (year % 100)
  | 0x0B => 0x02
  | 0x0D => 0x80
  | 0x32 => toBcd (year / 100)
  | _ => 0x00

end RtcState

/-! ## Memory-type range registers -/

def MTRR_VAR_MAX : Nat := 10

structure MtrrState where
  defType : UInt64 := 0x6
  fixed4k : Vector UInt64 8 := .replicate 8 0
  fixed16k : Vector UInt64 2 := .replicate 2 0
  fixed64k : UInt64 := 0
  var : Vector (UInt64 × UInt64) MTRR_VAR_MAX := .replicate MTRR_VAR_MAX (0, 0)
  deriving DecidableEq

/-! ## Controlled randomness -/

inductive RdrandMode
  | seededRng | exitToUserspace
  deriving DecidableEq, Repr

def RANDOM_REPLY_MAX : Nat := 256

/-- State of the randomness device; `reply` is the valid part of the reply buffer. -/
structure RandomState where
  mode : RdrandMode := .seededRng
  seed : UInt64 := 0x9e3779b97f4a7c15
  pendingValue : Option UInt64 := none
  awaiting : Bool := false
  bufGva : UInt64 := 0
  reqLen : Nat := 0
  pid : UInt32 := 0
  reply : List UInt8 := []
  replyValid : Bool := false
  deriving DecidableEq

namespace RandomState

def nextSeededU64 (random : RandomState) : UInt64 × RandomState :=
  let x := random.seed
  let x := x ^^^ (x <<< 13)
  let x := x ^^^ (x >>> 7)
  let x := x ^^^ (x <<< 17)
  (x, { random with seed := x })

/-- The fill loop of `HYPERCALL_GET_RANDOM`: eight bytes a round, so `len` rounds
always suffice. -/
def fill : (rounds len : Nat) → RandomState → List UInt8 × RandomState
  | 0, _, random => ([], random)
  | rounds + 1, len, random =>
    if len = 0 then ([], random)
    else
      let (v, random) := random.nextSeededU64
      let (rest, random) := fill rounds (len - 8) random
      ((Support.leBytes 8 v.toNat).take len ++ rest, random)

/-- Value for RDRAND or RDSEED; `none` asks for an exit to userspace. -/
def generate (random : RandomState) : Option UInt64 × RandomState :=
  match random.mode with
  | .seededRng =>
    let (x, random) := random.nextSeededU64
    (some x, random)
  | .exitToUserspace => (random.pendingValue, { random with pendingValue := none })

def needsRdrandExit (random : RandomState) : Bool :=
  random.mode == .exitToUserspace && random.pendingValue.isNone

def needsGetRandomExit (random : RandomState) : Bool :=
  random.mode == .exitToUserspace && !random.replyValid

def beginRequest (random : RandomState) (bufGva : UInt64) (reqLen : Nat) (pid : UInt32) :
    RandomState :=
  { random with
    bufGva, reqLen, pid
    awaiting := true
    replyValid := false
    reply := [] }

def stageReply (random : RandomState) (bytes : List UInt8) : RandomState :=
  { random with reply := bytes.take RANDOM_REPLY_MAX, replyValid := true }

def clearRequest (random : RandomState) : RandomState :=
  { random with
    awaiting := false
    bufGva := 0
    reqLen := 0
    pid := 0
    reply := []
    replyValid := false }

end RandomState

/-! ## All devices -/

structure DeviceStates where
  apic : ApicState := {}
  serial : SerialState := {}
  ioapic : IoApicState := {}
  rtc : RtcState := {}
  mtrr : MtrrState := {}
  random : RandomState := {}
  deriving DecidableEq

/-- `ioapic_deliver_irq`: raise the vector of a routable pin in the local APIC. -/
def DeviceStates.ioapicDeliverIrq (dev : DeviceStates) (irq : Nat) : DeviceStates :=
  if IOAPIC_NUM_PINS ≤ irq then dev
  else if !IoApicState.routable (dev.ioapic.entry irq) then dev
  else
    { dev with
      apic := { dev.apic with
        irr := ApicState.setVectorBit dev.apic.irr (dev.ioapic.entry irq &&& 0xFF).toUInt32 } }

/-- MSRs emulated outside the VMCS. -/
structure GuestMsrState where
  pat : UInt64 := 0x0007040600070406
  tscAux : UInt64 := 0
  deriving DecidableEq, Repr

end Bedrock
