import Bedrock.Exits.Basic

/-!
# MSR accesses, port I/O and hardware randomness

Handlers that move data between registers and emulated devices.
-/

namespace Bedrock

open Support

variable (p : Part) {G : ActionClass} [Covers G GuestAction]

/-! ## Model-specific registers -/

/-- MSRs that read as zero and ignore writes: machine checks, speculation control,
the TSC deadline, thermal, power, performance-monitoring and tracing registers. -/
def zeroMsrs : List Nat :=
  [0x179, 0x17A, 0x48, 0x49, 0x3B, 0x6E0, 0x19B, 0x19C, 0x1B1, 0x1B2, 0x4E, 0x345, 0x1C9,
    0x1A6, 0x1A7, 0x3F6, 0x3F7, 0x186, 0x187, 0x188, 0x189, 0x18A, 0x18B, 0x18C, 0x18D,
    0x38D, 0xC1, 0xC2, 0xC3, 0xC4, 0xC5, 0xC6, 0xC7, 0xC8, 0xE7, 0xE8, 0x66A, 0x66B, 0x66C,
    0x140, 0x570, 0x611, 0x619, 0x639, 0x641, 0x610, 0x614, 0x618, 0x61C, 0x638, 0x640,
    0xE2, 0x1FC, 0x64E, 0x1AA, 0x770, 0x771, 0x773, 0x774, 0x777, 0x198, 0x199, 0x1B0,
    0x150]

/-- The SMI count, the AMD decode configuration and the MKTME partitioning read as
zero, but their writes are not recognised. -/
def readOnlyZeroMsrs : List Nat :=
  [0x34, 0xC0011029, 0x87]

/-- Microcode version, MTRR capabilities, feature control, platform information,
RAPL units and the miscellaneous enables have a value and ignore writes. -/
def readOnlyMsrs : List Nat :=
  [0x1A0, 0x8B, 0xFE, 0x3A, 0xCE, 0x606]

/-- `MiscEnable::for_guest`: BTS and PEBS unavailable, MWAIT off. -/
def miscEnableForGuest (v : UInt64) : UInt64 :=
  (v ||| 0x1800) &&& ~~~0x40000

/-- The value `handle_msr_read` returns; `none` for an unknown MSR. -/
def readMsr (machine : Machine) (g : GuestState) (msr : Nat) : Option UInt64 :=
  let mtrr := g.devices.mtrr
  if 0x200 ≤ msr ∧ msr ≤ 0x213 then
    let range := mtrr.var.getD ((msr - 0x200) / 2) (0, 0)
    some (if (msr - 0x200) % 2 = 0 then range.1 else range.2)
  else if 0x268 ≤ msr ∧ msr ≤ 0x26F then some (mtrr.fixed4k.getD (msr - 0x268) 0)
  else if msr ∈ zeroMsrs ∨ msr ∈ readOnlyZeroMsrs then some 0
  else
    match msr with
    | 0x1A0 => some (miscEnableForGuest machine.miscEnable)
    | 0x8B => some 0x100000000
    | 0xFE => some 0x50A
    | 0x3A => some 0x1
    | 0xCE => some machine.platformInfo
    | 0x606 => some 0x000A1003
    | 0x2FF => some mtrr.defType
    | 0x250 => some mtrr.fixed64k
    | 0x258 => some (mtrr.fixed16k.getD 0 0)
    | 0x259 => some (mtrr.fixed16k.getD 1 0)
    | 0x277 => some g.msrState.pat
    | 0x1B => some g.devices.apic.base
    | 0xC0000103 => some g.msrState.tscAux
    | _ => none

/-- `handle_msr_read` -/
def handleMsrRead : Handler ExitHandlerResult := do
  let g ← getGuest
  match readMsr (← getMachine) g g.gprs.rcx.toUInt32.toNat with
  | none => advanceAndReturn (.exitToUserspace .msrRead)
  | some v => do
    modifyGprs (setEdxEax v)
    advanceAndReturn .continue_

def MtrrState.setVar (mtrr : MtrrState) (offset : Nat) (v : UInt64) : MtrrState :=
  let range := mtrr.var.getD (offset / 2) (0, 0)
  { mtrr with
    var := mtrr.var.setIfInBounds (offset / 2)
      (if offset % 2 = 0 then (v, range.2) else (range.1, v)) }

/-- The effect of a recognised `WRMSR`; `none` sends it to userspace. -/
def writeMsr (g : GuestState) (msr : Nat) (v : UInt64) : Option GuestState :=
  let setMtrr := fun mtrr => some { g with devices := { g.devices with mtrr } }
  let mtrr := g.devices.mtrr
  if 0x200 ≤ msr ∧ msr ≤ 0x213 then setMtrr (mtrr.setVar (msr - 0x200) v)
  else if 0x268 ≤ msr ∧ msr ≤ 0x26F then
    setMtrr { mtrr with fixed4k := mtrr.fixed4k.setIfInBounds (msr - 0x268) v }
  else if msr ∈ zeroMsrs ∨ msr ∈ readOnlyMsrs then some g
  else
    match msr with
    | 0x2FF => setMtrr { mtrr with defType := v }
    | 0x250 => setMtrr { mtrr with fixed64k := v }
    | 0x258 => setMtrr { mtrr with fixed16k := mtrr.fixed16k.setIfInBounds 0 v }
    | 0x259 => setMtrr { mtrr with fixed16k := mtrr.fixed16k.setIfInBounds 1 v }
    | 0x277 => some { g with msrState := { g.msrState with pat := v } }
    -- relocating the APIC is not supported
    | 0x1B => if g.devices.apic.base ≠ v then none else some g
    | 0xC0000103 => some { g with msrState := { g.msrState with tscAux := v } }
    | _ => none

/-- `handle_msr_write` -/
def handleMsrWrite : Handler ExitHandlerResult := do
  let g ← getGuest
  let v : UInt64 := ((g.gprs.rdx &&& 0xFFFFFFFF) <<< 32) ||| (g.gprs.rax &&& 0xFFFFFFFF)
  let msr := g.gprs.rcx.toUInt32.toNat
  match writeMsr g msr v with
  | none => advanceAndReturn (.exitToUserspace .msrWrite)
  | some _ => do
    modifyGuest fun g => (writeMsr g msr v).getD g
    advanceAndReturn .continue_

theorem writeMsr_getD (g : GuestState) (msr : Nat) (v : UInt64) :
    ∃ mtrr msrState, (writeMsr g msr v).getD g =
      { g with devices := { g.devices with mtrr }, msrState } := by
  unfold writeMsr
  dsimp only
  split
  · exact ⟨_, _, rfl⟩
  split
  · exact ⟨_, _, rfl⟩
  split
  · exact ⟨_, _, rfl⟩
  · split
    all_goals first | exact ⟨_, _, rfl⟩ | (split <;> exact ⟨_, _, rfl⟩)

theorem writeMsr_ioChannel (g : GuestState) (msr : Nat) (v : UInt64) :
    ((writeMsr g msr v).getD g).ioChannel = g.ioChannel := by
  obtain ⟨_, _, h⟩ := writeMsr_getD g msr v
  rw [h]

instance (msr : Nat) (v : UInt64) : KeepsRequests fun g => (writeMsr g msr v).getD g where
  request g := congrArg _ (writeMsr_ioChannel g msr v)
  requestTargetTsc g := congrArg _ (writeMsr_ioChannel g msr v)
  pending g := congrArg _ (writeMsr_ioChannel g msr v)

instance (msr : Nat) (v : UInt64) : p.Leaves fun g => (writeMsr g msr v).getD g where
  get ctx := by
    obtain ⟨_, _, h⟩ := writeMsr_getD ctx.state.guest msr v
    rw [h]
    cases p <;> rfl

instance : Built (Framed p G) handleMsrRead := by
  unfold handleMsrRead
  refine .bind inferInstance fun g => .bind inferInstance fun machine => ?_
  cases readMsr machine g g.gprs.rcx.toUInt32.toNat <;> infer_instance

instance : Built (Framed p G) handleMsrWrite := by
  unfold handleMsrWrite
  refine .bind inferInstance fun g => ?_
  dsimp only
  split <;> infer_instance

/-! ## Port I/O -/

def IoAccessSize.bytes : IoAccessSize → Nat
  | .byte => 1
  | .word => 2
  | .dword => 4

/-- `(1 << (size * 8)) - 1` -/
def IoAccessSize.mask (size : IoAccessSize) : UInt64 :=
  UInt64.ofNat (2 ^ (size.bytes * 8) - 1)

/-- `OUT`: the device after a byte is written to a port.  Bytes sent to the serial
data port go to the event stream instead. -/
def writePort (dev : DeviceStates) (port : Nat) (byte : UInt8) : DeviceStates :=
  let serial := dev.serial
  match port with
  | 0x3F8 => if serial.dlab then { dev with serial := { serial with dll := byte } } else dev
  | 0x3F9 =>
    if serial.dlab then { dev with serial := { serial with dlh := byte } }
    else
      let dev := { dev with serial := { serial with ier := byte &&& 0x0F } }
      -- enabling the transmit interrupt raises it at once
      if byte &&& 0x02 ≠ 0 then dev.ioapicDeliverIrq 4 else dev
  | 0x3FB => { dev with serial := { serial with lcr := byte } }
  | 0x3FC => { dev with serial := { serial with mcr := byte &&& 0x1F } }
  | 0x3FF => { dev with serial := { serial with scr := byte } }
  | 0x70 => { dev with rtc := { dev.rtc with index := byte &&& 0x7F } }
  | _ => dev

instance [h : p.Other .requested] (port : Nat) (byte : UInt8) :
    p.LeavesDevices fun dev => writePort dev port byte where
  irr hp _ := absurd hp h.ne
  random _ dev := by
    unfold writePort
    dsimp only
    split
    · split <;> rfl
    · split
      · rfl
      split
      · exact Part.ioapicDeliverIrq_random _ _
      · rfl
    all_goals rfl

/-- `IN`: the value read from a port. -/
def readPort (dev : DeviceStates) (clock : Clock) (tscFrequency : Nat) (size : IoAccessSize)
    (port : Nat) : UInt64 :=
  let serial := dev.serial
  if 0xCFC ≤ port ∧ port ≤ 0xCFF then 0xFFFFFFFF >>> UInt64.ofNat ((4 - size.bytes) * 8)
  else
    match port with
    | 0x3F8 => if serial.dlab then serial.dll.toUInt64 else 0
    | 0x3F9 => if serial.dlab then serial.dlh.toUInt64 else serial.ier.toUInt64
    | 0x3FA => if serial.ier &&& 0x02 ≠ 0 then 0xC2 else 0xC1
    | 0x3FB => serial.lcr.toUInt64
    | 0x3FC => serial.mcr.toUInt64
    | 0x3FD => 0x60
    | 0x3FE => 0xB0
    | 0x3FF => serial.scr.toUInt64
    | 0x64 => 0xFF
    | 0x71 => (dev.rtc.readRegisterWithTsc clock.emulatedTsc tscFrequency).toUInt64
    | _ => 0

/-- `handle_io` -/
def handleIo (qual : IoQualification) : Handler ExitHandlerResult := do
  if qual.string = true then pure (.exitToUserspace .ioInstruction)
  else do
    let g ← getGuest
    let clock ← getClock
    let config ← getConfig
    match qual.direction with
    | .out =>
      let byte := (g.gprs.rax &&& 0xFF).toUInt8
      if qual.port = 0x3F8 ∧ g.devices.serial.dlab = false then emit (.serialByte byte)
      else modifyDevices fun dev => writePort dev qual.port byte
      advanceAndReturn .continue_
    | .in_ =>
      let v := readPort g.devices clock config.tscFrequency qual.size qual.port
      let mask := qual.size.mask
      modifyGprs fun gprs => { gprs with rax := (gprs.rax &&& ~~~mask) ||| (v &&& mask) }
      advanceAndReturn .continue_

instance [p.Other .requested] [Emits G .serial] (qual : IoQualification) :
    Built (Framed p G) (handleIo qual) := by
  unfold handleIo
  cases qual.direction <;> infer_instance

/-! ## RDRAND and RDSEED -/

/-- `write_gpr_by_index`: 16-bit results keep the upper bits of the register. -/
def writeGprByIndex (gprs : GeneralPurposeRegisters) (index : Nat) (v : UInt64) :
    RdrandOperandSize → GeneralPurposeRegisters
  | .size16 =>
    setGprValue gprs index ((getGprValue gprs index &&& ~~~0xFFFF) ||| (v &&& 0xFFFF))
  | .size32 => setGprValue gprs index (v &&& 0xFFFFFFFF)
  | .size64 => setGprValue gprs index v

/-- `set_cf_flag(ctx, true)` -/
def setCfFlag : Fallible Unit := do
  let rflags ← check (fun _ => .fatal "Failed to read guest RFLAGS") (← readVmcs .guestRflags)
  writeFieldOr "Failed to write guest RFLAGS" .guestRflags (rflags ||| 0x1)

/-- `handle_random`, shared by RDRAND and RDSEED. -/
def handleRandom (source : RandomSource) : Handler ExitHandlerResult := do
  let raw ← orError (do
    check (fun _ => .fatal "Failed to read VM-exit instruction info")
      (← readVmcs .vmExitInstructionInfo))
  let info := RdrandInstructionInfo.ofRaw raw
  let random := (← getGuest).devices.random
  if random.needsRdrandExit = true then pure (.exitToUserspace .rdrand)
  else do
    modifyDevices fun dev => { dev with random := dev.random.generate.2 }
    match random.generate.1 with
    | none => pure (.exitToUserspace .rdrand)
    | some v => do
      emit (.append .randomness (randomPayload v 0 source info.operandSize.width [])
        randomness_ne_exit)
      modifyGprs fun gprs => writeGprByIndex gprs info.destReg.toNat v info.operandSize
      orError setCfFlag
      advanceAndReturn .continue_

/-- `handle_rdrand` -/
def handleRdrand : Handler ExitHandlerResult :=
  handleRandom .rdrand

/-- `handle_rdseed` -/
def handleRdseed : Handler ExitHandlerResult :=
  handleRandom .rdseed

instance : Built (Framed p G) setCfFlag := by
  unfold setCfFlag
  infer_instance

instance [p.Other .random] [p.Other .stackPointer] [Emits G .randomness] (source : RandomSource) :
    Built (Framed p G) (handleRandom source) := by
  unfold handleRandom
  refine .bind inferInstance fun raw => .bind inferInstance fun g => ?_
  dsimp only
  cases g.devices.random.generate.1 <;> infer_instance

instance [p.Other .random] [p.Other .stackPointer] [Emits G .randomness] :
    Built (Framed p G) handleRdrand := by
  unfold handleRdrand
  infer_instance

instance [p.Other .random] [p.Other .stackPointer] [Emits G .randomness] :
    Built (Framed p G) handleRdseed := by
  unfold handleRdseed
  infer_instance

end Bedrock
