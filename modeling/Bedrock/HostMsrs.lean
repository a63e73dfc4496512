import Bedrock.Run

/-!
# The host's model-specific registers

`run` lends registers of the processor to the guest.  It loads the guest's SYSCALL
registers and `IA32_KERNEL_GS_BASE`, for which the VMCS has no fields, and takes a
performance counter to count the guest's instructions.  This module follows `run` and
`run_loop` through all their returns.

Left out are the registers of the precise-exit facility, which are swapped around each
entry, and the VMCS lists of registers to load, except that the list of the
precise-exit facility ends with `IA32_PERF_GLOBAL_CTRL`.
-/

namespace Bedrock

open Support List Function Controls

/-! ## Registers -/

/-- The registers `run` takes over, by their architectural names. -/
inductive Msr
  | star | lstar | cstar | fmask | kernelGsBase | perfevtsel0 | perfGlobalCtrl
  deriving DecidableEq, Repr

inductive MsrError
  | invalidAddress
  deriving DecidableEq, Repr

/-- The registers of a processor and the accesses that fault. -/
structure MsrFile where
  value : Msr → UInt64
  readFault : Msr → Bool := fun _ => false
  writeFault : Msr → UInt64 → Bool := fun _ _ => false

namespace MsrFile

def readMsr (msrs : MsrFile) (msr : Msr) : Except MsrError UInt64 :=
  if msrs.readFault msr then .error .invalidAddress else .ok (msrs.value msr)

/-- A read whose failure counts as zero (`unwrap_or(0)`). -/
def readOrZero (msrs : MsrFile) (msr : Msr) : UInt64 :=
  match msrs.readMsr msr with
  | .ok v => v
  | .error _ => 0

def setValue (msrs : MsrFile) (msr : Msr) (v : UInt64) : MsrFile :=
  { msrs with value := Function.update msrs.value msr v }

variable (msrs : MsrFile)

variable (msr : Msr)

theorem setValue_value_self (v : UInt64) : (msrs.setValue msr v).value msr = v :=
  update_self ..

theorem setValue_value_of_ne {msr other : Msr} (v : UInt64) (h : other ≠ msr) :
    (msrs.setValue msr v).value other = msrs.value other :=
  update_of_ne h ..

def writeMsr (msrs : MsrFile) (msr : Msr) (v : UInt64) : Except MsrError Unit × MsrFile :=
  if msrs.writeFault msr v then (.error .invalidAddress, msrs)
  else (.ok (), msrs.setValue msr v)

def put (msrs : MsrFile) (msr : Msr) (v : UInt64) : MsrFile :=
  (msrs.writeMsr msr v).2

theorem put_readFault (v : UInt64) : (msrs.put msr v).readFault = msrs.readFault := by
  unfold put writeMsr
  split <;> rfl

theorem put_writeFault (v : UInt64) :
    (msrs.put msr v).writeFault = msrs.writeFault := by
  unfold put writeMsr
  split <;> rfl

theorem put_value_self (v : UInt64) :
    (msrs.put msr v).value msr = if msrs.writeFault msr v then msrs.value msr else v := by
  unfold put writeMsr
  split
  · rfl
  · exact msrs.setValue_value_self msr v

theorem put_value_of_ne {msr other : Msr} (v : UInt64) (h : other ≠ msr) :
    (msrs.put msr v).value other = msrs.value other := by
  unfold put writeMsr
  split
  · rfl
  · exact msrs.setValue_value_of_ne v h

def Absent (msrs : MsrFile) (msr : Msr) : Prop :=
  ∀ v, msrs.writeFault msr v = true

/-- Writing `v` brings back the present value of the register, whatever is written to it
in the meantime. -/
def PutsBack (msrs : MsrFile) (msr : Msr) (v : UInt64) : Prop :=
  msrs.Absent msr ∨ v = msrs.value msr ∧ msrs.writeFault msr v = false

/-- What instructions make of the registers: the same accesses fault as before, and absent
registers hold the same.  `IA32_PERF_GLOBAL_CTRL` is also loaded from the VMCS. -/
structure Leads (a b : MsrFile) : Prop where
  readFault : b.readFault = a.readFault
  writeFault : b.writeFault = a.writeFault
  absent : ∀ msr, msr ≠ .perfGlobalCtrl → a.Absent msr → b.value msr = a.value msr

namespace Leads

variable {a b c : MsrFile}

theorem refl (a : MsrFile) : Leads a a :=
  ⟨rfl, rfl, fun _ _ _ => rfl⟩

theorem trans (hab : Leads a b) (hbc : Leads b c) : Leads a c := by
  refine ⟨hbc.readFault.trans hab.readFault, hbc.writeFault.trans hab.writeFault, ?_⟩
  intro msr hne habsent
  have habsent' : b.Absent msr := by
    intro v
    rw [hab.writeFault]
    exact habsent v
  exact (hbc.absent msr hne habsent').trans (hab.absent msr hne habsent)

theorem put (a : MsrFile) (msr : Msr) (v : UInt64) : Leads a (a.put msr v) := by
  refine ⟨a.put_readFault msr v, a.put_writeFault msr v, ?_⟩
  intro other _ habsent
  by_cases h : other = msr
  · subst h
    rw [put_value_self, if_pos (habsent v)]
  · exact a.put_value_of_ne v h

theorem value_put {msr : Msr} {v : UInt64} (h : Leads a b) (hback : a.PutsBack msr v)
    (hne : msr ≠ .perfGlobalCtrl) : (b.put msr v).value msr = a.value msr := by
  rw [put_value_self, h.writeFault]
  rcases hback with habsent | ⟨rfl, haccepted⟩
  · rw [if_pos (habsent v)]
    exact h.absent msr hne habsent
  · rw [haccepted]
    rfl

end Leads

def putAll (msrs : MsrFile) (writes : List (Msr × UInt64)) : MsrFile :=
  writes.foldl (fun msrs write => msrs.put write.1 write.2) msrs

theorem leads_putAll (writes : List (Msr × UInt64)) : msrs.Leads (msrs.putAll writes) := by
  induction writes generalizing msrs with
  | nil => exact .refl msrs
  | cons write writes ih => exact (Leads.put msrs write.1 write.2).trans (ih _)

theorem putAll_value_of_notMem {writes : List (Msr × UInt64)} {msr : Msr}
    (h : msr ∉ writes.map Prod.fst) : (msrs.putAll writes).value msr = msrs.value msr := by
  induction writes generalizing msrs with
  | nil => rfl
  | cons write writes ih =>
    rw [map_cons, mem_cons, not_or] at h
    exact (ih _ h.2).trans (msrs.put_value_of_ne write.2 h.1)

theorem Leads.value_putAll {a b : MsrFile} {writes : List (Msr × UInt64)} {msr : Msr} {v : UInt64}
    (hleads : Leads a b) (hnodup : (writes.map Prod.fst).Nodup) (hmem : (msr, v) ∈ writes)
    (hback : a.PutsBack msr v) (hne : msr ≠ .perfGlobalCtrl) :
    (b.putAll writes).value msr = a.value msr := by
  induction writes generalizing b with
  | nil => cases hmem
  | cons write writes ih =>
    rw [map_cons, nodup_cons] at hnodup
    rcases mem_cons.mp hmem with rfl | hmem
    · exact (putAll_value_of_notMem _ hnodup.1).trans (hleads.value_put hback hne)
    · exact ih (hleads.trans (.put b write.1 write.2)) hnodup.2 hmem

end MsrFile

/-- The registers behind SYSCALL and SYSRET. -/
structure SyscallMsrs where
  star : UInt64 := 0
  lstar : UInt64 := 0
  cstar : UInt64 := 0
  fmask : UInt64 := 0
  deriving DecidableEq, Repr

namespace SyscallMsrs

def capture (msrs : MsrFile) : SyscallMsrs where
  star := msrs.readOrZero .star
  lstar := msrs.readOrZero .lstar
  cstar := msrs.readOrZero .cstar
  fmask := msrs.readOrZero .fmask

/-- The writes `load` makes. -/
def writes (syscall : SyscallMsrs) : List (Msr × UInt64) :=
  [(.star, syscall.star), (.lstar, syscall.lstar), (.cstar, syscall.cstar),
    (.fmask, syscall.fmask)]

def load (syscall : SyscallMsrs) (msrs : MsrFile) : MsrFile :=
  msrs.putAll syscall.writes

theorem writes_fst (syscall : SyscallMsrs) :
    syscall.writes.map Prod.fst = [.star, .lstar, .cstar, .fmask] := rfl

end SyscallMsrs

/-! ## A hosted VM -/

/-- `IA32_PERFEVTSEL0` for retired instructions: USR, OS, EN and event 0xC0. -/
def PERFEVTSEL0_INST_RETIRED_ANY_P : UInt64 := 0x4300C0

/-- Bit of `IA32_PERF_GLOBAL_CTRL` that enables `IA32_PMC0`. -/
def PERF_GLOBAL_CTRL_PMC0 : UInt64 := 1

def PERF_GLOBAL_CTRL_FIXED_CTR0 : UInt64 := 0x100000000

inductive InstructionCounterError
  | unavailable | programFailed | restoreFailed
  deriving DecidableEq, Repr

/-- The counter.  A null counter has no page for its MSR-list entry and is never
armed. -/
structure LinuxInstructionCounter where
  /-- Physical address of `msr_entry_page`. -/
  msrEntryPage : Option UInt64 := none
  savedPerfevtsel0 : UInt64 := 0
  guestPerfGlobalCtrl : UInt64 := 0
  hostPerfGlobalCtrl : UInt64 := 0
  armed : Bool := false
  page_of_armed : armed = true → msrEntryPage.isSome = true := by decide

/-- VMCS fields of the host and the controls that concern `IA32_PERF_GLOBAL_CTRL`. -/
inductive HostVmcsField
  | hostCr3 | hostFsBase | hostGsBase | hostTrBase | hostGdtrBase | hostRsp
  | hostIa32PerfGlobalCtrl | vmEntryControls | primaryVmExitControls
  deriving DecidableEq, Repr

/-- `vm_entry::LOAD_IA32_PERF_GLOBAL_CTRL` -/
def Controls.loadPerfOnEntry : UInt64 := 0x2000

/-- `vm_exit::LOAD_IA32_PERF_GLOBAL_CTRL` -/
def Controls.loadPerfOnExit : UInt64 := 0x1000

/-- A VM with what only `run` and `run_loop` use. -/
structure HostedVm where
  ctx : VmContext
  /-- `msr_state.syscall` -/
  syscall : SyscallMsrs := {}
  /-- `host_state.syscall_msrs`, captured when the VM was created. -/
  hostSyscall : SyscallMsrs := {}
  counter : LinuxInstructionCounter := {}
  hostFields : VmcsTable HostVmcsField
  lastCpu : Option Nat := none

/-- A VM and the processor `run` is called on. -/
structure Host where
  vm : HostedVm
  msrs : MsrFile

inductive InveptError
  | invalidOperand | notSupported
  deriving DecidableEq, Repr

inductive VmEntryError
  | vmEntryFailed
  deriving DecidableEq, Repr

inductive VmRunError
  | instructionCounter (e : InstructionCounterError)
  | vmEntry (e : VmEntryError)
  | exitHandler (e : ExitError)
  | vmcsLoad
  | vmcsClear
  | writeHostRsp (e : VmcsWriteError)
  | readHostCr3
  | writeHostCr3 (e : VmcsWriteError)
  | writeHostFsBase (e : VmcsWriteError)
  | writeHostGsBase (e : VmcsWriteError)
  | writeHostTrBase (e : VmcsWriteError)
  | writeHostGdtrBase (e : VmcsWriteError)
  | inveptFailed (e : InveptError)
  deriving DecidableEq, Repr

/-- What the host contributes to one call of `run`, apart from the guest. -/
structure RunHost where
  /-- VMPTRLD fails. -/
  loadFails : Bool := false
  currentCpuId : Nat := 0
  inveptFault : Option InveptError := none
  cr3 : Option UInt64 := some 0
  fsBase : UInt64 := 0
  gsBase : UInt64 := 0
  trBase : UInt64 := 0
  gdtrBase : UInt64 := 0
  /-- Address of `vmx_ctx`. -/
  vmxCtx : UInt64 := 0
  /-- VMCLEAR fails. -/
  clearFails : Bool := false

/-- What the processor does with one VM entry: it refuses it, or it executes guest code,
which leaves its own values in the registers that are not intercepted, and exits.
The context at the exit can be any, since nothing below depends on it. -/
inductive Turn
  | refused (e : VmEntryError)
  | ran (exited : VmContext) (syscall : SyscallMsrs) (kernelGsBase : UInt64)
      (needResched : Bool)

/-! ## The code -/

/-- Read a field and write it back with `bits` set; failures are ignored. -/
def VmcsTable.setBits {F : Type} [DecidableEq F] (table : VmcsTable F) (field : F) (bits : UInt64) :
    VmcsTable F :=
  match table.read field with
  | .error _ => table
  | .ok v => (table.write field (v ||| bits)).2

namespace LinuxInstructionCounter

/-- `perf_global_ctrl_values` -/
def perfGlobalCtrlValues (counter : LinuxInstructionCounter) : Option (UInt64 × UInt64) :=
  if counter.armed then some (counter.guestPerfGlobalCtrl, counter.hostPerfGlobalCtrl) else none

def setPerfGlobalCtrl (counter : LinuxInstructionCounter) (current : UInt64) :
    LinuxInstructionCounter :=
  let host := current &&& ~~~PERF_GLOBAL_CTRL_PMC0
  { counter with
    hostPerfGlobalCtrl := host
    guestPerfGlobalCtrl := host ||| PERF_GLOBAL_CTRL_PMC0 }

def setSaved (counter : LinuxInstructionCounter) (saved : UInt64) : LinuxInstructionCounter :=
  { counter with savedPerfevtsel0 := saved }

def arm (counter : LinuxInstructionCounter) : LinuxInstructionCounter :=
  { counter with armed := counter.msrEntryPage.isSome, page_of_armed := id }

theorem armed_of_none (counter : LinuxInstructionCounter) (h : counter.msrEntryPage = none) :
    counter.armed = false := by
  by_contra harmed
  have hpage := counter.page_of_armed (by simpa using harmed)
  rw [h] at hpage
  cases hpage

def disarm (counter : LinuxInstructionCounter) : LinuxInstructionCounter :=
  { counter with armed := false, page_of_armed := nofun }

end LinuxInstructionCounter

namespace Host

def setMsrs (st : Host) (msrs : MsrFile) : Host :=
  { st with msrs }

def setCtx (st : Host) (ctx : VmContext) : Host :=
  { st with vm := { st.vm with ctx } }

def setCounter (st : Host) (counter : LinuxInstructionCounter) : Host :=
  { st with vm := { st.vm with counter } }

def setHostFields (st : Host) (hostFields : VmcsTable HostVmcsField) : Host :=
  { st with vm := { st.vm with hostFields } }

def onCtx {α : Type} (m : VmContext → Except ExitError α × VmContext) :
    Program VmRunError Host α :=
  fun st =>
    match m st.vm.ctx with
    | (.error e, ctx) => (.error (.exitHandler e), st.setCtx ctx)
    | (.ok a, ctx) => (.ok a, st.setCtx ctx)

/-- `vmcs.load()` -/
def loadVmcs (env : RunHost) : Program VmRunError Host Unit :=
  if env.loadFails then .exit .vmcsLoad else pure ()

/-- The cached EPT translations are invalidated when the VM comes from another CPU. -/
def invalidateEpt (env : RunHost) : Program VmRunError Host Unit := do
  let lastCpu ← .read (·.vm.lastCpu)
  if lastCpu = some env.currentCpuId then pure ()
  else
    match env.inveptFault with
    | some e => .exit (.inveptFailed e)
    | none => .update fun st => { st with vm := { st.vm with lastCpu := some env.currentCpuId } }

/-- `run` between loading the guest's SYSCALL registers and the loop. -/
def startRun (env : RunHost) : Program VmRunError Host Unit := do
  loadVmcs env
  invalidateEpt env
  onCtx VmContext.startRun

/-- A VMWRITE whose failure ends `run_loop`. -/
def writeHostField (field : HostVmcsField) (v : UInt64) (err : VmcsWriteError → VmRunError) :
    Program VmRunError Host Unit :=
  fun st =>
    match st.vm.hostFields.write field v with
    | (.error e, _) => (.error (err e), st)
    | (.ok (), hostFields) => (.ok (), st.setHostFields hostFields)

def readCr3 (env : RunHost) : Program VmRunError Host UInt64 :=
  match env.cr3 with
  | none => .exit .readHostCr3
  | some cr3 => pure cr3

def writeHostState (env : RunHost) : Program VmRunError Host Unit := do
  let cr3 ← readCr3 env
  writeHostField .hostCr3 cr3 .writeHostCr3
  writeHostField .hostFsBase env.fsBase .writeHostFsBase
  writeHostField .hostGsBase env.gsBase .writeHostGsBase
  writeHostField .hostTrBase env.trBase .writeHostTrBase
  writeHostField .hostGdtrBase env.gdtrBase .writeHostGdtrBase
  writeHostField .hostRsp env.vmxCtx .writeHostRsp

/-- `rdmsr` of the counter. -/
def rdmsr (msr : Msr) : Program InstructionCounterError Host UInt64 :=
  fun st =>
    match st.msrs.readMsr msr with
    | .error _ => (.error .unavailable, st)
    | .ok v => (.ok v, st)

/-- `wrmsr` of the counter. -/
def wrmsr (msr : Msr) (v : UInt64) : Program InstructionCounterError Host Unit :=
  fun st =>
    match st.msrs.writeMsr msr v with
    | (.error _, _) => (.error .programFailed, st)
    | (.ok (), msrs) => (.ok (), st.setMsrs msrs)

def modifyCounter (f : LinuxInstructionCounter → LinuxInstructionCounter) :
    Program InstructionCounterError Host Unit :=
  .update fun st => st.setCounter (f st.vm.counter)

theorem modifyCounter_apply (f : LinuxInstructionCounter → LinuxInstructionCounter) (st : Host) :
    modifyCounter f st = (.ok (), st.setCounter (f st.vm.counter)) := rfl

def prepare : Program InstructionCounterError Host Unit := do
  let counter ← .read (·.vm.counter)
  if counter.msrEntryPage.isNone then pure ()
  else
    let currentGlobal ← rdmsr .perfGlobalCtrl
    modifyCounter (·.setPerfGlobalCtrl currentGlobal)
    let saved ← rdmsr .perfevtsel0
    modifyCounter (·.setSaved saved)
    wrmsr .perfevtsel0 PERFEVTSEL0_INST_RETIRED_ANY_P
    modifyCounter (·.arm)

/-- A failed write is reported as `RestoreFailed` and leaves the counter armed. -/
def finish : Program InstructionCounterError Host Unit := do
  let counter ← .read (·.vm.counter)
  if !counter.armed then pure ()
  else
    (wrmsr .perfevtsel0 counter.savedPerfevtsel0).mapExit fun _ => .restoreFailed
    modifyCounter (·.disarm)

/-- Have the processor switch `IA32_PERF_GLOBAL_CTRL`; failures are ignored. -/
def configurePerf (st : Host) : Host :=
  match st.vm.counter.perfGlobalCtrlValues with
  | none => st
  | some (guestVal, hostVal) =>
    let guestVal :=
      if st.vm.ctx.state.precise.pebsState.isSome then guestVal ||| PERF_GLOBAL_CTRL_FIXED_CTR0
      else guestVal
    let hostFields := (st.vm.hostFields.write .hostIa32PerfGlobalCtrl hostVal).2
    let hostFields := hostFields.setBits .vmEntryControls loadPerfOnEntry
    let hostFields := hostFields.setBits .primaryVmExitControls loadPerfOnExit
    (st.setCtx (st.vm.ctx.writeControl .guestIa32PerfGlobalCtrl guestVal).2).setHostFields
      hostFields

/-- `run_loop` before its loop. -/
def enterLoop (env : RunHost) : Program VmRunError Host Unit := do
  writeHostState env
  prepare.mapExit .instructionCounter
  .update configurePerf

def pebsArmed (st : Host) : Bool :=
  st.vm.ctx.state.precise.pebsState.any (·.armedAction.isSome)

/-- `IA32_PERF_GLOBAL_CTRL` after an exit, if it is `current` before the entry. -/
def switchedPerf (st : Host) (current : UInt64) : UInt64 :=
  if st.vm.hostFields.value .primaryVmExitControls &&& loadPerfOnExit ≠ 0 then
    st.vm.hostFields.value .hostIa32PerfGlobalCtrl
  else if st.vm.hostFields.value .vmEntryControls &&& loadPerfOnEntry ≠ 0 ∨
      st.pebsArmed then
    st.vm.ctx.state.vmcs.controls.value .guestIa32PerfGlobalCtrl
  else current

/-- VM entry, guest code and VM exit.  The guest writes its registers with WRMSR, so what
faults for the host faults for the guest. -/
def enterGuest (st : Host) : Turn → Host
  | .refused _ => st
  | .ran exited syscall kernelGsBase _ =>
    let msrs := (syscall.load st.msrs).put .kernelGsBase kernelGsBase
    let perf := st.switchedPerf (msrs.value .perfGlobalCtrl)
    (st.setMsrs (msrs.setValue .perfGlobalCtrl perf)).setCtx exited

/-- Save the guest's `IA32_KERNEL_GS_BASE` and restore the host's. -/
def saveKernelGsBase (hostKernelGsBase : UInt64) (st : Host) : Host :=
  let guest := { st.vm.ctx.state.guest with kernelGsBase := st.msrs.readOrZero .kernelGsBase }
  (st.setCtx (st.vm.ctx.setGuest guest)).setMsrs (st.msrs.put .kernelGsBase hostKernelGsBase)

/-- Handle the exit; `none` continues the loop, and `some` breaks out of it. -/
def handle (needResched : Bool) : Program VmRunError Host (Option (Except VmRunError ExitReason)) :=
  .act fun st =>
    match st.vm.ctx.leave with
    | (.continue_, ctx) =>
      (if needResched then some (.ok .needResched) else none, st.setCtx ctx)
    | (.exitToUserspace reason, ctx) => (some (.ok reason), st.setCtx ctx)
    | (.error e, ctx) => (some (.error (.exitHandler e)), st.setCtx ctx)

/-- One iteration of the loop.  Its early returns leave `run_loop` without `finish`. -/
def iterate (hostKernelGsBase : UInt64) (turn : Turn) :
    Program VmRunError Host (Option (Except VmRunError ExitReason)) := do
  let _ ← onCtx (·.enter .loop)
  .update fun st =>
    st.setMsrs (st.msrs.put .kernelGsBase st.vm.ctx.state.guest.kernelGsBase)
  .update (enterGuest · turn)
  .update (saveKernelGsBase hostKernelGsBase)
  match turn with
  | .refused e => .exit (.vmEntry e)
  | .ran _ _ _ needResched => handle needResched

/-- The loop, one turn per iteration: how it breaks, or the error it returns with;
`none` if it is still running. -/
def loop (hostKernelGsBase : UInt64) :
    List Turn → Host → Option (Except VmRunError (Except VmRunError ExitReason) × Host)
  | [], _ => none
  | turn :: turns, st =>
    match iterate hostKernelGsBase turn st with
    | (.error e, st) => some (.error e, st)
    | (.ok (some result), st) => some (.ok result, st)
    | (.ok none, st) => loop hostKernelGsBase turns st

def iterations (hostKernelGsBase : UInt64) : List Turn → Host → List (Host × Turn)
  | [], _ => []
  | turn :: turns, st =>
    (st, turn) ::
      match iterate hostKernelGsBase turn st with
      | (.ok none, st) => iterations hostKernelGsBase turns st
      | _ => []

/-- `run_loop` after its loop; an error of the counter comes first. -/
def leaveLoop (result : Except VmRunError ExitReason) (st : Host) :
    Except VmRunError ExitReason × Host :=
  match finish st with
  | (.error e, st) => (.error (.instructionCounter e), st)
  | (.ok (), st) => (result, st)

def runLoop (env : RunHost) (turns : List Turn) (hostKernelGsBase : UInt64) (st : Host) :
    Option (Except VmRunError ExitReason × Host) :=
  match enterLoop env st with
  | (.error e, st) => some (.error e, st)
  | (.ok (), st) =>
    match loop hostKernelGsBase turns st with
    | none => none
    | some (.error e, st) => some (.error e, st)
    | some (.ok result, st) => some (leaveLoop result st)

/-- `run` after its loop. -/
def endRun (env : RunHost) (hostKernelGsBase : UInt64) (result : Except VmRunError ExitReason)
    (st : Host) : Except VmRunError ExitReason × Host :=
  let st := { st with vm := { st.vm with syscall := .capture st.msrs } }
  let msrs := (st.vm.hostSyscall.load st.msrs).put .kernelGsBase hostKernelGsBase
  (if env.clearFails then .error .vmcsClear else result, st.setMsrs msrs)

def loadGuest (st : Host) : Host :=
  st.setMsrs (st.vm.syscall.load st.msrs)

end Host

/-- One call of `run`: the host's part and the turns of the loop. -/
structure RunCall where
  env : RunHost := {}
  turns : List Turn := []

namespace RunCall

/-- `run`; `none` if it has not returned after these turns. -/
def run (call : RunCall) (st : Host) : Option (Except VmRunError ExitReason × Host) :=
  let hostKernelGsBase := st.msrs.readOrZero .kernelGsBase
  match Host.startRun call.env st.loadGuest with
  | (.error e, st) => some (.error e, st)
  | (.ok (), st) =>
    match st.runLoop call.env call.turns hostKernelGsBase with
    | none => none
    | some (result, st) => some (st.endRun call.env hostKernelGsBase result)

def iterations (call : RunCall) (st : Host) : List (Host × Turn) :=
  match (do Host.startRun call.env; Host.enterLoop call.env) st.loadGuest with
  | (.error _, _) => []
  | (.ok (), entered) =>
    Host.iterations (st.msrs.readOrZero .kernelGsBase) call.turns entered

end RunCall

end Bedrock
