import Bedrock.History

/-!
# The two places of the stack pointer

The guest's stack pointer lives in the VMCS.  The saved registers have a field for it
too, which GET_REGS reports, exit records store and handlers read and write as register
4, but which neither the entry nor the exit synchronises.  It is right only as long
as the guest does not move its stack pointer and no handler writes register 4.
-/

namespace Bedrock

open List Part Framed

open Support Bedrock.Part Program VmcsTable VmContext

namespace VmContext

def guestRsp (ctx : VmContext) : UInt64 :=
  ctx.state.vmcs.fields.value .guestRsp

/-- The copy among the saved registers agrees with it. -/
def Mirrored (ctx : VmContext) : Prop :=
  ctx.state.guest.gprs.rsp = ctx.guestRsp

/-- Whoever asks for the stack pointer is told the guest's: GET_REGS, an exit record, and a
handler that reads register 4. -/
structure ReportsRsp (ctx : VmContext) : Prop where
  regs : ∀ host regs, ctx.handleGetRegs host = .ok regs → regs.gprs.rsp = ctx.guestRsp
  record : ∀ reason qual flags,
    ((ctx.exitRecord reason qual flags).drop 56).take 8 = leBytes 8 ctx.guestRsp.toNat
  register : getGprValue ctx.state.guest.gprs 4 = ctx.guestRsp

theorem exitRecord_rsp (ctx : VmContext) (reason : ExitReason) (qual : UInt64) (flags : UInt32) :
    ((ctx.exitRecord reason qual flags).drop 56).take 8 =
      leBytes 8 ctx.state.guest.gprs.rsp.toNat := by
  obtain ⟨rest, hrest⟩ : ∃ rest, ctx.exitRecord reason qual flags =
      (leBytes 8 ctx.state.clock.emulatedTsc ++ leBytes 4 reason.code ++ leBytes 4 flags.toNat ++
        leBytes 8 qual.toNat ++ leBytes 8 ctx.state.guest.gprs.rax.toNat ++
        leBytes 8 ctx.state.guest.gprs.rcx.toNat ++ leBytes 8 ctx.state.guest.gprs.rdx.toNat ++
        leBytes 8 ctx.state.guest.gprs.rbx.toNat) ++
      (leBytes 8 ctx.state.guest.gprs.rsp.toNat ++ rest) := by
    unfold exitRecord
    simp only [flatMap_cons, append_assoc]
    exact ⟨_, rfl⟩
  rw [hrest, drop_left' (by simp only [length_append, leBytes_length]),
    take_left' (leBytes_length _ _)]

theorem Mirrored.reportsRsp {ctx : VmContext} (h : ctx.Mirrored) : ctx.ReportsRsp where
  regs host regs hregs := by
    unfold handleGetRegs at hregs
    split at hregs
    · cases hregs
    split at hregs
    · cases hregs
    rename_i heq
    split at hregs
    · cases hregs
    cases hregs
    rw [VmState.getRegisters_eq_ok heq]
    exact h
  record reason qual flags := by rw [exitRecord_rsp, h]
  register := h

theorem Mirrored.of_get {before after : VmContext} (h : before.Mirrored)
    (hsame : stackPointer.get after = stackPointer.get before) : after.Mirrored := by
  obtain ⟨hcopy, hfield⟩ := Prod.ext_iff.mp hsame
  exact Eq.trans hcopy (Eq.trans h hfield.symm)

def instruction (ctx : VmContext) : Option DecodedInstruction :=
  match (translateGvaToGpa (ctx.state.vmcs.fields.value .guestRip) ctx).1 with
  | .error _ => none
  | .ok gpa =>
    match ctx.memory.readGuestMemory gpa 15 with
    | (bytes, .ok ()) => (decodeInstruction bytes).toOption
    | (_, .error _) => none

/-- The register the handler of the exit writes on behalf of the guest's instruction: MOV
from a control register, RDRAND, RDSEED, and a read of an interrupt controller. -/
def destRegister (ctx : VmContext) : Option Nat :=
  match ctx.exitInfo with
  | .ok (.crAccess, qual) =>
    let qual := CrAccessQualification.ofRaw qual
    if qual.accessType = .movFromCr then some qual.register.toNat else none
  | .ok (.rdrand, _) | .ok (.rdseed, _) =>
    some (RdrandInstructionInfo.ofRaw
      (ctx.state.vmcs.fields.value .vmExitInstructionInfo)).destReg.toNat
  | .ok (.eptViolation, qual) =>
    let qual := EptViolationQualification.ofRaw qual
    let gpa := (ctx.state.vmcs.fields.readOrZero .guestPhysicalAddr).toNat
    if qual.read = true ∧ isPebsInduced qual = false ∧ (isApicGpa gpa || isIoApicGpa gpa) = true then
      ctx.instruction.map (·.register)
    else none
  | _ => none

end VmContext

/-! ## Handlers that write another register -/

section Handlers

/-- No device holds the stack pointer. -/
instance (f : DeviceStates → DeviceStates) : stackPointer.LeavesDevices f where
  random h := absurd h (by decide)
  irr h := absurd h (by decide)

theorem setGprValue_leaves {register : Nat} (h : register ≠ 4) (v : UInt64) :
    stackPointer.LeavesGprs fun gprs => setGprValue gprs register v :=
  ⟨fun _ gprs => setGprValue_rsp_of_ne gprs v h⟩

theorem writeGprByIndex_leaves {register : Nat} (h : register ≠ 4) (v : UInt64)
    (size : RdrandOperandSize) :
    stackPointer.LeavesGprs fun gprs => writeGprByIndex gprs register v size := by
  refine ⟨fun _ gprs => ?_⟩
  cases size <;> exact setGprValue_rsp_of_ne gprs _ h

theorem handleCrAccess_framed {qual : CrAccessQualification}
    (h : qual.accessType = .movFromCr → qual.register.toNat ≠ 4) :
    Built (Framed .stackPointer GuestAction) (handleCrAccess qual) := by
  unfold handleCrAccess
  refine .bind inferInstance fun g => .bind inferInstance fun machine => ?_
  cases haccess : qual.accessType with
  | movFromCr =>
    have := setGprValue_leaves (h haccess)
    infer_instance
  | _ => infer_instance

variable {ctx : VmContext}

theorem readOnly_bind {ε α β : Type} {R : VmContext → VmContext → Prop} {m : Program ε VmContext α}
    {k : α → Program ε VmContext β} (hm : Built ReadAction m) (hrefl : R ctx ctx)
    (hk : ∀ a, (m ctx).1 = .ok a → R ctx (k a ctx).2) : R ctx ((m >>= k) ctx).2 := by
  have hsame := readOnly_state hm ctx
  rcases hrun : m ctx with ⟨e | a, c⟩
  · rw [hrun] at hsame
    rw [bind_error hrun]
    exact hsame ▸ hrefl
  · rw [hrun] at hsame
    rw [bind_ok hrun, show c = ctx from hsame]
    exact hk a (by rw [hrun])

/-- The stack pointer is left alone in both places. -/
abbrev KeepsRsp (before after : VmContext) : Prop :=
  stackPointer.get after = stackPointer.get before

theorem handleRandom_keepsRsp (source : RandomSource) (h : (RdrandInstructionInfo.ofRaw
      (ctx.state.vmcs.fields.value .vmExitInstructionInfo)).destReg.toNat ≠ 4) :
    KeepsRsp ctx (handleRandom source ctx).2 := by
  unfold handleRandom
  refine readOnly_bind (R := KeepsRsp) (by unfold orError; infer_instance) rfl fun raw hraw => ?_
  have hvalue : ctx.state.vmcs.fields.value .vmExitInstructionInfo = raw := by
    cases hread : ctx.state.vmcs.fields.read .vmExitInstructionInfo with
    | error e => simp [orError, readVmcs, Program.mapExit, bind_apply, hread, check] at hraw
    | ok v =>
      have hv : v = raw := by
        simpa [orError, readVmcs, Program.mapExit, bind_apply, hread, check] using hraw
      exact (value_of_read hread).trans hv
  subst hvalue
  have hleaves := writeGprByIndex_leaves h
  refine get (A := GuestAction) (.bind inferInstance fun g => ?_) ctx
  dsimp only
  cases g.devices.random.generate.1 <;> infer_instance

variable (failures : MmioFailures)

theorem fetchInstruction_readOnly (rip : UInt64) :
    Built ReadAction (fetchInstruction failures rip) := by
  unfold fetchInstruction
  refine .bind inferInstance fun gpa => .bind inferInstance fun read => ?_
  obtain ⟨bytes, r⟩ := read
  infer_instance

theorem fetchInstruction_eq_ok {failures : MmioFailures} {decoded : DecodedInstruction}
    (h : (fetchInstruction failures (ctx.state.vmcs.fields.value .guestRip) ctx).1 = .ok decoded) :
    ctx.instruction = some decoded := by
  have hsame := readOnly_state (translateGvaToGpa_built (ctx.state.vmcs.fields.value .guestRip)) ctx
  unfold fetchInstruction at h
  unfold VmContext.instruction
  rcases hrun : translateGvaToGpa (ctx.state.vmcs.fields.value .guestRip) ctx with ⟨e | gpa, c⟩
  · simp [bind_apply, Program.mapExit, hrun] at h
  rw [hrun] at hsame
  have hctx : c = ctx := hsame
  subst hctx
  have hmapped : (translateGvaToGpa (c.state.vmcs.fields.value .guestRip)).mapExit
      (fun _ => failures.translate) c = (.ok gpa, c) :=
    mapExit_eq_ok_iff.mpr hrun
  rw [bind_ok hmapped] at h
  unfold readGuestMemory at h
  rw [act_bind] at h
  rcases hread : c.memory.readGuestMemory gpa 15 with ⟨bytes, e | u⟩
  · simp [hread, check, bind_apply] at h
  cases hdecode : decodeInstruction bytes with
  | error e => simp [hread, check, bind_apply, hdecode] at h
  | ok instruction =>
    have hdecoded : instruction = decoded := by
      simpa [hread, check, bind_apply, hdecode] using h
    simp [hread, hdecode, hdecoded, Except.toOption]

theorem handleMmio_keepsRsp {qual : EptViolationQualification}
    (load : DeviceStates → UInt32) (store : Clock → DeviceStates → UInt32 → DeviceStates)
    (h : qual.read → ctx.instruction.map (·.register) ≠ some 4) :
    KeepsRsp ctx (handleMmio failures qual load store ctx).2 := by
  unfold handleMmio
  refine readOnly_bind (R := KeepsRsp) (by unfold orError readField; infer_instance) rfl
    fun rip hrip => ?_
  have hvalue : ctx.state.vmcs.fields.value .guestRip = rip := by
    cases hread : ctx.state.vmcs.fields.read .guestRip with
    | error e => simp [orError, Program.mapExit, readField_apply, hread, Except.mapError] at hrip
    | ok v =>
      have hv : v = rip := by
        simpa [orError, Program.mapExit, readField_apply, hread, Except.mapError] using hrip
      exact (value_of_read hread).trans hv
  subst hvalue
  refine readOnly_bind (R := KeepsRsp) (fetchInstruction_readOnly _ _) rfl fun decoded hdecoded => ?_
  rw [fetchInstruction_eq_ok hdecoded] at h
  refine get (A := GuestAction) (.bind inferInstance fun g => .bind inferInstance
    fun clock => ?_) ctx
  by_cases hread : qual.read
  · have hleaves := setGprValue_leaves fun hfour => h hread (congrArg some hfour)
    rw [if_pos hread]
    infer_instance
  · rw [if_neg hread]
    infer_instance

theorem handleEptViolation_keepsRsp {qual : EptViolationQualification}
    (h : qual.read → isPebsInduced qual = false →
      (isApicGpa (ctx.state.vmcs.fields.readOrZero .guestPhysicalAddr).toNat ||
        isIoApicGpa (ctx.state.vmcs.fields.readOrZero .guestPhysicalAddr).toNat) →
      ctx.instruction.map (·.register) ≠ some 4) :
    KeepsRsp ctx (handleEptViolation qual ctx).2 := by
  have heq : handleEptViolation qual ctx = (if isPebsInduced qual then handlePebsPreciseExit
      else
        let gpa := (ctx.state.vmcs.fields.readOrZero .guestPhysicalAddr).toNat
        if isApicGpa gpa then handleApicAccess gpa qual
        else if isIoApicGpa gpa then handleIoapicAccess gpa qual
        else if qual.write ∧ qual.writable = false then handleCowViolation gpa
        else pure (.exitToUserspace .eptViolation) : Handler _) ctx := by
    unfold handleEptViolation
    split
    · rfl
    · rw [bind_ok (readFieldOrZero_apply _ _)]
  rw [heq]
  generalize (ctx.state.vmcs.fields.readOrZero .guestPhysicalAddr).toNat = gpa at h
  split
  · exact stackPointer.get_of_untouched ctx.handlePebsPreciseExit_untouched
  rename_i hpebs
  rw [Bool.not_eq_true] at hpebs
  dsimp only
  split
  · rename_i hapic
    unfold handleApicAccess
    exact handleMmio_keepsRsp _ _ _ fun hread => h hread hpebs (by rw [hapic, Bool.true_or])
  split
  · rename_i hioapic
    unfold handleIoapicAccess
    exact handleMmio_keepsRsp _ _ _ fun hread => h hread hpebs (by rw [hioapic, Bool.or_true])
  · exact get (A := HandlerAction) inferInstance ctx

end Handlers

theorem VmContext.beginExit_instruction (ctx : VmContext) (deterministic : Bool) :
    (ctx.beginExit deterministic).instruction = ctx.instruction := by
  have hsame := (translateGvaToGpa_built (ctx.state.vmcs.fields.value .guestRip)).respects
    (R := fun c d : VmContext => c.state.vmcs.fields = d.state.vmcs.fields ∧ c.memory = d.memory)
    (fun f hf c d hcd => by
      cases hf with
      | readVmcs field => exact ⟨congrArg (fun fields => fields.read field) hcd.1, hcd⟩
      | readMemory gpa len => exact ⟨congrArg (fun mem => mem.readGuestMemory gpa len) hcd.2, hcd⟩)
    (ctx.beginExit deterministic) ctx ⟨rfl, rfl⟩
  have hfields : (ctx.beginExit deterministic).state.vmcs.fields = ctx.state.vmcs.fields := rfl
  have hmemory : (ctx.beginExit deterministic).memory = ctx.memory := rfl
  rw [instruction, hfields, hmemory, hsame.1, instruction]

theorem VmContext.leave_keepsRsp {ctx : VmContext} (h : ctx.destRegister ≠ some 4) :
    KeepsRsp ctx ctx.leave.2 := by
  have hframes := stackPointer.frames
  cases hinfo : ctx.exitInfo with
  | error e => exact hframes.leave_of_error hinfo
  | ok info =>
    obtain ⟨reason, qual⟩ := info
    unfold destRegister at h
    rw [hinfo] at h
    refine hframes.leave_of_handled hinfo ?_
    rintro begun rfl
    by_cases htouched : stackPointer.touchedBy reason
    · rcases htouched with rfl | rfl | rfl | rfl
      · refine (congrArg stackPointer.get (call_state _ _)).trans
          (get (handleCrAccess_framed fun haccess hfour => h ?_) _)
        dsimp only
        rw [if_pos haccess, hfour]
      · refine (congrArg stackPointer.get (call_state _ _)).trans
          (handleEptViolation_keepsRsp fun hread hpebs hgpa hfour => h ?_)
        rw [beginExit_instruction] at hfour
        dsimp only
        rw [if_pos ⟨hread, hpebs, hgpa⟩, hfour]
      · exact (congrArg stackPointer.get (call_state _ _)).trans
          (handleRandom_keepsRsp .rdrand fun hfour => h (congrArg some hfour))
      · exact (congrArg stackPointer.get (call_state _ _)).trans
          (handleRandom_keepsRsp .rdseed fun hfour => h (congrArg some hfour))
    · exact get_dispatch htouched qual _

/-! ## Steps -/

theorem VmContext.handleSetRegs_mirrored {ctx : VmContext} (regs : GuestRegisters) (host : RegsHost)
    (hwrite : ctx.state.vmcs.fields.writeFault .guestRsp = none) (h : ctx.Mirrored) :
    (ctx.handleSetRegs regs host).2.Mirrored := by
  have hset : (ctx.setRegisters regs).2.Mirrored := by
    have hrest : VmcsField.guestRsp ∉ ((registerWrites ctx.machine regs).tail ++
        resetWrites).map Prod.fst := by
      simp [registerWrites, resetWrites, Segment.inWriteOrder, VmcsField.guestBase]
    have hfirst : ctx.state.vmcs.fields.write .guestRsp regs.gprs.rsp =
        (.ok (), ctx.state.vmcs.fields.setValue .guestRsp regs.gprs.rsp) := by
      rw [VmcsTable.write, hwrite]
    have hlater := (ctx.state.vmcs.fields.setValue .guestRsp regs.gprs.rsp).writeAll_value_of_notMem
      hrest
    have hall : (ctx.setRegisters regs).2.guestRsp = regs.gprs.rsp := by
      have hwrites : (ctx.setRegisters regs).2.guestRsp = (ctx.state.vmcs.fields.writeAll
          ((.guestRsp, regs.gprs.rsp) :: ((registerWrites ctx.machine regs).tail ++
            resetWrites))).2.value .guestRsp := rfl
      rw [hwrites, VmcsTable.writeAll, hfirst]
      dsimp only
      rw [hlater, setValue_value_self]
    exact hall.symm
  unfold handleSetRegs
  split
  · exact h
  split
  · exact h
  split
  all_goals
    rename_i heq
    rwa [heq] at hset

/-- In the step the guest does not move its stack pointer, no handler writes register 4,
and the VMCS does not refuse the stack pointer of SET_REGS. -/
def VmStep.LeavesRsp (t : VmStep) : Prop :=
  match t.label with
  | .iterate it => it.exited.guestRsp = it.entered.guestRsp ∧ it.exited.destRegister ≠ some 4
  | .ioctl (.setRegs _ _) => t.pre.state.vmcs.fields.writeFault .guestRsp = none
  | _ => True

/-- When the guest is left, and when its exit has been handled, the stack pointer reported
is the guest's, and register 4 is what the guest is entered with next. -/
def VmStep.ReportsRsp (t : VmStep) : Prop :=
  match t.label with
  | .iterate it => it.exited.ReportsRsp ∧ it.done.ReportsRsp ∧
      ∀ how, (it.done.enter how).2.guestRsp = getGprValue it.done.state.guest.gprs 4
  | _ => True

theorem VmContext.enter_keepsRsp (ctx : VmContext) (how : Resume) :
    KeepsRsp ctx (ctx.enter how).2 :=
  stackPointer.get_enter ctx how

theorem Iteration.Valid.mirrored {it : Iteration} (h : it.Valid)
    (hguest : it.exited.guestRsp = it.entered.guestRsp) (hdest : it.exited.destRegister ≠ some 4)
    (hstart : it.start.Mirrored) : it.exited.Mirrored ∧ it.done.Mirrored := by
  have henter := it.start.enter_keepsRsp it.how
  rw [h.enter] at henter
  have hentered := hstart.of_get henter
  have hexited : it.exited.Mirrored := by
    rw [Mirrored, h.ran.rsp, hguest]
    exact hentered
  have hleave := leave_keepsRsp hdest
  rw [h.leave] at hleave
  exact ⟨hexited, hexited.of_get hleave⟩

theorem VmStep.Valid.mirrored {t : VmStep} (h : t.Valid) (hleaves : t.LeavesRsp)
    (hpre : t.pre.Mirrored) : t.post.Mirrored := by
  cases h with
  | iterate hit => exact (hit.mirrored hleaves.1 hleaves.2 hpre).2
  | abort ctx how point => exact hpre.of_get (stackPointer.get_abort ctx how point)
  | ioctl ctx call =>
    cases call with
    | setRegs regs host => exact handleSetRegs_mirrored regs host hleaves hpre
    | _ => exact hpre.of_get (get_ioctl id ctx)
  | store hstores => exact hpre
  | fork hfork => exact hpre.of_get (get_fork hfork (by decide))

/-- In every history that starts with both places in agreement and whose steps leave the
stack pointer alone, it is reported as it is, at every exit. -/
theorem rsp_reported {ctx ctx' : VmContext} {ts : List VmStep} (hhistory : History ctx ts ctx')
    (hstart : ctx.Mirrored) (hleaves : ∀ t ∈ ts, t.LeavesRsp) : ∀ t ∈ ts, t.ReportsRsp := by
  intro t ht
  obtain ⟨hall, -⟩ := hhistory.walk.invariant
    (fun u hu => (hhistory.valid u hu).mirrored (hleaves u hu)) hstart
  obtain ⟨hpre, -⟩ := hall t ht
  have hsafe := hleaves t ht
  have hvalid := hhistory.valid t ht
  clear hall ht
  cases hvalid with
  | @iterate it hit =>
    obtain ⟨hexited, hdone⟩ := hit.mirrored hsafe.1 hsafe.2 hpre
    refine ⟨hexited.reportsRsp, hdone.reportsRsp, fun how => ?_⟩
    have henter := it.done.enter_keepsRsp how
    exact Eq.trans (Prod.ext_iff.mp henter).2 hdone.symm
  | _ => trivial

/-- A CPUID instruction of a guest whose stack pointer is `rsp`. -/
def cpuidAt (rsp : UInt64) : VmStep :=
  .simulate .ioctl newVm fun ctx => ctx.exitAfter 1 fun
    | .vmExitReason => 10
    | .guestRsp => rsp
    | _ => 0

theorem cpuidAt_history (rsp : UInt64) : History newVm [cpuidAt rsp] (cpuidAt rsp).post := by
  refine ⟨⟨rfl, rfl⟩, forall_mem_singleton.mpr ?_⟩
  exact VmStep.simulate_valid newVm_enter (ran_exitAfter _ _ _)

/-- A guest that has not moved its stack pointer. -/
theorem rsp_reported_cpuid : (cpuidAt 0).ReportsRsp := by
  refine rsp_reported (cpuidAt_history 0) rfl ?_ _ List.mem_cons_self
  rw [List.forall_mem_singleton]
  exact ⟨by decide +kernel, by decide +kernel⟩

/-- `MOV RSP, CR3` of a guest whose stack pointer is zero and whose CR3 is 0x5000. -/
def movRspCr3 : VmStep :=
  .simulate .ioctl newVm fun ctx => ctx.exitAfter 1 fun
    | .vmExitReason => 28
    | .exitQualification => 0x413
    | .guestCr3 => 0x5000
    | _ => 0

/-- A guest with its stack at 0x8000 executes CPUID: register 4 and GET_REGS say zero.  And
the handler of `MOV RSP, CR3` puts 0x5000 in register 4, but the guest is entered with
its old stack pointer. -/
theorem exists_rsp_misreported :
    (newVm.Mirrored ∧ History newVm [cpuidAt 0x8000] (cpuidAt 0x8000).post ∧
      ∃ it, (cpuidAt 0x8000).label = .iterate it ∧ it.exited.guestRsp = 0x8000 ∧
        getGprValue it.exited.state.guest.gprs 4 = 0 ∧
        (it.done.handleGetRegs {}).toOption.map (·.gprs.rsp) = some 0) ∧
    (History newVm [movRspCr3] movRspCr3.post ∧
      getGprValue movRspCr3.post.state.guest.gprs 4 = 0x5000 ∧
      (movRspCr3.post.enter .loop).2.guestRsp = 0) := by
  refine ⟨⟨rfl, cpuidAt_history 0x8000, _, rfl, by decide +kernel⟩, ⟨⟨rfl, rfl⟩, ?_⟩,
    by decide +kernel⟩
  exact List.forall_mem_singleton.mpr (VmStep.simulate_valid newVm_enter (ran_exitAfter _ _ _))

end Bedrock
