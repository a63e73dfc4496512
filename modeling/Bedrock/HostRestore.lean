import Bedrock.HostMsrs
import Bedrock.Support.Walk
import Bedrock.Vm

/-!
# What the host gets back from `run`

The registers `run` lends to the guest have to hold the host's values again when it
returns, whichever way it returns.  Each part of `run` is described by what it leaves
alone; the loop needs one invariant, and the end of `run` pays what is owed.
-/

namespace Bedrock

open Support Program VmcsTable MsrFile Host List Option Controls

/-- The fields that concern `IA32_PERF_GLOBAL_CTRL`. -/
def HostVmcsField.perf : HostVmcsField → Bool
  | .hostIa32PerfGlobalCtrl | .vmEntryControls | .primaryVmExitControls => true
  | _ => false

namespace Host

/-- The registers and what `run` needs to give them back are the same. -/
structure Apart (st st' : Host) : Prop where
  msrs : st'.msrs = st.msrs
  hostSyscall : st'.vm.hostSyscall = st.vm.hostSyscall
  counter : st'.vm.counter = st.vm.counter
  readFault : st'.vm.hostFields.readFault = st.vm.hostFields.readFault
  writeFault : st'.vm.hostFields.writeFault = st.vm.hostFields.writeFault
  perf : ∀ field, field.perf = true →
    st'.vm.hostFields.value field = st.vm.hostFields.value field

namespace Apart

variable {a b c : Host}

theorem refl (a : Host) : Apart a a :=
  ⟨rfl, rfl, rfl, rfl, rfl, fun _ _ => rfl⟩

theorem trans (hab : Apart a b) (hbc : Apart b c) : Apart a c where
  msrs := hbc.msrs.trans hab.msrs
  hostSyscall := hbc.hostSyscall.trans hab.hostSyscall
  counter := hbc.counter.trans hab.counter
  readFault := hbc.readFault.trans hab.readFault
  writeFault := hbc.writeFault.trans hab.writeFault
  perf field hfield := (hbc.perf field hfield).trans (hab.perf field hfield)

end Apart

variable {st : Host} {α : Type}

theorem onCtx_error {m : VmContext → Except ExitError α × VmContext}
    {e : ExitError} {ctx : VmContext} (h : m st.vm.ctx = (.error e, ctx)) :
    onCtx m st = (.error (.exitHandler e), st.setCtx ctx) := by
  unfold onCtx
  rw [h]

theorem onCtx_ok {m : VmContext → Except ExitError α × VmContext}
    {a : α} {ctx : VmContext} (h : m st.vm.ctx = (.ok a, ctx)) :
    onCtx m st = (.ok a, st.setCtx ctx) := by
  unfold onCtx
  rw [h]

theorem onCtx_apart (m : VmContext → Except ExitError α × VmContext) (st : Host) :
    Apart st (onCtx m st).2 := by
  unfold onCtx
  split <;> exact ⟨rfl, rfl, rfl, rfl, rfl, fun _ _ => rfl⟩

variable (env : RunHost)

theorem invalidateEpt_apart (st : Host) : Apart st (invalidateEpt env st).2 := by
  unfold invalidateEpt
  rw [read_bind]
  split
  · exact .refl st
  cases env.inveptFault with
  | some e => exact .refl st
  | none => exact ⟨rfl, rfl, rfl, rfl, rfl, fun _ _ => rfl⟩

theorem invalidateEpt_ok {env : RunHost}
    (h : st.vm.lastCpu ≠ some env.currentCpuId → env.inveptFault = none) :
    ∃ st', invalidateEpt env st = (.ok (), st') ∧ st'.vm.ctx = st.vm.ctx := by
  unfold invalidateEpt
  rw [read_bind]
  by_cases hcpu : st.vm.lastCpu = some env.currentCpuId
  · rw [if_pos hcpu]
    exact ⟨st, rfl, rfl⟩
  · rw [if_neg hcpu, h hcpu]
    exact ⟨_, rfl, rfl⟩

theorem startRun_apart (st : Host) : Apart st (startRun env st).2 := by
  have hload : ∀ st, Apart st (loadVmcs env st).2 := by
    intro st
    unfold loadVmcs
    split <;> exact .refl st
  exact bind_rel .trans hload (fun _ => bind_rel .trans (invalidateEpt_apart env)
    fun _ => onCtx_apart _) st

theorem writeHostField_apart {field : HostVmcsField} (hfield : field.perf = false) (v : UInt64)
    (err : VmcsWriteError → VmRunError) (st : Host) :
    Apart st (writeHostField field v err st).2 := by
  have hread := st.vm.hostFields.write_readFault field v
  have hwrite := st.vm.hostFields.write_writeFault field v
  have hvalue : ∀ other, other.perf →
      (st.vm.hostFields.write field v).2.value other = st.vm.hostFields.value other := by
    intro other hother
    apply write_value_of_ne
    rintro rfl
    rw [hfield] at hother
    cases hother
  unfold writeHostField
  split
  · exact .refl st
  rename_i hostFields heq
  rw [heq] at hread hwrite hvalue
  exact ⟨rfl, rfl, rfl, hread, hwrite, hvalue⟩

theorem writeHostState_apart (st : Host) : Apart st (writeHostState env st).2 := by
  have hcr3 : ∀ st, Apart st (readCr3 env st).2 := by
    intro st
    unfold readCr3
    cases env.cr3 <;> exact .refl st
  refine bind_rel .trans hcr3 (fun cr3 => ?_) st
  refine bind_rel .trans (writeHostField_apart rfl _ _) fun _ => ?_
  refine bind_rel .trans (writeHostField_apart rfl _ _) fun _ => ?_
  refine bind_rel .trans (writeHostField_apart rfl _ _) fun _ => ?_
  refine bind_rel .trans (writeHostField_apart rfl _ _) fun _ => ?_
  refine bind_rel .trans (writeHostField_apart rfl _ _) fun _ => ?_
  exact writeHostField_apart rfl _ _

/-! ## The counter -/

theorem rdmsr_cases (msr : Msr) (st : Host) :
    rdmsr msr st = (.error .unavailable, st) ∨ rdmsr msr st = (.ok (st.msrs.value msr), st) := by
  unfold rdmsr MsrFile.readMsr
  split
  · rename_i h
    split at h
    · exact Or.inl rfl
    · cases h
  · rename_i h
    split at h
    · cases h
    · cases h
      exact Or.inr rfl

theorem wrmsr_of_fault {msr : Msr} {v : UInt64} (h : st.msrs.writeFault msr v) :
    wrmsr msr v st = (.error .programFailed, st) := by
  unfold wrmsr MsrFile.writeMsr
  rw [if_pos h]

theorem wrmsr_of_accepted {msr : Msr} {v : UInt64} (h : st.msrs.writeFault msr v = false) :
    wrmsr msr v st = (.ok (), st.setMsrs (st.msrs.put msr v)) := by
  have hput : st.msrs.writeMsr msr v = (.ok (), st.msrs.put msr v) := by
    unfold put MsrFile.writeMsr
    rw [h]
    rfl
  unfold wrmsr
  rw [hput]

/-- The counter once `prepare` is through. -/
def prepared (st : Host) : LinuxInstructionCounter :=
  ((st.vm.counter.setPerfGlobalCtrl (st.msrs.value .perfGlobalCtrl)).setSaved
    (st.msrs.value .perfevtsel0)).arm

theorem prepare_cases (st : Host) :
    (st.vm.counter.msrEntryPage = none ∧ prepare st = (.ok (), st)) ∨
    (∃ e counter, prepare st = (.error e, st.setCounter counter)) ∨
    (st.vm.counter.msrEntryPage.isSome ∧
      prepare st = (.ok (), (st.setMsrs
        (st.msrs.put .perfevtsel0 PERFEVTSEL0_INST_RETIRED_ANY_P)).setCounter st.prepared)) := by
  unfold prepare
  rw [read_bind]
  split
  · rename_i hnone
    exact Or.inl ⟨isNone_iff_eq_none.mp hnone, rfl⟩
  rename_i hsome
  right
  rcases rdmsr_cases .perfGlobalCtrl st with hread | hread
  · rw [bind_error hread]
    exact Or.inl ⟨_, st.vm.counter, rfl⟩
  rw [bind_ok hread, bind_ok (modifyCounter_apply _ _)]
  generalize hst₁ : st.setCounter
    (st.vm.counter.setPerfGlobalCtrl (st.msrs.value .perfGlobalCtrl)) = st₁
  rcases rdmsr_cases .perfevtsel0 st₁ with hread | hread
  · rw [bind_error hread, ← hst₁]
    exact Or.inl ⟨_, _, rfl⟩
  rw [bind_ok hread, bind_ok (modifyCounter_apply _ _)]
  generalize hst₂ : st₁.setCounter (st₁.vm.counter.setSaved (st₁.msrs.value .perfevtsel0)) = st₂
  cases hfault : st₂.msrs.writeFault .perfevtsel0 PERFEVTSEL0_INST_RETIRED_ANY_P with
  | true =>
    rw [bind_error (wrmsr_of_fault hfault), ← hst₂, ← hst₁]
    exact Or.inl ⟨_, _, rfl⟩
  | false =>
    rw [bind_ok (wrmsr_of_accepted hfault), ← hst₂, ← hst₁]
    refine Or.inr ⟨?_, rfl⟩
    rwa [Bool.not_eq_true, isNone_eq_false_iff] at hsome

theorem finish_of_disarmed (h : st.vm.counter.armed = false) : finish st = (.ok (), st) := by
  unfold finish
  rw [read_bind, h]
  rfl

theorem finish_of_armed (h : st.vm.counter.armed)
    (haccepted : st.msrs.writeFault .perfevtsel0 st.vm.counter.savedPerfevtsel0 = false) :
    finish st = (.ok (), (st.setMsrs
      (st.msrs.put .perfevtsel0 st.vm.counter.savedPerfevtsel0)).setCounter
        st.vm.counter.disarm) := by
  unfold finish
  rw [read_bind, h]
  exact bind_ok (mapExit_eq_ok_iff.mpr (wrmsr_of_accepted haccepted))

end Host

/-! ## Into the loop -/

namespace VmcsTable

variable {F : Type} [DecidableEq F]

variable (table : VmcsTable F)

theorem setBits_readFault (field : F) (bits : UInt64) :
    (table.setBits field bits).readFault = table.readFault := by
  unfold setBits
  split
  · rfl
  · exact table.write_readFault _ _

theorem setBits_writeFault (field : F) (bits : UInt64) :
    (table.setBits field bits).writeFault = table.writeFault := by
  unfold setBits
  split
  · rfl
  · exact table.write_writeFault _ _

theorem setBits_value_of_ne {field other : F} (bits : UInt64)
    (h : other ≠ field) : (table.setBits field bits).value other = table.value other := by
  unfold setBits
  split
  · rfl
  · exact table.write_value_of_ne _ h

theorem setBits_value {table : VmcsTable F} {field : F} {bits : UInt64} (hbits : bits ≠ 0)
    (h : table.value field &&& bits ≠ 0 ∨
      table.readFault field = none ∧ table.writeFault field = none) :
    (table.setBits field bits).value field &&& bits ≠ 0 := by
  unfold setBits read write
  cases hread : table.readFault field with
  | some e => exact h.resolve_right fun h => by simp [hread] at h
  | none =>
    cases hwrite : table.writeFault field with
    | some e => exact h.resolve_right fun h => by simp [hwrite] at h
    | none =>
      dsimp only
      rw [setValue_value_self, or_and_cancel]
      exact hbits

end VmcsTable

namespace Host

theorem configurePerf_of_disarmed {st : Host} (h : st.vm.counter.armed = false) :
    st.configurePerf = st := by
  unfold configurePerf LinuxInstructionCounter.perfGlobalCtrlValues
  rw [h]
  rfl

theorem configurePerf_kept (st : Host) :
    st.configurePerf.msrs = st.msrs ∧ st.configurePerf.vm.counter = st.vm.counter ∧
      st.configurePerf.vm.hostSyscall = st.vm.hostSyscall := by
  unfold configurePerf
  split <;> exact ⟨rfl, rfl, rfl⟩

/-- An exit loads `IA32_PERF_GLOBAL_CTRL` with this value. -/
def LoadsOnExit (hostFields : VmcsTable HostVmcsField) (v : UInt64) : Prop :=
  hostFields.value .primaryVmExitControls &&& loadPerfOnExit ≠ 0 ∧
    hostFields.value .hostIa32PerfGlobalCtrl = v

theorem configurePerf_loadsOnExit {st : Host} (harmed : st.vm.counter.armed)
    (hfield : st.vm.hostFields.writeFault .hostIa32PerfGlobalCtrl = none)
    (hexit : st.vm.hostFields.value .primaryVmExitControls &&& loadPerfOnExit ≠ 0 ∨
      st.vm.hostFields.readFault .primaryVmExitControls = none ∧
        st.vm.hostFields.writeFault .primaryVmExitControls = none) :
    LoadsOnExit st.configurePerf.vm.hostFields st.vm.counter.hostPerfGlobalCtrl := by
  unfold configurePerf LinuxInstructionCounter.perfGlobalCtrlValues
  rw [harmed, if_pos rfl]
  dsimp only [setHostFields]
  constructor
  · apply setBits_value (by decide)
    rw [setBits_value_of_ne _ _ (by decide), setBits_readFault,
      setBits_writeFault, write_value_of_ne _ _ (by decide),
      write_readFault, write_writeFault]
    exact hexit
  · rw [setBits_value_of_ne _ _ (by decide), setBits_value_of_ne _ _ (by decide),
      write, hfield]
    exact setValue_value_self _ _ _

theorem enterLoop_cases (env : RunHost) (st : Host) :
    (∃ e st', enterLoop env st = (.error e, st') ∧ st'.msrs = st.msrs ∧
      st'.vm.hostSyscall = st.vm.hostSyscall) ∨
    ∃ st₁, Apart st st₁ ∧
      (st.vm.counter.msrEntryPage = none ∧ enterLoop env st = (.ok (), st₁) ∨
        st.vm.counter.msrEntryPage.isSome ∧
          enterLoop env st = (.ok (), configurePerf ((st₁.setMsrs
            (st₁.msrs.put .perfevtsel0 PERFEVTSEL0_INST_RETIRED_ANY_P)).setCounter
              st₁.prepared))) := by
  have hapart := writeHostState_apart env st
  unfold enterLoop
  rcases hwrite : writeHostState env st with ⟨e | u, st₁⟩
  · rw [hwrite] at hapart
    rw [bind_error hwrite]
    exact Or.inl ⟨e, st₁, rfl, hapart.msrs, hapart.hostSyscall⟩
  rw [hwrite] at hapart
  rw [bind_ok hwrite]
  rcases st₁.prepare_cases with ⟨hnone, hprep⟩ | ⟨e, counter, hprep⟩ | ⟨hsome, hprep⟩
  · rw [bind_ok (mapExit_eq_ok_iff.mpr hprep), update_apply,
      configurePerf_of_disarmed (st₁.vm.counter.armed_of_none hnone)]
    rw [hapart.counter] at hnone
    exact Or.inr ⟨st₁, hapart, Or.inl ⟨hnone, rfl⟩⟩
  · have herror : prepare.mapExit VmRunError.instructionCounter st₁ =
        (.error (.instructionCounter e), st₁.setCounter counter) := by
      rw [mapExit, hprep]
    rw [bind_error herror]
    exact Or.inl ⟨_, _, rfl, hapart.msrs, hapart.hostSyscall⟩
  · rw [bind_ok (mapExit_eq_ok_iff.mpr hprep), update_apply]
    rw [hapart.counter] at hsome
    exact Or.inr ⟨st₁, hapart, Or.inr ⟨hsome, rfl⟩⟩

/-! ## Around the loop -/

/-- Between iterations the registers are lent to the guest, the counter and the VMCS fields
stay as they are. -/
structure Lends (st st' : Host) : Prop where
  leads : st.msrs.Leads st'.msrs
  perfevtsel0 : st'.msrs.value .perfevtsel0 = st.msrs.value .perfevtsel0
  hostSyscall : st'.vm.hostSyscall = st.vm.hostSyscall
  counter : st'.vm.counter = st.vm.counter
  hostFields : st'.vm.hostFields = st.vm.hostFields

namespace Lends

variable {a b c : Host}

theorem refl (a : Host) : Lends a a :=
  ⟨.refl _, rfl, rfl, rfl, rfl⟩

theorem trans (hab : Lends a b) (hbc : Lends b c) : Lends a c where
  leads := hab.leads.trans hbc.leads
  perfevtsel0 := hbc.perfevtsel0.trans hab.perfevtsel0
  hostSyscall := hbc.hostSyscall.trans hab.hostSyscall
  counter := hbc.counter.trans hab.counter
  hostFields := hbc.hostFields.trans hab.hostFields

theorem setCtx (st : Host) (ctx : VmContext) : Lends st (st.setCtx ctx) :=
  ⟨.refl _, rfl, rfl, rfl, rfl⟩

theorem putKernelGsBase (st : Host) (v : UInt64) :
    Lends st (st.setMsrs (st.msrs.put .kernelGsBase v)) :=
  ⟨.put _ _ _, st.msrs.put_value_of_ne v (by decide), rfl, rfl, rfl⟩

end Lends

theorem onCtx_lends {α : Type} (m : VmContext → Except ExitError α × VmContext) (st : Host) :
    Lends st (onCtx m st).2 := by
  unfold onCtx
  split <;> exact .setCtx st _

theorem guestWrites_value (msrs : MsrFile) (syscall : SyscallMsrs) (kernelGsBase : UInt64)
    {msr : Msr} (hsyscall : msr ∉ [Msr.star, .lstar, .cstar, .fmask])
    (hkernel : msr ≠ .kernelGsBase) :
    ((syscall.load msrs).put .kernelGsBase kernelGsBase).value msr = msrs.value msr := by
  rw [put_value_of_ne _ _ hkernel]
  exact msrs.putAll_value_of_notMem hsyscall

theorem enterGuest_lends (st : Host) (turn : Turn) : Lends st (st.enterGuest turn) := by
  cases turn with
  | refused e => exact .refl st
  | ran exited syscall kernelGsBase needResched =>
    have hwrites : st.msrs.Leads ((syscall.load st.msrs).put .kernelGsBase kernelGsBase) :=
      (st.msrs.leads_putAll syscall.writes).trans (.put _ _ _)
    refine ⟨⟨hwrites.readFault, hwrites.writeFault, ?_⟩, ?_, rfl, rfl, rfl⟩
    · intro msr hne habsent
      exact (MsrFile.setValue_value_of_ne _ _ hne).trans (hwrites.absent msr hne habsent)
    have hglobal : Msr.perfevtsel0 ≠ .perfGlobalCtrl := by decide
    have hsyscall : Msr.perfevtsel0 ∉ [Msr.star, .lstar, .cstar, .fmask] := by decide
    have hkernel : Msr.perfevtsel0 ≠ .kernelGsBase := by decide
    exact (MsrFile.setValue_value_of_ne _ _ hglobal).trans
      (guestWrites_value _ _ _ hsyscall hkernel)

theorem saveKernelGsBase_lends (hostKernelGsBase : UInt64) (st : Host) :
    Lends st (saveKernelGsBase hostKernelGsBase st) :=
  (Lends.setCtx st _).trans (.putKernelGsBase _ hostKernelGsBase)

theorem handle_setCtx (needResched : Bool) (st : Host) :
    ∃ ctx, (handle needResched st).2 = st.setCtx ctx := by
  unfold handle
  rw [act_apply]
  rcases st.vm.ctx.leave with ⟨_ | reason | e, ctx⟩ <;> exact ⟨ctx, rfl⟩

variable {hostKernelGsBase : UInt64} {turn : Turn} {turns : List Turn} {st st' : Host}

theorem iterate_lends (hostKernelGsBase : UInt64) (turn : Turn) (st : Host) :
    Lends st (iterate hostKernelGsBase turn st).2 := by
  refine bind_rel .trans (onCtx_lends _) (fun _ => ?_) st
  refine bind_rel .trans (fun st => .putKernelGsBase st _) fun _ => ?_
  refine bind_rel .trans (fun st => st.enterGuest_lends turn) fun _ => ?_
  refine bind_rel .trans (saveKernelGsBase_lends hostKernelGsBase) fun _ st => ?_
  cases turn with
  | refused e => exact .refl st
  | ran exited syscall kernelGsBase needResched =>
    obtain ⟨ctx, hctx⟩ := handle_setCtx needResched st
    show Lends st (handle needResched st).2
    rw [hctx]
    exact .setCtx st ctx

def atExit (hostKernelGsBase : UInt64) (turn : Turn) (ctx : VmContext) (st : Host) : Host :=
  saveKernelGsBase hostKernelGsBase
    (((st.setCtx ctx).setMsrs
      (st.msrs.put .kernelGsBase ctx.state.guest.kernelGsBase)).enterGuest turn)

variable {ctx : VmContext} {r : Except VmRunError (Except VmRunError ExitReason)} {st₁ : Host}

theorem iterate_refused {injected : Option UInt32} {e : VmEntryError}
    (h : st.vm.ctx.enter .loop = (.ok injected, ctx)) :
    iterate hostKernelGsBase (.refused e) st =
      (.error (.vmEntry e), st.atExit hostKernelGsBase (.refused e) ctx) :=
  bind_ok (onCtx_ok h)

theorem iterate_ran {injected : Option UInt32} {exited : VmContext} {syscall : SyscallMsrs}
    {kernelGsBase : UInt64} {needResched : Bool} (h : st.vm.ctx.enter .loop = (.ok injected, ctx)) :
    iterate hostKernelGsBase (.ran exited syscall kernelGsBase needResched) st = handle needResched
        (st.atExit hostKernelGsBase (.ran exited syscall kernelGsBase needResched) ctx) :=
  bind_ok (onCtx_ok h)

/-- If this iteration enters the guest, `IA32_PERF_GLOBAL_CTRL` comes back as `v`. -/
def SwitchesBack (v : UInt64) (st : Host) (turn : Turn) : Prop :=
  ∀ injected ctx, st.vm.ctx.enter .loop = (.ok injected, ctx) → (∀ e, turn ≠ .refused e) →
    (st.setCtx ctx).switchedPerf v = v

theorem atExit_perf_of_refused {e : VmEntryError} (ctx : VmContext) :
    (st.atExit hostKernelGsBase (.refused e) ctx).msrs.value .perfGlobalCtrl =
      st.msrs.value .perfGlobalCtrl := by
  have hne : Msr.perfGlobalCtrl ≠ .kernelGsBase := by decide
  exact (put_value_of_ne _ _ hne).trans (put_value_of_ne _ _ hne)

theorem atExit_perf_of_ran {exited : VmContext} {syscall : SyscallMsrs}
    {kernelGsBase : UInt64} {needResched : Bool} :
    (st.atExit hostKernelGsBase (.ran exited syscall kernelGsBase needResched) ctx).msrs.value
        .perfGlobalCtrl =
      (st.setCtx ctx).switchedPerf (st.msrs.value .perfGlobalCtrl) := by
  have hne : Msr.perfGlobalCtrl ≠ .kernelGsBase := by decide
  refine (put_value_of_ne _ _ hne).trans ?_
  refine (setValue_value_self _ _ _).trans ?_
  rw [guestWrites_value _ _ _ (by decide) hne]
  show (st.setCtx ctx).switchedPerf ((st.msrs.put _ _).value .perfGlobalCtrl) = _
  rw [put_value_of_ne _ _ hne]

theorem iterate_perf (h : SwitchesBack (st.msrs.value .perfGlobalCtrl) st turn) :
    (iterate hostKernelGsBase turn st).2.msrs.value .perfGlobalCtrl =
      st.msrs.value .perfGlobalCtrl := by
  rcases henter : st.vm.ctx.enter .loop with ⟨e | injected, ctx⟩
  · have herror : iterate hostKernelGsBase turn st = (.error (.exitHandler e), st.setCtx ctx) :=
      bind_error (onCtx_error henter)
    rw [herror]
    rfl
  cases turn with
  | refused e =>
    rw [iterate_refused henter]
    exact atExit_perf_of_refused ctx
  | ran exited syscall kernelGsBase needResched =>
    rw [iterate_ran henter]
    obtain ⟨ctx', hctx'⟩ := handle_setCtx needResched (st.atExit hostKernelGsBase
      (.ran exited syscall kernelGsBase needResched) ctx)
    rw [hctx']
    exact atExit_perf_of_ran.trans (h injected ctx henter nofun)

theorem iterate_isOk (hinject : (st.vm.ctx.enter .loop).1.isOk) (henters : ∀ e, turn ≠ .refused e) :
    ∃ result, (iterate hostKernelGsBase turn st).1 = .ok result := by
  rcases henter : st.vm.ctx.enter .loop with ⟨e | injected, ctx⟩
  · rw [henter] at hinject
    cases hinject
  cases turn with
  | refused e => exact absurd rfl (henters e)
  | ran exited syscall kernelGsBase needResched =>
    rw [iterate_ran henter]
    exact ⟨_, rfl⟩

theorem iterations_invariant {P : Host → Prop}
    (hstep : ∀ i ∈ iterations hostKernelGsBase turns st, P i.1 →
      P (iterate hostKernelGsBase i.2 i.1).2) (h : P st) :
    ∀ i ∈ iterations hostKernelGsBase turns st, P i.1 := by
  induction turns generalizing st with
  | nil => exact forall_mem_nil _
  | cons turn turns ih =>
    unfold iterations at hstep ⊢
    obtain ⟨hfirst, hlater⟩ := forall_mem_cons.mp hstep
    refine forall_mem_cons.mpr ⟨h, ?_⟩
    have hnext := hfirst h
    rcases hiterate : iterate hostKernelGsBase turn st with ⟨e | _ | result, st'⟩
    · exact forall_mem_nil _
    · rw [hiterate] at hnext hlater
      exact ih hlater hnext
    · exact forall_mem_nil _

theorem loop_last (h : loop hostKernelGsBase turns st = some (r, st')) :
    ∃ i ∈ iterations hostKernelGsBase turns st,
      iterate hostKernelGsBase i.2 i.1 = (r.map some, st') := by
  induction turns generalizing st with
  | nil => cases h
  | cons turn turns ih =>
    unfold loop at h
    unfold iterations
    rcases hiterate : iterate hostKernelGsBase turn st with ⟨e | _ | result, st₁⟩
    · rw [hiterate] at h
      cases h
      exact ⟨_, mem_cons_self, hiterate⟩
    · rw [hiterate] at h
      obtain ⟨i, hi, hlast⟩ := ih h
      exact ⟨i, mem_cons_of_mem _ hi, hlast⟩
    · rw [hiterate] at h
      cases h
      exact ⟨_, mem_cons_self, hiterate⟩

theorem loop_lends (h : loop hostKernelGsBase turns st = some (r, st'))
    (hswitch : ∀ i ∈ iterations hostKernelGsBase turns st, Lends st i.1 →
      SwitchesBack (st.msrs.value .perfGlobalCtrl) i.1 i.2) :
    Lends st st' ∧ st'.msrs.value .perfGlobalCtrl = st.msrs.value .perfGlobalCtrl := by
  have hstep : ∀ i ∈ iterations hostKernelGsBase turns st,
      Lends st i.1 ∧ i.1.msrs.value .perfGlobalCtrl = st.msrs.value .perfGlobalCtrl →
      Lends st (iterate hostKernelGsBase i.2 i.1).2 ∧
        (iterate hostKernelGsBase i.2 i.1).2.msrs.value .perfGlobalCtrl =
          st.msrs.value .perfGlobalCtrl := by
    rintro i hi ⟨hlends, hperf⟩
    have hback := hswitch i hi hlends
    rw [← hperf] at hback
    exact ⟨hlends.trans (iterate_lends _ _ _), (iterate_perf hback).trans hperf⟩
  obtain ⟨i, hi, hlast⟩ := loop_last h
  have hstart := iterations_invariant
    (P := fun x => Lends st x ∧ x.msrs.value .perfGlobalCtrl = st.msrs.value .perfGlobalCtrl)
    hstep ⟨.refl st, rfl⟩ i hi
  have hend := hstep i hi hstart
  rw [hlast] at hend
  exact hend

theorem loop_breaks (h : loop hostKernelGsBase turns st = some (r, st'))
    (henters : ∀ i ∈ iterations hostKernelGsBase turns st,
      (i.1.vm.ctx.enter .loop).1.isOk ∧ ∀ e, i.2 ≠ .refused e) :
    ∃ result, r = .ok result := by
  obtain ⟨i, hi, hlast⟩ := loop_last h
  obtain ⟨hinject, henter⟩ := henters i hi
  have hok : ∃ result, (iterate hostKernelGsBase i.2 i.1).1 = .ok result :=
    iterate_isOk hinject henter
  rw [hlast] at hok
  obtain ⟨_, hok⟩ := hok
  cases r with
  | error e => cases hok
  | ok result => exact ⟨result, rfl⟩

/-! ## What the host gets back -/

theorem SwitchesBack.of_loadsOnExit {v : UInt64} (h : LoadsOnExit st.vm.hostFields v) :
    SwitchesBack v st turn := by
  intro injected ctx _ _
  exact (if_pos h.1).trans h.2

/-- What an iteration needs to give the registers of the counter back: it does not return
from the loop early, the old event selector can be written back, and the exit loads
`IA32_PERF_GLOBAL_CTRL` with the host's value, in which the counter is off. -/
structure CountsBack (st : Host) (i : Host × Turn) : Prop where
  injects : (i.1.vm.ctx.enter .loop).1.isOk = true
  enters : ∀ e, i.2 ≠ .refused e
  perfevtsel0 : st.msrs.writeFault .perfevtsel0 (st.msrs.value .perfevtsel0) = false
  pmc0 : st.msrs.value .perfGlobalCtrl &&& PERF_GLOBAL_CTRL_PMC0 = 0
  hostField : st.vm.hostFields.writeFault .hostIa32PerfGlobalCtrl = none
  exitControls :
    st.vm.hostFields.value .primaryVmExitControls &&& loadPerfOnExit ≠ 0 ∨
      st.vm.hostFields.readFault .primaryVmExitControls = none ∧
        st.vm.hostFields.writeFault .primaryVmExitControls = none

/-- What an iteration of a VM with a null counter needs: if it enters the guest, then the
VMCS has the host's value from earlier, or nothing loads `IA32_PERF_GLOBAL_CTRL`. -/
def IdlesBack (st : Host) (i : Host × Turn) : Prop :=
  ∀ injected ctx, i.1.vm.ctx.enter .loop = (.ok injected, ctx) → (∀ e, i.2 ≠ .refused e) →
    LoadsOnExit st.vm.hostFields (st.msrs.value .perfGlobalCtrl) ∨
      st.vm.hostFields.value .primaryVmExitControls &&& loadPerfOnExit = 0 ∧
      st.vm.hostFields.value .vmEntryControls &&& loadPerfOnEntry = 0 ∧
      (i.1.setCtx ctx).pebsArmed = false

/-- What is left to give back once the loop is over: the SYSCALL registers and
`IA32_KERNEL_GS_BASE`. -/
structure Owes (st st' : Host) : Prop where
  leads : st.msrs.Leads st'.msrs
  hostSyscall : st'.vm.hostSyscall = st.vm.hostSyscall
  perfevtsel0 : st'.msrs.value .perfevtsel0 = st.msrs.value .perfevtsel0
  perfGlobalCtrl : st'.msrs.value .perfGlobalCtrl = st.msrs.value .perfGlobalCtrl

theorem loadGuest_owes (st : Host) : Owes st st.loadGuest where
  leads := st.msrs.leads_putAll _
  hostSyscall := rfl
  perfevtsel0 := st.msrs.putAll_value_of_notMem (by rw [SyscallMsrs.writes_fst]; decide)
  perfGlobalCtrl := st.msrs.putAll_value_of_notMem (by rw [SyscallMsrs.writes_fst]; decide)

theorem Owes.of_msrs (h : Owes st st₁) (hmsrs : st'.msrs = st₁.msrs)
    (hsyscall : st'.vm.hostSyscall = st₁.vm.hostSyscall) : Owes st st' := by
  refine ⟨?_, hsyscall.trans h.hostSyscall, ?_, ?_⟩
  · rw [hmsrs]
    exact h.leads
  · rw [hmsrs]
    exact h.perfevtsel0
  · rw [hmsrs]
    exact h.perfGlobalCtrl

theorem Owes.trans_lends (h : Owes st st₁) (hlends : Lends st₁ st')
    (hperf : st'.msrs.value .perfGlobalCtrl = st₁.msrs.value .perfGlobalCtrl) : Owes st st' where
  leads := h.leads.trans hlends.leads
  hostSyscall := hlends.hostSyscall.trans h.hostSyscall
  perfevtsel0 := hlends.perfevtsel0.trans h.perfevtsel0
  perfGlobalCtrl := hperf.trans h.perfGlobalCtrl

theorem endRun_value (h : Owes st st')
    (hsyscall : ∀ w ∈ st.vm.hostSyscall.writes, st.msrs.PutsBack w.1 w.2)
    (hkernel : st.msrs.PutsBack .kernelGsBase hostKernelGsBase) (env : RunHost)
    (result : Except VmRunError ExitReason) (msr : Msr) :
    (st'.endRun env hostKernelGsBase result).2.msrs.value msr = st.msrs.value msr := by
  show ((st'.vm.hostSyscall.load st'.msrs).put .kernelGsBase hostKernelGsBase).value msr = _
  rw [h.hostSyscall]
  have hload := st'.msrs.leads_putAll st.vm.hostSyscall.writes
  have hnodup : (st.vm.hostSyscall.writes.map Prod.fst).Nodup := by
    rw [SyscallMsrs.writes_fst]
    decide
  by_cases hgs : msr = .kernelGsBase
  · subst hgs
    exact (h.leads.trans hload).value_put hkernel (by decide)
  rw [put_value_of_ne _ _ hgs, SyscallMsrs.load]
  by_cases hmem : msr ∈ st.vm.hostSyscall.writes.map Prod.fst
  · obtain ⟨⟨_, v⟩, hwrite, rfl⟩ := mem_map.mp hmem
    refine h.leads.value_putAll hnodup hwrite (hsyscall _ hwrite) ?_
    rintro hperf
    rw [hperf, SyscallMsrs.writes_fst] at hmem
    revert hmem
    decide
  · rw [putAll_value_of_notMem _ hmem]
    rw [SyscallMsrs.writes_fst] at hmem
    cases msr with
    | perfevtsel0 => exact h.perfevtsel0
    | perfGlobalCtrl => exact h.perfGlobalCtrl
    | kernelGsBase => exact absurd rfl hgs
    | star | lstar | cstar | fmask => exact absurd (by decide) hmem

theorem loop_owes_of_none {entered : Host} (howes : Owes st entered)
    (hperf : ∀ field, field.perf → entered.vm.hostFields.value field = st.vm.hostFields.value field)
    (hidles : ∀ i ∈ iterations hostKernelGsBase turns entered, IdlesBack st i)
    (h : loop hostKernelGsBase turns entered = some (r, st')) :
    Owes st st' ∧ st'.vm.counter = entered.vm.counter := by
  obtain ⟨hlends, hback⟩ := loop_lends h fun i hi hlent injected ctx henter henters => by
    have hexit := (congrArg (·.value .primaryVmExitControls) hlent.hostFields).trans
      (hperf .primaryVmExitControls rfl)
    have hentry := (congrArg (·.value .vmEntryControls) hlent.hostFields).trans
      (hperf .vmEntryControls rfl)
    have hfield := (congrArg (·.value .hostIa32PerfGlobalCtrl) hlent.hostFields).trans
      (hperf .hostIa32PerfGlobalCtrl rfl)
    rw [howes.perfGlobalCtrl]
    unfold switchedPerf
    rcases hidles i hi injected ctx henter henters with ⟨hload, hvalue⟩ | ⟨hload, hno, hpebs⟩
    · rw [if_pos (by rw [← hexit] at hload; exact hload)]
      exact hfield.trans hvalue
    rw [if_neg (by rw [← hexit] at hload; exact not_not_intro hload), if_neg]
    rintro (hset | harmed)
    · rw [← hentry] at hno
      exact hset hno
    · rw [hpebs] at harmed
      cases harmed
  exact ⟨howes.trans_lends hlends hback, hlends.counter⟩

/-- What the loop of a counting VM starts with. -/
structure Counting (st entered : Host) : Prop where
  leads : st.msrs.Leads entered.msrs
  hostSyscall : entered.vm.hostSyscall = st.vm.hostSyscall
  perfGlobalCtrl : entered.msrs.value .perfGlobalCtrl = st.msrs.value .perfGlobalCtrl
  armed : entered.vm.counter.armed = true
  saved : entered.vm.counter.savedPerfevtsel0 = st.msrs.value .perfevtsel0
  loads : ∀ i, CountsBack st i →
    LoadsOnExit entered.vm.hostFields (st.msrs.value .perfGlobalCtrl)

theorem counting_of_apart {st₂ : Host} (howes : Owes st st₁)
    (hfields : st₁.vm.hostFields = st.vm.hostFields) (hapart : Apart st₁ st₂)
    (hsome : st₁.vm.counter.msrEntryPage.isSome) :
    Counting st (configurePerf ((st₂.setMsrs
      (st₂.msrs.put .perfevtsel0 PERFEVTSEL0_INST_RETIRED_ANY_P)).setCounter st₂.prepared)) := by
  have howes₂ := howes.of_msrs hapart.msrs hapart.hostSyscall
  have harmed : st₂.prepared.armed := by
    rw [← hapart.counter] at hsome
    exact hsome
  generalize hst₃ : (st₂.setMsrs (st₂.msrs.put .perfevtsel0
    PERFEVTSEL0_INST_RETIRED_ANY_P)).setCounter st₂.prepared = st₃
  obtain ⟨hmsrs, hcounter, hsyscall⟩ := st₃.configurePerf_kept
  refine ⟨?_, ?_, ?_, ?_, ?_, ?_⟩
  · rw [hmsrs, ← hst₃]
    exact howes₂.leads.trans (.put _ _ _)
  · rw [hsyscall, ← hst₃]
    exact howes₂.hostSyscall
  · rw [hmsrs, ← hst₃]
    exact (st₂.msrs.put_value_of_ne _ (by decide)).trans howes₂.perfGlobalCtrl
  · rw [hcounter, ← hst₃]
    exact harmed
  · rw [hcounter, ← hst₃]
    exact howes₂.perfevtsel0
  · intro i hi
    have hhost : st₃.vm.counter.hostPerfGlobalCtrl = st.msrs.value .perfGlobalCtrl := by
      rw [← hst₃]
      show st₂.msrs.value .perfGlobalCtrl &&& ~~~PERF_GLOBAL_CTRL_PMC0 = _
      rw [howes₂.perfGlobalCtrl]
      exact and_not_of_and_eq_zero hi.pmc0
    rw [← hhost]
    have hread := hapart.readFault.trans (congrArg VmcsTable.readFault hfields)
    have hwrite := hapart.writeFault.trans (congrArg VmcsTable.writeFault hfields)
    have hexit := (hapart.perf .primaryVmExitControls rfl).trans
      (congrArg (·.value .primaryVmExitControls) hfields)
    apply configurePerf_loadsOnExit
    · rw [← hst₃]
      exact harmed
    · rw [← hst₃]
      exact (congrFun hwrite _).trans hi.hostField
    · rw [← hst₃]
      show st₂.vm.hostFields.value _ &&& _ ≠ 0 ∨ st₂.vm.hostFields.readFault _ = none ∧
        st₂.vm.hostFields.writeFault _ = none
      rw [hexit, hread, hwrite]
      exact hi.exitControls

theorem leaveLoop_owes_of_some {entered : Host} (hcounting : Counting st entered)
    (hcounts : ∀ i ∈ iterations hostKernelGsBase turns entered, CountsBack st i)
    (h : loop hostKernelGsBase turns entered = some (r, st')) :
    ∃ result, r = .ok result ∧ Owes st (leaveLoop result st').2 := by
  obtain ⟨result, rfl⟩ := loop_breaks h fun i hi => ⟨(hcounts i hi).injects, (hcounts i hi).enters⟩
  obtain ⟨hlends, hback⟩ := loop_lends h fun i hi hlent => by
    have hloads := hcounting.loads i (hcounts i hi)
    rw [← hlent.hostFields, ← hcounting.perfGlobalCtrl] at hloads
    exact .of_loadsOnExit hloads
  obtain ⟨i, hi, -⟩ := loop_last h
  have hleads := hcounting.leads.trans hlends.leads
  have harmed : st'.vm.counter.armed := by
    rw [hlends.counter]
    exact hcounting.armed
  have hsaved : st'.vm.counter.savedPerfevtsel0 = st.msrs.value .perfevtsel0 := by
    rw [hlends.counter]
    exact hcounting.saved
  have haccepted : st'.msrs.writeFault .perfevtsel0 st'.vm.counter.savedPerfevtsel0 = false := by
    rw [hleads.writeFault, hsaved]
    exact (hcounts i hi).perfevtsel0
  refine ⟨result, rfl, ?_⟩
  unfold leaveLoop
  rw [finish_of_armed harmed haccepted]
  refine ⟨hleads.trans (.put _ _ _), hlends.hostSyscall.trans hcounting.hostSyscall, ?_, ?_⟩
  · rw [hsaved]
    exact hleads.value_put (Or.inr ⟨rfl, (hcounts i hi).perfevtsel0⟩) (by decide)
  · exact (put_value_of_ne _ _ (by decide)).trans (hback.trans hcounting.perfGlobalCtrl)

end Host

/-- What one call of `run` needs to give every register back: it does not fail before its
loop, the values captured when the VM was created are still those of the host and can be
written, and the iterations of its loop give the counter's registers back. -/
structure RunCall.Restores (call : RunCall) (st : Host) : Prop where
  loads : call.env.loadFails = false
  invalidates : st.vm.lastCpu ≠ some call.env.currentCpuId → call.env.inveptFault = none
  starts : st.vm.ctx.startRun.1 = .ok ()
  syscall : ∀ w ∈ st.vm.hostSyscall.writes, st.msrs.PutsBack w.1 w.2
  kernelGsBase : st.msrs.PutsBack .kernelGsBase (st.msrs.readOrZero .kernelGsBase)
  counts : st.vm.counter.msrEntryPage.isSome = true →
    ∀ i ∈ call.iterations st, CountsBack st i
  idles : st.vm.counter.msrEntryPage = none → ∀ i ∈ call.iterations st, IdlesBack st i

namespace RunCall

variable {call : RunCall} {st st' : Host}

theorem Restores.startRun (h : call.Restores st) :
    ∃ st₁, Host.startRun call.env st.loadGuest = (.ok (), st₁) := by
  have hload : loadVmcs call.env st.loadGuest = (.ok (), st.loadGuest) := by
    rw [loadVmcs, h.loads]
    rfl
  obtain ⟨st₁, heq, hctx⟩ :
      ∃ st₁, invalidateEpt call.env st.loadGuest = (.ok (), st₁) ∧
        st₁.vm.ctx = st.loadGuest.vm.ctx := invalidateEpt_ok h.invalidates
  unfold Host.startRun
  rw [bind_ok hload, bind_ok heq]
  rcases hstart : st₁.vm.ctx.startRun with ⟨e | u, ctx⟩
  · have hok := h.starts
    rw [show st.vm.ctx = st₁.vm.ctx from hctx.symm, hstart] at hok
    cases hok
  · exact ⟨_, onCtx_ok hstart⟩

theorem Restores.runLoop {st₁ st₂ : Host} {result : Except VmRunError ExitReason}
    (h : call.Restores st) (hstart : Host.startRun call.env st.loadGuest = (.ok (), st₁))
    (hloop : st₁.runLoop call.env call.turns (st.msrs.readOrZero .kernelGsBase) =
      some (result, st₂)) : Owes st st₂ := by
  have hapart := startRun_apart call.env st.loadGuest
  rw [hstart] at hapart
  have howes : Owes st st₁ :=
    st.loadGuest_owes.of_msrs hapart.msrs hapart.hostSyscall
  have hiterations : ∀ {entered}, Host.enterLoop call.env st₁ = (.ok (), entered) →
      call.iterations st =
        Host.iterations (st.msrs.readOrZero .kernelGsBase) call.turns entered := by
    intro entered henter
    unfold iterations
    rw [bind_ok hstart, henter]
  unfold Host.runLoop at hloop
  rcases st₁.enterLoop_cases call.env with
    ⟨e, st₃, henter, hmsrs, hsyscall⟩ | ⟨st₃, hapart₃, ⟨hnone, henter⟩ | ⟨hsome, henter⟩⟩
  · rw [henter] at hloop
    cases hloop
    exact howes.of_msrs hmsrs hsyscall
  · have hnone' : st.vm.counter.msrEntryPage = none := hapart.counter ▸ hnone
    have hidles := h.idles hnone'
    rw [hiterations henter] at hidles
    rw [henter] at hloop
    have hfields := (hapart.trans hapart₃).perf
    rcases hrun : Host.loop (st.msrs.readOrZero .kernelGsBase) call.turns st₃ with
      _ | ⟨r, st₄⟩
    · simp [hrun] at hloop
    obtain ⟨howes₄, hcounter⟩ := loop_owes_of_none
      (howes.of_msrs hapart₃.msrs hapart₃.hostSyscall) hfields hidles hrun
    cases r with
    | error e =>
      simp only [hrun, Option.some.injEq, Prod.mk.injEq] at hloop
      exact hloop.2 ▸ howes₄
    | ok r =>
      have hdisarmed : st₄.vm.counter.armed = false := by
        rw [hcounter, hapart₃.counter]
        exact st₁.vm.counter.armed_of_none hnone
      simp only [hrun, Host.leaveLoop, finish_of_disarmed hdisarmed, Option.some.injEq,
        Prod.mk.injEq] at hloop
      exact hloop.2 ▸ howes₄
  · have hsome' : st.vm.counter.msrEntryPage.isSome := hapart.counter ▸ hsome
    have hcounts := h.counts hsome'
    rw [hiterations henter] at hcounts
    rw [henter] at hloop
    have hcounting := counting_of_apart st.loadGuest_owes rfl (hapart.trans hapart₃) hsome'
    rcases hrun : Host.loop (st.msrs.readOrZero .kernelGsBase) call.turns (Host.configurePerf
      ((st₃.setMsrs (st₃.msrs.put .perfevtsel0 PERFEVTSEL0_INST_RETIRED_ANY_P)).setCounter
        st₃.prepared)) with _ | ⟨r, st₄⟩
    · simp [hrun] at hloop
    obtain ⟨r, rfl, howes₄⟩ := leaveLoop_owes_of_some hcounting hcounts hrun
    simp only [hrun, Option.some.injEq] at hloop
    rw [hloop] at howes₄
    exact howes₄

/-- A call that meets the condition gives every register back. -/
theorem Restores.value {result : Except VmRunError ExitReason} (h : call.Restores st)
    (hrun : call.run st = some (result, st')) (msr : Msr) :
    st'.msrs.value msr = st.msrs.value msr := by
  obtain ⟨st₁, hstart⟩ := h.startRun
  unfold run at hrun
  rw [hstart] at hrun
  rcases hloop : st₁.runLoop call.env call.turns (st.msrs.readOrZero .kernelGsBase) with
    _ | ⟨r, st₂⟩
  · simp [hloop] at hrun
  simp only [hloop, Option.some.injEq] at hrun
  have hvalue := endRun_value (h.runLoop hstart hloop) h.syscall h.kernelGsBase call.env r
    msr
  rw [hrun] at hvalue
  exact hvalue

end RunCall

/-! ## Sequences of calls -/

/-- A call of `run`, or anything else that happens on the host: an ioctl, a VM that is run
next, code that writes the registers. -/
inductive HostMove
  | run (call : RunCall)
  | other

abbrev HostStep := Transition Host HostMove

/-- The step does what the code does. -/
inductive HostStep.Valid : HostStep → Prop
  | run {call : RunCall} {st st' : Host} {result : Except VmRunError ExitReason}
      (h : call.run st = some (result, st')) : Valid ⟨st, .run call, st'⟩
  | other (st st' : Host) : Valid ⟨st, .other, st'⟩

/-- A call of `run` meets the condition. -/
def HostStep.Restores (t : HostStep) : Prop :=
  match t.label with
  | .run call => call.Restores t.pre
  | .other => True

/-- A call of `run` leaves every register as it was. -/
def HostStep.Restored (t : HostStep) : Prop :=
  match t.label with
  | .run _ => ∀ msr, t.post.msrs.value msr = t.pre.msrs.value msr
  | .other => True

/-- The steps are valid and lead from `st` to `st'`. -/
structure Calls (st : Host) (ts : List HostStep) (st' : Host) : Prop where
  walk : Walk st ts st'
  valid : ∀ t ∈ ts, t.Valid

theorem HostStep.Valid.restored {t : HostStep} (hvalid : t.Valid) (h : t.Restores) :
    t.Restored := by
  cases hvalid with
  | run hrun => exact h.value hrun
  | other st st' => trivial

/-- In every sequence whose calls of `run` meet the condition, each of them leaves every
register as it was; if nothing else happens in between, the registers at the end are
those at the beginning. -/
theorem host_msrs_restored {st st' : Host} {ts : List HostStep} (hcalls : Calls st ts st')
    (hrestores : ∀ t ∈ ts, t.Restores) :
    (∀ t ∈ ts, t.Restored) ∧
      ((∀ t ∈ ts, ∃ call, t.label = .run call) →
        ∀ msr, st'.msrs.value msr = st.msrs.value msr) := by
  have hall : ∀ t ∈ ts, t.Restored :=
    fun t ht => (hcalls.valid t ht).restored (hrestores t ht)
  refine ⟨hall, fun hruns msr => ?_⟩
  have hstep : ∀ t ∈ ts, t.pre.msrs.value msr = st.msrs.value msr →
      t.post.msrs.value msr = st.msrs.value msr := by
    intro t ht hpre
    obtain ⟨call, hlabel⟩ := hruns t ht
    have hrestored := hall t ht
    rw [HostStep.Restored, hlabel] at hrestored
    exact (hrestored msr).trans hpre
  exact (hcalls.walk.invariant (I := fun s => s.msrs.value msr = st.msrs.value msr) hstep rfl).2

def hostMsrs (lstar kernelGsBase perfevtsel0 perfGlobalCtrl : UInt64) : MsrFile where
  value
    | .lstar => lstar
    | .kernelGsBase => kernelGsBase
    | .perfevtsel0 => perfevtsel0
    | .perfGlobalCtrl => perfGlobalCtrl
    | _ => 0

def hostedVm (perfGlobalCtrl : UInt64) : Host where
  vm :=
    { ctx := newVm
      syscall := { lstar := 0x2000 }
      hostSyscall := { lstar := 0x1000 }
      counter := { msrEntryPage := some 0x5000 }
      hostFields := { value := fun _ => 0 } }
  msrs := hostMsrs 0x1000 0x3000 0x13003C perfGlobalCtrl

def interrupted : RunCall where
  turns := [.ran (newVm.exitAfter 1 fun | .vmExitReason => 10 | _ => 0) { lstar := 0x2000 } 0x4000
    true]

theorem Host.iterations_singleton (hostKernelGsBase : UInt64) (turn : Turn) (st : Host) :
    iterations hostKernelGsBase [turn] st = [(st, turn)] := by
  unfold iterations
  split <;> rfl

theorem RunCall.iterations_of_ok {env : RunHost} {turn : Turn} {st : Host} {i : Host × Turn}
    (hok : ((do startRun env; enterLoop env) st.loadGuest).1 = .ok ())
    (hi : i ∈ RunCall.iterations { env, turns := [turn] } st) :
    i = (((do startRun env; enterLoop env) st.loadGuest).2, turn) := by
  unfold RunCall.iterations at hi
  rcases hstart : (do startRun env; enterLoop env) st.loadGuest with ⟨e | u, entered⟩
  · rw [hstart] at hok
    cases hok
  · simp only [hstart, iterations_singleton, mem_singleton] at hi
    exact hi.trans (congrArg (fun r => (r.2, turn)) hstart.symm)

theorem interrupted_restores : interrupted.Restores (hostedVm 2) where
  loads := rfl
  invalidates _ := rfl
  starts := by decide +kernel
  syscall := by
    intro w hw
    refine Or.inr ⟨?_, rfl⟩
    revert w
    decide
  kernelGsBase := Or.inr ⟨rfl, rfl⟩
  counts _ := by
    intro i hi
    obtain rfl := RunCall.iterations_of_ok (by decide +kernel) hi
    exact ⟨by decide +kernel, nofun, rfl, by decide, rfl, Or.inr ⟨rfl, rfl⟩⟩
  idles := nofun

/-- A call whose guest and counter used all of them. -/
theorem host_msrs_restored_interrupted :
    ∃ st', Calls (hostedVm 2) [⟨hostedVm 2, .run interrupted, st'⟩] st' ∧
      ∀ msr, st'.msrs.value msr = (hostedVm 2).msrs.value msr := by
  have hreturns : (interrupted.run (hostedVm 2)).isSome = true := by decide +kernel
  obtain ⟨⟨result, st'⟩, hrun⟩ := Option.isSome_iff_exists.mp hreturns
  have hcalls : Calls (hostedVm 2) [⟨hostedVm 2, .run interrupted, st'⟩] st' :=
    ⟨⟨rfl, rfl⟩, List.forall_mem_singleton.mpr (.run hrun)⟩
  refine ⟨st', hcalls, (host_msrs_restored hcalls ?_).2 ?_⟩
  · exact List.forall_mem_singleton.mpr interrupted_restores
  · exact List.forall_mem_singleton.mpr ⟨interrupted, rfl⟩

/-- If the VMCS cannot be loaded, the host goes on with the guest's LSTAR; if the entry is
refused, `IA32_PERFEVTSEL0` stays programmed; and after any exit the counter that the host
had enabled is off. -/
theorem exists_msr_not_restored :
    ((hostedVm 2).msrs.value .lstar = 0x1000 ∧
      (RunCall.run { env := { loadFails := true } } (hostedVm 2)).map
        (fun r => r.2.msrs.value .lstar) = some 0x2000) ∧
    ((hostedVm 2).msrs.value .perfevtsel0 = 0x13003C ∧
      (RunCall.run { turns := [.refused .vmEntryFailed] } (hostedVm 2)).map
        (fun r => r.2.msrs.value .perfevtsel0) = some PERFEVTSEL0_INST_RETIRED_ANY_P) ∧
    (hostedVm 3).msrs.value .perfGlobalCtrl = 3 ∧
      (interrupted.run (hostedVm 3)).map (fun r => r.2.msrs.value .perfGlobalCtrl) = some 2 := by
  decide +kernel

end Bedrock
