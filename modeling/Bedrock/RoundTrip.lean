import Bedrock.Registers
import Bedrock.Run

/-!
# Writing back the registers that were read

`modify_regs` with the identity should change nothing.  Whether it does is decided
field by field: a field keeps its value if the write is not reached or writes what
is there.  The copy of RSP, the constrained control registers, the sixteen-bit table
limits and the fields that are reset are where it can go wrong.
-/

namespace Bedrock

open Support List

def VmcsField.width : VmcsField → Nat
  | .guestSelector _ => 16
  | .guestLimit _ | .guestAccessRights _ | .guestGdtrLimit | .guestIdtrLimit
  | .guestInterruptibilityState | .guestActivityState | .guestIa32SysenterCs
  | .idtVectoringErrorCode | .idtVectoringInfo | .vmEntryExceptionErrorCode
  | .vmEntryInterruptionInfo | .vmExitInstructionInfo | .vmExitInstructionLen
  | .vmExitInterruptionErrorCode | .vmExitInterruptionInfo | .vmExitReason => 32
  | _ => 64

/-- Every field holds a value of its width, as the fields of a real VMCS do. -/
def FieldsFit (vmcs : VmcsTable VmcsField) : Prop :=
  ∀ field, (vmcs.value field).toNat < 2 ^ field.width

/-- Narrowing and widening a register value keeps it exactly if it is narrow. -/
theorem toUInt16_toUInt64_eq_iff (v : UInt64) : v.toUInt16.toUInt64 = v ↔ v.toNat < 2 ^ 16 := by
  rw [← UInt64.toNat_inj, UInt16.toNat_toUInt64, UInt64.toNat_toUInt16]
  exact Nat.mod_eq_iff_lt (by decide)

theorem toUInt32_toUInt64_eq_iff (v : UInt64) : v.toUInt32.toUInt64 = v ↔ v.toNat < 2 ^ 32 := by
  rw [← UInt64.toNat_inj, UInt32.toNat_toUInt64, UInt64.toNat_toUInt32]
  exact Nat.mod_eq_iff_lt (by decide)

/-! ## Which writes are made -/

namespace VmcsTable

variable {F : Type} [DecidableEq F]

theorem writeAll_value_eq_iff (table : VmcsTable F) {writes : List (F × UInt64)}
    (hnodup : (writes.map Prod.fst).Nodup) :
    (table.writeAll writes).2.value = table.value ↔
      ∀ w ∈ writes.takeWhile fun w => (table.writeFault w.1).isNone, table.value w.1 = w.2 := by
  induction writes with
  | nil => simp [writeAll]
  | cons w rest ih =>
    rw [map_cons, nodup_cons] at hnodup
    cases hfault : table.writeFault w.1 with
    | some e => simp [writeAll, write, hfault]
    | none =>
      have hrun : table.write w.1 w.2 = (.ok (), table.setValue w.1 w.2) := by
        simp [write, hfault]
      have hkeep := (table.setValue w.1 w.2).writeAll_value_of_notMem hnodup.1
      rw [setValue_value_self] at hkeep
      rw [writeAll, hrun, takeWhile_cons_of_pos (by simp [hfault]), forall_mem_cons, ← ih hnodup.2]
      dsimp only
      constructor
      · intro h
        have hfirst : table.value w.1 = w.2 := by rw [← h, hkeep]
        have hself := write_self hfirst
        rw [hrun] at hself
        dsimp only at hself
        rw [hself] at h
        exact ⟨hfirst, h⟩
      · rintro ⟨hfirst, h⟩
        have hself := write_self hfirst
        rw [hrun] at hself
        dsimp only at hself
        rw [hself]
        exact h

end VmcsTable

/-- The fields `set_registers` writes, in its order. -/
def registerFields : List VmcsField :=
  [.guestRsp, .guestRip, .guestRflags, .guestCr0, .guestCr4, .guestCr3, .guestDr7] ++
  Segment.inWriteOrder.map .guestSelector ++ Segment.inWriteOrder.map .guestBase ++
  Segment.inWriteOrder.map .guestLimit ++ Segment.inWriteOrder.map .guestAccessRights ++
  [.guestGdtrBase, .guestIdtrBase, .guestGdtrLimit, .guestIdtrLimit, .guestIa32Efer,
    .guestIa32SysenterCs, .guestIa32SysenterEsp, .guestIa32SysenterEip, .guestIa32Debugctl,
    .guestIa32Pat, .guestInterruptibilityState, .guestActivityState,
    .guestPendingDebugExceptions]

theorem registerFields_nodup : registerFields.Nodup := by decide

namespace VmContext

/-- The round trip comes to write the field: the registers were read and handed back,
the VMCS was loaded, and the processor refuses neither this write nor one before it. -/
def Reached (ctx : VmContext) (get set : RegsHost) (field : VmcsField) : Prop :=
  (ctx.handleGetRegs get).isOk = true ∧ set.copied = true ∧ set.loaded = true ∧
    field ∈ registerFields.takeWhile fun f => (ctx.state.vmcs.fields.writeFault f).isNone

/-- What the round trip writes to the field is what the field holds. -/
def Restored (ctx : VmContext) (field : VmcsField) : Prop :=
  let v := ctx.state.vmcs.fields.value field
  match field with
  | .guestRsp => ctx.state.guest.gprs.rsp = v
  | .guestCr0 => fixCr ctx.machine.cr0Fixed0 ctx.machine.cr0Fixed1 v = v
  | .guestCr4 => fixCr ctx.machine.cr4Fixed0 ctx.machine.cr4Fixed1 v = v
  | .guestGdtrLimit | .guestIdtrLimit => v.toNat < 2 ^ 16
  | .guestIa32SysenterCs | .guestIa32SysenterEsp | .guestIa32SysenterEip | .guestIa32Debugctl
  | .guestInterruptibilityState | .guestActivityState | .guestPendingDebugExceptions => v = 0
  | .guestIa32Pat => v = 0x0007040600070406
  | _ => True

instance (ctx : VmContext) (field : VmcsField) : Decidable (ctx.Restored field) := by
  unfold Restored
  dsimp only
  split <;> infer_instance

/-- What the round trip writes to the field. -/
def roundTripValue (ctx : VmContext) (field : VmcsField) : UInt64 :=
  let v := ctx.state.vmcs.fields.value field
  match field with
  | .guestRsp => ctx.state.guest.gprs.rsp
  | .guestCr0 => fixCr ctx.machine.cr0Fixed0 ctx.machine.cr0Fixed1 v
  | .guestCr4 => fixCr ctx.machine.cr4Fixed0 ctx.machine.cr4Fixed1 v
  | .guestSelector _ | .guestGdtrLimit | .guestIdtrLimit => v.toUInt16.toUInt64
  | .guestLimit _ | .guestAccessRights _ => v.toUInt32.toUInt64
  | .guestIa32SysenterCs | .guestIa32SysenterEsp | .guestIa32SysenterEip | .guestIa32Debugctl
  | .guestInterruptibilityState | .guestActivityState | .guestPendingDebugExceptions => 0
  | .guestIa32Pat => 0x0007040600070406
  | _ => v

theorem registerWrites_registersOf (ctx : VmContext) :
    registerWrites ctx.machine (registersOf ctx.state.vmcs.fields.value ctx.state.guest.gprs) ++
        resetWrites =
      registerFields.map fun field => (field, ctx.roundTripValue field) := rfl

theorem roundTripValue_eq_iff {ctx : VmContext} (hfit : FieldsFit ctx.state.vmcs.fields)
    (field : VmcsField) :
    ctx.state.vmcs.fields.value field = ctx.roundTripValue field ↔ ctx.Restored field := by
  have hwidth := hfit field
  rw [eq_comm]
  cases field with
  | guestSelector s => exact iff_of_true ((toUInt16_toUInt64_eq_iff _).mpr hwidth) trivial
  | guestLimit s | guestAccessRights s =>
    exact iff_of_true ((toUInt32_toUInt64_eq_iff _).mpr hwidth) trivial
  | guestGdtrLimit | guestIdtrLimit => exact toUInt16_toUInt64_eq_iff _
  | guestRsp | guestCr0 | guestCr4 => exact Iff.rfl
  | guestIa32SysenterCs | guestIa32SysenterEsp | guestIa32SysenterEip | guestIa32Debugctl
  | guestInterruptibilityState | guestActivityState | guestPendingDebugExceptions | guestIa32Pat =>
    exact eq_comm
  | _ => exact iff_of_true rfl trivial

/-! ## The round trip -/

theorem modifyRegs_id_cases (ctx : VmContext) (get set : RegsHost) :
    ((∀ field, ¬ctx.Reached get set field) ∧ (ctx.modifyRegs id get set).2 = ctx) ∨
      ((∀ field, ctx.Reached get set field ↔ field ∈ registerFields.takeWhile fun f =>
          (ctx.state.vmcs.fields.writeFault f).isNone) ∧
        (ctx.modifyRegs id get set).2 =
          (ctx.setRegisters (registersOf ctx.state.vmcs.fields.value ctx.state.guest.gprs)).2) := by
  cases hget : ctx.handleGetRegs get with
  | error e =>
    left
    refine ⟨fun field hreached => ?_, by rw [modifyRegs, hget]⟩
    rw [Reached, hget] at hreached
    cases hreached.1
  | ok regs =>
    have hregs : regs = registersOf ctx.state.vmcs.fields.value ctx.state.guest.gprs := by
      unfold handleGetRegs at hget
      split at hget
      · cases hget
      split at hget
      · cases hget
      rename_i read hread
      split at hget
      · cases hget
      · cases hget
        exact VmState.getRegisters_eq_ok hread
    have hrun : (ctx.modifyRegs id get set).2 = (ctx.handleSetRegs regs set).2 := by
      rw [modifyRegs, hget]
      rfl
    rw [hrun, ← hregs]
    cases hcopied : set.copied with
    | false =>
      left
      refine ⟨fun field hreached => ?_, by simp [handleSetRegs, hcopied]⟩
      rw [Reached, hcopied] at hreached
      cases hreached.2.1
    | true =>
      cases hloaded : set.loaded with
      | false =>
        left
        refine ⟨fun field hreached => ?_, by simp [handleSetRegs, hcopied, hloaded]⟩
        rw [Reached, hloaded] at hreached
        cases hreached.2.2.1
      | true =>
        right
        constructor
        · intro field
          rw [Reached, hget, hcopied, hloaded]
          exact ⟨fun h => h.2.2.2, fun h => ⟨rfl, rfl, rfl, h⟩⟩
        simp only [handleSetRegs, hcopied, hloaded, Bool.not_true, Bool.false_eq_true, if_false]
        rcases ctx.setRegisters regs with ⟨e | u, ctx'⟩
        · rfl
        · rfl

/-- Writing back the registers that were read leaves all fields and all registers as
they are exactly if every write that is reached writes what is there. -/
theorem modifyRegs_id_unchanged_iff {ctx : VmContext} (hfit : FieldsFit ctx.state.vmcs.fields)
    (get set : RegsHost) :
    ((ctx.modifyRegs id get set).2.state.vmcs.fields.value = ctx.state.vmcs.fields.value ∧
        (ctx.modifyRegs id get set).2.state.guest.gprs = ctx.state.guest.gprs) ↔
      ∀ field, ctx.Reached get set field → ctx.Restored field := by
  rcases ctx.modifyRegs_id_cases get set with ⟨hnone, hctx⟩ | ⟨hreached, hctx⟩
  · rw [hctx]
    exact iff_of_true ⟨rfl, rfl⟩ fun field h => absurd h (hnone field)
  have hgprs : (ctx.setRegisters (registersOf ctx.state.vmcs.fields.value
      ctx.state.guest.gprs)).2.state.guest.gprs = ctx.state.guest.gprs := rfl
  have hnodup : ((registerFields.map fun field => (field, ctx.roundTripValue field)).map
      Prod.fst).Nodup := registerFields_nodup
  have hvalue := ctx.state.vmcs.fields.writeAll_value_eq_iff hnodup
  rw [List.takeWhile_map, List.forall_mem_map, ← registerWrites_registersOf] at hvalue
  rw [hctx, and_iff_left hgprs]
  simp only [hreached, ← roundTripValue_eq_iff hfit]
  exact hvalue

end VmContext

def freshFields : VmcsField → UInt64
  | .guestIa32Pat => 0x0007040600070406
  | _ => 0

/-- A new VM whose registers were set once: the round trip changes nothing. -/
theorem modifyRegs_id_unchanged_newVm :
    (((newVm.exitAfter 0 freshFields).modifyRegs id {} {}).2.state.vmcs.fields.value =
        freshFields) ∧
      ((newVm.exitAfter 0 freshFields).modifyRegs id {} {}).2.state.guest.gprs = {} := by
  have hfit : FieldsFit (newVm.exitAfter 0 freshFields).state.vmcs.fields := by
    intro field
    cases field with
    | guestIa32Pat => decide
    | _ => exact Nat.two_pow_pos _
  refine (VmContext.modifyRegs_id_unchanged_iff hfit {} {}).mpr ?_
  intro field _
  cases field <;> trivial

def movesStack : VmcsField → UInt64
  | .vmExitReason => 52
  | .guestRsp => 0x8000
  | field => freshFields field

/-- The VM is stopped and its registers are written back as they were read; the guest
finds its stack pointer where it was before the run. -/
theorem exists_modifyRegs_id_moves_rsp :
    ∃ it : Iteration, Run newVm [it] ∧ it.result = .exitToUserspace .vmxPreemptionTimer ∧
      it.done.state.vmcs.fields.value .guestRsp = 0x8000 ∧
      (it.done.modifyRegs id {} {}).1 = .ok () ∧
      (it.done.modifyRegs id {} {}).2.state.vmcs.fields.value .guestRsp = 0 := by
  refine ⟨.simulate .ioctl newVm fun ctx => ctx.exitAfter 1 movesStack,
    .first (Iteration.simulate_valid (by decide +kernel) (ran_exitAfter _ _ _)) rfl .refl, ?_⟩
  decide +kernel

end Bedrock
