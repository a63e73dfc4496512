import Bedrock.Lab

/-!
# Reading and writing all registers

GET_REGS reads the registers from the VMCS and from the copies the exit stub saved;
SET_REGS writes them back.  The two lists of fields were written independently: some
fields are narrowed on the way out, some are constrained or reset on the way in.
-/

namespace Bedrock

open Support List

structure SegmentRegister where
  selector : UInt16
  accessRights : UInt32
  limit : UInt32
  base : UInt64
  deriving DecidableEq, Repr

structure SegmentRegisters where
  cs : SegmentRegister
  ds : SegmentRegister
  es : SegmentRegister
  fs : SegmentRegister
  gs : SegmentRegister
  ss : SegmentRegister
  tr : SegmentRegister
  ldtr : SegmentRegister
  deriving DecidableEq, Repr

def SegmentRegisters.get (regs : SegmentRegisters) : Segment → SegmentRegister
  | .cs => regs.cs
  | .ds => regs.ds
  | .es => regs.es
  | .fs => regs.fs
  | .gs => regs.gs
  | .ss => regs.ss
  | .ldtr => regs.ldtr
  | .tr => regs.tr

structure ControlRegisters where
  cr0 : UInt64
  cr2 : UInt64
  cr3 : UInt64
  cr4 : UInt64
  cr8 : UInt64
  deriving DecidableEq, Repr

structure DebugRegisters where
  dr0 : UInt64
  dr1 : UInt64
  dr2 : UInt64
  dr3 : UInt64
  dr6 : UInt64
  dr7 : UInt64
  deriving DecidableEq, Repr

/-- `Gdtr` and `Idtr` -/
structure DescriptorTable where
  base : UInt64
  limit : UInt16
  deriving DecidableEq, Repr

structure GuestRegisters where
  gprs : GeneralPurposeRegisters
  controlRegs : ControlRegisters
  debugRegs : DebugRegisters
  segmentRegs : SegmentRegisters
  gdtr : DescriptorTable
  idtr : DescriptorTable
  efer : UInt64
  rip : UInt64
  rflags : UInt64
  deriving DecidableEq, Repr

def VmcsField.guestBase : Segment → VmcsField
  | .cs => .guestCsBase
  | .ds => .guestDsBase
  | .es => .guestEsBase
  | .fs => .guestFsBase
  | .gs => .guestGsBase
  | .ss => .guestSsBase
  | .ldtr => .guestLdtrBase
  | .tr => .guestTrBase

/-! ## Reading -/

/-- `read_segment` -/
def readSegment (vmcs : VmcsTable VmcsField) (seg : Segment) :
    Except VmcsReadError SegmentRegister := do
  let selector ← vmcs.read (.guestSelector seg)
  let base ← vmcs.read (.guestBase seg)
  let limit ← vmcs.read (.guestLimit seg)
  let accessRights ← vmcs.read (.guestAccessRights seg)
  return ⟨selector.toUInt16, accessRights.toUInt32, limit.toUInt32, base⟩

/-- `get_registers`: CR2, CR8 and the debug registers other than DR7 are not kept. -/
def VmState.getRegisters (st : VmState) : Except VmcsReadError GuestRegisters := do
  let vmcs := st.vmcs.fields
  let cr0 ← vmcs.read .guestCr0
  let cr3 ← vmcs.read .guestCr3
  let cr4 ← vmcs.read .guestCr4
  let dr7 ← vmcs.read .guestDr7
  let cs ← readSegment vmcs .cs
  let ds ← readSegment vmcs .ds
  let es ← readSegment vmcs .es
  let fs ← readSegment vmcs .fs
  let gs ← readSegment vmcs .gs
  let ss ← readSegment vmcs .ss
  let tr ← readSegment vmcs .tr
  let ldtr ← readSegment vmcs .ldtr
  let gdtrBase ← vmcs.read .guestGdtrBase
  let gdtrLimit ← vmcs.read .guestGdtrLimit
  let idtrBase ← vmcs.read .guestIdtrBase
  let idtrLimit ← vmcs.read .guestIdtrLimit
  let efer ← vmcs.read .guestIa32Efer
  let rip ← vmcs.read .guestRip
  let rflags ← vmcs.read .guestRflags
  return {
    gprs := st.guest.gprs
    controlRegs := { cr0, cr2 := 0, cr3, cr4, cr8 := 0 }
    debugRegs := { dr0 := 0, dr1 := 0, dr2 := 0, dr3 := 0, dr6 := 0, dr7 }
    segmentRegs := { cs, ds, es, fs, gs, ss, tr, ldtr }
    gdtr := ⟨gdtrBase, gdtrLimit.toUInt16⟩
    idtr := ⟨idtrBase, idtrLimit.toUInt16⟩
    efer, rip, rflags }

/-- The segment register that the fields describe. -/
def segmentOf (value : VmcsField → UInt64) (seg : Segment) : SegmentRegister :=
  ⟨(value (.guestSelector seg)).toUInt16, (value (.guestAccessRights seg)).toUInt32,
    (value (.guestLimit seg)).toUInt32, value (.guestBase seg)⟩

/-- The registers that the fields and the saved copies describe. -/
def registersOf (value : VmcsField → UInt64) (gprs : GeneralPurposeRegisters) : GuestRegisters where
  gprs := gprs
  controlRegs :=
    { cr0 := value .guestCr0, cr2 := 0, cr3 := value .guestCr3, cr4 := value .guestCr4, cr8 := 0 }
  debugRegs := { dr0 := 0, dr1 := 0, dr2 := 0, dr3 := 0, dr6 := 0, dr7 := value .guestDr7 }
  segmentRegs :=
    { cs := segmentOf value .cs, ds := segmentOf value .ds, es := segmentOf value .es
      fs := segmentOf value .fs, gs := segmentOf value .gs, ss := segmentOf value .ss
      tr := segmentOf value .tr, ldtr := segmentOf value .ldtr }
  gdtr := ⟨value .guestGdtrBase, (value .guestGdtrLimit).toUInt16⟩
  idtr := ⟨value .guestIdtrBase, (value .guestIdtrLimit).toUInt16⟩
  efer := value .guestIa32Efer
  rip := value .guestRip
  rflags := value .guestRflags

section Reads

variable {α : Type} {vmcs : VmcsTable VmcsField} {r : α}

theorem bind_read_eq_ok {field : VmcsField} {k : UInt64 → Except VmcsReadError α}
    (h : (vmcs.read field >>= k) = .ok r) : k (vmcs.value field) = .ok r := by
  cases hread : vmcs.read field with
  | error e =>
    rw [hread] at h
    cases h
  | ok v =>
    rw [hread] at h
    rw [VmcsTable.value_of_read hread]
    exact h

theorem bind_readSegment_eq_ok {seg : Segment} {k : SegmentRegister → Except VmcsReadError α}
    (h : (readSegment vmcs seg >>= k) = .ok r) : k (segmentOf vmcs.value seg) = .ok r := by
  cases hread : readSegment vmcs seg with
  | error e =>
    rw [hread] at h
    cases h
  | ok register =>
    have hregister := bind_read_eq_ok (bind_read_eq_ok (bind_read_eq_ok (bind_read_eq_ok hread)))
    cases hregister
    rw [hread] at h
    exact h

end Reads

theorem VmState.getRegisters_eq_ok {st : VmState} {regs : GuestRegisters}
    (h : st.getRegisters = .ok regs) : regs = registersOf st.vmcs.fields.value st.guest.gprs := by
  unfold getRegisters at h
  iterate 4 replace h := bind_read_eq_ok h
  iterate 8 replace h := bind_readSegment_eq_ok h
  iterate 7 replace h := bind_read_eq_ok h
  cases h
  rfl

/-! ## Writing -/

/-- `fix_cr0` and `fix_cr4` -/
def fixCr (fixed0 fixed1 v : UInt64) : UInt64 :=
  (v ||| fixed0) &&& fixed1

/-- The order in which `set_registers` goes through the segments. -/
def Segment.inWriteOrder : List Segment :=
  [.cs, .ds, .es, .fs, .gs, .ss, .ldtr, .tr]

/-- The writes of `set_registers` that come from the register structure. -/
def registerWrites (machine : Machine) (regs : GuestRegisters) : List (VmcsField × UInt64) :=
  let seg := regs.segmentRegs.get
  [(.guestRsp, regs.gprs.rsp), (.guestRip, regs.rip), (.guestRflags, regs.rflags),
    (.guestCr0, fixCr machine.cr0Fixed0 machine.cr0Fixed1 regs.controlRegs.cr0),
    (.guestCr4, fixCr machine.cr4Fixed0 machine.cr4Fixed1 regs.controlRegs.cr4),
    (.guestCr3, regs.controlRegs.cr3), (.guestDr7, regs.debugRegs.dr7)] ++
  Segment.inWriteOrder.map (fun s => (.guestSelector s, (seg s).selector.toUInt64)) ++
  Segment.inWriteOrder.map (fun s => (.guestBase s, (seg s).base)) ++
  Segment.inWriteOrder.map (fun s => (.guestLimit s, (seg s).limit.toUInt64)) ++
  Segment.inWriteOrder.map (fun s => (.guestAccessRights s, (seg s).accessRights.toUInt64)) ++
  [(.guestGdtrBase, regs.gdtr.base), (.guestIdtrBase, regs.idtr.base),
    (.guestGdtrLimit, regs.gdtr.limit.toUInt64), (.guestIdtrLimit, regs.idtr.limit.toUInt64),
    (.guestIa32Efer, regs.efer)]

/-- The writes of `set_registers` that come from nowhere: these fields are reset. -/
def resetWrites : List (VmcsField × UInt64) :=
  [(.guestIa32SysenterCs, 0), (.guestIa32SysenterEsp, 0), (.guestIa32SysenterEip, 0),
    (.guestIa32Debugctl, 0), (.guestIa32Pat, 0x0007040600070406),
    (.guestInterruptibilityState, 0), (.guestActivityState, 0),
    (.guestPendingDebugExceptions, 0)]

namespace VmcsTable

variable {F : Type} [DecidableEq F]

def writeAll (table : VmcsTable F) : List (F × UInt64) → Except VmcsWriteError Unit × VmcsTable F
  | [] => (.ok (), table)
  | (field, v) :: rest =>
    match table.write field v with
    | (.error e, table) => (.error e, table)
    | (.ok (), table) => table.writeAll rest

theorem write_self {table : VmcsTable F} {field : F} {v : UInt64} (h : table.value field = v) :
    (table.write field v).2 = table := by
  unfold write
  split
  · rfl
  · simp only [setValue, ← h, Function.update_eq_self]

theorem writeAll_value_of_notMem (table : VmcsTable F) {writes : List (F × UInt64)} {field : F}
    (h : field ∉ writes.map Prod.fst) : (table.writeAll writes).2.value field = table.value field := by
  induction writes generalizing table with
  | nil => rfl
  | cons w rest ih =>
    rw [map_cons, mem_cons, not_or] at h
    have hwrite := table.write_value_of_ne w.2 h.1
    rw [writeAll]
    rcases hrun : table.write w.1 w.2 with ⟨e | u, table'⟩
    · rw [hrun] at hwrite
      exact hwrite
    rw [hrun] at hwrite
    dsimp only
    rw [ih table' h.2]
    exact hwrite

end VmcsTable

/-- `set_registers`: the copies change at once, the fields up to the first failure. -/
def VmContext.setRegisters (ctx : VmContext) (regs : GuestRegisters) :
    Except VmcsWriteError Unit × VmContext :=
  let ctx := ctx.setGuest { ctx.state.guest with gprs := regs.gprs }
  let (r, fields) := ctx.state.vmcs.fields.writeAll (registerWrites ctx.machine regs ++ resetWrites)
  (r, ctx.setVmcs { ctx.state.vmcs with fields })

/-! ## The two ioctls -/

/-- Whether the copy from or to userspace, VMPTRLD and VMCLEAR succeed. -/
structure RegsHost where
  copied : Bool := true
  loaded : Bool := true
  cleared : Bool := true

namespace VmContext

/-- `handle_get_regs` -/
def handleGetRegs (ctx : VmContext) (host : RegsHost) : Except Errno GuestRegisters :=
  if !host.loaded || !host.cleared then .error .einval
  else
    match ctx.state.getRegisters with
    | .error _ => .error .einval
    | .ok regs => if !host.copied then .error .efault else .ok regs

/-- `handle_set_regs`; a VMCLEAR that fails comes too late. -/
def handleSetRegs (ctx : VmContext) (regs : GuestRegisters) (host : RegsHost) :
    Except Errno Unit × VmContext :=
  if !host.copied then (.error .efault, ctx)
  else if !host.loaded then (.error .einval, ctx)
  else
    match ctx.setRegisters regs with
    | (.error _, ctx) => (.error .einval, ctx)
    | (.ok (), ctx) => (if !host.cleared then .error .einval else .ok (), ctx)

/-- `Vm::modify_regs` -/
def modifyRegs (ctx : VmContext) (f : GuestRegisters → GuestRegisters) (get set : RegsHost) :
    Except Errno Unit × VmContext :=
  match ctx.handleGetRegs get with
  | .error e => (.error e, ctx)
  | .ok regs => ctx.handleSetRegs (f regs) set

end VmContext

end Bedrock
