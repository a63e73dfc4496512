import Bedrock.Vm

/-!
# The memory map of a Linux guest

Userspace tells the guest which memory it has by an e820 table in the boot parameters.
The hypervisor maps the memory and leaves out the pages of the interrupt controllers.
Both start from the size of the guest's memory, and only the hypervisor knows of the hole.
-/

namespace Bedrock

open Support List

namespace Boot

def E820_RAM : UInt32 := 1

def E820_RESERVED : UInt32 := 2

structure E820Entry where
  addr : Nat
  size : Nat
  type_ : UInt32
  deriving DecidableEq, Repr

/-- The entries `setup_e820_table` writes. -/
def e820Entries (memorySize : Nat) : List E820Entry :=
  -- conventional memory
  [ { addr := 0, size := 0x9FC00, type_ := E820_RAM },
    -- EBDA
    { addr := 0x9FC00, size := 0x400, type_ := E820_RESERVED },
    -- video memory and ROM
    { addr := 0xA0000, size := 0x60000, type_ := E820_RESERVED },
    { addr := 0x100000, size := memorySize - 0x100000, type_ := E820_RAM }]

namespace E820Entry

def Contains (e : E820Entry) (page : Nat) : Prop :=
  e.addr ≤ page * PAGE_SIZE ∧ page * PAGE_SIZE + PAGE_SIZE ≤ e.addr + e.size

def Avoids (e : E820Entry) (base size : Nat) : Prop :=
  ∀ a, base ≤ a → a < base + size → ¬(e.addr ≤ a ∧ a < e.addr + e.size)

end E820Entry

theorem mem_ram_iff {memorySize : Nat} {e : E820Entry} :
    e ∈ e820Entries memorySize ∧ e.type_ = E820_RAM ↔
      e = ⟨0, 0x9FC00, E820_RAM⟩ ∨ e = ⟨0x100000, memorySize - 0x100000, E820_RAM⟩ := by
  simp only [e820Entries, mem_cons, not_mem_nil, or_false]
  constructor
  · rintro ⟨rfl | rfl | rfl | rfl, hram⟩
    · exact .inl rfl
    · exact absurd hram (by decide)
    · exact absurd hram (by decide)
    · exact .inr rfl
  · rintro (rfl | rfl)
    · exact ⟨.inl rfl, rfl⟩
    · exact ⟨.inr (.inr (.inr rfl)), rfl⟩

/-- What the guest is told agrees with what it has: pages of RAM are mapped, and the
registers of the interrupt controllers are not RAM. -/
structure RamAgrees (memorySize : Nat) (ept : EptPageTable) : Prop where
  mapped : ∀ e ∈ e820Entries memorySize, e.type_ = E820_RAM → ∀ page, e.Contains page →
    (ept.lookup (page * PAGE_SIZE)).isSome = true
  controllers : ∀ e ∈ e820Entries memorySize, e.type_ = E820_RAM →
    e.Avoids APIC_BASE APIC_SIZE ∧ e.Avoids IOAPIC_BASE IOAPIC_SIZE

theorem ram_avoids {memorySize base size : Nat} (h : memorySize ≤ base) (hlow : 0x100000 ≤ base)
    {e : E820Entry} (he : e ∈ e820Entries memorySize ∧ e.type_ = E820_RAM) : e.Avoids base size := by
  rcases mem_ram_iff.mp he with rfl | rfl
  all_goals
    rintro a hbase - ⟨-, hlt⟩
    dsimp only at hlt
    omega

theorem ram_mapped {memory : GuestMemory} (hsize : 0x100000 ≤ memory.size)
    (hlow : memory.size ≤ IOAPIC_BASE) {e : E820Entry}
    (he : e ∈ e820Entries memory.size ∧ e.type_ = E820_RAM) {page : Nat} (hpage : e.Contains page) :
    memory.maps (page * PAGE_SIZE) := by
  have hend : page * PAGE_SIZE + PAGE_SIZE ≤ memory.size := by
    rcases mem_ram_iff.mp he with rfl | rfl
    all_goals
      have := hpage.2
      dsimp only at this
      omega
  have hbase : pageBase (page * PAGE_SIZE) = page * PAGE_SIZE :=
    pageBase_eq_of_div_eq (by simp [PAGE_SIZE])
  have hpositive : 0 < PAGE_SIZE := by decide
  rw [GuestMemory.maps, hbase]
  refine ⟨by omega, ?_, ?_⟩
  · rw [isApicGpa, Bool.and_eq_false_imp]
    intro habove
    rw [decide_eq_true_eq, APIC_BASE] at habove
    rw [IOAPIC_BASE] at hlow
    omega
  · rw [isIoApicGpa, Bool.and_eq_false_imp]
    intro habove
    rw [decide_eq_true_eq] at habove
    omega

/-- The guest's memory map agrees with its EPT exactly if its memory ends before the
registers of the I/O APIC. -/
theorem e820_ram_agrees_iff {memory : GuestMemory} {supply : FrameSupply} {machine : Machine}
    {setup : Except VmStateError Vmcs} {tscFrequency : Nat} {pebsSupported : Bool} {ctx : VmContext}
    (hroot : RootVm.new memory supply machine setup tscFrequency pebsSupported = .ok ctx)
    (hsize : 0x100000 ≤ memory.size) :
    RamAgrees memory.size ctx.state.ept ↔ memory.size ≤ 0xFEC00000 := by
  obtain ⟨-, -, hlookup⟩ := RootVm.new_spec hroot
  constructor
  · intro hagrees
    by_contra hlarge
    -- the first register of the I/O APIC lies in the upper RAM entry
    have hentry : (⟨0x100000, memory.size - 0x100000, E820_RAM⟩ : E820Entry) ∈
        e820Entries memory.size ∧ E820_RAM = E820_RAM := mem_ram_iff.mpr (.inr rfl)
    have havoids := (hagrees.controllers _ hentry.1 rfl).2
    refine havoids IOAPIC_BASE le_rfl (by decide) ?_
    dsimp only [IOAPIC_BASE]
    omega
  · intro hsmall
    refine ⟨fun e he hram page hpage => ?_, fun e he hram => ⟨?_, ?_⟩⟩
    · have hmaps := ram_mapped hsize hsmall ⟨he, hram⟩ hpage
      have hbound : page * PAGE_SIZE < 2 ^ 48 := by
        have hbase : pageBase (page * PAGE_SIZE) = page * PAGE_SIZE :=
          pageBase_eq_of_div_eq (by simp [PAGE_SIZE])
        have hbelow := hmaps.1
        rw [hbase] at hbelow
        omega
      rw [hlookup _ hbound, if_pos hmaps]
      rfl
    · refine ram_avoids ?_ (by decide) ⟨he, hram⟩
      rw [APIC_BASE]
      omega
    · exact ram_avoids hsmall (by decide) ⟨he, hram⟩

theorem exists_rootVm (size : Nat) (h : size ≤ 2 ^ 48) :
    ∃ supply ctx, RootVm.new (zeroRegion size h) supply newVm.machine (.ok newVm.state.vmcs) 0 false =
      .ok ctx := by
  have hpages : 3 * (zeroRegion size h).numPages + 1 ≤ 2 ^ 40 := by
    have : (zeroRegion size h).numPages = (size + 4095) / 4096 := rfl
    omega
  have hframes : 3 * (zeroRegion size h).numPages + 1 ≤ (firstFrames _ hpages).frames.length := by
    simp [firstFrames]
  exact ⟨_, RootVm.new_isOk (fun _ => show (0x100000 : UInt64) ≠ 0 by decide) hframes⟩

/-- A guest with one gigabyte. -/
theorem e820_ram_agrees_gigabyte :
    ∃ supply ctx, RootVm.new (zeroRegion 0x40000000 (by decide)) supply newVm.machine
      (.ok newVm.state.vmcs) 0 false = .ok ctx ∧ RamAgrees 0x40000000 ctx.state.ept := by
  obtain ⟨supply, ctx, hroot⟩ := exists_rootVm 0x40000000 (by decide)
  exact ⟨supply, ctx, hroot, (e820_ram_agrees_iff hroot (by decide)).mpr (by decide)⟩

/-- A guest with the default size of 5120 megabytes is told that the registers of the I/O
APIC are RAM, and the page there is not mapped. -/
theorem default_ram_covers_ioapic :
    ∃ supply ctx, RootVm.new (zeroRegion 0x140000000 (by decide)) supply newVm.machine
      (.ok newVm.state.vmcs) 0 false = .ok ctx ∧
      ∃ e ∈ e820Entries 0x140000000, e.type_ = E820_RAM ∧ e.Contains 0xFEC00 ∧
        ctx.state.ept.lookup (0xFEC00 * PAGE_SIZE) = none := by
  obtain ⟨supply, ctx, hroot⟩ := exists_rootVm 0x140000000 (by decide)
  obtain ⟨-, -, hlookup⟩ := RootVm.new_spec hroot
  have hentry : (⟨0x100000, 0x140000000 - 0x100000, E820_RAM⟩ : E820Entry) ∈
      e820Entries 0x140000000 ∧ E820_RAM = E820_RAM := mem_ram_iff.mpr (.inr rfl)
  refine ⟨supply, ctx, hroot, _, hentry.1, rfl, ⟨by decide, by decide⟩, ?_⟩
  rw [hlookup _ (by decide), if_neg]
  rintro ⟨-, -, hnot⟩
  exact absurd hnot (by decide)

end Boot

end Bedrock
