import Bedrock.EntryEvent

/-!
# Interrupts in service

An injected interrupt is in service until the guest writes the end-of-interrupt register.
That write retires the highest vector in service, while an injection takes the highest
vector requested and does not look at what is in service.
-/

namespace Bedrock

open Support ApicState List

theorem ApicState.writeRegister_eoi (apic : ApicState) (value : UInt32) (tsc : Nat) :
    apic.writeRegister 0x0B0 value tsc =
      match highestVector apic.isr with
      | some vector => { apic with isr := clearVectorBit apic.isr vector }
      | none => apic :=
  rfl

/-- What happens to the interrupts in service. -/
inductive ServiceOp
  | inject (vector : UInt8)
  | write (offset : Nat) (value : UInt32) (tsc : Nat)
deriving DecidableEq, Repr

/-- The local APIC, and the vectors whose handlers have not completed, the latest first. -/
structure Servicing where
  apic : ApicState
  handlers : List Nat

def ServiceOp.apply (s : Servicing) : ServiceOp → Servicing
  | inject vector => ⟨s.apic.acknowledge vector.toUInt32, vector.toNat :: s.handlers⟩
  | write offset value tsc =>
    ⟨s.apic.writeRegister offset value tsc,
      if offset = 0x0B0 then s.handlers.tail else s.handlers⟩

/-- The handlers that have not completed are those of the vectors in service, and each was
interrupted by a higher vector. -/
structure Servicing.Nested (s : Servicing) : Prop where
  serves : ∀ v, vectorBit s.apic.isr v = true ↔ v ∈ s.handlers
  higher : s.handlers.Pairwise (· > ·)

namespace Servicing.Nested

variable {s : Servicing}

theorem inject (h : s.Nested) {vector : UInt8} (hhigher : ∀ v ∈ s.handlers, v < vector.toNat) :
    ((ServiceOp.inject vector).apply s).Nested where
  serves v := by
    have hlt : vector.toUInt32.toNat < 256 := vector.toNat_lt
    unfold ServiceOp.apply acknowledge
    dsimp only
    rw [vectorBit_setVectorBit hlt, Bool.or_eq_true, decide_eq_true_iff, h.serves, mem_cons]
    rfl
  higher := pairwise_cons.mpr ⟨hhigher, h.higher⟩

theorem eoi {v : Nat} {rest : List Nat} (h : s.Nested) (hs : s.handlers = v :: rest)
    (value : UInt32) (tsc u : Nat) :
    vectorBit (s.apic.writeRegister 0x0B0 value tsc).isr u =
      (!decide (u = v) && vectorBit s.apic.isr u) := by
  have hv : vectorBit s.apic.isr v := (h.serves v).mpr (hs ▸ mem_cons_self)
  rw [writeRegister_eoi]
  cases hhighest : highestVector s.apic.isr with
  | none =>
    rw [highestVector_eq_none hhighest v] at hv
    cases hv
  | some vector =>
    obtain ⟨⟨hserved, hgreatest⟩, hlt⟩ := highestVector_spec hhighest
    have hlatest : vector.toNat = v := by
      have hmem : vector.toNat ∈ v :: rest := hs ▸ (h.serves _).mp hserved
      rcases mem_cons.mp hmem with heq | hmem
      · exact heq
      · have hbelow := (pairwise_cons.mp (hs ▸ h.higher)).1 _ hmem
        exact absurd (hgreatest hv) (Nat.not_le.mpr hbelow)
    rw [← hlatest]
    exact vectorBit_clearVectorBit hlt u

theorem write (h : s.Nested) (offset : Nat) (value : UInt32) (tsc : Nat) :
    ((ServiceOp.write offset value tsc).apply s).Nested := by
  unfold ServiceOp.apply
  dsimp only
  by_cases hoffset : offset = 0x0B0
  · subst hoffset
    rw [if_pos rfl]
    cases hs : s.handlers with
    | nil =>
      have hnone : highestVector s.apic.isr = none := by
        by_contra hsome
        obtain ⟨vector, hsome⟩ := Option.ne_none_iff_exists'.mp hsome
        have hmem := (h.serves _).mp (highestVector_spec hsome).1.1
        rw [hs] at hmem
        cases hmem
      have hserves := h.serves
      rw [hs] at hserves
      rw [writeRegister_eoi, hnone]
      exact ⟨hserves, .nil⟩
    | cons v rest =>
      obtain ⟨hbelow, hrest⟩ := pairwise_cons.mp (hs ▸ h.higher)
      refine ⟨fun u => ?_, hrest⟩
      rw [h.eoi hs, Bool.and_eq_true, h.serves, hs]
      constructor
      · rintro ⟨hne, hmem⟩
        exact (mem_cons.mp hmem).resolve_left (by simpa using hne)
      intro hmem
      have := hbelow u hmem
      exact ⟨by simp; omega, mem_cons_of_mem v hmem⟩
  · rw [if_neg hoffset]
    have hsame : (s.apic.writeRegister offset value tsc).isr = s.apic.isr := by
      unfold writeRegister
      split
      case h_16 => split <;> rfl
      all_goals first | rfl | contradiction
    exact ⟨fun u => by rw [hsame]; exact h.serves u, h.higher⟩

end Servicing.Nested

/-- An injection interrupts only handlers of lower vectors. -/
def ServiceOp.Nests (s : Servicing) : ServiceOp → Prop
  | inject vector => ∀ v ∈ s.handlers, v < vector.toNat
  | write .. => True

/-- An EOI write clears exactly the bit of the vector injected last. -/
def ServiceOp.Retires (s after : Servicing) : ServiceOp → Prop
  | inject _ => True
  | write offset _ _ => offset = 0x0B0 → ∀ v rest, s.handlers = v :: rest →
    vectorBit s.apic.isr v = true ∧
      ∀ u, vectorBit after.apic.isr u = (!decide (u = v) && vectorBit s.apic.isr u)

/-- As long as handlers are interrupted by higher vectors only, each EOI write retires the
vector that was injected last. -/
theorem eoi_retires_latest {s s' : Servicing} {ts : List (Transition Servicing ServiceOp)}
    (hwalk : Walk s ts s') (happly : ∀ t ∈ ts, t.post = t.label.apply t.pre)
    (hnone : ∀ v, vectorBit s.apic.isr v = false) (hidle : s.handlers = [])
    (hnests : ∀ t ∈ ts, t.label.Nests t.pre) : ∀ t ∈ ts, t.label.Retires t.pre t.post := by
  have hstart : s.Nested := ⟨fun v => by simp [hnone, hidle], hidle ▸ .nil⟩
  have hstep : ∀ t ∈ ts, t.pre.Nested → t.post.Nested := by
    intro t ht hpre
    have hnest := hnests t ht
    rw [happly t ht]
    cases hop : t.label with
    | inject vector => exact hpre.inject (by rwa [hop] at hnest)
    | write offset value tsc => exact hpre.write offset value tsc
  intro t ht
  have hpre := ((hwalk.invariant hstep hstart).1 t ht).1
  rw [happly t ht]
  cases t.label with
  | inject vector => trivial
  | write offset value tsc =>
    rintro rfl v rest hs
    exact ⟨(hpre.serves v).mpr (hs ▸ List.mem_cons_self), hpre.eoi hs value tsc⟩

example : ((ServiceOp.inject 0x30).apply ⟨{}, []⟩).handlers = [0x30] := by
  decide +kernel

/-- The timer's handler is interrupted by a higher vector, and completes after it. -/
theorem eoi_retires_latest_nested :
    let s₀ : Servicing := ⟨{}, []⟩
    let s₁ := (ServiceOp.inject 0x30).apply s₀
    let s₂ := (ServiceOp.inject 0x50).apply s₁
    let s₃ := (ServiceOp.write 0x0B0 0 0).apply s₂
    (ServiceOp.write 0x0B0 0 0).Retires s₂ s₃ := by
  intro s₀ s₁ s₂ s₃
  have hwalk : Walk s₀ [⟨s₀, ServiceOp.inject 0x30, s₁⟩, ⟨s₁, .inject 0x50, s₂⟩,
      ⟨s₂, .write 0x0B0 0 0, s₃⟩] s₃ := ⟨rfl, rfl, rfl, rfl⟩
  refine eoi_retires_latest hwalk ?_ ?_ rfl ?_ ⟨s₂, .write 0x0B0 0 0, s₃⟩ (by simp)
  · simp [s₁, s₂, s₃]
  · exact highestVector_eq_none (by decide +kernel)
  · simp [ServiceOp.Nests, s₀, s₁, ServiceOp.apply]

/-- A lower vector that interrupts a handler is not the one its EOI write retires. -/
theorem eoi_retires_interrupted_handler :
    let s := (ServiceOp.inject 0x30).apply ((ServiceOp.inject 0x50).apply ⟨{}, []⟩)
    let after := (ServiceOp.write 0x0B0 0 0).apply s
    s.handlers = [0x30, 0x50] ∧ vectorBit after.apic.isr 0x30 = true ∧
      vectorBit after.apic.isr 0x50 = false := by
  decide +kernel

end Bedrock
