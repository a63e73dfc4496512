import Bedrock.Ept.Build
import Bedrock.Support.Walk

/-!
# An EPT is a finite map

What the four levels of tables are for: a map from guest pages to frames with
permissions.  `map_4k` and `remap_4k` update that map at one page, or leave it alone when
they fail, and `lookup` reads it.
-/

namespace Bedrock

open Support EptBuild EptTables

/-- Where the pages of the guest lie, by page number. -/
def PageMap : Type :=
  Nat → Option (HostFrame × EptPermissions)

namespace PageMap

def empty : PageMap :=
  fun _ => none

def set (m : PageMap) (page : Nat) (mapping : HostFrame × EptPermissions) : PageMap :=
  Function.update m page (some mapping)

theorem set_apply (m : PageMap) (page : Nat) (mapping : HostFrame × EptPermissions) (p : Nat) :
    m.set page mapping p = if p = page then some mapping else m p :=
  Function.update_apply ..

end PageMap

/-- A call on an EPT.  The frames are those the allocator will hand out during the call;
it fails once they are used up. -/
inductive EptOp
  | map4k (gpa : Nat) (frame : HostFrame) (perms : EptPermissions) (supply : List HostFrame)
  | remap4k (gpa : Nat) (frame : HostFrame) (perms : EptPermissions)

inductive EptOpError
  | alloc (e : AllocError)
  | remap (e : EptRemapError)
  deriving DecidableEq, Repr

namespace EptOp

def gpa : EptOp → Nat
  | map4k gpa _ _ _ => gpa
  | remap4k gpa _ _ => gpa

/-- What the call maps its page to. -/
def mapping : EptOp → HostFrame × EptPermissions
  | map4k _ frame perms _ => (frame, perms)
  | remap4k _ frame perms => (frame, perms)

def apply : EptOp → EptTables → Except EptOpError Unit × EptTables
  | map4k gpa frame perms supply, ept =>
    match EptBuild.map4k gpa frame perms ⟨ept, supply⟩ with
    | (.ok _, b) => (.ok (), b.ept)
    | (.error e, b) => (.error (.alloc e), b.ept)
  | remap4k gpa frame perms, ept =>
    match ept.remap4k gpa frame perms with
    | .ok ept' => (.ok (), ept')
    | .error e => (.error (.remap e), ept)

/-- An address within 48 bits, some permission, and an allocator that hands out distinct
frames which the EPT does not use. -/
structure Admissible (op : EptOp) (ept : EptTables) : Prop where
  gpa : op.gpa < 2 ^ 48
  perms : op.mapping.2.bits ≠ 0
  supply : ∀ gpa frame perms supply, op = .map4k gpa frame perms supply →
    supply.Nodup ∧ ∀ f ∈ supply, f ∉ ept.frames

end EptOp

/-- A call with its result. -/
abbrev EptStep : Type :=
  Transition EptTables (EptOp × Except EptOpError Unit)

structure EptStep.Valid (t : EptStep) : Prop where
  admissible : t.label.1.Admissible t.pre
  runs : t.label.1.apply t.pre = (t.label.2, t.post)

/-- A sequence of calls on an EPT that was just created. -/
structure EptRun (ept : EptTables) (ts : List EptStep) (ept' : EptTables) : Prop where
  created : ∃ supply free, supply.Nodup ∧ new supply = .ok ⟨ept, free⟩
  valid : ∀ t ∈ ts, EptStep.Valid t
  walk : Walk ept ts ept'

/-- What a call does to the map: it sets its page if it succeeds. -/
def PageMap.after (m : PageMap) (t : EptStep) : PageMap :=
  match t.label.2 with
  | .ok _ => m.set (t.label.1.gpa / 4096) t.label.1.mapping
  | .error _ => m

variable {t : EptStep} {ept : EptTables}

theorem PageMap.after_ok (m : PageMap) {u : Unit} (h : t.label.2 = .ok u) :
    m.after t = m.set (t.label.1.gpa / 4096) t.label.1.mapping := by
  rw [after, h]

theorem PageMap.after_error (m : PageMap) {e : EptOpError}
    (h : t.label.2 = .error e) : m.after t = m := by
  rw [after, h]

/-- The tables hold the map. -/
structure EptTables.Refines (ept : EptTables) (m : PageMap) : Prop where
  wf : ept.Wf
  lookup : ∀ g < 2 ^ 48, ept.lookup g = m (g / 4096)

/-! ## One call -/

/-- What one call does to the lookups. -/
structure EptStep.Sound (t : EptStep) : Prop where
  wf : t.post.Wf
  success : t.label.2 = .ok () → ∀ g < 2 ^ 48, t.post.lookup g =
    if g / 4096 = t.label.1.gpa / 4096 then some t.label.1.mapping else t.pre.lookup g
  failure : t.label.2 ≠ .ok () → ∀ g, t.post.lookup g = t.pre.lookup g
  notMapped : ∀ gpa frame perms, t.label.1 = .remap4k gpa frame perms →
    (t.label.2 = .error (.remap .notMapped) ↔ t.pre.lookup gpa = none) ∧
    (t.label.2 ≠ .ok () → t.label.2 = .error (.remap .notMapped) ∧ t.post = t.pre)

theorem EptStep.sound_map4k {gpa : Nat} {frame : HostFrame} {perms : EptPermissions}
    {supply : List HostFrame} (h : t.Valid) (hwf : t.pre.Wf)
    (hop : t.label.1 = .map4k gpa frame perms supply) : t.Sound := by
  have hgpa := h.admissible.gpa
  have hperms := h.admissible.perms
  obtain ⟨hnodup, hfresh⟩ := h.admissible.supply _ _ _ _ hop
  have hruns := h.runs
  rw [hop] at hgpa hperms hruns
  have hb : Ok ⟨t.pre, supply⟩ := ⟨hwf, hnodup, hfresh⟩
  rcases hmap : map4k gpa frame perms ⟨t.pre, supply⟩ with ⟨e | u, b⟩
  · obtain ⟨hok, -, hslot⟩ := map4k_spec hb hperms hmap
    simp only [EptOp.apply, hmap, Prod.mk.injEq] at hruns
    obtain ⟨hresult, hpost⟩ := hruns
    refine ⟨hpost ▸ hok.wf, fun hcon => ?_, fun _ g => ?_, fun _ _ _ hcon => ?_⟩
    · rw [← hresult] at hcon
      cases hcon
    · rw [← hpost, lookup, hslot _ _ rfl]
      simp [lookup]
    · rw [hop] at hcon
      cases hcon
  · obtain ⟨hok, -, -⟩ := map4k_spec hb hperms hmap
    simp only [EptOp.apply, hmap, Prod.mk.injEq] at hruns
    obtain ⟨hresult, hpost⟩ := hruns
    refine ⟨hpost ▸ hok.wf, fun _ g hg => ?_, fun hcon => absurd hresult.symm hcon,
      fun _ _ _ hcon => ?_⟩
    · rw [← hpost, hop]
      exact lookup_map4k hb hperms hmap hgpa hg
    · rw [hop] at hcon
      cases hcon

theorem EptStep.sound_remap4k {gpa : Nat} {frame : HostFrame}
    {perms : EptPermissions} (h : t.Valid) (hwf : t.pre.Wf)
    (hop : t.label.1 = .remap4k gpa frame perms) : t.Sound := by
  have hgpa := h.admissible.gpa
  have hperms := h.admissible.perms
  have hruns := h.runs
  rw [hop] at hgpa hperms hruns
  have hmapped := remap4k_isOk_iff t.pre gpa frame perms
  cases hremap : t.pre.remap4k gpa frame perms with
  | ok ept' =>
    simp only [EptOp.apply, hremap, Prod.mk.injEq] at hruns
    obtain ⟨hresult, hpost⟩ := hruns
    have hsome : (t.pre.lookup gpa).isSome := hmapped.mp ⟨ept', hremap⟩
    refine ⟨hpost ▸ remap4k_wf hwf hremap, fun _ g hg => ?_,
      fun hcon => absurd hresult.symm hcon, fun _ _ _ hsame => ?_⟩
    · rw [← hpost, hop]
      exact lookup_remap4k hwf hperms hremap hgpa hg
    rw [hop] at hsame
    cases hsame
    refine ⟨⟨fun hcon => ?_, fun hnone => ?_⟩, fun hcon => absurd hresult.symm hcon⟩
    · rw [← hresult] at hcon
      cases hcon
    · rw [hnone] at hsome
      cases hsome
  | error e =>
    simp only [EptOp.apply, hremap, Prod.mk.injEq] at hruns
    obtain ⟨hresult, hpost⟩ := hruns
    have hnone : t.pre.lookup gpa = none := by
      rw [← Option.not_isSome_iff_eq_none, ← hmapped]
      rintro ⟨ept', hok⟩
      rw [hremap] at hok
      cases hok
    refine ⟨hpost ▸ hwf, fun hcon => ?_, fun _ g => by rw [hpost], fun _ _ _ hsame => ?_⟩
    · rw [← hresult] at hcon
      cases hcon
    rw [hop] at hsame
    cases hsame
    cases e
    exact ⟨⟨fun _ => hnone, fun _ => hresult.symm⟩, fun _ => ⟨hresult.symm, hpost.symm⟩⟩

theorem EptStep.Valid.sound (h : t.Valid) (hwf : t.pre.Wf) : t.Sound := by
  cases hop : t.label.1 with
  | map4k gpa frame perms supply => exact EptStep.sound_map4k h hwf hop
  | remap4k gpa frame perms => exact EptStep.sound_remap4k h hwf hop

/-- The tables keep up with the map. -/
theorem EptTables.Refines.step {m : PageMap} (hvalid : t.Valid)
    (h : t.pre.Refines m) : t.post.Refines (m.after t) := by
  have hsound := hvalid.sound h.wf
  refine ⟨hsound.wf, fun g hg => ?_⟩
  cases hresult : t.label.2 with
  | ok u =>
    rw [hsound.success hresult g hg, PageMap.after_ok m hresult, PageMap.set_apply, h.lookup g hg]
  | error e =>
    rw [hsound.failure (by rw [hresult]; nofun) g, PageMap.after_error m hresult, h.lookup g hg]

theorem EptRun.start {ept' : EptTables} {ts : List EptStep} (h : EptRun ept ts ept') :
    ept.Refines .empty := by
  obtain ⟨supply, free, hnodup, hnew⟩ := h.created
  obtain ⟨hok, hnone⟩ := new_ok hnodup hnew
  exact ⟨hok.wf, fun g _ => hnone g⟩

theorem EptRun.wf {ept' : EptTables} {ts : List EptStep} (h : EptRun ept ts ept') :
    ∀ t ∈ ts, t.pre.Wf := by
  have hstep : ∀ t ∈ ts, t.pre.Wf → t.post.Wf := fun t ht hwf => ((h.valid t ht).sound hwf).wf
  intro t ht
  exact ((h.walk.invariant (I := Wf) hstep h.start.wf).1 t ht).1

/-- An EPT is the finite map of the successful calls: `lookup` finds the last mapping made of
a page, a call changes no other page, `remap_4k` fails exactly on an unmapped page and then
changes nothing, and a `map_4k` whose allocation fails changes no lookup. -/
theorem ept_refines_pageMap {ept ept' : EptTables} {ts : List EptStep} (h : EptRun ept ts ept') :
    (∀ g < 2 ^ 48, ept'.lookup g = ts.foldl PageMap.after .empty (g / 4096)) ∧
      ∀ t ∈ ts,
        (∀ g < 2 ^ 48, g / 4096 ≠ t.label.1.gpa / 4096 → t.post.lookup g = t.pre.lookup g) ∧
        (∀ gpa frame perms, t.label.1 = .remap4k gpa frame perms →
          (t.label.2 = .error (.remap .notMapped) ↔ t.pre.lookup gpa = none) ∧
          (t.label.2 ≠ .ok () → t.label.2 = .error (.remap .notMapped) ∧ t.post = t.pre)) ∧
        (t.label.2 ≠ .ok () → ∀ g, t.post.lookup g = t.pre.lookup g) := by
  constructor
  · have hend := h.walk.folded (I := fun m ept => ept.Refines m)
      (fun t ht m hm => hm.step (h.valid t ht)) h.start
    exact hend.lookup
  intro t ht
  have hsound := (h.valid t ht).sound (h.wf t ht)
  refine ⟨fun g hg hne => ?_, hsound.notMapped, hsound.failure⟩
  by_cases hresult : t.label.2 = .ok ()
  · rw [hsound.success hresult g hg, if_neg hne]
  · exact hsound.failure hresult g

def EptOp.step (op : EptOp) (ept : EptTables) : EptStep :=
  ⟨ept, (op, (op.apply ept).1), (op.apply ept).2⟩

theorem EptOp.step_valid {op : EptOp} (h : op.Admissible ept) : (op.step ept).Valid :=
  ⟨h, rfl⟩

/-- Page 5 is mapped and remapped; in between the allocator fails on the way to another
page. -/
theorem ept_refines_pageMap_remapped :
    let frame := fun n : UInt64 => (EptEntry.mk (n <<< 12)).addr
    let ept : EptTables := ⟨frame 1, [frame 1], fun _ _ => .empty⟩
    let first := (EptOp.map4k 0x5000 (frame 9) .READ_WRITE_EXECUTE
      [frame 2, frame 3, frame 4]).step ept
    let second := (EptOp.map4k (2 ^ 39) (frame 10) .READ_WRITE_EXECUTE [frame 5]).step first.post
    let third := (EptOp.remap4k 0x5000 (frame 11) .READ_EXECUTE).step second.post
    second.label.2 = .error (.alloc .outOfFrames) ∧
      third.post.lookup 0x5ABC = some (frame 11, .READ_EXECUTE) ∧
      third.post.lookup (2 ^ 39) = none := by
  intro frame ept first second third
  have hfirst : first.Valid := by
    refine EptOp.step_valid ⟨by decide, by decide, ?_⟩
    rintro _ _ _ _ ⟨⟩
    decide +kernel
  have hsecond : second.Valid := by
    refine EptOp.step_valid ⟨by decide, by decide, ?_⟩
    rintro _ _ _ _ ⟨⟩
    decide +kernel
  have hthird : third.Valid := by
    refine EptOp.step_valid ⟨by decide, by decide, ?_⟩
    rintro _ _ _ _ ⟨⟩
  have hvalid : ∀ t ∈ [first, second, third], EptStep.Valid t :=
    List.forall_mem_cons.mpr ⟨hfirst, List.forall_mem_cons.mpr ⟨hsecond,
      List.forall_mem_singleton.mpr hthird⟩⟩
  have hrun : EptRun ept [first, second, third] third.post :=
    ⟨⟨[frame 1], [], by simp, rfl⟩, hvalid, rfl, rfl, rfl, rfl⟩
  have hmap := (ept_refines_pageMap hrun).1
  refine ⟨by decide +kernel, ?_, ?_⟩
  all_goals
    rw [hmap _ (by decide)]
    decide +kernel

end Bedrock
