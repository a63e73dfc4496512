import Bedrock.Ept.Build
import Bedrock.Support.Walk

/-!
# Page tables in one host memory

The tables of all VMs lie in the memory of one host, and an EPT is the frame of its PML4
together with the frames allocated for it.  A fork reads its parent's tables and writes its
own.  The EPTs in existence stay apart, so what is done to one of them is invisible in the
others, and the tables above the last level grant every access, so that a leaf decides what
its page allows.
-/

namespace Bedrock

open Support EptEntry Tables EptTables EptBuild List Option Function EptPermissions

/-! ## Effective permissions -/

def grants (mem : Tables HostFrame EptEntry) : HostFrame → List Nat → UInt64 → Option UInt64
  | _, [], bits => some bits
  | f, i :: path, bits => (mem f i).target.bind fun g => grants mem g path (bits &&& (mem f i).raw)

namespace EptTables

/-- What the processor allows: the AND over the four levels. -/
def effective (ept : EptTables) (gpa : Nat) : Option EptPermissions :=
  (grants ept.tables ept.pml4 (tablePath gpa ++ [ptIndex gpa]) 0b111).map .fromBits

/-- The tables are exactly those reached from the PML4, and all entries above the last level
grant every access. -/
structure Proper (ept : EptTables) : Prop where
  exact : IsExactTree target ept.tables ept.pml4 3 EPT_FANOUT ept.frames
  granting : ∀ p i e, p.length < 3 → (∀ j ∈ p ++ [i], j < EPT_FANOUT) →
    entryAt target ept.tables ept.pml4 p i = some e → e.isPresent = true →
    e.permissions = .READ_WRITE_EXECUTE

theorem Proper.wf {ept : EptTables} (h : ept.Proper) : ept.Wf :=
  h.exact.toIsTree

end EptTables

theorem EptEntry.raw_of_permissions {e : EptEntry} (h : e.permissions = .READ_WRITE_EXECUTE) :
    e.raw &&& 0b111 = 0b111 :=
  congrArg bits h

theorem grants_of_granting {mem : Tables HostFrame EptEntry} {path : List Nat} {f : HostFrame}
    {bits : UInt64} (hbits : bits &&& 0b111 = bits)
    (hall : ∀ p i r g, path = p ++ i :: r → walk target mem f p = some g →
      (mem g i).isPresent → (mem g i).permissions = .READ_WRITE_EXECUTE) (j : Nat) :
    grants mem f (path ++ [j]) bits = (walk target mem f path).bind fun g =>
      (mem g j).target.map fun _ => bits &&& (mem g j).raw := by
  induction path generalizing f with
  | nil =>
    rw [nil_append, grants, walk_nil, bind_some]
    cases (mem f j).target with
    | none => rfl
    | some g => rfl
  | cons i path ih =>
    rw [cons_append, grants, walk_cons]
    cases htarget : (mem f i).target with
    | none => rfl
    | some g =>
      have hpresent : (mem f i).isPresent := by
        unfold target at htarget
        split at htarget
        · assumption
        · cases htarget
      have hraw := raw_of_permissions (hall [] i path f rfl rfl hpresent)
      have hkept : bits &&& (mem f i).raw = bits := by
        calc bits &&& (mem f i).raw = bits &&& 0b111 &&& (mem f i).raw := by rw [hbits]
          _ = bits &&& ((mem f i).raw &&& 0b111) := by
              rw [UInt64.and_assoc, UInt64.and_comm 0b111]
          _ = bits := by rw [hraw, hbits]
      rw [bind_some, bind_some, hkept]
      refine ih fun p i' r g' hpath hwalk => hall (i :: p) i' r g' (by rw [hpath]; rfl) ?_
      rw [walk_cons, htarget]
      exact hwalk

namespace EptTables

theorem Proper.effective_eq {ept : EptTables} (h : ept.Proper) (gpa : Nat) :
    ept.effective gpa = (ept.lookup gpa).map Prod.snd := by
  have hall : ∀ p i r g, tablePath gpa = p ++ i :: r →
      walk target ept.tables ept.pml4 p = some g →
      (ept.tables g i).isPresent → (ept.tables g i).permissions = .READ_WRITE_EXECUTE := by
    intro p i r g hpath hwalk hpresent
    have hlen : p.length + r.length + 1 = 3 := by
      have := congrArg List.length hpath
      simp only [tablePath_length, length_append, length_cons] at this
      omega
    refine h.granting p i _ (by omega) (fun j hj => tablePath_lt gpa j ?_) ?_ hpresent
    · rw [hpath]
      simp only [mem_append, mem_cons, not_mem_nil, or_false] at hj ⊢
      tauto
    · rw [entryAt, hwalk, Option.map_some]
  rw [effective, grants_of_granting (by decide) hall, lookup, slot, entryAt]
  cases walk target ept.tables ept.pml4 (tablePath gpa) with
  | none => rfl
  | some pt =>
    simp only [Option.bind_some, Option.map_some, leaf, Option.map_map]
    cases (ept.tables pt (ptIndex gpa)).target with
    | none => rfl
    | some frame =>
      simp only [Option.map_some, Function.comp_apply, permissions,
        EptPermissions.fromBits, Option.some.injEq, EptPermissions.mk.injEq]
      rw [UInt64.and_comm 0b111, UInt64.and_assoc, UInt64.and_self]

end EptTables

theorem EptTables.Proper.of_zeroed {mem : Tables HostFrame EptEntry} {pml4 : HostFrame}
    (h : ∀ i, mem pml4 i = .empty) : (⟨pml4, [pml4], mem⟩ : EptTables).Proper := by
  have hunused : ∀ i, (mem pml4 i).target = none := by
    intro i
    rw [h i, target_empty]
  refine ⟨⟨isTree_of_unused hunused 3, nodup_singleton pml4, fun f hf => ?_⟩, ?_⟩
  · rw [mem_singleton.mp hf]
    exact ⟨[], by simp, by simp, rfl⟩
  intro p i e hp _ he hpresent
  cases p with
  | nil =>
    have hentry : mem pml4 i = e := Option.some.inj he
    rw [← hentry, h i] at hpresent
    cases hpresent
  | cons j p =>
    have hnone : entryAt target mem pml4 (j :: p) i = none := by
      rw [entryAt, walk_cons, hunused j]
      rfl
    rw [hnone] at he
    cases he

/-- Writing a leaf. -/
theorem EptTables.Proper.setEntry {ept : EptTables} (h : ept.Proper) {path : List Nat}
    {pt : HostFrame} (hpath : ept.walkTo path = some pt) (hlen : path.length = 3) (i : Nat)
    (e : EptEntry) : (ept.setEntry pt i e).Proper where
  exact := h.exact.write_leaf hpath hlen i e
  granting p j e' hp hlt he' hpresent := by
    refine h.granting p j e' hp hlt ?_ hpresent
    have hwrite := h.wf.entryAt_write_leaf hpath hlen i e (Nat.le_of_lt hp) j
    rw [if_neg] at hwrite
    · exact hwrite.symm.trans he'
    · rintro ⟨rfl, -⟩
      omega

/-! ## Building tables -/

namespace EptBuild

variable {b b' : EptBuild}

/-- What a step of a mapping does: the tables stay proper, and it takes frames from the supply
and writes its own frames and those. -/
structure Extends (b b' : EptBuild) : Prop where
  proper : b'.ept.Proper
  frames : ∀ f ∈ b'.ept.frames, f ∈ b.ept.frames ∨ f ∈ b.free
  free : b'.free <:+ b.free
  outside : ∀ g, g ∉ b.ept.frames → g ∉ b.free → b'.ept.tables g = b.ept.tables g

theorem Extends.refl (h : b.ept.Proper) : Extends b b :=
  ⟨h, fun _ => .inl, suffix_rfl, fun _ _ _ => rfl⟩

theorem Extends.trans {b'' : EptBuild} (h : Extends b b') (h' : Extends b' b'') :
    Extends b b'' := by
  refine ⟨h'.proper, fun f hf => ?_, h'.free.trans h.free, fun g hg hfree => ?_⟩
  · rcases h'.frames f hf with hold | hnew
    · exact h.frames f hold
    · exact .inr (h.free.subset hnew)
  · have hg' : g ∉ b'.ept.frames := fun hcon => (h.frames g hcon).elim hg hfree
    rw [h'.outside g hg' fun hcon => hfree (h.free.subset hcon), h.outside g hg hfree]

theorem Extends.of_leaf (h : b.ept.Proper) {path : List Nat} {pt : HostFrame}
    (hpath : b.ept.walkTo path = some pt) (hlen : path.length = 3) (i : Nat) (e : EptEntry) :
    Extends b { b with ept := b.ept.setEntry pt i e } := by
  refine ⟨h.setEntry hpath hlen i e, fun _ => .inl, suffix_rfl, fun g hg _ => ?_⟩
  have hne : g ≠ pt := by
    rintro rfl
    exact hg (h.wf.reach (by omega) hpath)
  funext j
  exact write_of_ne _ _ _ _ (.inl hne)

theorem Extends.of_remap {ept ept' : EptTables} {gpa : Nat} {frame : HostFrame}
    {perms : EptPermissions} {free : List HostFrame} (h : ept.Proper)
    (hok : ept.remap4k gpa frame perms = .ok ept') : Extends ⟨ept, free⟩ ⟨ept', free⟩ := by
  unfold remap4k at hok
  split at hok
  · cases hok
  rename_i pt hpt
  split at hok
  · cases hok
    exact .of_leaf (b := ⟨ept, free⟩) h hpt rfl _ _
  · cases hok

theorem ensureTable_extends (h : b.Ok) (hproper : b.ept.Proper) {q : List Nat} {table : HostFrame}
    (hq : b.ept.walkTo q = some table) (hlen : q.length < 3) {i : Nat}
    (hlt : ∀ j ∈ q ++ [i], j < EPT_FANOUT) {r : Except AllocError HostFrame}
    (hrun : ensureTable table i .READ_WRITE_EXECUTE b = (r, b')) : Extends b b' := by
  obtain ⟨rfl, -⟩ | ⟨new, free, hfree, rfl, hlink, rfl⟩ :=
    ensureTable_cases h (by decide) hq hlen hrun
  · exact .refl hproper
  refine ⟨⟨hproper.exact.link hlink hlt, ?_⟩, ?_, ?_, ?_⟩
  · intro p j e hp hplt he hpresent
    simp only [hproper.wf.entryAt_link hlink (Nat.le_of_lt hp)] at he
    split_ifs at he
    · cases he
      cases hpresent
    · cases he
      exact permissions_tableEntry new _
    · exact hproper.granting p j e hp hplt he hpresent
  · intro f hf
    rcases mem_cons.mp hf with rfl | hold
    · exact .inr (by simp [hfree])
    · exact .inl hold
  · rw [hfree]
    exact suffix_cons new free
  · intro g hg hgfree
    have hgnew : g ≠ new := by
      rintro rfl
      exact hgfree (by simp [hfree])
    have hgtable : g ≠ table := by
      rintro rfl
      exact hg (h.wf.reach (by omega) hq)
    funext j
    exact (write_of_ne _ _ _ _ (.inl hgtable)).trans (fill_of_ne _ _ _ hgnew)

theorem map4k_extends (h : b.Ok) (hproper : b.ept.Proper) {gpa : Nat} {frame : HostFrame}
    {r : Except AllocError Unit}
    (hrun : map4k gpa frame .READ_WRITE_EXECUTE b = (r, b')) : Extends b b' := by
  have hensure {a a' : EptBuild} {q : List Nat} {i : Nat} {table : HostFrame}
      {r : Except AllocError HostFrame} (hI : a.Ok ∧ Extends b a)
      (hq : a.ept.walkTo q = some table) (hlen : q.length < 3)
      (hpath : ∃ rest, tablePath gpa = q ++ i :: rest)
      (hrun : ensureTable table i .READ_WRITE_EXECUTE a = (r, a')) :
      (a'.Ok ∧ Extends b a') ∧ ∀ frame, r = .ok frame → a'.ept.walkTo (q ++ [i]) = some frame := by
    obtain ⟨rest, hpath⟩ := hpath
    have hlt : ∀ j ∈ q ++ [i], j < EPT_FANOUT := by
      intro j hj
      refine tablePath_lt gpa j ?_
      rw [hpath]
      simp only [mem_append, mem_cons, not_mem_nil, or_false] at hj ⊢
      tauto
    obtain ⟨hk, hframe⟩ := ensureTable_spec hI.1 (by decide) hq hlen hrun
    exact ⟨⟨hk.ok, hI.2.trans (ensureTable_extends hI.1 hI.2.proper hq hlen hlt hrun)⟩, hframe⟩
  obtain ⟨e, rfl, -, hx⟩ | ⟨a, pt, rfl, ⟨-, hx⟩, hpath, rfl⟩ :=
    map4k_cases ⟨h, .refl hproper⟩ hensure hrun
  · exact hx
  · exact hx.trans (.of_leaf hx.proper hpath rfl _ _)

end EptBuild

/-! ## The EPTs of one host -/

/-- An `EptPageTable`: the frame of the PML4 and all frames allocated for it. -/
structure EptHandle where
  pml4 : HostFrame
  frames : List HostFrame
  deriving DecidableEq

/-- The host memory that holds tables, and the EPTs in it in the order of their creation. -/
structure EptHeap where
  mem : Tables HostFrame EptEntry
  epts : List EptHandle

/-- A call that creates, changes or clones an EPT.  The frames are those the allocator will
hand out during the call; it fails once they are used up. -/
inductive EptHeapOp
  | new (supply : List HostFrame)
  | map4k (k gpa : Nat) (frame : HostFrame) (supply : List HostFrame)
  | remap4k (k gpa : Nat) (frame : HostFrame) (perms : EptPermissions)
  | cloneForFork (k : Nat) (supply : List HostFrame)

inductive EptHeapError
  | alloc (e : AllocError)
  | remap (e : EptRemapError)
  | noEpt
  deriving DecidableEq, Repr

namespace EptHeap

def view (s : EptHeap) (ept : EptHandle) : EptTables :=
  ⟨ept.pml4, ept.frames, s.mem⟩

/-- The EPT at `k` after a call that changed its tables. -/
def replace (s : EptHeap) (k : Nat) (ept : EptTables) : EptHeap :=
  ⟨ept.tables, s.epts.set k ⟨ept.pml4, ept.frames⟩⟩

/-- `EptPageTable::new` -/
def new (s : EptHeap) : List HostFrame → Except EptHeapError Unit × EptHeap
  | [] => (.error (.alloc .outOfFrames), s)
  | pml4 :: _ => (.ok (), ⟨s.mem.fill pml4 .empty, s.epts ++ [⟨pml4, [pml4]⟩]⟩)

/-- `map_4k` with every permission, as `RootVm::new` calls it. -/
def map4k (s : EptHeap) (k gpa : Nat) (frame : HostFrame) (supply : List HostFrame)
    (ept : EptHandle) : Except EptHeapError Unit × EptHeap :=
  match EptBuild.map4k gpa frame .READ_WRITE_EXECUTE ⟨s.view ept, supply⟩ with
  | (.ok _, b) => (.ok (), s.replace k b.ept)
  | (.error e, b) => (.error (.alloc e), s.replace k b.ept)

/-- `remap_4k` -/
def remap4k (s : EptHeap) (k gpa : Nat) (frame : HostFrame) (perms : EptPermissions)
    (ept : EptHandle) : Except EptHeapError Unit × EptHeap :=
  match (s.view ept).remap4k gpa frame perms with
  | .ok tables => (.ok (), s.replace k tables)
  | .error e => (.error (.remap e), s)

/-- The nested loops of `clone_for_fork`. -/
def copyForFork (src dst : HostFrame) : Program AllocError (CopyState HostFrame EptEntry) Unit :=
  copyInPlace target forkLeaf forkTable .empty EPT_FANOUT .outOfFrames
    3 src dst

/-- `clone_for_fork`.  When the frames run out, those taken are freed, with what was written
to them. -/
def cloneForFork (s : EptHeap) (ept : EptHandle) :
    List HostFrame → Except EptHeapError Unit × EptHeap
  | [] => (.error (.alloc .outOfFrames), s)
  | pml4 :: free =>
    match copyForFork ept.pml4 pml4 ⟨s.mem.fill pml4 .empty, free⟩ with
    | (.ok _, st) =>
      (.ok (), ⟨st.mem, s.epts ++ [⟨pml4, pml4 :: free.take (free.length - st.free.length)⟩]⟩)
    | (.error e, st) => (.error (.alloc e), { s with mem := st.mem })

/-- The frames are distinct and no EPT uses them. -/
structure Fresh (s : EptHeap) (supply : List HostFrame) : Prop where
  nodup : supply.Nodup
  unused : ∀ f ∈ supply, ∀ ept ∈ s.epts, f ∉ ept.frames

end EptHeap

namespace EptHeapOp

def apply (op : EptHeapOp) (s : EptHeap) : Except EptHeapError Unit × EptHeap :=
  match op with
  | new supply => s.new supply
  | map4k k gpa frame supply =>
    match s.epts[k]? with
    | none => (.error .noEpt, s)
    | some ept => s.map4k k gpa frame supply ept
  | remap4k k gpa frame perms =>
    match s.epts[k]? with
    | none => (.error .noEpt, s)
    | some ept => s.remap4k k gpa frame perms ept
  | cloneForFork k supply =>
    match s.epts[k]? with
    | none => (.error .noEpt, s)
    | some ept => s.cloneForFork ept supply

def supply : EptHeapOp → List HostFrame
  | new supply => supply
  | map4k _ _ _ supply => supply
  | remap4k _ _ _ _ => []
  | cloneForFork _ supply => supply

def target : EptHeapOp → Option Nat
  | new _ => none
  | map4k k _ _ _ => some k
  | remap4k k _ _ _ => some k
  | cloneForFork _ _ => none

end EptHeapOp

/-! ### The EPTs stay apart -/

/-- Every EPT is proper, and no two of them share a frame. -/
structure EptHeap.Ok (s : EptHeap) : Prop where
  proper : ∀ ept ∈ s.epts, (s.view ept).Proper
  apart : ∀ (i j : Nat) (a b : EptHandle), i ≠ j → s.epts[i]? = some a → s.epts[j]? = some b →
    a.frames.Disjoint b.frames

/-- The EPT at `i` and its tables are as they were. -/
structure EptHeap.Untouched (s s' : EptHeap) (i : Nat) : Prop where
  handle : s'.epts[i]? = s.epts[i]?
  tables : ∀ ept, s.epts[i]? = some ept → ∀ f ∈ ept.frames, s'.mem f = s.mem f

namespace EptHeap

variable {s s' : EptHeap}

theorem Untouched.refl (s : EptHeap) (i : Nat) : Untouched s s i :=
  ⟨rfl, fun _ _ _ _ => rfl⟩

theorem Untouched.trans {s'' : EptHeap} {i : Nat} (h : Untouched s s' i) (h' : Untouched s' s'' i) :
    Untouched s s'' i := by
  refine ⟨h'.handle.trans h.handle, fun ept hept f hf => ?_⟩
  rw [h'.tables ept (h.handle.trans hept) f hf, h.tables ept hept f hf]

variable {ept : EptHandle} {supply : List HostFrame} {mem : Tables HostFrame EptEntry}
  {free : List HostFrame} {pml4 : HostFrame} {parent : EptHandle}

theorem proper_of_agree (h : (s.view ept).Proper)
    (hsame : ∀ f ∈ ept.frames, s'.mem f = s.mem f) : (s'.view ept).Proper where
  exact := h.exact.of_agree hsame
  granting p i e hp hlt he := by
    refine h.granting p i e hp hlt ?_
    rw [← h.wf.entryAt_of_agree hsame (by omega)]
    exact he

theorem lookup_of_agree (h : (s.view ept).Proper)
    (hsame : ∀ f ∈ ept.frames, s'.mem f = s.mem f) (g : Nat) :
    (s'.view ept).lookup g = (s.view ept).lookup g := by
  have hlen : (tablePath g).length ≤ 3 := Nat.le_refl 3
  exact congrArg (Option.bind · leaf) (h.wf.entryAt_of_agree hsame hlen (ptIndex g))

theorem Ok.of_outside (h : s.Ok)
    (hfresh : s.Fresh supply) (hsame : ∀ f, f ∉ supply → mem f = s.mem f) :
    Ok { s with mem } ∧ ∀ i, Untouched s { s with mem } i := by
  have hagree : ∀ ept ∈ s.epts, ∀ f ∈ ept.frames, mem f = s.mem f :=
    fun ept hept f hf => hsame f fun hcon => hfresh.unused f hcon ept hept hf
  refine ⟨⟨fun ept hept => proper_of_agree (h.proper ept hept) (hagree ept hept), h.apart⟩,
    fun i => ⟨rfl, fun ept hept => hagree ept (mem_of_getElem? hept)⟩⟩

theorem Ok.of_added (h : s.Ok)
    (hfresh : s.Fresh supply) (hsame : ∀ f, f ∉ supply → mem f = s.mem f) {child : EptHandle}
    (hframes : child.frames ⊆ supply)
    (hproper : (⟨child.pml4, child.frames, mem⟩ : EptTables).Proper) :
    Ok ⟨mem, s.epts ++ [child]⟩ ∧ ∀ i < s.epts.length, Untouched s ⟨mem, s.epts ++ [child]⟩ i := by
  obtain ⟨hok, huntouched⟩ := h.of_outside hfresh hsame
  have hold : ∀ i < s.epts.length, (s.epts ++ [child])[i]? = s.epts[i]? :=
    fun i hi => List.getElem?_append_left hi
  have hapart : ∀ (i : Nat) (a : EptHandle), s.epts[i]? = some a →
      a.frames.Disjoint child.frames := by
    intro i a ha f hf hcon
    exact hfresh.unused f (hframes hcon) a (mem_of_getElem? ha) hf
  -- an index of the longer list is an old one or that of the child
  have hcases : ∀ i a, (s.epts ++ [child])[i]? = some a →
      s.epts[i]? = some a ∨ i = s.epts.length ∧ a = child := by
    intro i a ha
    rcases Nat.lt_or_ge i s.epts.length with hi | hi
    · exact .inl ((hold i hi).symm.trans ha)
    right
    rw [List.getElem?_append_right hi] at ha
    have hzero : i - s.epts.length = 0 := by
      by_contra hne
      rw [List.getElem?_singleton, if_neg hne] at ha
      cases ha
    rw [hzero] at ha
    exact ⟨by omega, (Option.some.inj ha).symm⟩
  refine ⟨⟨?_, ?_⟩, fun i hi => ⟨hold i hi, (huntouched i).tables⟩⟩
  · intro ept hept
    rcases mem_append.mp hept with hmem | hmem
    · exact hok.proper ept hmem
    · rw [mem_singleton.mp hmem]
      exact hproper
  intro i j a b hij ha hb
  rcases hcases i a ha with hai | ⟨hi, rfl⟩
  · rcases hcases j b hb with hbj | ⟨hj, rfl⟩
    · exact h.apart i j a b hij hai hbj
    · exact hapart i a hai
  · rcases hcases j b hb with hbj | ⟨hj, rfl⟩
    · exact fun f hf hf' => hapart j b hbj hf' hf
    · exact absurd (hi.trans hj.symm) hij

theorem Ok.of_replaced (h : s.Ok) {k : Nat} (hk : s.epts[k]? = some ept)
    (hfresh : s.Fresh supply) {b : EptBuild} (hextends : Extends ⟨s.view ept, supply⟩ b) :
    (s.replace k b.ept).Ok ∧ ∀ i, i ≠ k → Untouched s (s.replace k b.ept) i := by
  have hother : ∀ i, i ≠ k → ∀ a, s.epts[i]? = some a → ∀ f ∈ a.frames,
      b.ept.tables f = s.mem f := by
    intro i hi a ha f hf
    refine hextends.outside f ?_ fun hcon => hfresh.unused f hcon a (mem_of_getElem? ha) hf
    exact fun hcon => h.apart i k a ept hi ha hk hf hcon
  have hget : ∀ i a, (s.replace k b.ept).epts[i]? = some a →
      i ≠ k ∧ s.epts[i]? = some a ∨ i = k ∧ a = ⟨b.ept.pml4, b.ept.frames⟩ := by
    intro i a ha
    rw [replace, List.getElem?_set] at ha
    by_cases hik : k = i
    · rw [if_pos hik] at ha
      split at ha
      · exact .inr ⟨hik.symm, (Option.some.inj ha).symm⟩
      · cases ha
    · rw [if_neg hik] at ha
      exact .inl ⟨Ne.symm hik, ha⟩
  have hapart : ∀ i a, i ≠ k → s.epts[i]? = some a → a.frames.Disjoint b.ept.frames := by
    intro i a hi ha f hf hcon
    rcases hextends.frames f hcon with hown | hnew
    · exact h.apart i k a ept hi ha hk hf hown
    · exact hfresh.unused f hnew a (mem_of_getElem? ha) hf
  refine ⟨⟨?_, ?_⟩, fun i hi => ⟨?_, hother i hi⟩⟩
  · intro a ha
    obtain ⟨i, ha⟩ := mem_iff_getElem?.mp ha
    rcases hget i a ha with ⟨hi, hold⟩ | ⟨-, rfl⟩
    · exact proper_of_agree (h.proper a (mem_of_getElem? hold)) (hother i hi a hold)
    · exact hextends.proper
  · intro i j a a' hij ha ha'
    rcases hget i a ha with ⟨hi, ha⟩ | ⟨hi, rfl⟩
    · rcases hget j a' ha' with ⟨hj, ha'⟩ | ⟨hj, rfl⟩
      · exact h.apart i j a a' hij ha ha'
      · exact hapart i a hi ha
    · rcases hget j a' ha' with ⟨hj, ha'⟩ | ⟨hj, rfl⟩
      · exact fun f hf hf' => hapart j a' hj ha' hf' hf
      · exact absurd (hi.trans hj.symm) hij
  · rw [replace, List.getElem?_set_ne (Ne.symm hi)]

/-! ### Cloning -/

/-- What a successful clone is. -/
structure Cloned (s : EptHeap) (parent : EptHandle) (s' : EptHeap) (child : EptHandle) : Prop where
  epts : s'.epts = s.epts ++ [child]
  lookup : ∀ g, (s'.view child).lookup g =
    ((s.view parent).lookup g).map fun m => (m.1, READ_EXECUTE)
  length : child.frames.length = parent.frames.length

theorem proper_of_copied {src : Tables HostFrame EptEntry} {d : HostFrame}
    {frames taken : List HostFrame}
    {st : CopyState HostFrame EptEntry} (hproper : (⟨pml4, frames, src⟩ : EptTables).Proper)
    (hnodup : (d :: free).Nodup)
    (hcopied : Copied target forkLeaf .empty EPT_FANOUT src 3 (· < EPT_FANOUT)
      pml4 d ⟨mem, free⟩ st taken)
    (htables : CopiedTables target forkTable .empty EPT_FANOUT src 3
      (· < EPT_FANOUT) pml4 d st taken) :
    (⟨d, d :: taken, st.mem⟩ : EptTables).Proper := by
  have hfree : free = taken ++ st.free := hcopied.free
  refine ⟨⟨hcopied.tree, ?_, htables.reached⟩, ?_⟩
  · rw [hfree, ← cons_append] at hnodup
    exact (nodup_append.mp hnodup).1
  intro p i e hp hlt he hpresent
  have hinner := htables.inner p i hp hlt fun j hj => hlt j (mem_of_mem_head? hj)
  have hgranting := fun e => hproper.granting p i e hp hlt
  rw [he] at hinner
  dsimp only at hgranting
  generalize entryAt target src pml4 p i = source at hinner hgranting
  cases hinner with
  | some hentry =>
    rcases hentry with ⟨-, rfl⟩ | ⟨hused, new, rfl⟩
    · cases hpresent
    rename_i original
    rw [forkTable, permissions_tableEntry]
    refine hgranting original rfl ?_
    unfold target at hused
    split at hused
    · assumption
    · cases hused

theorem Fresh.unwritten (hfresh : s.Fresh (pml4 :: free))
    (hparent : parent ∈ s.epts) (hproper : (s.view parent).Proper) :
    Unwritten target s.mem 3 parent.pml4 pml4 ⟨s.mem, free⟩ :=
  fun _ f hp hf =>
    ⟨fun hcon => hfresh.unused f hcon parent hparent (hproper.wf.reach hp hf), rfl⟩

theorem cloned_of_copied {taken : List HostFrame} {st : CopyState HostFrame EptEntry}
    (hproper : (⟨parent.pml4, parent.frames, mem⟩ : EptTables).Proper)
    (hsame : ∀ f ∈ parent.frames, mem f = s.mem f) (hnodup : (pml4 :: free).Nodup)
    (hcopied : Copied target forkLeaf .empty EPT_FANOUT mem 3 (· < EPT_FANOUT)
      parent.pml4 pml4 ⟨mem, free⟩ st taken)
    (htables : CopiedTables target forkTable .empty EPT_FANOUT mem 3
      (· < EPT_FANOUT) parent.pml4 pml4 st taken) :
    Cloned s parent ⟨st.mem, s.epts ++ [⟨pml4, pml4 :: taken⟩]⟩ ⟨pml4, pml4 :: taken⟩ := by
  have hcopy := proper_of_copied hproper hnodup hcopied htables
  have hforked : ∀ new e, (target e).isSome →
      (forkTable new e).target = some new :=
    fun new _ he => target_tableEntry (permissions_bits_ne_zero he) new
  have hpaths : ∀ p : List Nat, p.length ≤ 3 → (∀ j ∈ p, j < EPT_FANOUT) →
      (walk target st.mem pml4 p).isSome = (walk target mem parent.pml4 p).isSome :=
    fun _ hp hlt => htables.walk_isSome hforked target_empty hp hlt
  refine ⟨rfl, fun g => ?_, ?_⟩
  · have hlookup := lookup_of_copied hcopied parent.frames (pml4 :: taken) g
    have hbefore : ((⟨mem, s.epts⟩ : EptHeap).view parent).Proper := hproper
    have hparent : (s.view parent).lookup g = ((⟨mem, s.epts⟩ : EptHeap).view parent).lookup g :=
      lookup_of_agree hbefore (fun f hf => (hsame f hf).symm) g
    rw [hparent]
    exact hlookup
  · apply Nat.le_antisymm
    · exact hcopy.exact.length_le hproper.wf fun p hp hlt hsome => hpaths p hp hlt ▸ hsome
    · exact hproper.exact.length_le hcopy.wf fun p hp hlt hsome => (hpaths p hp hlt).symm ▸ hsome

theorem Ok.cloneForFork (h : s.Ok) (hparent : parent ∈ s.epts)
    (hfresh : s.Fresh supply) {r : Except EptHeapError Unit}
    (hrun : s.cloneForFork parent supply = (r, s')) :
    s'.Ok ∧ (∀ i < s.epts.length, Untouched s s' i) ∧
      (r = .ok () → ∃ child, Cloned s parent s' child) := by
  cases supply with
  | nil =>
    cases hrun
    exact ⟨h, fun i _ => .refl s i, nofun⟩
  | cons pml4 free =>
    -- zeroing the new PML4 touches no EPT
    have hfill : ∀ f, f ∉ pml4 :: free → s.mem.fill pml4 .empty f = s.mem f := by
      intro f hf
      funext i
      exact fill_of_ne _ _ _ fun hcon => hf (by simp [hcon])
    obtain ⟨hzeroed, -⟩ := h.of_outside hfresh hfill
    have hproper := hzeroed.proper parent hparent
    have hwithin : WritesWithin pml4 ⟨s.mem.fill pml4 .empty, free⟩
        (copyForFork parent.pml4 pml4 ⟨s.mem.fill pml4 .empty, free⟩).2 :=
      copyInPlace_within _ 3 _ _ _
    have hunwritten : Unwritten target (s.mem.fill pml4 .empty) 3 parent.pml4 pml4
        ⟨s.mem.fill pml4 .empty, free⟩ :=
      Fresh.unwritten (s := { s with mem := s.mem.fill pml4 .empty })
        ⟨hfresh.nodup, hfresh.unused⟩ hparent hproper
    rw [EptHeap.cloneForFork] at hrun
    rcases hcopy : copyForFork parent.pml4 pml4 ⟨s.mem.fill pml4 .empty, free⟩ with ⟨e | u, st⟩
    · rw [hcopy] at hrun hwithin
      cases hrun
      obtain ⟨hok, huntouched⟩ := h.of_outside hfresh fun f hf =>
        (hwithin.mem f hf).trans (hfill f hf)
      exact ⟨hok, fun i _ => huntouched i, nofun⟩
    rw [hcopy] at hrun hwithin
    have hdone : (copyForFork parent.pml4 pml4).done? ⟨s.mem.fill pml4 .empty, free⟩ =
        copyTable target forkLeaf forkTable .empty EPT_FANOUT
          (s.mem.fill pml4 .empty) 3 parent.pml4 pml4 ⟨s.mem.fill pml4 .empty, free⟩ :=
      copyInPlace_done _ hunwritten
    rw [Program.done?, hcopy] at hdone
    obtain ⟨taken, hcopied, htables⟩ := copyTable_copies target_empty
      (fun new e he => target_tableEntry (permissions_bits_ne_zero he) new)
      (nodup_cons.mp hfresh.nodup).2 (nodup_cons.mp hfresh.nodup).1
      (fun _ => fill_self _ _ _ _) hdone.symm
    have hfree : free = taken ++ st.free := hcopied.free
    have htaken : free.take (free.length - st.free.length) = taken := by
      rw [hfree]
      simp
    have hsubset : (⟨pml4, pml4 :: taken⟩ : EptHandle).frames ⊆ pml4 :: free := by
      rw [hfree]
      exact cons_subset_cons pml4 (subset_append_left taken st.free)
    simp only [htaken] at hrun
    cases hrun
    obtain ⟨hok, huntouched⟩ := h.of_added hfresh
      (fun f hf => (hwithin.mem f hf).trans (hfill f hf)) hsubset
      (proper_of_copied hproper hfresh.nodup hcopied htables)
    refine ⟨hok, huntouched, fun _ => ⟨_, cloned_of_copied hproper ?_ hfresh.nodup hcopied
      htables⟩⟩
    intro f hf
    exact hfill f fun hcon => hfresh.unused f hcon parent hparent hf

/-! ### Runs -/

/-- Every call keeps the EPTs apart, and touches only the one it changes. -/
theorem Ok.apply (h : s.Ok) {op : EptHeapOp} (hfresh : s.Fresh op.supply)
    {r : Except EptHeapError Unit} (hrun : op.apply s = (r, s')) :
    s'.Ok ∧ ∀ i < s.epts.length, op.target ≠ some i → Untouched s s' i := by
  cases op with
  | new supply =>
    cases supply with
    | nil =>
      cases hrun
      exact ⟨h, fun i _ _ => .refl s i⟩
    | cons pml4 free =>
      cases hrun
      have hsame : ∀ f, f ∉ pml4 :: free → s.mem.fill pml4 .empty f = s.mem f := by
        intro f hf
        funext i
        exact Tables.fill_of_ne _ _ _ fun hcon => hf (by simp [hcon])
      have hsubset : (⟨pml4, [pml4]⟩ : EptHandle).frames ⊆ pml4 :: free := by
        simp
      obtain ⟨hok, huntouched⟩ := h.of_added hfresh hsame hsubset
        (.of_zeroed fun i => Tables.fill_self _ _ _ i)
      exact ⟨hok, fun i hi _ => huntouched i hi⟩
  | map4k k gpa frame supply =>
    simp only [EptHeapOp.apply] at hrun
    cases hk : s.epts[k]? with
    | none =>
      rw [hk] at hrun
      cases hrun
      exact ⟨h, fun i _ _ => .refl s i⟩
    | some ept =>
      have hept := mem_of_getElem? hk
      have hproper := h.proper ept hept
      have hbuild : EptBuild.Ok ⟨s.view ept, supply⟩ :=
        ⟨hproper.wf, hfresh.nodup, fun f hf => hfresh.unused f hf ept hept⟩
      rcases hmap : EptBuild.map4k gpa frame .READ_WRITE_EXECUTE ⟨s.view ept, supply⟩
        with ⟨result, b⟩
      obtain ⟨hok, huntouched⟩ := h.of_replaced hk hfresh
        (EptBuild.map4k_extends hbuild hproper hmap)
      have hpost : s' = s.replace k b.ept := by
        rw [hk] at hrun
        simp only [EptHeap.map4k, hmap] at hrun
        cases result with
        | ok u =>
          cases hrun
          rfl
        | error e =>
          cases hrun
          rfl
      rw [hpost]
      refine ⟨hok, fun i _ hi => huntouched i ?_⟩
      rintro rfl
      exact hi rfl
  | remap4k k gpa frame perms =>
    simp only [EptHeapOp.apply] at hrun
    cases hk : s.epts[k]? with
    | none =>
      rw [hk] at hrun
      cases hrun
      exact ⟨h, fun i _ _ => .refl s i⟩
    | some ept =>
      rw [hk] at hrun
      simp only [EptHeap.remap4k] at hrun
      cases hremap : (s.view ept).remap4k gpa frame perms with
      | error e =>
        rw [hremap] at hrun
        cases hrun
        exact ⟨h, fun i _ _ => .refl s i⟩
      | ok tables =>
        rw [hremap] at hrun
        cases hrun
        obtain ⟨hok, huntouched⟩ := h.of_replaced (b := ⟨tables, []⟩) hk hfresh
          (.of_remap (h.proper ept (mem_of_getElem? hk)) hremap)
        refine ⟨hok, fun i _ hi => huntouched i ?_⟩
        rintro rfl
        exact hi rfl
  | cloneForFork k supply =>
    simp only [EptHeapOp.apply] at hrun
    cases hk : s.epts[k]? with
    | none =>
      rw [hk] at hrun
      cases hrun
      exact ⟨h, fun i _ _ => .refl s i⟩
    | some parent =>
      rw [hk] at hrun
      obtain ⟨hok, huntouched, -⟩ := h.cloneForFork (mem_of_getElem? hk) hfresh hrun
      exact ⟨hok, fun i hi _ => huntouched i hi⟩

end EptHeap

/-- A call with its result. -/
abbrev EptHeapStep : Type :=
  Transition EptHeap (EptHeapOp × Except EptHeapError Unit)

structure EptHeapStep.Valid (t : EptHeapStep) : Prop where
  fresh : t.pre.Fresh t.label.1.supply
  runs : t.label.1.apply t.pre = (t.label.2, t.post)

/-- A sequence of calls. -/
structure EptHeapRun (s : EptHeap) (ts : List EptHeapStep) (s' : EptHeap) : Prop where
  valid : ∀ t ∈ ts, EptHeapStep.Valid t
  walk : Walk s ts s'

def EptHeap.initial (mem : Tables HostFrame EptEntry) : EptHeap :=
  ⟨mem, []⟩

theorem EptHeap.initial_ok (mem : Tables HostFrame EptEntry) : (initial mem).Ok :=
  ⟨nofun, nofun⟩

theorem EptHeapRun.ok {s s' : EptHeap} {ts : List EptHeapStep} (h : EptHeapRun s ts s')
    (hs : s.Ok) : s'.Ok :=
  (h.walk.invariant (I := EptHeap.Ok)
    (fun t ht hpre => (hpre.apply (h.valid t ht).fresh (h.valid t ht).runs).1) hs).2

/-- A run that does not name an EPT leaves it alone. -/
theorem EptHeapRun.untouched {s s' : EptHeap} {ts : List EptHeapStep} (h : EptHeapRun s ts s')
    (hs : s.Ok) {i : Nat} (hi : i < s.epts.length)
    (hnone : ∀ t ∈ ts, t.label.1.target ≠ some i) : EptHeap.Untouched s s' i := by
  have hstep : ∀ t ∈ ts, t.pre.Ok ∧ EptHeap.Untouched s t.pre i →
      t.post.Ok ∧ EptHeap.Untouched s t.post i := by
    rintro t ht ⟨hok, huntouched⟩
    obtain ⟨hok', hstep⟩ := hok.apply (h.valid t ht).fresh (h.valid t ht).runs
    have hlt : i < t.pre.epts.length := by
      have hget := huntouched.handle
      rw [List.getElem?_eq_getElem hi] at hget
      exact (List.getElem?_eq_some_iff.mp hget).1
    exact ⟨hok', huntouched.trans (hstep i hlt (hnone t ht))⟩
  exact (h.walk.invariant (I := fun u => u.Ok ∧ EptHeap.Untouched s u i) hstep ⟨hs, .refl s i⟩).2.2

/-- A clone maps what its parent maps, read-execute, on as many frames of its own; the parent
is left alone.  From then on neither sees what is done to the other, and in both the leaf of a
page decides what it allows. -/
theorem clone_for_fork_isolated {mem : Tables HostFrame EptEntry} {ts : List EptHeapStep}
    {s s' : EptHeap} (h : EptHeapRun (.initial mem) ts s) {k : Nat} {parent : EptHandle}
    (hk : s.epts[k]? = some parent) {supply : List HostFrame} (hfresh : s.Fresh supply)
    (hclone : (EptHeapOp.cloneForFork k supply).apply s = (.ok (), s')) :
    ∃ child, s'.epts = s.epts ++ [child] ∧
      (∀ g, (s'.view child).lookup g =
        ((s.view parent).lookup g).map fun m => (m.1, EptPermissions.READ_EXECUTE)) ∧
      (∀ g, (s'.view parent).lookup g = (s.view parent).lookup g) ∧
      parent.frames.Disjoint child.frames ∧ child.frames.length = parent.frames.length ∧
      ∀ us s'', EptHeapRun s' us s'' →
        (∀ ept ∈ s''.epts, ∀ g,
          (s''.view ept).effective g = ((s''.view ept).lookup g).map Prod.snd) ∧
        ∀ (i : Nat) ept, s'.epts[i]? = some ept → (∀ t ∈ us, t.label.1.target ≠ some i) →
          s''.epts[i]? = some ept ∧ ∀ g, (s''.view ept).lookup g = (s'.view ept).lookup g := by
  have hok := h.ok (EptHeap.initial_ok mem)
  have hparent := List.mem_of_getElem? hk
  have hlt : k < s.epts.length := (List.getElem?_eq_some_iff.mp hk).1
  have hrun : s.cloneForFork parent supply = (.ok (), s') := by
    simpa only [EptHeapOp.apply, hk] using hclone
  obtain ⟨hok', huntouched, hcloned⟩ := hok.cloneForFork hparent hfresh hrun
  obtain ⟨child, hcloned⟩ := hcloned rfl
  have hchild : s'.epts[s.epts.length]? = some child := by
    rw [hcloned.epts]
    simp
  have hk' : s'.epts[k]? = some parent := by rw [(huntouched k hlt).handle, hk]
  refine ⟨child, hcloned.epts, hcloned.lookup, fun g => ?_, ?_, hcloned.length,
    fun us s'' hrun' => ?_⟩
  · exact EptHeap.lookup_of_agree (hok.proper parent hparent) ((huntouched k hlt).tables parent hk) g
  · exact hok'.apart k s.epts.length parent child (by omega) hk' hchild
  have hok'' := hrun'.ok hok'
  refine ⟨fun ept hept g => (hok''.proper ept hept).effective_eq g, fun i ept hi hnone => ?_⟩
  have hlater := hrun'.untouched hok' (List.getElem?_eq_some_iff.mp hi).1 hnone
  refine ⟨hlater.handle.trans hi, fun g => ?_⟩
  exact EptHeap.lookup_of_agree (hok'.proper ept (List.mem_of_getElem? hi))
    (hlater.tables ept hi) g

def EptHeapOp.step (op : EptHeapOp) (s : EptHeap) : EptHeapStep :=
  ⟨s, (op, (op.apply s).1), (op.apply s).2⟩

theorem EptHeapOp.step_valid {op : EptHeapOp} {s : EptHeap} (h : s.Fresh op.supply) :
    (op.step s).Valid :=
  ⟨h, rfl⟩

theorem EptHeapOp.apply_of_step {op : EptHeapOp} {s : EptHeap}
    (h : (op.step s).label.2 = .ok ()) : op.apply s = (.ok (), (op.step s).post) :=
  Prod.ext h rfl

/-- One page is mapped and the EPT is cloned. -/
theorem clone_for_fork_isolated_onePage :
    let frame := fun n : UInt64 => (EptEntry.mk (n <<< 12)).addr
    let created := (EptHeapOp.new [frame 1]).step (.initial fun _ _ => .empty)
    let mapped := (EptHeapOp.map4k 0 0x5000 (frame 9) [frame 2, frame 3, frame 4]).step created.post
    let cloned := (EptHeapOp.cloneForFork 0 [frame 5, frame 6, frame 7, frame 8]).step mapped.post
    ∃ child, cloned.post.epts = mapped.post.epts ++ [child] ∧ child.frames.length = 4 ∧
      (cloned.post.view child).lookup 0x5000 = some (frame 9, .READ_EXECUTE) := by
  intro frame created mapped cloned
  have hcreated : created.Valid := EptHeapOp.step_valid ⟨by decide +kernel, nofun⟩
  have hmapped : mapped.Valid := EptHeapOp.step_valid ⟨by decide +kernel, by decide +kernel⟩
  have hrun : EptHeapRun (.initial fun _ _ => .empty) [created, mapped] mapped.post :=
    ⟨List.forall_mem_cons.mpr ⟨hcreated, List.forall_mem_singleton.mpr hmapped⟩, rfl, rfl, rfl⟩
  have hfresh : mapped.post.Fresh [frame 5, frame 6, frame 7, frame 8] :=
    ⟨by decide +kernel, by decide +kernel⟩
  have hresult : cloned.label.2 = .ok () := by decide +kernel
  have hparent : mapped.post.epts[0]? =
      some ⟨frame 1, [frame 4, frame 3, frame 2, frame 1]⟩ := by decide +kernel
  obtain ⟨child, hepts, hlookup, -, -, hlength, -⟩ :=
    clone_for_fork_isolated hrun hparent hfresh (EptHeapOp.apply_of_step hresult)
  refine ⟨child, hepts, hlength, ?_⟩
  rw [hlookup]
  decide +kernel

end Bedrock
