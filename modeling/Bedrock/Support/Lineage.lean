import Mathlib.Tactic.Common

/-!
# Forests of nodes that refer to their parents

Nodes are numbered in the order of their creation and refer to their parent by
number.  The lineage of a node is the list of values from the node up to its root.
A node that has no live child can be changed without changing the lineage of any
other live node.
-/

namespace Support

structure Node (α : Type) where
  value : α
  parent : Option Nat
  live : Bool := true

/-- Nodes with the newest first; the number of a node is how many are older. -/
abbrev Forest (α : Type) : Type :=
  List (Node α)

namespace Forest

variable {α : Type}

def node? : Forest α → Nat → Option (Node α)
  | [], _ => none
  | n :: older, k => if k = older.length then some n else node? older k

/-- Values from node `k` up to its root. -/
def lineage : Forest α → Nat → List α
  | [], _ => []
  | n :: older, k =>
    if k = older.length then
      n.value :: match n.parent with
        | none => []
        | some p => lineage older p
    else lineage older k

def update (f : Node α → Node α) : Forest α → Nat → Forest α
  | [], _ => []
  | n :: older, k => if k = older.length then f n :: older else n :: update f older k

def isLive (t : Forest α) (k : Nat) : Bool :=
  (t.node? k).any Node.live

def hasLiveChild (t : Forest α) (k : Nat) : Bool :=
  t.any fun n => n.live && n.parent == some k

/-- Parents are older than their children, and parents of live nodes are live. -/
def Wf : Forest α → Prop
  | [] => True
  | n :: older =>
    (∀ p, n.parent = some p → p < older.length ∧ (n.live = true → isLive older p = true)) ∧
      Wf older

variable {t older : Forest α} {n : Node α} {f : Node α → Node α} {j k : Nat}

@[simp] theorem length_update (t : Forest α) (k : Nat) : (t.update f k).length = t.length := by
  induction t with
  | nil => rfl
  | cons n older ih =>
    unfold update
    split
    · rfl
    · simp [ih]

theorem lt_length_of_node? (h : t.node? k = some n) : k < t.length := by
  induction t with
  | nil => cases h
  | cons m older ih =>
    unfold node? at h
    split at h
    · rename_i hk
      simp [hk]
    have := ih h
    simp only [List.length_cons]
    omega

theorem lt_length_of_isLive (h : t.isLive k) : k < t.length := by
  unfold isLive at h
  cases hnode : t.node? k with
  | none =>
    rw [hnode] at h
    cases h
  | some n => exact lt_length_of_node? hnode

theorem hasLiveChild_cons (h : hasLiveChild (n :: older) k = false) :
    hasLiveChild older k = false ∧ (n.live → n.parent ≠ some k) := by
  simp only [hasLiveChild, List.any_cons, Bool.or_eq_false_iff, Bool.and_eq_false_iff] at h
  refine ⟨h.2, fun hlive hparent => ?_⟩
  rcases h.1 with hdead | hother
  · rw [hlive] at hdead
    cases hdead
  · simp [hparent] at hother

theorem lineage_cons_of_lt (n : Node α) (hk : k < older.length) :
    lineage (n :: older) k = lineage older k := by
  rw [lineage, if_neg (by omega)]

theorem isLive_cons (h : isLive (n :: older) k) :
    k = older.length ∨ isLive older k := by
  by_cases hk : k = older.length
  · exact .inl hk
  · rw [isLive, node?, if_neg hk, ← isLive] at h
    exact .inr h

theorem lineage_cons_self (a : α) (p : Nat) (older : Forest α) :
    lineage (⟨a, some p, true⟩ :: older) older.length = a :: lineage older p := by
  rw [lineage, if_pos rfl]

theorem Wf.cons_child (h : t.Wf) (hk : t.isLive k) (a : α) :
    Wf (⟨a, some k, true⟩ :: t) := by
  refine ⟨fun p hp => ?_, h⟩
  cases hp
  exact ⟨lt_length_of_isLive hk, fun _ => hk⟩

/-! ## Changing a node -/

theorem node?_update_of_ne (hne : j ≠ k) : (t.update f k).node? j = t.node? j := by
  induction t with
  | nil => rfl
  | cons n older ih =>
    unfold update
    split
    · rename_i hk
      simp only [node?]
      rw [if_neg (by omega), if_neg (by omega)]
    · simp only [node?, length_update, ih]

theorem node?_update_self (hnode : t.node? k = some n) : (t.update f k).node? k = some (f n) := by
  induction t with
  | nil => cases hnode
  | cons m older ih =>
    by_cases hk : k = older.length
    · simp only [node?, hk, if_true, Option.some.injEq] at hnode
      rw [update, if_pos hk, node?, if_pos hk, hnode]
    · rw [node?, if_neg hk] at hnode
      rw [update, if_neg hk, node?, length_update, if_neg hk, ih hnode]

theorem isLive_update_of_ne (hne : j ≠ k) : (t.update f k).isLive j = t.isLive j := by
  rw [isLive, node?_update_of_ne hne, ← isLive]

/-- Changing a node without live children leaves every other live lineage alone. -/
theorem lineage_update_of_ne (hwf : t.Wf) (hchild : t.hasLiveChild k = false)
    (hlive : t.isLive j) (hne : j ≠ k) : (t.update f k).lineage j = t.lineage j := by
  induction t generalizing j with
  | nil => rfl
  | cons n older ih =>
    obtain ⟨hparent, hwf⟩ := hwf
    obtain ⟨hchild, hnot⟩ := hasLiveChild_cons hchild
    by_cases hj : j = older.length
    · have hnlive : n.live := by simpa [isLive, node?, hj] using hlive
      have hk : ¬k = older.length := by omega
      simp only [update, hk, if_false, lineage, length_update, hj, if_true]
      cases hp : n.parent with
      | none => rfl
      | some p =>
        -- the parent is live and is not the node that changes
        have hpk : p ≠ k := fun h => hnot hnlive (by rw [hp, h])
        simp only [ih hwf hchild ((hparent p hp).2 hnlive) hpk]
    · rw [isLive, node?, if_neg hj, ← isLive] at hlive
      unfold update
      split
      · rw [lineage, if_neg hj, lineage, if_neg hj]
      · rw [lineage, length_update, if_neg hj, lineage, if_neg hj]
        exact ih hwf hchild hlive hne

/-- The lineage of the node that changes differs in its first value only. -/
theorem lineage_update_self (hnode : t.node? k = some n) (hparent : (f n).parent = n.parent) :
    ∃ rest, t.lineage k = n.value :: rest ∧ (t.update f k).lineage k = (f n).value :: rest := by
  induction t with
  | nil => cases hnode
  | cons m older ih =>
    by_cases hk : k = older.length
    · simp only [node?, hk, if_true, Option.some.injEq] at hnode
      subst hnode
      exact ⟨_, by rw [lineage, if_pos hk], by rw [update, if_pos hk, lineage, if_pos hk, hparent]⟩
    · rw [node?, if_neg hk] at hnode
      obtain ⟨rest, hold, hnew⟩ := ih hnode
      refine ⟨rest, ?_, ?_⟩
      · rw [lineage, if_neg hk, hold]
      · rw [update, if_neg hk, lineage, length_update, if_neg hk, hnew]

theorem Wf.update (hwf : t.Wf) (hchild : t.hasLiveChild k = false)
    (hparent : ∀ n, (f n).parent = n.parent) (hlive : ∀ n, (f n).live → n.live) :
    (t.update f k).Wf := by
  induction t with
  | nil => trivial
  | cons n older ih =>
    obtain ⟨hn, hwf⟩ := hwf
    obtain ⟨hchild, hnot⟩ := hasLiveChild_cons hchild
    unfold Forest.update
    split
    · refine ⟨fun p hp => ?_, hwf⟩
      rw [hparent] at hp
      exact ⟨(hn p hp).1, fun h => (hn p hp).2 (hlive n h)⟩
    refine ⟨fun p hp => ⟨?_, fun h => ?_⟩, ih hwf hchild⟩
    · rw [length_update]
      exact (hn p hp).1
    have hpk : p ≠ k := fun hpk => hnot h (by rw [hp, hpk])
    rw [isLive_update_of_ne hpk]
    exact (hn p hp).2 h

end Forest

end Support
