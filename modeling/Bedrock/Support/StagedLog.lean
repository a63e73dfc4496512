import Mathlib.Data.List.Pairwise
import Mathlib.Tactic.Common

/-!
# Bounded logs with a staging slot

Records are appended to a log as long as there is room.  A record without room is put
into a single staging slot, possibly trimmed, if the slot is free, and dropped otherwise.
A drain delivers the log and starts the next one with the staged record.

Records carry tags that grow in the order of appending.  `delivered_inOrder_iff` and
`delivered_complete_iff` say exactly when everything is delivered in that order and when
nothing is missing.
-/

namespace Support

open List

/-- A log and its staging slot. -/
structure StagedLog (ρ : Type) where
  kept : List ρ := []
  staged : Option ρ := none

inductive LogOp (ρ : Type)
  | append (r : ρ)
  | drain

def drains {ρ : Type} : List (LogOp ρ) → Nat
  | [] => 0
  | .append _ :: ops => drains ops
  | .drain :: ops => drains ops + 1

def appended {ρ : Type} : List (LogOp ρ) → List ρ
  | [] => []
  | .append r :: ops => r :: appended ops
  | .drain :: ops => appended ops

theorem appended_append_drains {ρ : Type} (ops : List (LogOp ρ)) :
    appended (ops ++ [.drain, .drain]) = appended ops := by
  induction ops with
  | nil => rfl
  | cons op ops ih =>
    cases op with
    | append r => exact congrArg (r :: ·) ih
    | drain => exact ih

namespace StagedLog

variable {ρ : Type}

/-- Everything in the log, in the order in which drains would deliver it. -/
def contents (log : StagedLog ρ) : List ρ :=
  log.kept ++ log.staged.toList

def drain (log : StagedLog ρ) : StagedLog ρ :=
  ⟨log.staged.toList, none⟩

variable (log : StagedLog ρ)

@[simp] theorem contents_drain : log.drain.contents = log.staged.toList := by
  simp [contents, drain]

section Operations

variable (room : List ρ → ρ → Bool) (trim : ρ → ρ)

def append (log : StagedLog ρ) (r : ρ) : StagedLog ρ :=
  if room log.kept r = true then { log with kept := log.kept ++ [r] }
  else if log.staged.isNone = true then { log with staged := some (trim r) }
  else log

def delivered : StagedLog ρ → List (LogOp ρ) → List ρ
  | _, [] => []
  | log, .append r :: ops => delivered (log.append room trim r) ops
  | log, .drain :: ops => log.kept ++ delivered log.drain ops

/-- No record is appended past a staged one while there are still two drains to come,
the first to deliver the appended record and the second to deliver the staged one. -/
def NoOvertaking : StagedLog ρ → List (LogOp ρ) → Prop
  | _, [] => True
  | log, .append r :: ops =>
    (room log.kept r = true → 2 ≤ drains ops → log.staged = none) ∧
      NoOvertaking (log.append room trim r) ops
  | log, .drain :: ops => NoOvertaking log.drain ops

/-- Every record finds room or a free slot. -/
def NothingDropped : StagedLog ρ → List (LogOp ρ) → Prop
  | _, [] => True
  | log, .append r :: ops =>
    (room log.kept r = true ∨ log.staged = none) ∧ NothingDropped (log.append room trim r) ops
  | log, .drain :: ops => NothingDropped log.drain ops

end Operations

variable {room : List ρ → ρ → Bool} {trim : ρ → ρ}

/-- The three ways an append can go. -/
theorem append_cases (room : List ρ → ρ → Bool) (trim : ρ → ρ) (log : StagedLog ρ) (r : ρ) :
    (room log.kept r ∧ log.append room trim r = { log with kept := log.kept ++ [r] }) ∨
      (room log.kept r = false ∧ log.staged = none ∧
        log.append room trim r = { log with staged := some (trim r) }) ∨
      (room log.kept r = false ∧ log.staged ≠ none ∧ log.append room trim r = log) := by
  unfold append
  by_cases hroom : room log.kept r
  · exact .inl ⟨hroom, if_pos hroom⟩
  rw [if_neg hroom]
  have hfull : room log.kept r = false := by simpa using hroom
  cases hstaged : log.staged with
  | none => exact .inr (.inl ⟨hfull, rfl, rfl⟩)
  | some s => exact .inr (.inr ⟨hfull, by simp, rfl⟩)

theorem contents_sublist_append (r : ρ) :
    log.contents.Sublist (log.append room trim r).contents := by
  rcases append_cases room trim log r with ⟨-, heq⟩ | ⟨-, hstaged, heq⟩ | ⟨-, -, heq⟩
  · rw [heq, contents, contents, append_assoc]
    exact (sublist_append_right [r] _).append_left log.kept
  · rw [heq, contents, contents, hstaged]
    exact (nil_sublist _).append_left log.kept
  · simp only [heq, List.Sublist.refl]

variable {ops : List (LogOp ρ)}

theorem kept_sublist_delivered
    (hdrain : 1 ≤ drains ops) : log.kept.Sublist (delivered room trim log ops) := by
  induction ops generalizing log with
  | nil => cases hdrain
  | cons op ops ih =>
    cases op with
    | append r =>
      refine List.Sublist.trans ?_ (ih _ hdrain)
      rcases append_cases room trim log r with ⟨-, heq⟩ | ⟨-, -, heq⟩ | ⟨-, -, heq⟩
      · rw [heq]
        exact sublist_append_left _ _
      all_goals simp only [heq, List.Sublist.refl]
    | drain => exact sublist_append_left _ _

theorem contents_sublist_delivered
    (hdrains : 2 ≤ drains ops) : log.contents.Sublist (delivered room trim log ops) := by
  induction ops generalizing log with
  | nil => cases hdrains
  | cons op ops ih =>
    cases op with
    | append r => exact (contents_sublist_append log r).trans (ih _ hdrains)
    | drain =>
      exact (kept_sublist_delivered log.drain (Nat.le_of_succ_le_succ hdrains)).append_left log.kept

theorem delivered_eq_nil (hdrains : drains ops = 0) : delivered room trim log ops = [] := by
  induction ops generalizing log with
  | nil => rfl
  | cons op ops ih =>
    cases op with
    | append r => exact ih _ hdrains
    | drain => cases hdrains

theorem delivered_sublist (hdrains : drains ops ≤ 1) :
    (delivered room trim log ops).Sublist (log.kept ++ appended ops) := by
  induction ops generalizing log with
  | nil => exact nil_sublist _
  | cons op ops ih =>
    cases op with
    | append r =>
      refine (ih _ hdrains).trans ?_
      rcases append_cases room trim log r with ⟨-, heq⟩ | ⟨-, -, heq⟩ | ⟨-, -, heq⟩
      · rw [heq, appended, append_assoc]
        exact List.Sublist.refl _
      all_goals
        rw [heq]
        exact (sublist_cons_self r _).append_left log.kept
    | drain =>
      have hlast : drains ops = 0 := Nat.le_zero.mp (Nat.le_of_succ_le_succ hdrains)
      rw [delivered, delivered_eq_nil log.drain hlast, append_nil]
      exact sublist_append_left _ _

theorem noOvertaking_of_drains (hdrains : drains ops ≤ 1) : NoOvertaking room trim log ops := by
  induction ops generalizing log with
  | nil => trivial
  | cons op ops ih =>
    cases op with
    | append r =>
      have hfew : drains ops ≤ 1 := hdrains
      exact ⟨fun _ hmany => absurd hmany (by omega), ih _ hfew⟩
    | drain => exact ih _ (Nat.le_of_succ_le hdrains)

theorem delivered_forall {P : ρ → Prop} (htrim : ∀ r, P r → P (trim r)) {log : StagedLog ρ}
    (hall : ∀ r ∈ log.contents ++ appended ops, P r) : ∀ r ∈ delivered room trim log ops, P r := by
  induction ops generalizing log with
  | nil =>
    intro r hr
    cases hr
  | cons op ops ih =>
    cases op with
    | append r =>
      have hnew : P r := hall r (by simp [appended])
      have hlog : ∀ s ∈ log.contents ++ appended ops, P s :=
        fun s hs => hall s (by simp only [appended, mem_append, mem_cons] at hs ⊢; tauto)
      apply ih
      intro s hs
      rcases append_cases room trim log r with ⟨-, heq⟩ | ⟨-, hstaged, heq⟩ | ⟨-, -, heq⟩
      · rw [heq] at hs
        simp only [contents, mem_append, mem_singleton] at hs hlog
        rcases hs with (((hs | rfl) | hs) | hs)
        · exact hlog s (.inl (.inl hs))
        · exact hnew
        · exact hlog s (.inl (.inr hs))
        · exact hlog s (.inr hs)
      · rw [heq] at hs
        simp only [contents, mem_append, Option.toList_some, mem_singleton] at hs hlog
        rcases hs with ((hs | rfl) | hs)
        · exact hlog s (.inl (.inl hs))
        · exact htrim r hnew
        · exact hlog s (.inr hs)
      · rw [heq] at hs
        exact hlog s hs
    | drain =>
      intro r hr
      rw [delivered, mem_append] at hr
      rcases hr with hr | hr
      · exact hall r (by simp [contents, hr])
      have hrest : ∀ s ∈ log.drain.contents ++ appended ops, P s := by
        intro s hs
        rw [contents_drain] at hs
        apply hall
        simp only [contents, appended, mem_append] at hs ⊢
        tauto
      exact ih hrest r hr

section Tags

variable {tag : ρ → Nat} (htrim : ∀ r, tag (trim r) = tag r)

def InOrder (tag : ρ → Nat) (rs : List ρ) : Prop :=
  (rs.map tag).Pairwise (· < ·)

theorem InOrder.of_sublist {rs ss : List ρ} (h : InOrder tag ss) (hsub : rs.Sublist ss) :
    InOrder tag rs :=
  h.sublist (hsub.map tag)

variable {log : StagedLog ρ} {ops : List (LogOp ρ)} {r : ρ}

theorem not_inOrder_of_overtaking {s : ρ}
    (hroom : room log.kept r) (hstaged : log.staged = some s) (hdrains : 2 ≤ drains ops)
    (hlog : InOrder tag (log.contents ++ r :: appended ops)) :
    ¬InOrder tag (delivered room trim (log.append room trim r) ops) := by
  intro horder
  have hpair : [r, s].Sublist (delivered room trim (log.append room trim r) ops) := by
    refine List.Sublist.trans ?_ (contents_sublist_delivered _ hdrains)
    rw [append, if_pos hroom, contents, hstaged, append_assoc]
    exact sublist_append_right log.kept _
  have hnew := horder.of_sublist hpair
  have hold : InOrder tag [s, r] := by
    refine hlog.of_sublist ?_
    rw [contents, hstaged, append_assoc]
    exact ((nil_sublist _).cons_cons r |>.cons_cons s).trans (sublist_append_right log.kept _)
  simp only [InOrder, map_cons, map_nil, pairwise_cons, mem_singleton, forall_eq] at hnew hold
  omega

include htrim

theorem tags_delivered_subset (log : StagedLog ρ) (ops : List (LogOp ρ)) :
    (delivered room trim log ops).map tag ⊆ (log.contents ++ appended ops).map tag := by
  intro x hx
  obtain ⟨r, hr, rfl⟩ := mem_map.mp hx
  have hall : ∀ r ∈ log.contents ++ appended ops,
      tag r ∈ (log.contents ++ appended ops).map tag := fun r hr => mem_map_of_mem hr
  refine delivered_forall (P := fun r => tag r ∈ (log.contents ++ appended ops).map tag)
    ?_ hall r hr
  intro r hr
  rwa [htrim]

theorem delivered_inOrder_iff (hlog : InOrder tag (log.contents ++ appended ops)) :
    InOrder tag (delivered room trim log ops) ↔ NoOvertaking room trim log ops := by
  induction ops generalizing log with
  | nil => exact ⟨fun _ => trivial, fun _ => List.Pairwise.nil⟩
  | cons op ops ih =>
    by_cases hdrains : drains (op :: ops) ≤ 1
    · -- Too few drains are left to deliver a staged record.
      refine ⟨fun _ => noOvertaking_of_drains log hdrains, fun _ => ?_⟩
      have hkept := (sublist_append_left log.kept log.staged.toList).append_right
        (appended (op :: ops))
      exact hlog.of_sublist ((delivered_sublist log hdrains).trans hkept)
    cases op with
    | append r =>
      have hmany : 2 ≤ drains ops := Nat.lt_of_not_le hdrains
      simp only [delivered, NoOvertaking]
      rcases append_cases room trim log r with
        ⟨hroom, heq⟩ | ⟨hfull, hstaged, heq⟩ | ⟨hfull, hstaged, heq⟩
      · cases hstaged : log.staged with
        | none =>
          have hnext : InOrder tag ((log.append room trim r).contents ++ appended ops) := by
            rw [heq]
            simpa [contents, hstaged, appended] using hlog
          rw [ih hnext]
          simp
        | some s =>
          refine ⟨fun horder => ?_, fun h => ?_⟩
          · exact absurd horder (not_inOrder_of_overtaking hroom hstaged hmany hlog)
          · have hfree := h.1 hroom hmany
            cases hfree
      · have hnext : InOrder tag ((log.append room trim r).contents ++ appended ops) := by
          rw [heq]
          simpa [InOrder, contents, hstaged, appended, htrim] using hlog
        rw [ih hnext]
        simp [hfull]
      · have hnext : InOrder tag ((log.append room trim r).contents ++ appended ops) := by
          rw [heq]
          exact hlog.of_sublist ((sublist_cons_self r _).append_left _)
        rw [ih hnext]
        simp [hfull]
    | drain =>
      have hsplit : InOrder tag (log.kept ++ (log.drain.contents ++ appended ops)) := by
        simpa [contents, appended, drain] using hlog
      rw [InOrder, map_append, pairwise_append] at hsplit
      obtain ⟨hkept, hrest, hbetween⟩ := hsplit
      simp only [delivered, NoOvertaking]
      rw [← ih hrest]
      simp only [InOrder, map_append, pairwise_append]
      constructor
      · exact fun h => h.2.1
      intro h
      refine ⟨hkept, h, fun x hx y hy => hbetween x hx y ?_⟩
      exact tags_delivered_subset htrim log.drain ops hy

theorem tags_append_perm (hroom : room log.kept r ∨ log.staged = none) :
    ((log.append room trim r).contents.map tag).Perm ((log.contents ++ [r]).map tag) := by
  rcases append_cases room trim log r with ⟨-, heq⟩ | ⟨-, hstaged, heq⟩ | ⟨hfull, hstaged, -⟩
  · rw [heq, contents, contents, append_assoc, append_assoc]
    exact (perm_append_comm.append_left log.kept).map tag
  · rw [heq, contents, contents, hstaged]
    simp [htrim]
  · rcases hroom with hroom | hfree
    · rw [hfull] at hroom
      cases hroom
    · exact absurd hfree hstaged

theorem dropped_not_delivered {ops' : List (LogOp ρ)}
    (hroom : ¬(room log.kept r ∨ log.staged = none)) (hops : appended ops' = appended ops)
    (hlog : ((log.contents ++ r :: appended ops).map tag).Nodup) :
    tag r ∉ (delivered room trim (log.append room trim r) ops').map tag := by
  intro hmem
  have hsame : log.append room trim r = log := by
    rcases append_cases room trim log r with ⟨hroom', -⟩ | ⟨-, hfree, -⟩ | ⟨-, -, heq⟩
    · exact absurd (.inl hroom') hroom
    · exact absurd (.inr hfree) hroom
    · exact heq
  have hin := tags_delivered_subset htrim _ ops' hmem
  rw [hsame, hops] at hin
  have hperm := (perm_middle : (log.contents ++ r :: appended ops).Perm _).map tag
  have hnodup := hperm.nodup_iff.mp hlog
  rw [map_cons] at hnodup
  exact (nodup_cons.mp hnodup).1 hin

/-- With two more drains everything is delivered if nothing is dropped, and only then. -/
theorem delivered_complete_iff (hlog : ((log.contents ++ appended ops).map tag).Nodup) :
    (log.contents ++ appended ops).map tag ⊆
        (delivered room trim log (ops ++ [.drain, .drain])).map tag ↔
      NothingDropped room trim log ops := by
  induction ops generalizing log with
  | nil => simp [delivered, appended, NothingDropped, contents, drain]
  | cons op ops ih =>
    cases op with
    | append r =>
      simp only [cons_append, delivered, NothingDropped]
      by_cases hroom : room log.kept r ∨ log.staged = none
      · have hperm : (((log.append room trim r).contents ++ appended ops).map tag).Perm
            ((log.contents ++ appended (.append r :: ops)).map tag) := by
          have htail := (tags_append_perm htrim hroom).append_right ((appended ops).map tag)
          simpa [appended] using htail
        rw [← ih (hperm.nodup_iff.mpr hlog)]
        exact ⟨fun h => ⟨hroom, List.Subset.trans hperm.subset h⟩,
          fun h => List.Subset.trans hperm.symm.subset h.2⟩
      · refine ⟨fun hall => ?_, fun h => absurd h.1 hroom⟩
        have hmem : tag r ∈ (log.contents ++ appended (.append r :: ops)).map tag := by
          simp [appended]
        have happended : appended (ops ++ [.drain, .drain]) = appended ops :=
          appended_append_drains ops
        exact absurd (hall hmem) (dropped_not_delivered htrim hroom happended hlog)
    | drain =>
      have hsplit : log.contents ++ appended (.drain :: ops) =
          log.kept ++ (log.drain.contents ++ appended ops) := by
        simp [contents, appended, drain]
      rw [hsplit, map_append, nodup_append] at hlog
      obtain ⟨-, hrest, hapart⟩ := hlog
      rw [hsplit]
      simp only [cons_append, delivered, NothingDropped]
      rw [← ih hrest]
      constructor
      · intro hall x hx
        have hx' : x ∈ (log.kept ++ (log.drain.contents ++ appended ops)).map tag := by
          rw [map_append]
          exact mem_append_right _ hx
        have hdelivered := hall hx'
        rw [map_append] at hdelivered
        rcases mem_append.mp hdelivered with hold | hnew
        · exact absurd rfl (hapart x hold x hx)
        · exact hnew
      · intro hall
        rw [map_append]
        exact append_subset.mpr ⟨map_subset _ (subset_append_left _ _),
          List.Subset.trans hall (map_subset _ (subset_append_right _ _))⟩

end Tags

end StagedLog

end Support
