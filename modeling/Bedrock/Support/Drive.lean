import Bedrock.Support.Program

/-!
# Loops driven by their surroundings

A loop whose every turn depends on something from outside is run on the list of what the
outside provides.  It ends when a turn says so; if the list ends first, the loop is still
running.
-/

namespace Support

open List

namespace Program

variable {ε σ τ α β : Type}

def drive (turn : τ → Program ε σ (Option α)) : List τ → Program ε σ (Option α)
  | [] => pure none
  | t :: ts => do
    match ← turn t with
    | some a => pure (some a)
    | none => drive turn ts

variable {turn : τ → Program ε σ (Option α)} {t : τ} {ts : List τ} {s s' : σ}

@[simp] theorem drive_nil (s : σ) : drive turn [] s = (.ok none, s) := rfl

theorem drive_of_error {e : ε} (h : turn t s = (.error e, s')) :
    drive turn (t :: ts) s = (.error e, s') :=
  bind_error h

theorem drive_of_ended {a : α} (h : turn t s = (.ok (some a), s')) :
    drive turn (t :: ts) s = (.ok (some a), s') :=
  bind_ok h

theorem drive_of_continued (h : turn t s = (.ok none, s')) :
    drive turn (t :: ts) s = drive turn ts s' :=
  bind_ok h

/-- A reflexive and transitive relation that every turn establishes holds across the
loop. -/
theorem drive_rel {R : σ → σ → Prop} (hrefl : ∀ s, R s s)
    (htrans : ∀ {s t u}, R s t → R t u → R s u) (hturn : ∀ t ∈ ts, ∀ s, R s (turn t s).2) (s : σ) :
    R s (drive turn ts s).2 := by
  induction ts generalizing s with
  | nil => exact hrefl s
  | cons t ts ih =>
    have hfirst := hturn t mem_cons_self s
    have hrest := ih fun u hu => hturn u (mem_cons_of_mem t hu)
    rcases hrun : turn t s with ⟨e | _ | a, s'⟩
    · rw [hrun] at hfirst
      rw [drive_of_error hrun]
      exact hfirst
    · rw [hrun] at hfirst
      rw [drive_of_continued hrun]
      exact htrans hfirst (hrest s')
    · rw [hrun] at hfirst
      rw [drive_of_ended hrun]
      exact hfirst

/-- What the turns of a loop note down, each in the state it starts in. -/
def driveTrace (note : τ → σ → List β) (turn : τ → Program ε σ (Option α)) :
    List τ → σ → List β
  | [], _ => []
  | t :: ts, s => note t s ++
    match turn t s with
    | (.ok none, s') => driveTrace note turn ts s'
    | _ => []

variable {note : τ → σ → List β} {log : List β}

theorem driveTrace_of_continued (h : turn t s = (.ok none, s')) :
    driveTrace note turn (t :: ts) s = note t s ++ driveTrace note turn ts s' := by
  rw [driveTrace, h]

theorem driveTrace_of_ended {r : Except ε (Option α)} (h : turn t s = (r, s'))
    (hr : r ≠ .ok none) : driveTrace note turn (t :: ts) s = note t s := by
  rw [driveTrace, h]
  rcases r with e | _ | a
  · exact append_nil _
  · exact absurd rfl hr
  · exact append_nil _

@[simp] theorem driveTrace_singleton (t : τ) (s : σ) : driveTrace note turn [t] s = note t s := by
  rcases h : turn t s with ⟨e | _ | a, s'⟩
  · exact driveTrace_of_ended h (by simp)
  · rw [driveTrace_of_continued h]
    exact append_nil _
  · exact driveTrace_of_ended h (by simp)

/-- A relation between the notes so far and the state, kept by every turn, and what it
says of the notes, also after a turn that fails. -/
theorem drive_notes {I : List β → σ → Prop} {J : List β → Prop} (hI : ∀ {log s}, I log s → J log)
    (hturn : ∀ t ∈ ts, ∀ log s, I log s → J (log ++ note t s) ∧
      ∀ r s', turn t s = (.ok r, s') → I (log ++ note t s) s') (hs : I log s) :
    J (log ++ driveTrace note turn ts s) ∧
      ∀ r s', drive turn ts s = (.ok r, s') → I (log ++ driveTrace note turn ts s) s' := by
  induction ts generalizing s log with
  | nil =>
    rw [driveTrace, append_nil]
    refine ⟨hI hs, fun r s' h => ?_⟩
    cases h
    exact hs
  | cons t ts ih =>
    obtain ⟨hnotes, hok⟩ := hturn t mem_cons_self log s hs
    rcases hrun : turn t s with ⟨e | _ | a, s'⟩
    · rw [drive_of_error hrun, driveTrace_of_ended hrun (by simp)]
      exact ⟨hnotes, fun r s'' h => by cases h⟩
    · rw [drive_of_continued hrun, driveTrace_of_continued hrun, ← append_assoc]
      exact ih (fun u hu => hturn u (mem_cons_of_mem t hu)) (hok _ _ hrun)
    · rw [drive_of_ended hrun, driveTrace_of_ended hrun (by simp)]
      refine ⟨hnotes, fun r s'' h => ?_⟩
      cases h
      exact hok _ _ hrun

/-- Two runs whose turns go alike note down the same. -/
theorem driveTrace_alike {R : σ → σ → Prop} (hnote : ∀ t s s', R s s' → note t s = note t s')
    (hturn : ∀ t s s', R s s' → (turn t s).1 = (turn t s').1 ∧ R (turn t s).2 (turn t s').2)
    (ts : List τ) (h : R s s') : driveTrace note turn ts s = driveTrace note turn ts s' := by
  induction ts generalizing s s' with
  | nil => rfl
  | cons t ts ih =>
    obtain ⟨hvalue, hstate⟩ := hturn t s s' h
    rw [driveTrace, driveTrace, hnote t s s' h]
    rcases hs : turn t s with ⟨r, u⟩
    rcases hs' : turn t s' with ⟨r', u'⟩
    rw [hs, hs'] at hvalue hstate
    dsimp only at hvalue hstate
    subst hvalue
    rcases r with e | _ | a
    · rfl
    · exact congrArg _ (ih hstate)
    · rfl

end Program

/-- A loop is built from what its turns are built from. -/
instance Built.instDrive {ε σ τ α : Type} {A : ∀ α : Type, (σ → α × σ) → Prop}
    {turn : τ → Program ε σ (Option α)} [hturn : ∀ t, Built A (turn t)] (ts : List τ) :
    Built A (Program.drive turn ts) := by
  induction ts with
  | nil => exact .pure none
  | cons t ts ih =>
    refine .bind (hturn t) fun r => ?_
    cases r with
    | none => exact ih
    | some a => exact .pure (some a)

end Support
