import Mathlib.Data.List.Basic

/-!
# One element of look-ahead

Elements are pulled from a source one at a time and offered to a receiver that accepts or
refuses them.  In between there is room for one: a refused element stays and is offered
again, and nothing is pulled before it is accepted.  So what is accepted is what was
pulled, in order, but for the element at hand.
-/

namespace Support

namespace Lookahead

variable {α β : Type}

/-- A pull, which may find nothing, or an offer made at `now`. -/
inductive Call (α β : Type)
  | pulled (a : Option α)
  | offered (a : α) (now : β) (accepted : Bool)

def pulled : List (Call α β) → List α
  | [] => []
  | .pulled a :: calls => a.toList ++ pulled calls
  | .offered .. :: calls => pulled calls

def accepted : List (Call α β) → List α
  | [] => []
  | .offered a _ true :: calls => a :: accepted calls
  | _ :: calls => accepted calls

@[simp] theorem accepted_append (calls more : List (Call α β)) :
    accepted (calls ++ more) = accepted calls ++ accepted more := by
  induction calls with
  | nil => rfl
  | cons call calls ih =>
    rcases call with a | ⟨a, now, _ | _⟩
    · exact ih
    · exact ih
    · exact congrArg (a :: ·) ih

/-- The calls lead from one element at hand to another; offers are made when `due`. -/
inductive Slot (due : β → α → Prop) : Option α → List (Call α β) → Option α → Prop
  | nil (w : Option α) : Slot due w [] w
  | pulled {a w : Option α} {calls : List (Call α β)} (hrest : Slot due a calls w) :
      Slot due none (.pulled a :: calls) w
  | accepted {a : α} {now : β} {w : Option α} {calls : List (Call α β)} (hdue : due now a)
      (hrest : Slot due none calls w) : Slot due (some a) (.offered a now true :: calls) w
  | refused {a : α} {now : β} {w : Option α} {calls : List (Call α β)} (hdue : due now a)
      (hrest : Slot due (some a) calls w) : Slot due (some a) (.offered a now false :: calls) w

variable {due : β → α → Prop} {w w' w'' : Option α} {calls more pre post : List (Call α β)}

namespace Slot

theorem append (h : Slot due w calls w') (hmore : Slot due w' more w'') :
    Slot due w (calls ++ more) w'' := by
  induction h with
  | nil w => exact hmore
  | pulled _ ih => exact .pulled (ih hmore)
  | accepted hdue _ ih => exact .accepted hdue (ih hmore)
  | refused hdue _ ih => exact .refused hdue (ih hmore)

theorem split (h : Slot due w (pre ++ post) w'') :
    ∃ w', Slot due w pre w' ∧ Slot due w' post w'' := by
  induction pre generalizing w with
  | nil => exact ⟨w, .nil w, h⟩
  | cons call pre ih =>
    cases h with
    | pulled hrest =>
      obtain ⟨w', hpre, hpost⟩ := ih hrest
      exact ⟨w', .pulled hpre, hpost⟩
    | accepted hdue hrest =>
      obtain ⟨w', hpre, hpost⟩ := ih hrest
      exact ⟨w', .accepted hdue hpre, hpost⟩
    | refused hdue hrest =>
      obtain ⟨w', hpre, hpost⟩ := ih hrest
      exact ⟨w', .refused hdue hpre, hpost⟩

/-- Nothing is lost, repeated or reordered. -/
theorem balance (h : Slot due w calls w') :
    w.toList ++ Lookahead.pulled calls = Lookahead.accepted calls ++ w'.toList := by
  induction h with
  | nil w => simp [Lookahead.pulled, Lookahead.accepted]
  | pulled _ ih | accepted _ _ ih | refused _ _ ih =>
    simpa [Lookahead.pulled, Lookahead.accepted] using ih

theorem accepted_prefix (h : Slot due w calls w') :
    Lookahead.accepted calls <+: w.toList ++ Lookahead.pulled calls :=
  ⟨w'.toList, h.balance.symm⟩

/-- What is offered is the first element not yet accepted, and it is due. -/
theorem offered {a : α} {now : β} {ok : Bool}
    (h : Slot due w (pre ++ .offered a now ok :: post) w') :
    (w.toList ++ Lookahead.pulled pre)[(Lookahead.accepted pre).length]? = some a ∧ due now a := by
  obtain ⟨v, hpre, hpost⟩ := h.split
  have hbalance := hpre.balance
  cases hpost with
  | accepted hdue _ | refused hdue _ =>
    rw [hbalance]
    exact ⟨by simp, hdue⟩

end Slot

end Lookahead

end Support
