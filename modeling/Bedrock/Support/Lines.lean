import Mathlib.Data.List.Basic

/-!
# Lines of a stream

A stream falls into lines, each ended by a separator, and a rest in which no line ends.
The relation below says so for a whole stream; it is kept up element by element, so it
does not matter where a stream is cut while it is read.
-/

namespace Support

open List

variable {α β : Type}

/-- The stream is these lines, each with the separator that ends it, and an open rest. -/
structure Splits (sep : α → Prop) (stream : List α) (lines : List (List α)) (rest : List α) :
    Prop where
  join : stream = lines.flatten ++ rest
  ended : ∀ l ∈ lines, ∃ body x, l = body ++ [x] ∧ sep x ∧ ∀ y ∈ body, ¬sep y
  unended : ∀ y ∈ rest, ¬sep y

namespace Splits

variable {sep : α → Prop} {stream rest more : List α} {lines : List (List α)} {x : α}

theorem nil (sep : α → Prop) : Splits sep [] [] [] :=
  ⟨rfl, forall_mem_nil _, forall_mem_nil _⟩

/-- Elements that end no line extend the rest. -/
theorem append (h : Splits sep stream lines rest) (hmore : ∀ y ∈ more, ¬sep y) :
    Splits sep (stream ++ more) lines (rest ++ more) := by
  refine ⟨?_, h.ended, forall_mem_append.mpr ⟨h.unended, hmore⟩⟩
  rw [h.join, append_assoc]

/-- A separator makes a line of the rest. -/
theorem close (h : Splits sep stream lines rest) (hx : sep x) :
    Splits sep (stream ++ [x]) (lines ++ [rest ++ [x]]) [] := by
  refine ⟨?_, forall_mem_append.mpr ⟨h.ended, ?_⟩, forall_mem_nil _⟩
  · rw [h.join, flatten_append, flatten_singleton, append_nil, append_assoc]
  · exact forall_mem_singleton.mpr ⟨rest, x, rfl, hx, h.unended⟩

/-- Lines are cut in the same places after a translation that keeps the separators. -/
theorem map {sep' : β → Prop} {f : α → β} (hf : ∀ x, sep' (f x) ↔ sep x)
    (h : Splits sep stream lines rest) :
    Splits sep' (stream.map f) (lines.map (List.map f)) (rest.map f) := by
  have hkept : ∀ {l : List α}, (∀ y ∈ l, ¬sep y) → ∀ y ∈ l.map f, ¬sep' y := by
    intro l hl y hy
    obtain ⟨x, hx, rfl⟩ := mem_map.mp hy
    exact fun hsep => hl x hx ((hf x).mp hsep)
  refine ⟨?_, fun l hl => ?_, hkept h.unended⟩
  · rw [h.join, map_append, map_flatten]
  obtain ⟨l, hmem, rfl⟩ := mem_map.mp hl
  obtain ⟨body, x, rfl, hx, hbody⟩ := h.ended l hmem
  exact ⟨body.map f, f x, by rw [map_append, map_singleton], (hf x).mpr hx, hkept hbody⟩

end Splits

end Support
