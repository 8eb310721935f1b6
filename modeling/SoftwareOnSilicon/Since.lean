import Mathlib.Data.List.Induction

/-!
# Histories

What is said of a history is often said of each of its entries and those before it
(`Throughout`), or of the last entry of a kind: something has happened, and nothing of
another kind since (`Since`). Both are given by where the history is split, and both are
computed entry by entry.
-/

namespace Interleaving

variable {α : Type} {P Q : α → Prop} {R : List α → α → Prop} {l : List α} {x : α}

/-- **Each entry is related to those before it.** -/
def Throughout (R : List α → α → Prop) (l : List α) : Prop :=
  ∀ before x after, l = before ++ x :: after → R before x

/-- **There is an entry of one kind, and none of another after it.** -/
def Since (P Q : α → Prop) (l : List α) : Prop :=
  ∃ before x after, l = before ++ x :: after ∧ P x ∧ ∀ y ∈ after, ¬ Q y

/-- A history that has been split ends where its second part does. -/
theorem concat_eq_append_cons {before after : List α} {y : α}
    (h : l ++ [x] = before ++ y :: after) :
    (after = [] ∧ before = l ∧ y = x) ∨ ∃ rest, after = rest ++ [x] ∧ l = before ++ y :: rest := by
  obtain rfl | ⟨rest, z, rfl⟩ := List.eq_nil_or_concat after
  · obtain ⟨hl, hx⟩ := List.append_inj' h rfl
    exact .inl ⟨rfl, hl.symm, (List.cons.inj hx).1.symm⟩
  · rw [List.concat_eq_append, ← List.cons_append, ← List.append_assoc] at h
    obtain ⟨hl, hx⟩ := List.append_inj' h rfl
    obtain rfl := (List.cons.inj hx).1
    exact .inr ⟨rest, List.concat_eq_append, hl⟩

@[simp] theorem throughout_nil : Throughout R [] := by
  intro before x after h
  simp at h

/-- One more entry. -/
theorem throughout_concat : Throughout R (l ++ [x]) ↔ Throughout R l ∧ R l x := by
  constructor
  · intro h
    exact ⟨fun before y after hl => h before y (after ++ [x]) (by rw [hl]; simp), h l x [] rfl⟩
  · rintro ⟨hl, hx⟩ before y after heq
    obtain ⟨-, rfl, rfl⟩ | ⟨rest, -, hsplit⟩ := concat_eq_append_cons heq
    · exact hx
    · exact hl before y rest hsplit

@[simp] theorem not_since_nil : ¬ Since P Q [] := by
  rintro ⟨before, x, after, h, -⟩
  simp at h

/-- One more entry: it is of the one kind, or not of the other. -/
theorem since_concat : Since P Q (l ++ [x]) ↔ P x ∨ (Since P Q l ∧ ¬ Q x) := by
  constructor
  · rintro ⟨before, y, after, heq, hy, hafter⟩
    obtain ⟨-, rfl, rfl⟩ | ⟨rest, rfl, hsplit⟩ := concat_eq_append_cons heq
    · exact .inl hy
    · refine .inr ⟨⟨before, y, rest, hsplit, hy, fun z hz => ?_⟩, hafter x (by simp)⟩
      exact hafter z (List.mem_append_left _ hz)
  · rintro (hx | ⟨⟨before, y, after, rfl, hy, hafter⟩, hx⟩)
    · exact ⟨l, x, [], rfl, hx, by simp⟩
    · refine ⟨before, y, after ++ [x], by simp, hy, fun z hz => ?_⟩
      rcases List.mem_append.mp hz with hz | hz
      · exact hafter z hz
      · rw [List.mem_singleton.mp hz]
        exact hx

end Interleaving
