import Mathlib.Order.Nat
import Mathlib.Logic.Function.Basic

/-!
# A scan against the direction of growth

A memory that is filled from its first cell on, one cell at a time, and a reader
that goes through it from the last cell to the first while it is being filled.
The reader does not see one state of the memory, but what it sees is one state:
once it finds a cell that has been filled, all cells it has yet to look at have
been filled before (`Cut.take`).
-/

namespace Interleaving

variable {α : Type} {log : ℕ → α} {fill : α} {n n' low : ℕ} {scanned : ℕ → Option α}

/-- The memory of which the first `n` cells have been filled. -/
def filled (log : ℕ → α) (fill : α) (n i : ℕ) : α := if i < n then log i else fill

theorem filled_succ (i : ℕ) :
    filled log fill (n + 1) i = Function.update (filled log fill n) n (log n) i := by
  unfold filled
  by_cases hi : i = n
  · subst hi
    simp
  · rw [Function.update_of_ne hi]
    exact if_congr (by omega) rfl rfl

/-- **A consistent cut**: what has been scanned from `low` on is what the memory
held at some moment up to now, when `n` cells have been filled. -/
def Cut (log : ℕ → α) (fill : α) (n low : ℕ) (scanned : ℕ → Option α) : Prop :=
  ∃ k ≤ n, ∀ i x, low ≤ i → scanned i = some x → x = filled log fill k i

namespace Cut

/-- Nothing has been scanned. -/
theorem start (h : ∀ i, low ≤ i → scanned i = none) : Cut log fill n low scanned := by
  refine ⟨0, Nat.zero_le _, fun i x hi hx => ?_⟩
  rw [h i hi] at hx
  cases hx

/-- More cells are filled. -/
theorem grow (h : Cut log fill n low scanned) (hn : n ≤ n') : Cut log fill n' low scanned := by
  obtain ⟨k, hk, hcells⟩ := h
  exact ⟨k, hk.trans hn, hcells⟩

/-- Only what has been scanned matters. -/
theorem congr {scanned' : ℕ → Option α} (h : Cut log fill n low scanned)
    (hs : ∀ i, low ≤ i → scanned' i = scanned i) : Cut log fill n low scanned' := by
  obtain ⟨k, hk, hcells⟩ := h
  exact ⟨k, hk, fun i x hi hx => hcells i x hi (hs i hi ▸ hx)⟩

/-- A cell is left out. -/
theorem skip (h : Cut log fill n (low + 1) scanned) (hlow : scanned low = none) :
    Cut log fill n low scanned := by
  obtain ⟨k, hk, hcells⟩ := h
  refine ⟨k, hk, fun i x hi hx => ?_⟩
  obtain rfl | hlt := hi.eq_or_lt
  · rw [hlow] at hx
    cases hx
  · exact hcells i x hlt hx

/-- **The next cell down is looked at.** If it has been filled after the moment of
the cut, the cut is moved there: none of the cells above had been filled. -/
theorem take (h : Cut log fill n (low + 1) scanned)
    (hlow : scanned low = some (filled log fill n low)) : Cut log fill n low scanned := by
  obtain ⟨k, hk, hcells⟩ := h
  by_cases hmoved : low < n ∧ k ≤ low
  · obtain ⟨hn, hkl⟩ := hmoved
    refine ⟨low + 1, hn, fun i x hi hx => ?_⟩
    obtain rfl | hlt := hi.eq_or_lt
    · rw [hlow] at hx
      rw [← Option.some.inj hx, filled, filled, if_pos hn, if_pos (Nat.lt_succ_self _)]
    · rw [hcells i x hlt hx, filled, filled, if_neg (by omega), if_neg (by omega)]
  · refine ⟨k, hk, fun i x hi hx => ?_⟩
    obtain rfl | hlt := hi.eq_or_lt
    · rw [hlow] at hx
      rw [← Option.some.inj hx, filled, filled]
      exact if_congr (by omega) rfl rfl
    · exact hcells i x hlt hx

end Cut

end Interleaving
