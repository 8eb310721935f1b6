import Mathlib.Data.List.TakeDrop
import Mathlib.Data.Nat.ModEq
import Mathlib.Logic.Function.Basic

/-!
# A queue on a wheel of slots

The items of a bounded queue lie in `N` slots, item number `k` in slot
`(k + 1) % N`. The queue itself knows nothing of remainders: it is the list of
all items ever put into it and the number of those that have been released
again. That at most `N - 1` items are unreleased is what keeps the slots of
any two of them apart, and the slot of the next item from all of theirs.

`Wheel` carries that bound, and that the unreleased items are in their slots,
as fields. So every operation on it – `put`, `push`, `pop` – is proved to keep
them where it is defined, and the rest follows from the counters.
-/

namespace Interleaving

variable {α : Type} {N : ℕ}

/-- The slot after another. -/
def advance (N i : ℕ) : ℕ := if i + 1 = N then 0 else i + 1

/-- Counting on is going round. -/
theorem advance_mod (hN : 0 < N) (k : ℕ) : advance N (k % N) = (k + 1) % N := by
  have hlt := Nat.mod_lt k hN
  unfold advance
  rw [← Nat.mod_add_mod]
  split
  case isTrue he => rw [he, Nat.mod_self]
  case isFalse hne => exact (Nat.mod_eq_of_lt (by omega)).symm

/-- **Two counters less than a round apart** are at the same slot only if they
are equal. -/
theorem mod_eq_mod_iff {a b : ℕ} (h : a ≤ b) (hb : b < a + N) : a % N = b % N ↔ a = b := by
  refine ⟨fun he => ?_, fun he => he ▸ rfl⟩
  have hdvd : N ∣ b - a := (Nat.modEq_iff_dvd' h).mp he
  have hzero : b - a = 0 := Nat.eq_zero_of_dvd_of_lt hdvd (by omega)
  omega

/-- **A queue on a wheel of slots.** -/
structure Wheel (α : Type) (N : ℕ) where
  /-- All items ever put into the queue. -/
  written : List α
  /-- How many of them have been released again. -/
  released : ℕ
  slot : ℕ → α
  released_le : released ≤ written.length
  room : written.length < released + N
  /-- The unreleased items are in their slots. -/
  stored : ∀ k (hk : k < written.length), released ≤ k → slot ((k + 1) % N) = written[k]

namespace Wheel

/-- The slot of the next item. -/
def next (q : Wheel α N) : ℕ := (q.written.length + 1) % N

/-- The queue nothing has been put into. -/
def empty (hN : 0 < N) (slot : ℕ → α) : Wheel α N where
  written := []
  released := 0
  slot := slot
  released_le := Nat.zero_le _
  room := by simpa using hN
  stored _ hk := absurd hk (Nat.not_lt_zero _)

/-- The next item's slot is none of those in use. -/
theorem next_ne (q : Wheel α N) {k : ℕ} (hk : k < q.written.length) (hr : q.released ≤ k) :
    (k + 1) % N ≠ q.next := by
  have hroom := q.room
  intro he
  have := (mod_eq_mod_iff (N := N) (by omega) (by omega)).mp he
  omega

/-- **Put an item into the next slot**, where the queue does not see it yet. -/
def put (q : Wheel α N) (x : α) : Wheel α N where
  written := q.written
  released := q.released
  slot := Function.update q.slot q.next x
  released_le := q.released_le
  room := q.room
  stored k hk hr := (Function.update_of_ne (q.next_ne hk hr) ..).trans (q.stored k hk hr)

/-- **Take the item in the next slot into the queue**, if there is room for
another one. -/
def push (q : Wheel α N) (room : q.written.length + 1 < q.released + N) : Wheel α N where
  written := q.written ++ [q.slot q.next]
  released := q.released
  slot := q.slot
  released_le := by simpa using q.released_le.trans (Nat.le_succ _)
  room := by simpa using room
  stored k hk hr := by
    rw [List.length_append, List.length_singleton] at hk
    by_cases hlt : k < q.written.length
    · rw [List.getElem_append_left hlt]
      exact q.stored k hlt hr
    · obtain rfl : k = q.written.length := by omega
      simp [next]

/-- **Release the oldest item.** -/
def pop (q : Wheel α N) (some : q.released < q.written.length) : Wheel α N where
  written := q.written
  released := q.released + 1
  slot := q.slot
  released_le := some
  room := by have := q.room; omega
  stored k hk hr := q.stored k hk (by omega)

@[simp] theorem put_written (q : Wheel α N) (x : α) : (q.put x).written = q.written := rfl

@[simp] theorem put_released (q : Wheel α N) (x : α) : (q.put x).released = q.released := rfl

@[simp] theorem put_slot_next (q : Wheel α N) (x : α) : (q.put x).slot q.next = x :=
  Function.update_self ..

/-- The wheel is full when the next slot is the one released last. -/
theorem next_eq_iff (q : Wheel α N) :
    q.next = q.released % N ↔ q.written.length + 1 = q.released + N := by
  have hle := q.released_le
  have hroom := q.room
  rw [next, ← Nat.add_mod_right q.released]
  constructor
  · intro he
    exact (mod_eq_mod_iff (N := N) (by omega) (by omega)).mp he
  · intro he
    rw [he]

/-- **The oldest item**, as it lies in its slot. -/
theorem oldest (q : Wheel α N) (some : q.released < q.written.length) :
    q.written.take (q.released + 1)
      = q.written.take q.released ++ [q.slot ((q.released + 1) % N)] := by
  rw [q.stored q.released some le_rfl, List.take_succ_eq_append_getElem some]

end Wheel

end Interleaving
