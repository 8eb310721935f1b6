import Mathlib.Data.Nat.Cast.Order.Ring
import SoftwareOnSilicon.Memory

/-!
# Block reads

`ReadTask::read` copies a block out of the memory, from its last cell to the first. Offsets
and distances are of the difference type, whose operations are taken modulo 2⁶⁴. Each cell is
copied or marked busy by what its iteration sees: the window of the writer, and the memory.

Two things can go wrong. The sum of the offset and the length of the block is not in the
difference type if the offset is close to its limit, and the check against the length of the
memory is passed (`contained_iff`). And the cell at the end of the window is taken to be
inside it, which it is not (`returned_iff`).
-/

namespace SOS

open Interleaving

variable {α : Type}

/-- An integer, as a value of the difference type. -/
def difference (x : ℤ) : ℤ := x.bmod (2 ^ 64)

theorem difference_eq_self {x : ℤ} (hle : -2 ^ 63 ≤ x) (hlt : x < 2 ^ 63) : difference x = x :=
  Int.bmod_eq_of_le_mul_two (by push_cast; omega) (by push_cast; omega)

/-- The first value past the limit is the lowest one. -/
theorem difference_of_overflow {x : ℤ} (hle : 2 ^ 63 ≤ x) (hlt : x < 2 ^ 64) :
    difference x = x - 2 ^ 64 := by
  have hself := difference_eq_self (x := x - 2 ^ 64) (by omega) (by omega)
  rw [← hself]
  exact (Int.sub_mul_bmod_self_right x 1 (2 ^ 64)).symm

theorem difference_of_underflow {x : ℤ} (hle : -2 ^ 64 ≤ x) (hlt : x < -2 ^ 63) :
    difference x = x + 2 ^ 64 := by
  have hself := difference_eq_self (x := x + 2 ^ 64) (by omega) (by omega)
  rw [← hself]
  exact (Int.add_mul_bmod_self_right x 1 (2 ^ 64)).symm

/-! ## `read` -/

/-- What an iteration of the loop sees of the other threads: the window and the memory. -/
structure Seen (α : Type) where
  bkStart : ℤ
  bkEnd : ℤ
  cell : ℤ → α

/-- What is done to a cell of the block. -/
inductive Fill where
  /-- It gets a copy of a cell of the memory. -/
  | copy (mc : ℤ)
  /-- It is marked busy. -/
  | busy
  deriving DecidableEq

namespace ReadTask

/-- `read`, up to its loop: the value of `mc`. The virtual `outOfBounds` is that of
`ReadTaskImpl`. -/
def enter (size blockSize : ℕ) (readOffset : ℤ) : Except MemoryError ℤ :=
  if readOffset < 0 then
    .error .negativeReadoffsetSupplied
  else
    let mc := difference (readOffset + blockSize)
    if size < mc then .error .readindexOutOfBounds else .ok mc

/-- What is done where the iteration sees this. -/
def choose (seen : Seen α) (mc : ℤ) : Fill :=
  if mc < seen.bkStart ∨ seen.bkEnd < mc then .copy mc else .busy

/-- **The loop of `read`**: what is done to which cell of the block. The iteration for cell
`rb` sees `seen rb`; the ones that only wait are left out. -/
def loop (seen : ℕ → Seen α) : ℕ → ℤ → List (ℕ × Fill)
  | 0, _ => []
  | rb + 1, mc => (rb, choose (seen rb) (difference (mc - 1)))
      :: loop seen rb (difference (mc - 1))

/-- **A block read**: what it does, or the error it stops at before its loop. -/
def read (size blockSize : ℕ) (seen : ℕ → Seen α) (readOffset : ℤ) :
    Except MemoryError (List (ℕ × Fill)) :=
  (enter size blockSize readOffset).map fun mc => loop seen blockSize mc

variable {size blockSize rb : ℕ} {o mc : ℤ} {seen : ℕ → Seen α}

/-- **What the loop does**: cell by cell, if all the offsets are in the difference type. -/
theorem loop_eq (ho : 0 ≤ o) (hlt : o + rb < 2 ^ 63) :
    loop seen rb (o + rb)
      = (List.range rb).reverse.map fun i => (i, choose (seen i) (o + i)) := by
  induction rb with
  | zero => rfl
  | succ rb ih =>
    have hdown : difference (o + (rb + 1 : ℕ) - 1) = o + rb := by
      rw [difference_eq_self] <;> push_cast at hlt ⊢ <;> omega
    rw [loop, hdown, ih (by push_cast at hlt; omega), List.range_succ, List.reverse_append]
    rfl

/-- The cells the loop goes through are those of the block, whatever the offset is. -/
theorem loop_cells (rb : ℕ) (mc : ℤ) :
    (loop seen rb mc).map Prod.fst = (List.range rb).reverse := by
  induction rb generalizing mc with
  | zero => rfl
  | succ rb ih =>
    rw [loop, List.map_cons, ih, List.range_succ, List.reverse_append]
    rfl

theorem loop_nodup (rb : ℕ) (mc : ℤ) : ((loop seen rb mc).map Prod.fst).Nodup := by
  rw [loop_cells, List.nodup_reverse]
  exact List.nodup_range

theorem mem_loop (ho : 0 ≤ o) (hlt : o + rb < 2 ^ 63) {i : ℕ} {f : Fill} :
    (i, f) ∈ loop seen rb (o + rb) ↔ i < rb ∧ f = choose (seen i) (o + i) := by
  rw [loop_eq ho hlt]
  simp only [List.mem_map, List.mem_reverse, List.mem_range, Prod.mk.injEq]
  constructor
  · rintro ⟨j, hj, rfl, rfl⟩
    exact ⟨hj, rfl⟩
  · rintro ⟨hi, rfl⟩
    exact ⟨i, hi, rfl, rfl⟩

/-- A read of cells that are in the memory gets to its loop. -/
theorem read_of_fits (seen : ℕ → Seen α) (hsize : size < 2 ^ 63) (ho : 0 ≤ o)
    (hin : o + blockSize ≤ size) :
    read size blockSize seen o = .ok (loop seen blockSize (o + blockSize)) := by
  unfold read enter
  rw [difference_eq_self (by omega) (by omega), if_neg (by omega), if_neg (by omega)]
  rfl

/-- A read that gets to its loop. -/
theorem read_eq_ok {l : List (ℕ × Fill)} (h : read size blockSize seen o = .ok l) :
    0 ≤ o ∧ difference (o + blockSize) ≤ size
      ∧ l = loop seen blockSize (difference (o + blockSize)) := by
  unfold read enter at h
  by_cases hneg : o < 0
  · simp [hneg, Except.map] at h
  by_cases hsize : size < difference (o + blockSize)
  · simp [hneg, hsize, Except.map] at h
  simp only [hneg, hsize, if_false, Except.map] at h
  cases h
  exact ⟨by omega, by omega, rfl⟩

/-! ## Inside the memory -/

/-- **The read stays inside the memory**: whatever it sees, it stops before its loop, or it
reads no cells but those that are asked for, all of them in the memory, and writes each
cell of the block once. -/
def Contained (size blockSize : ℕ) (o : ℤ) : Prop :=
  ∀ (seen : ℕ → Seen Unit) l, read size blockSize seen o = .ok l →
    (∀ i m, (i, .copy m) ∈ l → (o ≤ m ∧ m < o + blockSize) ∧ 0 ≤ o ∧ o + blockSize ≤ size)
      ∧ (l.map Prod.fst).Perm (List.range blockSize)

/-- A read whose sum is past the limit copies a cell, if nothing is being written. -/
theorem read_of_overflow (size : ℕ) (hblock : blockSize < 2 ^ 63) (ho : o < 2 ^ 63)
    (hover : 2 ^ 63 ≤ o + blockSize) (hneg : 0 ≤ o) :
    ∃ l i m, read size blockSize (fun _ => ⟨0, 0, fun _ => ()⟩) o = .ok l ∧ (i, .copy m) ∈ l := by
  obtain ⟨n, rfl⟩ : ∃ n, blockSize = n + 1 := ⟨blockSize - 1, by omega⟩
  have hmc := difference_of_overflow hover (by push_cast at hblock ⊢; omega)
  have hread : read size (n + 1) (fun _ => ⟨0, 0, fun _ => ()⟩) o
      = .ok (loop (fun _ => ⟨0, 0, fun _ => ()⟩) (n + 1) (difference (o + (n + 1 : ℕ)))) := by
    unfold read enter
    rw [if_neg (by omega), if_neg (by push_cast at hmc ⊢; omega)]
    rfl
  -- the window is empty, and the cell is not the first one
  have hne : difference (difference (o + (n + 1 : ℕ)) - 1) ≠ 0 := by
    rw [hmc]
    by_cases hlow : o + (n + 1 : ℕ) = 2 ^ 63
    · rw [difference_of_underflow] <;> omega
    · rw [difference_eq_self] <;> push_cast at * <;> omega
  have hcopy : choose (α := Unit) ⟨0, 0, fun _ => ()⟩
      (difference (difference (o + (n + 1 : ℕ)) - 1)) = .copy _ := if_pos (lt_or_gt_of_ne hne)
  exact ⟨_, n, _, hread, List.mem_cons.mpr (.inl (by rw [hcopy]))⟩

/-- **When a read stays inside the memory**: the offset is negative, or its sum with the
length of the block is in the difference type. -/
theorem contained_iff (hsize : size < 2 ^ 63) (hblock : blockSize < 2 ^ 63) (ho : o < 2 ^ 63) :
    Contained size blockSize o ↔ o < 0 ∨ o + blockSize < 2 ^ 63 := by
  constructor
  · intro h
    by_contra hout
    obtain ⟨hneg, hover⟩ := not_or.mp hout
    obtain ⟨l, i, m, hread, hm⟩ := read_of_overflow size hblock ho (not_lt.mp hover)
      (not_lt.mp hneg)
    obtain ⟨-, -, hin⟩ := (h _ l hread).1 i m hm
    omega
  · intro h seen l hread
    obtain ⟨hneg, hle, rfl⟩ := read_eq_ok hread
    have hlt : o + blockSize < 2 ^ 63 := by omega
    rw [difference_eq_self (by omega) hlt] at hle ⊢
    refine ⟨fun i m hm => ?_, by rw [loop_cells]; exact List.reverse_perm _⟩
    obtain ⟨hi, hcopy⟩ := (mem_loop hneg hlt).mp hm
    obtain rfl : m = o + i := by
      unfold choose at hcopy
      split at hcopy
      · exact Fill.copy.inj hcopy
      · cases hcopy
    omega

/-- A block of three cells, from the second cell of a memory of eight. -/
theorem contained_iff_three : Contained 8 3 1 :=
  (contained_iff (by decide) (by decide) (by decide)).mpr (.inr (by decide))

/-- **A read outside the memory**: with the largest offset there is, a block of two cells
is not found to be out of bounds. -/
theorem read_outside : ¬ Contained 8 2 (2 ^ 63 - 1) := by
  intro h
  have hread : read 8 2 (fun _ => ⟨0, 0, fun _ => ()⟩) (2 ^ 63 - 1)
      = .ok [(1, .copy (-2 ^ 63)), (0, .copy (2 ^ 63 - 1))] := by decide
  have := (h _ _ hread).1 1 (-2 ^ 63) (by decide)
  omega

/-! ## What is returned -/

/-- What a cell of the block is filled with. -/
def value (busy : α) (seen : Seen α) : Fill → α
  | .copy mc => seen.cell mc
  | .busy => busy

/-- **What the block holds** after a read, `busy` being what the virtual function puts into a
cell. -/
def output (busy : α) (seen : ℕ → Seen α) (block : ℕ → α) (l : List (ℕ × Fill)) : ℕ → α :=
  l.foldl (fun b x => Function.update b x.1 (value busy (seen x.1) x.2)) block

variable {busy : α} {block : ℕ → α} {l : List (ℕ × Fill)} {i : ℕ} {f : Fill}

theorem output_cons (x : ℕ × Fill) : output busy seen block (x :: l)
    = output busy seen (Function.update block x.1 (value busy (seen x.1) x.2)) l := rfl

theorem output_of_not_mem (h : i ∉ l.map Prod.fst) : output busy seen block l i = block i := by
  induction l generalizing block with
  | nil => rfl
  | cons x l ih =>
    obtain ⟨hx, hl⟩ := not_or.mp (mt List.mem_cons.mpr h)
    rw [output_cons, ih hl, Function.update_of_ne hx]

/-- Each cell is filled once. -/
theorem output_of_mem (hl : (l.map Prod.fst).Nodup) (h : (i, f) ∈ l) :
    output busy seen block l i = value busy (seen i) f := by
  induction l generalizing block with
  | nil => cases h
  | cons x l ih =>
    obtain ⟨hx, hl⟩ := List.nodup_cons.mp hl
    rw [output_cons]
    obtain rfl | hmem := List.mem_cons.mp h
    · rw [output_of_not_mem hx, Function.update_self]
    · exact ih hl hmem

/-- The cells announced for writing. -/
def Announced (bkStart bkEnd m : ℤ) : Prop := bkStart ≤ m ∧ m < bkEnd

/-- **The window does not change** during a read, and so neither do the cells that are not in
it. -/
structure Still (seen : ℕ → Seen α) (bkStart bkEnd : ℤ) (memory : ℤ → α) : Prop where
  starts : ∀ i, (seen i).bkStart = bkStart
  ends : ∀ i, (seen i).bkEnd = bkEnd
  cell : ∀ i m, ¬ Announced bkStart bkEnd m → (seen i).cell m = memory m

/-- **The memory is returned**: each cell of the block that is not announced is what the memory
has, and only those that are announced are marked busy. -/
def Returned (size blockSize : ℕ) (o : ℤ) (busy : α) (seen : ℕ → Seen α) (block : ℕ → α)
    (bkStart bkEnd : ℤ) (memory : ℤ → α) : Prop :=
  ∃ l, read size blockSize seen o = .ok l ∧ ∀ i < blockSize,
    (¬ Announced bkStart bkEnd (o + i) → output busy seen block l i = memory (o + i))
      ∧ ((i, .busy) ∈ l → Announced bkStart bkEnd (o + i))

/-- **When the memory is returned**: the end of the window is not in the block, or it is
before its start. -/
theorem returned_iff {bkStart bkEnd : ℤ} {memory : ℤ → α} (hsize : size < 2 ^ 63) (ho : 0 ≤ o)
    (hin : o + blockSize ≤ size) (hstill : Still seen bkStart bkEnd memory) :
    Returned size blockSize o busy seen block bkStart bkEnd memory
      ↔ ¬ (bkStart ≤ bkEnd ∧ o ≤ bkEnd ∧ bkEnd < o + blockSize) := by
  have hlt : o + blockSize < 2 ^ 63 := by omega
  have hread := read_of_fits seen hsize ho hin
  have hchoose : ∀ i m, choose (seen i) m
      = if m < bkStart ∨ bkEnd < m then .copy m else .busy := by
    intro i m
    unfold choose
    rw [hstill.starts, hstill.ends]
  constructor
  · rintro ⟨l, hl, hall⟩ ⟨hwindow, hlow, hhigh⟩
    obtain rfl : loop seen blockSize (o + blockSize) = l := Except.ok.inj (hread.symm.trans hl)
    obtain ⟨i, hi⟩ : ∃ i : ℕ, o + i = bkEnd := ⟨(bkEnd - o).toNat, by omega⟩
    obtain ⟨-, hmarked⟩ := hall i (by omega)
    have hbusy : Fill.busy = choose (seen i) (o + i) := by
      rw [hchoose, if_neg (by omega)]
    exact absurd (hmarked ((mem_loop ho hlt).mpr ⟨by omega, hbusy⟩)).2 (by omega)
  · intro hout
    refine ⟨_, hread, fun i hi => ⟨fun hann => ?_, fun hbusy => ?_⟩⟩
    · rw [output_of_mem (loop_nodup ..) ((mem_loop ho hlt).mpr ⟨hi, rfl⟩), hchoose, if_pos]
      · exact hstill.cell i _ hann
      · unfold Announced at hann
        omega
    · have hbusy := ((mem_loop ho hlt).mp hbusy).2
      rw [hchoose] at hbusy
      split at hbusy
      · cases hbusy
      · unfold Announced
        omega

/-- A block of three cells, and a window behind it. -/
theorem returned_iff_three :
    Returned 8 3 1 (α := ℤ) 0 (fun _ => ⟨5, 6, fun m => m⟩) (fun _ => 0) 5 6 (fun m => m) :=
  (returned_iff (by decide) (by decide) (by decide)
    ⟨fun _ => rfl, fun _ => rfl, fun _ _ _ => rfl⟩).mpr (by decide)

/-- **A cell is marked busy although nothing is being written**: the one both ends of the
window are at. -/
theorem unwritten_marked_busy :
    ¬ Returned 8 4 0 (α := ℤ) (-1) (fun _ => ⟨2, 2, fun m => m⟩) (fun _ => 0) 2 2
      (fun m => m) := by
  rintro ⟨l, hl, hall⟩
  obtain rfl : l = [(3, .copy 3), (2, .busy), (1, .copy 1), (0, .copy 0)] :=
    (Except.ok.inj hl).symm.trans (by decide)
  obtain ⟨hle, hlt⟩ := (hall 2 (by decide)).2 (by decide)
  omega

end ReadTask

/-! ## The reader of a memory

`MemoryController.read` and `MemoryController.readCell` are the same code, as a thread among
others. -/

open Code BlockerBus ReadTask

/-- What an iteration of `read` sees of a memory. -/
def BlockerBus.seen (w : BlockerBus α) : Seen α := ⟨w.bkStart, w.bkEnd, fun m => w.cell m.toNat⟩

namespace MemoryController

variable (C : MemoryController α) (s : Reader α) {w : BlockerBus α}

/-- The reader enters its loop where `ReadTask.enter` does. -/
theorem read_result (hlt : w.readOffset + C.blockSize < 2 ^ 63) :
    C.read.result exec s w = match enter C.size C.blockSize w.readOffset with
      | .ok mc => (.ok (), { s with
          loop := some (C.blockSize, mc.toNat)
          readOffset := some w.readOffset.toNat }, w)
      | .error e => (.error e, s, w) := by
  unfold MemoryController.read enter onBlocker
  by_cases hneg : w.readOffset < 0
  · simp [hneg, exec]
  · rw [difference_eq_self (by omega) hlt]
    have hsum : (w.readOffset + C.blockSize).toNat = w.readOffset.toNat + C.blockSize := by
      omega
    by_cases hout : C.size < w.readOffset.toNat + C.blockSize
    · have hout' : (C.size : ℤ) < w.readOffset + C.blockSize := by omega
      simp [hneg, hout, hout', exec]
    · have hout' : ¬ (C.size : ℤ) < w.readOffset + C.blockSize := by omega
      simp [hneg, hout, hout', hsum, exec]

/-- **One iteration of the reader**: unless a write is going on, a cell is filled as
`ReadTask.choose` says. -/
theorem readCell_result (hwriting : w.flag .writing = true) (rb mc : ℕ) :
    (C.readCell (rb + 1) (mc + 1)).result exec s w
      = (.ok (), Reader.put rb mc (value C.busy w.seen (choose w.seen mc))
          (choose w.seen mc = .busy) { s with bkEnd := w.bkEnd }, w.setFlag .reading true) := by
  have hset := setFlag_eq_self hwriting
  unfold readCell Reader.wait Reader.waitAcknowledge choose value BlockerBus.seen onBlocker
  by_cases h : mc < w.bkStart ∨ w.bkEnd < mc
  · simp [exec, hset, hwriting, h]
  · simp [exec, hset, hwriting, h]

end MemoryController

end SOS
