import Mathlib.Data.List.GetD
import SoftwareOnSilicon.Memory

/-!
# The two writers

`NonBlockingWriteTask::write` appends one sample, `RingBufferTaskImpl::write` all those of a
blink. They move the bounds of the window in different orders, and test the room that is left
differently.

What both do is to append to a list that the memory holds from its first cell on
(`BlockerBus.holding`). A write that does not fit is turned down with an error, and nothing
has been touched. So the order and the size of the writes make no difference to the memory,
as long as everything fits (`writers_agree`).
-/

namespace SOS

open Interleaving Code BlockerBus

variable {α : Type} {size : ℕ} {fill x : α} {xs ys : List α} {s : Writer} {w : BlockerBus α}

/-- The cells a list is put into, one after another. -/
def listed (fill : α) (xs : List α) : ℕ → α := fun i => xs.getD i fill

/-- **The memory that holds a list**, after the constructors have filled it. -/
def BlockerBus.holding (fill : α) (xs : List α) : BlockerBus α :=
  { start fill with
    bkStart := xs.length
    bkEnd := xs.length
    cell := listed fill xs }

@[simp] theorem holding_bkStart : (holding fill xs).bkStart = xs.length := rfl

@[simp] theorem holding_bkEnd : (holding fill xs).bkEnd = xs.length := rfl

@[simp] theorem holding_cell : (holding fill xs).cell = listed fill xs := rfl

theorem holding_nil : holding fill [] = start fill := rfl

/-- The next cell is the next sample. -/
theorem update_listed (fill x : α) (xs : List α) :
    Function.update (listed fill xs) xs.length x = listed fill (xs ++ [x]) := by
  funext i
  unfold listed
  obtain hlt | rfl | hgt := lt_trichotomy i xs.length
  · rw [Function.update_of_ne hlt.ne, List.getD_append _ _ _ _ hlt]
  · simp
  · have hnext : (xs ++ [x]).length ≤ i := by
      rw [List.length_append]
      exact hgt
    rw [Function.update_of_ne hgt.ne', List.getD_eq_default _ _ hgt.le,
      List.getD_eq_default _ _ hnext]

/-! ## One write -/

@[simp] theorem start_flag (f : MemoryFlag) :
    Function.update (start fill).flag f true = (start fill).flag := Function.update_eq_self ..

/-- **A sample is appended**, if the memory is not full. -/
theorem NonBlockingWriteTask.write_result (hlen : xs.length ≤ size) :
    (NonBlockingWriteTask.write size x).result exec s (holding fill xs)
      = if xs.length < size then (.ok (), { appended := s.appended + 1 }, holding fill (xs ++ [x]))
        else (.error .writerBufferFull, s, holding fill xs) := by
  unfold NonBlockingWriteTask.write onBlocker
  by_cases h : xs.length < size
  · simp [exec, setFlag, holding, h.ne, h, update_listed]
  · have heq : xs.length = size := by omega
    simp [exec, heq]

/-- The cells of a blink are copied. -/
theorem copyCells_result (xs ys : List α) (s : Writer) (hw : w.cell = listed fill ys) :
    (copyCells xs ys.length).result exec s w = (.ok (ys ++ xs).length, s,
      { w with cell := listed fill (ys ++ xs) }) := by
  induction xs generalizing ys w with
  | nil =>
    rw [List.append_nil, ← hw]
    rfl
  | cons x xs ih =>
    have hcell : Function.update w.cell ys.length x = listed fill (ys ++ [x]) := by
      rw [← update_listed, hw]
    have hnext := ih (ys ++ [x]) (w := { w with cell := Function.update w.cell ys.length x }) hcell
    rw [List.length_append, List.length_singleton, List.append_assoc] at hnext
    unfold copyCells onBlocker
    simpa [exec] using hnext

/-- **A blink is appended**, if there is room for all of it. -/
theorem RingBufferTaskImpl.write_result (hlen : ys.length ≤ size) :
    (RingBufferTaskImpl.write size xs).result exec s (holding fill ys)
      = if ys.length + xs.length ≤ size then
          (.ok (), { appended := s.appended + xs.length }, holding fill (ys ++ xs))
        else (.error .characterWriteRangeFailed, s, holding fill ys) := by
  have hroom := room_iff (n := xs.length) hlen
  unfold RingBufferTaskImpl.write onBlocker
  by_cases h : ys.length + xs.length ≤ size
  · have hcopy := copyCells_result xs ys s
      (w := { holding fill ys with bkEnd := ys.length + xs.length }) rfl
    unfold holding at hcopy ⊢
    simp [exec, setFlag, h, hroom, hcopy]
  · simp [exec, h, hroom]

/-! ## Runs of writes -/

/-- A sequence of writes, which an error ends. -/
def writeAll {β : Type} (write : β → MemoryCode Writer α Unit) : List β → MemoryCode Writer α Unit
  | [] => pure ()
  | x :: xs => do
    write x
    writeAll write xs

/-- **What a sequence of writes leads to**, if each of them appends what it fits. -/
theorem writeAll_result {β : Type} {write : β → MemoryCode Writer α Unit} (samples : β → List α)
    (fill : α) (s : Writer) (ys : List α)
    (hwrite : ∀ s ys x, ys.length + (samples x).length ≤ size →
      (write x).result exec s (holding fill ys)
        = (.ok (), { appended := s.appended + (samples x).length }, holding fill (ys ++ samples x)))
    (bs : List β) (hfits : ys.length + (bs.flatMap samples).length ≤ size) (next : List β) :
    (writeAll write (bs ++ next)).result exec s (holding fill ys)
      = (writeAll write next).result exec
          { appended := s.appended + (bs.flatMap samples).length }
          (holding fill (ys ++ bs.flatMap samples)) := by
  induction bs generalizing ys s with
  | nil => simp
  | cons b bs ih =>
    rw [List.flatMap_cons, List.length_append] at hfits
    show ((write b) >>= fun _ => writeAll write (bs ++ next)).result exec s _ = _
    rw [result_bind, hwrite s ys b (by omega), andThen_ok,
      ih _ _ (by rw [List.length_append]; omega)]
    simp [Nat.add_assoc]

/-- Blinks that fit are appended, and the writer goes on with the next ones. -/
theorem RingBufferTaskImpl.writeAll_result (fill : α) {bs : List (List α)}
    (hfits : bs.flatten.length ≤ size) (next : List (List α)) :
    (writeAll (RingBufferTaskImpl.write size) (bs ++ next)).result exec {} (start fill)
      = (writeAll (RingBufferTaskImpl.write size) next).result exec
          { appended := bs.flatten.length } (holding fill bs.flatten) := by
  have hrun := SOS.writeAll_result id fill {} []
    (fun s ys x hx => by
      rw [RingBufferTaskImpl.write_result (Nat.le_of_add_right_le hx)]
      exact if_pos hx)
    bs (by simpa using hfits) next
  simpa [holding_nil] using hrun

/-- Samples that fit are appended, and the writer goes on with the next ones. -/
theorem NonBlockingWriteTask.writeAll_result (fill : α) (hfits : xs.length ≤ size) (next : List α) :
    (writeAll (NonBlockingWriteTask.write size) (xs ++ next)).result exec {} (start fill)
      = (writeAll (NonBlockingWriteTask.write size) next).result exec
          { appended := xs.length } (holding fill xs) := by
  have hrun := SOS.writeAll_result (fun x => [x]) fill {} []
    (fun s ys x (hx : ys.length + 1 ≤ size) => by
      rw [NonBlockingWriteTask.write_result (Nat.le_of_add_right_le hx)]
      exact if_pos hx)
    xs (by simpa using hfits) next
  simpa [holding_nil] using hrun

/-- No write of a blink leaves the window open, whether the blinks fit or not. -/
theorem RingBufferTaskImpl.no_writes_left (bs : List (List α)) (hlen : ys.length ≤ size) :
    ((writeAll (RingBufferTaskImpl.write size) bs).result exec s (holding fill ys)).1
      ≠ .error .unexpectedWritesLeft := by
  induction bs generalizing ys s with
  | nil => exact (fun h => by cases h)
  | cons b bs ih =>
    unfold writeAll
    rw [result_bind, RingBufferTaskImpl.write_result hlen]
    split
    case isTrue hfits => exact ih (by rwa [List.length_append])
    case isFalse => exact (fun h => by cases h)

/-- **The two writers implement the same log.** As long as everything fits, the blinks and
their samples one by one lead to the same memory: it holds the samples from the first cell on,
and the window is empty behind them. A blink that does not fit, and a sample when the memory is
full, lead to an error and leave the memory as it was. -/
theorem writers_agree (size : ℕ) (fill : α) (blinks : List (List α)) :
    (blinks.flatten.length ≤ size →
      (writeAll (RingBufferTaskImpl.write size) blinks).result exec {} (start fill)
          = (.ok (), { appended := blinks.flatten.length }, holding fill blinks.flatten)
        ∧ (writeAll (NonBlockingWriteTask.write size) blinks.flatten).result exec {} (start fill)
          = (.ok (), { appended := blinks.flatten.length }, holding fill blinks.flatten)
        ∧ ∀ blink, size < blinks.flatten.length + blink.length →
          (writeAll (RingBufferTaskImpl.write size) (blinks ++ [blink])).result exec {} (start fill)
            = (.error .characterWriteRangeFailed, { appended := blinks.flatten.length },
              holding fill blinks.flatten))
    ∧ (∀ samples sample, samples.length = size →
      (writeAll (NonBlockingWriteTask.write size) (samples ++ [sample])).result exec {} (start fill)
        = (.error .writerBufferFull, { appended := samples.length }, holding fill samples))
    ∧ ((writeAll (RingBufferTaskImpl.write size) blinks).result exec {} (start fill)).1
      ≠ .error .unexpectedWritesLeft := by
  refine ⟨fun hfits => ⟨?_, ?_, fun blink hblink => ?_⟩, fun samples sample hfull => ?_, ?_⟩
  · have hrun := RingBufferTaskImpl.writeAll_result fill hfits []
    rwa [List.append_nil] at hrun
  · have hrun := NonBlockingWriteTask.writeAll_result fill hfits []
    rwa [List.append_nil] at hrun
  · rw [RingBufferTaskImpl.writeAll_result fill hfits]
    unfold writeAll
    rw [result_bind, RingBufferTaskImpl.write_result hfits, if_neg (not_le.mpr hblink),
      andThen_error]
  · rw [NonBlockingWriteTask.writeAll_result fill hfull.le]
    unfold writeAll
    rw [result_bind, NonBlockingWriteTask.write_result hfull.le, if_neg (not_lt.mpr hfull.ge),
      andThen_error]
  · rw [← holding_nil]
    exact RingBufferTaskImpl.no_writes_left blinks (Nat.zero_le _)

/-- Two blinks of two samples, in a memory of five cells. -/
theorem writers_agree_two :
    (writeAll (RingBufferTaskImpl.write 5) [[1, 2], [3, 4]]).result exec {} (start 0)
        = (.ok (), { appended := 4 }, holding 0 [1, 2, 3, 4])
      ∧ (writeAll (NonBlockingWriteTask.write 5) [1, 2, 3, 4]).result exec {} (start 0)
        = (.ok (), { appended := 4 }, holding 0 [1, 2, 3, 4])
      ∧ (writeAll (RingBufferTaskImpl.write 5) [[1, 2], [3, 4], [5, 6]]).result exec {} (start 0)
        = (.error .characterWriteRangeFailed, { appended := 4 }, holding 0 [1, 2, 3, 4]) := by
  obtain ⟨hring, hplain, hnext⟩ := (writers_agree 5 0 [[1, 2], [3, 4]]).1 (by decide)
  exact ⟨hring, hplain, hnext [5, 6] (by decide)⟩

end SOS
