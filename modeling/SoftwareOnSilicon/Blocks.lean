import SoftwareOnSilicon.Memory

/-!
# Reading a memory while it is written

One outline for the writer and the reader of a memory, and what follows from it.

A block that is read is a consistent cut of what has been appended
(`read_consistent`): that rests on the two opposite directions alone, and not on
the flags and the window.

The window does not keep reader and writer apart. The reader loads its two bounds
and copies the cell in steps of their own, and the writer never waits for the
reading flag, so that the cell may be inside a range announced in between
(`window_overtaken`); as long as it is in none when `BKStart` is loaded, nor in one
that is announced until the copy, the two never meet (`window_exclusive`). And `wait`
puts back a flag that the writer may have lowered since (`writing_left_raised`); as
long as the writer is to lower it then, no flag is left raised (`writing_lowered`).
-/

namespace SOS

open Interleaving Code

variable {α : Type} {C : MemoryController α} {fill : α} {apart calm : Prop}

/-! ## What a read has collected -/

namespace Reader

/-- The cell of the block the read has come down to. -/
def low (s : Reader α) : ℕ := (s.loop.map Prod.fst).getD 0

/-- The cell of the memory the read comes to next. -/
def goal (s : Reader α) : Option ℕ := s.loop.map fun l => l.2 - 1

/-- **What the read has collected**, by the index in the memory; a busy cell is
none of it. -/
def scan (s : Reader α) (blockSize offset i : ℕ) : Option α :=
  if offset ≤ i ∧ i < offset + blockSize ∧ s.marked (i - offset) = false then
    some (s.block (i - offset))
  else none

/-- **What the reader has collected is a consistent cut** of the log. -/
structure Collects (C : MemoryController α) (fill : α) (stored : ℕ) (s : Reader α) : Prop where
  cut : ∀ o, s.readOffset = some o →
    Cut C.log fill stored (o + s.low) (s.scan C.blockSize o)
  at_ : ∀ o rb mc, s.readOffset = some o → s.loop = some (rb, mc) → mc = o + rb
    ∧ rb ≤ C.blockSize

namespace Collects

variable {s : Reader α} {n n' rb mc : ℕ}

/-- Nothing has been read yet. -/
theorem initial {block : ℕ → α} : Collects C fill n { block := block } where
  cut _ ho := by cases ho
  at_ _ _ _ ho := by cases ho

theorem grow (hs : Collects C fill n s) (hn : n ≤ n') : Collects C fill n' s where
  cut o ho := (hs.cut o ho).grow hn
  at_ := hs.at_

/-- A read begins at the end of the block. -/
theorem begin (o : ℕ) : Collects C fill n { s with
    loop := some (C.blockSize, o + C.blockSize)
    readOffset := some o } where
  cut o' ho := by
    obtain rfl := Option.some.inj ho
    refine .start fun i hi => ?_
    show scan _ C.blockSize o i = none
    rw [scan, if_neg]
    rintro ⟨-, hlt, -⟩
    exact absurd hlt (Nat.not_lt.mpr hi)
  at_ o' rb mc ho hl := by
    obtain rfl := Option.some.inj ho
    obtain ⟨rfl, rfl⟩ := Prod.mk.inj (Option.some.inj hl)
    exact ⟨rfl, le_rfl⟩

/-- A read ends at the beginning of the block. -/
theorem finish (hs : Collects C fill n s) (hl : s.loop = some (0, mc)) :
    Collects C fill n { s with loop := none } where
  cut o ho := by
    have hcut := hs.cut o ho
    rw [low, hl] at hcut
    exact hcut
  at_ _ _ _ _ hf := by cases hf

/-- **One cell of the block is filled**, with what the memory holds or with the
mark of `busy`. -/
theorem put (hs : Collects C fill n s) (hl : s.loop = some (rb, mc)) (hrb : rb ≠ 0) {x : α}
    {b : Bool} (hx : b = false → x = filled C.log fill n (mc - 1)) :
    Collects C fill n (s.put (rb - 1) (mc - 1) x b) where
  cut o ho := by
    obtain ⟨hmc, hle⟩ := hs.at_ o rb mc ho hl
    have hcut := hs.cut o ho
    have hlow : o + s.low = o + (rb - 1) + 1 := by
      rw [low, hl]
      show o + rb = _
      omega
    rw [hlow] at hcut
    -- the cells above are as they were
    have habove : Cut C.log fill n (o + (rb - 1) + 1)
        ((s.put (rb - 1) (mc - 1) x b).scan C.blockSize o) := hcut.congr fun i hi => by
      have hne : i - o ≠ rb - 1 := by omega
      simp only [scan, Reader.put, Function.update_of_ne hne]
    have hcell : o + (rb - 1) - o = rb - 1 := by omega
    show Cut C.log fill n (o + (rb - 1)) _
    cases b with
    | true =>
      refine habove.skip (if_neg ?_)
      simp [hcell, Reader.put]
    | false =>
      refine habove.take ((if_pos ⟨by omega, by omega, ?_⟩).trans ?_)
      · have hmc' : mc - 1 = o + (rb - 1) := by omega
        simp [hcell, Reader.put, hx rfl, hmc']
      · simp [hcell, Reader.put]
  at_ o rb' mc' ho hl' := by
    obtain ⟨hmc, hle⟩ := hs.at_ o rb mc ho hl
    obtain ⟨rfl, rfl⟩ := Prod.mk.inj (Option.some.inj hl')
    exact ⟨by omega, by omega⟩

end Collects

end Reader

/-! ## What is followed -/

/-- **What the writer and the reader know of one another.** -/
structure BlockView where
  /-- The number of cells that have been stored. -/
  stored : ℕ
  bkStart : ℕ
  bkEnd : ℕ
  /-- The writing flag. -/
  writing : Bool
  /-- The writer has raised the flag, and is still to lower it. -/
  raised : Bool
  /-- The cell the reader is about to copy. -/
  held : Option ℕ

namespace BlockView

variable {s : Reader α} {h h' h'' : BlockView} {a : MemoryAccess α} {w : BlockerBus α}

/-- A cell is in the range the writer has announced and not released. -/
def Announced (h : BlockView) (m : ℕ) : Prop := h.bkStart ≤ m ∧ m < h.bkEnd

/-- The followed state agrees with the bus. -/
structure Follows (C : MemoryController α) (fill : α) (calm : Prop) (h : BlockView)
    (w : BlockerBus α) : Prop where
  cell : w.cell = filled C.log fill h.stored
  bkStart : w.bkStart = h.bkStart
  bkEnd : w.bkEnd = h.bkEnd
  writing : w.flag .writing = h.writing
  window : h.bkStart < h.bkEnd → h.raised = true
  raised : calm → h.writing = false → h.raised = true

/-- The accesses of the reader that leave all of it alone. -/
inductive Plain : MemoryAccess α → Prop
  | wake : Plain (.testAndSet .updated)
  | done : Plain (.clear .acknowledge)
  | began : Plain (.clear .reading)
  | ended : Plain (.testAndSet .reading)
  | offset : Plain .loadOffset
  | end_ : Plain .loadEnd

/-- **What an access does to what is followed.** The flag is lowered twice for a blink, the
first time with the range announced; and where the window is known to keep off the reader
(`apart`), the cell of a pass is off it when `BKStart` is loaded. -/
inductive Step (C : MemoryController α) (fill : α) (apart : Prop) :
    (t : MemoryThread) → t.Private α → (a : MemoryAccess α) → a.Answer → BlockView →
      BlockView → Prop
  | raise {s : Writer} {u : Unit} {h : BlockView} :
      Step C fill apart .writer s (.clear .writing) u h { h with writing := false, raised := true }
  | lower {s : Writer} {b : Bool} {h : BlockView} :
      Step C fill apart .writer s (.testAndSet .writing) b h
        { h with writing := true, raised := h.bkStart < h.bkEnd }
  | announce {s : Writer} {i : ℕ} {u : Unit} {h : BlockView} :
      Step C fill apart .writer s (.storeEnd i) u h { h with bkEnd := i }
  | append {s : Writer} {i : ℕ} {x : α} {u : Unit} {h : BlockView} :
      Step C fill apart .writer s (.storeCell i x) u h { h with stored := h.stored + 1 }
  | release {s : Writer} {i : ℕ} {u : Unit} {h : BlockView} :
      Step C fill apart .writer s (.storeStart i) u h { h with bkStart := i }
  | start {s : Writer} {h : BlockView} : Step C fill apart .writer s .loadStart h.bkStart h h
  | end_ {s : Writer} {h : BlockView} : Step C fill apart .writer s .loadEnd h.bkEnd h h
  | peek {s : Reader α} {h : BlockView} :
      Step C fill apart .reader s (.testAndSet .writing) h.writing h { h with writing := true }
  | putBack {s : Reader α} {u : Unit} {h : BlockView} :
      Step C fill apart .reader s (.clear .writing) u h { h with writing := false }
  | decide {s : Reader α} {h : BlockView}
      (off : apart → ∀ m, s.goal = some m → s.bkEnd < m → ¬ h.Announced m) :
      Step C fill apart .reader s .loadStart h.bkStart h
        { h with held := s.goal.filter fun m => m < h.bkStart ∨ s.bkEnd < m }
  | copy {s : Reader α} {i : ℕ} {h : BlockView} :
      Step C fill apart .reader s (.loadCell i) (filled C.log fill h.stored i) h
        { h with held := none }
  | plain {s : Reader α} {a : MemoryAccess α} {x : a.Answer} {h : BlockView} (ha : Plain a) :
      Step C fill apart .reader s a x h h

/-! ### The writer's side -/

/-- **What the reader may do.** -/
structure Looked (h h' : BlockView) : Prop where
  stored : h'.stored = h.stored
  bkStart : h'.bkStart = h.bkStart
  bkEnd : h'.bkEnd = h.bkEnd
  raised : h'.raised = h.raised

/-- What the writer asserts before an access. -/
inductive Appending (C : MemoryController α) : MemoryAccess α → BlockView → Prop
  | raise {h : BlockView} : Appending C (.clear .writing) h
  | lower {h : BlockView} (raised : h.raised = true) : Appending C (.testAndSet .writing) h
  | announce {i : ℕ} {h : BlockView} (raised : h.raised = true) : Appending C (.storeEnd i) h
  | append {i : ℕ} {x : α} {h : BlockView} (cell : i = h.stored) (next : x = C.log h.stored) :
      Appending C (.storeCell i x) h
  | release {i : ℕ} {h : BlockView} (raised : h.raised = true) (le : h.bkStart ≤ i) :
      Appending C (.storeStart i) h
  | start {h : BlockView} : Appending C .loadStart h
  | end_ {h : BlockView} (raised : C.blink = none → h.raised = true) : Appending C .loadEnd h

/-- What the writer asserts between two calls. -/
structure Appended (s : Writer) (h : BlockView) : Prop where
  appended : s.appended = h.stored
  start : h.bkStart = h.stored
  end_ : h.bkEnd = h.stored
  lowered : h.raised = false

/-! ### The reader's side -/

/-- **What the writer may do.** A range it announces does not contain the cell the
reader holds, where that is known. -/
structure Grown (apart : Prop) (h h' : BlockView) : Prop where
  stored : h.stored ≤ h'.stored
  bkStart : h.bkStart ≤ h'.bkStart
  held : h'.held = h.held
  apart : apart → ∀ m, h.held = some m → ¬ h.Announced m → ¬ h'.Announced m

/-- What the reader asserts before an access. -/
inductive Reading (apart : Prop) : MemoryAccess α → BlockView → Prop
  | plain {a : MemoryAccess α} {h : BlockView} (ha : Plain a) (held : h.held = none) :
      Reading apart a h
  | peek {h : BlockView} (held : h.held = none) : Reading apart (.testAndSet .writing) h
  | putBack {h : BlockView} (held : h.held = none) : Reading apart (.clear .writing) h
  | decide {h : BlockView} (held : h.held = none) : Reading apart .loadStart h
  | copy {m : ℕ} {h : BlockView} (held : h.held = some m) (clear : apart → ¬ h.Announced m) :
      Reading apart (.loadCell m) h

/-! ### Stability -/

namespace Looked

theorem refl (h : BlockView) : Looked h h := ⟨rfl, rfl, rfl, rfl⟩

theorem trans (h₁ : Looked h h') (h₂ : Looked h' h'') : Looked h h'' where
  stored := h₂.stored.trans h₁.stored
  bkStart := h₂.bkStart.trans h₁.bkStart
  bkEnd := h₂.bkEnd.trans h₁.bkEnd
  raised := h₂.raised.trans h₁.raised

theorem appending (hr : Looked h h') (hw : Appending C a h) : Appending C a h' := by
  cases hw with
  | raise => exact .raise
  | lower raised => exact .lower (hr.raised.trans raised)
  | announce raised => exact .announce (hr.raised.trans raised)
  | append cell next => exact .append (hr.stored ▸ cell) (hr.stored ▸ next)
  | release raised le => exact .release (hr.raised.trans raised) (hr.bkStart ▸ le)
  | start => exact .start
  | end_ raised => exact .end_ fun hc => hr.raised.trans (raised hc)

theorem appended {s : Writer} (hr : Looked h h') (hw : Appended s h) : Appended s h' where
  appended := hw.appended.trans hr.stored.symm
  start := by rw [hr.bkStart, hr.stored, hw.start]
  end_ := by rw [hr.bkEnd, hr.stored, hw.end_]
  lowered := hr.raised.trans hw.lowered

end Looked

namespace Grown

theorem refl (h : BlockView) : Grown apart h h := ⟨le_rfl, le_rfl, rfl, fun _ _ _ hc => hc⟩

theorem trans (h₁ : Grown apart h h') (h₂ : Grown apart h' h'') : Grown apart h h'' where
  stored := h₁.stored.trans h₂.stored
  bkStart := h₁.bkStart.trans h₂.bkStart
  held := h₂.held.trans h₁.held
  apart ha m hm hc := h₂.apart ha m (h₁.held.trans hm) (h₁.apart ha m hm hc)

theorem reading (hr : Grown apart h h') (hn : Reading apart a h) : Reading apart a h' := by
  cases hn with
  | plain ha held => exact .plain ha (hr.held.trans held)
  | peek held => exact .peek (hr.held.trans held)
  | putBack held => exact .putBack (hr.held.trans held)
  | decide held => exact .decide (hr.held.trans held)
  | copy held clear =>
    exact .copy (hr.held.trans held) fun ha => hr.apart ha _ held (clear ha)

end Grown

end BlockView

/-- **The outline of the memory.** It has two switches: whether the window is known to
keep off the cell the reader copies (`apart`), and whether the flag is known to be put
back in a write only (`calm`). -/
def memoryOutline (C : MemoryController α) (fill : α) (apart calm : Prop) :
    (memory C).Outline BlockView where
  follows h w := h.Follows C fill calm w
  step t s a x h h' := BlockView.Step C fill apart t s a x h h'
  node
    | .writer, _, a, h => BlockView.Appending C a h
    | .reader, s, a, h => s.Collects C fill h.stored ∧ BlockView.Reading apart a h
  rest
    | .writer, s, h => BlockView.Appended s h
    | .reader, s, h => s.Collects C fill h.stored ∧ h.held = none
  error
    | .writer, _, _, h => h.raised = false
    | .reader, s, _, h => s.Collects C fill h.stored ∧ h.held = none
  rely
    | .writer, _, h, h' => BlockView.Looked h h'
    | .reader, _, h, h' => BlockView.Grown apart h h'
  refl t _ h := by
    cases t with
    | writer => exact .refl h
    | reader => exact .refl h
  trans t _ _ _ _ h₁ h₂ := by
    cases t with
    | writer => exact h₁.trans h₂
    | reader => exact h₁.trans h₂
  node_stable t s a h h' hr hn := by
    cases t with
    | writer => exact hr.appending hn
    | reader => exact ⟨hn.1.grow hr.stored, hr.reading hn.2⟩
  rest_stable t s h h' hr hn := by
    cases t with
    | writer => exact hr.appended hn
    | reader => exact ⟨hn.1.grow hr.stored, hr.held.trans hn.2⟩

/-! ## The writers -/

section Writers

open BlockView

variable {s : Writer} {h : BlockView} {n b e size : ℕ} {r : Bool}

/-- Where the writer is: so many cells stored and released, the end of the window, and
whether the flag is still to be lowered. -/
structure Stands (n b e : ℕ) (r : Bool) (h : BlockView) : Prop where
  stored : h.stored = n
  bkStart : h.bkStart = b
  bkEnd : h.bkEnd = e
  raised : h.raised = r

theorem Stands.looked {h h' : BlockView} (hs : Stands n b e r h) (hr : Looked h h') :
    Stands n b e r h' where
  stored := hr.stored.trans hs.stored
  bkStart := hr.bkStart.trans hs.bkStart
  bkEnd := hr.bkEnd.trans hs.bkEnd
  raised := hr.raised.trans hs.raised

theorem BlockView.Appended.stands (hs : Appended s h) :
    Stands s.appended s.appended s.appended false h :=
  ⟨hs.appended.symm, hs.start.trans hs.appended.symm, hs.end_.trans hs.appended.symm, hs.lowered⟩

/-- With nothing announced the flag is lowered for good. -/
theorem Stands.not_announced (hs : Stands n b b r h) : decide (h.bkStart < h.bkEnd) = false := by
  rw [hs.bkStart, hs.bkEnd]
  simp

/-- A write is over. -/
theorem Stands.appended (hs : Stands s.appended s.appended s.appended false h) : Appended s h :=
  ⟨hs.stored.symm, hs.bkStart.trans hs.stored.symm, hs.bkEnd.trans hs.stored.symm, hs.raised⟩

/-- An access of the writer, wherever it is. -/
theorem writer_safe {a : MemoryAccess α} {Q : Writer → a.Answer → BlockView → Prop}
    (hs : Stands n b e r h) (hnode : Appending C a h)
    (hstep : ∀ x h h', Stands n b e r h → Step C fill apart .writer s a x h h' → Q s x h') :
    ((onBlocker a).run s).Safe ((memoryOutline C fill apart calm).rules .writer) Q h :=
  Pool.Outline.safe_perform (Stands n b e r) hs (fun _ _ hr hs => hs.looked hr) hnode hstep

/-- **`write` of `NonBlockingWriteTask`** keeps to the outline. -/
theorem nonBlockingWrite_safe {x : α} (hs : Appended s h) (hx : x = C.log s.appended) :
    ((NonBlockingWriteTask.write size x).run s).Safe
      ((memoryOutline C fill apart calm).rules .writer) (fun s _ h => Appended s h) h := by
  simp only [NonBlockingWriteTask.write, run_bind, Prog.safe_bind]
  refine writer_safe hs.stands .start ?_
  rintro _ h₁ _ hs ⟨⟩
  rw [hs.bkStart]
  split
  case isFalse => exact hs.raised
  case isTrue =>
    simp only [run_bind, Prog.safe_bind]
    refine writer_safe hs .raise ?_
    rintro ⟨⟩ h₂ _ hs ⟨⟩
    refine writer_safe (r := true) ⟨hs.stored, hs.bkStart, hs.bkEnd, rfl⟩ (.end_ fun _ => rfl) ?_
    rintro _ h₃ _ hs ⟨⟩
    rw [hs.bkEnd]
    refine writer_safe hs (.announce hs.raised) ?_
    rintro ⟨⟩ h₄ _ hs ⟨⟩
    refine writer_safe (e := s.appended + 1) ⟨hs.stored, hs.bkStart, rfl, hs.raised⟩
      (.append hs.stored.symm (hs.stored.symm ▸ hx)) ?_
    rintro ⟨⟩ h₅ _ hs ⟨⟩
    refine writer_safe (n := s.appended + 1)
      ⟨congrArg (· + 1) hs.stored, hs.bkStart, hs.bkEnd, hs.raised⟩
      (.release hs.raised (hs.bkStart.trans_le (Nat.le_succ _))) ?_
    rintro ⟨⟩ h₆ _ hs ⟨⟩
    simp only [run_change, Prog.safe_ret]
    refine writer_safe (b := s.appended + 1) ⟨hs.stored, rfl, hs.bkEnd, hs.raised⟩
      (.lower hs.raised) ?_
    rintro _ h₇ _ hs ⟨⟩
    exact Stands.appended ⟨hs.stored, hs.bkStart, hs.bkEnd, hs.not_announced⟩

/-- The cells of a blink are copied one after another. -/
theorem copyCells_safe {Q : Writer → ℕ → BlockView → Prop} {k : ℕ}
    (hs : Stands n b e r h) (hQ : ∀ h, Stands (n + k) b e r h → Q s (n + k) h) :
    ((copyCells ((List.range k).map fun i => C.log (n + i)) n).run s).Safe
      ((memoryOutline C fill apart calm).rules .writer) Q h := by
  induction k generalizing n h with
  | zero => exact hQ h hs
  | succ k ih =>
    rw [List.range_succ_eq_map, List.map_cons, List.map_map]
    simp only [copyCells, run_bind, Prog.safe_bind]
    refine writer_safe hs (.append hs.stored.symm (by rw [hs.stored, Nat.add_zero])) ?_
    rintro ⟨⟩ h₁ _ hs ⟨⟩
    have hcells : ((fun i => C.log (n + i)) ∘ Nat.succ) = fun i => C.log (n + 1 + i) := by
      funext i
      show C.log (n + (i + 1)) = _
      congr 1
      omega
    rw [hcells]
    refine ih ⟨congrArg (· + 1) hs.stored, hs.bkStart, hs.bkEnd, hs.raised⟩ fun h hs => ?_
    have hnk : n + 1 + k = n + (k + 1) := by omega
    rw [hnk] at hs ⊢
    exact hQ h hs

/-- **`write` of `RingBufferTaskImpl`** keeps to the outline. -/
theorem blinkWrite_safe {k : ℕ} (hs : Appended s h) (hblink : C.blink ≠ none) :
    ((RingBufferTaskImpl.write size
      ((List.range k).map fun i => C.log (s.appended + i))).run s).Safe
      ((memoryOutline C fill apart calm).rules .writer) (fun s _ h => Appended s h) h := by
  have hlength : ((List.range k).map fun i => C.log (s.appended + i)).length = k := by simp
  simp only [RingBufferTaskImpl.write, run_bind, Prog.safe_bind, hlength]
  refine writer_safe hs.stands .start ?_
  rintro _ h₁ _ hs ⟨⟩
  rw [hs.bkStart]
  split
  case isFalse => exact hs.raised
  case isTrue =>
    simp only [run_bind, Prog.safe_bind]
    refine writer_safe hs .raise ?_
    rintro ⟨⟩ h₂ _ hs ⟨⟩
    refine writer_safe (r := true) ⟨hs.stored, hs.bkStart, hs.bkEnd, rfl⟩ (.announce rfl) ?_
    rintro ⟨⟩ h₃ _ hs ⟨⟩
    refine writer_safe (e := s.appended + k)
      ⟨hs.stored, hs.bkStart, congrArg (s.appended + ·) hlength, hs.raised⟩ (.lower hs.raised) ?_
    rintro _ h₄ _ hs ⟨⟩
    -- the range is still announced, and the flag is to be raised once more
    refine writer_safe (r := s.appended < s.appended + k)
      ⟨hs.stored, hs.bkStart, hs.bkEnd, by simp only [hs.bkStart, hs.bkEnd]⟩ .start ?_
    rintro _ h₅ _ hs ⟨⟩
    rw [hs.bkStart]
    refine copyCells_safe hs fun h₆ hs => ?_
    refine writer_safe hs .raise ?_
    rintro ⟨⟩ h₇ _ hs ⟨⟩
    refine writer_safe (r := true) ⟨hs.stored, hs.bkStart, hs.bkEnd, rfl⟩
      (.release rfl (hs.bkStart.trans_le (Nat.le_add_right ..))) ?_
    rintro ⟨⟩ h₈ _ hs ⟨⟩
    simp only [run_change, Prog.safe_ret]
    refine writer_safe (b := s.appended + k) ⟨hs.stored, rfl, hs.bkEnd, hs.raised⟩
      (.lower hs.raised) ?_
    rintro _ h₉ _ hs ⟨⟩
    refine writer_safe ⟨hs.stored, hs.bkStart, hs.bkEnd, hs.not_announced⟩ .start ?_
    rintro _ h₁₀ _ hs ⟨⟩
    refine writer_safe hs (.end_ fun hc => absurd hc hblink) ?_
    rintro _ h₁₁ _ hs ⟨⟩
    split
    case isTrue => exact hs.raised
    case isFalse => exact hs.appended

end Writers

/-! ## The reader -/

section Reads

open BlockView

variable {s : Reader α} {h : BlockView} {rb mc : ℕ}

/-- What the reader knows of the view while it holds no cell survives interference. -/
theorem collects_stable (s : Reader α) {h h' : BlockView}
    (hr : (memoryOutline C fill apart calm).rely .reader s h h')
    (hn : s.Collects C fill h.stored ∧ h.held = none) :
    s.Collects C fill h'.stored ∧ h'.held = none := by
  obtain ⟨hstored, -, hheld, -⟩ : Grown apart h h' := hr
  exact ⟨hn.1.grow hstored, hheld.trans hn.2⟩

/-- An access of the reader that leaves the view alone. -/
theorem plain_safe {a : MemoryAccess α} {Q : Reader α → a.Answer → BlockView → Prop}
    (ha : Plain a) (hs : s.Collects C fill h.stored) (hheld : h.held = none)
    (hQ : ∀ x h, s.Collects C fill h.stored → h.held = none → Q s x h) :
    ((onBlocker a).run s).Safe ((memoryOutline C fill apart calm).rules .reader) Q h := by
  refine Pool.Outline.safe_perform (fun h => s.Collects C fill h.stored ∧ h.held = none)
    ⟨hs, hheld⟩ (fun _ _ hr => collects_stable s hr) ⟨hs, .plain ha hheld⟩ ?_
  intro x h h' hn hstep
  cases hstep with
  | plain => exact hQ x h hn.1 hn.2
  | peek => cases ha
  | putBack => cases ha
  | decide => cases ha
  | copy => cases ha

/-- **`read`**, up to its loop. -/
theorem read_safe (hs : s.Collects C fill h.stored) (hheld : h.held = none) :
    (C.read.run s).Safe ((memoryOutline C fill apart calm).rules .reader)
      (fun s _ h => s.Collects C fill h.stored ∧ h.held = none) h := by
  simp only [MemoryController.read, run_bind, Prog.safe_bind]
  refine plain_safe .offset hs hheld fun o h₁ hs hheld => ?_
  split
  case isTrue => exact ⟨hs, hheld⟩
  case isFalse =>
    split
    case isTrue => exact ⟨hs, hheld⟩
    case isFalse => exact ⟨.begin o.toNat, hheld⟩

/-- **The end of a pass**: the cell has been put in its place. -/
theorem put_safe {e : ℕ} {x : α} {busy : Bool}
    (hs : Reader.Collects C fill h.stored { s with bkEnd := e }) (hheld : h.held = none)
    (hl : s.loop = some (rb, mc)) (hrb : rb ≠ 0)
    (hx : busy = false → x = filled C.log fill h.stored (mc - 1)) :
    (Reader.waitAcknowledge.run ({ s with bkEnd := e }.put (rb - 1) (mc - 1) x busy)).Safe
      ((memoryOutline C fill apart calm).rules .reader)
      (fun s _ h => s.Collects C fill h.stored ∧ h.held = none) h := by
  simp only [Reader.waitAcknowledge, run_bind, Prog.safe_bind]
  exact plain_safe .ended (hs.put hl hrb hx) hheld fun _ _ hs hheld => ⟨hs, hheld⟩

/-- **The decision**: the cell is copied if it is off the window, and else it is busy. -/
theorem decide_safe {e : ℕ} (hs : s.Collects C fill h.stored) (hheld : h.held = none)
    (hl : s.loop = some (rb, mc)) (hrb : rb ≠ 0) :
    ((do
      let bkStart ← onBlocker .loadStart
      if mc - 1 < bkStart ∨ e < mc - 1 then
        let x ← onBlocker (.loadCell (mc - 1))
        change (Reader.put (rb - 1) (mc - 1) x false)
      else
        change (Reader.put (rb - 1) (mc - 1) C.busy true)
      Reader.waitAcknowledge : MemoryCode (Reader α) α Unit).run { s with bkEnd := e }).Safe
      ((memoryOutline C fill apart calm).rules .reader)
      (fun s _ h => s.Collects C fill h.stored ∧ h.held = none) h := by
  have hgoal : ({ s with bkEnd := e } : Reader α).goal = some (mc - 1) := by
    rw [Reader.goal, hl, Option.map_some]
  have hs' : Reader.Collects C fill h.stored { s with bkEnd := e } := ⟨hs.cut, hs.at_⟩
  simp only [run_bind, Prog.safe_bind]
  refine Pool.Outline.safe_perform _ ⟨hs', hheld⟩ (fun _ _ => collects_stable _)
    ⟨hs', .decide hheld⟩ ?_
  rintro _ h₁ _ ⟨hs, hheld⟩ hstep
  cases hstep with
  | plain ha => cases ha
  | decide off =>
  split
  case isTrue hoff =>
    -- the cell is off the window, and copied
    have hheld' : (({ s with bkEnd := e } : Reader α).goal.filter
        fun m => m < h₁.bkStart ∨ e < m) = some (mc - 1) :=
      Option.filter_eq_some_iff.mpr ⟨hgoal, decide_eq_true hoff⟩
    have hclear : apart → ¬ h₁.Announced (mc - 1) := by
      rintro ha hin
      obtain hlt | hlt := hoff
      · exact absurd hin.1 (Nat.not_le.mpr hlt)
      · exact off ha _ hgoal hlt hin
    simp only [run_bind, run_change, Prog.safe_bind, Prog.safe_ret]
    refine Pool.Outline.safe_perform (fun h => Reader.Collects C fill h.stored
      { s with bkEnd := e }) hs (fun _ _ hr hn => hn.grow hr.stored)
      ⟨hs, .copy hheld' hclear⟩ ?_
    rintro _ h₂ _ hs hstep
    cases hstep with
    | plain ha => cases ha
    | copy => exact put_safe hs rfl hl hrb fun _ => rfl
  case isFalse hin =>
    have hheld' : (({ s with bkEnd := e } : Reader α).goal.filter
        fun m => m < h₁.bkStart ∨ e < m) = none := by
      rw [hgoal]
      exact if_neg (by simpa using hin)
    simp only [run_bind, run_change, Prog.safe_bind, Prog.safe_ret]
    exact put_safe hs hheld' hl hrb (fun hf => by cases hf)

/-- **One pass of the loop of `read`.** -/
theorem readCell_safe (hs : s.Collects C fill h.stored) (hheld : h.held = none)
    (hl : s.loop = some (rb, mc)) (hrb : rb ≠ 0) :
    ((C.readCell rb mc).run s).Safe ((memoryOutline C fill apart calm).rules .reader)
      (fun s _ h => s.Collects C fill h.stored ∧ h.held = none) h := by
  simp only [MemoryController.readCell, Reader.wait, run_bind, Prog.safe_bind]
  refine Pool.Outline.safe_perform _ ⟨hs, hheld⟩ (fun _ _ => collects_stable s)
    ⟨hs, .peek hheld⟩ ?_
  rintro _ h₁ _ ⟨hs, hheld⟩ hstep
  cases hstep with
  | plain ha => cases ha
  | peek =>
  cases hw : h₁.writing with
  | false =>
    -- a write is going on: the flag is put back, and the pass is over
    simp only [Bool.not_false, if_true, run_bind, Prog.safe_bind]
    refine Pool.Outline.safe_perform _ ⟨hs, hheld⟩ (fun _ _ => collects_stable s)
      ⟨hs, .putBack hheld⟩ ?_
    rintro ⟨⟩ h₂ _ ⟨hs, hheld⟩ hstep
    cases hstep with
    | plain ha => cases ha
    | putBack => exact ⟨hs, hheld⟩
  | true =>
    simp only [Bool.not_true, Bool.false_eq_true, if_false, run_bind, Prog.safe_bind]
    refine plain_safe .began hs hheld fun _ h₂ hs hheld => ?_
    simp only [run_pure, Prog.safe_ret, Bool.not_false, if_true, run_bind, Prog.safe_bind]
    refine plain_safe .end_ hs hheld fun e h₃ hs hheld => ?_
    simp only [run_change, Prog.safe_ret]
    simpa only [run_bind, Prog.safe_bind] using decide_safe hs hheld hl hrb

/-- **`event_loop`** keeps to the outline. -/
theorem readerEventLoop_safe (hs : s.Collects C fill h.stored) (hheld : h.held = none) :
    (C.eventLoop.run s).Safe ((memoryOutline C fill apart calm).rules .reader)
      (fun s _ h => s.Collects C fill h.stored ∧ h.held = none) h := by
  simp only [MemoryController.eventLoop, run_bind, run_look, Prog.safe_bind, Prog.safe_ret]
  cases hl : s.loop with
  | none =>
    simp only [run_bind, Prog.safe_bind]
    refine plain_safe .wake hs hheld fun updated h₁ hs hheld => ?_
    split
    case isTrue => exact read_safe hs hheld
    case isFalse => exact ⟨hs, hheld⟩
  | some l =>
    obtain ⟨rb, mc⟩ := l
    simp only
    split
    case isTrue hrb => exact readCell_safe hs hheld hl hrb
    case isFalse hrb =>
      obtain rfl : rb = 0 := not_not.mp hrb
      simp only [run_bind, run_change, Prog.safe_bind, Prog.safe_ret]
      exact plain_safe .done (hs.finish hl) hheld fun _ _ hs hheld => ⟨hs, hheld⟩

end Reads

/-! ## The two threads together -/

namespace BlockView

variable {h : BlockView} {w : BlockerBus α} {a : MemoryAccess α}

/-- **The bus under an access of the writer** is what is followed of it. -/
theorem Follows.writer (apart : Prop) {s : Writer} (hf : h.Follows C fill calm w)
    (hw : Appending C a h)
    (hapart : apart → ∀ e m, a = .storeEnd e → h.held = some m → ¬ (h.bkStart ≤ m ∧ m < e)) :
    ∃ h', h'.Follows C fill calm (w.exec a).2 ∧ Step C fill apart .writer s a (w.exec a).1 h h'
      ∧ Grown apart h h' := by
  obtain ⟨hcell, hstart, hend, hwriting, hwindow, hraised⟩ := hf
  cases hw with
  | raise =>
    exact ⟨{ h with writing := false, raised := true },
      ⟨hcell, hstart, hend, rfl, fun _ => rfl, fun _ _ => rfl⟩, .raise,
      le_rfl, le_rfl, rfl, fun _ _ _ hc => hc⟩
  | lower =>
    exact ⟨{ h with writing := true, raised := h.bkStart < h.bkEnd },
      ⟨hcell, hstart, hend, rfl, decide_eq_true, fun _ hf => by cases hf⟩, .lower,
      le_rfl, le_rfl, rfl, fun _ _ _ hc => hc⟩
  | @announce e _ raised =>
    exact ⟨{ h with bkEnd := e }, ⟨hcell, hstart, rfl, hwriting, fun _ => raised, hraised⟩,
      .announce, le_rfl, le_rfl, rfl, fun ha m hm _ => hapart ha e m rfl hm⟩
  | @append i x _ cell next =>
    refine ⟨{ h with stored := h.stored + 1 }, ⟨?_, hstart, hend, hwriting, hwindow, hraised⟩,
      .append, Nat.le_succ _, le_rfl, rfl, fun _ _ _ hc => hc⟩
    show Function.update w.cell i x = _
    funext j
    rw [filled_succ, hcell, cell, next]
  | @release i _ raised le =>
    exact ⟨{ h with bkStart := i }, ⟨hcell, rfl, hend, hwriting, fun _ => raised, hraised⟩,
      .release, le_rfl, le, rfl, fun _ m _ hc ha => hc ⟨le.trans ha.1, ha.2⟩⟩
  | start =>
    refine ⟨h, ⟨hcell, hstart, hend, hwriting, hwindow, hraised⟩, ?_, .refl h⟩
    show Step _ _ _ _ _ .loadStart w.bkStart _ _
    exact hstart ▸ .start
  | end_ =>
    refine ⟨h, ⟨hcell, hstart, hend, hwriting, hwindow, hraised⟩, ?_, .refl h⟩
    show Step _ _ _ _ _ .loadEnd w.bkEnd _ _
    exact hend ▸ .end_

/-- **The bus under an access of the reader** is what is followed of it. -/
theorem Follows.reader {s : Reader α} (hf : h.Follows C fill calm w) (hr : Reading apart a h)
    (hcalm : calm → a = .clear .writing → h.raised = true)
    (hapart : apart → a = .loadStart → ∀ m, s.goal = some m → s.bkEnd < m → ¬ h.Announced m) :
    ∃ h', h'.Follows C fill calm (w.exec a).2 ∧ Step C fill apart .reader s a (w.exec a).1 h h'
      ∧ Looked h h' := by
  obtain ⟨hcell, hstart, hend, hwriting, hwindow, hraised⟩ := hf
  cases hr with
  | plain ha =>
    refine ⟨h, ?_, .plain ha, .refl h⟩
    cases ha with
    | _ => exact ⟨hcell, hstart, hend, hwriting, hwindow, hraised⟩
  | peek =>
    refine ⟨{ h with writing := true },
      ⟨hcell, hstart, hend, rfl, hwindow, fun _ hf => by cases hf⟩, ?_, rfl, rfl, rfl, rfl⟩
    show Step _ _ _ _ _ (.testAndSet .writing) (w.flag .writing) _ _
    rw [hwriting]
    exact .peek
  | putBack =>
    exact ⟨{ h with writing := false },
      ⟨hcell, hstart, hend, rfl, hwindow, fun hc _ => hcalm hc rfl⟩, .putBack, rfl, rfl, rfl, rfl⟩
  | decide =>
    refine ⟨{ h with held := s.goal.filter fun m => m < h.bkStart ∨ s.bkEnd < m },
      ⟨hcell, hstart, hend, hwriting, hwindow, hraised⟩, ?_, rfl, rfl, rfl, rfl⟩
    show Step _ _ _ _ _ .loadStart w.bkStart _ _
    rw [hstart]
    exact .decide fun ha => hapart ha rfl
  | @copy m =>
    refine ⟨{ h with held := none }, ⟨hcell, hstart, hend, hwriting, hwindow, hraised⟩, ?_,
      rfl, rfl, rfl, rfl⟩
    show Step _ _ _ _ _ (.loadCell m) (w.cell m) _ _
    rw [hcell]
    exact .copy

end BlockView

/-- The cell the reader is about to copy. -/
def copying (σ : (memory C).State) : Option ℕ :=
  match σ.thread .reader with
  | .op _ (.loadCell m) _ => some m
  | _ => none

/-- The writer is in a write in which it is still to lower the flag: it has raised it, or a
range is announced. -/
def lowering (σ : (memory C).State) : Bool :=
  σ.world.bkStart < σ.world.bkEnd || match σ.thread .writer with
    | .op _ .loadEnd _ => C.blink.isNone
    | .op _ (.storeEnd _) _ => true
    | .op _ (.testAndSet .writing) _ => true
    | _ => false

/-- **The window keeps off the cell of a pass**, from when `BKStart` is loaded on. -/
structure WindowApart (σ σ' : (memory C).State) : Prop where
  /-- The writer announces no range around a cell the reader is about to copy. -/
  announced : ∀ s e k u, σ.thread .writer = .op s (.storeEnd e) k → σ'.thread .writer = k u →
    ∀ m, copying σ = some m → ¬ (σ.world.bkStart ≤ m ∧ m < e)
  /-- When the reader loads `BKStart`, a cell it has found above `BKEnd` is in no range. -/
  loaded : ∀ s k x, σ.thread .reader = .op s .loadStart k → σ'.thread .reader = k x →
    ∀ m, s.goal = some m → s.bkEnd < m → ¬ (σ.world.bkStart ≤ m ∧ m < σ.world.bkEnd)

/-- **The reader puts the flag back while the writer is still to lower it.** -/
def PutsBackInside (σ σ' : (memory C).State) : Prop :=
  ∀ s k u, σ.thread .reader = .op s (.clear .writing) k → σ'.thread .reader = k u →
    lowering σ = true

/-- Every schedule of the two threads and the client. -/
abbrev MemoryRun (ok : (memory C).State → (memory C).State → Prop) (σ₀ σ : (memory C).State) :
    Prop :=
  (memory C).Reaches Client ok σ₀ σ

/-- A writer that is still to lower the flag has raised it. -/
theorem keeps_raised {σ : (memory C).State} {h : BlockView}
    (hk : (memoryOutline C fill apart calm).Keeps σ h) (hl : lowering σ = true) :
    h.raised = true := by
  rw [lowering, Bool.or_eq_true] at hl
  obtain hwindow | hnode := hl
  · refine hk.1.window ?_
    rw [← hk.1.bkStart, ← hk.1.bkEnd]
    exact of_decide_eq_true hwindow
  · split at hnode
    case h_1 s k hs =>
      cases hk.node hs with
      | end_ raised => exact raised (Option.isNone_iff_eq_none.mp hnode)
    case h_2 s e k hs =>
      cases hk.node hs with
      | announce raised => exact raised
    case h_3 s k hs =>
      cases hk.node hs with
      | lower raised => exact raised
    case h_4 => cases hnode

/-- A reader that holds a cell is about to copy it. -/
theorem keeps_held {σ : (memory C).State} {h : BlockView} {m : ℕ}
    (hk : (memoryOutline C fill apart calm).Keeps σ h) (hm : h.held = some m) :
    copying σ = some m := by
  have hs := hk.2 .reader
  unfold copying
  generalize σ.thread .reader = p at hs ⊢
  cases p with
  | ret s => exact absurd (hs.2.symm.trans hm) (by simp)
  | fail s e => exact absurd (hs.2.symm.trans hm) (by simp)
  | op s a k =>
    cases hs.1.2 with
    | copy held => exact held.symm.trans hm
    | plain _ held => exact absurd (held.symm.trans hm) (by simp)
    | peek held => exact absurd (held.symm.trans hm) (by simp)
    | putBack held => exact absurd (held.symm.trans hm) (by simp)
    | decide held => exact absurd (held.symm.trans hm) (by simp)

/-- **The outline holds in every state reached**, with what the run is known to do. -/
theorem memoryOutline_keeps (fill : α) (apart calm : Prop)
    {ok : (memory C).State → (memory C).State → Prop} {block : ℕ → α} {σ : (memory C).State}
    (hapart : apart → ∀ σ σ', ok σ σ' → WindowApart σ σ')
    (hcalm : calm → ∀ σ σ', ok σ σ' → PutsBackInside σ σ')
    (hσ : MemoryRun ok (memory.start C fill block) σ) :
    ∃ h, (memoryOutline C fill apart calm).Keeps σ h := by
  refine Pool.Outline.sound ?_ ?_ ?_ hσ ?_
  -- an access of one of the two threads
  · intro σ h t s a k x w hk node exec hok
    have hexec : σ.world.exec a = (x, w) := Option.some.inj exec
    obtain rfl : (σ.world.exec a).1 = x := congrArg Prod.fst hexec
    obtain rfl : (σ.world.exec a).2 = w := congrArg Prod.snd hexec
    have hnext := Pool.State.setThread_self
      ({ σ with world := (σ.world.exec a).2 } : (memory C).State) t (k (σ.world.exec a).1)
    cases t with
    | writer =>
      obtain ⟨h', hf, hstep, hgrown⟩ := hk.1.writer apart (hk.node node)
        (fun hc e m ha hm hin => by
          subst ha
          exact (hapart hc _ _ hok).announced s e k _ node hnext m (keeps_held hk hm)
            (hk.1.bkStart ▸ hin))
      refine ⟨h', hf, hstep, fun t ht => ?_⟩
      cases t with
      | writer => exact absurd rfl ht
      | reader => exact hgrown
    | reader =>
      obtain ⟨h', hf, hstep, hlooked⟩ := hk.1.reader (s := s) (hk.node node).2
        (fun hc ha => by
          subst ha
          exact keeps_raised hk (hcalm hc _ _ hok s k _ node hnext))
        (fun hc ha m hm hlt => by
          subst ha
          have hoff := (hapart hc _ _ hok).loaded s k _ node hnext m hm hlt
          rwa [hk.1.bkStart, hk.1.bkEnd] at hoff)
      refine ⟨h', hf, hstep, fun t ht => ?_⟩
      cases t with
      | writer => exact hlooked
      | reader => exact absurd rfl ht
  · intro σ h w hk henv _
    obtain ⟨hcell, hstart, hend, hwriting, hwindow, hraised⟩ := hk.1
    refine ⟨h, ⟨henv.cell.trans hcell, henv.bkStart.trans hstart, henv.bkEnd.trans hend,
      henv.writing.trans hwriting, hwindow, hraised⟩, fun t => ?_⟩
    cases t with
    | writer => exact .refl h
    | reader => exact .refl h
  · intro t s h hs
    cases t with
    | writer =>
      show (C.write s).run s |>.Safe _ _ _
      unfold MemoryController.write
      split
      case h_1 => exact nonBlockingWrite_safe hs rfl
      case h_2 n hn => exact blinkWrite_safe hs (by rw [hn]; simp)
    | reader => exact readerEventLoop_safe hs.1 hs.2
  · refine ⟨⟨0, 0, 0, true, false, none⟩,
      ⟨?_, rfl, rfl, rfl, (fun hf => by cases hf), (fun _ hf => by cases hf)⟩, fun t => ?_⟩
    · funext i
      exact (if_neg (Nat.not_lt_zero i)).symm
    cases t with
    | writer => exact ⟨rfl, rfl, rfl, rfl⟩
    | reader => exact ⟨.initial, rfl⟩

/-! ## Reader and writer -/

/-- What the reader has in its hands. -/
def reader (σ : (memory C).State) : Reader α := (σ.thread .reader).state

/-- **A block is a consistent cut.** Whatever the schedule, what a read has put into
its block is what the memory held when some number `k` of cells had been written,
but for the cells that were marked busy. -/
theorem read_consistent {block : ℕ → α} {σ : (memory C).State}
    (hσ : MemoryRun (fun _ _ => True) (memory.start C fill block) σ) {o : ℕ}
    (ho : (reader σ).readOffset = some o) (hl : (reader σ).loop = none) :
    ∃ k, (∀ i < k, σ.world.cell i = C.log i) ∧ ∀ i < C.blockSize, (reader σ).marked i = false →
      (reader σ).block i = if o + i < k then C.log (o + i) else fill := by
  obtain ⟨h, hk⟩ := memoryOutline_keeps fill False False (fun hf => hf.elim) (fun hf => hf.elim) hσ
  have hcollects : (reader σ).Collects C fill h.stored := by
    have hs := hk.2 .reader
    unfold reader
    generalize σ.thread .reader = p at hs ⊢
    cases p with
    | ret s => exact hs.1
    | fail s e => exact hs.1
    | op s a k => exact hs.1.1
  obtain ⟨k, hle, hcut⟩ := hcollects.cut o ho
  refine ⟨k, fun i hi => ?_, fun i hi hm => ?_⟩
  · rw [hk.1.cell]
    exact if_pos (hi.trans_le hle)
  · have hlow : o + (reader σ).low ≤ o + i := by
      rw [Reader.low, hl]
      exact Nat.le_add_right ..
    have hcell : o + i - o = i := Nat.add_sub_cancel_left ..
    refine hcut (o + i) _ hlow
      ((if_pos ⟨Nat.le_add_right .., Nat.add_lt_add_left hi o, ?_⟩).trans ?_)
    · rw [hcell]
    · rw [hcell, hm]

/-- Schedules of the two threads and of a client that asks for reads. -/
def memoryScript (C : MemoryController α) (check : (memory C).State → Bool) :
    (memory C).Script ℤ where
  act o w := { w.setFlag .updated false with readOffset := o }
  may _ _ := true
  check := check

theorem memoryScript_client {check : (memory C).State → Bool} (o : ℤ) (σ : (memory C).State)
    (_ : (memoryScript C check).may o σ = true) :
    Client σ ((memoryScript C check).act o σ.world) := ⟨rfl, rfl, rfl, rfl, rfl⟩

/-- A memory of four cells that is read in blocks of two. -/
def fourCells : MemoryController ℕ where
  size := 4
  blockSize := 2
  busy := 99
  blink := none
  log := fun i => i + 1

/-- The first cell is written while the block is read. -/
theorem read_consistent_two : ∃ σ : (memory fourCells).State,
    MemoryRun (fun _ _ => True) (memory.start fourCells 0 fun _ => 0) σ
    ∧ (reader σ).block 0 = 1 ∧ (reader σ).block 1 = 0
    ∧ ∃ k, (∀ i < k, σ.world.cell i = fourCells.log i) ∧
      ∀ i < fourCells.blockSize, (reader σ).marked i = false →
        (reader σ).block i = if 0 + i < k then fourCells.log (0 + i) else 0 := by
  obtain ⟨σ, hσ, hp⟩ := Pool.Script.exists_of_replay Client (fun _ _ => True)
    (memoryScript fourCells fun _ => true)
    [.act 0, .go .reader 10, .go .writer 8, .go .reader 14] (memory.start fourCells 0 fun _ => 0)
    (fun σ => decide ((reader σ).readOffset = some 0 ∧ (reader σ).loop = none
      ∧ (reader σ).block 0 = 1 ∧ (reader σ).block 1 = 0))
    memoryScript_client (fun _ _ _ => trivial) (by decide +kernel)
  obtain ⟨ho, hl, hfirst, hsecond⟩ := of_decide_eq_true hp
  exact ⟨σ, hσ, hfirst, hsecond, read_consistent hσ ho hl⟩

/-- `PutsBackInside`, as a test before the step. -/
def putsBackInside (σ : (memory C).State) : Bool :=
  match σ.thread .reader with
  | .op _ (.clear .writing) _ => lowering σ
  | _ => true

theorem putsBackInside_spec {σ σ' : (memory C).State} (h : putsBackInside σ = true) :
    PutsBackInside σ σ' := by
  intro s k u hs _
  rwa [putsBackInside, hs] at h

/-- The writer is not inside a write. -/
def Idle (p : Prog Writer MemoryError (MemoryAccess.Answer (α := α)) Unit) : Prop :=
  ∀ s a k, p ≠ .op s a k

/-- **The writing flag is not left raised**, as long as the reader puts it back while the
writer is still to lower it. -/
theorem writing_lowered {block : ℕ → α} {σ : (memory C).State}
    (hσ : MemoryRun PutsBackInside (memory.start C fill block) σ) (hw : Idle (σ.thread .writer)) :
    σ.world.flag .writing = true := by
  obtain ⟨h, hk⟩ := memoryOutline_keeps fill False True
    (fun hf => hf.elim) (fun _ _ _ hok => hok) hσ
  have hlow : h.raised = false := by
    have hs := hk.2 .writer
    generalize σ.thread .writer = p at hs hw
    cases p with
    | ret s => exact BlockView.Appended.lowered hs
    | fail s e => exact hs
    | op s a k => exact absurd rfl (hw s a k)
  rw [hk.1.writing]
  cases hwriting : h.writing with
  | true => rfl
  | false => exact absurd ((hk.1.raised trivial hwriting).symm.trans hlow) (by decide)

/-- The reader looks at the flag while the first cell is written. -/
theorem writing_lowered_one : ∃ σ : (memory fourCells).State,
    MemoryRun PutsBackInside (memory.start fourCells 0 fun _ => 0) σ
    ∧ σ.world.bkStart = 1 ∧ Idle (σ.thread .writer) ∧ σ.world.flag .writing = true := by
  obtain ⟨σ, hσ, hp⟩ := Pool.Script.exists_of_replay Client PutsBackInside
    (memoryScript fourCells putsBackInside) [.act 0, .go .writer 3, .go .reader 6, .go .writer 5]
    (memory.start fourCells 0 fun _ => 0)
    (fun σ => (σ.thread .writer).returned && decide (σ.world.bkStart = 1))
    memoryScript_client (fun _ _ => putsBackInside_spec) (by decide +kernel)
  rw [Bool.and_eq_true, decide_eq_true_eq] at hp
  obtain ⟨⟨⟩, hs⟩ := Prog.returned_spec hp.1
  have hidle : Idle (σ.thread .writer) := fun s a k hf => by
    rw [hs] at hf
    cases hf
  exact ⟨σ, hσ, hp.2, hidle, writing_lowered hσ hidle⟩

/-- **The writing flag may be left raised.** The reader puts it back after the writer
has lowered it. -/
theorem writing_left_raised : ∃ σ : (memory fourCells).State,
    MemoryRun (fun _ _ => True) (memory.start fourCells 0 fun _ => 0) σ
    ∧ (∃ s, σ.thread .writer = .ret s ()) ∧ (∃ s, σ.thread .reader = .ret s ())
    ∧ σ.world.flag .writing = false := by
  obtain ⟨σ, hσ, hp⟩ := Pool.Script.exists_of_replay Client (fun _ _ => True)
    (memoryScript fourCells fun _ => true)
    [.act 0, .go .writer 3, .go .reader 5, .go .writer 5, .go .reader 1]
    (memory.start fourCells 0 fun _ => 0)
    (fun σ => (σ.thread .writer).returned && (σ.thread .reader).returned
      && !σ.world.flag .writing)
    memoryScript_client (fun _ _ _ => trivial) (by decide +kernel)
  simp only [Bool.and_eq_true, Bool.not_eq_true'] at hp
  obtain ⟨⟨hwriter, hreader⟩, hflag⟩ := hp
  obtain ⟨⟨⟩, hs⟩ := Prog.returned_spec hwriter
  obtain ⟨⟨⟩, hs'⟩ := Prog.returned_spec hreader
  exact ⟨σ, hσ, ⟨_, hs⟩, ⟨_, hs'⟩, hflag⟩

end SOS
