import Mathlib.Data.Finset.Insert
import SoftwareOnSilicon.Outline
import SoftwareOnSilicon.Replay
import SoftwareOnSilicon.Wheel

/-!
# `RingBuffer` and `WriteInterleaved`

A ring of slots between one producer and one consumer. The producer calls
`WriteInterleaved`, the consumer runs `RingBuffer::event_loop`; what they share
is the `RingBufferBus`: the two indices, the notify flag and the slots.
Iterators are offsets from the first slot.

Each index is stored by one thread only and loaded by the other, which then
works on a value that may be out of date. Counted without going round, the two
indices are the counters of a `Wheel`, and that is what both sides know of it:
the items the consumer transfers are those the producer has completed, in order
(`ring_fifo`), and once a wake-up has been dealt with none is left
(`ring_drained`).
-/

namespace SOS

open Interleaving Code

variable {α : Type} {N : ℕ} {items : ℕ → α}

/-! ## The bus -/

/-- The errors of the ring. -/
inductive RingError where
  | requestedRingbufferSizeNotBigEnough
  | ringbufferTooSlowOrNotBigEnough
  deriving DecidableEq, Repr

/-- **The memory the two threads share.** -/
structure RingBufferBus (α : Type) where
  /-- The slot the consumer has released last. -/
  threadCurrent : ℕ
  /-- The slot the producer writes next. -/
  current : ℕ
  /-- The notify flag; `true` is set. -/
  notify : Bool
  slot : ℕ → α

/-- One access to the shared memory. -/
inductive RingAccess (α : Type) where
  | loadCurrent
  | storeCurrent (i : ℕ)
  | loadThreadCurrent
  | storeThreadCurrent (i : ℕ)
  | readSlot (i : ℕ)
  | writeSlot (i : ℕ) (x : α)
  | testAndSet
  | clear

/-- What an access answers. -/
abbrev RingAccess.Answer : RingAccess α → Type
  | .loadCurrent => ℕ
  | .loadThreadCurrent => ℕ
  | .readSlot _ => α
  | .testAndSet => Bool
  | _ => Unit

namespace RingBufferBus

/-- The constructor: a ring has two slots at least. -/
def create (N : ℕ) (slot : ℕ → α) : Except RingError (RingBufferBus α) :=
  if N < 2 then .error .requestedRingbufferSizeNotBigEnough
  else .ok { threadCurrent := 0, current := 1, notify := true, slot := slot }

/-- **What an access does to the bus**, with its answer. -/
def exec : (a : RingAccess α) → RingBufferBus α → a.Answer × RingBufferBus α
  | .loadCurrent, w => (w.current, w)
  | .storeCurrent i, w => ((), { w with current := i })
  | .loadThreadCurrent, w => (w.threadCurrent, w)
  | .storeThreadCurrent i, w => ((), { w with threadCurrent := i })
  | .readSlot i, w => (w.slot i, w)
  | .writeSlot i x, w => ((), { w with slot := Function.update w.slot i x })
  | .testAndSet, w => (w.notify, { w with notify := true })
  | .clear, w => ((), { w with notify := false })

end RingBufferBus

/-! ## The two threads -/

/-- Code of a thread of the ring. -/
abbrev RingCode (S α β : Type) : Type := Code S RingError (RingAccess.Answer (α := α)) β

/-- One access to the bus. -/
def onBus {S : Type} (a : RingAccess α) : RingCode S α a.Answer :=
  perform (A := RingAccess.Answer) a

/-- The producer. Both are history variables: the items whose write is
completed, and whether the last call of `WriteInterleaved` has found no room. -/
structure Producer (α : Type) where
  written : List α := []
  overrun : Bool := false

/-- `WriteInterleaved`. -/
def writeInterleaved (N : ℕ) (item : α) : RingCode (Producer α) α Unit := do
  let current ← onBus .loadCurrent
  let threadcurrent ← onBus .loadThreadCurrent
  if current ≠ threadcurrent then
    onBus (.writeSlot current item)
    onBus (.storeCurrent (advance N current))
    change fun s => { s with written := s.written ++ [item] }
    onBus .clear
  else
    change fun s => { s with overrun := true }
    onBus (.writeSlot current item)
    abort .ringbufferTooSlowOrNotBigEnough

/-- The consumer: the local variables of `read_hook` while it is in its loop,
and two history variables, the items passed to `transfer` and the number of
slots released. -/
structure Consumer (α : Type) where
  loop : Option (ℕ × ℕ) := none
  transferred : List α := []
  released : ℕ := 0

/-- `read_hook`, up to its loop. -/
def ringReadHook : RingCode (Consumer α) α Unit := do
  let threadcurrent ← onBus .loadThreadCurrent
  let current ← onBus .loadCurrent
  change fun s => { s with loop := some (threadcurrent, current) }

/-- The body of the loop of `read_hook`. -/
def ringReadLoop (N threadcurrent current : ℕ) : RingCode (Consumer α) α Unit := do
  if advance N threadcurrent ≠ current then
    let item ← onBus (.readSlot (advance N threadcurrent))
    change fun s => { s with transferred := s.transferred ++ [item] } -- `transfer`
    onBus (.storeThreadCurrent (advance N threadcurrent))
    change fun s => { s with
      loop := some (advance N threadcurrent, current)
      released := s.released + 1 }
  else
    change fun s => { s with loop := none }

/-- `event_loop`: a wake-up starts `read_hook`, whose loop goes on until it is
left. -/
def ringEventLoop (N : ℕ) : RingCode (Consumer α) α Unit := do
  match ← look Consumer.loop with
  | some (threadcurrent, current) => ringReadLoop N threadcurrent current
  | none =>
    if !(← onBus .testAndSet) then
      ringReadHook

/-- The threads of a ring. -/
inductive RingThread where
  | producer
  | consumer
  deriving DecidableEq, Repr

instance : Fintype RingThread where
  elems := {.producer, .consumer}
  complete t := by cases t <;> decide

/-- The private state of each. -/
abbrev RingThread.Private (α : Type) : RingThread → Type
  | .producer => Producer α
  | .consumer => Consumer α

/-- **The pool of the two threads**, for the items the producer is given. -/
def ring (N : ℕ) (items : ℕ → α) :
    Pool RingThread (RingThread.Private α) RingError
      (RingAccess.Answer (α := α)) (RingBufferBus α) where
  exec _ a w := some (w.exec a)
  loop
    | .producer, s => (writeInterleaved N (items s.written.length)).run s
    | .consumer, s => (ringEventLoop N).run s

/-- Before the first item. -/
def ring.start (N : ℕ) (items : ℕ → α) (bus : RingBufferBus α) : (ring N items).State where
  world := bus
  thread
    | .producer => .ret {} ()
    | .consumer => .ret {} ()

/-- The items whose write is completed. -/
def written (σ : (ring N items).State) : List α := (σ.thread .producer).state.written

/-- The items that have been transferred. -/
def transferred (σ : (ring N items).State) : List α := (σ.thread .consumer).state.transferred

/-- The number of slots the consumer has released. -/
def released (σ : (ring N items).State) : ℕ := (σ.thread .consumer).state.released

/-! ## What is followed -/

/-- **What the two threads know of one another.** -/
structure RingView (α : Type) (N : ℕ) where
  wheel : Wheel α N
  notify : Bool
  /-- The number of items for which the flag has been cleared. -/
  signalled : ℕ
  signalled_le : signalled ≤ wheel.written.length
  /-- The number of slots that were released when the producer looked, until it
  has acted on it. -/
  seen : Option ℕ

namespace RingView

variable {h h' h'' : RingView α N} {a : RingAccess α}

/-- The number of items whose write is completed. -/
abbrev length (h : RingView α N) : ℕ := h.wheel.written.length

/-- Another item is completed. -/
def push (h : RingView α N) (room : h.length + 1 < h.wheel.released + N) : RingView α N :=
  { h with
    wheel := h.wheel.push room
    signalled_le := h.signalled_le.trans (by simp [Wheel.push]) }

/-- The consumer is woken for all completed items. -/
def signal (h : RingView α N) : RingView α N :=
  { h with notify := false, signalled := h.length, signalled_le := le_rfl }

/-- The followed state agrees with the bus. -/
structure Follows (h : RingView α N) (w : RingBufferBus α) : Prop where
  current : w.current = h.wheel.next
  threadCurrent : w.threadCurrent = h.wheel.released % N
  notify : w.notify = h.notify
  slot : w.slot = h.wheel.slot

/-- **What an access does to what is followed.** -/
inductive Step : RingThread → (a : RingAccess α) → a.Answer → RingView α N → RingView α N → Prop
  | loadCurrent {t : RingThread} {h : RingView α N} : Step t .loadCurrent h.wheel.next h h
  | see {h : RingView α N} :
      Step .producer .loadThreadCurrent (h.wheel.released % N) h
        { h with seen := some h.wheel.released }
  | loadThreadCurrent {h : RingView α N} :
      Step .consumer .loadThreadCurrent (h.wheel.released % N) h h
  | readSlot {t : RingThread} {i : ℕ} {h : RingView α N} :
      Step t (.readSlot i) (h.wheel.slot i) h h
  | writeSlot {t : RingThread} {i : ℕ} {x : α} {u : Unit} {h : RingView α N} :
      Step t (.writeSlot i x) u h { h with wheel := h.wheel.put x, seen := none }
  | storeCurrent {t : RingThread} {i : ℕ} {u : Unit} {h : RingView α N}
      (room : h.length + 1 < h.wheel.released + N) :
      Step t (.storeCurrent i) u h (h.push room)
  | storeThreadCurrent {t : RingThread} {i : ℕ} {u : Unit} {h : RingView α N}
      (some : h.wheel.released < h.length) :
      Step t (.storeThreadCurrent i) u h { h with wheel := h.wheel.pop some }
  | testAndSet {t : RingThread} {h : RingView α N} :
      Step t .testAndSet h.notify h { h with notify := true }
  | clear {t : RingThread} {u : Unit} {h : RingView α N} :
      Step t .clear u h h.signal

/-! ### The producer's side -/

/-- **What the consumer may do.** -/
structure Advanced (h h' : RingView α N) : Prop where
  written : h'.wheel.written = h.wheel.written
  slot : h'.wheel.slot = h.wheel.slot
  released : h.wheel.released ≤ h'.wheel.released
  signalled : h'.signalled = h.signalled
  seen : h'.seen = h.seen

/-- What the producer asserts before an access. -/
inductive Writing (s : Producer α) : RingAccess α → RingView α N → Prop
  | loadCurrent {h : RingView α N} (done : h.signalled = h.length) (unseen : h.seen = none) :
      Writing s .loadCurrent h
  | loadThreadCurrent {h : RingView α N} (unseen : h.seen = none) :
      Writing s .loadThreadCurrent h
  /-- The branch is decided by what has been seen. -/
  | writeSlot {i n : ℕ} {x : α} {h : RingView α N} (slot : i = h.wheel.next)
      (seen : h.seen = some n) (branch : s.overrun = true ↔ h.length + 1 = n + N) :
      Writing s (.writeSlot i x) h
  | storeCurrent {i : ℕ} {h : RingView α N} (slot : i = (h.length + 1 + 1) % N)
      (room : h.length + 1 < h.wheel.released + N) (unseen : h.seen = none) :
      Writing s (.storeCurrent i) h
  | clear {h : RingView α N} (unseen : h.seen = none) : Writing s .clear h

/-- What the producer asserts between two calls. -/
structure Written (s : Producer α) (h : RingView α N) : Prop where
  written : s.written = h.wheel.written
  fresh : s.overrun = false
  done : h.signalled = h.length
  unseen : h.seen = none

/-! ### The consumer's side -/

/-- **What the producer may do.** -/
structure Filled (h h' : RingView α N) : Prop where
  written : h.wheel.written <+: h'.wheel.written
  released : h'.wheel.released = h.wheel.released
  notify : h'.notify = true → h.notify = true ∧ h'.signalled = h.signalled

/-- The consumer has transferred the first `n` items. -/
structure Transferred (n : ℕ) (s : Consumer α) (h : RingView α N) : Prop where
  released : s.released = h.wheel.released
  transferred : s.transferred = h.wheel.written.take n
  le : n ≤ h.length

/-- What the consumer asserts before an access. -/
inductive Reading (s : Consumer α) : RingAccess α → RingView α N → Prop
  | testAndSet {h : RingView α N} (taken : Transferred h.wheel.released s h)
      (woken : h.notify = true → h.signalled ≤ h.wheel.released) : Reading s .testAndSet h
  | loadThreadCurrent {h : RingView α N} (taken : Transferred h.wheel.released s h) :
      Reading s .loadThreadCurrent h
  | loadCurrent {h : RingView α N} (taken : Transferred h.wheel.released s h) :
      Reading s .loadCurrent h
  | readSlot {i : ℕ} {h : RingView α N} (taken : Transferred h.wheel.released s h) :
      Reading s (.readSlot i) h
  | storeThreadCurrent {i : ℕ} {h : RingView α N} (slot : i = (h.wheel.released + 1) % N)
      (taken : Transferred (h.wheel.released + 1) s h) : Reading s (.storeThreadCurrent i) h

/-- The consumer is in its loop, which will release `m` items, and every item it
has been woken for is among them. -/
structure Loop (m threadcurrent current : ℕ) (h : RingView α N) : Prop where
  threadcurrent : threadcurrent = h.wheel.released % N
  current : current = (m + 1) % N
  le : h.wheel.released ≤ m
  lt : m < h.wheel.released + N
  snapshot : m ≤ h.length
  woken : h.notify = true → h.signalled ≤ m

/-- What the consumer asserts between two passes. -/
structure Passed (s : Consumer α) (h : RingView α N) : Prop where
  taken : Transferred h.wheel.released s h
  idle : s.loop = none → h.notify = true → h.signalled ≤ h.wheel.released
  loop : ∀ threadcurrent current, s.loop = some (threadcurrent, current) →
    ∃ m, Loop m threadcurrent current h

/-! ### Stability -/

namespace Advanced

theorem refl (h : RingView α N) : Advanced h h := ⟨rfl, rfl, le_rfl, rfl, rfl⟩

theorem trans (h₁ : Advanced h h') (h₂ : Advanced h' h'') : Advanced h h'' where
  written := h₂.written.trans h₁.written
  slot := h₂.slot.trans h₁.slot
  released := h₁.released.trans h₂.released
  signalled := h₂.signalled.trans h₁.signalled
  seen := h₂.seen.trans h₁.seen

theorem length (hr : Advanced h h') : h'.length = h.length := congrArg List.length hr.written

theorem next (hr : Advanced h h') : h'.wheel.next = h.wheel.next := by
  rw [Wheel.next, Wheel.next, hr.written]

theorem writing {s : Producer α} (hr : Advanced h h') (hw : Writing s a h) : Writing s a h' := by
  have hreleased := hr.released
  cases hw with
  | loadCurrent done unseen =>
    exact .loadCurrent (by rw [hr.signalled, done, hr.length]) (hr.seen.trans unseen)
  | loadThreadCurrent unseen => exact .loadThreadCurrent (hr.seen.trans unseen)
  | writeSlot slot seen branch =>
    exact .writeSlot (slot.trans hr.next.symm) (hr.seen.trans seen) (by rw [branch, hr.length])
  | storeCurrent slot room unseen =>
    exact .storeCurrent (by rw [slot, hr.length]) (by rw [hr.length]; omega)
      (hr.seen.trans unseen)
  | clear unseen => exact .clear (hr.seen.trans unseen)

theorem between {s : Producer α} (hr : Advanced h h') (hw : Written s h) : Written s h' where
  written := hw.written.trans hr.written.symm
  fresh := hw.fresh
  done := by rw [hr.signalled, hw.done, hr.length]
  unseen := hr.seen.trans hw.unseen

end Advanced

namespace Filled

theorem refl (h : RingView α N) : Filled h h := ⟨List.prefix_rfl, rfl, fun hn => ⟨hn, rfl⟩⟩

theorem trans (h₁ : Filled h h') (h₂ : Filled h' h'') : Filled h h'' where
  written := h₁.written.trans h₂.written
  released := h₂.released.trans h₁.released
  notify hn := by
    obtain ⟨hn', hs'⟩ := h₂.notify hn
    obtain ⟨hn'', hs''⟩ := h₁.notify hn'
    exact ⟨hn'', hs'.trans hs''⟩

theorem length (hr : Filled h h') : h.length ≤ h'.length := hr.written.length_le

/-- What is there to be woken for has not changed while the flag is set. -/
theorem woken {m : ℕ} (hr : Filled h h') (hw : h.notify = true → h.signalled ≤ m)
    (hn : h'.notify = true) : h'.signalled ≤ m := by
  obtain ⟨hn', hs⟩ := hr.notify hn
  rw [hs]
  exact hw hn'

theorem taken {n : ℕ} {s : Consumer α} (hr : Filled h h') (ht : Transferred n s h) :
    Transferred n s h' where
  released := ht.released.trans hr.released.symm
  transferred := by
    obtain ⟨more, hmore⟩ := hr.written
    rw [ht.transferred, ← hmore, List.take_append_of_le_length ht.le]
  le := ht.le.trans hr.length

theorem reading {s : Consumer α} (hr : Filled h h') (hn : Reading s a h) : Reading s a h' := by
  have hreleased := hr.released
  cases hn with
  | testAndSet taken woken =>
    exact .testAndSet (hreleased ▸ hr.taken taken) (hreleased ▸ hr.woken woken)
  | loadThreadCurrent taken => exact .loadThreadCurrent (hreleased ▸ hr.taken taken)
  | loadCurrent taken => exact .loadCurrent (hreleased ▸ hr.taken taken)
  | readSlot taken => exact .readSlot (hreleased ▸ hr.taken taken)
  | storeThreadCurrent slot taken =>
    exact .storeThreadCurrent (hreleased ▸ slot) (hreleased ▸ hr.taken taken)

theorem loop {m tc c : ℕ} (hr : Filled h h') (hl : Loop m tc c h) : Loop m tc c h' where
  threadcurrent := by rw [hl.threadcurrent, hr.released]
  current := hl.current
  le := hr.released.symm ▸ hl.le
  lt := hr.released.symm ▸ hl.lt
  snapshot := hl.snapshot.trans hr.length
  woken := hr.woken hl.woken

theorem passed {s : Consumer α} (hr : Filled h h') (hp : Passed s h) : Passed s h' where
  taken := hr.released ▸ hr.taken hp.taken
  idle hl := hr.released ▸ hr.woken (hp.idle hl)
  loop tc c hl := (hp.loop tc c hl).imp fun _ => hr.loop

end Filled

end RingView

/-- **The outline of the ring.** -/
def ringOutline (N : ℕ) (items : ℕ → α) : (ring N items).Outline (RingView α N) where
  follows h w := h.Follows w
  step t _ a x h h' := RingView.Step t a x h h'
  node
    | .producer, s, a, h => s.written = h.wheel.written ∧ RingView.Writing s a h
    | .consumer, s, a, h => RingView.Reading s a h
  rest
    | .producer, s, h => RingView.Written s h
    | .consumer, s, h => RingView.Passed s h
  error
    | .producer, s, _, h => s.written = h.wheel.written ∧ s.overrun = true ∧ h.seen = none
    | .consumer, _, _, _ => False
  rely
    | .producer, _, h, h' => RingView.Advanced h h'
    | .consumer, _, h, h' => RingView.Filled h h'
  refl t _ h := by
    cases t with
    | producer => exact .refl h
    | consumer => exact .refl h
  trans t _ _ _ _ h₁ h₂ := by
    cases t with
    | producer => exact h₁.trans h₂
    | consumer => exact h₁.trans h₂
  node_stable t s a h h' hr hn := by
    cases t with
    | producer => exact ⟨hn.1.trans hr.written.symm, hr.writing hn.2⟩
    | consumer => exact hr.reading hn
  rest_stable t s h h' hr hn := by
    cases t with
    | producer => exact hr.between hn
    | consumer => exact hr.passed hn

/-! ## The two programs -/

section Programs

open RingView

variable {h h' : RingView α N}

/-- **`WriteInterleaved`** keeps to the outline. -/
theorem writeInterleaved_safe {s : Producer α} {item : α} (hN : 0 < N) (hs : Written s h) :
    ((writeInterleaved N item).run s).Safe ((ringOutline N items).rules .producer)
      (fun s _ h => Written s h) h := by
  simp only [writeInterleaved, run_bind, Prog.safe_bind]
  refine Pool.Outline.safe_perform (Written s) hs (fun _ _ hr hw => hr.between hw)
    ⟨hs.written, .loadCurrent hs.done hs.unseen⟩ ?_
  rintro _ h₁ _ hs ⟨⟩
  refine Pool.Outline.safe_perform (fun h => Written s h ∧ h₁.wheel.next = h.wheel.next)
    ⟨hs, rfl⟩ (fun _ _ hr hw => ⟨hr.between hw.1, hw.2.trans hr.next.symm⟩)
    ⟨hs.written, .loadThreadCurrent hs.unseen⟩ ?_
  rintro _ h₂ _ ⟨hs, hcurrent⟩ ⟨⟩
  rw [hcurrent]
  have hfull := h₂.wheel.next_eq_iff
  have hroom := h₂.wheel.room
  split
  case isTrue free =>
    rw [ne_eq, hfull] at free
    have hnext : advance N h₂.wheel.next = (h₂.length + 1 + 1) % N := advance_mod hN _
    have hlt : h₂.length + 1 < h₂.wheel.released + N := by
      show h₂.wheel.written.length + 1 < _
      omega
    simp only [run_bind, Prog.safe_bind]
    -- the consumer may go on, which only makes more room
    let Ψ (x : Option ℕ) (h : RingView α N) : Prop := s.written = h.wheel.written ∧ h.seen = x
      ∧ h.length + 1 < h.wheel.released + N
    have hstable : ∀ x h h', Advanced h h' → Ψ x h → Ψ x h' := by
      rintro x h h' hr ⟨hw, hseen, hlt⟩
      have hreleased := hr.released
      exact ⟨hw.trans hr.written.symm, hr.seen.trans hseen, by rw [hr.length]; omega⟩
    refine Pool.Outline.safe_perform (Ψ (some h₂.wheel.released)) ⟨hs.written, rfl, hlt⟩
      (hstable _) ⟨hs.written, .writeSlot rfl rfl (by simpa [hs.fresh] using free)⟩ ?_
    rintro ⟨⟩ h₃ _ ⟨hw, -, hlt⟩ ⟨⟩
    have hlength : h₃.length = h₂.length := congrArg List.length (hw.symm.trans hs.written)
    refine Pool.Outline.safe_perform (fun h => Ψ none h ∧ h.wheel.slot h.wheel.next = item)
      ⟨⟨hw, rfl, hlt⟩, Wheel.put_slot_next ..⟩ ?_
      ⟨hw, .storeCurrent (by rw [hnext, ← hlength]; rfl) hlt rfl⟩ ?_
    · rintro h h' hr ⟨hΨ, hslot⟩
      exact ⟨hstable _ h h' hr hΨ, by rw [hr.next, hr.slot, hslot]⟩
    rintro ⟨⟩ h₄ _ ⟨⟨hw, hseen, hlt⟩, hslot⟩ ⟨⟩
    simp only [run_change, Prog.safe_ret]
    have hpush : s.written ++ [item] = h₄.wheel.written ++ [h₄.wheel.slot h₄.wheel.next] := by
      rw [hw, hslot]
    refine Pool.Outline.safe_perform
      (fun h => s.written ++ [item] = h.wheel.written ∧ h.seen = none) ⟨hpush, hseen⟩
      (fun _ _ hr hw => ⟨hw.1.trans hr.written.symm, hr.seen.trans hw.2⟩)
      ⟨hpush, .clear hseen⟩ ?_
    rintro ⟨⟩ h₅ _ hw ⟨⟩
    exact ⟨hw.1, hs.fresh, rfl, hw.2⟩
  case isFalse full =>
    rw [not_not, hfull] at full
    simp only [run_bind, run_change, Prog.safe_bind, Prog.safe_ret]
    refine Pool.Outline.safe_perform (fun h => s.written = h.wheel.written) hs.written
      (fun _ _ hr hw => hw.trans hr.written.symm)
      ⟨hs.written, .writeSlot rfl rfl (by simpa using full)⟩ ?_
    rintro ⟨⟩ h₃ _ hw ⟨⟩
    exact ⟨hw, rfl, rfl⟩

/-- **`read_hook`**, up to its loop: whatever the consumer has been woken for is
in the snapshot it takes. -/
theorem ringReadHook_safe {s : Consumer α} (ht : Transferred h.wheel.released s h) :
    (ringReadHook.run s).Safe ((ringOutline N items).rules .consumer)
      (fun s _ h => Passed s h) h := by
  have hstable : ∀ {n : ℕ} (h₁ h₂ : RingView α N), Filled h₁ h₂ →
      Transferred n s h₁ ∧ h₁.wheel.released = n → Transferred n s h₂ ∧ h₂.wheel.released = n :=
    fun h₁ h₂ hr ht => ⟨hr.taken ht.1, hr.released.trans ht.2⟩
  simp only [ringReadHook, run_bind, Prog.safe_bind]
  refine Pool.Outline.safe_perform _ ⟨ht, rfl⟩ hstable (.loadThreadCurrent ht) ?_
  rintro _ h₁ _ ⟨ht, he⟩ ⟨⟩
  rw [← he] at ht
  refine Pool.Outline.safe_perform _ ⟨ht, rfl⟩ hstable (.loadCurrent ht) ?_
  rintro _ h₂ _ ⟨ht, he⟩ ⟨⟩
  rw [← he] at ht ⊢
  simp only [run_change, Prog.safe_ret]
  refine ⟨⟨ht.released, ht.transferred, ht.le⟩, (fun hf => by cases hf), fun tc c hl => ?_⟩
  obtain ⟨rfl, rfl⟩ := Prod.mk.inj (Option.some.inj hl)
  exact ⟨h₂.length, rfl, rfl, h₂.wheel.released_le, h₂.wheel.room, le_rfl,
    fun _ => h₂.signalled_le⟩

/-- **One pass of the loop of `read_hook`.** -/
theorem ringReadLoop_safe {s : Consumer α} {m tc c : ℕ} (hN : 0 < N)
    (ht : Transferred h.wheel.released s h) (hl : Loop m tc c h) :
    ((ringReadLoop N tc c).run s).Safe ((ringOutline N items).rules .consumer)
      (fun s _ h => Passed s h) h := by
  have hadvance : advance N tc = (h.wheel.released + 1) % N := by
    rw [hl.threadcurrent, advance_mod hN]
  have hlt := hl.lt
  have hle := hl.le
  simp only [ringReadLoop]
  split
  case isTrue hne =>
    -- the item after the released ones is in the snapshot
    have hmore : h.wheel.released < m := by
      refine lt_of_le_of_ne hle fun he => hne ?_
      rw [hadvance, hl.current, he]
    have hstable : ∀ {n : ℕ} {s : Consumer α} (h₁ h₂ : RingView α N), Filled h₁ h₂ →
        Transferred n s h₁ ∧ h₁.wheel.released = h.wheel.released ∧ Loop m tc c h₁ →
        Transferred n s h₂ ∧ h₂.wheel.released = h.wheel.released ∧ Loop m tc c h₂ := by
      rintro n s h₁ h₂ hr ⟨ht, he, hl⟩
      exact ⟨hr.taken ht, hr.released.trans he, hr.loop hl⟩
    simp only [run_bind, Prog.safe_bind]
    refine Pool.Outline.safe_perform _ ⟨ht, rfl, hl⟩ hstable (.readSlot ht) ?_
    rintro _ h₁ _ ⟨ht, he, hl⟩ ⟨⟩
    have hsome : h₁.wheel.released < h₁.length := by
      have hsnapshot := hl.snapshot
      omega
    have htake : Transferred (h₁.wheel.released + 1)
        { s with transferred := s.transferred ++ [h₁.wheel.slot (advance N tc)] } h₁ :=
      { released := ht.released
        transferred := by rw [h₁.wheel.oldest hsome, hadvance, ht.transferred, he]
        le := hsome }
    simp only [run_change, Prog.safe_ret]
    rw [he] at htake
    refine Pool.Outline.safe_perform _ ⟨htake, he, hl⟩ hstable
      (.storeThreadCurrent (by rw [hadvance, he]) (he ▸ htake)) ?_
    rintro ⟨⟩ h₂ _ ⟨ht, he, hl⟩ hstep
    cases hstep with | storeThreadCurrent some =>
    have hpop : (h₂.wheel.pop some).released = h.wheel.released + 1 := congrArg (· + 1) he
    refine ⟨⟨?_, ?_, ?_⟩, (fun hf => by cases hf), fun tc' c' hl' => ?_⟩
    · show s.released + 1 = h₂.wheel.released + 1
      rw [ht.released]
    · show _ = h₂.wheel.written.take (h₂.wheel.pop some).released
      rw [hpop]
      exact ht.transferred
    · exact some
    · obtain ⟨rfl, rfl⟩ := Prod.mk.inj (Option.some.inj hl')
      refine ⟨m, ?_, hl.current, ?_, ?_, hl.snapshot, hl.woken⟩
      · rw [hadvance, hpop]
      · rw [hpop]
        exact hmore
      · rw [hpop]
        omega
  case isFalse heq =>
    rw [not_not, hadvance, hl.current,
      mod_eq_mod_iff (by omega) (by omega), Nat.add_right_cancel_iff] at heq
    simp only [run_change, Prog.safe_ret]
    refine ⟨⟨ht.released, ht.transferred, ht.le⟩, fun _ hn => ?_, fun tc' c' hf => by cases hf⟩
    exact heq ▸ hl.woken hn

/-- **`event_loop`** keeps to the outline. -/
theorem ringEventLoop_safe {s : Consumer α} (hN : 0 < N) (hs : Passed s h) :
    ((ringEventLoop N).run s).Safe ((ringOutline N items).rules .consumer)
      (fun s _ h => Passed s h) h := by
  simp only [ringEventLoop, run_bind, run_look, Prog.safe_bind, Prog.safe_ret]
  cases hloop : s.loop with
  | some l =>
    obtain ⟨tc, c⟩ := l
    obtain ⟨m, hl⟩ := hs.loop tc c hloop
    exact ringReadLoop_safe hN hs.taken hl
  | none =>
    simp only [run_bind, Prog.safe_bind]
    refine Pool.Outline.safe_perform (Passed s) hs (fun _ _ hr hp => hr.passed hp)
      (.testAndSet hs.taken (hs.idle hloop)) ?_
    rintro _ h₁ _ hs ⟨⟩
    cases hn : h₁.notify with
    | true =>
      simp only [Bool.not_true, Bool.false_eq_true, if_false, run_pure, Prog.safe_ret]
      exact ⟨⟨hs.taken.released, hs.taken.transferred, hs.taken.le⟩,
        fun hl _ => hs.idle hl hn, fun tc c hf => absurd (hloop.symm.trans hf) (by simp)⟩
    | false =>
      simp only [Bool.not_false, if_true]
      exact ringReadHook_safe ⟨hs.taken.released, hs.taken.transferred, hs.taken.le⟩

end Programs

/-! ## The two threads together -/

namespace RingView

variable {h : RingView α N} {w : RingBufferBus α} {a : RingAccess α}

/-- **The bus under an access of the producer** is what is followed of it. -/
theorem Follows.producer {s : Producer α} (hf : h.Follows w) (hw : Writing s a h) :
    ∃ h', h'.Follows (w.exec a).2 ∧ Step .producer a (w.exec a).1 h h' ∧ Filled h h' := by
  obtain ⟨hcurrent, hthread, hnotify, hslot⟩ := hf
  cases hw with
  | loadCurrent =>
    refine ⟨h, ⟨hcurrent, hthread, hnotify, hslot⟩, ?_, .refl h⟩
    show Step _ .loadCurrent w.current _ _
    exact hcurrent ▸ .loadCurrent
  | loadThreadCurrent =>
    refine ⟨{ h with seen := some h.wheel.released }, ⟨hcurrent, hthread, hnotify, hslot⟩, ?_,
      List.prefix_rfl, rfl, fun hn => ⟨hn, rfl⟩⟩
    show Step _ .loadThreadCurrent w.threadCurrent _ _
    exact hthread ▸ .see
  | @writeSlot i _ x _ slot =>
    refine ⟨{ h with wheel := h.wheel.put x, seen := none },
      ⟨hcurrent, hthread, hnotify, ?_⟩, .writeSlot,
      List.prefix_rfl, rfl, fun hn => ⟨hn, rfl⟩⟩
    show Function.update w.slot i x = Function.update h.wheel.slot h.wheel.next x
    rw [slot, hslot]
  | storeCurrent slot room =>
    refine ⟨h.push room, ⟨?_, hthread, hnotify, hslot⟩, .storeCurrent room,
      List.prefix_append .., rfl, fun hn => ⟨hn, rfl⟩⟩
    show _ = ((h.wheel.push room).written.length + 1) % N
    rw [Wheel.push, List.length_append]
    exact slot
  | clear =>
    exact ⟨h.signal, ⟨hcurrent, hthread, rfl, hslot⟩, .clear, List.prefix_rfl, rfl,
      fun hn => by cases hn⟩

/-- **The bus under an access of the consumer** is what is followed of it. -/
theorem Follows.consumer {s : Consumer α} (hf : h.Follows w) (hr : Reading s a h) :
    ∃ h', h'.Follows (w.exec a).2 ∧ Step .consumer a (w.exec a).1 h h' ∧ Advanced h h' := by
  obtain ⟨hcurrent, hthread, hnotify, hslot⟩ := hf
  cases hr with
  | testAndSet =>
    refine ⟨{ h with notify := true }, ⟨hcurrent, hthread, rfl, hslot⟩, ?_, rfl, rfl, le_rfl,
      rfl, rfl⟩
    show Step _ .testAndSet w.notify _ _
    exact hnotify ▸ .testAndSet
  | loadThreadCurrent =>
    refine ⟨h, ⟨hcurrent, hthread, hnotify, hslot⟩, ?_, .refl h⟩
    show Step _ .loadThreadCurrent w.threadCurrent _ _
    exact hthread ▸ .loadThreadCurrent
  | loadCurrent =>
    refine ⟨h, ⟨hcurrent, hthread, hnotify, hslot⟩, ?_, .refl h⟩
    show Step _ .loadCurrent w.current _ _
    exact hcurrent ▸ .loadCurrent
  | @readSlot i =>
    refine ⟨h, ⟨hcurrent, hthread, hnotify, hslot⟩, ?_, .refl h⟩
    show Step _ (.readSlot i) (w.slot i) _ _
    exact hslot ▸ .readSlot
  | storeThreadCurrent slot taken =>
    exact ⟨{ h with wheel := h.wheel.pop taken.le }, ⟨hcurrent, slot, hnotify, hslot⟩,
      .storeThreadCurrent taken.le, rfl, rfl, Nat.le_succ _, rfl, rfl⟩

end RingView

/-- Every schedule of the two threads. -/
abbrev RingRun (σ₀ σ : (ring N items).State) : Prop :=
  (ring N items).Reaches (fun _ _ => False) (fun _ _ => True) σ₀ σ

/-- **The outline holds in every state reached.** -/
theorem ringOutline_keeps {bus : RingBufferBus α} {slot : ℕ → α}
    (hbus : RingBufferBus.create N slot = .ok bus) {σ : (ring N items).State}
    (hσ : RingRun (ring.start N items bus) σ) : ∃ h, (ringOutline N items).Keeps σ h := by
  have hN : 2 ≤ N := by
    by_contra hlt
    rw [RingBufferBus.create, if_pos (by omega)] at hbus
    cases hbus
  rw [RingBufferBus.create, if_neg (by omega)] at hbus
  obtain rfl := Except.ok.inj hbus
  have hpos : 0 < N := by omega
  refine Pool.Outline.sound ?_ (fun _ _ _ _ hf => hf.elim) ?_ hσ ?_
  · intro σ h t s a k x w hk node exec _
    obtain ⟨rfl, rfl⟩ := Prod.mk.inj (Option.some.inj exec)
    cases t with
    | producer =>
      obtain ⟨h', hf, hstep, hfilled⟩ := hk.1.producer (hk.node node).2
      refine ⟨h', hf, hstep, fun t ht => ?_⟩
      cases t with
      | producer => exact absurd rfl ht
      | consumer => exact hfilled
    | consumer =>
      obtain ⟨h', hf, hstep, hadvanced⟩ := hk.1.consumer (hk.node node)
      refine ⟨h', hf, hstep, fun t ht => ?_⟩
      cases t with
      | producer => exact hadvanced
      | consumer => exact absurd rfl ht
  · intro t s h hs
    cases t with
    | producer => exact writeInterleaved_safe hpos hs
    | consumer => exact ringEventLoop_safe hpos hs
  · let q : Wheel α N := .empty hpos slot
    refine ⟨⟨q, true, 0, Nat.zero_le _, none⟩, ⟨?_, ?_, rfl, rfl⟩, fun t => ?_⟩
    · exact (Nat.mod_eq_of_lt hN).symm
    · exact (Nat.zero_mod N).symm
    cases t with
    | producer => exact ⟨rfl, rfl, rfl, rfl⟩
    | consumer => exact ⟨⟨rfl, rfl, le_rfl⟩, fun _ _ => le_rfl, fun _ _ hf => by cases hf⟩

/-- What is known of the producer, wherever it is. -/
theorem keeps_written {σ : (ring N items).State} {h : RingView α N}
    (hk : (ringOutline N items).Keeps σ h) : written σ = h.wheel.written := by
  have hs := hk.2 .producer
  unfold written
  generalize σ.thread .producer = p at hs ⊢
  cases p with
  | ret s => exact RingView.Written.written hs
  | fail s e => exact hs.1
  | op s o k => exact hs.1.1

/-- What is known of the consumer, wherever it is: it releases a slot right after
the item in it has been transferred. -/
theorem keeps_taken {σ : (ring N items).State} {h : RingView α N}
    (hk : (ringOutline N items).Keeps σ h) : released σ = h.wheel.released
      ∧ ∃ n, h.wheel.released ≤ n ∧ n ≤ h.length ∧ transferred σ = h.wheel.written.take n := by
  have hs := hk.2 .consumer
  unfold released transferred
  generalize σ.thread .consumer = p at hs ⊢
  cases p with
  | ret s =>
    obtain ⟨taken, -, -⟩ := hs
    exact ⟨taken.released, _, le_rfl, taken.le, taken.transferred⟩
  | fail s e => exact hs.elim
  | op s o k =>
    cases hs.1 with
    | storeThreadCurrent _ taken =>
      exact ⟨taken.released, _, Nat.le_succ _, taken.le, taken.transferred⟩
    | _ taken => exact ⟨taken.released, _, le_rfl, taken.le, taken.transferred⟩

/-- **First in, first out.** At every moment of every run the items transferred
are the first of those whose write is completed, in order, and the others lie
untouched in their slots. A call of `WriteInterleaved` finds no room exactly if,
at the moment it looks, all slots but one hold items that are not released. -/
theorem ring_fifo {bus : RingBufferBus α} {slot : ℕ → α}
    (hbus : RingBufferBus.create N slot = .ok bus) {σ : (ring N items).State}
    (hσ : RingRun (ring.start N items bus) σ) :
    transferred σ <+: written σ
    ∧ (∀ k (hk : k < (written σ).length), (transferred σ).length ≤ k →
      σ.world.slot ((k + 1) % N) = (written σ)[k])
    ∧ ∀ s k a w, σ.thread .producer = .op s .loadThreadCurrent k →
      (ring N items).exec .producer .loadThreadCurrent σ.world = some (a, w) →
      ((k a).state.overrun = true ↔ (written σ).length = released σ + (N - 1)) := by
  obtain ⟨h, hk⟩ := ringOutline_keeps hbus hσ
  have hwritten := keeps_written hk
  obtain ⟨hreleased, n, hle, hlen, htransferred⟩ := keeps_taken hk
  refine ⟨?_, fun j hj hn => ?_, fun s k a w hs exec => ?_⟩
  · rw [htransferred, hwritten]
    exact List.take_prefix ..
  · simp only [hwritten] at hj ⊢
    rw [htransferred, List.length_take, Nat.min_eq_left hlen] at hn
    rw [hk.1.slot]
    exact h.wheel.stored j hj (hle.trans hn)
  · -- what the call sees is still so right after it has looked
    obtain ⟨rfl, -⟩ := Prod.mk.inj (Option.some.inj exec)
    have hsafe := hk.2 .producer
    rw [hs] at hsafe
    have hsee : RingView.Step .producer .loadThreadCurrent σ.world.threadCurrent h
        { h with seen := some h.wheel.released } := hk.1.threadCurrent ▸ .see
    have hafter := hsafe.2 _ _ ⟨h, .refl h, hsee⟩
    have hroom := h.wheel.room
    have hlength : (written σ).length = h.wheel.written.length := congrArg List.length hwritten
    rw [hreleased, hlength]
    generalize k _ = p at hafter ⊢
    cases p with
    | ret s => cases (RingView.Written.unseen hafter)
    | fail s e => cases hafter.2.2
    | op s o k =>
      cases hafter.1.2 with
      | writeSlot _ seen branch =>
        obtain rfl := Option.some.inj seen
        rw [Prog.state_op, branch]
        show h.wheel.written.length + 1 = h.wheel.released + N ↔ _
        have hpending := h.wheel.released_le
        omega
      | loadCurrent _ unseen => cases unseen
      | loadThreadCurrent unseen => cases unseen
      | storeCurrent _ _ unseen => cases unseen
      | clear unseen => cases unseen

/-- Schedules of the two threads. -/
def ringScript (N : ℕ) (items : ℕ → α) : (ring N items).Script Empty where
  act v := v.elim
  may _ _ := true
  check _ := true

/-- The bus of the smallest ring. -/
def twoSlots : RingBufferBus ℕ := { threadCurrent := 0, current := 1, notify := true, slot := id }

/-- An item is written and transferred, and another one is written. -/
theorem ring_fifo_two : ∃ σ : (ring 2 id).State, RingRun (ring.start 2 id twoSlots) σ
    ∧ (written σ).length = 2 ∧ (transferred σ).length = 1 ∧ transferred σ <+: written σ := by
  obtain ⟨σ, hσ, hp⟩ := Pool.Script.exists_of_replay (fun _ _ => False) (fun _ _ => True)
    (ringScript 2 id) [.go .producer 6, .go .consumer 8, .go .producer 6]
    (ring.start 2 id twoSlots)
    (fun σ => decide ((written σ).length = 2 ∧ (transferred σ).length = 1))
    (fun v => v.elim) (fun _ _ _ => trivial) (by decide +kernel)
  obtain ⟨hw, ht⟩ := of_decide_eq_true hp
  exact ⟨σ, hσ, hw, ht, (ring_fifo rfl hσ).1⟩

/-- Outside of `WriteInterleaved`. -/
def Paused (p : Prog (Producer α) RingError (RingAccess.Answer (α := α)) Unit) : Prop :=
  (∃ s, p = .ret s ()) ∨ ∃ s k, p = .op s .loadCurrent k

/-- Outside of `event_loop`, or about to look for a wake-up. -/
def Waiting (p : Prog (Consumer α) RingError (RingAccess.Answer (α := α)) Unit) : Prop :=
  (∃ s, p = .ret s () ∧ s.loop = none) ∨ ∃ s k, p = .op s .testAndSet k

/-- **No item is stranded.** Whenever neither thread is at work and no wake-up is
pending, every item written so far has been transferred. -/
theorem ring_drained {bus : RingBufferBus α} {slot : ℕ → α}
    (hbus : RingBufferBus.create N slot = .ok bus) {σ : (ring N items).State}
    (hσ : RingRun (ring.start N items bus) σ) (hp : Paused (σ.thread .producer))
    (hc : Waiting (σ.thread .consumer)) (hn : σ.world.notify = true) :
    transferred σ = written σ := by
  obtain ⟨h, hk⟩ := ringOutline_keeps hbus hσ
  have hdone : h.signalled = h.length := by
    obtain ⟨s, hs⟩ | ⟨s, k, hs⟩ := hp
    · exact RingView.Written.done (hk.rest hs)
    · cases (hk.node hs).2 with | loadCurrent done => exact done
  have hnotify : h.notify = true := hk.1.notify ▸ hn
  have htaken : ∃ s, RingView.Transferred h.wheel.released s h ∧ h.signalled ≤ h.wheel.released
      ∧ transferred σ = s.transferred := by
    unfold transferred
    obtain ⟨s, hs, hl⟩ | ⟨s, k, hs⟩ := hc
    · obtain ⟨taken, idle, -⟩ := hk.rest hs
      exact ⟨s, taken, idle hl hnotify, by rw [hs]; rfl⟩
    · cases hk.node hs with
      | testAndSet taken woken => exact ⟨s, taken, woken hnotify, by rw [hs]; rfl⟩
  obtain ⟨s, taken, hsignalled, hs⟩ := htaken
  have hall : h.wheel.released = h.length :=
    le_antisymm h.wheel.released_le (hdone ▸ hsignalled)
  rw [hs, keeps_written hk, taken.transferred, hall, List.take_length]

/-- The bus of a ring of three slots. -/
def threeSlots : RingBufferBus ℕ :=
  { threadCurrent := 0, current := 1, notify := true, slot := fun _ => 7 }

/-- Two items are written and transferred, the second of them is written while
the consumer is in its loop for the first. -/
theorem ring_drained_two : ∃ σ : (ring 3 id).State, RingRun (ring.start 3 id threeSlots) σ
    ∧ (written σ).length = 2 ∧ transferred σ = written σ := by
  obtain ⟨σ, hσ, hp⟩ := Pool.Script.exists_of_replay (fun _ _ => False) (fun _ _ => True)
    (ringScript 3 id) [.go .producer 6, .go .consumer 6, .go .producer 6, .go .consumer 10]
    (ring.start 3 id threeSlots)
    (fun σ => (σ.thread .producer).returned && (σ.thread .consumer).returned
      && decide ((written σ).length = 2 ∧ (σ.thread .consumer).state.loop = none
        ∧ σ.world.notify = true))
    (fun v => v.elim) (fun _ _ _ => trivial) (by decide +kernel)
  simp only [Bool.and_eq_true, decide_eq_true_eq] at hp
  obtain ⟨⟨hproducer, hconsumer⟩, hw, hloop, hn⟩ := hp
  obtain ⟨⟨⟩, hs⟩ := Prog.returned_spec hproducer
  obtain ⟨⟨⟩, hs'⟩ := Prog.returned_spec hconsumer
  exact ⟨σ, hσ, hw, ring_drained rfl hσ (.inl ⟨_, hs⟩) (.inl ⟨_, hs', hloop⟩) hn⟩

end SOS
