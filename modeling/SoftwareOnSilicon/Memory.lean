import Mathlib.Algebra.Order.Ring.Int
import Mathlib.Data.Finset.Insert
import SoftwareOnSilicon.Outline
import SoftwareOnSilicon.Replay
import SoftwareOnSilicon.Scan

/-!
# `MemoryController`

A memory that one thread appends to and another one reads in blocks. The writer
is a `NonBlockingWriteTask`, which appends one cell at a time, or the
`RingBufferTaskImpl` of the ring, which appends the cells of a blink; the reader
runs `Reader::event_loop`, whose `read` goes through the block from its last
cell to the first. What they share is the `BlockerBus`: the writing and the
reading flag, the window `BKStart`, `BKEnd` that is being written, and the cells.
Iterators are offsets from the first cell.

The virtual functions of the reader are those of `ReadTaskImpl`. The client that
asks for a read is the environment: it sets the offset and the two handshake
flags of the `ReaderBus`.
-/

namespace SOS

open Interleaving Code

variable {α : Type}

/-! ## The bus -/

/-- The errors of the reader and of the two writers. -/
inductive MemoryError where
  | negativeReadoffsetSupplied
  | readindexOutOfBounds
  | writerBufferFull
  | unexpectedWritesLeft
  | characterWriteRangeFailed
  deriving DecidableEq, Repr

/-- The atomic flags: those of `RWNotify`, and the handshake of the client. -/
inductive MemoryFlag where
  | writing
  | reading
  | updated
  | acknowledge
  deriving DecidableEq, Repr

/-- **The memory the threads share.** -/
structure BlockerBus (α : Type) where
  /-- The flags; `true` is set. -/
  flag : MemoryFlag → Bool
  bkStart : ℕ
  bkEnd : ℕ
  readOffset : ℤ
  cell : ℕ → α

/-- One access to the shared memory. -/
inductive MemoryAccess (α : Type) where
  | testAndSet (f : MemoryFlag)
  | clear (f : MemoryFlag)
  | loadStart
  | storeStart (i : ℕ)
  | loadEnd
  | storeEnd (i : ℕ)
  | loadOffset
  | loadCell (i : ℕ)
  | storeCell (i : ℕ) (x : α)

/-- What an access answers. -/
abbrev MemoryAccess.Answer : MemoryAccess α → Type
  | .testAndSet _ => Bool
  | .loadStart => ℕ
  | .loadEnd => ℕ
  | .loadOffset => ℤ
  | .loadCell _ => α
  | _ => Unit

namespace BlockerBus

/-- After the constructors: all flags are set, the window is empty, and the memory
is filled with one value. -/
def start (fill : α) : BlockerBus α where
  flag _ := true
  bkStart := 0
  bkEnd := 0
  readOffset := 0
  cell _ := fill

/-- Set or clear one flag. -/
def setFlag (w : BlockerBus α) (f : MemoryFlag) (v : Bool) : BlockerBus α :=
  { w with flag := Function.update w.flag f v }

section setFlag

variable (w : BlockerBus α) (f : MemoryFlag) (v v' : Bool)

@[simp] theorem setFlag_bkStart : (w.setFlag f v).bkStart = w.bkStart := rfl

@[simp] theorem setFlag_bkEnd : (w.setFlag f v).bkEnd = w.bkEnd := rfl

@[simp] theorem setFlag_cell : (w.setFlag f v).cell = w.cell := rfl

@[simp] theorem setFlag_setFlag : (w.setFlag f v).setFlag f v' = w.setFlag f v' := by
  unfold setFlag
  rw [Function.update_idem]

theorem setFlag_eq_self {w : BlockerBus α} {f : MemoryFlag} {v : Bool} (h : w.flag f = v) :
    w.setFlag f v = w := by
  unfold setFlag
  rw [← h, Function.update_eq_self]

end setFlag

/-- **What an access does to the bus**, with its answer. -/
def exec : (a : MemoryAccess α) → BlockerBus α → a.Answer × BlockerBus α
  | .testAndSet f, w => (w.flag f, w.setFlag f true)
  | .clear f, w => ((), w.setFlag f false)
  | .loadStart, w => (w.bkStart, w)
  | .storeStart i, w => ((), { w with bkStart := i })
  | .loadEnd, w => (w.bkEnd, w)
  | .storeEnd i, w => ((), { w with bkEnd := i })
  | .loadOffset, w => (w.readOffset, w)
  | .loadCell i, w => (w.cell i, w)
  | .storeCell i x, w => ((), { w with cell := Function.update w.cell i x })

end BlockerBus

/-- Code of a thread of the memory. -/
abbrev MemoryCode (S α β : Type) : Type := Code S MemoryError (MemoryAccess.Answer (α := α)) β

/-- One access to the bus. -/
def onBlocker {S : Type} (a : MemoryAccess α) : MemoryCode S α a.Answer :=
  perform (A := MemoryAccess.Answer) a

/-! ## The writers -/

/-- The writer, with the number of cells it has appended and released. -/
structure Writer where
  appended : ℕ := 0

/-- `write` of `NonBlockingWriteTask`, for a memory of the given size. -/
def NonBlockingWriteTask.write (size : ℕ) (character : α) : MemoryCode Writer α Unit := do
  let writerPos ← onBlocker .loadStart
  if writerPos ≠ size then
    onBlocker (.clear .writing)
    onBlocker (.storeEnd ((← onBlocker .loadEnd) + 1))
    onBlocker (.storeCell writerPos character)
    onBlocker (.storeStart (writerPos + 1))
    change fun s => { s with appended := s.appended + 1 }
    let _ ← onBlocker (.testAndSet .writing)
  else
    abort .writerBufferFull

/-- `std::copy`, with the position after the last cell copied. -/
def copyCells : List α → ℕ → MemoryCode Writer α ℕ
  | [], writerPos => return writerPos
  | x :: xs, writerPos => do
    onBlocker (.storeCell writerPos x)
    copyCells xs (writerPos + 1)

/-- A signed distance as the unsigned number it is converted to where it is
compared with one. -/
def asUnsigned (d : ℤ) : ℤ := if d < 0 then d + 2 ^ 64 else d

/-- The room that is left in a memory of the given size is not negative, so the
conversion makes no difference to it. -/
theorem room_iff {n size bkStart : ℕ} (hle : bkStart ≤ size) :
    (n : ℤ) ≤ asUnsigned ((size : ℤ) - bkStart) ↔ bkStart + n ≤ size := by
  unfold asUnsigned
  rw [if_neg (by omega)]
  omega

/-- `write` of `RingBufferTaskImpl`: a blink of several cells. The number of
cells is unsigned, the room that is left is signed. -/
def RingBufferTaskImpl.write (size : ℕ) (character : List α) : MemoryCode Writer α Unit := do
  let bkStart ← onBlocker .loadStart
  if (character.length : ℤ) ≤ asUnsigned ((size : ℤ) - bkStart) then
    onBlocker (.clear .writing)
    onBlocker (.storeEnd (bkStart + character.length))
    let _ ← onBlocker (.testAndSet .writing)
    let writerPos ← copyCells character (← onBlocker .loadStart)
    onBlocker (.clear .writing)
    onBlocker (.storeStart writerPos)
    change fun s => { s with appended := s.appended + character.length }
    let _ ← onBlocker (.testAndSet .writing)
  else
    abort .characterWriteRangeFailed
  if (← onBlocker .loadStart) ≠ (← onBlocker .loadEnd) then
    abort .unexpectedWritesLeft

/-! ## The reader -/

/-- The reader: the block it reads into, and the local variables of `read`: `rb`
and `mc` while it is in its loop, and the `bk_end` it has loaded last. The other two
are history variables of the latest read: the cells that have been marked busy, and
its offset. -/
structure Reader (α : Type) where
  block : ℕ → α
  loop : Option (ℕ × ℕ) := none
  bkEnd : ℕ := 0
  marked : ℕ → Bool := fun _ => false
  readOffset : Option ℕ := none

namespace Reader

/-- `wait`: whether a write is going on; if so, the flag is put back. -/
def wait : MemoryCode (Reader α) α Bool := do
  if !(← onBlocker (.testAndSet .writing)) then
    onBlocker (.clear .writing)
    return true
  else
    onBlocker (.clear .reading) -- started individual read
    return false

/-- A cell of the block is filled, with a copy or by `busy`. -/
def put (rb mc : ℕ) (x : α) (marked : Bool) (s : Reader α) : Reader α :=
  { s with
    loop := some (rb, mc)
    block := Function.update s.block rb x
    marked := Function.update s.marked rb marked }

/-- `wait_acknowledge`. -/
def waitAcknowledge : MemoryCode (Reader α) α Unit := do
  let _ ← onBlocker (.testAndSet .reading) -- ended individual read

end Reader

/-- **A memory and its two users**: the sizes of the memory and of a block, what
`busy` puts into a cell of the block, the kind of the writer, and the cells it
appends one after another. -/
structure MemoryController (α : Type) where
  size : ℕ
  blockSize : ℕ
  busy : α
  /-- The length of a blink, `none` for a `NonBlockingWriteTask`. -/
  blink : Option ℕ
  log : ℕ → α

namespace MemoryController

variable (C : MemoryController α)

/-- `read`, up to its loop. -/
def read : MemoryCode (Reader α) α Unit := do
  let readOffset ← onBlocker .loadOffset
  if readOffset < 0 then
    abort .negativeReadoffsetSupplied
  if C.size < readOffset.toNat + C.blockSize then
    abort .readindexOutOfBounds -- `outOfBounds`
  change fun s => { s with
    loop := some (C.blockSize, readOffset.toNat + C.blockSize)
    readOffset := some readOffset.toNat }

/-- The body of the loop of `read`, which also counts `rb` and `mc` down. -/
def readCell (rb mc : ℕ) : MemoryCode (Reader α) α Unit := do
  if !(← Reader.wait) then
    let bkEnd ← onBlocker .loadEnd
    change fun s => { s with bkEnd := bkEnd }
    let bkStart ← onBlocker .loadStart
    if mc - 1 < bkStart ∨ bkEnd < mc - 1 then
      let x ← onBlocker (.loadCell (mc - 1))
      change (Reader.put (rb - 1) (mc - 1) x false)
    else
      change (Reader.put (rb - 1) (mc - 1) C.busy true)
    Reader.waitAcknowledge

/-- `event_loop` of the reader. -/
def eventLoop : MemoryCode (Reader α) α Unit := do
  match ← look Reader.loop with
  | some (rb, mc) =>
    if rb ≠ 0 then
      C.readCell rb mc
    else
      change fun s => { s with loop := none }
      onBlocker (.clear .acknowledge)
  | none =>
    if !(← onBlocker (.testAndSet .updated)) then
      C.read

/-- One call of the writer, for the next cells of the log. -/
def write (s : Writer) : MemoryCode Writer α Unit :=
  match C.blink with
  | none => NonBlockingWriteTask.write C.size (C.log s.appended)
  | some n =>
    RingBufferTaskImpl.write C.size ((List.range n).map fun i => C.log (s.appended + i))

end MemoryController

/-- The threads of a memory. -/
inductive MemoryThread where
  | writer
  | reader
  deriving DecidableEq, Repr

instance : Fintype MemoryThread where
  elems := {.writer, .reader}
  complete t := by cases t <;> decide

/-- The private state of each. -/
abbrev MemoryThread.Private (α : Type) : MemoryThread → Type
  | .writer => Writer
  | .reader => Reader α

/-- **The pool of the two threads.** -/
def memory (C : MemoryController α) : Pool MemoryThread (MemoryThread.Private α) MemoryError
    (MemoryAccess.Answer (α := α)) (BlockerBus α) where
  exec _ a w := some (w.exec a)
  loop
    | .writer, s => (C.write s).run s
    | .reader, s => C.eventLoop.run s

/-- The memory before the first write, for what the block holds. -/
def memory.start (C : MemoryController α) (fill : α) (block : ℕ → α) : (memory C).State where
  world := .start fill
  thread
    | .writer => .ret {} ()
    | .reader => .ret { block := block } ()

/-- The client sets the offset and the flags of the `ReaderBus`. -/
structure Client {C : MemoryController α} (σ : (memory C).State) (w : BlockerBus α) : Prop where
  writing : w.flag .writing = σ.world.flag .writing
  reading : w.flag .reading = σ.world.flag .reading
  bkStart : w.bkStart = σ.world.bkStart
  bkEnd : w.bkEnd = σ.world.bkEnd
  cell : w.cell = σ.world.cell

end SOS
