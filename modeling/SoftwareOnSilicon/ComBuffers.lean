import SoftwareOnSilicon.Relay
import SoftwareOnSilicon.Wheel

/-!
# The buffers of a `ComBus`

The two byte buffers of a bus, of any length, each with an offset that `read_byte` and
`write_byte` move on and wrap around. The buffers are ranges of two arrays; iterators are
positions in the array.

The write side goes through its buffer slot by slot. The read side takes the length of its
buffer to be the distance of its beginning from itself, so that it never leaves the first
slot (`traverses_iff`). With buffers of one byte, which are the only ones in use, that
makes no difference; those are the buses of the two ends (`readByte_eval`,
`writeByte_eval`).
-/

namespace SOS

/-- `std::distance`. -/
def distance (first last : ℕ) : ℤ := last - first

/-- **The buffers of a `ComBus`**: the arrays, the iterators and the two offsets. -/
structure ComBuffers where
  inArray : ℕ → Byte
  inStart : ℕ
  inEnd : ℕ
  outArray : ℕ → Byte
  outStart : ℕ
  outEnd : ℕ
  readOffset : ℕ := 0
  writeOffset : ℕ := 0

namespace ComBuffers

/-- The checks of the constructor. -/
def make (inArray : ℕ → Byte) (inStart inEnd : ℕ) (outArray : ℕ → Byte) (outStart outEnd : ℕ) :
    Except ErrorCode ComBuffers := do
  if distance inStart inEnd < 1 then
    throw .combufferSizeIsMinimumWORDSIZE
  if distance outStart outEnd < 1 then
    throw .combufferSizeIsMinimumWORDSIZE
  if distance inStart inEnd ≠ distance outStart outEnd then
    throw .combufferInAndOutSizeNotEqual
  return { inArray, inStart, inEnd, outArray, outStart, outEnd }

/-- `read_byte`. Its buffer length is that of the range from `inStart` to `inStart`. -/
def readByte (bus : ComBuffers) : Except ErrorCode (Byte × ComBuffers) :=
  let bufferLength := distance bus.inStart bus.inStart
  if bufferLength < bus.readOffset then
    .error .attemptedReadAfterEndOfBuffer
  else
    let byte := bus.inArray (bus.inStart + bus.readOffset)
    let next := bus.readOffset + 1
    .ok (byte, { bus with readOffset := if bufferLength ≤ next then 0 else next })

/-- `write_byte`. -/
def writeByte (byte : Byte) (bus : ComBuffers) : Except ErrorCode ComBuffers :=
  let bufferLength := distance bus.outStart bus.outEnd
  if bufferLength < bus.writeOffset then
    .error .attemptedWriteAfterEndOfBuffer
  else
    let next := bus.writeOffset + 1
    .ok { bus with
      outArray := Function.update bus.outArray (bus.outStart + bus.writeOffset) byte
      writeOffset := if bufferLength ≤ next then 0 else next }

/-! ## Histories -/

/-- What happens to a bus. -/
inductive Use where
  | read
  | write (byte : Byte)
  /-- The peer fills the in buffer anew. -/
  | fill (inArray : ℕ → Byte)

/-- One use of a bus. -/
def use (bus : ComBuffers) : Use → Except ErrorCode ComBuffers
  | .read => bus.readByte.map Prod.snd
  | .write byte => bus.writeByte byte
  | .fill inArray => .ok { bus with inArray := inArray }

/-- A history of a bus. -/
def run (bus : ComBuffers) (uses : List Use) : Except ErrorCode ComBuffers := uses.foldlM use bus

/-- The number of bytes read. -/
def reads (uses : List Use) : ℕ := uses.countP fun | .read => true | _ => false

/-- The number of bytes written. -/
def writes (uses : List Use) : ℕ := uses.countP fun | .write _ => true | _ => false

/-- What the in buffer holds after a history. -/
def contents (inArray : ℕ → Byte) (uses : List Use) : ℕ → Byte :=
  uses.foldl (fun a u => match u with | .fill b => b | _ => a) inArray

/-- The length of both buffers. -/
def length (bus : ComBuffers) : ℕ := bus.outEnd - bus.outStart

/-- The next use is as it should be: the next slot is read, or written. -/
def Regular (bus : ComBuffers) (k m : ℕ) : Use → Prop
  | .read => ∃ bus', bus.readByte = .ok (bus.inArray (bus.inStart + k % bus.length), bus')
  | .write byte => ∃ bus', bus.writeByte byte = .ok bus' ∧ bus'.outArray
      = Function.update bus.outArray (bus.outStart + m % bus.length) byte
  | .fill _ => True

/-- **Both sides traverse their buffers**: all through a history no error is reported, the
offsets are in the buffers, and the uses go through the slots one after another. -/
def Traverses (bus : ComBuffers) (uses : List Use) : Prop :=
  ∀ before after, uses = before ++ after → ∃ bus', bus.run before = .ok bus'
    ∧ bus'.readOffset < bus.length ∧ bus'.writeOffset < bus.length
    ∧ ∀ u ∈ after.head?, bus'.Regular (reads before) (writes before) u

/-! ## What a history leads to -/

/-- **Where a bus is after a history.** -/
structure At (bus₀ : ComBuffers) (uses : List Use) (bus : ComBuffers) : Prop where
  inArray : bus.inArray = contents bus₀.inArray uses
  inStart : bus.inStart = bus₀.inStart
  outStart : bus.outStart = bus₀.outStart
  outEnd : bus.outEnd = bus₀.outEnd
  /-- The read side does not move on. -/
  readOffset : bus.readOffset = 0
  writeOffset : bus.writeOffset = writes uses % bus₀.length

variable {bus bus₀ bus' : ComBuffers} {uses : List Use}

theorem At.length (h : At bus₀ uses bus) : bus.length = bus₀.length := by
  unfold ComBuffers.length
  rw [h.outEnd, h.outStart]

/-- A byte is read: it is always the first one. -/
theorem At.readByte (h : At bus₀ uses bus) :
    bus.readByte = .ok (bus.inArray bus.inStart, bus) := by
  obtain ⟨-, -, -, -, hread, -⟩ := h
  cases bus
  subst hread
  simp [ComBuffers.readByte, distance]

/-- A byte is written, into the next slot. -/
theorem At.writeByte (h : At bus₀ uses bus) (hpos : 0 < bus₀.length) (byte : Byte) :
    bus.writeByte byte = .ok { bus with
      outArray := Function.update bus.outArray
        (bus.outStart + writes uses % bus₀.length) byte
      writeOffset := (writes uses + 1) % bus₀.length } := by
  have hlt := Nat.mod_lt (writes uses) hpos
  have hlength : distance bus.outStart bus.outEnd = bus₀.length := by
    have hl : bus₀.length = bus.outEnd - bus.outStart := by rw [← h.length]; rfl
    unfold distance
    omega
  have hnext : (writes uses + 1) % bus₀.length
      = if bus₀.length ≤ writes uses % bus₀.length + 1 then 0
        else writes uses % bus₀.length + 1 := by
    rw [← Interleaving.advance_mod hpos]
    unfold Interleaving.advance
    split <;> split <;> omega
  unfold ComBuffers.writeByte
  rw [hlength, h.writeOffset, if_neg (by omega), hnext]
  simp only [Nat.cast_le]

theorem writes_concat (uses : List Use) (u : Use) :
    writes (uses ++ [u]) = writes uses + writes [u] := List.countP_append

theorem contents_concat (a : ℕ → Byte) (uses : List Use) (u : Use) :
    contents a (uses ++ [u]) = contents (contents a uses) [u] := by
  unfold contents
  rw [List.foldl_append]

/-- **A use leads on**: it never fails. -/
theorem At.use (h : At bus₀ uses bus) (hpos : 0 < bus₀.length) (u : Use) :
    ∃ bus', bus.use u = .ok bus' ∧ At bus₀ (uses ++ [u]) bus' := by
  cases u with
  | read =>
    refine ⟨bus, by simp [ComBuffers.use, h.readByte, Except.map], ?_⟩
    exact ⟨by rw [h.inArray, contents_concat]; rfl, h.inStart, h.outStart, h.outEnd,
      h.readOffset, by rw [h.writeOffset, writes_concat]; rfl⟩
  | write byte =>
    refine ⟨_, h.writeByte hpos byte, ?_⟩
    exact ⟨by rw [contents_concat]; exact h.inArray, h.inStart, h.outStart, h.outEnd,
      h.readOffset, by rw [writes_concat]; rfl⟩
  | fill inArray =>
    refine ⟨_, rfl, ?_⟩
    exact ⟨by rw [contents_concat]; rfl, h.inStart, h.outStart, h.outEnd, h.readOffset,
      by rw [writes_concat]; exact h.writeOffset⟩

/-- What the constructor has checked. -/
theorem make_spec {a b : ℕ → Byte} {s e s' e' : ℕ} (h : make a s e b s' e' = .ok bus) :
    At bus [] bus ∧ 0 < bus.length := by
  unfold make at h
  by_cases hin : distance s e < 1
  · simp [hin, throw, throwThe, MonadExceptOf.throw, bind, Except.bind] at h
  by_cases hout : distance s' e' < 1
  · simp [hin, hout, throw, throwThe, MonadExceptOf.throw, bind, Except.bind] at h
  by_cases hne : distance s e ≠ distance s' e'
  · simp [hin, hout, hne, throw, throwThe, MonadExceptOf.throw, bind, Except.bind] at h
  simp only [hin, hout, hne, if_false] at h
  cases h
  refine ⟨⟨rfl, rfl, rfl, rfl, rfl, (Nat.zero_mod _).symm⟩, ?_⟩
  show 0 < e' - s'
  unfold distance at hout
  omega

/-- **Where a history leads to.** -/
theorem At.run (h : At bus [] bus) (hpos : 0 < bus.length) (uses : List Use) :
    ∃ bus', bus.run uses = .ok bus' ∧ At bus uses bus' := by
  induction uses using List.reverseRecOn with
  | nil => exact ⟨bus, rfl, h⟩
  | append_singleton uses u ih =>
    obtain ⟨bus₁, hrun, hat⟩ := ih
    obtain ⟨bus₂, huse, hat'⟩ := hat.use hpos u
    refine ⟨bus₂, ?_, hat'⟩
    unfold ComBuffers.run at hrun ⊢
    rw [List.foldlM_append, hrun]
    show bus₁.use u >>= pure = _
    rw [huse]
    rfl

/-- A read is regular if the first slot holds what the next slot holds. -/
theorem At.regular_read (h : At bus₀ uses bus) (k m : ℕ) :
    bus.Regular k m .read ↔
      contents bus₀.inArray uses (bus₀.inStart + k % bus₀.length)
        = contents bus₀.inArray uses bus₀.inStart := by
  unfold Regular
  rw [h.readByte, h.length, h.inArray, h.inStart]
  constructor
  · rintro ⟨bus', heq⟩
    exact (congrArg Prod.fst (Except.ok.inj heq)).symm
  · rintro he
    exact ⟨bus, by rw [he]⟩

/-- A history both sides traverse their buffers in. -/
theorem Traverses.of_regular (hat : At bus [] bus) (hpos : 0 < bus.length)
    (h : ∀ before after, uses = before ++ .read :: after →
      contents bus.inArray before (bus.inStart + reads before % bus.length)
        = contents bus.inArray before bus.inStart) : bus.Traverses uses := by
  intro before after huses
  obtain ⟨bus', hrun, hat'⟩ := hat.run hpos before
  refine ⟨bus', hrun, ?_, ?_, fun u hu => ?_⟩
  · rw [hat'.readOffset]
    exact hpos
  · rw [hat'.writeOffset]
    exact Nat.mod_lt _ hpos
  · cases u with
    | read =>
      obtain ⟨rest, rfl⟩ : ∃ rest, after = .read :: rest := by
        cases after with
        | nil => cases hu
        | cons x rest => exact ⟨rest, by cases hu; rfl⟩
      exact (hat'.regular_read _ _).mpr (h before rest huses)
    | write byte =>
      refine ⟨_, hat'.writeByte hpos byte, ?_⟩
      rw [hat'.length]
    | fill inArray => trivial

/-- With buffers of one byte both sides traverse them. -/
theorem traverses_of_length_one {a b : ℕ → Byte} {s e s' e' : ℕ}
    (hmake : make a s e b s' e' = .ok bus) (hone : bus.length = 1) (uses : List Use) :
    bus.Traverses uses := by
  obtain ⟨hat, hpos⟩ := make_spec hmake
  refine Traverses.of_regular hat hpos fun before after _ => ?_
  rw [hone, Nat.mod_one, Nat.add_zero]

/-- **When both sides traverse their buffers**: whenever a byte is read, the slot whose
turn it is holds the same as the first. -/
theorem traverses_iff {a b : ℕ → Byte} {s e s' e' : ℕ} (hmake : make a s e b s' e' = .ok bus)
    (uses : List Use) :
    bus.Traverses uses ↔ ∀ before after, uses = before ++ .read :: after →
      contents bus.inArray before (bus.inStart + reads before % bus.length)
        = contents bus.inArray before bus.inStart := by
  obtain ⟨hat, hpos⟩ := make_spec hmake
  refine ⟨fun h before after huses => ?_, Traverses.of_regular hat hpos⟩
  obtain ⟨bus', hrun, -, -, hnext⟩ := h before (.read :: after) huses
  obtain ⟨bus₁, hrun₁, hat₁⟩ := hat.run hpos before
  obtain rfl : bus₁ = bus' := by
    rw [hrun] at hrun₁
    cases hrun₁
    rfl
  exact (hat₁.regular_read _ _).mp (hnext .read rfl)

/-- Three bytes are written and three are read, with buffers of two in which the peer leaves
the same byte in both slots, and then another one. -/
def threeEach : List Use :=
  [.write 1, .read, .write 2, .read, .fill fun _ => 8, .write 3, .read]

/-- The offsets come round, and both sides traverse their buffers. -/
theorem traverses_iff_two : ∃ bus, make (fun _ => 7) 0 2 (fun _ => 0) 0 2 = .ok bus
    ∧ bus.length < reads threeEach ∧ bus.length < writes threeEach
    ∧ bus.Traverses threeEach := by
  have hmake : make (fun _ => 7) 0 2 (fun _ => 0) 0 2 = .ok
      { inArray := fun _ => 7, inStart := 0, inEnd := 2, outArray := fun _ => 0, outStart := 0,
        outEnd := 2 } := rfl
  refine ⟨_, hmake, by decide, by decide, (traverses_iff hmake _).mpr fun before after h => ?_⟩
  have hprefix : before ∈ threeEach.inits := (List.mem_inits ..).mpr ⟨_, h.symm⟩
  simp only [threeEach, List.inits, List.map_cons, List.map_nil, List.mem_cons,
    List.not_mem_nil, or_false] at hprefix
  rcases hprefix with rfl | rfl | rfl | rfl | rfl | rfl | rfl | rfl <;> rfl

/-- **The second byte is not read**: two bytes are in the buffer, and the first one is
read twice. -/
theorem second_slot_not_read : ∃ bus,
    make (fun i => if i = 1 then 8 else 7) 0 2 (fun _ => 0) 0 2 = .ok bus
    ∧ bus.length = 2 ∧ ¬ bus.Traverses [.read, .read] := by
  refine ⟨_, rfl, rfl, fun h => ?_⟩
  obtain ⟨bus', hrun, -, -, hread⟩ := h [.read] [.read] rfl
  cases hrun
  obtain ⟨bus₁, hbyte⟩ := hread .read rfl
  exact absurd (congrArg Prod.fst (Except.ok.inj hbyte)) (show (7 : Byte) ≠ 8 by decide)

end ComBuffers

/-! ## The buses of the two ends -/

/-- The buffers of the bus of an end, of one byte each. -/
def ComBus.buffers (c : ComBus) : ComBuffers where
  inArray := c.inBuffer
  inStart := 0
  inEnd := 1
  outArray := c.outBuffer
  outStart := 0
  outEnd := 1
  readOffset := c.readOffset
  writeOffset := c.writeOffset

variable (r : Role) (s : Endpoint) (w : LineWorld)

theorem onCom_eval (a : ComAccess) :
    (onCom r a).eval (LineWorld.exec (.communication r)) s w
      = some (((w.com r).exec a).1, s, w.setCom r ((w.com r).exec a).2) :=
  Interleaving.Code.eval_perform ..

/-- The communication thread reads a byte of its bus. -/
theorem readByte_eval :
    (readByte r).eval (LineWorld.exec (.communication r)) s w
      = (w.com r).buffers.readByte.toOption.map fun x =>
        (x.1, s, w.setCom r { w.com r with readOffset := x.2.readOffset }) := by
  have hoffset := onCom_eval r s w .loadReadOffset
  have hload := fun n => onCom_eval r s w (.loadIn n)
  have hstore := fun n => onCom_eval r s w (.storeReadOffset n)
  simp only [ComBus.exec, LineWorld.setCom_eq_self] at hoffset hload hstore
  unfold SOS.readByte ComBuffers.readByte ComBus.buffers distance
  by_cases h : 0 < (w.com r).readOffset
  · simp [hoffset, h, Except.toOption]
  · have hzero : (w.com r).readOffset = 0 := by omega
    simp [hoffset, hload, hstore, hzero, Except.toOption]

/-- The communication thread writes a byte to its bus. -/
theorem writeByte_eval (byte : Byte) :
    (writeByte r byte).eval (LineWorld.exec (.communication r)) s w
      = ((w.com r).buffers.writeByte byte).toOption.map fun bus =>
        ((), s, w.setCom r { w.com r with
          outBuffer := bus.outArray, writeOffset := bus.writeOffset }) := by
  have hoffset := fun w => onCom_eval r s w .loadWriteOffset
  have hstore := fun n w => onCom_eval r s w (.storeOut n byte)
  have hmove := fun n w => onCom_eval r s w (.storeWriteOffset n)
  simp only [ComBus.exec, LineWorld.setCom_eq_self] at hoffset hstore hmove
  unfold SOS.writeByte ComBuffers.writeByte ComBus.buffers distance
  by_cases h : 1 < (w.com r).writeOffset
  · simp [hoffset, h, Except.toOption]
  · simp [hoffset, hstore, hmove, h, Except.toOption]

end SOS
