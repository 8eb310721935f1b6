import Mathlib.Data.BitVec
import Mathlib.Tactic.IntervalCases

/-!
# Symbols on the wire

The serial link carries one byte per cycle. Its two high bits are signals –
bit 7 says that the sender requests something, bit 6 acknowledges a request
of the receiver – and its six low bits are either a state code or payload.

Payload is sent in groups: three bytes of an object leave as four 6-bit
symbols. This module has the bit operations of both ends as the code
performs them, and what they amount to: `symbolOf` is what one symbol of a
group carries whatever the signal bits stamped on it (`stateCode_stamp`,
`stateCode_groupSymbol`), `overlay` is what the receiver has put together after
so many of them, and a complete overlay holds the three bytes again
(`bitsetToBytearray_overlay`).
-/

namespace SOS

/-- `unsigned char` and `std::bitset<8>`. -/
abbrev Byte : Type := BitVec 8

/-! ## Constants -/

/-- `LOWER_STATES`. -/
def lowerStates : ℕ := 1

/-- `UPPER_STATES`. -/
def upperStates : ℕ := 5

/-- `NUM_IDS`: how many object ids a symbol can name. -/
def numIds : ℕ := 64 - upperStates - lowerStates

/-- `NUM_SIGNALBITS`. -/
def numSignalbits : ℕ := 2

theorem numIds_eq : numIds = 58 := rfl

/-- The reserved state codes, `SOS::Protocol::state`. -/
inductive State where
  | reserved2
  | sighup
  | poweron
  | idle
  | shutdown
  | reserved
  deriving DecidableEq, Repr

/-- The code a state is sent as. -/
def State.code : State → Byte
  | reserved2 => 0x00
  | sighup => 0x3D
  | poweron => 0x3E
  | idle => 0x3B
  | shutdown => 0x3C
  | reserved => 0x3F

/-! ## Signal bits -/

/-- `std::bitset::set(pos, value)`. -/
def setBit (x : Byte) (pos : ℕ) (value : Bool) : Byte :=
  if value then x ||| (1#8 <<< pos) else x &&& ~~~(1#8 <<< pos)

/-- What `write_bits` does to a symbol, the two flags it reads given. -/
def stamp (updated acknowledge : Bool) (out : Byte) : Byte :=
  setBit (setBit out 7 updated) 6 acknowledge

/-- The six low bits of a symbol, as `read_hook` extracts them. -/
def stateCode (data : Byte) : Byte := (data <<< numSignalbits) >>> numSignalbits

theorem getLsbD_setBit (x : Byte) (i k : ℕ) (hi : i < 8) (v : Bool) :
    (setBit x i v).getLsbD k = if k = i then v else x.getLsbD k := by
  unfold setBit
  by_cases hk : k = i
  · subst hk
    cases v <;> simp [hi]
  · have hki : k < i ∨ i < k := by omega
    cases v
    · by_cases h8 : k < 8
      · rcases hki with h | h
        · simp [hk, h, h8]
        · have : ¬ (k - i = 0) := by omega
          simp [hk, h8, this]
      · simp [hk, h8, BitVec.getLsbD_of_ge x k (by omega)]
    · rcases hki with h | h
      · simp [hk, h]
      · have : ¬ (k - i = 0) := by omega
        simp [hk, this]

@[simp] theorem stamp_updated (u a : Bool) (x : Byte) :
    (stamp u a x).getLsbD 7 = u := by
  rw [stamp, getLsbD_setBit _ _ _ (by omega), getLsbD_setBit _ _ _ (by omega)]
  rfl

@[simp] theorem stamp_acknowledge (u a : Bool) (x : Byte) :
    (stamp u a x).getLsbD 6 = a := by
  rw [stamp, getLsbD_setBit _ _ _ (by omega), if_pos rfl]

theorem getLsbD_stateCode (x : Byte) (k : ℕ) :
    (stateCode x).getLsbD k = (decide (k < 6) && x.getLsbD k) := by
  unfold stateCode numSignalbits
  simp only [BitVec.getLsbD_ushiftRight, BitVec.getLsbD_shiftLeft,
    show 2 + k - 2 = k by omega, show ¬ 2 + k < 2 by omega, decide_false,
    Bool.not_false, Bool.and_true]
  congr 1
  exact decide_eq_decide.mpr (by omega)

/-- **The signal bits do not reach the state code.** -/
@[simp] theorem stateCode_stamp (u a : Bool) (x : Byte) :
    stateCode (stamp u a x) = stateCode x := by
  refine BitVec.eq_of_getLsbD_eq fun k _ => ?_
  rw [getLsbD_stateCode, getLsbD_stateCode]
  by_cases hk : k < 6
  · have h6 : k ≠ 6 := by omega
    have h7 : k ≠ 7 := by omega
    simp [stamp, getLsbD_setBit, h6, h7]
  · simp [hk]

theorem stateCode_xor (x y : Byte) :
    stateCode (x ^^^ y) = stateCode x ^^^ stateCode y := by
  refine BitVec.eq_of_getLsbD_eq fun k _ => ?_
  simp only [getLsbD_stateCode, BitVec.getLsbD_xor]
  cases decide (k < 6) <;> simp

@[simp] theorem stateCode_code (st : State) : stateCode st.code = st.code := by
  cases st <;> decide

/-- The reserved codes differ from one another. -/
theorem State.code_inj {st st' : State} (h : st.code = st'.code) : st = st' := by
  revert h
  cases st <;> cases st' <;> decide

/-! ## Object ids -/

/-- The six low bits `send_transferRequest` sends for an object. -/
def transferCode (item : ℕ) : Byte := BitVec.ofNat 8 (item + lowerStates)

/-- `receive_transferRequest`: the object id of a state code, as an
`unsigned char` – a reserved code below `LOWER_STATES` wraps around. -/
def receiveTransferRequest (mod : Byte) : ℕ := (mod - BitVec.ofNat 8 lowerStates).toNat

/-- **An object id survives the wire**, and its code is none of the reserved
ones. -/
theorem transferCode_spec {item : ℕ} (h : item < numIds) :
    stateCode (transferCode item) = transferCode item
      ∧ receiveTransferRequest (transferCode item) = item
      ∧ ∀ st : State, transferCode item ≠ st.code := by
  rw [numIds_eq] at h
  have key : ∀ i : Fin 58, stateCode (transferCode i) = transferCode i
      ∧ receiveTransferRequest (transferCode i) = i
      ∧ ∀ st : State, transferCode i ≠ st.code := by
    intro i
    refine ⟨by revert i; decide, by revert i; decide, fun st => ?_⟩
    cases st <;> revert i <;> decide
  exact key ⟨item, h⟩

/-- **The symbol of a transfer request**: its signals and its code. -/
theorem request_symbol {item : ℕ} (h : item < numIds) (u a : Bool) :
    (stamp u a 0 ^^^ transferCode item).getLsbD 7 = u
      ∧ (stamp u a 0 ^^^ transferCode item).getLsbD 6 = a
      ∧ stateCode (stamp u a 0 ^^^ transferCode item) = transferCode item := by
  obtain ⟨hcode, -, -⟩ := transferCode_spec h
  have hbit : ∀ k, ¬ k < 6 → (transferCode item).getLsbD k = false := by
    intro k hk
    rw [← hcode, getLsbD_stateCode]
    simp [hk]
  refine ⟨?_, ?_, ?_⟩
  · rw [BitVec.getLsbD_xor, stamp_updated, hbit 7 (by omega), Bool.xor_false]
  · rw [BitVec.getLsbD_xor, stamp_acknowledge, hbit 6 (by omega), Bool.xor_false]
  · have h0 : stateCode 0#8 = 0#8 := by decide
    rw [stateCode_xor, stateCode_stamp, hcode]
    simp [h0]

/-! ## Groups of a payload

A group is held in `writeAssembly` at the sender and in `readAssembly` at the
receiver. The sender's two operations and the receiver's two are those of
`BlockWiseTransfer`. -/

/-- `write_assemble`: store the byte and emit its leading bits. -/
def writeAssemble (writeAssembly : ℕ → Byte) (writeCount : ℕ) (w : Byte) :
    (ℕ → Byte) × Byte :=
  (Function.update writeAssembly writeCount w, w >>> ((writeCount + 1) * 2))

/-- `write_recover`: overlay the bits the previous byte still owes. -/
def writeRecover (writeAssembly : ℕ → Byte) (writeCount : ℕ) (out : Byte) :
    Byte :=
  out ^^^ ((writeAssembly (writeCount - 1) <<< ((4 - writeCount) * 2)) >>> (1 * 2))

/-- `read_shift`: overlay a symbol at its place in the group. -/
def readShift (readAssembly : BitVec 24) (readCount : ℕ) (temp : BitVec 24) :
    BitVec 24 :=
  readAssembly ^^^ ((temp <<< ((4 - 0) * 4 + 2)) >>> ((readCount * 3) * 2))

/-- `maxUnsignedInt`. -/
def maxUnsignedInt (bytes : ℕ) : ℕ :=
  ((List.range bytes).map fun i => 0xFF * 256 ^ i).sum

/-- `bitsetToBytearray`: the big-endian digits of a bitset, or `none` where
the source reports `BitsetDoesNotFitIntoChararray`. -/
def bitsetToBytearray (bytes : ℕ) {bits : ℕ} (source : BitVec bits) :
    Option (List Byte) :=
  if maxUnsignedInt bytes < source.toNat then none
  else some ((List.range bytes).map fun i =>
    ((source <<< ((bytes - (bytes - i)) * 8)) >>> ((bytes - 1) * 8)).setWidth 8)

/-- **What the symbol at a position of a group carries**, for the three bytes
of the group. -/
def symbolOf (w : ℕ → Byte) : ℕ → Byte
  | 0 => w 0 >>> 2
  | 1 => (w 1 >>> 4) ^^^ ((w 0 <<< 6) >>> 2)
  | 2 => (w 2 >>> 6) ^^^ ((w 1 <<< 4) >>> 2)
  | _ => (w 2 <<< 2) >>> 2

/-- The symbol the sender makes of a byte at a position of a group, the signal
bits stamped on it between the two operations. -/
def groupSymbol (updated acknowledge : Bool) (writeAssembly : ℕ → Byte) (w : Byte) :
    ℕ → Byte
  | 0 => stamp updated acknowledge (w >>> 2)
  | 1 => stamp updated acknowledge (w >>> 4) ^^^ ((writeAssembly 0 <<< 6) >>> 2)
  | 2 => stamp updated acknowledge (w >>> 6) ^^^ ((writeAssembly 1 <<< 4) >>> 2)
  | _ => stamp updated acknowledge 0 ^^^ ((writeAssembly 2 <<< 2) >>> 2)

/-- **What the receiver has put together** after so many symbols. -/
def overlay (q : ℕ → Byte) : ℕ → BitVec 24
  | 0 => 0
  | n + 1 => readShift (overlay q n) n ((q n).setWidth 24)

/-- The overlay depends only on the symbols received so far. -/
theorem overlay_congr {q q' : ℕ → Byte} {n : ℕ} (h : ∀ i < n, q i = q' i) :
    overlay q n = overlay q' n := by
  induction n with
  | zero => rfl
  | succ n ih =>
    rw [overlay, overlay, ih fun i hi => h i (by omega), h n (by omega)]

/-- The signal bits of a symbol are shifted out of the group. -/
theorem readShift_stateCode (x : BitVec 24) (n : ℕ) (data : Byte) :
    readShift x n ((stateCode data).setWidth 24) = readShift x n (data.setWidth 24) := by
  have hshift : (stateCode data).setWidth 24 <<< 18 = data.setWidth 24 <<< 18 := by
    refine BitVec.eq_of_getLsbD_eq fun k hk => ?_
    simp only [BitVec.getLsbD_shiftLeft, BitVec.getLsbD_setWidth, getLsbD_stateCode]
    by_cases h : k < 18
    · simp [h]
    · have h6 : k - 18 < 6 := by omega
      simp [h6]
  unfold readShift
  rw [hshift]

/-- Six bits survive the extraction of six bits. -/
theorem stateCode_symbolOf (w : ℕ → Byte) (n : ℕ) :
    stateCode (symbolOf w n) = symbolOf w n := by
  refine BitVec.eq_of_getLsbD_eq fun k hk => ?_
  rw [getLsbD_stateCode]
  by_cases h6 : k < 6
  · simp [h6]
  · have h67 : k = 6 ∨ k = 7 := by omega
    obtain _ | _ | _ | n := n <;> rcases h67 with rfl | rfl <;> simp [symbolOf]

/-- The high bits of what a symbol is overlaid with are empty. -/
theorem getLsbD_shifted (x : Byte) {k : ℕ} (hk : 6 ≤ k) : (x >>> 2).getLsbD k = false := by
  rw [BitVec.getLsbD_ushiftRight]
  exact BitVec.getLsbD_of_ge x _ (by omega)

/-- **The signal bits of a payload symbol** are the flags stamped on it. -/
theorem groupSymbol_signals (u a : Bool) (wa : ℕ → Byte) (w : Byte) (n : ℕ) :
    (groupSymbol u a wa w n).getLsbD 7 = u ∧ (groupSymbol u a wa w n).getLsbD 6 = a := by
  obtain _ | _ | _ | n := n <;>
    simp only [groupSymbol, BitVec.getLsbD_xor, stamp_updated, stamp_acknowledge,
      getLsbD_shifted _ (Nat.le_refl 6), getLsbD_shifted _ (Nat.le_succ 6), Bool.xor_false,
      and_self]

/-- **The payload of a symbol**: what it carries of the three bytes. -/
theorem stateCode_groupSymbol (u a : Bool) (wa : ℕ → Byte) (w : Byte) {n : ℕ} (hn : n < 3) :
    stateCode (groupSymbol u a wa w n) = symbolOf (Function.update wa n w) n := by
  rw [← stateCode_symbolOf]
  interval_cases n <;> simp [groupSymbol, symbolOf, stateCode_xor]

theorem stateCode_groupSymbol_three (u a : Bool) (wa : ℕ → Byte) (w : Byte) :
    stateCode (groupSymbol u a wa w 3) = symbolOf wa 3 := by
  rw [← stateCode_symbolOf]
  have h0 : stateCode 0#8 = 0#8 := by decide
  simp [groupSymbol, symbolOf, stateCode_xor, h0]

/-- A symbol depends on the bytes of the group up to its own. -/
theorem symbolOf_congr {w w' : ℕ → Byte} {n : ℕ} (h : ∀ i ≤ n, i < 3 → w i = w' i) :
    symbolOf w n = symbolOf w' n := by
  obtain _ | _ | _ | n := n
  · simp [symbolOf, h 0 (by omega) (by omega)]
  · simp [symbolOf, h 0 (by omega) (by omega), h 1 (by omega) (by omega)]
  · simp [symbolOf, h 1 (by omega) (by omega), h 2 (by omega) (by omega)]
  · simp [symbolOf, h 2 (by omega) (by omega)]

/-- A digit of a group, as `bitsetToBytearray` extracts it. -/
def digit (x : BitVec 24) (n : ℕ) : Byte :=
  ((x <<< ((3 - (3 - n)) * 8)) >>> ((3 - 1) * 8)).setWidth 8

/-- Every group fits into three bytes. -/
theorem bitsetToBytearray_three (x : BitVec 24) :
    bitsetToBytearray 3 x = some [digit x 0, digit x 1, digit x 2] := by
  have hmax : ¬ maxUnsignedInt 3 < x.toNat := by
    have h3 : maxUnsignedInt 3 = 2 ^ 24 - 1 := by rfl
    omega
  rw [bitsetToBytearray, if_neg hmax]
  rfl

/-- The digits of a complete group are its bytes. -/
theorem digit_overlay (w : ℕ → Byte) {n : ℕ} (hn : n < 3) :
    digit (overlay (symbolOf w) 4) n = w n := by
  refine BitVec.eq_of_getLsbD_eq fun i hi => ?_
  interval_cases n <;> interval_cases i <;> simp [digit, overlay, readShift, symbolOf]

/-- **A complete group decodes to its three bytes.** -/
theorem bitsetToBytearray_overlay (w : ℕ → Byte) :
    bitsetToBytearray 3 (overlay (symbolOf w) 4) = some [w 0, w 1, w 2] := by
  rw [bitsetToBytearray_three, digit_overlay w (by decide), digit_overlay w (by decide),
    digit_overlay w (by decide)]

/-- **Any four symbols are the encoding of what they decode to.** -/
theorem symbolOf_digit (q : ℕ → Byte) {n : ℕ} (hn : n < 4) :
    symbolOf (digit (overlay q 4)) n = stateCode (q n) := by
  refine BitVec.eq_of_getLsbD_eq fun i hi => ?_
  rw [getLsbD_stateCode]
  interval_cases n <;> interval_cases i <;> simp [digit, overlay, readShift, symbolOf]

/-! ### Streams of groups -/

/-- **What a stream of symbols carries**: three bytes for every four of them. -/
def decodeSymbols : List Byte → List Byte
  | a :: b :: c :: d :: rest =>
    let x := overlay (fun n => [a, b, c, d].getD n 0) 4
    digit x 0 :: digit x 1 :: digit x 2 :: decodeSymbols rest
  | _ => []

/-- What is left of a group that is not complete carries nothing yet. -/
theorem decodeSymbols_short {rest : List Byte} (h : rest.length < 4) :
    decodeSymbols rest = [] := by
  rcases rest with _ | ⟨a, _ | ⟨b, _ | ⟨c, _ | ⟨d, rest⟩⟩⟩⟩
  · rfl
  · rfl
  · rfl
  · rfl
  · exact absurd h (by simp)

/-- Complete groups decode on their own. -/
theorem decodeSymbols_append {groups rest : List Byte} (h : 4 ∣ groups.length) :
    decodeSymbols (groups ++ rest) = decodeSymbols groups ++ decodeSymbols rest := by
  induction groups using decodeSymbols.induct with
  | case1 a b c d groups ih =>
    have hdvd : 4 ∣ groups.length := by simpa using h
    show _ :: _ :: _ :: decodeSymbols (groups ++ rest) = _ :: _ :: _ :: (_ ++ _)
    rw [ih hdvd]
  | case2 groups hgroups =>
    rcases groups with _ | ⟨a, _ | ⟨b, _ | ⟨c, _ | ⟨d, groups⟩⟩⟩⟩
    · rfl
    · exact absurd h (by simp)
    · exact absurd h (by simp)
    · exact absurd h (by simp)
    · exact absurd rfl (hgroups a b c d groups)

/-- **A group of four decodes to three bytes.** -/
theorem decodeSymbols_group {rest : List Byte} {data : Byte} {bytes : List Byte}
    (h3 : rest.length = 3)
    (hflush : bitsetToBytearray 3
      (readShift (overlay (fun n => rest.getD n 0) 3) 3 (data.setWidth 24)) = some bytes) :
    decodeSymbols (rest ++ [data]) = bytes := by
  obtain ⟨a, b, c, rfl⟩ := List.length_eq_three.mp h3
  rw [bitsetToBytearray_three] at hflush
  exact Option.some.inj hflush

/-- **What the symbol at a position of an object carries**, for the bytes of the object:
four symbols for every three of them. -/
def symbolAt (f : ℕ → Byte) (n : ℕ) : Byte := symbolOf (fun i => f (3 * (n / 4) + i)) (n % 4)

/-- What the first symbols of an object carry. -/
def symbolsOf (f : ℕ → Byte) (n : ℕ) : List Byte := (List.range n).map (symbolAt f)

theorem symbolAt_group (f : ℕ → Byte) (g : ℕ) {n : ℕ} (hn : n < 4) :
    symbolAt f (4 * g + n) = symbolOf (fun i => f (3 * g + i)) n := by
  have hdiv : (4 * g + n) / 4 = g := by omega
  have hmod : (4 * g + n) % 4 = n := by omega
  rw [symbolAt, hdiv, hmod]

theorem symbolsOf_succ (f : ℕ → Byte) (n : ℕ) :
    symbolsOf f (n + 1) = symbolsOf f n ++ [symbolAt f n] := by
  rw [symbolsOf, List.range_succ, List.map_append]
  rfl

/-- The symbols of a part of an object depend on that part only. -/
theorem symbolsOf_congr {f f' : ℕ → Byte} {g n : ℕ} (hn : n ≤ 3)
    (h : ∀ i < 3 * g + n, f i = f' i) : symbolsOf f (4 * g + n) = symbolsOf f' (4 * g + n) := by
  refine List.map_congr_left fun k hk => ?_
  have hlt : k < 4 * g + n := List.mem_range.mp hk
  exact symbolOf_congr fun i hi h3 => h _ (by omega)

end SOS
