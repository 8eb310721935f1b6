import Mathlib.Data.List.GetD
import Mathlib.Data.Nat.Digits.Lemmas

/-!
# Numbers and their bytes

A number that fits into so many bytes is the list of its digits in base 256, the most significant
one first. This is how a bit vector is taken apart by shifts (`toNat_shifted`): within the
vector, so that a digit may lose its high bits. And it is how a bit vector is put together, by
overlays of shifted bytes (`overlay_eq`).
-/

namespace BigEndian

/-- The digits of a number in base 256, the most significant one first. -/
def digits (bytes n : ℕ) : List ℕ := (Nat.digitsAppend 256 bytes n).reverse

/-- The number that has these digits. -/
def value (l : List ℕ) : ℕ := Nat.ofDigits 256 l.reverse

/-- The number of a list of bytes. -/
def number (l : List (BitVec 8)) : ℕ := value (l.map BitVec.toNat)

variable {bytes n d : ℕ} {l : List (BitVec 8)}

/-- A byte has eight bits. -/
theorem pow_eq (bytes : ℕ) : 256 ^ bytes = 2 ^ (8 * bytes) := (pow_mul 2 8 bytes).symm

/-- One more digit. -/
theorem value_concat (l : List ℕ) (d : ℕ) : value (l ++ [d]) = value l * 256 + d := by
  unfold value
  rw [List.reverse_append, List.reverse_singleton, List.singleton_append, Nat.ofDigits_cons,
    Nat.add_comm, Nat.mul_comm]

/-- One more byte. -/
theorem number_concat (l : List (BitVec 8)) (b : BitVec 8) :
    number (l ++ [b]) = number l * 256 + b.toNat := by
  unfold number
  rw [List.map_append, List.map_singleton, value_concat]

/-! ## Round trips -/

/-- A number that fits is the one its digits are of. -/
theorem value_digits (hn : n < 256 ^ bytes) : value (digits bytes n) = n := by
  unfold value digits
  rw [List.reverse_reverse]
  exact (Nat.setInvOn_digitsAppend_ofDigits (by decide) bytes).2 hn

/-- Bytes are digits. -/
theorem lt_of_mem_bytes (hd : d ∈ (l.map BitVec.toNat).reverse) : d < 256 := by
  obtain ⟨b, -, rfl⟩ := List.mem_map.mp (List.mem_reverse.mp hd)
  exact b.isLt

/-- Bytes are the digits of their number. -/
theorem digits_number (l : List (BitVec 8)) : digits l.length (number l) = l.map BitVec.toNat := by
  have hinv := (Nat.setInvOn_digitsAppend_ofDigits (b := 256) (by decide) l.length).1
  unfold number value digits
  rw [List.reverse_eq_iff]
  exact hinv ⟨by simp, fun d hd => lt_of_mem_bytes hd⟩

/-- The number of bytes fits into them. -/
theorem number_lt (l : List (BitVec 8)) : number l < 256 ^ l.length := by
  have hlt := Nat.ofDigits_lt_base_pow_length (b := 256) (by decide)
    fun d (hd : d ∈ (l.map BitVec.toNat).reverse) => lt_of_mem_bytes hd
  rwa [List.length_reverse, List.length_map] at hlt

/-! ## The single digits -/

/-- A digit is the same with or without the zeros in front of it. -/
theorem getD_digitsAppend (bytes n i : ℕ) :
    (Nat.digitsAppend 256 bytes n).getD i 0 = n / 256 ^ i % 256 := by
  rw [← Nat.getD_digits n i (by decide)]
  unfold Nat.digitsAppend
  obtain hi | hi := lt_or_ge i (Nat.digits 256 n).length
  · exact List.getD_append _ _ _ _ hi
  · rw [List.getD_append_right _ _ _ _ hi, List.getD_eq_default _ _ hi]
    exact List.getElem?_getD_replicate_default_eq ..

/-- **Each digit** of a number that fits. -/
theorem digits_eq (hn : n < 256 ^ bytes) :
    digits bytes n = (List.range bytes).map fun i => n / 256 ^ (bytes - 1 - i) % 256 := by
  have hlen : (Nat.digitsAppend 256 bytes n).length = bytes :=
    Nat.length_digitsAppend (by decide) bytes hn
  refine List.ext_getElem (by simp [digits, hlen]) fun i hi hi' => ?_
  rw [List.getElem_map, List.getElem_range, ← getD_digitsAppend bytes]
  simp only [digits, List.getElem_reverse, hlen]
  exact (List.getD_eq_getElem _ _ _).symm

/-- The zeros in front of a number are short. -/
theorem forall_digits_lt {m : ℕ} (hm : 0 < m) :
    (∀ d ∈ digits bytes n, d < m) ↔ ∀ d ∈ Nat.digits 256 n, d < m := by
  unfold digits Nat.digitsAppend
  constructor
  · intro h d hd
    exact h d (by simp [hd])
  · intro h d hd
    obtain hd | hd := List.mem_append.mp (List.mem_reverse.mp hd)
    · exact h d hd
    · exact (List.eq_of_mem_replicate hd).trans_lt hm

/-- Digits are left alone if they are short. -/
theorem map_mod_eq_iff {l : List ℕ} {m : ℕ} (hm : 0 < m) :
    l.map (· % m) = l ↔ ∀ d ∈ l, d < m := by
  constructor
  · intro h d hd
    rw [← h] at hd
    obtain ⟨e, -, rfl⟩ := List.mem_map.mp hd
    exact Nat.mod_lt e hm
  · intro h
    exact (List.map_congr_left fun d hd => Nat.mod_eq_of_lt (h d hd)).trans (List.map_id l)

/-! ## Shifts -/

/-- What is shifted beyond the last bit is lost. -/
theorem mod_two_pow_div (n b k : ℕ) : n % 2 ^ b / 2 ^ k = n / 2 ^ k % 2 ^ (b - k) := by
  obtain hk | hk := le_total k b
  · obtain ⟨c, rfl⟩ := Nat.exists_eq_add_of_le hk
    rw [pow_add, Nat.mod_mul_right_div_self, Nat.add_sub_cancel_left]
  · have hlt : n % 2 ^ b < 2 ^ k :=
      (Nat.mod_lt _ (Nat.two_pow_pos b)).trans_le (Nat.pow_le_pow_right (by decide) hk)
    rw [Nat.div_eq_of_lt hlt, Nat.sub_eq_zero_of_le hk, pow_zero, Nat.mod_one]

/-- A number that has been cut is not cut where it is longer. -/
theorem mod_two_pow_mod {a b : ℕ} (n : ℕ) (h : a ≤ b) : n % 2 ^ a % 2 ^ b = n % 2 ^ a :=
  Nat.mod_eq_of_lt ((Nat.mod_lt n (Nat.two_pow_pos a)).trans_le
    (Nat.pow_le_pow_right (by decide) h))

/-- It may be cut in either order. -/
theorem mod_two_pow_comm (n a b : ℕ) : n % 2 ^ a % 2 ^ b = n % 2 ^ b % 2 ^ a := by
  obtain h | h := le_total a b
  · rw [mod_two_pow_mod n h, Nat.mod_mod_of_dvd _ (Nat.pow_dvd_pow 2 h)]
  · rw [mod_two_pow_mod n h, Nat.mod_mod_of_dvd _ (Nat.pow_dvd_pow 2 h)]

/-- **What two shifts take out of a bit vector**: a digit, cut to the bits that the vector has of
the first one. -/
theorem toNat_shifted {bits : ℕ} (source : BitVec bits) {i : ℕ} (hi : i < bytes) :
    (((source <<< (8 * i)) >>> (8 * (bytes - 1))).setWidth 8).toNat
      = source.toNat / 256 ^ (bytes - 1 - i) % 256 % 2 ^ (bits - 8 * (bytes - 1)) := by
  have hplace : 8 * (bytes - 1) = 8 * (bytes - 1 - i) + 8 * i := by omega
  have hdiv : source.toNat * 2 ^ (8 * i) / 2 ^ (8 * (bytes - 1))
      = source.toNat / 256 ^ (bytes - 1 - i) := by
    rw [hplace, pow_add, Nat.mul_div_mul_right _ _ (Nat.two_pow_pos _), pow_eq]
  simp only [BitVec.toNat_setWidth, BitVec.toNat_ushiftRight, BitVec.toNat_shiftLeft,
    Nat.shiftLeft_eq, Nat.shiftRight_eq_div_pow]
  rw [mod_two_pow_div, hdiv, mod_two_pow_comm]
  rfl

/-! ## Overlays -/

/-- A byte below the others is overlaid and not added, which is the same. -/
theorem xor_byte (high : ℕ) (b : BitVec 8) :
    (high * 256) ^^^ b.toNat = high * 256 + b.toNat := by
  refine Nat.eq_of_testBit_eq fun j => ?_
  have hadd := Nat.testBit_two_pow_mul_add high b.isLt j
  have hmul : (2 ^ 8 * high).testBit j = (decide (8 ≤ j) && high.testBit (j - 8)) :=
    Nat.testBit_two_pow_mul
  rw [Nat.mul_comm high]
  show (2 ^ 8 * high ^^^ b.toNat).testBit j = (2 ^ 8 * high + b.toNat).testBit j
  rw [Nat.testBit_xor, hmul, hadd]
  split
  case isTrue hj =>
    have hlow : ¬ 8 ≤ j := by omega
    simp [hlow]
  case isFalse hj =>
    have hhigh : b.toNat.testBit j = false :=
      Nat.testBit_lt_two_pow (b.isLt.trans_le (Nat.pow_le_pow_right (by decide) (by omega)))
    simp [hhigh, Nat.le_of_not_lt hj]

/-- The same at any place. -/
theorem xor_place (high k : ℕ) (b : BitVec 8) :
    (high * 256 ^ (k + 1)) ^^^ (b.toNat * 256 ^ k) = (high * 256 + b.toNat) * 256 ^ k := by
  have hshift : ∀ n : ℕ, n * 256 ^ k = n <<< (8 * k) := fun n => by
    rw [Nat.shiftLeft_eq, pow_eq]
  rw [pow_succ', ← mul_assoc, hshift, hshift, hshift, ← Nat.shiftLeft_xor_distrib, xor_byte]

/-- The overlay of the first bytes is their number, at its place. -/
theorem overlay_take (bits : ℕ) (l : List (BitVec 8)) (hn : n ≤ l.length) :
    (List.range n).foldl (fun dest i =>
        dest ^^^ BitVec.ofNat bits ((l.getD i 0).toNat * 256 ^ (l.length - 1 - i))) 0
      = BitVec.ofNat bits (number (l.take n) * 256 ^ (l.length - n)) := by
  induction n with
  | zero =>
    have hnil : number [] = 0 := rfl
    rw [List.take_zero, hnil, Nat.zero_mul]
    rfl
  | succ n ih =>
    have hplace : l.length - n = l.length - 1 - n + 1 := by omega
    have hnext : l.length - (n + 1) = l.length - 1 - n := by omega
    have hbyte : l.getD n 0 = l[n] := List.getD_eq_getElem _ _ _
    rw [List.range_succ, List.foldl_append, ih (by omega), List.foldl_cons, List.foldl_nil,
      ← BitVec.ofNat_xor, hplace, xor_place, hnext, List.take_succ_eq_append_getElem hn,
      number_concat, hbyte]

/-- **The overlay of all bytes** is their number. -/
theorem overlay_eq (bits : ℕ) (l : List (BitVec 8)) :
    (List.range l.length).foldl (fun dest i =>
        dest ^^^ BitVec.ofNat bits ((l.getD i 0).toNat * 256 ^ (l.length - 1 - i))) 0
      = BitVec.ofNat bits (number l) := by
  rw [overlay_take bits l le_rfl, List.take_length, Nat.sub_self, pow_zero, Nat.mul_one]

end BigEndian
