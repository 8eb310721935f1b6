import SoftwareOnSilicon.BigEndian
import SoftwareOnSilicon.Symbol

/-!
# Bitsets and byte arrays

`bitsetToBytearray` takes the digits of a bitset out by shifting it, and `bytearrayToBitset`
overlays shifted digits. Each has its own test that the other side is large enough.

The first one compares numbers, so it accepts every bitset that is shorter than the array. It
then shifts within the bitset, and what is shifted beyond its last bit is lost: of each digit
there remain as many bits as the bitset has of the first one (`bitsetToBytearray_digits`). The
second one does not accept such an array. So the two are inverse wherever neither reports an
error, but what the first one writes are the digits of the bitset only if they are that short
(`conversions_inverse`).
-/

namespace SOS

open BigEndian

/-! ## The tests -/

/-- `bytearrayToBitset`: a bitset of so many bits that has the digits, or `none` where the
source reports `NumericValueOfBitsetDoesNotFitIntoChararray`. -/
def bytearrayToBitset (bits : ℕ) (source : List Byte) : Option (BitVec bits) :=
  let bytes := source.length
  let allSet := BitVec.allOnes bits
  if allSet.toNat < maxUnsignedInt bytes then none
  else some ((List.range bytes).foldl (fun dest i =>
    let digit := BitVec.ofNat bits ((source.getD i 0).toNat * 256 ^ ((bytes - 1) - i))
    dest ^^^ digit) 0)

variable {bits bytes : ℕ} {source back : BitVec bits} {dest array : List Byte}

/-- The largest number of so many bytes. -/
theorem maxUnsignedInt_add_one (bytes : ℕ) : maxUnsignedInt bytes + 1 = 256 ^ bytes := by
  induction bytes with
  | zero => rfl
  | succ bytes ih =>
    have hsucc : maxUnsignedInt (bytes + 1) = maxUnsignedInt bytes + 255 * 256 ^ bytes := by
      unfold maxUnsignedInt
      rw [List.range_succ, List.map_append, List.sum_append]
      rfl
    rw [hsucc, pow_succ, ← ih]
    omega

/-- A bitset that fits is written. -/
theorem exists_bitsetToBytearray (h : source.toNat < 256 ^ bytes) :
    ∃ dest, bitsetToBytearray bytes source = some dest := by
  have hmax := maxUnsignedInt_add_one bytes
  unfold bitsetToBytearray
  rw [if_neg (by omega)]
  exact ⟨_, rfl⟩

/-- An array is read if it is not longer than the bitset. -/
theorem fits_iff (bits bytes : ℕ) :
    ¬ (BitVec.allOnes bits).toNat < maxUnsignedInt bytes ↔ 8 * bytes ≤ bits := by
  have hmax := maxUnsignedInt_add_one bytes
  have hpos : 0 < 2 ^ bits := Nat.two_pow_pos bits
  rw [BitVec.toNat_allOnes, ← Nat.pow_le_pow_iff_right (a := 2) (by decide), ← pow_eq]
  omega

/-! ## What the two write -/

/-- **What `bitsetToBytearray` writes**: the digits, each cut to the bits that the bitset has of
the first one. -/
theorem bitsetToBytearray_digits (h : bitsetToBytearray bytes source = some dest) :
    source.toNat < 256 ^ bytes
      ∧ dest.map BitVec.toNat
        = (digits bytes source.toNat).map (· % 2 ^ (bits - 8 * (bytes - 1))) := by
  unfold bitsetToBytearray at h
  split at h
  case isTrue => cases h
  case isFalse hle =>
    have hmax := maxUnsignedInt_add_one bytes
    have hlt : source.toNat < 256 ^ bytes := by omega
    obtain rfl := Option.some.inj h
    refine ⟨hlt, ?_⟩
    rw [digits_eq hlt, List.map_map, List.map_map]
    refine List.map_congr_left fun i hi => ?_
    have hi' := List.mem_range.mp hi
    have hshift : (bytes - (bytes - i)) * 8 = 8 * i := by omega
    have hplace : (bytes - 1) * 8 = 8 * (bytes - 1) := Nat.mul_comm ..
    rw [Function.comp_apply, hshift, hplace, toNat_shifted source hi']
    rfl

/-- **The digits are written** if each of them is as short as the first one may be. -/
theorem bitsetToBytearray_eq_iff (h : bitsetToBytearray bytes source = some dest) :
    dest.map BitVec.toNat = digits bytes source.toNat
      ↔ ∀ d ∈ Nat.digits 256 source.toNat, d < 2 ^ (bits - 8 * (bytes - 1)) := by
  have hpos := Nat.two_pow_pos (bits - 8 * (bytes - 1))
  rw [(bitsetToBytearray_digits h).2, map_mod_eq_iff hpos, forall_digits_lt hpos]

/-- No digit is cut if the bitset is as long as the array. -/
theorem digit_lt_of_le {d n : ℕ} (h : 8 * bytes ≤ bits) (hbytes : 0 < bytes)
    (hd : d ∈ Nat.digits 256 n) : d < 2 ^ (bits - 8 * (bytes - 1)) := by
  have hbase : d < 2 ^ 8 := Nat.digits_lt_base (b := 256) (by decide) hd
  exact hbase.trans_le (Nat.pow_le_pow_right (by decide) (by omega))

/-- **What `bytearrayToBitset` makes of an array**: the number of its bytes. -/
theorem bytearrayToBitset_toNat (h : bytearrayToBitset bits array = some back) :
    8 * array.length ≤ bits ∧ back.toNat = number array := by
  dsimp only [bytearrayToBitset] at h
  split at h
  case isTrue => cases h
  case isFalse hfits =>
    have hle := (fits_iff bits array.length).mp hfits
    have hlt : number array < 2 ^ bits := by
      refine (number_lt array).trans_le ?_
      rw [pow_eq]
      exact Nat.pow_le_pow_right (by decide) hle
    refine ⟨hle, ?_⟩
    rw [← Option.some.inj h, overlay_eq, BitVec.toNat_ofNat, Nat.mod_eq_of_lt hlt]

/-! ## The round trips -/

/-- A bitset that has been written and read back is the same. -/
theorem bitset_round_trip (hbytes : 0 < bytes) (h : bitsetToBytearray bytes source = some dest)
    (hback : bytearrayToBitset bits dest = some back) : back = source := by
  obtain ⟨hlt, hcut⟩ := bitsetToBytearray_digits h
  obtain ⟨hle, hnum⟩ := bytearrayToBitset_toNat hback
  have hlen : dest.length = bytes := by
    rw [← List.length_map (f := BitVec.toNat), hcut, digits_eq hlt, List.length_map,
      List.length_map, List.length_range]
  -- the array has been accepted, so that no digit has been cut
  have hdigits : dest.map BitVec.toNat = digits bytes source.toNat :=
    (bitsetToBytearray_eq_iff h).mpr fun d hd => digit_lt_of_le (hlen ▸ hle) hbytes hd
  refine BitVec.eq_of_toNat_eq ?_
  rw [hnum, number, hdigits, value_digits hlt]

/-- An array that has been read and written back is the same. -/
theorem bytearray_round_trip (h : bytearrayToBitset bits array = some back) :
    bitsetToBytearray array.length back = some array := by
  obtain ⟨hle, hnum⟩ := bytearrayToBitset_toNat h
  have hlt : back.toNat < 256 ^ array.length := hnum ▸ number_lt array
  obtain ⟨dest, hdest⟩ := exists_bitsetToBytearray hlt
  have hdigits : dest.map BitVec.toNat = digits array.length back.toNat := by
    refine (bitsetToBytearray_eq_iff hdest).mpr fun d hd => ?_
    obtain hempty | hbytes := Nat.eq_zero_or_pos array.length
    · rw [hempty, pow_zero, Nat.lt_one_iff] at hlt
      simp [hlt] at hd
    · exact digit_lt_of_le hle hbytes hd
  rw [hnum, digits_number] at hdigits
  rw [hdest, List.map_injective_iff.mpr (fun _ _ => BitVec.eq_of_toNat_eq) hdigits]

/-- **The two conversions are inverse** wherever neither reports an error, and what is written
are the digits of the bitset exactly if each of them is as short as the first one may be in a
bitset of this length. -/
theorem conversions_inverse (hbytes : 0 < bytes) (source : BitVec bits) (array : List Byte) :
    ((∀ dest, bitsetToBytearray bytes source = some dest →
        dest.map BitVec.toNat = digits bytes source.toNat
          ∧ ∀ back, bytearrayToBitset bits dest = some back → back = source)
      ∧ ∀ back, bytearrayToBitset bits array = some back →
        bitsetToBytearray array.length back = some array)
    ↔ ∀ d ∈ Nat.digits 256 source.toNat, d < 2 ^ (bits - 8 * (bytes - 1)) := by
  constructor
  · rintro ⟨hsource, -⟩
    by_cases hlt : source.toNat < 256 ^ bytes
    · obtain ⟨dest, hdest⟩ := exists_bitsetToBytearray hlt
      exact (bitsetToBytearray_eq_iff hdest).mp (hsource dest hdest).1
    · -- a bitset that does not fit is longer than the array
      have hlong : 2 ^ (8 * bytes) < 2 ^ bits := by
        rw [← pow_eq]
        exact (not_lt.mp hlt).trans_lt source.isLt
      have hle : 8 * bytes ≤ bits := ((Nat.pow_lt_pow_iff_right (by decide)).mp hlong).le
      exact fun d hd => digit_lt_of_le hle hbytes hd
  · intro hshort
    refine ⟨fun dest hdest => ⟨(bitsetToBytearray_eq_iff hdest).mpr hshort, ?_⟩, ?_⟩
    · exact fun back hback => bitset_round_trip hbytes hdest hback
    · exact fun back hback => bytearray_round_trip hback

/-- A number of eleven bits, in an array of two bytes and in a bitset of sixteen bits. -/
theorem conversions_inverse_eleven :
    bitsetToBytearray 2 (0x0507#11) = some [5, 7]
      ∧ ([5, 7] : List Byte).map BitVec.toNat = digits 2 0x0507
      ∧ bytearrayToBitset 11 [5, 7] = none
      ∧ bytearrayToBitset 16 [5, 7] = some 0x0507
      ∧ bitsetToBytearray 2 (0x0507#16) = some [5, 7] := by
  have htwo : 0 < 2 := by decide
  have h11 := ((conversions_inverse htwo (0x0507#11) [5, 7]).mpr (by norm_num)).1
  have h16 := ((conversions_inverse htwo (0x0507#16) [5, 7]).mpr (by norm_num)).2
  exact ⟨by decide, (h11 [5, 7] (by decide)).1, by decide, by decide, h16 _ (by decide)⟩

/-- **Digits are lost** in a bitset that is shorter than the array, though it is accepted. -/
theorem digits_cut :
    bitsetToBytearray 2 (0xFFF#12) = some [0x0F, 0x0F] ∧ digits 2 0xFFF = [0x0F, 0xFF]
      ∧ ¬ ∀ dest, bitsetToBytearray 2 (0xFFF#12) = some dest →
        dest.map BitVec.toNat = digits 2 (0xFFF#12).toNat := by
  have hcut : bitsetToBytearray 2 (0xFFF#12) = some [0x0F, 0x0F] := by decide
  have hdigits : digits 2 0xFFF = [0x0F, 0xFF] := by norm_num [digits, Nat.digitsAppend]
  refine ⟨hcut, hdigits, fun h => ?_⟩
  have heq : [0x0F, 0x0F] = digits 2 0xFFF := h _ hcut
  rw [hdigits] at heq
  exact absurd heq (by decide)

end SOS
