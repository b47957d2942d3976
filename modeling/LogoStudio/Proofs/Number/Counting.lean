import LogoStudio.Number.Rounding
import Mathlib

/-!
# Numbers that count

A sign does not make a number infinite, and a whole number above zero counts at least one.
Both facts are read off the bits: changing the sign of a finite number changes one bit.
-/
namespace LogoStudio.Number

open Float.Model
open Float.Model.UnpackedFloat (Sign packComponents unpackSign unpackExponent unpackMantissa)

lemma toBitVec_ofBitVec (b : BitVec 1) : (Sign.ofBitVec b).toBitVec = b := by
  revert b
  decide

/-- A word is put together again from its sign, its exponent and its mantissa. -/
lemma packComponents_unpack (b : BitVec Format.binary64.numBits) :
    packComponents Format.binary64 (Sign.ofBitVec (unpackSign b)) (unpackExponent b)
      (unpackMantissa b) = b := by
  rw [packComponents, toBitVec_ofBitVec]
  apply BitVec.eq_of_getLsbD_eq
  intro i hi
  have hi' : i < 64 := hi
  simp only [BitVec.getLsbD_append, unpackMantissa, unpackExponent, unpackSign,
    BitVec.getLsbD_cast, BitVec.getLsbD_extractLsb]
  by_cases hm : i < 52
  · simp [hm]
  · by_cases he : i - 52 < 11
    · have hplace : 52 + (i - 52) = i := by omega
      simp [hm, he, hplace]
    · have hlast : i = 63 := by omega
      subst hlast
      rw [BitVec.getLsbD_eq_getElem (by decide)]
      simp

lemma isFinite_unpack (b : BitVec Format.binary64.numBits) :
    (UnpackedFloat.unpack Format.binary64 b).isFinite = true ↔ unpackExponent b ≠ -1#_ := by
  unfold UnpackedFloat.unpack
  dsimp only
  split
  · next he =>
      constructor
      · intro h
        split at h <;> cases h
      · intro h
        exact absurd he h
  · next he =>
      refine ⟨fun _ => he, fun _ => ?_⟩
      split
      · split <;> rfl
      · rfl

lemma toNat_append_one (v : BitVec 52) : (1#1 ++ v).toNat = 2 ^ 52 + v.toNat := by
  rw [BitVec.toNat_append]
  change 2 ^ 52 ||| v.toNat = _
  rw [Nat.or_comm, Nat.or_two_pow_eq_add_of_lt v.isLt, Nat.add_comm]

lemma log2_two_pow_add {m : Nat} (h : m < 2 ^ 52) : (2 ^ 52 + m).log2 = 52 := by
  have hlow : 52 ≤ (2 ^ 52 + m).log2 := (Nat.le_log2 (by omega)).mpr (by omega)
  have hhigh : (2 ^ 52 + m).log2 < 53 := (Nat.log2_lt (by omega)).mpr (by omega)
  omega

/-- A finite number that is packed with some sign has its old exponent and mantissa. -/
lemma pack_finite {b : BitVec Format.binary64.numBits} {s : Sign} {m : Nat} {e : Int} {hm : 0 < m}
    (h : UnpackedFloat.unpack Format.binary64 b = .finite s m e hm) (s' : Sign) :
    UnpackedFloat.pack Format.binary64 (.finite s' m e hm) =
      packComponents Format.binary64 s' (unpackExponent b) (unpackMantissa b) := by
  have hbias : Format.binary64.exponentBias = 1023 := by decide
  have hbits : Format.binary64.mantissaBits = 53 := by decide
  have hwidth : Format.binary64.mantissaBitsWithoutImplicit = 52 := rfl
  have hmantissa : (unpackMantissa b).toNat < 2 ^ 52 := (unpackMantissa b).isLt
  have hfield : (unpackExponent b).toNat < 2 ^ 11 := (unpackExponent b).isLt
  unfold UnpackedFloat.unpack at h
  dsimp only at h
  split at h
  · split at h <;> cases h
  · next he =>
      have hexp : (unpackExponent b).toNat + 1 < 2 ^ 11 := by
        have hne : (unpackExponent b).toNat ≠ 2 ^ 11 - 1 := fun h => he (BitVec.eq_of_toNat_eq h)
        omega
      split at h
      · next hz =>
          split at h
          · cases h
          · next hm0 =>
              injection h with hs hm' he'
              subst hs hm' he'
              have hlog : (unpackMantissa b).toNat.log2 < 52 := by
                apply (Nat.log2_lt ?_).mpr hmantissa
                intro h0
                exact hm0 (BitVec.eq_of_toNat_eq (by simpa using h0))
              simp only [UnpackedFloat.pack]
              rw [if_neg, if_neg]
              · rw [hz, BitVec.ofNat_toNat, BitVec.setWidth_eq]
              · omega
              · rw [hz, hbias]
                decide
      · next hz =>
          injection h with hs hm' he'
          subst hs hm' he'
          have hlog : (1#1 ++ unpackMantissa b).toNat.log2 + 1 = Format.binary64.mantissaBits := by
            rw [toNat_append_one, log2_two_pow_add hmantissa, hbits]
          have hbiased :
              ((unpackExponent b).toNat - ((Format.binary64.exponentBias : Int) +
                  (Format.binary64.mantissaBitsWithoutImplicit : Int)) +
                Format.binary64.exponentBias +
                Format.binary64.mantissaBitsWithoutImplicit).toNat =
              (unpackExponent b).toNat := by omega
          simp only [UnpackedFloat.pack, hbiased]
          rw [if_neg (by simp only [Format.binary64]; omega), if_pos hlog]
          congr 1
          · rw [BitVec.ofNat_toNat, BitVec.setWidth_eq]
          · apply BitVec.eq_of_toNat_eq
            rw [BitVec.toNat_ofNat, toNat_append_one]
            change (2 ^ 52 + (unpackMantissa b).toNat) % 2 ^ 52 = _
            omega

lemma isFinite_unpack_pack (sign : Sign) (b : BitVec Format.binary64.numBits)
    {s : Sign} {m : Nat} {e : Int} {hm : 0 < m}
    (h : UnpackedFloat.unpack Format.binary64 b = .finite s m e hm) :
    (UnpackedFloat.unpack Format.binary64
      (UnpackedFloat.pack Format.binary64 (.finite sign m e hm))).isFinite = true := by
  rw [pack_finite h, isFinite_unpack, UnpackedFloat.unpackExponent_packComponents]
  apply (isFinite_unpack b).mp
  rw [h]
  rfl

/-- A number and its negation are both finite or both not. -/
lemma isFinite_neg (x : Float) : (-x).isFinite = x.isFinite := by
  change (UnpackedFloat.unpack Format.binary64 (UnpackedFloat.pack Format.binary64
    x.toModel.unpack.neg)).isFinite = x.toModel.unpack.isFinite
  cases h : x.toModel.unpack with
  | notANumber => decide
  | infinity s => cases s <;> decide
  | zero s => cases s <;> decide
  | finite s m e hm => exact isFinite_unpack_pack (-s) x.toModel.toBits.toBitVec h

lemma sign_of_unpack {b : BitVec Format.binary64.numBits} {s : Sign} {m : Nat} {e : Int}
    {hm : 0 < m} (h : UnpackedFloat.unpack Format.binary64 b = .finite s m e hm) :
    Sign.ofBitVec (unpackSign b) = s := by
  unfold UnpackedFloat.unpack at h
  dsimp only at h
  split at h
  · split at h <;> cases h
  · split at h
    · split at h
      · cases h
      · injection h
    · injection h

/-- The magnitude of a positive number is the number. -/
lemma abs_of_positive {x : Float} {m : Nat} {e : Int} {hm : 0 < m}
    (h : x.toModel.unpack = .finite .positive m e hm) : x.abs = x := by
  obtain ⟨⟨bits, hvalid⟩⟩ := x
  have hpack : UnpackedFloat.pack Format.binary64 (.finite .positive m e hm) = bits.toBitVec := by
    rw [pack_finite h, ← sign_of_unpack h]
    exact packComponents_unpack bits.toBitVec
  change Float.ofModel (Float.Model.pack (UnpackedFloat.abs (Float.Model.unpack _))) = _
  rw [h]
  simp only [Float.Model.pack, UnpackedFloat.abs, hpack]

/-- Zero counts nothing, with either sign. -/
lemma toNat64_of_eq_zero {x : Float} (h : (x == 0) = true) : toNat64 x = 0 := by
  have hzero : (0 : Float).toModel.unpack = .zero .positive := rfl
  change (x.toModel.unpack.compare (0 : Float).toModel.unpack == some .eq) = true at h
  change x.toModel.unpack.toUInt64.toNat = 0
  rw [hzero] at h
  cases hx : x.toModel.unpack with
  | notANumber => rfl
  | infinity s => rw [hx] at h; cases s <;> cases h
  | zero s => rfl
  | finite s m e hm => rw [hx] at h; cases s <;> cases h

lemma toNat_ofNatClamp_pos {n : Nat} (h : 0 < n) : 0 < (UInt64.ofNatClamp n).toNat := by
  unfold UInt64.ofNatClamp
  split
  · exact h
  · decide

/-- A positive number whose last digit counts whole units is at least one. -/
lemma toUInt64_pos_of_exponent {x : Float} {m : Nat} {e : Int} {hm : 0 < m}
    (h : x.toModel.unpack = .finite .positive m e hm) (he : 0 ≤ e) : 0 < toNat64 x := by
  change 0 < x.toModel.unpack.toUInt64.toNat
  rw [h]
  apply toNat_ofNatClamp_pos
  have hshift : (0 - (e - (e - 0).toNat)).toNat = 0 := by omega
  have hround : UnpackedFloat.roundToInt .positive m e = ((m <<< (e - 0).toNat : Nat) : Int) := by
    simp only [UnpackedFloat.roundToInt, UnpackedFloat.decreaseExponent,
      UnpackedFloat.shiftToExponent, hshift]
    rfl
  change 0 < (UnpackedFloat.roundToInt .positive m e).toNat
  rw [hround, Int.toNat_natCast, Nat.shiftLeft_eq]
  exact Nat.mul_pos hm (Nat.two_pow_pos _)

/-- A number of units below one is below the limit from which all numbers are whole. -/
lemma lt_wholeLimit_of_exponent {x : Float} {m : Nat} {e : Int} {hm : 0 < m}
    (h : x.toModel.unpack = .finite .positive m e hm) (he : e < 0) : x < wholeLimit := by
  have hlimit : wholeLimit.toModel.unpack = .finite .positive (2 ^ 52) 0 (by decide) := rfl
  have hcompare : x.toModel.unpack.compare wholeLimit.toModel.unpack = some .lt := by
    rw [h, hlimit]
    change some ((compare e 0).then (compare m (2 ^ 52))) = _
    rw [Int.compare_eq_lt.mpr he]
    rfl
  change decide (x.toModel < wholeLimit.toModel) = true
  rw [decide_eq_true_iff]
  change (x.toModel.unpack.compare wholeLimit.toModel.unpack == some .lt) = true
  rw [hcompare]
  rfl

/-- A positive number without a fraction counts at least one. -/
lemma toNat64_pos {x : Float} (hneg : ¬x < 0) (hwhole : isWhole x = true)
    (hzero : (x == 0) = false) : 0 < toNat64 x := by
  have hz : (0 : Float).toModel.unpack = .zero .positive := rfl
  rw [isWhole, Bool.and_eq_true] at hwhole
  obtain ⟨hfinite, htruncate⟩ := hwhole
  change x.toModel.unpack.isFinite = true at hfinite
  change (x.toModel.unpack.compare (0 : Float).toModel.unpack == some .eq) = false at hzero
  cases hx : x.toModel.unpack with
  | notANumber => rw [hx] at hfinite; cases hfinite
  | infinity s => rw [hx] at hfinite; cases hfinite
  | zero s => rw [hx, hz] at hzero; cases hzero
  | finite s m e hm =>
      cases s with
      | negative =>
          exfalso
          apply hneg
          change decide (x.toModel < (0 : Float).toModel) = true
          rw [decide_eq_true_iff]
          change (x.toModel.unpack.compare (0 : Float).toModel.unpack == some .lt) = true
          rw [hx, hz]
          rfl
      | positive =>
          by_contra hnone
          have hcount : x.toUInt64.toNat = 0 := by
            change ¬0 < x.toUInt64.toNat at hnone
            omega
          have hunits : e < 0 := by
            by_contra he
            exact hnone (toUInt64_pos_of_exponent hx (by omega))
          have hnoWhole : x.toUInt64 = 0 := UInt64.toNat_inj.mp hcount
          rw [truncate, onMagnitude, abs_of_positive hx,
            if_pos (lt_wholeLimit_of_exponent hx hunits), hnoWhole] at htruncate
          have hsign : withSignOf (0 : UInt64).toFloat x = (0 : UInt64).toFloat.abs ∨
              withSignOf (0 : UInt64).toFloat x = -(0 : UInt64).toFloat.abs := by
            unfold withSignOf
            split
            · exact .inr rfl
            · exact .inl rfl
          change ((withSignOf (0 : UInt64).toFloat x).toModel.unpack.compare
            x.toModel.unpack == some .eq) = true at htruncate
          rw [hx] at htruncate
          obtain h | h := hsign
          · rw [h] at htruncate
            cases htruncate
          · rw [h] at htruncate
            cases htruncate

end LogoStudio.Number
