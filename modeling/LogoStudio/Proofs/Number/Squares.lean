import LogoStudio.Proofs.Number.Counting

/-!
# Squares and bounds

A square is not below zero, although rounding may send it to zero or to infinity: the sign of
a product is the product of the signs, and packing keeps it. Moving a finite number between
finite bounds gives a finite number.
-/
namespace LogoStudio.Number

open Float.Model
open Float.Model.UnpackedFloat (Sign Accuracy packComponents unpackSign roundWithAccuracy)

/-- A word without a sign bit is not below zero. -/
lemma not_lt_of_unpackSign {b : BitVec Format.binary64.numBits}
    (h : Sign.ofBitVec (unpackSign b) = .positive) :
    (UnpackedFloat.unpack Format.binary64 b).compare (.zero .positive) ≠ some .lt := by
  unfold UnpackedFloat.unpack
  dsimp only
  rw [h]
  split
  · split <;> simp [UnpackedFloat.compare]
  · split
    · split <;> simp [UnpackedFloat.compare]
    · simp [UnpackedFloat.compare]

lemma unpackSign_pack_finite (s : Sign) (m : Nat) (e : Int) (hm : 0 < m) :
    unpackSign (UnpackedFloat.pack Format.binary64 (.finite s m e hm)) = s.toBitVec := by
  unfold UnpackedFloat.pack
  dsimp only
  split
  · exact UnpackedFloat.unpackSign_packComponents ..
  · split <;> exact UnpackedFloat.unpackSign_packComponents ..

/-- Rounding keeps the sign. -/
lemma unpackSign_pack_round (s : Sign) (m : Nat) (e : Int) (accuracy : Accuracy) :
    unpackSign (UnpackedFloat.pack Format.binary64
      (roundWithAccuracy Format.binary64 s m e accuracy)) = s.toBitVec := by
  unfold roundWithAccuracy
  dsimp only
  split
  · exact UnpackedFloat.unpackSign_packComponents ..
  · exact unpackSign_pack_finite ..

/-- A square is not negative. -/
lemma not_mul_self_lt_zero (x : Float) : ¬x * x < 0 := by
  have hsign (s : Sign) : Sign.ofBitVec (s * s).toBitVec = .positive := by cases s <;> rfl
  intro hlt
  change decide ((x * x).toModel < (0 : Float).toModel) = true at hlt
  rw [decide_eq_true_iff] at hlt
  change ((UnpackedFloat.unpack Format.binary64 (UnpackedFloat.pack Format.binary64
    (UnpackedFloat.mul Format.binary64 x.toModel.unpack x.toModel.unpack))).compare
      (.zero .positive) == some .lt) = true at hlt
  rw [beq_iff_eq] at hlt
  cases hx : x.toModel.unpack with
  | notANumber =>
      rw [hx] at hlt
      exact absurd hlt (by decide)
  | infinity s =>
      rw [hx] at hlt
      revert hlt
      cases s <;> decide
  | zero s =>
      rw [hx] at hlt
      revert hlt
      cases s <;> decide
  | finite s m e hm =>
      rw [hx] at hlt
      refine not_lt_of_unpackSign ?_ hlt
      exact (congrArg Sign.ofBitVec (unpackSign_pack_round (s * s) _ _ _)).trans (hsign s)

lemma isFinite_clamp {x lo hi : Float} (hx : x.isFinite = true) (hlo : lo.isFinite = true)
    (hhi : hi.isFinite = true) : (clamp x lo hi).isFinite = true := by
  unfold clamp
  split
  · exact hlo
  · split
    · exact hhi
    · exact hx

end LogoStudio.Number
