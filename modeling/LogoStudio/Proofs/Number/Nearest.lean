import LogoStudio.Number.Shortest
import LogoStudio.Proofs.Number.Counting

/-!
# The nearest number

The ratios that round to one number are those of the interval around it. A ratio is
first measured in the unit of its own size, which is the unit of the number, except just
below a power of two, where the unit is half as large. There the rounded significand
reaches the power of two and carries into the exponent, so that the bits are the same.
-/
namespace LogoStudio.Number

open Float.Model (Format)
open Float.Model.UnpackedFloat (unpackExponent)

/-- An integer power as the quotient of two natural ones, one of which is one. -/
lemma zpow_eq_toNat_div {b : Rat} (hb : b ≠ 0) (k : Int) :
    b ^ k = b ^ k.toNat / b ^ (-k).toNat := by
  have hk : k = (k.toNat : Int) - ((-k).toNat : Int) := by omega
  conv_lhs => rw [hk, zpow_sub₀ hb, zpow_natCast, zpow_natCast]

/-- Two naturals are compared after a move by a power of `b` as their ratio is with it. -/
lemma mul_pow_le_iff (num : Nat) {den b : Nat} (hden : 0 < den) (hb : 0 < b) (k : Int) :
    den * b ^ k.toNat ≤ num * b ^ (-k).toNat ↔ (b : Rat) ^ k ≤ num / den := by
  have hd : (0 : Rat) < den := by exact_mod_cast hden
  have hpow : (0 : Rat) < (b : Rat) ^ (-k).toNat := by positivity
  rw [zpow_eq_toNat_div (by positivity), div_le_div_iff₀ hpow hd, mul_comm ((b : Rat) ^ _)]
  exact_mod_cast Iff.rfl

/-- The ratio of two naturals that were moved by a power of `b`. -/
lemma ratio_mul_pow {b : Nat} (hb : 0 < b) (num den : Nat) (k : Int) :
    ((num * b ^ (-k).toNat : Nat) : Rat) / ((den * b ^ k.toNat : Nat) : Rat) =
      num / den / (b : Rat) ^ k := by
  have hb' : (b : Rat) ≠ 0 := by positivity
  rw [zpow_eq_toNat_div hb']
  push_cast
  field_simp

/-- A natural times an integer power of `b`, as the ratio of two naturals. -/
lemma ratio_pow {b : Nat} (hb : 0 < b) (n : Nat) (k : Int) :
    ((n * b ^ k.toNat : Nat) : Rat) / ((b ^ (-k).toNat : Nat) : Rat) = n * (b : Rat) ^ k := by
  rw [zpow_eq_toNat_div (by positivity)]
  push_cast
  ring

lemma floorLog2_spec {num den : Nat} (hnum : 0 < num) (hden : 0 < den) :
    (2 : Rat) ^ floorLog2 num den ≤ num / den ∧
      (num / den : Rat) < 2 ^ (floorLog2 num den + 1) := by
  have hd : (0 : Rat) < den := by exact_mod_cast hden
  have hn₁ : (2 : Rat) ^ (num.log2 : Int) ≤ num := by
    rw [zpow_natCast]
    exact_mod_cast Nat.log2_self_le hnum.ne'
  have hn₂ : (num : Rat) < 2 ^ ((num.log2 : Int) + 1) := by
    rw [← Nat.cast_succ, zpow_natCast]
    exact_mod_cast Nat.lt_log2_self
  have hd₁ : (2 : Rat) ^ (den.log2 : Int) ≤ den := by
    rw [zpow_natCast]
    exact_mod_cast Nat.log2_self_le hden.ne'
  have hd₂ : (den : Rat) < 2 ^ ((den.log2 : Int) + 1) := by
    rw [← Nat.cast_succ, zpow_natCast]
    exact_mod_cast Nat.lt_log2_self
  have hlow : (2 : Rat) ^ ((num.log2 : Int) - den.log2 - 1) ≤ num / den := by
    rw [le_div_iff₀ hd]
    calc (2 : Rat) ^ ((num.log2 : Int) - den.log2 - 1) * den
        ≤ 2 ^ ((num.log2 : Int) - den.log2 - 1) * 2 ^ ((den.log2 : Int) + 1) := by gcongr
      _ = 2 ^ (num.log2 : Int) := by rw [← zpow_add₀ two_ne_zero]; congr 1; ring
      _ ≤ num := hn₁
  have hhigh : (num / den : Rat) < 2 ^ ((num.log2 : Int) - den.log2 + 1) := by
    rw [div_lt_iff₀ hd]
    calc (num : Rat) < 2 ^ ((num.log2 : Int) + 1) := hn₂
      _ = 2 ^ ((num.log2 : Int) - den.log2 + 1) * 2 ^ (den.log2 : Int) := by
        rw [← zpow_add₀ two_ne_zero]; congr 1; ring
      _ ≤ 2 ^ ((num.log2 : Int) - den.log2 + 1) * den := by gcongr
  have hguess := mul_pow_le_iff num hden two_pos ((num.log2 : Int) - den.log2)
  unfold floorLog2
  dsimp only
  split
  · next h => exact ⟨by exact_mod_cast hguess.mp h, hhigh⟩
  · next h =>
      refine ⟨hlow, ?_⟩
      rw [sub_add_cancel]
      exact not_le.mp fun hle => h (hguess.mpr (by exact_mod_cast hle))

/-- The logarithm is fixed by the two powers around the ratio. -/
lemma floorLog2_eq {num den : Nat} (hnum : 0 < num) (hden : 0 < den) {k : Int}
    (hlow : (2 : Rat) ^ k ≤ num / den) (hhigh : (num / den : Rat) < 2 ^ (k + 1)) :
    floorLog2 num den = k := by
  obtain ⟨h₁, h₂⟩ := floorLog2_spec hnum hden
  have hle := (zpow_lt_zpow_iff_right₀ one_lt_two).mp (hlow.trans_lt h₂)
  have hge := (zpow_lt_zpow_iff_right₀ one_lt_two).mp (h₁.trans_lt hhigh)
  omega

lemma floorLog2_lt {num den : Nat} (hnum : 0 < num) (hden : 0 < den) {k : Int}
    (h : (num / den : Rat) < 2 ^ k) : floorLog2 num den < k :=
  (zpow_lt_zpow_iff_right₀ one_lt_two).mp ((floorLog2_spec hnum hden).1.trans_lt h)

/-- Whether `t` rounds to the natural `m`: it lies within one half of it, and at an exact
half `m` is even. -/
def RoundsTo (t : Rat) (m : Nat) : Prop :=
  (m : Rat) - 1 / 2 ≤ t ∧ t ≤ m + 1 / 2 ∧ (m % 2 = 1 → (m : Rat) - 1 / 2 < t ∧ t < m + 1 / 2)

lemma roundHalfEven_eq {num den m : Nat} (hden : 0 < den) (h : RoundsTo (num / den) m) :
    roundHalfEven num den = m := by
  obtain ⟨hlow, hhigh, hodd⟩ := h
  have hd : (0 : Rat) < den := by exact_mod_cast hden
  rw [le_div_iff₀ hd] at hlow
  rw [div_le_iff₀ hd] at hhigh
  rw [lt_div_iff₀ hd, div_lt_iff₀ hd] at hodd
  have hlow' : 2 * m * den ≤ 2 * num + den := by
    have : (2 * m * den : Rat) ≤ 2 * num + den := by linarith
    exact_mod_cast this
  have hhigh' : 2 * num ≤ 2 * m * den + den := by
    have : (2 * num : Rat) ≤ 2 * m * den + den := by linarith
    exact_mod_cast this
  have hodd' (hm : m % 2 = 1) : 2 * m * den < 2 * num + den ∧ 2 * num < 2 * m * den + den := by
    obtain ⟨h₁, h₂⟩ := hodd hm
    have h₁' : (2 * m * den : Rat) < 2 * num + den := by linarith
    have h₂' : (2 * num : Rat) < 2 * m * den + den := by linarith
    exact ⟨by exact_mod_cast h₁', by exact_mod_cast h₂'⟩
  have hdiv := Nat.div_add_mod' num den
  have hmod := Nat.mod_lt num hden
  unfold roundHalfEven
  dsimp only
  generalize num / den = q at hdiv ⊢
  generalize num % den = r at hdiv hmod ⊢
  have hle : q ≤ m := by
    by_contra hlt
    have : (m + 1) * den ≤ q * den := Nat.mul_le_mul_right den (by omega)
    linarith
  have hge : m ≤ q + 1 := by
    by_contra hlt
    have : (q + 2) * den ≤ m * den := Nat.mul_le_mul_right den (by omega)
    linarith
  obtain rfl | hq : q = m ∨ m = q + 1 := by omega
  · have hr : 2 * r ≤ den := by linarith
    rw [if_neg (by omega : ¬den < 2 * r)]
    split
    · rfl
    · have heven : q % 2 = 0 := by
        by_contra hne
        have := (hodd' (by omega)).2
        linarith
      rw [if_pos heven]
  · subst hq
    have hr : den ≤ 2 * r := by linarith
    rw [if_neg (by omega : ¬2 * r < den)]
    split
    · rfl
    · have heven : (q + 1) % 2 = 0 := by
        by_contra hne
        have := (hodd' (by omega)).1
        linarith
      rw [if_neg (by omega)]

/-- A decimal as a rational. -/
def Decimal.value (d : Decimal) : Rat := d.digits * 10 ^ d.exponent

def Interval.Contains (i : Interval) (v : Rat) : Prop :=
  if i.closed then (i.low : Rat) * 2 ^ i.unit ≤ v ∧ v ≤ i.high * 2 ^ i.unit
  else (i.low : Rat) * 2 ^ i.unit < v ∧ v < i.high * 2 ^ i.unit

/-- The pieces of a finite number other than zero. -/
structure Fits (significand : Nat) (exponent : Int) : Prop where
  pos : 0 < significand
  lt : significand < 2 ^ 53
  ge_smallest : -1074 ≤ exponent
  le_largest : exponent ≤ 971
  /-- The significand is as long as it can be. -/
  full : 2 ^ 52 ≤ significand ∨ exponent = -1074

lemma two_zpow_sub_two (q : Int) : (2 : Rat) ^ (q - 2) = 2 ^ q / 4 := by
  rw [zpow_sub₀ two_ne_zero]
  norm_num

/-- Measured in the unit of the number, the interval is what rounds to the significand. -/
lemma Interval.Contains.roundsTo {m : Nat} {q : Int} {v : Rat} (hm : 0 < m)
    (h : (Interval.around m q).Contains v) : RoundsTo (v / 2 ^ q) m := by
  have hpow : (0 : Rat) < 2 ^ q := by positivity
  have hlow : (4 * m - 2 : Rat) ≤ (Interval.around m q).low := by
    have hsub : 4 * m ≤ (Interval.around m q).low + 2 := by
      dsimp only [Interval.around]
      split <;> omega
    have : (4 * m : Rat) ≤ (Interval.around m q).low + 2 := by exact_mod_cast hsub
    linarith
  have hhigh : ((Interval.around m q).high : Rat) = 4 * m + 2 := by
    dsimp only [Interval.around]
    push_cast
    rfl
  have hscale : ((Interval.around m q).low : Rat) * (2 ^ q / 4) ≥ (m - 1 / 2) * 2 ^ q := by
    nlinarith
  simp only [Interval.Contains, hhigh, show (Interval.around m q).unit = q - 2 from rfl,
    two_zpow_sub_two, show (Interval.around m q).closed = (m % 2 == 0) from rfl] at h
  refine ⟨?_, ?_, fun hodd => ?_⟩
  · rw [le_div_iff₀ hpow]
    split at h <;> linarith [h.1]
  · rw [div_le_iff₀ hpow]
    split at h <;> linarith [h.2]
  · rw [if_neg (by simp [hodd])] at h
    rw [lt_div_iff₀ hpow, div_lt_iff₀ hpow]
    constructor <;> linarith [h.1, h.2]

/-- Just below a power of two the interval reaches down half as far. -/
lemma Interval.Contains.dense {q : Int} {v : Rat} (hq : -1074 < q)
    (h : (Interval.around (2 ^ 52) q).Contains v) : (2 ^ 53 - 1 / 2 : Rat) ≤ v / 2 ^ (q - 1) := by
  have hunit : (2 : Rat) ^ (q - 2) = 2 ^ (q - 1) / 2 := by
    rw [show q - 1 = q - 2 + 1 by ring, zpow_add₀ two_ne_zero]
    norm_num
  have hpow : (0 : Rat) < 2 ^ (q - 1) := by positivity
  have hlow : (Interval.around (2 ^ 52) q).low = 4 * 2 ^ 52 - 1 := by
    simp only [Interval.around, Nat.pow_eq, hq, and_self, if_true]
  rw [le_div_iff₀ hpow]
  simp only [Interval.Contains, hlow, show (Interval.around (2 ^ 52) q).unit = q - 2 from rfl,
    hunit, show (Interval.around (2 ^ 52) q).closed = true from rfl, if_true] at h
  have hlow := h.1
  norm_num at hlow ⊢
  linarith

lemma nearestBits_of_unit {num den s : Nat} {unit : Int} (hnum : 0 < num) (hden : 0 < den)
    (hunit : max (floorLog2 num den - 52) (-1074) = unit)
    (hround : RoundsTo (num / den / 2 ^ unit) s) :
    nearestBits num den = min ((unit + 1074).toNat * 2 ^ 52 + s) 0x7ff0000000000000 := by
  have hpos : 0 < den * 2 ^ unit.toNat := by positivity
  have hratio := ratio_mul_pow two_pos num den unit
  rw [nearestBits, if_neg hnum.ne', hunit]
  simp only [Nat.pow_eq]
  rw [roundHalfEven_eq hpos]
  rw [hratio]
  exact_mod_cast hround

/-- A power of two `2 ^ k` in the unit `2 ^ q`. -/
lemma zpow_split (k q : Int) : (2 : Rat) ^ k = 2 ^ (k - q) * 2 ^ q := by
  rw [← zpow_add₀ two_ne_zero, sub_add_cancel]

/-- Just below a power of two the significand rounds up to `2 ^ 53`, which carries. -/
lemma nearestBits_below_power {q : Int} {num den : Nat} (hnum : 0 < num) (hden : 0 < den)
    (hq : -1074 < q) (h : (Interval.around (2 ^ 52) q).Contains (num / den))
    (hbelow : (num / den : Rat) < 2 ^ (q + 52)) :
    nearestBits num den = min ((q + 1073).toNat * 2 ^ 52 + 2 ^ 53) 0x7ff0000000000000 := by
  have hpow : (0 : Rat) < 2 ^ (q - 1) := by positivity
  have hlow := h.dense hq
  have hhigh : (num / den : Rat) / 2 ^ (q - 1) < 2 ^ 53 := by
    rw [div_lt_iff₀ hpow]
    refine hbelow.trans_eq ((zpow_split (q + 52) (q - 1)).trans ?_)
    rw [show q + 52 - (q - 1) = ((53 : Nat) : Int) by push_cast; ring, zpow_natCast]
  have hsize : (2 : Rat) ^ (q + 51) ≤ num / den := by
    rw [le_div_iff₀ hpow] at hlow
    refine le_trans ?_ hlow
    rw [zpow_split (q + 51) (q - 1),
      show q + 51 - (q - 1) = ((52 : Nat) : Int) by push_cast; ring, zpow_natCast]
    exact mul_le_mul_of_nonneg_right (by norm_num) hpow.le
  have hlog := floorLog2_eq hnum hden hsize (by rw [add_assoc]; exact hbelow)
  have hunit : max (floorLog2 num den - 52) (-1074) = q - 1 := by omega
  have hround : RoundsTo (num / den / 2 ^ (q - 1)) (2 ^ 53) := by
    refine ⟨?_, ?_, fun hodd => absurd hodd (by decide)⟩
    · push_cast
      exact hlow
    · push_cast
      linarith
  rw [nearestBits_of_unit hnum hden hunit hround, show q - 1 + 1074 = q + 1073 by ring]

/-- A ratio in the interval around a number rounds to the bits of that number. -/
theorem nearestBits_of_contains {m : Nat} {q : Int} {num den : Nat} (hfit : Fits m q)
    (hden : 0 < den) (h : (Interval.around m q).Contains (num / den)) :
    nearestBits num den = (q + 1074).toNat * 2 ^ 52 + m := by
  obtain ⟨hpos, hlt, hsmallest, hlargest, hfull⟩ := hfit
  have hround := h.roundsTo hpos
  have hpow : (0 : Rat) < 2 ^ q := by positivity
  have hm : (1 : Rat) ≤ m := by exact_mod_cast hpos
  have hm' : (m : Rat) + 1 ≤ 2 ^ 53 := by exact_mod_cast hlt
  have hlow : (m - 1 / 2 : Rat) * 2 ^ q ≤ num / den := (le_div_iff₀ hpow).mp hround.1
  have hhigh : (num / den : Rat) ≤ (m + 1 / 2) * 2 ^ q := (div_le_iff₀ hpow).mp hround.2.1
  have hnum : 0 < num := by
    rw [Nat.pos_iff_ne_zero]
    rintro rfl
    simp only [Nat.cast_zero, zero_div] at hlow
    nlinarith
  have htop : (num / den : Rat) < 2 ^ (q + 52 + 1) := by
    rw [zpow_split (q + 52 + 1) q, show q + 52 + 1 - q = ((53 : Nat) : Int) by push_cast; ring,
      zpow_natCast]
    exact hhigh.trans_lt (mul_lt_mul_of_pos_right (by linarith) hpow)
  have hbound : (q + 1074).toNat * 2 ^ 52 + m ≤ 0x7ff0000000000000 := by omega
  by_cases hbig : (2 : Rat) ^ (q + 52) ≤ num / den
  · have hlog := floorLog2_eq hnum hden hbig htop
    rw [nearestBits_of_unit hnum hden (by omega) hround, min_eq_left hbound]
  have hbelow := not_le.mp hbig
  obtain rfl | hq := hsmallest.eq_or_lt
  · have hlog := floorLog2_lt hnum hden hbelow
    rw [nearestBits_of_unit hnum hden (by omega) hround, min_eq_left hbound]
  · have hsmallest : m = 2 ^ 52 := by
      have hsmall := hlow.trans_lt hbelow
      rw [zpow_split (q + 52) q, show q + 52 - q = ((52 : Nat) : Int) by push_cast; ring,
        zpow_natCast] at hsmall
      have hlt' := lt_of_mul_lt_mul_right hsmall hpow.le
      have hle : (m : Rat) < 2 ^ 52 + 1 := by linarith
      have : m < 2 ^ 52 + 1 := by exact_mod_cast hle
      omega
    subst hsmallest
    rw [nearestBits_below_power hnum hden hq h hbelow]
    omega

/-- The bits of a number without its sign. -/
def Exact.bits (e : Exact) : Nat := (e.exponent + 1074).toNat * 2 ^ 52 + e.significand

lemma toNat_biased (word : UInt64) :
    ((word >>> 52) &&& 0x7ff).toNat = word.toNat / 2 ^ 52 % 2 ^ 11 := by
  rw [UInt64.toNat_and, UInt64.toNat_shiftRight, Nat.shiftRight_eq_div_pow]
  exact Nat.and_two_pow_sub_one_eq_mod _ 11

lemma toNat_fraction (word : UInt64) : (word &&& 0xfffffffffffff).toNat = word.toNat % 2 ^ 52 := by
  rw [UInt64.toNat_and]
  exact Nat.and_two_pow_sub_one_eq_mod _ 52

/-- The pieces of a number hold all its bits. -/
lemma toNat_toBits_of_decompose? {x : Float} {e : Exact} (h : decompose? x = some e) :
    x.toBits.toNat = if e.negative then e.bits + 2 ^ 63 else e.bits := by
  have hword := x.toBits.toNat_lt
  have hsign : signBit x = decide (2 ^ 63 ≤ x.toBits.toNat) := by
    simp only [signBit, UInt64.le_iff_toNat_le]
    rfl
  simp only [decompose?, toNat_biased, toNat_fraction, hsign, Nat.pow_eq] at h
  generalize x.toBits.toNat = w at h hword ⊢
  split at h
  · cases h
  split at h
  · cases h
    simp only [Exact.bits, decide_eq_true_eq]
    split <;> omega
  · cases h
    simp only [Exact.bits, decide_eq_true_eq]
    split <;> omega

lemma exists_decompose?_of_isFinite {x : Float} (h : x.isFinite = true) :
    ∃ e, decompose? x = some e := by
  let word : BitVec Format.binary64.numBits := x.toModel.toBits.toBitVec
  have hexponent : unpackExponent word ≠ -1#_ := (isFinite_unpack word).mp h
  have hbiased : ((x.toBits >>> 52) &&& 0x7ff).toNat ≠ 0x7ff := by
    intro heq
    apply hexponent
    apply BitVec.eq_of_toNat_eq
    rw [toNat_biased, ← Nat.shiftRight_eq_div_pow] at heq
    simp only [unpackExponent, BitVec.toNat_cast, BitVec.extractLsb_toNat]
    exact heq
  unfold decompose?
  dsimp only
  rw [if_neg hbiased]
  split
  · exact ⟨_, rfl⟩
  · exact ⟨_, rfl⟩

/-- A finite number is zero, or its pieces are in range. -/
lemma fits_of_decompose? {x : Float} {e : Exact} (h : decompose? x = some e) :
    e.significand = 0 ∧ e.exponent = -1074 ∨ Fits e.significand e.exponent := by
  simp only [decompose?, toNat_biased, toNat_fraction, Nat.pow_eq] at h
  generalize x.toBits.toNat = w at h
  split at h
  · cases h
  split at h
  · cases h
    by_cases hzero : w % 2 ^ 52 = 0
    · exact .inl ⟨hzero, rfl⟩
    · refine .inr ⟨?_, ?_, ?_, ?_, .inr rfl⟩ <;> dsimp only <;> omega
  · cases h
    refine .inr ⟨?_, ?_, ?_, ?_, ?_⟩ <;> dsimp only <;> omega

lemma nearest_of_bits {x : Float} {e : Exact} {num den : Nat} (h : decompose? x = some e)
    (hbits : nearestBits num den = e.bits) : nearest e.negative num den = x := by
  rw [nearest, hbits]
  simp only [Nat.pow_eq]
  rw [← toNat_toBits_of_decompose? h, UInt64.ofNat_toNat, Float.ofBits_toBits]

/-- A ratio in the interval around a number is read as that number. -/
theorem nearest_of_contains {x : Float} {e : Exact} {num den : Nat} (h : decompose? x = some e)
    (hfit : Fits e.significand e.exponent) (hden : 0 < den)
    (hratio : (Interval.around e.significand e.exponent).Contains (num / den)) :
    nearest e.negative num den = x :=
  nearest_of_bits h (nearestBits_of_contains hfit hden hratio)

lemma nearest_zero {x : Float} {e : Exact} (h : decompose? x = some e) (hzero : e.significand = 0)
    (hexponent : e.exponent = -1074) (den : Nat) : nearest e.negative 0 den = x := by
  apply nearest_of_bits h
  rw [Exact.bits, hzero, hexponent]
  rfl

end LogoStudio.Number
