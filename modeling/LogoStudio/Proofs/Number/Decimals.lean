import LogoStudio.Number.Reader
import LogoStudio.Proofs.Number.Nearest

/-!
# Decimals that read back

The shortest decimal of a number lies in the interval around the number, so that it is
read as the number. The search meets a decimal of the interval at its last place at the
latest: there one step of the decimal grid is shorter than the upper half of the interval.
-/
namespace LogoStudio.Number

lemma Interval.holds_iff {i : Interval} {num den : Nat} (hden : 0 < den) :
    i.holds num den = true ↔ i.Contains (num / den * 2 ^ i.unit) := by
  have hd : (0 : Rat) < den := by exact_mod_cast hden
  have hpow : (0 : Rat) < 2 ^ i.unit := by positivity
  simp only [Interval.holds, Interval.Contains, mul_le_mul_iff_left₀ hpow,
    mul_lt_mul_iff_left₀ hpow, le_div_iff₀ hd, div_le_iff₀ hd, lt_div_iff₀ hd, div_lt_iff₀ hd]
  split
  · rw [Bool.and_eq_true, decide_eq_true_iff, decide_eq_true_iff]
    exact_mod_cast Iff.rfl
  · rw [Bool.and_eq_true, decide_eq_true_iff, decide_eq_true_iff]
    exact_mod_cast Iff.rfl

/-- The numerator of one step of the decimal grid at `place`, in units of `2 ^ unit`. -/
def stepNum (place unit : Int) : Nat := 10 ^ place.toNat * 2 ^ (-unit).toNat

/-- The denominator of one step of the decimal grid. -/
def stepDen (place unit : Int) : Nat := 10 ^ (-place).toNat * 2 ^ unit.toNat

lemma stepNum_pos (place unit : Int) : 0 < stepNum place unit := by
  unfold stepNum
  positivity

lemma stepDen_pos (place unit : Int) : 0 < stepDen place unit := by
  unfold stepDen
  positivity

/-- A step of the decimal grid, measured in ones. -/
lemma step_ratio (place unit : Int) :
    (stepNum place unit : Rat) / stepDen place unit * 2 ^ unit = 10 ^ place := by
  rw [zpow_eq_toNat_div (by norm_num : (10 : Rat) ≠ 0) place,
    zpow_eq_toNat_div (two_ne_zero : (2 : Rat) ≠ 0) unit, stepNum, stepDen]
  push_cast
  field_simp

/-- A multiple of a step, measured in ones. -/
lemma steps_ratio (place unit : Int) (k : Nat) :
    ((k * stepNum place unit : Nat) : Rat) / stepDen place unit * 2 ^ unit = k * 10 ^ place := by
  rw [← step_ratio place unit]
  push_cast
  ring

lemma nearerStep_cases (tie : Tie) (num den k : Nat) :
    nearerStep tie num den k = k ∨ nearerStep tie num den k = k + 1 := by
  unfold nearerStep
  dsimp only
  split
  · exact .inl rfl
  split
  · exact .inr rfl
  cases tie with
  | up => exact .inr rfl
  | even =>
      dsimp only
      split
      · exact .inl rfl
      · exact .inr rfl

/-- The two decimals of a place that lie next to the middle of the interval, and what is
made of them. -/
lemma Interval.decimalAt?_eq (i : Interval) (tie : Tie) (place : Int) :
    i.decimalAt? tie place =
      let k := i.middle * stepDen place i.unit / stepNum place i.unit
      match i.holds (k * stepNum place i.unit) (stepDen place i.unit),
        i.holds ((k + 1) * stepNum place i.unit) (stepDen place i.unit) with
      | true, true =>
          some ⟨nearerStep tie (i.middle * stepDen place i.unit) (stepNum place i.unit) k, place⟩
      | true, false => some ⟨k, place⟩
      | false, true => some ⟨k + 1, place⟩
      | false, false => none := rfl

lemma Interval.contains_of_holds {i : Interval} {place : Int} {k : Nat}
    (h : i.holds (k * stepNum place i.unit) (stepDen place i.unit) = true) :
    i.Contains (Decimal.value ⟨k, place⟩) := by
  have hcontains := (Interval.holds_iff (stepDen_pos place i.unit)).mp h
  rw [steps_ratio] at hcontains
  exact hcontains

lemma Interval.contains_of_decimalAt? {i : Interval} {tie : Tie} {place : Int} {d : Decimal}
    (h : i.decimalAt? tie place = some d) : i.Contains d.value := by
  rw [Interval.decimalAt?_eq] at h
  dsimp only at h
  generalize i.middle * stepDen place i.unit / stepNum place i.unit = k at h
  split at h
  · next hlow hhigh =>
      cases h
      obtain hk | hk := nearerStep_cases tie (i.middle * stepDen place i.unit)
        (stepNum place i.unit) k
      · rw [hk]
        exact Interval.contains_of_holds hlow
      · rw [hk]
        exact Interval.contains_of_holds hhigh
  · next hlow _ =>
      cases h
      exact Interval.contains_of_holds hlow
  · next _ hhigh =>
      cases h
      exact Interval.contains_of_holds hhigh
  · cases h

/-- A place whose steps are shorter than the upper half of the interval has a decimal in
it: the first one above the middle. -/
lemma Interval.decimalAt?_isSome {i : Interval} (tie : Tie) {place : Int}
    (hlow : i.low ≤ i.middle) (hstep : (10 : Rat) ^ place < (i.high - i.middle) * 2 ^ i.unit) :
    (i.decimalAt? tie place).isSome = true := by
  have hn := stepNum_pos place i.unit
  have hd := stepDen_pos place i.unit
  have hpow : (0 : Rat) < 2 ^ i.unit := by positivity
  rw [Interval.decimalAt?_eq]
  dsimp only
  set k := i.middle * stepDen place i.unit / stepNum place i.unit with hk
  have habove : i.holds ((k + 1) * stepNum place i.unit) (stepDen place i.unit) = true := by
    have hfloor : k * stepNum place i.unit ≤ i.middle * stepDen place i.unit :=
      Nat.div_mul_le_self _ _
    have hnext : i.middle * stepDen place i.unit < (k + 1) * stepNum place i.unit := by
      rw [hk, Nat.mul_comm _ (stepNum place i.unit)]
      exact Nat.lt_mul_div_succ _ hn
    have hd' : (0 : Rat) < stepDen place i.unit := by exact_mod_cast hd
    have hlow' : (i.low : Rat) ≤ i.middle := by exact_mod_cast hlow
    have hbelow : ((k : Rat) + 1) * 10 ^ place ≤ i.middle * 2 ^ i.unit + 10 ^ place := by
      have : (k : Rat) * 10 ^ place ≤ i.middle * 2 ^ i.unit := by
        rw [← steps_ratio place i.unit]
        refine mul_le_mul_of_nonneg_right ?_ hpow.le
        rw [div_le_iff₀ hd']
        exact_mod_cast hfloor
      linarith
    have hover : (i.middle : Rat) * 2 ^ i.unit < ((k : Rat) + 1) * 10 ^ place := by
      have hsteps := steps_ratio place i.unit (k + 1)
      push_cast at hsteps
      rw [← hsteps]
      refine mul_lt_mul_of_pos_right ?_ hpow
      rw [lt_div_iff₀ hd']
      exact_mod_cast hnext
    have hlow'' : (i.low : Rat) * 2 ^ i.unit ≤ i.middle * 2 ^ i.unit :=
      mul_le_mul_of_nonneg_right hlow' hpow.le
    rw [Interval.holds_iff hd, steps_ratio]
    unfold Interval.Contains
    push_cast
    split
    · exact ⟨by linarith, by linarith⟩
    · exact ⟨by linarith, by linarith⟩
  rw [habove]
  split <;> simp_all

/-- The search ends in the interval if one of the places that it tries has a decimal in
the interval. -/
lemma Interval.contains_search {i : Interval} (tie : Tie) {fuel n : Nat} (hn : n < fuel)
    {place : Int} (h : (i.decimalAt? tie (place - n)).isSome = true) :
    i.Contains (i.search tie fuel place).value := by
  induction fuel generalizing n place with
  | zero => omega
  | succ fuel ih =>
      rw [Interval.search]
      cases hhere : i.decimalAt? tie place with
      | some d => exact Interval.contains_of_decimalAt? hhere
      | none =>
          cases n with
          | zero => simp [hhere] at h
          | succ n =>
              refine ih (by omega : n < fuel) ?_
              rw [show place - 1 - (n : Int) = place - ((n + 1 : Nat) : Int) by push_cast; ring]
              exact h

lemma Decimal.value_trim (fuel : Nat) (d : Decimal) : (d.trim fuel).value = d.value := by
  induction fuel generalizing d with
  | zero => rfl
  | succ fuel ih =>
      rw [Decimal.trim]
      split
      · next hzero =>
          rw [ih]
          have hdigits : (d.digits : Rat) = 10 * (d.digits / 10 : Nat) := by
            exact_mod_cast (Nat.mul_div_cancel' (Nat.dvd_of_mod_eq_zero hzero)).symm
          simp only [Decimal.value]
          rw [hdigits, zpow_add₀ (by norm_num : (10 : Rat) ≠ 0)]
          ring
      · rfl

lemma zpow_floorLog10From_le {num den : Nat} (hden : 0 < den) (fuel : Nat) {k : Int}
    (h : (10 : Rat) ^ k ≤ num / den) : (10 : Rat) ^ floorLog10From num den fuel k ≤ num / den := by
  induction fuel generalizing k with
  | zero => exact h
  | succ fuel ih =>
      rw [floorLog10From]
      split
      · next hnext =>
          exact ih (by exact_mod_cast (mul_pow_le_iff num hden (by norm_num) _).mp hnext)
      · exact h

/-- The start of the search for the logarithm is not above it: `59 / 196` is just below
the logarithm of two to the base ten, and `28 / 93` just above it. -/
lemma zpow_start_le {bits : Int} (hlow : -1100 ≤ bits) (hhigh : bits ≤ 1100) :
    (10 : Rat) ^ (bits * 30103 / 100000 - 1) ≤ 2 ^ bits := by
  obtain ⟨n, rfl | rfl⟩ := bits.eq_nat_or_neg
  · obtain ⟨k, hk⟩ | hneg : (∃ k : Nat, (n : Int) * 30103 / 100000 - 1 = k) ∨
        (n : Int) * 30103 / 100000 - 1 < 0 := by
      by_cases h : 0 ≤ (n : Int) * 30103 / 100000 - 1
      · exact .inl (Int.eq_ofNat_of_zero_le h)
      · exact .inr (by omega)
    · rw [hk, zpow_natCast, zpow_natCast]
      have hpow : ((10 : Nat) ^ k) ^ 59 ≤ (2 ^ n) ^ 59 := by
        calc ((10 : Nat) ^ k) ^ 59 = (10 ^ 59) ^ k := by rw [← pow_mul, ← pow_mul, Nat.mul_comm]
          _ ≤ (2 ^ 196) ^ k := Nat.pow_le_pow_left (by norm_num) k
          _ = 2 ^ (196 * k) := (pow_mul ..).symm
          _ ≤ 2 ^ (n * 59) := Nat.pow_le_pow_right two_pos (by omega)
          _ = (2 ^ n) ^ 59 := pow_mul ..
      exact_mod_cast (Nat.pow_le_pow_iff_left (by norm_num)).mp hpow
    · calc (10 : Rat) ^ ((n : Int) * 30103 / 100000 - 1) ≤ 10 ^ (0 : Int) :=
          zpow_le_zpow_right₀ (by norm_num) hneg.le
        _ = 1 := zpow_zero _
        _ ≤ 2 ^ (n : Int) := one_le_zpow₀ one_le_two (by omega)
  · obtain ⟨k, hk⟩ : ∃ k : Nat, -(n : Int) * 30103 / 100000 - 1 = -(k : Int) :=
      ⟨(-(-(n : Int) * 30103 / 100000 - 1)).toNat, by omega⟩
    rw [hk, zpow_neg, zpow_neg, zpow_natCast, zpow_natCast]
    apply inv_anti₀ (by positivity)
    have hpow : ((2 : Nat) ^ n) ^ 93 ≤ (10 ^ k) ^ 93 := by
      calc ((2 : Nat) ^ n) ^ 93 = (2 ^ 93) ^ n := by rw [← pow_mul, ← pow_mul, Nat.mul_comm]
        _ ≤ (10 ^ 28) ^ n := Nat.pow_le_pow_left (by norm_num) n
        _ = 10 ^ (28 * n) := (pow_mul ..).symm
        _ ≤ 10 ^ (k * 93) := Nat.pow_le_pow_right (by norm_num) (by omega)
        _ = (10 ^ k) ^ 93 := pow_mul ..
    exact_mod_cast (Nat.pow_le_pow_iff_left (by norm_num)).mp hpow

lemma zpow_floorLog10_le {num den : Nat} (hnum : 0 < num) (hden : 0 < den)
    (hlow : -1100 ≤ floorLog2 num den) (hhigh : floorLog2 num den ≤ 1100) :
    (10 : Rat) ^ floorLog10 num den ≤ num / den :=
  zpow_floorLog10From_le hden 4
    ((zpow_start_le hlow hhigh).trans (floorLog2_spec hnum hden).1)

lemma Interval.Contains.pos {m : Nat} {q : Int} {v : Rat} (hm : 0 < m)
    (h : (Interval.around m q).Contains v) : 0 < v := by
  have hpow : (0 : Rat) < 2 ^ q := by positivity
  have hlow := (h.roundsTo hm).1
  rw [le_div_iff₀ hpow] at hlow
  have hm' : (1 : Rat) ≤ m := by exact_mod_cast hm
  nlinarith

/-- The shortest decimal of a number lies in the interval around it. -/
theorem contains_shortest (tie : Tie) {m : Nat} {q : Int} (hfit : Fits m q) :
    (Interval.around m q).Contains (shortest tie m q).value := by
  obtain ⟨hpos, hlt, hsmallest, hlargest, -⟩ := hfit
  have hpow : (0 : Rat) < 2 ^ q := by positivity
  have hm : (1 : Rat) ≤ m := by exact_mod_cast hpos
  have hm' : (m : Rat) < 2 ^ 53 := by exact_mod_cast hlt
  have hnum : 0 < m * 2 ^ q.toNat := by positivity
  have hden : 0 < 2 ^ (-q).toNat := by positivity
  have hratio := ratio_pow two_pos m q
  rw [Nat.cast_ofNat] at hratio
  have hlow : -1100 ≤ floorLog2 (m * 2 ^ q.toNat) (2 ^ (-q).toNat) := by
    have h := (floorLog2_spec hnum hden).2
    rw [hratio] at h
    have : (2 : Rat) ^ q < 2 ^ (floorLog2 (m * 2 ^ q.toNat) (2 ^ (-q).toNat) + 1) :=
      (by nlinarith : (2 : Rat) ^ q ≤ m * 2 ^ q).trans_lt h
    have := (zpow_lt_zpow_iff_right₀ one_lt_two).mp this
    omega
  have hhigh : floorLog2 (m * 2 ^ q.toNat) (2 ^ (-q).toNat) < 1100 := by
    apply floorLog2_lt hnum hden
    rw [hratio]
    calc (m : Rat) * 2 ^ q < 2 ^ 53 * 2 ^ q := mul_lt_mul_of_pos_right hm' hpow
      _ = 2 ^ (53 + q) := by rw [zpow_add₀ two_ne_zero]; norm_num
      _ ≤ 2 ^ (1100 : Int) := zpow_le_zpow_right₀ one_le_two (by omega)
  have htop := zpow_floorLog10_le hnum hden hlow hhigh.le
  rw [hratio] at htop
  unfold shortest
  simp only [Nat.pow_eq]
  rw [Decimal.value_trim]
  generalize floorLog10 (m * 2 ^ q.toNat) (2 ^ (-q).toNat) = top at htop ⊢
  apply Interval.contains_search tie (by norm_num : 17 < 18)
  apply Interval.decimalAt?_isSome
  · dsimp only [Interval.around]
    omega
  · have hstep : (10 : Rat) ^ (top - 17) * 10 ^ 17 ≤ m * 2 ^ q := by
      refine le_of_eq_of_le ?_ htop
      rw [zpow_sub₀ (by norm_num)]
      norm_num
    dsimp only [Interval.around]
    rw [two_zpow_sub_two]
    push_cast
    nlinarith

/-- Three binary digits are less than one decimal digit. -/
lemma lt_ten_pow_log2 (n : Nat) : n < 10 ^ (n.log2 / 3 + 1) := by
  calc n < 2 ^ (n.log2 + 1) := Nat.lt_log2_self
    _ ≤ 2 ^ (3 * (n.log2 / 3 + 1)) := Nat.pow_le_pow_right two_pos (by omega)
    _ = (2 ^ 3) ^ (n.log2 / 3 + 1) := pow_mul ..
    _ ≤ 10 ^ (n.log2 / 3 + 1) := Nat.pow_le_pow_left (by norm_num) _

lemma two_zpow_lt_ten_zpow : (2 : Rat) ^ (1100 : Int) < 10 ^ (400 : Int) := by
  calc (2 : Rat) ^ (1100 : Int) = (2 ^ 11) ^ (100 : Int) := by rw [← zpow_natCast, ← zpow_mul]; rfl
    _ < (10 ^ 4) ^ (100 : Int) := zpow_lt_zpow_left₀ (by norm_num) (by norm_num) (by norm_num)
    _ = 10 ^ (400 : Int) := by rw [← zpow_natCast, ← zpow_mul]; rfl

/-- The interval of a finite number stays away from the bounds past which decimals are
read without computing their power. -/
lemma Interval.Contains.bounds {m : Nat} {q : Int} {v : Rat} (hfit : Fits m q)
    (h : (Interval.around m q).Contains v) :
    (10 : Rat) ^ (-400 : Int) < v ∧ v < 10 ^ (400 : Int) := by
  obtain ⟨hpos, hlt, hsmallest, hlargest, -⟩ := hfit
  have hpow : (0 : Rat) < 2 ^ q := by positivity
  obtain ⟨hlow, hhigh, -⟩ := h.roundsTo hpos
  rw [le_div_iff₀ hpow] at hlow
  rw [div_le_iff₀ hpow] at hhigh
  have hm : (1 : Rat) ≤ m := by exact_mod_cast hpos
  have hm' : (m : Rat) + 1 ≤ 2 ^ 53 := by exact_mod_cast hlt
  constructor
  · calc (10 : Rat) ^ (-400 : Int) < 2 ^ (-1100 : Int) := by
          rw [zpow_neg, zpow_neg]
          exact inv_strictAnti₀ (by positivity) two_zpow_lt_ten_zpow
      _ ≤ 2 ^ (q - 1) := zpow_le_zpow_right₀ one_le_two (by omega)
      _ = 1 / 2 * 2 ^ q := by rw [zpow_sub₀ two_ne_zero]; ring
      _ ≤ (m - 1 / 2) * 2 ^ q := mul_le_mul_of_nonneg_right (by linarith) hpow.le
      _ ≤ v := hlow
  · calc v ≤ (m + 1 / 2) * 2 ^ q := hhigh
      _ ≤ 2 ^ 53 * 2 ^ q := mul_le_mul_of_nonneg_right (by linarith) hpow.le
      _ = 2 ^ (53 + q) := by rw [zpow_add₀ two_ne_zero]; norm_num
      _ ≤ 2 ^ (1100 : Int) := zpow_le_zpow_right₀ one_le_two (by omega)
      _ < 10 ^ (400 : Int) := two_zpow_lt_ten_zpow

/-- A decimal between those bounds is read as the number nearest to it. -/
lemma ofDecimal_eq_nearest (negative : Bool) {d : Decimal}
    (hlow : (10 : Rat) ^ (-400 : Int) < d.value) (hhigh : d.value < 10 ^ (400 : Int)) :
    ofDecimal negative d.digits d.exponent =
      nearest negative (d.digits * 10 ^ d.exponent.toNat) (10 ^ (-d.exponent).toNat) := by
  have hpow : (0 : Rat) < 10 ^ d.exponent := by positivity
  have hdigits : 0 < d.digits := by
    rw [Nat.pos_iff_ne_zero]
    intro hzero
    rw [Decimal.value, hzero, Nat.cast_zero, zero_mul] at hlow
    have : (0 : Rat) < 10 ^ (-400 : Int) := by positivity
    linarith
  have hexponent : ¬400 < d.exponent := by
    intro hlarge
    have hone : (1 : Rat) ≤ d.digits := by exact_mod_cast hdigits
    have : (10 : Rat) ^ (400 : Int) ≤ d.value := calc
      (10 : Rat) ^ (400 : Int) ≤ 10 ^ d.exponent := zpow_le_zpow_right₀ (by norm_num) hlarge.le
      _ ≤ d.value := le_mul_of_one_le_left hpow.le hone
    linarith
  have hsmall : ¬d.exponent + (d.digits.log2 / 3 + 1 : Nat) < -400 := by
    intro hless
    have hlt : (d.digits : Rat) < 10 ^ (d.digits.log2 / 3 + 1) := by
      exact_mod_cast lt_ten_pow_log2 d.digits
    have : d.value < 10 ^ (-400 : Int) := calc
      d.value < 10 ^ (d.digits.log2 / 3 + 1) * 10 ^ d.exponent := mul_lt_mul_of_pos_right hlt hpow
      _ = 10 ^ (d.exponent + (d.digits.log2 / 3 + 1 : Nat)) := by
        rw [zpow_add₀ (by norm_num), zpow_natCast, mul_comm]
      _ ≤ 10 ^ (-400 : Int) := zpow_le_zpow_right₀ (by norm_num) hless.le
    linarith
  rw [ofDecimal, if_neg hdigits.ne', if_neg hexponent, if_neg hsmall]
  rfl

/-- A decimal of the interval around a number is read as that number. -/
theorem ofDecimal_of_contains {x : Float} {e : Exact} {d : Decimal} (h : decompose? x = some e)
    (hfit : Fits e.significand e.exponent)
    (hdecimal : (Interval.around e.significand e.exponent).Contains d.value) :
    ofDecimal e.negative d.digits d.exponent = x := by
  obtain ⟨hlow, hhigh⟩ := hdecimal.bounds hfit
  have hratio := ratio_pow (by norm_num : 0 < 10) d.digits d.exponent
  rw [ofDecimal_eq_nearest e.negative hlow hhigh]
  apply nearest_of_contains h hfit (by positivity)
  rw [hratio]
  exact hdecimal

/-- A decimal with the value of the shortest decimal of a number is read as the number. -/
theorem ofDecimal_of_shortest {x : Float} {e : Exact} {tie : Tie} {d : Decimal}
    (h : decompose? x = some e) (hfit : Fits e.significand e.exponent)
    (hd : d.value = (shortest tie e.significand e.exponent).value) :
    ofDecimal e.negative d.digits d.exponent = x := by
  apply ofDecimal_of_contains h hfit
  rw [hd]
  exact contains_shortest tie hfit

lemma shortest_digits_pos (tie : Tie) {m : Nat} {q : Int} (hfit : Fits m q) :
    0 < (shortest tie m q).digits := by
  have hvalue := (contains_shortest tie hfit).pos hfit.pos
  rw [Nat.pos_iff_ne_zero]
  intro hzero
  rw [Decimal.value, hzero, Nat.cast_zero, zero_mul] at hvalue
  exact lt_irrefl _ hvalue

end LogoStudio.Number
