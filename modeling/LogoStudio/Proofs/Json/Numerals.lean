import LogoStudio.Json.Writer
import LogoStudio.Proofs.Number.Decimals
import LogoStudio.Proofs.Text.Digits

/-!
# Numbers in JSON texts

A number that is written is read as the same number. The layout of its text, with a point
among the digits or with an exponent, spells the value of the shortest decimal, and a
decimal of that value is read as the number.
-/
namespace LogoStudio.Json

open Number (Decimal digitsValue)
open Text (span_append digitsValue_append digitsValue_toDigits digitsValue_replicate
  isDigit_of_mem_toDigits isDigit_of_mem_replicate toDigits_eq_cons)

/-- What may follow a value: nothing, or a mark that ends an element. -/
def Ends (rest : List Char) : Prop := ∀ c ∈ rest.head?, c ∈ [',', ']', '\x7d']

/-- The digits before a point: a zero stands alone. -/
inductive Whole : List Char → Prop
  | zero : Whole ['0']
  | digits {c : Char} {tail : List Char} (hc : c ≠ '0') (hdigits : ∀ d ∈ c :: tail, d.isDigit) :
      Whole (c :: tail)

section

variable {whole fraction rest : List Char}

lemma Ends.not_in_number (h : Ends rest) (c : Char) (hc : c ∈ rest.head?) :
    c.isDigit = false ∧ c ≠ '.' ∧ c ≠ 'e' ∧ c ≠ 'E' := by
  have hmark := h c hc
  simp only [List.mem_cons, List.not_mem_nil, or_false] at hmark
  obtain rfl | rfl | rfl := hmark <;> decide

/-- Digits that start as a positive number does are not led by a zero. -/
lemma whole_of_head {n : Nat} (h : 0 < n) (hdigits : ∀ c ∈ whole, c.isDigit)
    (hhead : whole.head? = (Nat.toDigits 10 n).head?) : Whole whole := by
  obtain ⟨c, tail, hn, hc⟩ := toDigits_eq_cons h
  rw [hn, List.head?_cons] at hhead
  obtain ⟨tail, rfl⟩ := List.head?_eq_some_iff.mp hhead
  exact .digits hc hdigits

end

namespace Raw

variable {whole fraction rest : List Char}

lemma readDigits?_append (hne : fraction ≠ []) (hdigits : ∀ c ∈ fraction, c.isDigit)
    (hrest : ∀ c ∈ rest.head?, c.isDigit = false) :
    readDigits? (fraction ++ rest) = some (fraction, rest) := by
  rw [readDigits?, span_append hdigits hrest]
  simp [hne]

lemma readWhole?_append (hwhole : Whole whole) (hrest : ∀ c ∈ rest.head?, c.isDigit = false) :
    readWhole? (whole ++ rest) = some (whole, rest) := by
  cases hwhole with
  | zero => rfl
  | @digits c tail hc hdigits =>
      rw [← readDigits?_append (by simp) hdigits hrest, List.cons_append]
      unfold readWhole?
      split
      · next heq => exact absurd (List.cons.inj heq).1 hc
      · rfl

lemma readFraction?_point (hne : fraction ≠ []) (hdigits : ∀ c ∈ fraction, c.isDigit)
    (hrest : ∀ c ∈ rest.head?, c.isDigit = false) :
    readFraction? ('.' :: fraction ++ rest) = some (some fraction, rest) := by
  rw [List.cons_append, readFraction?, readDigits?_append hne hdigits hrest]
  rfl

lemma readFraction?_none (hrest : ∀ c ∈ rest.head?, c ≠ '.') :
    readFraction? rest = some (none, rest) := by
  unfold readFraction?
  split
  · exact absurd rfl (hrest '.' rfl)
  · rfl

lemma readExponent?_none (hrest : ∀ c ∈ rest.head?, c ≠ 'e' ∧ c ≠ 'E') :
    readExponent? rest = some (none, rest) := by
  cases rest with
  | nil => rfl
  | cons c rest =>
      obtain ⟨he, hE⟩ := hrest c rfl
      simp [readExponent?, he, hE]

def exponentText (k : Int) : List Char :=
  (if 0 ≤ k then '+' else '-') :: Nat.toDigits 10 k.natAbs

lemma readExponent?_mark (k : Int) (hrest : ∀ c ∈ rest.head?, c.isDigit = false) :
    readExponent? ('e' :: exponentText k ++ rest) = some (some k, rest) := by
  have hread : readDigits? (Nat.toDigits 10 k.natAbs ++ rest) = some (_, rest) :=
    readDigits?_append Nat.toDigits_ne_nil (fun _ => isDigit_of_mem_toDigits) hrest
  unfold readExponent? exponentText
  by_cases hk : 0 ≤ k
  · simp only [if_pos hk, List.cons_append, Number.splitSign, hread]
    simp [digitsValue_toDigits, abs_of_nonneg hk]
  · simp only [if_neg hk, List.cons_append, Number.splitSign, hread]
    simp [digitsValue_toDigits, abs_of_neg (not_le.mp hk)]

end Raw

/-- The decimal that a numeral spells. -/
def Numeral.decimal (n : Numeral) : Decimal :=
  ⟨digitsValue (n.whole ++ n.fraction.getD []),
    n.exponent.getD 0 - ((n.fraction.getD []).length : Int)⟩

/-- The text spells a magnitude with a fraction or an exponent, in any place. -/
def Spells (text : List Char) (v : Rat) : Prop :=
  ∀ (negative : Bool) (rest : List Char), Ends rest →
    ∃ n : Numeral, Raw.readNumeral? negative (text ++ rest) = some (n, rest) ∧
      n.negative = negative ∧ (n.fraction.isNone && n.exponent.isNone) = false ∧ n.decimal.value = v

section

variable {whole fraction : List Char}

lemma spells_pointed {v : Rat} (hwhole : Whole whole) (hne : fraction ≠ [])
    (hfraction : ∀ c ∈ fraction, c.isDigit)
    (hv : Decimal.value ⟨digitsValue (whole ++ fraction), -(fraction.length : Int)⟩ = v) :
    Spells (whole ++ '.' :: fraction) v := by
  intro negative rest hrest
  refine ⟨⟨negative, whole, some fraction, none⟩, ?_, rfl, rfl, ?_⟩
  · have hend := hrest.not_in_number
    rw [Raw.readNumeral?, List.append_assoc, Raw.readWhole?_append hwhole (by simp)]
    simp only [Option.bind_eq_bind, Option.bind_some]
    rw [Raw.readFraction?_point hne hfraction fun c hc => (hend c hc).1]
    simp only [Option.bind_some]
    rw [Raw.readExponent?_none fun c hc => (hend c hc).2.2]
    rfl
  · simpa [Numeral.decimal] using hv

/-- The text of a fraction that may be missing. -/
def fractionText (fraction : List Char) : List Char :=
  if fraction = [] then [] else '.' :: fraction

lemma spells_scientific {k : Int} {v : Rat} (hwhole : Whole whole)
    (hfraction : ∀ c ∈ fraction, c.isDigit)
    (hv : Decimal.value ⟨digitsValue (whole ++ fraction), k - (fraction.length : Int)⟩ = v) :
    Spells (whole ++ fractionText fraction ++ 'e' :: Raw.exponentText k) v := by
  intro negative rest hrest
  have hend := hrest.not_in_number
  have hexponent := Raw.readExponent?_mark k fun c hc => (hend c hc).1
  by_cases hne : fraction = []
  · subst hne
    refine ⟨⟨negative, whole, none, some k⟩, ?_, rfl, rfl, by simpa [Numeral.decimal] using hv⟩
    rw [Raw.readNumeral?, fractionText, if_pos rfl, List.append_nil, List.append_assoc,
      Raw.readWhole?_append hwhole (by simp)]
    simp only [Option.bind_eq_bind, Option.bind_some]
    rw [Raw.readFraction?_none (by simp)]
    simp only [Option.bind_some]
    rw [hexponent]
    rfl
  · refine ⟨⟨negative, whole, some fraction, some k⟩, ?_, rfl, rfl,
      by simpa [Numeral.decimal] using hv⟩
    rw [Raw.readNumeral?, fractionText, if_neg hne, List.append_assoc, List.append_assoc,
      Raw.readWhole?_append hwhole (by simp)]
    simp only [Option.bind_eq_bind, Option.bind_some]
    rw [Raw.readFraction?_point hne hfraction (by simp)]
    simp only [Option.bind_some]
    rw [hexponent]
    rfl

end

section

variable {d : Decimal}

/-- The digits of a whole decimal and their zeros stand before the point. -/
lemma spells_whole (hd : 0 < d.digits) (hexponent : 0 ≤ d.exponent) :
    Spells (Nat.toDigits 10 d.digits ++ List.replicate d.exponent.toNat '0' ++ ['.', '0'])
      d.value := by
  have hwhole : Whole (Nat.toDigits 10 d.digits ++ List.replicate d.exponent.toNat '0') := by
    refine whole_of_head hd (fun c hc => ?_) (List.head?_append_of_ne_nil _ Nat.toDigits_ne_nil)
    exact (List.mem_append.mp hc).elim isDigit_of_mem_toDigits isDigit_of_mem_replicate
  have hpow : (10 : Rat) ^ d.exponent = 10 ^ d.exponent.toNat := by
    conv_lhs => rw [← Int.toNat_of_nonneg hexponent, zpow_natCast]
  refine spells_pointed hwhole (by simp) (by simp) ?_
  rw [Decimal.value, Decimal.value, digitsValue_append, digitsValue_append, digitsValue_replicate,
    digitsValue_toDigits, hpow]
  simp [digitsValue]

/-- A point may stand among the digits. -/
lemma spells_inside (hd : 0 < d.digits) {n : Nat} (hpos : 0 < n)
    (hlt : n < (Nat.toDigits 10 d.digits).length)
    (hn : (n : Int) = (Nat.toDigits 10 d.digits).length + d.exponent) :
    Spells ((Nat.toDigits 10 d.digits).take n ++ '.' :: (Nat.toDigits 10 d.digits).drop n)
      d.value := by
  have hwhole : Whole ((Nat.toDigits 10 d.digits).take n) := by
    refine whole_of_head hd (fun c hc => isDigit_of_mem_toDigits (List.mem_of_mem_take hc)) ?_
    rw [List.head?_take, if_neg hpos.ne']
  have hplaces : -(((Nat.toDigits 10 d.digits).length - n : Nat) : Int) = d.exponent := by omega
  refine spells_pointed hwhole ?_ ?_ ?_
  · rw [Ne, List.drop_eq_nil_iff]
    omega
  · exact fun c hc => isDigit_of_mem_toDigits (List.mem_of_mem_drop hc)
  · rw [List.take_append_drop, digitsValue_toDigits, List.length_drop, hplaces]

/-- A decimal below one starts with a zero, and more zeros follow the point. -/
lemma spells_below {n : Nat} (hn : -(n : Int) = (Nat.toDigits 10 d.digits).length + d.exponent) :
    Spells (['0'] ++ '.' :: (List.replicate n '0' ++ Nat.toDigits 10 d.digits)) d.value := by
  have hplaces : -((n + (Nat.toDigits 10 d.digits).length : Nat) : Int) = d.exponent := by omega
  refine spells_pointed .zero (by simp [Nat.toDigits_ne_nil]) ?_ ?_
  · exact fun c hc =>
      (List.mem_append.mp hc).elim isDigit_of_mem_replicate isDigit_of_mem_toDigits
  · rw [digitsValue_append, digitsValue_append, digitsValue_replicate, digitsValue_toDigits,
      List.length_append, List.length_replicate, hplaces]
    simp [Decimal.value, digitsValue]

/-- Without an exponent the text of a decimal spells its value. -/
lemma spells_positionalText (hd : 0 < d.digits) :
    Spells (d.positionalText ".0").toList d.value := by
  unfold Decimal.positionalText
  dsimp only
  split
  · next hexponent => simpa [Number.zeros] using spells_whole hd hexponent
  split
  · next hexponent hpoint =>
      simpa using spells_inside hd (by omega) (by omega) (Int.toNat_of_nonneg hpoint.le)
  · next hexponent hpoint =>
      have hplaces := Int.toNat_of_nonneg (neg_nonneg.mpr (not_lt.mp hpoint))
      simpa [Number.zeros] using spells_below (neg_eq_iff_eq_neg.mpr hplaces)

lemma toList_scientificText (d : Decimal) :
    d.scientificText.toList =
      (Nat.toDigits 10 d.digits).take 1 ++ fractionText ((Nat.toDigits 10 d.digits).drop 1) ++
        'e' :: Raw.exponentText ((Nat.toDigits 10 d.digits).length + d.exponent - 1) := by
  have hfraction : (Nat.toDigits 10 d.digits).drop 1 = [] ↔
      (Nat.toDigits 10 d.digits).length ≤ 1 := List.drop_eq_nil_iff
  simp only [Decimal.scientificText, fractionText, Raw.exponentText, Number.digitText, hfraction,
    String.toList_append, String.toList_ofList, apply_ite String.toList, List.append_assoc]
  split <;> split <;> rfl

/-- With an exponent the text of a decimal spells its value. -/
lemma spells_scientificText (hd : 0 < d.digits) : Spells d.scientificText.toList d.value := by
  have hlength : 0 < (Nat.toDigits 10 d.digits).length := Nat.length_toDigits_pos
  have hplaces : ((Nat.toDigits 10 d.digits).length : Int) + d.exponent - 1 -
      ((Nat.toDigits 10 d.digits).length - 1 : Nat) = d.exponent := by omega
  have hwhole : Whole ((Nat.toDigits 10 d.digits).take 1) := by
    refine whole_of_head hd (fun c hc => isDigit_of_mem_toDigits (List.mem_of_mem_take hc)) ?_
    rw [List.head?_take, if_neg one_ne_zero]
  rw [toList_scientificText]
  refine spells_scientific hwhole ?_ ?_
  · exact fun c hc => isDigit_of_mem_toDigits (List.mem_of_mem_drop hc)
  · rw [List.take_append_drop, digitsValue_toDigits, List.length_drop, hplaces]

end

lemma Raw.readNumeral?_head {negative : Bool} {chars : List Char} {r : Numeral × List Char}
    (h : Raw.readNumeral? negative chars = some r) : ∃ c tail, chars = c :: tail ∧ c.isDigit := by
  obtain ⟨⟨whole, rest⟩, hwhole, -⟩ := Option.bind_eq_some_iff.mp h
  unfold Raw.readWhole? at hwhole
  split at hwhole
  · exact ⟨_, _, rfl, rfl⟩
  · cases chars with
    | nil => cases hwhole
    | cons c tail =>
        refine ⟨c, tail, rfl, ?_⟩
        by_contra hc
        rw [Bool.not_eq_true] at hc
        simp [Raw.readDigits?, hc] at hwhole

/-- A numeral with its sign is read as a number. -/
lemma Raw.readValue?_numeral {negative : Bool} {chars rest : List Char} {n : Numeral}
    (h : Raw.readNumeral? negative chars = some (n, rest)) (fuel : Nat) :
    Raw.readValue? (fuel + 1) ((if negative then ['-'] else []) ++ chars) =
      some (.number n, rest) := by
  obtain ⟨c, tail, rfl, hc⟩ := Raw.readNumeral?_head h
  have hspace : Raw.isSpace c = false := by
    by_contra hspace
    simp only [Raw.isSpace, Bool.not_eq_false, Bool.or_eq_true, beq_iff_eq] at hspace
    obtain ((rfl | rfl) | rfl) | rfl := hspace <;> cases hc
  cases negative with
  | true =>
      change (Raw.readNumeral? true (c :: tail)).map _ = _
      rw [h]
      rfl
  | false =>
      have hskip : Raw.skip (c :: tail) = c :: tail := by simp [Raw.skip, hspace]
      simp only [Bool.false_eq_true, if_false, List.nil_append]
      rw [Raw.readValue?, hskip]
      split
      all_goals try
        next heq =>
          obtain ⟨rfl, -⟩ := List.cons.inj heq
          cases hc
      rw [h]
      rfl

lemma spells_zero : Spells ['0', '.', '0'] 0 := by
  refine spells_pointed .zero (by simp) (by simp) ?_
  simp [Decimal.value, digitsValue]

lemma spells_magnitude {m : Nat} {q : Int} (hfit : Number.Fits m q) :
    Spells (numberStyle.magnitude m q).toList (Number.shortest .even m q).value := by
  have hdigits := Number.shortest_digits_pos .even hfit
  rw [Number.Style.magnitude, if_neg hfit.pos.ne']
  dsimp only
  split
  · exact spells_positionalText hdigits
  · exact spells_scientificText hdigits

/-- A numeral with a fraction or an exponent has the number that its decimal is read as. -/
lemma Numeral.value?_of_ofDecimal {n : Numeral} {x : Float}
    (hpart : (n.fraction.isNone && n.exponent.isNone) = false)
    (h : Number.ofDecimal n.negative n.decimal.digits n.decimal.exponent = x)
    (hfinite : x.isFinite = true) : n.value? = some (.float x) := by
  change Number.ofDecimal n.negative (digitsValue (n.whole ++ n.fraction.getD []))
    (n.exponent.getD 0 - (n.fraction.getD []).length) = x at h
  simp [Numeral.value?, hpart, h, hfinite]

/-- The text of a finite number is read as a numeral whose value is the number. -/
theorem readValue?_numberText {x : Float} (hfinite : x.isFinite = true) {rest : List Char}
    (hrest : Ends rest) (fuel : Nat) :
    ∃ n, Raw.readValue? (fuel + 1) ((numberText x).toList ++ rest) = some (.number n, rest) ∧
      n.value? = some (.float x) := by
  obtain ⟨e, he⟩ := Number.exists_decompose?_of_isFinite hfinite
  have htext : (numberText x).toList = (if e.negative then ['-'] else []) ++
      (numberStyle.magnitude e.significand e.exponent).toList := by
    rw [numberText, if_pos hfinite, Number.Style.text, he, String.toList_append]
    cases e.negative <;> rfl
  rw [htext, List.append_assoc]
  obtain ⟨hzero, hexponent⟩ | hfit := Number.fits_of_decompose? he
  · have hmagnitude :
        (numberStyle.magnitude e.significand e.exponent).toList = ['0', '.', '0'] := by
      rw [hzero, Number.Style.magnitude, if_pos rfl]
      simp [numberStyle]
    obtain ⟨n, hread, hnegative, hpart, hvalue⟩ := spells_zero e.negative rest hrest
    have hdigits : n.decimal.digits = 0 := by
      have hpow : (10 : Rat) ^ n.decimal.exponent ≠ 0 := by positivity
      exact_mod_cast (mul_eq_zero.mp hvalue).resolve_right hpow
    rw [hmagnitude]
    refine ⟨n, Raw.readValue?_numeral hread fuel, Numeral.value?_of_ofDecimal hpart ?_ hfinite⟩
    rw [hnegative, Number.ofDecimal, if_pos hdigits]
    exact Number.nearest_zero he hzero hexponent 1
  · obtain ⟨n, hread, hnegative, hpart, hvalue⟩ := spells_magnitude hfit e.negative rest hrest
    refine ⟨n, Raw.readValue?_numeral hread fuel, Numeral.value?_of_ofDecimal hpart ?_ hfinite⟩
    rw [hnegative]
    exact Number.ofDecimal_of_shortest he hfit hvalue

/-- The text of a whole number of 64 bits is read as a numeral whose value is the number. -/
theorem readValue?_integer {k : Int} (hlow : -2 ^ 63 ≤ k) (hhigh : k < 2 ^ 64) {rest : List Char}
    (hrest : Ends rest) (fuel : Nat) :
    ∃ n, Raw.readValue? (fuel + 1) ((write (.integer k)).toList ++ rest) = some (.number n, rest) ∧
      n.value? = some (.integer k) := by
  have hend := hrest.not_in_number
  have hwhole : Whole (Nat.toDigits 10 k.natAbs) := by
    by_cases hk : k.natAbs = 0
    · rw [hk]
      exact .zero
    · exact whole_of_head (Nat.pos_of_ne_zero hk) (fun _ => isDigit_of_mem_toDigits) rfl
  have htext : (write (.integer k)).toList =
      (if decide (k < 0) then ['-'] else []) ++ Nat.toDigits 10 k.natAbs := by
    rw [write]
    by_cases hk : k < 0 <;> simp [hk, Number.digitText]
  have hread : Raw.readNumeral? (decide (k < 0)) (Nat.toDigits 10 k.natAbs ++ rest) =
      some (⟨decide (k < 0), Nat.toDigits 10 k.natAbs, none, none⟩, rest) := by
    rw [Raw.readNumeral?, Raw.readWhole?_append hwhole fun c hc => (hend c hc).1]
    simp only [Option.bind_eq_bind, Option.bind_some]
    rw [Raw.readFraction?_none fun c hc => (hend c hc).2.1]
    simp only [Option.bind_some]
    rw [Raw.readExponent?_none fun c hc => (hend c hc).2.2]
    rfl
  rw [htext, List.append_assoc]
  refine ⟨_, Raw.readValue?_numeral hread fuel, ?_⟩
  simp only [Numeral.value?, digitsValue_toDigits, Nat.pow_eq, Option.isNone_none, Bool.true_and]
  by_cases hk : k < 0
  · have hbound : 0 < k.natAbs ∧ k.natAbs ≤ 2 ^ 63 := by omega
    have hvalue : -(k.natAbs : Int) = k := by omega
    rw [decide_eq_true hk, if_neg (by simp), if_pos (by simpa using hbound), hvalue]
  · have hbound : k.natAbs < 2 ^ 64 := by omega
    have hvalue : (k.natAbs : Int) = k := by omega
    rw [decide_eq_false hk, if_pos (by simpa using hbound), hvalue]

end LogoStudio.Json
