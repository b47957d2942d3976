import LogoStudio.Number.Reader
import LogoStudio.Text.Hex
import Mathlib

/-!
# Runs of digits

A run of characters of one kind is cut off where another kind starts. The digits of a
number are read back as the number, and the first of them is a zero for zero only.
-/
namespace LogoStudio.Text

open Number (digitsValue)

lemma span_append {isIn : Char → Bool} {taken rest : List Char} (htaken : ∀ c ∈ taken, isIn c)
    (hrest : ∀ c ∈ rest.head?, isIn c = false) : (taken ++ rest).span isIn = (taken, rest) := by
  rw [List.span_eq_takeWhile_dropWhile, List.takeWhile_append_of_pos htaken,
    List.dropWhile_append_of_pos htaken]
  cases rest with
  | nil => simp
  | cons c rest => simp [hrest c rfl]

lemma hexDigit?_digitChar {n : Nat} (h : n < 16) : hexDigit? (Nat.digitChar n) = some n := by
  revert n
  decide

lemma digitsValue_append (front back : List Char) :
    digitsValue (front ++ back) = digitsValue front * 10 ^ back.length + digitsValue back := by
  change Nat.ofDigitChars 10 (front ++ back) 0 =
    Nat.ofDigitChars 10 front 0 * 10 ^ back.length + Nat.ofDigitChars 10 back 0
  rw [Nat.ofDigitChars_append, Nat.ofDigitChars_eq_ofDigitChars_zero, Nat.mul_comm]

lemma digitsValue_toDigits (n : Nat) : digitsValue (Nat.toDigits 10 n) = n :=
  Nat.ofDigitChars_ten_toDigits

lemma digitsValue_replicate (n : Nat) : digitsValue (List.replicate n '0') = 0 :=
  @Nat.ofDigitChars_replicate_zero 10 0 n

lemma isDigit_of_mem_toDigits {n : Nat} {c : Char} (h : c ∈ Nat.toDigits 10 n) : c.isDigit = true :=
  Nat.isDigit_of_mem_toDigits (by decide) (by decide) h

lemma isDigit_of_mem_replicate {n : Nat} {c : Char} (h : c ∈ List.replicate n '0') :
    c.isDigit = true := by
  rw [List.eq_of_mem_replicate h]
  rfl

/-- The digits of a positive number start with a digit other than zero. -/
lemma toDigits_eq_cons {n : Nat} (h : 0 < n) :
    ∃ c tail, Nat.toDigits 10 n = c :: tail ∧ c ≠ '0' := by
  induction n using Nat.strong_induction_on with
  | _ n ih =>
      by_cases hn : n < 10
      · have hchar : ∀ k < 10, 0 < k → Nat.digitChar k ≠ '0' := by decide
        exact ⟨Nat.digitChar n, [], Nat.toDigits_of_lt_base hn, hchar n hn h⟩
      · obtain ⟨c, tail, hdigits, hc⟩ := ih (n / 10) (by omega) (by omega)
        refine ⟨c, tail ++ [Nat.digitChar (n % 10)], ?_, hc⟩
        rw [Nat.toDigits_of_base_le (by decide) (by omega), hdigits]
        rfl

end LogoStudio.Text
