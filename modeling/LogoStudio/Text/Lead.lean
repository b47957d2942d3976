/-!
# The start of a text
-/
namespace LogoStudio.Text

/-- What follows `lead` in a text that starts with it. -/
def after? : List Char → List Char → Option (List Char)
  | [], text => some text
  | c :: lead, d :: text => if c = d then after? lead text else none
  | _ :: _, [] => none

def startsWith (lead text : List Char) : Bool := (after? lead text).isSome

theorem after?_append (lead text : List Char) : after? lead (lead ++ text) = some text := by
  induction lead with
  | nil => rfl
  | cons c lead ih => simp [after?, ih]

theorem after?_eq_some {lead text rest : List Char} :
    after? lead text = some rest ↔ text = lead ++ rest := by
  induction lead generalizing text with
  | nil => simp [after?]
  | cons c lead ih =>
      cases text with
      | nil => simp [after?]
      | cons d text =>
          by_cases h : c = d
          · simp [after?, h, ih]
          · simp [after?, h, Ne.symm h]

theorem startsWith_iff {lead text : List Char} : startsWith lead text = true ↔ lead <+: text := by
  rw [startsWith, Option.isSome_iff_exists]
  constructor
  · rintro ⟨rest, h⟩
    exact ⟨rest, (after?_eq_some.mp h).symm⟩
  · rintro ⟨rest, rfl⟩
    exact ⟨rest, after?_append lead rest⟩

end LogoStudio.Text
