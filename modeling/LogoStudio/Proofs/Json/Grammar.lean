import LogoStudio.Proofs.Json.RoundTrip

/-!
# The grammar that the reader accepts

The grammar of JSON as rules, one for each way to write a value, with no order of trying
and no look ahead. The reader finds a value exactly where the rules have one: what it takes
from the front of a text is written by the rules, and what is written by the rules is taken
whole, provided that no more of a number follows.
-/
namespace LogoStudio.Json

open Number (digitsValue splitSign)

namespace Raw

def Blank (chars : List Char) : Prop := ∀ c ∈ chars, isSpace c = true

/-- One digit or more. -/
structure Digits (chars : List Char) : Prop where
  ne_nil : chars ≠ []
  isDigit : ∀ c ∈ chars, c.isDigit = true

/-- A point and digits, or nothing. -/
inductive Fraction : List Char → Option (List Char) → Prop
  | absent : Fraction [] none
  | point {digits : List Char} (hdigits : Digits digits) : Fraction ('.' :: digits) (some digits)

/-- A sign that may be missing, and whether it is a minus. -/
inductive Sign : List Char → Bool → Prop
  | absent : Sign [] false
  | plus : Sign ['+'] false
  | minus : Sign ['-'] true

/-- A mark, a sign and digits, or nothing. -/
inductive Exponent : List Char → Option Int → Prop
  | absent : Exponent [] none
  | mark {mark : Char} {sign digits : List Char} {negative : Bool}
      (hmark : mark = 'e' ∨ mark = 'E') (hsign : Sign sign negative) (hdigits : Digits digits) :
      Exponent (mark :: (sign ++ digits))
        (some (if negative then -(digitsValue digits : Int) else digitsValue digits))

/-- A number after its sign. -/
inductive Magnitude (negative : Bool) : List Char → Numeral → Prop
  | mk {whole point power : List Char} {fraction : Option (List Char)} {exponent : Option Int}
      (hwhole : Whole whole) (hfraction : Fraction point fraction)
      (hexponent : Exponent power exponent) :
      Magnitude negative (whole ++ (point ++ power)) ⟨negative, whole, fraction, exponent⟩

/-- The units of a text between its quotes. -/
inductive Units : List Char → List Nat → Prop
  | nil : Units [] []
  | plain {c : Char} {chars : List Char} {units : List Nat} (hcontrol : 0x20 ≤ c.toNat)
      (hquote : c ≠ '"') (hslash : c ≠ '\\') (hunits : Units chars units) :
      Units (c :: chars) (c.toNat :: units)
  | escape {c : Char} {unit : Nat} {chars : List Char} {units : List Nat}
      (hescape : escape? c = some unit) (hunits : Units chars units) :
      Units ('\\' :: c :: chars) (unit :: units)
  | unicode {a b c d : Char} {unit : Nat} {chars : List Char} {units : List Nat}
      (hunit : unit? a b c d = some unit) (hunits : Units chars units) :
      Units ('\\' :: 'u' :: a :: b :: c :: d :: chars) (unit :: units)

def boolWord (b : Bool) : List Char := if b then ['t', 'r', 'u', 'e'] else ['f', 'a', 'l', 's', 'e']

/-- The key of a member, with the blanks around it. -/
inductive Key : List Char → List Nat → Prop
  | mk {lead chars trail : List Char} {units : List Nat} (hlead : Blank lead)
      (hunits : Units chars units) (htrail : Blank trail) :
      Key (lead ++ ('"' :: (chars ++ '"' :: trail))) units

mutual
/-- A value without blanks around it. -/
inductive Value : List Char → Raw → Prop
  | null : Value ['n', 'u', 'l', 'l'] .null
  | bool (b : Bool) : Value (boolWord b) (.bool b)
  | number {negative : Bool} {chars : List Char} {n : Numeral} (h : Magnitude negative chars n) :
      Value ((if negative then ['-'] else []) ++ chars) (.number n)
  | text {chars : List Char} {units : List Nat} (h : Units chars units) :
      Value ('"' :: (chars ++ ['"'])) (.text units)
  | noItems {chars : List Char} (h : Blank chars) : Value ('[' :: (chars ++ [']'])) (.array [])
  | array {chars : List Char} {items : List Raw} (h : Items chars items) :
      Value ('[' :: (chars ++ [']'])) (.array items)
  | noMembers {chars : List Char} (h : Blank chars) :
      Value ('\x7b' :: (chars ++ ['\x7d'])) (.object [])
  | object {chars : List Char} {members : List (List Nat × Raw)} (h : Members chars members) :
      Value ('\x7b' :: (chars ++ ['\x7d'])) (.object members)

/-- A value with the blanks around it. -/
inductive Element : List Char → Raw → Prop
  | mk {lead core trail : List Char} {raw : Raw} (hlead : Blank lead) (hvalue : Value core raw)
      (htrail : Blank trail) : Element (lead ++ (core ++ trail)) raw

/-- The elements of an array that is not empty. -/
inductive Items : List Char → List Raw → Prop
  | last {chars : List Char} {item : Raw} (hitem : Element chars item) : Items chars [item]
  | next {chars rest : List Char} {item : Raw} {items : List Raw} (hitem : Element chars item)
      (hitems : Items rest items) : Items (chars ++ ',' :: rest) (item :: items)

/-- The members of an object that is not empty. -/
inductive Members : List Char → List (List Nat × Raw) → Prop
  | last {name chars : List Char} {key : List Nat} {value : Raw} (hkey : Key name key)
      (hvalue : Element chars value) : Members (name ++ ':' :: chars) [(key, value)]
  | next {name chars rest : List Char} {key : List Nat} {value : Raw}
      {members : List (List Nat × Raw)} (hkey : Key name key) (hvalue : Element chars value)
      (hmembers : Members rest members) :
      Members (name ++ ':' :: (chars ++ ',' :: rest)) ((key, value) :: members)
end

section

variable {blank chars rest : List Char}

lemma exists_blank_skip (chars : List Char) :
    ∃ blank, Blank blank ∧ chars = blank ++ skip chars :=
  ⟨chars.takeWhile isSpace, fun _ hc => List.mem_takeWhile_imp hc,
    List.takeWhile_append_dropWhile.symm⟩

lemma skip_blank (hblank : Blank blank) (chars : List Char) :
    skip (blank ++ chars) = skip chars := List.dropWhile_append_of_pos hblank

/-- What may follow a number: nothing that would be more of it. -/
def Follows (rest : List Char) : Prop :=
  ∀ c ∈ rest.head?, c.isDigit = false ∧ c ≠ '.' ∧ c ≠ 'e' ∧ c ≠ 'E'

lemma follows_blank (hblank : Blank blank) (hrest : Follows rest) : Follows (blank ++ rest) := by
  cases blank with
  | nil => exact hrest
  | cons space blank =>
      intro c hc
      cases hc
      have hspace := hblank space List.mem_cons_self
      simp only [isSpace, Bool.or_eq_true, beq_iff_eq] at hspace
      obtain ((rfl | rfl) | rfl) | rfl := hspace <;> decide

end

section

variable {fuel : Nat} {chars rest : List Char}

lemma digits_of_readDigits? {digits : List Char} (h : readDigits? chars = some (digits, rest)) :
    Digits digits ∧ chars = digits ++ rest := by
  simp only [readDigits?, List.span_eq_takeWhile_dropWhile] at h
  split at h
  · cases h
  · next hne =>
      cases h
      exact ⟨⟨by simpa using hne, fun c hc => List.mem_takeWhile_imp hc⟩,
        List.takeWhile_append_dropWhile.symm⟩

lemma whole_of_readWhole? {whole : List Char} (h : readWhole? chars = some (whole, rest)) :
    Whole whole ∧ chars = whole ++ rest := by
  unfold readWhole? at h
  split at h
  · cases h
    exact ⟨.zero, rfl⟩
  · next hzero =>
      obtain ⟨⟨hne, hdigits⟩, rfl⟩ := digits_of_readDigits? h
      obtain ⟨c, tail, rfl⟩ := List.exists_cons_of_ne_nil hne
      have hlead : c ≠ '0' := fun hc => hzero (tail ++ rest) (by rw [hc]; rfl)
      exact ⟨.digits hlead hdigits, rfl⟩

lemma fraction_of_readFraction? {fraction : Option (List Char)}
    (h : readFraction? chars = some (fraction, rest)) :
    ∃ point, Fraction point fraction ∧ chars = point ++ rest := by
  unfold readFraction? at h
  split at h
  · obtain ⟨⟨digits, _⟩, hread, heq⟩ := Option.map_eq_some_iff.mp h
    cases heq
    obtain ⟨hdigits, rfl⟩ := digits_of_readDigits? hread
    exact ⟨_, .point hdigits, rfl⟩
  · cases h
    exact ⟨[], .absent, rfl⟩

lemma sign_splitSign (chars : List Char) :
    ∃ sign, Sign sign (splitSign chars).1 ∧ chars = sign ++ (splitSign chars).2 := by
  unfold splitSign
  split
  · exact ⟨_, .minus, rfl⟩
  · exact ⟨_, .plus, rfl⟩
  · exact ⟨_, .absent, rfl⟩

lemma exponent_of_readExponent? {exponent : Option Int}
    (h : readExponent? chars = some (exponent, rest)) :
    ∃ power, Exponent power exponent ∧ chars = power ++ rest := by
  unfold readExponent? at h
  split at h
  · next mark tail =>
      split at h
      · next hmark =>
          obtain ⟨sign, hsign, htail⟩ := sign_splitSign tail
          generalize splitSign tail = signed at h hsign htail
          obtain ⟨⟨digits, _⟩, hread, heq⟩ := Option.bind_eq_some_iff.mp h
          cases heq
          obtain ⟨hdigits, hrest⟩ := digits_of_readDigits? hread
          refine ⟨_, .mark (by simpa using hmark) hsign hdigits, ?_⟩
          rw [htail, hrest, List.cons_append, List.append_assoc]
      · cases h
        exact ⟨[], .absent, rfl⟩
  · cases h
    exact ⟨[], .absent, rfl⟩

lemma magnitude_of_readNumeral? {negative : Bool} {n : Numeral}
    (h : readNumeral? negative chars = some (n, rest)) :
    ∃ core, Magnitude negative core n ∧ chars = core ++ rest := by
  obtain ⟨⟨whole, _⟩, hreadWhole, h⟩ := Option.bind_eq_some_iff.mp h
  obtain ⟨⟨fraction, _⟩, hreadFraction, h⟩ := Option.bind_eq_some_iff.mp h
  obtain ⟨⟨exponent, _⟩, hreadExponent, h⟩ := Option.bind_eq_some_iff.mp h
  cases h
  obtain ⟨hwhole, rfl⟩ := whole_of_readWhole? hreadWhole
  obtain ⟨point, hfraction, rfl⟩ := fraction_of_readFraction? hreadFraction
  obtain ⟨power, hexponent, rfl⟩ := exponent_of_readExponent? hreadExponent
  exact ⟨_, .mk hwhole hfraction hexponent, by simp only [List.append_assoc]⟩

lemma units_of_readUnits? {units : List Nat} (h : readUnits? chars = some (units, rest)) :
    ∃ core, Units core units ∧ chars = core ++ '"' :: rest := by
  fun_induction readUnits? chars generalizing units with
  | case1 => cases h
  | case2 rest =>
      cases h
      exact ⟨[], .nil, rfl⟩
  | case3 a b c d tail ih =>
      obtain ⟨unit, hunit, h⟩ := Option.bind_eq_some_iff.mp h
      obtain ⟨⟨units, _⟩, hunits, h⟩ := Option.bind_eq_some_iff.mp h
      cases h
      obtain ⟨core, hcore, rfl⟩ := ih hunits
      exact ⟨_, .unicode hunit hcore, rfl⟩
  | case4 c tail _ ih =>
      obtain ⟨unit, hunit, h⟩ := Option.bind_eq_some_iff.mp h
      obtain ⟨⟨units, _⟩, hunits, h⟩ := Option.bind_eq_some_iff.mp h
      cases h
      obtain ⟨core, hcore, rfl⟩ := ih hunits
      exact ⟨_, .escape hunit hcore, rfl⟩
  | case5 => cases h
  | case6 c tail hquote _ _ hcontrol ih =>
      obtain ⟨⟨units, _⟩, hunits, h⟩ := Option.bind_eq_some_iff.mp h
      cases h
      obtain ⟨core, hcore, rfl⟩ := ih hunits
      rw [not_or, not_lt] at hcontrol
      exact ⟨_, .plain hcontrol.1 hquote hcontrol.2 hcore, rfl⟩

/-- What a value can be read as, after the blanks before it. -/
lemma readValue?_cases {raw : Raw} (h : readValue? (fuel + 1) chars = some (raw, rest)) :
    (∃ core, Value core raw ∧ skip chars = core ++ rest) ∨
    (∃ tail items, skip chars = '[' :: tail ∧ readItems? fuel tail = some (items, rest) ∧
      raw = .array items) ∨
    (∃ tail members, skip chars = '\x7b' :: tail ∧ readMembers? fuel tail = some (members, rest) ∧
      raw = .object members) := by
  rw [readValue?] at h
  split at h
  · next hskip =>
      cases h
      exact .inl ⟨_, .null, hskip⟩
  · next hskip =>
      cases h
      exact .inl ⟨_, .bool true, hskip⟩
  · next hskip =>
      cases h
      exact .inl ⟨_, .bool false, hskip⟩
  · next tail hskip =>
      obtain ⟨⟨units, _⟩, hread, heq⟩ := Option.map_eq_some_iff.mp h
      cases heq
      obtain ⟨core, hunits, rfl⟩ := units_of_readUnits? hread
      exact .inl ⟨_, .text hunits, by simp [hskip]⟩
  · next tail hskip =>
      split at h
      · next hclose =>
          cases h
          obtain ⟨blank, hblank, htail⟩ := exists_blank_skip tail
          exact .inl ⟨_, .noItems hblank, by rw [hskip, htail, hclose]; simp⟩
      · obtain ⟨⟨items, _⟩, hread, heq⟩ := Option.map_eq_some_iff.mp h
        cases heq
        exact .inr (.inl ⟨tail, items, hskip, by rwa [readItems?_skip] at hread, rfl⟩)
  · next tail hskip =>
      split at h
      · next hclose =>
          cases h
          obtain ⟨blank, hblank, htail⟩ := exists_blank_skip tail
          exact .inl ⟨_, .noMembers hblank, by rw [hskip, htail, hclose]; simp⟩
      · obtain ⟨⟨members, _⟩, hread, heq⟩ := Option.map_eq_some_iff.mp h
        cases heq
        exact .inr (.inr ⟨tail, members, hskip, by rwa [readMembers?_skip] at hread, rfl⟩)
  · next tail hskip =>
      obtain ⟨⟨n, _⟩, hread, heq⟩ := Option.map_eq_some_iff.mp h
      cases heq
      obtain ⟨core, hcore, rfl⟩ := magnitude_of_readNumeral? hread
      exact .inl ⟨_, .number hcore, hskip⟩
  · obtain ⟨⟨n, _⟩, hread, heq⟩ := Option.map_eq_some_iff.mp h
    cases heq
    obtain ⟨core, hcore, htail⟩ := magnitude_of_readNumeral? hread
    exact .inl ⟨_, .number hcore, htail⟩

lemma readItems?_cases {items : List Raw}
    (h : readItems? (fuel + 1) chars = some (items, rest)) :
    ∃ item tail, readValue? fuel chars = some (item, tail) ∧
      (skip tail = ']' :: rest ∧ items = [item] ∨
      ∃ more others, skip tail = ',' :: more ∧ readItems? fuel more = some (others, rest) ∧
        items = item :: others) := by
  obtain ⟨⟨item, tail⟩, hread, h⟩ := Option.bind_eq_some_iff.mp (by rwa [readItems?] at h)
  refine ⟨item, tail, hread, ?_⟩
  dsimp only at h
  split at h
  · next more hskip =>
      obtain ⟨⟨others, _⟩, hothers, h⟩ := Option.bind_eq_some_iff.mp h
      cases h
      exact .inr ⟨more, others, hskip, hothers, rfl⟩
  · next hskip =>
      cases h
      exact .inl ⟨hskip, rfl⟩
  · cases h

lemma readMembers?_cases {members : List (List Nat × Raw)}
    (h : readMembers? (fuel + 1) chars = some (members, rest)) :
    ∃ name key after value tail, Key name key ∧ chars = name ++ ':' :: after ∧
      readValue? fuel after = some (value, tail) ∧
      (skip tail = '\x7d' :: rest ∧ members = [(key, value)] ∨
      ∃ more others, skip tail = ',' :: more ∧ readMembers? fuel more = some (others, rest) ∧
        members = (key, value) :: others) := by
  rw [readMembers?] at h
  split at h
  · next opened hopen =>
      obtain ⟨⟨key, closed⟩, hkey, h⟩ := Option.bind_eq_some_iff.mp h
      dsimp only at h
      split at h
      · next after hcolon =>
          obtain ⟨⟨value, tail⟩, hvalue, h⟩ := Option.bind_eq_some_iff.mp h
          obtain ⟨lead, hlead, hchars⟩ := exists_blank_skip chars
          obtain ⟨core, hunits, hopened⟩ := units_of_readUnits? hkey
          obtain ⟨trail, htrail, hclosed⟩ := exists_blank_skip closed
          refine ⟨_, key, after, value, tail, .mk hlead hunits htrail, ?_, hvalue, ?_⟩
          · rw [hchars, hopen, hopened, hclosed, hcolon]
            simp
          dsimp only at h
          split at h
          · next more hskip =>
              obtain ⟨⟨others, _⟩, hothers, h⟩ := Option.bind_eq_some_iff.mp h
              cases h
              exact .inr ⟨more, others, hskip, hothers, rfl⟩
          · next hskip =>
              cases h
              exact .inl ⟨hskip, rfl⟩
          · cases h
      · cases h
  · cases h

end

/-- What the readers take from the front of a text is written by the rules. -/
structure Sound (fuel : Nat) : Prop where
  value : ∀ {chars rest raw}, readValue? fuel chars = some (raw, rest) →
    ∃ lead core, Blank lead ∧ Value core raw ∧ chars = lead ++ (core ++ rest)
  items : ∀ {chars rest items}, readItems? fuel chars = some (items, rest) →
    ∃ core, Items core items ∧ chars = core ++ ']' :: rest
  members : ∀ {chars rest members}, readMembers? fuel chars = some (members, rest) →
    ∃ core, Members core members ∧ chars = core ++ '\x7d' :: rest

/-- A value is an element up to the mark after the blanks that follow it. -/
lemma element_of_readValue? {fuel : Nat} {chars tail rest : List Char} {raw : Raw} {mark : Char}
    (hsound : Sound fuel) (h : readValue? fuel chars = some (raw, tail))
    (hskip : skip tail = mark :: rest) :
    ∃ core, Element core raw ∧ chars = core ++ mark :: rest := by
  obtain ⟨lead, core, hlead, hvalue, rfl⟩ := hsound.value h
  obtain ⟨trail, htrail, htail⟩ := exists_blank_skip tail
  refine ⟨_, .mk hlead hvalue htrail, ?_⟩
  rw [htail, hskip]
  simp only [List.append_assoc]

/-- The readers are sound together: each calls the others with less fuel. -/
lemma sound (fuel : Nat) : Sound fuel := by
  induction fuel with
  | zero =>
      refine ⟨fun h => ?_, fun h => ?_, fun h => ?_⟩
      · rw [readValue?] at h
        cases h
      · rw [readItems?] at h
        cases h
      · rw [readMembers?] at h
        cases h
  | succ fuel ih =>
      refine ⟨fun {chars _ _} h => ?_, fun h => ?_, fun h => ?_⟩
      · obtain ⟨lead, hlead, hchars⟩ := exists_blank_skip chars
        rw [hchars]
        obtain ⟨core, hvalue, hskip⟩ | ⟨tail, items, hskip, hread, rfl⟩ |
          ⟨tail, members, hskip, hread, rfl⟩ := readValue?_cases h
        · exact ⟨lead, core, hlead, hvalue, by rw [hskip]⟩
        · obtain ⟨core, hitems, rfl⟩ := ih.items hread
          exact ⟨lead, _, hlead, .array hitems, by simp [hskip]⟩
        · obtain ⟨core, hmembers, rfl⟩ := ih.members hread
          exact ⟨lead, _, hlead, .object hmembers, by simp [hskip]⟩
      · obtain ⟨item, tail, hitem, ⟨hskip, rfl⟩ | ⟨more, others, hskip, hothers, rfl⟩⟩ :=
          readItems?_cases h
        · obtain ⟨core, helement, rfl⟩ := element_of_readValue? ih hitem hskip
          exact ⟨core, .last helement, rfl⟩
        · obtain ⟨core, helement, rfl⟩ := element_of_readValue? ih hitem hskip
          obtain ⟨others, hitems, rfl⟩ := ih.items hothers
          exact ⟨_, .next helement hitems, by simp⟩
      · obtain ⟨name, key, after, value, tail, hkey, rfl, hvalue,
          ⟨hskip, rfl⟩ | ⟨more, others, hskip, hothers, rfl⟩⟩ := readMembers?_cases h
        · obtain ⟨core, helement, rfl⟩ := element_of_readValue? ih hvalue hskip
          exact ⟨_, .last hkey helement, by simp⟩
        · obtain ⟨core, helement, rfl⟩ := element_of_readValue? ih hvalue hskip
          obtain ⟨others, hmembers, rfl⟩ := ih.members hothers
          exact ⟨_, .next hkey helement hmembers, by simp⟩

section

variable {chars rest : List Char}

lemma Fraction.read {point : List Char} {fraction : Option (List Char)}
    (h : Fraction point fraction) (hrest : ∀ c ∈ rest.head?, c.isDigit = false ∧ c ≠ '.') :
    readFraction? (point ++ rest) = some (fraction, rest) := by
  cases h with
  | absent => exact readFraction?_none fun c hc => (hrest c hc).2
  | point hdigits =>
      exact readFraction?_point hdigits.ne_nil hdigits.isDigit fun c hc => (hrest c hc).1

lemma splitSign_append {sign digits : List Char} {negative : Bool} (hsign : Sign sign negative)
    (hdigits : Digits digits) (rest : List Char) :
    splitSign (sign ++ (digits ++ rest)) = (negative, digits ++ rest) := by
  cases hsign with
  | plus => rfl
  | minus => rfl
  | absent =>
      obtain ⟨c, tail, rfl⟩ := List.exists_cons_of_ne_nil hdigits.ne_nil
      have hc : c.isDigit = true := hdigits.isDigit c List.mem_cons_self
      unfold splitSign
      split
      · next heq =>
          obtain ⟨rfl, -⟩ := List.cons.inj heq
          cases hc
      · next heq =>
          obtain ⟨rfl, -⟩ := List.cons.inj heq
          cases hc
      · rfl

lemma Exponent.read {power : List Char} {exponent : Option Int} (h : Exponent power exponent)
    (hrest : Follows rest) : readExponent? (power ++ rest) = some (exponent, rest) := by
  cases h with
  | absent => exact readExponent?_none fun c hc => (hrest c hc).2.2
  | @mark mark sign digits negative hmark hsign hdigits =>
      have hread : readDigits? (digits ++ rest) = some (digits, rest) :=
        readDigits?_append hdigits.ne_nil hdigits.isDigit fun c hc => (hrest c hc).1
      have hmark' : (mark == 'e' || mark == 'E') = true := by simpa using hmark
      rw [List.cons_append, List.append_assoc, readExponent?, if_pos hmark',
        splitSign_append hsign hdigits]
      dsimp only
      rw [hread]
      rfl

/-- Neither the exponent nor what follows it starts as a fraction does. -/
lemma Exponent.head {power : List Char} {exponent : Option Int} (h : Exponent power exponent)
    (hrest : Follows rest) (c : Char) (hc : c ∈ (power ++ rest).head?) :
    c.isDigit = false ∧ c ≠ '.' := by
  cases h with
  | absent => exact ⟨(hrest c hc).1, (hrest c hc).2.1⟩
  | mark hmark =>
      cases hc
      obtain rfl | rfl := hmark <;> decide

lemma Fraction.head {point : List Char} {fraction : Option (List Char)}
    (h : Fraction point fraction) (hrest : ∀ c ∈ rest.head?, c.isDigit = false) (c : Char)
    (hc : c ∈ (point ++ rest).head?) : c.isDigit = false := by
  cases h with
  | absent => exact hrest c hc
  | point hdigits =>
      cases hc
      rfl

lemma Magnitude.read {negative : Bool} {n : Numeral} (h : Magnitude negative chars n)
    (hrest : Follows rest) : readNumeral? negative (chars ++ rest) = some (n, rest) := by
  obtain ⟨hwhole, hfraction, hexponent⟩ := h
  have hhead := hexponent.head hrest
  rw [readNumeral?, List.append_assoc, List.append_assoc,
    readWhole?_append hwhole (hfraction.head fun c hc => (hhead c hc).1)]
  simp only [Option.bind_eq_bind, Option.bind_some]
  rw [hfraction.read hhead]
  simp only [Option.bind_some]
  rw [hexponent.read hrest]
  rfl

lemma Units.read {units : List Nat} (h : Units chars units) (rest : List Char) :
    readUnits? (chars ++ '"' :: rest) = some (units, rest) := by
  induction h with
  | nil => rfl
  | plain hcontrol hquote hslash _ ih =>
      rw [List.cons_append, readUnits?_plain (not_lt.mpr hcontrol) hquote hslash, ih]
      rfl
  | escape hescape _ ih =>
      rw [List.cons_append, List.cons_append, readUnits?_escape hescape, ih]
      rfl
  | unicode hunit _ ih =>
      simp only [List.cons_append]
      rw [readUnits?, hunit, ih]
      rfl

lemma skip_blank_cons {blank : List Char} {c : Char} (hblank : Blank blank) (hc : isSpace c = false)
    (rest : List Char) : skip (blank ++ c :: rest) = c :: rest := by
  rw [skip_blank hblank, skip, List.dropWhile_cons_of_neg (by simp [hc])]

variable {fuel : Nat} {chars rest more trail : List Char} {item : Raw}

lemma readItems?_last (hitem : readValue? fuel chars = some (item, trail ++ ']' :: rest))
    (htrail : Blank trail) : readItems? (fuel + 1) chars = some ([item], rest) := by
  rw [readItems?, hitem]
  simp only [Option.bind_eq_bind, Option.bind_some, skip_blank_cons htrail (c := ']') rfl]
  rfl

lemma readItems?_next {items : List Raw}
    (hitem : readValue? fuel chars = some (item, trail ++ ',' :: more)) (htrail : Blank trail)
    (hitems : readItems? fuel more = some (items, rest)) :
    readItems? (fuel + 1) chars = some (item :: items, rest) := by
  rw [readItems?, hitem]
  simp only [Option.bind_eq_bind, Option.bind_some, skip_blank_cons htrail (c := ',') rfl, hitems]
  rfl

variable {name after : List Char} {key : List Nat} {value : Raw}

lemma readMembers?_last (hkey : Key name key)
    (hvalue : readValue? fuel after = some (value, trail ++ '\x7d' :: rest))
    (htrail : Blank trail) :
    readMembers? (fuel + 1) (name ++ ':' :: after) = some ([(key, value)], rest) := by
  obtain ⟨hlead, hunits, hgap⟩ := hkey
  simp only [readMembers?, List.append_assoc, List.cons_append, hunits.read,
    skip_blank_cons hlead (c := '"') rfl, skip_blank_cons hgap (c := ':') rfl,
    skip_blank_cons htrail (c := '\x7d') rfl, hvalue, Option.bind_eq_bind, Option.bind_some]
  rfl

lemma readMembers?_next {members : List (List Nat × Raw)} (hkey : Key name key)
    (hvalue : readValue? fuel after = some (value, trail ++ ',' :: more)) (htrail : Blank trail)
    (hmembers : readMembers? fuel more = some (members, rest)) :
    readMembers? (fuel + 1) (name ++ ':' :: after) = some ((key, value) :: members, rest) := by
  obtain ⟨hlead, hunits, hgap⟩ := hkey
  simp only [readMembers?, List.append_assoc, List.cons_append, hunits.read,
    skip_blank_cons hlead (c := '"') rfl, skip_blank_cons hgap (c := ':') rfl,
    skip_blank_cons htrail (c := ',') rfl, hvalue, hmembers, Option.bind_eq_bind, Option.bind_some]
  rfl

end

mutual

/-- A value is read whole. -/
theorem Value.read {core rest : List Char} {raw : Raw} {fuel : Nat} (h : Value core raw)
    (hfuel : core.length < fuel) (hrest : Follows rest) :
    readValue? fuel (core ++ rest) = some (raw, rest) := by
  obtain ⟨fuel, rfl⟩ : ∃ n, fuel = n + 1 := ⟨fuel - 1, by omega⟩
  cases h with
  | null => rfl
  | bool b => cases b <;> rfl
  | number h =>
      rw [List.append_assoc]
      exact readValue?_numeral (h.read hrest) fuel
  | text h =>
      rw [List.cons_append, List.append_assoc]
      change (readUnits? _).map _ = _
      rw [List.singleton_append, h.read]
      rfl
  | noItems h =>
      have hopen (chars : List Char) : skip ('[' :: chars) = '[' :: chars := rfl
      simp only [List.cons_append, List.append_assoc, List.nil_append, readValue?, hopen,
        skip_blank_cons h (c := ']') rfl]
  | array h =>
      rw [List.cons_append, List.append_assoc]
      rw [List.length_cons, List.length_append, List.length_singleton] at hfuel
      exact readValue?_array (h.read (by omega))
  | noMembers h =>
      have hopen (chars : List Char) : skip ('\x7b' :: chars) = '\x7b' :: chars := rfl
      simp only [List.cons_append, List.append_assoc, List.nil_append, readValue?, hopen,
        skip_blank_cons h (c := '\x7d') rfl]
  | object h =>
      rw [List.cons_append, List.append_assoc]
      rw [List.length_cons, List.length_append, List.length_singleton] at hfuel
      exact readValue?_object (h.read (by omega))
termination_by 2 * fuel

/-- An element is read up to the blanks after its value. -/
theorem Element.read {core rest : List Char} {raw : Raw} {fuel : Nat} (h : Element core raw)
    (hfuel : core.length < fuel) (hrest : Follows rest) :
    ∃ trail, readValue? fuel (core ++ rest) = some (raw, trail ++ rest) ∧ Blank trail := by
  cases h with
  | @mk lead core trail _ hlead hvalue htrail =>
      refine ⟨trail, ?_, htrail⟩
      rw [List.length_append, List.length_append] at hfuel
      rw [← readValue?_skip, List.append_assoc, skip_blank hlead, readValue?_skip,
        List.append_assoc]
      exact hvalue.read (by omega) (follows_blank htrail hrest)
termination_by 2 * fuel + 1

/-- The elements of an array are read up to its bracket. -/
theorem Items.read {core rest : List Char} {items : List Raw} {fuel : Nat} (h : Items core items)
    (hfuel : core.length + 1 < fuel) :
    readItems? fuel (core ++ ']' :: rest) = some (items, rest) := by
  obtain ⟨fuel, rfl⟩ : ∃ n, fuel = n + 1 := ⟨fuel - 1, by omega⟩
  cases h with
  | last hitem =>
      have hclose : Follows (']' :: rest) := Ends.not_in_number (by simp [Ends])
      obtain ⟨trail, hread, htrail⟩ := hitem.read (show _ < fuel by omega) hclose
      exact readItems?_last hread htrail
  | @next chars more item items hitem hitems =>
      rw [List.length_append, List.length_cons] at hfuel
      rw [List.append_assoc, List.cons_append]
      have hcomma : Follows (',' :: (more ++ ']' :: rest)) := Ends.not_in_number (by simp [Ends])
      obtain ⟨trail, hread, htrail⟩ := hitem.read (show _ < fuel by omega) hcomma
      exact readItems?_next hread htrail (hitems.read (by omega))
termination_by 2 * fuel

/-- The members of an object are read up to its brace. -/
theorem Members.read {core rest : List Char} {members : List (List Nat × Raw)} {fuel : Nat}
    (h : Members core members) (hfuel : core.length + 1 < fuel) :
    readMembers? fuel (core ++ '\x7d' :: rest) = some (members, rest) := by
  obtain ⟨fuel, rfl⟩ : ∃ n, fuel = n + 1 := ⟨fuel - 1, by omega⟩
  cases h with
  | last hkey hvalue =>
      rw [List.length_append, List.length_cons] at hfuel
      rw [List.append_assoc, List.cons_append]
      have hclose : Follows ('\x7d' :: rest) := Ends.not_in_number (by simp [Ends])
      obtain ⟨trail, hread, htrail⟩ := hvalue.read (show _ < fuel by omega) hclose
      exact readMembers?_last hkey hread htrail
  | @next name chars more key value members hkey hvalue hmembers =>
      rw [List.length_append, List.length_cons, List.length_append, List.length_cons] at hfuel
      simp only [List.append_assoc, List.cons_append]
      have hcomma : Follows (',' :: (more ++ '\x7d' :: rest)) :=
        Ends.not_in_number (by simp [Ends])
      obtain ⟨trail, hread, htrail⟩ := hvalue.read (show _ < fuel by omega) hcomma
      exact readMembers?_next hkey hread htrail (hmembers.read (by omega))
termination_by 2 * fuel

end

/-- A whole text is read as a value exactly when the rules write the value with that text. -/
theorem read?_eq_some_iff {text : List Char} {raw : Raw} :
    read? text = some raw ↔ Element text raw := by
  constructor
  · intro h
    unfold read? at h
    split at h
    · next value rest hread =>
        split at h
        · next hempty =>
            cases h
            obtain ⟨lead, core, hlead, hvalue, rfl⟩ := (sound _).value hread
            obtain ⟨trail, htrail, hrest⟩ := exists_blank_skip rest
            rw [List.isEmpty_iff.mp hempty, List.append_nil] at hrest
            rw [hrest]
            exact .mk hlead hvalue htrail
        · cases h
    · cases h
  · intro h
    obtain ⟨trail, hread, htrail⟩ :=
      h.read (show text.length < 2 * text.length + 2 by omega) (show Follows [] by simp [Follows])
    rw [List.append_nil] at hread
    rw [read?, hread]
    simp only [skip_blank htrail]
    rfl

end Raw

/-- The text spells the value: the rules write it, and no part of it is past what a value
can hold. -/
def Spelt (text : String) (j : Json) : Prop :=
  ∃ raw, Raw.Element text.toList raw ∧ ofRaw? maxDepth raw = some j

lemma parse?_eq_some_iff {text : String} {j : Json} : parse? text = some j ↔ Spelt text j := by
  rw [parse?, Option.bind_eq_some_iff]
  exact exists_congr fun raw => and_congr_left fun _ => Raw.read?_eq_some_iff

lemma ofRaw?_eq_bool {depth : Nat} {raw : Raw} {b : Bool} (h : ofRaw? depth raw = some (.bool b)) :
    raw = .bool b := by
  cases raw with
  | null => cases h
  | bool =>
      cases h
      rfl
  | number n =>
      rw [ofRaw?, Numeral.value?] at h
      grind
  | text units => simp [ofRaw?] at h
  | array items => simp [ofRaw?] at h
  | object members => simp [ofRaw?] at h

/-- Only its word spells a boolean. -/
theorem spelt_bool_iff {text : String} {b : Bool} :
    Spelt text (.bool b) ↔
      ∃ lead trail, Raw.Blank lead ∧ Raw.Blank trail ∧
        text.toList = lead ++ (Raw.boolWord b ++ trail) := by
  constructor
  · rintro ⟨raw, hraw, hvalue⟩
    cases ofRaw?_eq_bool hvalue
    generalize text.toList = chars at hraw
    obtain ⟨hlead, hvalue, htrail⟩ := hraw
    cases hvalue
    exact ⟨_, _, hlead, htrail, rfl⟩
  · rintro ⟨lead, trail, hlead, htrail, htext⟩
    exact ⟨.bool b, htext ▸ .mk hlead (.bool b) htrail, rfl⟩

end LogoStudio.Json
