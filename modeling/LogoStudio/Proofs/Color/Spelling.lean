import LogoStudio.Event.Record
import LogoStudio.Proofs.Text.Digits

/-!
# The spelling of a pixel

A pixel is spelt by its channels, two characters for each, and a mark may stand before them.
Here a channel is a byte that two hexadecimal digits stand for, by their places among the
sixteen digits. The reader of pixels takes one more kind of pair, a plus sign and a digit.
Apart from that it takes exactly the texts of three or four pairs of digits, and it finds the
pixel that they spell.
-/
namespace LogoStudio.Pixel

/-- A hexadecimal digit of either case. -/
def IsDigit (c : Char) : Prop :=
  ('0' ≤ c ∧ c ≤ '9') ∨ ('a' ≤ c ∧ c ≤ 'f') ∨ ('A' ≤ c ∧ c ≤ 'F')

/-- The place of a digit among the sixteen digits. -/
def digitValue (c : Char) : Nat := "0123456789abcdef".toList.idxOf c.toLower

/-- Two digits that spell a byte. -/
def DigitPair (high low : Char) (b : UInt8) : Prop :=
  IsDigit high ∧ IsDigit low ∧ b.toNat = 16 * digitValue high + digitValue low

/-- A plus sign and a digit that spell a byte. -/
def SignedPair (high low : Char) (b : UInt8) : Prop :=
  high = '+' ∧ IsDigit low ∧ b.toNat = digitValue low

/-- A pair of either kind. -/
def Pair (high low : Char) (b : UInt8) : Prop := DigitPair high low b ∨ SignedPair high low b

lemma toNat_lt_of_isDigit {c : Char} (h : IsDigit c) : c.toNat < 128 := by
  have hle {d : Char} (hd : c ≤ d) : c.toNat ≤ d.toNat := hd
  obtain ⟨-, h⟩ | ⟨-, h⟩ | ⟨-, h⟩ := h <;> exact (hle h).trans_lt (by decide)

lemma hexDigit?_of_isDigit {c : Char} (h : IsDigit c) :
    Text.hexDigit? c = some (digitValue c) ∧ digitValue c < 16 := by
  have hall : ∀ n < 128, IsDigit (Char.ofNat n) → Text.hexDigit? (Char.ofNat n) =
      some (digitValue (Char.ofNat n)) ∧ digitValue (Char.ofNat n) < 16 := by
    unfold IsDigit
    decide +kernel
  have hc := hall c.toNat (toNat_lt_of_isDigit h)
  rw [Char.ofNat_toNat] at hc
  exact hc h

lemma isDigit_of_hexDigit? {c : Char} {n : Nat} (h : Text.hexDigit? c = some n) : IsDigit c := by
  unfold Text.hexDigit? at h
  split at h
  · next hdecimal => exact .inl hdecimal
  split at h
  · next hlower => exact .inr (.inl hlower)
  split at h
  · next hupper => exact .inr (.inr hupper)
  · cases h

lemma hexDigit?_eq_some {c : Char} {n : Nat} :
    Text.hexDigit? c = some n ↔ IsDigit c ∧ digitValue c = n := by
  constructor
  · intro h
    have hdigit := isDigit_of_hexDigit? h
    rw [(hexDigit?_of_isDigit hdigit).1] at h
    exact ⟨hdigit, Option.some.inj h⟩
  · rintro ⟨hdigit, rfl⟩
    exact (hexDigit?_of_isDigit hdigit).1

lemma not_isDigit_plus : ¬IsDigit '+' := by
  unfold IsDigit
  decide

lemma ofNat_eq_iff {n : Nat} (h : n < 256) {b : UInt8} : UInt8.ofNat n = b ↔ b.toNat = n := by
  constructor
  · rintro rfl
    exact UInt8.toNat_ofNat_of_lt' h
  · rintro rfl
    exact UInt8.ofNat_toNat

/-- The reader of pairs takes the pairs of both kinds. -/
lemma pair?_eq_some {high low : Char} {b : UInt8} : pair? high low = some b ↔ Pair high low b := by
  by_cases hplus : high = '+'
  · have hpair : Pair high low b ↔ IsDigit low ∧ b.toNat = digitValue low := by
      simp [Pair, DigitPair, SignedPair, hplus, not_isDigit_plus]
    rw [pair?, if_pos hplus, hpair, Option.map_eq_some_iff]
    constructor
    · rintro ⟨n, hn, hb⟩
      obtain ⟨hlow, rfl⟩ := hexDigit?_eq_some.mp hn
      have hlt := (hexDigit?_of_isDigit hlow).2
      exact ⟨hlow, (ofNat_eq_iff (by omega)).mp hb⟩
    · rintro ⟨hlow, hb⟩
      obtain ⟨hn, hlt⟩ := hexDigit?_of_isDigit hlow
      exact ⟨_, hn, (ofNat_eq_iff (by omega)).mpr hb⟩
  · have hpair : Pair high low b ↔ DigitPair high low b := by
      simp [Pair, SignedPair, hplus]
    rw [pair?, if_neg hplus, hpair]
    constructor
    · intro h
      obtain ⟨m, hm, h⟩ := Option.bind_eq_some_iff.mp h
      obtain ⟨n, hn, h⟩ := Option.bind_eq_some_iff.mp h
      obtain ⟨hhigh, rfl⟩ := hexDigit?_eq_some.mp hm
      obtain ⟨hlow, rfl⟩ := hexDigit?_eq_some.mp hn
      have hlt := (hexDigit?_of_isDigit hhigh).2
      have hlt' := (hexDigit?_of_isDigit hlow).2
      exact ⟨hhigh, hlow, (ofNat_eq_iff (by omega)).mp (Option.some.inj h)⟩
    · rintro ⟨hhigh, hlow, hb⟩
      obtain ⟨hm, hlt⟩ := hexDigit?_of_isDigit hhigh
      obtain ⟨hn, hlt'⟩ := hexDigit?_of_isDigit hlow
      rw [hm, hn]
      exact congrArg some ((ofNat_eq_iff (by omega)).mpr hb)

/-- Characters that spell some bytes, a pair for each. -/
def Spells (pair : Char → Char → UInt8 → Prop) : List Char → List UInt8 → Prop
  | [], [] => True
  | high :: low :: rest, b :: bytes => pair high low b ∧ Spells pair rest bytes
  | _, _ => False

/-- A text that spells a pixel, with or without a leading `#`, by all its channels or by all but
its opacity, which is full then. -/
def WrittenIn (pair : Char → Char → UInt8 → Prop) (text : List Char) (p : Pixel) : Prop :=
  ∃ digits, (text = '#' :: digits ∨ text = digits) ∧
    (Spells pair digits [p.r, p.g, p.b, p.a] ∨ Spells pair digits [p.r, p.g, p.b] ∧ p.a = 255)

section

variable {pair pair' : Char → Char → UInt8 → Prop} {digits : List Char} {bytes : List UInt8}

lemma spells_mono (h : Spells pair digits bytes)
    (hpair : ∀ high ∈ digits, ∀ low ∈ digits, ∀ b, pair high low b → pair' high low b) :
    Spells pair' digits bytes := by
  induction digits, bytes using Spells.induct with
  | case1 => trivial
  | case2 high low rest b bytes ih =>
      refine ⟨hpair high (by simp) low (by simp) b h.1, ih h.2 fun high hhigh low hlow => ?_⟩
      exact hpair high (by simp [hhigh]) low (by simp [hlow])
  | case3 digits bytes hnil hcons => simp [Spells] at h

lemma spells_nil : Spells pair digits [] ↔ digits = [] := by
  constructor
  · intro h
    unfold Spells at h
    split at h
    · rfl
    · next heq => cases heq
    · exact h.elim
  · rintro rfl
    trivial

lemma spells_cons {b : UInt8} : Spells pair digits (b :: bytes) ↔
    ∃ high low rest, digits = high :: low :: rest ∧ pair high low b ∧ Spells pair rest bytes := by
  constructor
  · intro h
    unfold Spells at h
    split at h
    · next heq => cases heq
    · next high low rest _ _ heq =>
        cases heq
        exact ⟨high, low, rest, rfl, h⟩
    · exact h.elim
  · rintro ⟨high, low, rest, rfl, h⟩
    exact h

/-- Pairs of digits spell some bytes exactly if there are twice as many digits. -/
lemma exists_spells_iff (n : Nat) :
    (∃ bytes, bytes.length = n ∧ Spells DigitPair digits bytes) ↔
      digits.length = 2 * n ∧ ∀ c ∈ digits, IsDigit c := by
  constructor
  · rintro ⟨bytes, rfl, h⟩
    induction bytes generalizing digits with
    | nil =>
        obtain rfl := spells_nil.mp h
        simp
    | cons b bytes ih =>
        obtain ⟨high, low, rest, rfl, ⟨hhigh, hlow, -⟩, hrest⟩ := spells_cons.mp h
        obtain ⟨hlength, hdigits⟩ := ih hrest
        refine ⟨by simp only [List.length_cons]; omega, ?_⟩
        exact List.forall_mem_cons.mpr ⟨hhigh, List.forall_mem_cons.mpr ⟨hlow, hdigits⟩⟩
  · rintro ⟨hlength, hdigits⟩
    induction n generalizing digits with
    | zero =>
        obtain rfl := List.eq_nil_of_length_eq_zero hlength
        exact ⟨[], rfl, trivial⟩
    | succ n ih =>
        obtain ⟨high, tail, rfl⟩ := List.exists_cons_of_length_eq_add_one hlength
        obtain ⟨low, rest, rfl⟩ :=
          List.exists_cons_of_length_eq_add_one (Nat.succ.inj hlength)
        obtain ⟨hhigh, hrest⟩ := List.forall_mem_cons.mp hdigits
        obtain ⟨hlow, hrest⟩ := List.forall_mem_cons.mp hrest
        simp only [List.length_cons] at hlength
        obtain ⟨bytes, hbytes, hspells⟩ := ih (by omega) hrest
        have hlt := (hexDigit?_of_isDigit hhigh).2
        have hlt' := (hexDigit?_of_isDigit hlow).2
        refine ⟨UInt8.ofNat (16 * digitValue high + digitValue low) :: bytes, by simp [hbytes],
          ⟨hhigh, hlow, ?_⟩, hspells⟩
        exact (ofNat_eq_iff (by omega)).mp rfl

end

/-- The reader takes three or four pairs. -/
lemma ofDigits?_eq_some {digits : List Char} {p : Pixel} :
    ofDigits? digits = some p ↔
      Spells Pair digits [p.r, p.g, p.b, p.a] ∨ Spells Pair digits [p.r, p.g, p.b] ∧ p.a = 255 := by
  constructor
  · intro h
    unfold ofDigits? at h
    split at h
    · obtain ⟨r, hr, h⟩ := Option.bind_eq_some_iff.mp h
      obtain ⟨g, hg, h⟩ := Option.bind_eq_some_iff.mp h
      obtain ⟨b, hb, h⟩ := Option.bind_eq_some_iff.mp h
      cases h
      exact .inr ⟨⟨pair?_eq_some.mp hr, pair?_eq_some.mp hg, pair?_eq_some.mp hb, trivial⟩, rfl⟩
    · obtain ⟨r, hr, h⟩ := Option.bind_eq_some_iff.mp h
      obtain ⟨g, hg, h⟩ := Option.bind_eq_some_iff.mp h
      obtain ⟨b, hb, h⟩ := Option.bind_eq_some_iff.mp h
      obtain ⟨a, ha, h⟩ := Option.bind_eq_some_iff.mp h
      cases h
      exact .inl ⟨pair?_eq_some.mp hr, pair?_eq_some.mp hg, pair?_eq_some.mp hb,
        pair?_eq_some.mp ha, trivial⟩
    · cases h
  · intro h
    have hopacityLast : ∃ bytes, Spells Pair digits (p.r :: p.g :: p.b :: bytes) ∧
        (bytes = [p.a] ∨ bytes = [] ∧ p.a = 255) := by
      obtain h | ⟨h, ha⟩ := h
      · exact ⟨[p.a], h, .inl rfl⟩
      · exact ⟨[], h, .inr ⟨rfl, ha⟩⟩
    obtain ⟨bytes, h, hbytes⟩ := hopacityLast
    obtain ⟨r, r', rest, rfl, hr, h⟩ := spells_cons.mp h
    obtain ⟨g, g', rest, rfl, hg, h⟩ := spells_cons.mp h
    obtain ⟨b, b', rest, rfl, hb, h⟩ := spells_cons.mp h
    rw [← pair?_eq_some] at hr hg hb
    obtain rfl | ⟨rfl, ha⟩ := hbytes
    · obtain ⟨a, a', rest, rfl, ha, h⟩ := spells_cons.mp h
      obtain rfl := spells_nil.mp h
      rw [← pair?_eq_some] at ha
      simp [ofDigits?, hr, hg, hb, ha]
    · obtain rfl := spells_nil.mp h
      simp [ofDigits?, hr, hg, hb, ← ha]

/-- Only digits and plus signs stand in pairs. -/
lemma mem_of_spells {digits : List Char} {bytes : List UInt8} (h : Spells Pair digits bytes) :
    ∀ c ∈ digits, IsDigit c ∨ c = '+' := by
  induction bytes generalizing digits with
  | nil =>
      obtain rfl := spells_nil.mp h
      exact List.forall_mem_nil _
  | cons b bytes ih =>
      obtain ⟨high, low, rest, rfl, hpair, hrest⟩ := spells_cons.mp h
      refine List.forall_mem_cons.mpr ⟨?_, List.forall_mem_cons.mpr ⟨?_, ih hrest⟩⟩
      · exact hpair.elim (fun hdigits => .inl hdigits.1) (fun hsigned => .inr hsigned.1)
      · exact hpair.elim (fun hdigits => .inl hdigits.2.1) (fun hsigned => .inl hsigned.2.1)

lemma not_spells_mark {digits : List Char} {bytes : List UInt8} :
    ¬Spells Pair ('#' :: digits) bytes := by
  intro h
  have hmark : ¬(IsDigit '#' ∨ '#' = '+') := by
    unfold IsDigit
    decide
  exact hmark (mem_of_spells h '#' List.mem_cons_self)

/-- The reader of pixels takes the texts of three or four pairs, and finds what they spell. -/
lemma ofHex?_eq_some {text : String} {p : Pixel} :
    ofHex? text = some p ↔ WrittenIn Pair text.toList p := by
  unfold ofHex? WrittenIn
  split
  · next digits htext =>
      rw [ofDigits?_eq_some]
      constructor
      · exact fun h => ⟨digits, .inl htext, h⟩
      · rintro ⟨digits', hmark | hplain, h⟩
        · cases htext.symm.trans hmark
          exact h
        · cases htext.symm.trans hplain
          exact h.elim (fun h => (not_spells_mark h).elim) fun h => (not_spells_mark h.1).elim
  · next hplain =>
      rw [ofDigits?_eq_some]
      constructor
      · exact fun h => ⟨text.toList, .inr rfl, h⟩
      · rintro ⟨digits, hmark | rfl, h⟩
        · exact (hplain digits hmark).elim
        · exact h

/-- A text that spells a pixel has no character outside ASCII. -/
lemma toNat_lt_of_writtenIn {text : List Char} {p : Pixel} (h : WrittenIn Pair text p) :
    ∀ c ∈ text, c.toNat < 128 := by
  obtain ⟨digits, htext, h⟩ := h
  have hdigits : ∀ c ∈ digits, c.toNat < 128 := by
    intro c hc
    obtain hdigit | rfl := h.elim (mem_of_spells · c hc) (mem_of_spells ·.1 c hc)
    · exact toNat_lt_of_isDigit hdigit
    · decide
  obtain rfl | rfl := htext
  · exact List.forall_mem_cons.mpr ⟨by decide, hdigits⟩
  · exact hdigits

/-- Without a plus sign all pairs are pairs of digits. -/
lemma writtenIn_of_no_plus {text : List Char} (hplus : '+' ∉ text) {p : Pixel} :
    WrittenIn Pair text p ↔ WrittenIn DigitPair text p := by
  have hstrict {digits : List Char} (hdigits : ∀ c ∈ digits, c ∈ text) (bytes : List UInt8) :
      Spells Pair digits bytes ↔ Spells DigitPair digits bytes := by
    refine ⟨fun h => spells_mono h ?_, fun h => spells_mono h fun _ _ _ _ _ => .inl⟩
    intro high hhigh low _ b hpair
    refine hpair.resolve_right fun hsigned => hplus ?_
    rw [← hsigned.1]
    exact hdigits high hhigh
  refine exists_congr fun digits => and_congr_right fun htext => ?_
  have hdigits : ∀ c ∈ digits, c ∈ text := by
    obtain rfl | rfl := htext
    · exact fun c hc => List.mem_cons_of_mem _ hc
    · exact fun c hc => hc
  rw [hstrict hdigits, hstrict hdigits]

/-- The texts of digits that spell a pixel have six or eight of them. -/
lemma exists_writtenIn_iff {text : List Char} :
    (∃ p, WrittenIn DigitPair text p) ↔
      ∃ digits, (text = '#' :: digits ∨ text = digits) ∧
        (digits.length = 6 ∨ digits.length = 8) ∧ ∀ c ∈ digits, IsDigit c := by
  constructor
  · rintro ⟨p, digits, htext, h | ⟨h, -⟩⟩
    · obtain ⟨hlength, hdigits⟩ := (exists_spells_iff 4).mp ⟨_, rfl, h⟩
      exact ⟨digits, htext, .inr hlength, hdigits⟩
    · obtain ⟨hlength, hdigits⟩ := (exists_spells_iff 3).mp ⟨_, rfl, h⟩
      exact ⟨digits, htext, .inl hlength, hdigits⟩
  · rintro ⟨digits, htext, hlength | hlength, hdigits⟩
    · obtain ⟨bytes, hbytes, h⟩ := (exists_spells_iff 3).mpr ⟨hlength, hdigits⟩
      obtain ⟨r, g, b, rfl⟩ := List.length_eq_three.mp hbytes
      exact ⟨⟨r, g, b, 255⟩, digits, htext, .inr ⟨h, rfl⟩⟩
    · obtain ⟨bytes, hbytes, h⟩ := (exists_spells_iff 4).mpr ⟨hlength, hdigits⟩
      obtain ⟨r, bytes, rfl⟩ := List.exists_cons_of_length_eq_add_one hbytes
      obtain ⟨g, b, a, rfl⟩ := List.length_eq_three.mp (Nat.succ.inj hbytes)
      exact ⟨⟨r, g, b, a⟩, digits, htext, .inl h⟩

/-- The two digits of a byte are read as the byte. -/
lemma pair?_digitChar (b : UInt8) :
    pair? (Nat.digitChar (b.toNat / 16)) (Nat.digitChar (b.toNat % 16)) = some b := by
  have hlt := b.toNat_lt
  have hplus : ∀ n < 16, Nat.digitChar n ≠ '+' := by decide
  have hhigh := Text.hexDigit?_digitChar (show b.toNat / 16 < 16 by omega)
  have hlow := Text.hexDigit?_digitChar (show b.toNat % 16 < 16 by omega)
  rw [pair?, if_neg (hplus _ (by omega)), hhigh, hlow]
  exact congrArg some ((ofNat_eq_iff (by omega)).mpr (by omega))

/-- The text of a pixel is read as the pixel. -/
lemma ofHex?_hex (p : Pixel) : ofHex? p.hex = some p := by
  simp [ofHex?, hex, hexDigits, Text.hexPair, ofDigits?, pair?_digitChar]

/-- A plus sign is no digit. -/
lemma not_writtenIn_of_plus {chars : List Char} (hplus : '+' ∈ chars) (p : Pixel) :
    ¬WrittenIn DigitPair chars p := by
  intro h
  obtain ⟨digits, hmark | rfl, -, hdigits⟩ := exists_writtenIn_iff.mp ⟨p, h⟩
  · rw [hmark, List.mem_cons] at hplus
    exact not_isDigit_plus (hdigits '+' (hplus.resolve_left (by decide)))
  · exact not_isDigit_plus (hdigits '+' hplus)

/-- A text is read as a pixel exactly if it is made of three or four pairs, with or without a
leading mark; the channels are the bytes that the pairs spell, and without a fourth pair the
pixel is solid. If no plus sign stands in the text, these are the texts of six or eight
hexadecimal digits; with one the text is not of digits, whether it is read or not. A text with
a character outside ASCII spells no pixel, and a colour that spells none is reported as it
stands. Every pixel is read from its own text. -/
theorem read_by_pairs (text : String) :
    (∀ p, ofHex? text = some p ↔ WrittenIn Pair text.toList p) ∧
    ('+' ∉ text.toList →
      (∀ p, ofHex? text = some p ↔ WrittenIn DigitPair text.toList p) ∧
      ((∃ p, ofHex? text = some p) ↔
        ∃ digits, (text.toList = '#' :: digits ∨ text.toList = digits) ∧
          (digits.length = 6 ∨ digits.length = 8) ∧ ∀ c ∈ digits, IsDigit c)) ∧
    ('+' ∈ text.toList → ∀ p, ¬WrittenIn DigitPair text.toList p) ∧
    ((∃ c ∈ text.toList, 128 ≤ c.toNat) → ofHex? text = none) ∧
    (ofHex? text = none → Event.lineColor? (.text text) = some (.error (.badColor text))) ∧
    ∀ p : Pixel, ofHex? p.hex = some p := by
  refine ⟨fun p => ofHex?_eq_some, fun hplus => ⟨fun p => ?_, ?_⟩, not_writtenIn_of_plus, ?_, ?_,
    ofHex?_hex⟩
  · rw [ofHex?_eq_some, writtenIn_of_no_plus hplus]
  · simp only [ofHex?_eq_some, writtenIn_of_no_plus hplus]
    exact exists_writtenIn_iff
  · rintro ⟨c, hc, hwide⟩
    by_contra hsome
    obtain ⟨p, hp⟩ := Option.ne_none_iff_exists'.mp hsome
    have hlt := toNat_lt_of_writtenIn (ofHex?_eq_some.mp hp) c hc
    omega
  · intro hnone
    rw [Event.lineColor?, hnone]

/-- Digits of both cases without a mark, a wide character, and a text that is too short. -/
theorem read_by_pairs_of_mixed_case :
    WrittenIn DigitPair "FF00aa80".toList ⟨255, 0, 170, 128⟩ ∧ ofHex? "ｆｆ００００" = none ∧
      Event.lineColor? (.text "#12345") = some (.error (.badColor "#12345")) := by
  obtain ⟨hread, -⟩ := (read_by_pairs "FF00aa80").2.1 (by decide)
  obtain ⟨-, -, -, hwide, -⟩ := read_by_pairs "ｆｆ００００"
  obtain ⟨-, -, -, -, hbad, -⟩ := read_by_pairs "#12345"
  exact ⟨(hread _).mp (by decide), hwide ⟨'ｆ', by decide, by decide⟩, hbad (by decide)⟩

/-- A plus sign is read in the place of a digit, though the text has no six digits. -/
theorem plus_sign_read_as_digit :
    ofHex? "+1+2+3" = some ⟨1, 2, 3, 255⟩ ∧
      ¬∃ digits, ("+1+2+3".toList = '#' :: digits ∨ "+1+2+3".toList = digits) ∧
        (digits.length = 6 ∨ digits.length = 8) ∧ ∀ c ∈ digits, IsDigit c := by
  refine ⟨by decide, fun hdigits => ?_⟩
  obtain ⟨p, hp⟩ := exists_writtenIn_iff.mpr hdigits
  exact not_writtenIn_of_plus (by decide) p hp

end LogoStudio.Pixel
