import LogoStudio.Proofs.Logo.Reading
import LogoStudio.Proofs.Logo.Written
import LogoStudio.Proofs.Text.Digits

/-!
# Reading tokens

Where a token stands, the parser for it reads it and the parsers for other tokens miss. The
first character tells most tokens apart. Words are told apart by the blank behind them, and
a number has the value that its digits are read as.
-/
namespace LogoStudio.Logo

open LogoStudio.Logo.Parser
open LogoStudio.Text (span_append)

namespace Cursor

/-- The tokens stand at a place. -/
def At (tokens : List Token) (s : Cursor) : Prop := Spelled s.line tokens s.rest

/-- Only blanks stand between a place and the tokens. -/
def Near (tokens : List Token) (s : Cursor) : Prop :=
  ∃ gap text, s.rest = gap ++ text ∧ Blank gap ∧ Spelled (s.line + gap.count '\n') tokens text

end Cursor

open Cursor

namespace Parser

lemma skipFrom_comment {body : List Char} (hbody : body.all fun c => c != '\r' && c != '\n')
    (rest : List Char) (line : Nat) :
    skipFrom true (body ++ '\n' :: rest) line = skipFrom false rest (line + 1) := by
  induction body with
  | nil => simp [skipFrom]
  | cons c body ih =>
      obtain ⟨hc, hbody⟩ := Bool.and_eq_true_iff.mp (List.all_cons ▸ hbody)
      obtain ⟨hreturn, hfeed⟩ : c ≠ '\r' ∧ c ≠ '\n' := by simpa using hc
      rw [List.cons_append, skipFrom, if_neg hfeed, if_pos (by simpa using hreturn)]
      exact ih hbody

lemma isComment_body {body : List Char} (hbody : body.all fun c => c != '\r' && c != '\n')
    (rest : List Char) : isComment (body ++ '\n' :: rest) = true := by
  have hdrop : (body ++ '\n' :: rest).dropWhile (fun c => c != '\r' && c != '\n') =
      '\n' :: rest := by
    rw [List.dropWhile_append_of_pos (List.all_eq_true.mp hbody)]
    simp
  simp [isComment, hdrop]

/-- Blanks are skipped, and the lines in them are counted. -/
lemma skipFrom_blank {gap : List Char} (h : Blank gap) (text : List Char) (line : Nat) :
    skipFrom false (gap ++ text) line = skipFrom false text (line + gap.count '\n') := by
  induction h generalizing line with
  | nil => rfl
  | @space c rest hc _ ih =>
      by_cases hfeed : c = '\n'
      · rw [List.cons_append, skipFrom, if_pos hfeed, ih, hfeed, List.count_cons_self]
        congr 1
        omega
      · rw [List.cons_append, skipFrom, if_neg hfeed, if_neg (by simp), if_pos hc, ih,
          List.count_cons_of_ne hfeed]
  | @comment body rest hbody _ ih =>
      have hcount : body.count '\n' = 0 :=
        List.count_eq_zero_of_not_mem fun hmem => by simpa using List.all_eq_true.mp hbody _ hmem
      rw [List.cons_append, List.append_assoc, List.cons_append, skipFrom, if_neg (by decide),
        if_neg (by decide), if_neg (by decide), if_pos (by simp [isComment_body hbody]),
        skipFrom_comment hbody, ih, List.count_cons_of_ne (by decide), List.count_append, hcount,
        List.count_cons_self]
      congr 1
      omega

end Parser

/-- A text behind a token starts with a blank, if it is not at its end. -/
lemma Continued.isSpace_head {line : Nat} {tokens : List Token} {text : List Char}
    (h : Continued line tokens text) : ∀ c ∈ text.head?, isSpace c := by
  cases h with
  | nil => simp
  | gap hgap _ =>
      obtain ⟨-, c, hc, hspace⟩ := hgap
      intro d hd
      obtain ⟨tail, rfl⟩ := List.head?_eq_some_iff.mp hc
      obtain rfl : c = d := by simpa using hd
      exact hspace

lemma Continued.near {line : Nat} {tokens : List Token} {text : List Char}
    (h : Continued line tokens text) : Cursor.Near tokens ⟨text, line⟩ := by
  cases h with
  | nil => exact ⟨[], [], rfl, .nil, .nil⟩
  | gap hgap hrest => exact ⟨_, _, rfl, hgap.1, hrest⟩

lemma Cursor.At.near {tokens : List Token} {s : Cursor} (h : s.At tokens) : s.Near tokens :=
  ⟨[], s.rest, rfl, .nil, h⟩

/-- What the first character of a text tells about the token there. -/
inductive Lead where
  | sign (c : Char)
  | letter
  | colon
  | quote
  | digit
  | other
  deriving DecidableEq

def leadOf (c : Char) : Lead :=
  if c ∈ signs then .sign c
  else if c.isAlpha then .letter
  else if c = ':' then .colon
  else if c = '"' then .quote
  else if c.isDigit || c = '.' then .digit
  else .other

lemma leadOf_sign {c : Char} (h : c ∈ signs) : leadOf c = .sign c := if_pos h

lemma leadOf_letter {c : Char} (h : c.isAlpha) : leadOf c = .letter := by
  have hsigns : signs.all fun d => !d.isAlpha := by decide
  have hc : c ∉ signs := by
    intro hc
    simpa [h] using List.all_eq_true.mp hsigns c hc
  rw [leadOf, if_neg hc, if_pos h]

lemma leadOf_digit {c : Char} (h : c.isDigit) : leadOf c = .digit := by
  have hsigns : ([':', '"'] ++ signs).all fun d => !d.isDigit := by decide
  have hc : c ∉ [':', '"'] ++ signs := by
    intro hc
    simpa [h] using List.all_eq_true.mp hsigns c hc
  simp only [List.cons_append, List.nil_append, List.mem_cons, not_or] at hc
  have halpha : c.isAlpha = false := by
    simp only [Char.isAlpha, Char.isUpper, Char.isLower, Char.isDigit, Bool.and_eq_true,
      decide_eq_true_eq, Bool.or_eq_false_iff, decide_eq_false_iff_not, Bool.and_eq_false_iff,
      ge_iff_le, UInt32.le_iff_toNat_le] at h ⊢
    have hA : 'A'.val.toNat = 65 := rfl
    have ha : 'a'.val.toNat = 97 := rfl
    have h9 : '9'.val.toNat = 57 := rfl
    omega
  rw [leadOf, if_neg hc.2.2, if_neg (by simp [halpha]), if_neg hc.1, if_neg hc.2.1,
    if_pos (by simp [h])]

namespace Token

def lead : Token → Lead
  | sign c => .sign c
  | keyword _ _ | name _ => .letter
  | reference _ => .colon
  | target _ | quoted _ => .quote
  | number _ => .digit

lemma lead_ne_other (token : Token) : token.lead ≠ .other := by
  cases token <;> simp [lead]

end Token

/-- What the first of some tokens is told by. -/
def lead? (tokens : List Token) : Option Lead := tokens.head?.map Token.lead

@[simp] lemma lead?_nil : lead? [] = none := rfl

@[simp] lemma lead?_cons (token : Token) (tokens : List Token) :
    lead? (token :: tokens) = some token.lead := rfl

lemma isPlain_cons {text : List Char} (h : isPlain text) :
    ∃ c tail, text = c :: tail ∧ c.isAlpha ∧ tail.all Char.isAlphanum := by
  cases text with
  | nil => cases h
  | cons c tail =>
      obtain ⟨hc, htail⟩ := Bool.and_eq_true_iff.mp h
      exact ⟨c, tail, rfl, hc, htail⟩

lemma isPlain_of_isName {word : String} (h : isName word) : isPlain word.toList :=
  (Bool.and_eq_true_iff.mp h).1

lemma isPlain_of_reserved : ∀ word ∈ reserved, isPlain word.toList := by decide

lemma IsNumeral.head {text : List Char} (h : IsNumeral text) :
    ∃ c tail, text = c :: tail ∧ leadOf c = .digit := by
  have hfirst {digits : List Char} (hne : digits ≠ []) (hdigits : digits.all Char.isDigit) :
      ∃ c tail, digits = c :: tail ∧ leadOf c = .digit := by
    cases digits with
    | nil => exact absurd rfl hne
    | cons c tail =>
        exact ⟨c, tail, rfl, leadOf_digit (List.all_eq_true.mp hdigits c (by simp))⟩
  cases h with
  | whole hne hdigits => exact hfirst hne hdigits
  | pointed hne hdigits _ =>
      obtain ⟨c, tail, rfl, hc⟩ := hfirst hne hdigits
      exact ⟨c, _, rfl, hc⟩
  | fraction => exact ⟨'.', _, rfl, rfl⟩

lemma Token.Spells.head {token : Token} {text : List Char} (h : token.Spells text) :
    ∃ c tail, text = c :: tail ∧ leadOf c = token.lead := by
  cases token with
  | sign c => exact ⟨c, [], h.2, leadOf_sign h.1⟩
  | keyword word line =>
      obtain ⟨c, tail, heq, hc, -⟩ := isPlain_cons (isPlain_of_reserved word h.1)
      exact ⟨c, tail, h.2.trans heq, leadOf_letter hc⟩
  | name v =>
      obtain ⟨c, tail, heq, hc, -⟩ := isPlain_cons (isPlain_of_isName h.1)
      exact ⟨c, tail, h.2.trans heq, leadOf_letter hc⟩
  | reference v => exact ⟨':', _, h.2, rfl⟩
  | target v => exact ⟨'"', _, h.2, rfl⟩
  | quoted w => exact ⟨'"', _, h.2, rfl⟩
  | number x => exact h.1.head

namespace Cursor

lemma At.nil {s : Cursor} (h : s.At []) : s.rest = [] := by
  obtain ⟨text, line⟩ := s
  cases h
  rfl

lemma At.cons {token : Token} {tokens : List Token} {s : Cursor} (h : s.At (token :: tokens)) :
    (∀ l ∈ token.line?, l = s.line) ∧ ∃ spelling rest, s.rest = spelling ++ rest ∧
      token.Spells spelling ∧ Continued s.line tokens rest := by
  obtain ⟨text, line⟩ := s
  cases h with
  | cons hline hspells hrest => exact ⟨hline, _, _, rfl, hspells, hrest⟩

/-- The text at a place starts with its first token. -/
lemma At.lead? {tokens : List Token} {s : Cursor} {c : Char} {rest : List Char}
    (h : s.At tokens) (hs : s.rest = c :: rest) : lead? tokens = some (leadOf c) := by
  cases tokens with
  | nil =>
      rw [h.nil] at hs
      cases hs
  | cons token tokens =>
      obtain ⟨-, spelling, rest', heq, hspells, -⟩ := h.cons
      obtain ⟨d, tail, rfl, hlead⟩ := hspells.head
      obtain ⟨rfl, -⟩ : c = d ∧ rest = tail ++ rest' := by simpa [hs] using heq
      rw [lead?_cons, hlead]

/-- Every token takes up some text. -/
lemma At.length_le {tokens : List Token} {s : Cursor} (h : s.At tokens) :
    tokens.length ≤ s.rest.length := by
  obtain ⟨text, line⟩ := s
  induction tokens generalizing text line with
  | nil => exact Nat.zero_le _
  | cons token tokens ih =>
      obtain ⟨-, spelling, rest, heq, hspells, hrest⟩ := h.cons
      obtain ⟨c, tail, rfl, -⟩ := hspells.head
      obtain ⟨gap, text', hgap, -, htext⟩ := hrest.near
      have hlength := ih text' _ htext
      have htotal : text.length = tail.length + 1 + (gap.length + text'.length) := by
        rw [show text = _ from heq, List.length_append, show rest = _ from hgap]
        simp
      simp only [List.length_cons] at hlength ⊢
      omega

end Cursor

namespace Parser

variable {α : Type} {tokens next : List Token} {allowed : Prop}

/-- No blanks stand before a token. -/
lemma skipFrom_at {s : Cursor} (h : s.At tokens) : skipFrom false s.rest s.line = s := by
  obtain ⟨text, line⟩ := s
  cases text with
  | nil => rfl
  | cons c rest =>
      have hblank : [' ', '\t', '\r', '\n', ';'].all fun d => leadOf d = .other := by decide
      have hc : c ∉ [' ', '\t', '\r', '\n', ';'] := by
        intro hc
        obtain ⟨token, -, htoken⟩ := Option.map_eq_some_iff.mp (h.lead? rfl)
        have hother : leadOf c = .other := by simpa using List.all_eq_true.mp hblank c hc
        exact token.lead_ne_other (htoken.trans hother)
      simp only [List.mem_cons, List.not_mem_nil, or_false, not_or] at hc
      simp [skipFrom, isSpace, hc]

lemma reduces_blanks : Reduces (Near tokens) (At tokens) True blanks (pure ()) := by
  apply reduces_of_done
  rintro ⟨_, line⟩ ⟨gap, text, rfl, hgap, htext⟩
  refine ⟨⟨text, line + gap.count '\n'⟩, htext, ?_⟩
  have hskip : skipFrom false (gap ++ text) line = ⟨text, line + gap.count '\n'⟩ := by
    rw [skipFrom_blank hgap]
    exact @skipFrom_at tokens ⟨text, line + gap.count '\n'⟩ htext
  rw [blanks, hskip]

lemma reduces_padded {p : Parser α} {v : α}
    (h : Reduces (At tokens) (Near next) allowed p (pure v)) :
    Reduces (Near tokens) (At next) allowed (padded p) (pure v) := by
  have hend : Reduces (Near next) (At next) True (blanks >>= fun _ => pure v) (pure v) :=
    reduces_blanks.step (.refl _)
  exact reduces_blanks.step ((h.seq hend).of_iff (by simp))

lemma misses_padded {p : Parser α} (h : Misses (At tokens) p) :
    Misses (Near tokens) (padded p) := by
  intro s hs
  obtain ⟨t, ht, hblanks⟩ := (reduces_blanks s hs).1 trivial
  unfold padded
  rw [bind_apply, hblanks]
  exact h.bind _ t ht

lemma Misses.at_of_near {p : Parser α} (h : Misses (Near tokens) p) : Misses (At tokens) p :=
  fun s hs => h s hs.near

lemma Reduces.at_of_near {Q : Cursor → Prop} {p q : Parser α}
    (h : Reduces (Near tokens) Q allowed p q) : Reduces (At tokens) Q allowed p q :=
  h.mono (fun _ hs => hs.near) fun _ hs => hs

lemma Reduces.to_near {P : Cursor → Prop} {p q : Parser α}
    (h : Reduces P (At next) allowed p q) : Reduces P (Near next) allowed p q :=
  h.mono (fun _ hs => hs) fun _ hs => hs.near

/-- A loop has enough turns for all the tokens that stand where it starts. -/
lemma Repeats.many {Q : Cursor → Prop} {p : Parser α} {vs : List α}
    (h : Repeats (At tokens) Q allowed p vs) (hlength : vs.length ≤ tokens.length) :
    Reduces (At tokens) Q allowed (many p) (pure vs) := by
  intro s hs
  exact h s.rest.length (hlength.trans hs.length_le) s hs

lemma misses_char {c : Char} (h : lead? tokens ≠ some (leadOf c)) :
    Misses (At tokens) (char c) := by
  intro s hs
  unfold char
  cases hrest : s.rest with
  | nil => rfl
  | cons d rest =>
      have hd : d ≠ c := by
        rintro rfl
        exact h (hs.lead? hrest)
      exact if_neg hd

lemma misses_sign {c : Char} (hc : c ∈ signs) (h : lead? tokens ≠ some (.sign c)) :
    Misses (At tokens) (char c) :=
  misses_char (by rwa [leadOf_sign hc])

lemma misses_run1_digit (h : lead? tokens ≠ some .digit) :
    Misses (At tokens) (run1 Char.isDigit) := by
  intro s hs
  have hspan : s.rest.span Char.isDigit = ([], s.rest) := by
    rw [List.span_eq_takeWhile_dropWhile]
    cases hrest : s.rest with
    | nil => rfl
    | cons c rest =>
        have hc : ¬c.isDigit := by
          intro hc
          exact h ((hs.lead? hrest).trans (congrArg some (leadOf_digit hc)))
        simp [hc]
  unfold run1
  rw [hspan]

lemma misses_number (h : lead? tokens ≠ some .digit) : Misses (At tokens) number :=
  ((misses_run1_digit h).bind _).orElse ((misses_char h).bind _)

lemma misses_variableName (h : lead? tokens ≠ some .colon) : Misses (At tokens) variableName :=
  (misses_char h).bind _

/-- A blank is in none of the classes of characters that tokens are made of. -/
lemma not_in_token_of_isSpace {c : Char} (h : isSpace c) :
    c.isAlphanum = false ∧ Text.isAlphanumeric c = false ∧ isWordChar c = false ∧
      c.isDigit = false ∧ c ≠ '.' := by
  simp only [isSpace, Bool.or_eq_true, beq_iff_eq] at h
  obtain ((rfl | rfl) | rfl) | rfl := h <;> decide

lemma isAlphanumeric_of_isAlphanum {c : Char} (h : c.isAlphanum) : Text.isAlphanumeric c := by
  have hA : 'A'.val.toNat = 65 := rfl
  have hZ : 'Z'.val.toNat = 90 := rfl
  have ha : 'a'.val.toNat = 97 := rfl
  have hz : 'z'.val.toNat = 122 := rfl
  have h0 : '0'.val.toNat = 48 := rfl
  have h9 : '9'.val.toNat = 57 := rfl
  have hc : c.toNat = c.val.toNat := rfl
  simp only [Char.isAlphanum, Char.isAlpha, Char.isUpper, Char.isLower, Char.isDigit,
    Bool.or_eq_true, Bool.and_eq_true, decide_eq_true_eq, ge_iff_le, UInt32.le_iff_toNat_le] at h
  have hranges : Text.alphanumericRanges =
      (48, 57) :: (65, 90) :: (97, 122) :: Text.alphanumericRanges.drop 3 := rfl
  rw [Text.isAlphanumeric, hranges]
  simp only [Text.inRanges, Bool.and_eq_true, Bool.or_eq_true, decide_eq_true_eq]
  omega

lemma alphanum_of_isPlain {text : List Char} (h : isPlain text) : ∀ c ∈ text, c.isAlphanum := by
  obtain ⟨d, tail, rfl, hd, htail⟩ := isPlain_cons h
  intro c hc
  obtain rfl | hc := List.mem_cons.mp hc
  · simp [Char.isAlphanum, hd]
  · exact List.all_eq_true.mp htail c hc

section

variable {text rest : List Char} {line : Nat}

/-- A word is read as a name, unless it is reserved. -/
lemma ident_plain (htext : isPlain text) (hrest : ∀ c ∈ rest.head?, isSpace c) :
    ident ⟨text ++ rest, line⟩ =
      if String.ofList text ∈ reserved then .miss
      else .done ⟨String.ofList text, line⟩ ⟨rest, line⟩ := by
  obtain ⟨c, tail, rfl, hc, htail⟩ := isPlain_cons htext
  have hspan : (tail ++ rest).span Char.isAlphanum = (tail, rest) :=
    span_append (List.all_eq_true.mp htail) fun d hd => (not_in_token_of_isSpace (hrest d hd)).1
  simp only [ident, List.cons_append, hspan, hc, Bool.true_and, List.contains_iff_mem,
    Bool.not_eq_true', ← Bool.not_eq_true]
  split <;> simp_all

/-- A reserved word is read where it stands, and not inside another word. -/
lemma keyword_plain {word : String} (hword : word ∈ reserved) (htext : isPlain text)
    (hrest : ∀ c ∈ rest.head?, isSpace c) :
    keyword word ⟨text ++ rest, line⟩ =
      if text = word.toList then .done () ⟨rest, line⟩ else .miss := by
  unfold keyword
  by_cases heq : text = word.toList
  · rw [if_pos heq, ← heq, Text.after?_append]
    cases rest with
    | nil => rfl
    | cons c rest => simp [(not_in_token_of_isSpace (hrest c rfl)).2.1]
  · rw [if_neg heq]
    cases hafter : Text.after? word.toList (text ++ rest) with
    | none => rfl
    | some after =>
        rw [Text.after?_eq_some, List.append_eq_append_iff] at hafter
        obtain ⟨more, hwordLonger, hrest'⟩ | ⟨more, htextLonger, rfl⟩ := hafter
        · cases more with
          | nil => exact absurd (by simpa using hwordLonger.symm) heq
          | cons c more =>
              have hspace := (not_in_token_of_isSpace (hrest c (by simp [hrest']))).1
              have hletter := alphanum_of_isPlain (isPlain_of_reserved word hword) c
                (by simp [hwordLonger])
              rw [hspace] at hletter
              cases hletter
        · cases more with
          | nil => exact absurd (by simpa using htextLonger) heq
          | cons c more =>
              have hletter := alphanum_of_isPlain htext c (by simp [htextLonger])
              simp [isAlphanumeric_of_isAlphanum hletter]

end

lemma isName_not_reserved {word : String} (h : isName word) : word ∉ reserved := by
  have hnot := (Bool.and_eq_true_iff.mp h).2
  simpa using hnot

/-- Where the first token is no word, neither names nor reserved words are read. -/
lemma misses_of_not_letter (h : lead? tokens ≠ some .letter) :
    Misses (At tokens) ident ∧ ∀ word ∈ reserved, Misses (At tokens) (keyword word) := by
  have hletter {s : Cursor} {c : Char} {rest : List Char} (hs : s.At tokens)
      (hrest : s.rest = c :: rest) : c.isAlpha = false := by
    by_contra hc
    exact h ((hs.lead? hrest).trans (congrArg some (leadOf_letter (by simpa using hc))))
  constructor
  · intro s hs
    unfold ident
    cases hrest : s.rest with
    | nil => rfl
    | cons c rest => simp [hletter hs hrest]
  · intro word hword s hs
    obtain ⟨c, tail, hplain, hc, -⟩ := isPlain_cons (isPlain_of_reserved word hword)
    unfold keyword
    cases hafter : Text.after? word.toList s.rest with
    | none => rfl
    | some after =>
        rw [Text.after?_eq_some, hplain, List.cons_append] at hafter
        rw [hletter hs hafter] at hc
        cases hc

/-- Where a letter stands first, a whole word stands: a reserved one or a name. -/
lemma exists_word_of_at {s : Cursor} (hs : s.At tokens) (hlead : lead? tokens = some .letter) :
    ∃ word rest, s = ⟨word.toList ++ rest, s.line⟩ ∧ isPlain word.toList ∧
      (∀ c ∈ rest.head?, isSpace c) ∧
      ((word ∈ reserved ∧ ∃ l, tokens.head? = some (.keyword word l)) ∨
        (word ∉ reserved ∧ ∃ v, tokens.head? = some (.name v))) := by
  obtain ⟨token, htoken, hlead⟩ := Option.map_eq_some_iff.mp hlead
  obtain ⟨tokens, rfl⟩ := List.head?_eq_some_iff.mp htoken
  obtain ⟨-, spelling, rest, heq, hspells, hrest⟩ := hs.cons
  obtain ⟨text, line⟩ := s
  obtain rfl : text = spelling ++ rest := heq
  cases token with
  | keyword word l =>
      obtain ⟨hword, rfl⟩ := hspells
      exact ⟨word, rest, rfl, isPlain_of_reserved word hword, hrest.isSpace_head,
        .inl ⟨hword, l, rfl⟩⟩
  | name v =>
      obtain ⟨hname, rfl⟩ := hspells
      exact ⟨v.name, rest, rfl, isPlain_of_isName hname, hrest.isSpace_head,
        .inr ⟨isName_not_reserved hname, v, rfl⟩⟩
  | _ => cases hlead

/-- A name is not read where another token stands. -/
lemma misses_ident (h : ∀ v, tokens.head? ≠ some (.name v)) : Misses (At tokens) ident := by
  by_cases hlead : lead? tokens = some .letter
  · intro s hs
    obtain ⟨word, rest, heq, hplain, hrest, ⟨hword, -⟩ | ⟨-, v, hname⟩⟩ :=
      exists_word_of_at hs hlead
    · rw [heq, ident_plain hplain hrest, String.ofList_toList, if_pos hword]
    · exact absurd hname (h v)
  · exact (misses_of_not_letter hlead).1

/-- A reserved word is not read where another token stands. -/
lemma misses_keyword {word : String} (hword : word ∈ reserved)
    (h : ∀ line, tokens.head? ≠ some (.keyword word line)) :
    Misses (At tokens) (keyword word) := by
  by_cases hlead : lead? tokens = some .letter
  · intro s hs
    obtain ⟨other, rest, heq, hplain, hrest, hother⟩ := exists_word_of_at hs hlead
    have hne : other.toList ≠ word.toList := by
      intro heq
      obtain rfl := String.toList_inj.mp heq
      obtain ⟨-, l, hkeyword⟩ | ⟨hother, -⟩ := hother
      · exact h l hkeyword
      · exact hother hword
    rw [heq, keyword_plain hword hplain hrest, if_neg hne]
  · exact (misses_of_not_letter hlead).2 word hword

/-- What reads the spellings of a token reads it wherever it stands. -/
lemma reduces_token {token : Token} {p : Parser α} {v : α}
    (h : ∀ text rest line, token.Spells text → (∀ l ∈ token.line?, l = line) →
      (∀ c ∈ rest.head?, isSpace c) → p ⟨text ++ rest, line⟩ = .done v ⟨rest, line⟩) :
    Reduces (At (token :: next)) (Near next) True p (pure v) := by
  apply reduces_of_done
  rintro ⟨text, line⟩ hs
  obtain ⟨hline, spelling, rest, heq, hspells, hrest⟩ := hs.cons
  obtain rfl : text = spelling ++ rest := heq
  exact ⟨⟨rest, line⟩, hrest.near, h spelling rest line hspells hline hrest.isSpace_head⟩

lemma reduces_char (c : Char) :
    Reduces (At (.sign c :: next)) (Near next) True (char c) (pure ()) := by
  apply reduces_token
  rintro text rest line ⟨-, rfl⟩ - -
  simp [char]

lemma reduces_keyword (word : String) (l : Option Nat) :
    Reduces (At (.keyword word l :: next)) (Near next) True (keyword word) (pure ()) := by
  apply reduces_token
  rintro text rest line ⟨hword, rfl⟩ - hrest
  rw [keyword_plain hword (isPlain_of_reserved word hword) hrest, if_pos rfl]

/-- The line of a place is the line of the token there. -/
lemma reduces_line {token : Token} {l : Nat} (h : token.line? = some l) :
    Reduces (At (token :: next)) (At (token :: next)) True line (pure l) := by
  apply reduces_of_done
  intro s hs
  have hline : l = s.line := hs.cons.1 l h
  exact ⟨s, hs, by rw [line, hline]⟩

lemma ident_name {v : Ident} {rest : List Char} {line : Nat} (hname : isName v.name)
    (hline : v.line = line) (hrest : ∀ c ∈ rest.head?, isSpace c) :
    ident ⟨v.name.toList ++ rest, line⟩ = .done v ⟨rest, line⟩ := by
  rw [ident_plain (isPlain_of_isName hname) hrest, String.ofList_toList,
    if_neg (isName_not_reserved hname), ← hline]

lemma reduces_ident (v : Ident) :
    Reduces (At (.name v :: next)) (Near next) True ident (pure v) := by
  apply reduces_token
  rintro text rest line ⟨hname, rfl⟩ hline hrest
  exact ident_name hname (hline _ rfl) hrest

lemma reduces_variableName (v : Ident) :
    Reduces (At (.reference v :: next)) (Near next) True variableName (pure v) := by
  apply reduces_token
  rintro text rest line ⟨hname, rfl⟩ hline hrest
  exact ident_name hname (hline _ rfl) hrest

lemma reduces_target (v : Ident) :
    Reduces (At (.target v :: next)) (Near next) True (do char '"'; ident) (pure v) := by
  apply reduces_token
  rintro text rest line ⟨hname, rfl⟩ hline hrest
  exact ident_name hname (hline _ rfl) hrest

lemma run1_append {isIn : Char → Bool} {taken rest : List Char} {line : Nat} (hne : taken ≠ [])
    (htaken : ∀ c ∈ taken, isIn c) (hrest : ∀ c ∈ rest.head?, isIn c = false) :
    run1 isIn ⟨taken ++ rest, line⟩ = .done taken ⟨rest, line⟩ := by
  unfold run1
  rw [span_append htaken hrest]
  cases taken with
  | nil => exact absurd rfl hne
  | cons c taken => rfl

lemma reduces_word (w : Ident) :
    Reduces (At (.quoted w :: next)) (Near next) True word (pure w) := by
  apply reduces_token
  rintro text rest line ⟨hword, rfl⟩ hline hrest
  obtain ⟨hne, hchars⟩ := Bool.and_eq_true_iff.mp hword
  have hstop : ∀ c ∈ rest.head?, isWordChar c = false := fun c hc =>
    (not_in_token_of_isSpace (hrest c hc)).2.2.1
  have hrun : run1 isWordChar ⟨w.name.toList ++ rest, line⟩ = .done w.name.toList ⟨rest, line⟩ :=
    run1_append (by simpa using hne) (List.all_eq_true.mp hchars) hstop
  change (run1 isWordChar >>= fun text => pure (Ident.mk (String.ofList text) line))
    ⟨w.name.toList ++ rest, line⟩ = _
  rw [bind_apply, hrun]
  change Outcome.done (Ident.mk (String.ofList w.name.toList) line) _ = _
  rw [String.ofList_toList, ← hline w.line rfl]

section

variable {whole fraction : List Char}

lemma readDecimal?_whole (hne : whole ≠ []) (hwhole : ∀ c ∈ whole, c.isDigit) :
    Number.readDecimal? false whole = some (literal whole []) := by
  have hspan : whole.span Char.isDigit = (whole, []) := by
    simpa only [List.append_nil] using @span_append _ whole [] hwhole (by simp)
  unfold Number.readDecimal?
  rw [hspan]
  simp [hne, Number.readExponent?, literal]

lemma readDecimal?_pointed (hne : whole ≠ [] ∨ fraction ≠ []) (hwhole : ∀ c ∈ whole, c.isDigit)
    (hfraction : ∀ c ∈ fraction, c.isDigit) :
    Number.readDecimal? false (whole ++ '.' :: fraction) = some (literal whole fraction) := by
  have hspan : (whole ++ '.' :: fraction).span Char.isDigit = (whole, '.' :: fraction) :=
    span_append hwhole (by simp)
  have hspan' : fraction.span Char.isDigit = (fraction, []) := by
    simpa only [List.append_nil] using @span_append _ fraction [] hfraction (by simp)
  have hne' : ¬(whole = [] ∧ fraction = []) := by
    rintro ⟨hw, hf⟩
    simp [hw, hf] at hne
  unfold Number.readDecimal?
  rw [hspan]
  change (if (whole.isEmpty && (fraction.span Char.isDigit).1.isEmpty) = true then none
    else (Number.readExponent? (fraction.span Char.isDigit).2).map fun exponent =>
      Number.ofDecimal false (Number.digitsValue (whole ++ (fraction.span Char.isDigit).1))
        (exponent - (fraction.span Char.isDigit).1.length)) = _
  rw [hspan']
  simp [hne', Number.readExponent?, literal]

end

lemma toLower_digit {c : Char} (hc : leadOf c = .digit) : c.toLower = c := by
  have halpha : ¬c.isAlpha := by
    intro halpha
    rw [leadOf_letter halpha] at hc
    cases hc
  rw [Char.toLower, dif_neg]
  intro hupper
  exact halpha (Bool.or_eq_true_iff.mpr (.inl (decide_eq_true hupper)))

/-- A text that starts like a number has no sign and is no word for a number. -/
lemma read?_digits {c : Char} {tail : List Char} (hc : leadOf c = .digit) :
    Number.read? (String.ofList (c :: tail)) = Number.readDecimal? false (c :: tail) := by
  have hsign : Number.splitSign (c :: tail) = (false, c :: tail) := by
    unfold Number.splitSign
    split
    · next heq =>
        obtain ⟨rfl, -⟩ := List.cons.inj heq
        cases hc
    · next heq =>
        obtain ⟨rfl, -⟩ := List.cons.inj heq
        cases hc
    · rfl
  have hword : Number.readWord? false (c :: tail) = none := by
    have hfirst {text : String} {d : Char} {rest : List Char} (htext : text.toList = d :: rest)
        (hd : leadOf d = .letter) : String.ofList ((c :: tail).map Char.toLower) ≠ text := by
      intro heq
      rw [← heq, String.toList_ofList, List.map_cons, toLower_digit hc] at htext
      obtain ⟨rfl, -⟩ := List.cons.inj htext
      rw [hc] at hd
      cases hd
    unfold Number.readWord?
    split
    · next heq => exact absurd heq (hfirst (show _ = ['i', 'n', 'f'] by decide) rfl)
    · next heq =>
        exact absurd heq
          (hfirst (show _ = ['i', 'n', 'f', 'i', 'n', 'i', 't', 'y'] by decide) rfl)
    · next heq => exact absurd heq (hfirst (show _ = ['n', 'a', 'n'] by decide) rfl)
    · rfl
  rw [Number.read?, String.toList_ofList, hsign]
  simp [hword]

lemma number_of_whole {s t u : Cursor} {whole digits : List Char}
    (hwhole : run1 Char.isDigit s = .done whole t) (hfraction : fraction t = .done digits u) :
    number s = .done (literal whole digits) u := by
  rw [number, orElse_apply, bind_apply, hwhole]
  dsimp only
  rw [bind_apply, hfraction]
  rfl

lemma reduces_number (x : Float) :
    Reduces (At (.number x :: next)) (Near next) True number (pure x) := by
  apply reduces_token
  rintro text rest line ⟨hnumeral, hread⟩ - hrest
  obtain ⟨c, tail, hhead, hc⟩ := hnumeral.head
  rw [hhead, read?_digits hc, ← hhead] at hread
  have hspace (c : Char) (hc : c ∈ rest.head?) : c.isDigit = false ∧ c ≠ '.' :=
    (not_in_token_of_isSpace (hrest c hc)).2.2.2
  have hstop : ∀ c ∈ rest.head?, c.isDigit = false := fun c hc => (hspace c hc).1
  cases hnumeral with
  | whole hne hdigits =>
      rw [List.all_eq_true] at hdigits
      obtain rfl := Option.some.inj ((readDecimal?_whole hne hdigits).symm.trans hread)
      have hpoint : char '.' ⟨rest, line⟩ = .miss := by
        cases rest with
        | nil => rfl
        | cons d rest => exact if_neg (hspace d rfl).2
      have hfraction : fraction ⟨rest, line⟩ = .done [] ⟨rest, line⟩ := by
        rw [fraction, orElse_apply, bind_apply, hpoint]
        rfl
      exact number_of_whole (run1_append hne hdigits hstop) hfraction
  | @pointed digits digits' hne hdigits hdigits' =>
      rw [List.all_eq_true] at hdigits hdigits'
      obtain rfl := Option.some.inj
        ((readDecimal?_pointed (.inl hne) hdigits hdigits').symm.trans hread)
      have hwhole : run1 Char.isDigit ⟨digits ++ '.' :: digits' ++ rest, line⟩ =
          .done digits ⟨'.' :: (digits' ++ rest), line⟩ := by
        rw [List.append_assoc, List.cons_append]
        exact run1_append hne hdigits (by simp)
      have hfraction : fraction ⟨'.' :: (digits' ++ rest), line⟩ = .done digits' ⟨rest, line⟩ := by
        rw [fraction, orElse_apply, bind_apply]
        simp [char, run, -List.span_eq_takeWhile_dropWhile, span_append hdigits' hstop]
      exact number_of_whole hwhole hfraction
  | @fraction digits hne hdigits =>
      rw [List.all_eq_true] at hdigits
      obtain rfl := Option.some.inj
        ((@readDecimal?_pointed [] _ (.inr hne) (by simp) hdigits).symm.trans hread)
      have hwhole : run1 Char.isDigit ⟨'.' :: (digits ++ rest), line⟩ = .miss := by
        simp [run1]
      rw [List.cons_append, number, orElse_apply, bind_apply, hwhole]
      change (run1 Char.isDigit >>= fun digits => pure (literal [] digits)) ⟨_ ++ rest, line⟩ = _
      rw [bind_apply, run1_append hne hdigits hstop]
      rfl

end Parser

end LogoStudio.Logo
