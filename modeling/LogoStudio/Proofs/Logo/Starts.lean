import LogoStudio.Proofs.Logo.Overruns
import LogoStudio.Proofs.Logo.Shifts

/-!
# What a reading starts with

Which parser is taken is decided by what stands behind the blanks: a word, or else one
character. So a parser can be told to miss by what stands there, and of several parsers with
different starts at most one does not miss. Apart from that, a parser that does not miss reads
some text, and for that reason a loop reads until its parser misses.
-/
namespace LogoStudio.Logo

open LogoStudio.Logo.Parser

/-- What a text starts with: a letter with the letters and digits after it, or one other
character. -/
inductive Start where
  | nothing
  | sign (c : Char)
  | word (name : String)
  deriving DecidableEq

def startOf : List Char → Start
  | [] => .nothing
  | c :: rest =>
      if c.isAlpha then .word (String.ofList (c :: rest.takeWhile Char.isAlphanum)) else .sign c

/-- What stands behind the blanks at a place. -/
def Cursor.start (s : Cursor) : Start := startOf (skipFrom false s.rest s.line).rest

/-- Neither a blank nor a comment starts with this character. -/
def isSolid (c : Char) : Bool := !isSpace c && c != ';'

lemma isSolid_iff {c : Char} : isSolid c ↔ isSpace c = false ∧ c ≠ ';' := by
  simp [isSolid]

lemma isSolid_of_isAlphanum {c : Char} (h : c.isAlphanum) : isSolid c := by
  have hspace : isSpace c = false := by
    by_contra hspace
    rw [(not_in_token_of_isSpace (Bool.of_not_eq_false hspace)).1] at h
    cases h
  have hcomment : c ≠ ';' := by
    rintro rfl
    revert h
    decide
  exact isSolid_iff.mpr ⟨hspace, hcomment⟩

lemma settled_of_isSolid {c : Char} (h : isSolid c) (rest : List Char) (line : Nat) :
    Cursor.Settled ⟨c :: rest, line⟩ := by
  obtain ⟨hspace, hcomment⟩ := isSolid_iff.mp h
  have hfeed : c ≠ '\n' := by
    rintro rfl
    cases hspace
  simp [Cursor.Settled, skipFrom, hspace, hcomment, hfeed]

lemma Cursor.Settled.start {s : Cursor} (h : s.Settled) : s.start = startOf s.rest := by
  rw [Cursor.start, show skipFrom false s.rest s.line = s from h]

lemma length_skipFrom_le (inside : Bool) (text : List Char) (line : Nat) :
    (skipFrom inside text line).rest.length ≤ text.length := by
  obtain ⟨taken, hrest, -⟩ := skipFrom_leads inside text line
  have hlength : text.length = (taken ++ (skipFrom inside text line).rest).length :=
    congrArg List.length hrest
  rw [hlength, List.length_append]
  exact Nat.le_add_left _ _

lemma Cursor.Settled.isSpace_head {c : Char} {rest : List Char} {line : Nat}
    (h : Cursor.Settled ⟨c :: rest, line⟩) : isSpace c = false := by
  by_contra hspace
  have hshorter : skipFrom false (c :: rest) line =
      skipFrom false rest (if c = '\n' then line + 1 else line) := by
    rw [skipFrom]
    split_ifs <;> simp_all
  have hlength := length_skipFrom_le false rest (if c = '\n' then line + 1 else line)
  rw [← hshorter, show skipFrom false (c :: rest) line = ⟨c :: rest, line⟩ from h] at hlength
  exact Nat.not_succ_le_self _ hlength

lemma start_skipFrom (s : Cursor) : (skipFrom false s.rest s.line).start = s.start :=
  (settled_skipFrom false s.rest s.line).start

/-- Where blanks end in a text does not depend on its line. -/
lemma rest_skipFrom (text : List Char) (line line' : Nat) :
    (skipFrom false text line).rest = (skipFrom false text line').rest := by
  have hzero (l : Nat) : skipFrom false text l = (skipFrom false text 0).down l := by
    rw [← skipFrom_down, Nat.zero_add]
  rw [hzero line, hzero line']
  rfl

lemma start_line (text : List Char) (line line' : Nat) :
    (Cursor.mk text line).start = (Cursor.mk text line').start := by
  unfold Cursor.start
  dsimp only
  rw [rest_skipFrom text line line']

lemma settled_line {text : List Char} {line : Nat} (h : Cursor.Settled ⟨text, line⟩)
    (line' : Nat) : Cursor.Settled ⟨text, line'⟩ := by
  have hrest : (skipFrom false text line').rest = text := by
    rw [rest_skipFrom text line' line]
    exact congrArg Cursor.rest h
  obtain ⟨skipped, hskipped, hline⟩ := skipFrom_leads false text line'
  rw [hrest] at hskipped
  obtain rfl : skipped = [] := List.append_left_eq_self.mp hskipped.symm
  rw [Cursor.Settled]
  exact congrArg₂ Cursor.mk hrest hline

lemma startOf_sign {c : Char} (h : c.isAlpha = false) (rest : List Char) :
    startOf (c :: rest) = .sign c := by
  simp [startOf, h]

lemma exists_cons_of_startOf {text : List Char} {c : Char} (h : startOf text = .sign c) :
    ∃ rest, text = c :: rest := by
  cases text with
  | nil => cases h
  | cons d rest =>
      rw [startOf] at h
      split_ifs at h
      exact ⟨rest, by rw [Start.sign.inj h]⟩

/-- A word ends where no letter or digit follows. -/
lemma startOf_word {text rest : List Char} (htext : isPlain text)
    (hrest : ∀ c ∈ rest.head?, c.isAlphanum = false) :
    startOf (text ++ rest) = .word (String.ofList text) := by
  obtain ⟨c, tail, rfl, hc, htail⟩ := isPlain_cons htext
  have htake : (tail ++ rest).takeWhile Char.isAlphanum = tail := by
    have hspan := Text.span_append (List.all_eq_true.mp htail) hrest
    rw [List.span_eq_takeWhile_dropWhile] at hspan
    exact congrArg Prod.fst hspan
  simp [startOf, hc, htake]

namespace Parser

variable {α β : Type} {p q : Parser α} {f : α → Parser β}

/-- A parser that does not miss reads some text. -/
def Eats (p : Parser α) : Prop := ∀ s v t, p s = .done v t → t.rest.length < s.rest.length

lemma Moves.length_le (hp : p.Moves) {s t : Cursor} {v : α} (h : p s = .done v t) :
    t.rest.length ≤ s.rest.length := by
  obtain ⟨taken, hrest, -⟩ := hp s v t h
  simp [hrest]

lemma Eats.bind (hp : p.Eats) (hf : ∀ v, (f v).Moves) : (p >>= f).Eats := by
  intro s w u h
  obtain ⟨v, t, hv, h⟩ := bind_eq_done.mp h
  exact Nat.lt_of_le_of_lt ((hf v).length_le h) (hp s v t hv)

lemma eats_bind (hp : p.Moves) (hf : ∀ v, (f v).Eats) : (p >>= f).Eats := by
  intro s w u h
  obtain ⟨v, t, hv, h⟩ := bind_eq_done.mp h
  exact Nat.lt_of_lt_of_le (hf v t w u h) (hp.length_le hv)

lemma eats_orElse (hp : p.Eats) (hq : q.Eats) : (orElse p q).Eats := by
  intro s v t h
  obtain h | ⟨-, h⟩ := orElse_eq_done.mp h
  · exact hp s v t h
  · exact hq s v t h

lemma eats_choice {ps : List (Parser α)} (h : ∀ p ∈ ps, p.Eats) : (choice ps).Eats := by
  intro s v t hs
  obtain ⟨p, hp, hs⟩ := choice_eq_done hs
  exact h p hp s v t hs

lemma eats_padded (hp : p.Eats) : (padded p).Eats :=
  eats_bind moves_blanks fun _ => hp.bind fun v => moves_bind moves_blanks fun _ => moves_pure v

lemma eats_char (c : Char) : (char c).Eats := by
  intro s v t h
  simp [(char_eq_done h).1]

lemma eats_keyword {word : String} (hword : word.toList ≠ []) : (keyword word).Eats := by
  intro s v t h
  simp [(keyword_eq_done h).1, List.length_pos_iff.mpr hword]

/-- Behind a run stands no character of its class. -/
lemma head_dropWhile (isIn : Char → Bool) (text : List Char) :
    ∀ c ∈ (text.dropWhile isIn).head?, isIn c = false := by
  intro c hc
  have hnot := List.head?_dropWhile_not isIn text
  rw [Option.mem_def.mp hc] at hnot
  simpa using hnot

lemma run1_eq_done {isIn : Char → Bool} {s t : Cursor} {v : List Char}
    (h : run1 isIn s = .done v t) :
    v ≠ [] ∧ s.rest.takeWhile isIn = v ∧ s.rest.dropWhile isIn = t.rest ∧ t.line = s.line := by
  unfold run1 at h
  rw [List.span_eq_takeWhile_dropWhile] at h
  split at h
  · cases h
  · next taken rest htaken hspan =>
      obtain ⟨rfl, rfl⟩ := Outcome.done.inj h
      obtain ⟨htake, hdrop⟩ := Prod.mk.inj hspan
      exact ⟨htaken, htake, hdrop, rfl⟩

lemma eats_run1 (isIn : Char → Bool) : (run1 isIn).Eats := by
  intro s v t h
  obtain ⟨hne, htake, hdrop, -⟩ := run1_eq_done h
  rw [← List.takeWhile_append_dropWhile (p := isIn) (l := s.rest), htake, hdrop,
    List.length_append]
  exact Nat.lt_add_of_pos_left (List.length_pos_iff.mpr hne)

/-- Where a parser does not miss, such a start stands behind the blanks. -/
def Opens (S : Start → Prop) (p : Parser α) : Prop := ∀ s, p s ≠ .miss → S s.start

variable {S T : Start → Prop}

lemma Opens.mono (h : p.Opens S) (hST : ∀ x, S x → T x) : p.Opens T :=
  fun s hs => hST _ (h s hs)

lemma Opens.eq_miss (h : p.Opens S) {s : Cursor} (hs : ¬S s.start) : p s = .miss := by
  by_contra hmiss
  exact hs (h s hmiss)

lemma opens_bind (hp : p.Opens S) (f : α → Parser β) : (p >>= f).Opens S := by
  intro s hs
  apply hp s
  intro hmiss
  apply hs
  rw [bind_apply, hmiss]

lemma opens_line {f : Nat → Parser β} (h : ∀ l, (f l).Opens S) : (line >>= f).Opens S :=
  fun s hs => h s.line s hs

lemma opens_orElse (hp : p.Opens S) (hq : q.Opens S) : (orElse p q).Opens S := by
  intro s hs
  by_cases hmiss : p s = .miss
  · apply hq s
    rwa [orElse_apply, hmiss] at hs
  · exact hp s hmiss

lemma opens_choice {ps : List (Parser α)} (h : ∀ p ∈ ps, p.Opens S) : (choice ps).Opens S := by
  induction ps with
  | nil => exact fun s hs => absurd rfl hs
  | cons p ps ih => exact opens_orElse (h p (by simp)) (ih fun q hq => h q (by simp [hq]))

lemma opens_padded (hp : p.Opens S) : (padded p).Opens S := by
  intro s hs
  have hstart := opens_bind hp (fun v => blanks >>= fun _ => pure v)
    (skipFrom false s.rest s.line) hs
  rwa [start_skipFrom] at hstart

lemma opens_char {c : Char} (hsolid : isSolid c) (halpha : c.isAlpha = false) :
    (char c).Opens (· = .sign c) := by
  rintro ⟨text, line⟩ hs
  cases text with
  | nil => exact absurd rfl hs
  | cons d rest =>
      obtain rfl : d = c := by
        by_contra hd
        exact hs (if_neg hd)
      rw [(settled_of_isSolid hsolid rest line).start, startOf_sign halpha]

/-- No letter or digit follows a word that has been read. -/
lemma head_of_keyword {word : String} {s t : Cursor} {v : Unit}
    (h : keyword word s = .done v t) : ∀ c ∈ t.rest.head?, Text.isAlphanumeric c = false := by
  unfold keyword at h
  split at h
  · next c rest _ =>
      split at h
      · cases h
      · next hc =>
          obtain rfl : Cursor.mk (c :: rest) s.line = t := by simpa using h
          intro d hd
          obtain rfl : c = d := by simpa using hd
          simpa using hc
  · obtain rfl : Cursor.mk [] s.line = t := by simpa using h
    simp
  · cases h

lemma keyword_append (word : String) {rest : List Char} (line : Nat)
    (hrest : ∀ c ∈ rest.head?, Text.isAlphanumeric c = false) :
    keyword word ⟨word.toList ++ rest, line⟩ = .done () ⟨rest, line⟩ := by
  unfold keyword
  rw [Text.after?_append]
  cases rest with
  | nil => rfl
  | cons c rest => simp [hrest c rfl]

lemma Shallow.exists_done (hp : p.Shallow) {s : Cursor} (hs : p s ≠ .miss) :
    ∃ v t, p s = .done v t := by
  cases h : p s with
  | done v t => exact ⟨v, t, rfl⟩
  | miss => exact absurd h hs
  | tooDeep line => exact absurd h (hp s line)

/-- Where a word stands, neither blanks nor a comment do. -/
lemma start_of_plain {name : String} {rest : List Char} {s : Cursor} (hname : isPlain name.toList)
    (hs : s.rest = name.toList ++ rest) (hrest : ∀ c ∈ rest.head?, c.isAlphanum = false) :
    s.start = .word name := by
  obtain ⟨text, line⟩ := s
  obtain rfl : text = name.toList ++ rest := hs
  obtain ⟨c, tail, hcons, -, -⟩ := isPlain_cons hname
  have hc : c.isAlphanum := alphanum_of_isPlain hname c (by simp [hcons])
  have hsettled : Cursor.Settled ⟨name.toList ++ rest, line⟩ := by
    rw [hcons]
    exact settled_of_isSolid (isSolid_of_isAlphanum hc) _ line
  rw [hsettled.start, startOf_word hname hrest, String.ofList_toList]

lemma opens_keyword {word : String} (hword : word ∈ reserved) :
    (keyword word).Opens (· = .word word) := by
  intro s hs
  obtain ⟨_, t, ht⟩ := (shallow_keyword word).exists_done hs
  refine start_of_plain (isPlain_of_reserved word hword) (keyword_eq_done ht).1 ?_
  intro c hc
  by_contra halphanum
  have hfollows := isAlphanumeric_of_isAlphanum (Bool.of_not_eq_false halphanum)
  rw [head_of_keyword ht c hc] at hfollows
  cases hfollows

lemma opens_digits : (run1 Char.isDigit).Opens fun x => ∃ c, c.isDigit ∧ x = .sign c := by
  rintro ⟨text, line⟩ hs
  cases text with
  | nil => exact absurd rfl hs
  | cons c rest =>
      have hc : c.isDigit := by
        by_contra hc
        apply hs
        unfold run1
        rw [List.span_eq_takeWhile_dropWhile, List.takeWhile_cons_of_neg hc]
      refine ⟨c, hc, ?_⟩
      have halpha : c.isAlpha = false := by
        by_contra halpha
        have hletter := leadOf_letter (Bool.of_not_eq_false halpha)
        rw [leadOf_digit hc] at hletter
        cases hletter
      have hsolid := isSolid_of_isAlphanum (c := c) (by simp [Char.isAlphanum, hc])
      rw [(settled_of_isSolid hsolid rest line).start, startOf_sign halpha]

/-- The values are read one after the other. -/
inductive ReadsAll (p : Parser α) : List α → Cursor → Cursor → Prop
  | nil {s : Cursor} : ReadsAll p [] s s
  | cons {v : α} {vs : List α} {s t u : Cursor} (h : p s = .done v t)
      (hrest : ReadsAll p vs t u) : ReadsAll p (v :: vs) s u

namespace ReadsAll

variable {vs ws : List α} {s t u : Cursor}

lemma append (h : ReadsAll p vs s t) (h' : ReadsAll p ws t u) : ReadsAll p (vs ++ ws) s u := by
  induction h with
  | nil => exact h'
  | cons hv _ ih => exact .cons hv (ih h')

lemma leads (hp : p.Moves) (h : ReadsAll p vs s t) : s.Leads t := by
  induction h with
  | nil => exact .refl _
  | cons hv _ ih => exact (hp _ _ _ hv).trans ih

lemma settled (hp : p.EndsSettled) (hs : s.Settled) (h : ReadsAll p vs s t) : t.Settled := by
  induction h with
  | nil => exact hs
  | cons hv _ ih => exact ih (hp _ _ _ hv)

lemma length_le (hp : p.Eats) (h : ReadsAll p vs s t) : vs.length ≤ s.rest.length := by
  induction h with
  | nil => exact Nat.zero_le _
  | cons hv _ ih => exact Nat.lt_of_le_of_lt ih (hp _ _ _ hv)

end ReadsAll

lemma readsAll_of_manyUpTo (hp : p.Eats) (hnil : ∀ line, p ⟨[], line⟩ = .miss) {turns : Nat}
    {vs : List α} {s t : Cursor} (hturns : s.rest.length ≤ turns)
    (h : manyUpTo p turns s = .done vs t) : ReadsAll p vs s t ∧ p t = .miss := by
  induction turns generalizing s vs with
  | zero =>
      obtain ⟨rfl, rfl⟩ : vs = [] ∧ s = t := by simpa [manyUpTo, eq_comm] using h
      obtain ⟨text, line⟩ := s
      obtain rfl : text = [] := List.length_eq_zero_iff.mp (Nat.le_zero.mp hturns)
      exact ⟨.nil, hnil line⟩
  | succ turns ih =>
      unfold manyUpTo at h
      split at h
      · next hmiss =>
          obtain ⟨rfl, rfl⟩ : vs = [] ∧ s = t := by simpa [eq_comm] using h
          exact ⟨.nil, hmiss⟩
      · cases h
      · next v a hv =>
          split at h
          · next ws b hws =>
              obtain ⟨rfl, rfl⟩ : v :: ws = vs ∧ b = t := by simpa using h
              have hshorter := hp s v a hv
              obtain ⟨hreads, hmiss⟩ := ih (by omega) hws
              exact ⟨.cons hv hreads, hmiss⟩
          · cases h
          · cases h

lemma manyUpTo_of_readsAll {turns : Nat} {vs : List α} {s t : Cursor} (hreads : ReadsAll p vs s t)
    (hmiss : p t = .miss) (hturns : vs.length ≤ turns) :
    manyUpTo p turns s = .done vs t := by
  induction hreads generalizing turns with
  | nil =>
      cases turns with
      | zero => rfl
      | succ turns =>
          unfold manyUpTo
          rw [hmiss]
  | cons hv _ ih =>
      obtain ⟨turns, rfl⟩ := Nat.exists_eq_succ_of_ne_zero (Nat.ne_of_gt (Nat.zero_lt_of_lt hturns))
      unfold manyUpTo
      rw [hv]
      dsimp only
      rw [ih hmiss (Nat.le_of_succ_le_succ hturns)]

/-- A loop reads values until its parser misses. -/
lemma many_eq_done (hp : p.Eats) (hnil : ∀ line, p ⟨[], line⟩ = .miss) {vs : List α}
    {s t : Cursor} : many p s = .done vs t ↔ ReadsAll p vs s t ∧ p t = .miss := by
  constructor
  · exact readsAll_of_manyUpTo hp hnil (Nat.le_refl _)
  · rintro ⟨hreads, hmiss⟩
    exact manyUpTo_of_readsAll hreads hmiss (hreads.length_le hp)

end Parser

namespace Start

def IsOperand : Start → Prop
  | nothing => False
  | sign c => c.isDigit ∨ c ∈ ['(', '.', ':', '-']
  | word name => ∃ q : Query, name = q.name

def IsStatement : Start → Prop
  | word name => name ∈ ["if", "repeat", "make", "to"] ∨ name ∉ reserved
  | _ => False

/-- No input of a call starts in this way, and no rest of an expression. -/
def Closing : Start → Prop
  | nothing => True
  | sign c => c = ']'
  | word name => ∀ q : Query, name ≠ q.name

lemma IsStatement.closing {x : Start} (h : x.IsStatement) : x.Closing := by
  cases x with
  | nothing | sign => cases h
  | word name =>
      rintro q rfl
      revert h
      cases q <;> simp [IsStatement, Query.name, reserved]

end Start

/-- What a name that has been read looks like. -/
lemma name_of_ident {s t : Cursor} {v : Ident} (h : ident s = .done v t) :
    isName v.name ∧ s.rest = v.name.toList ++ t.rest ∧ v.line = s.line ∧ t.line = s.line ∧
      ∀ c ∈ t.rest.head?, c.isAlphanum = false := by
  obtain ⟨text, line⟩ := s
  unfold ident at h
  cases text with
  | nil => cases h
  | cons c rest =>
      dsimp only at h
      rw [List.span_eq_takeWhile_dropWhile] at h
      dsimp only at h
      split at h
      · next hname =>
          obtain ⟨rfl, rfl⟩ := Outcome.done.inj h
          obtain ⟨hc, hname⟩ := Bool.and_eq_true_iff.mp hname
          refine ⟨?_, ?_, rfl, rfl, head_dropWhile Char.isAlphanum rest⟩
          · rw [isName, String.toList_ofList, hname, Bool.and_true]
            exact Bool.and_eq_true_iff.mpr ⟨hc, List.all_takeWhile⟩
          · rw [String.toList_ofList, List.cons_append, List.takeWhile_append_dropWhile]
      · cases h

lemma ident_append {name : String} {rest : List Char} (line : Nat) (hname : isName name)
    (hrest : ∀ c ∈ rest.head?, c.isAlphanum = false) :
    ident ⟨name.toList ++ rest, line⟩ = .done ⟨name, line⟩ ⟨rest, line⟩ := by
  obtain ⟨c, tail, hcons, hc, htail⟩ := isPlain_cons (isPlain_of_isName hname)
  have hword : String.ofList (c :: tail) = name := by rw [← hcons, String.ofList_toList]
  rw [hcons, List.cons_append]
  unfold ident
  dsimp only
  rw [Text.span_append (List.all_eq_true.mp htail) hrest]
  dsimp only
  rw [hword, hc, if_pos]
  simpa using isName_not_reserved hname

lemma opens_ident : ident.Opens fun x => ∃ name, x = .word name ∧ name ∉ reserved := by
  intro s hs
  obtain ⟨v, t, ht⟩ := shallow_ident.exists_done hs
  obtain ⟨hname, hrest, -, -, hnext⟩ := name_of_ident ht
  exact ⟨v.name, start_of_plain (isPlain_of_isName hname) hrest hnext, isName_not_reserved hname⟩

lemma eats_ident : ident.Eats := by
  intro s v t h
  obtain ⟨hname, hrest, -⟩ := name_of_ident h
  obtain ⟨c, tail, hcons, -⟩ := isPlain_cons (isPlain_of_isName hname)
  simp [hrest, hcons]

lemma opens_variableName : variableName.Opens (· = .sign ':') :=
  opens_bind (opens_char (by decide) (by decide)) _

lemma eats_variableName : variableName.Eats := (eats_char ':').bind fun _ => moves_ident

lemma opens_number : number.Opens fun x => ∃ c, (c.isDigit ∨ c = '.') ∧ x = .sign c := by
  apply opens_orElse
  · apply opens_bind
    refine opens_digits.mono ?_
    rintro x ⟨c, hc, rfl⟩
    exact ⟨c, .inl hc, rfl⟩
  · apply opens_bind
    refine (opens_char (by decide) (by decide)).mono ?_
    rintro x rfl
    exact ⟨'.', .inr rfl, rfl⟩

lemma eats_number : number.Eats :=
  eats_orElse
    ((eats_run1 _).bind fun _ => moves_bind moves_fraction fun _ => moves_pure _)
    ((eats_char '.').bind fun _ => moves_bind (moves_run1 (by decide)) fun _ => moves_pure _)

lemma mem_reserved_of_query (q : Query) : q.name ∈ reserved := by cases q <;> decide

lemma opens_query : query.Opens fun x => ∃ q : Query, x = .word q.name := by
  apply opens_choice
  intro p hp
  obtain ⟨q, -, rfl⟩ := List.mem_map.mp hp
  apply opens_bind
  refine (opens_keyword (mem_reserved_of_query q)).mono ?_
  rintro x rfl
  exact ⟨q, rfl⟩

lemma eats_query : query.Eats := by
  apply eats_choice
  intro p hp
  obtain ⟨q, -, rfl⟩ := List.mem_map.mp hp
  exact (eats_keyword (by cases q <;> decide)).bind fun _ => moves_pure q

section Signs

variable {α : Type} (signs : List (Char × α))

lemma opens_sign (h : ∀ x ∈ signs, isSolid x.1 ∧ x.1.isAlpha = false) :
    (sign signs).Opens fun x => ∃ c ∈ signs.map Prod.fst, x = .sign c := by
  apply opens_choice
  intro p hp
  obtain ⟨⟨c, v⟩, hmem, rfl⟩ := List.mem_map.mp hp
  apply opens_padded
  apply opens_bind
  obtain ⟨hsolid, halpha⟩ := h (c, v) hmem
  refine (opens_char hsolid halpha).mono ?_
  rintro x rfl
  exact ⟨c, List.mem_map_of_mem hmem, rfl⟩

lemma eats_sign : (sign signs).Eats := by
  apply eats_choice
  intro p hp
  obtain ⟨x, -, rfl⟩ := List.mem_map.mp hp
  exact eats_padded ((eats_char x.1).bind fun _ => moves_pure x.2)

end Signs

lemma opens_comparison : comparison.Opens fun x => ∃ c : Comparison, x = .sign c.sign := by
  apply opens_padded
  apply opens_choice
  intro p hp
  simp only [List.mem_cons, List.not_mem_nil, or_false] at hp
  obtain rfl | rfl | rfl := hp
  all_goals
    apply opens_bind
    refine (opens_char (by decide) (by decide)).mono ?_
    rintro x rfl
  · exact ⟨.equal, rfl⟩
  · exact ⟨.less, rfl⟩
  · exact ⟨.greater, rfl⟩

lemma eats_comparison : comparison.Eats := by
  apply eats_padded
  apply eats_choice
  intro p hp
  simp only [List.mem_cons, List.not_mem_nil, or_false] at hp
  obtain rfl | rfl | rfl := hp <;>
    exact (eats_char _).bind fun _ => moves_pure _

lemma opens_operand (room : Nat) : (operand (room + 1)).Opens Start.IsOperand := by
  apply opens_padded
  apply opens_choice
  intro p hp
  simp only [List.mem_cons, List.not_mem_nil, or_false] at hp
  obtain rfl | rfl | rfl | rfl | rfl := hp
  · apply opens_bind
    refine (opens_char (by decide) (by decide)).mono ?_
    rintro x rfl
    exact .inr (by simp)
  · apply opens_bind
    refine opens_number.mono ?_
    rintro x ⟨c, hc | rfl, rfl⟩
    · exact .inl hc
    · exact .inr (by simp)
  · apply opens_bind
    refine opens_variableName.mono ?_
    rintro x rfl
    exact .inr (by simp)
  · apply opens_bind
    refine (opens_char (by decide) (by decide)).mono ?_
    rintro x rfl
    exact .inr (by simp)
  · apply opens_bind
    refine opens_query.mono ?_
    rintro x ⟨q, rfl⟩
    exact ⟨q, rfl⟩

lemma eats_operand (room : Nat) : (operand room).Eats := by
  cases room with
  | zero =>
      intro s v t h
      cases h
  | succ room =>
      apply eats_padded
      apply eats_choice
      intro p hp
      simp only [List.mem_cons, List.not_mem_nil, or_false] at hp
      obtain rfl | rfl | rfl | rfl | rfl := hp
      · exact (eats_char '(').bind fun _ => moves_bind (moves_sum (moves_operand room)) fun e =>
          moves_bind (moves_char (by decide)) fun _ => moves_pure e
      · exact eats_number.bind fun _ => moves_pure _
      · exact eats_variableName.bind fun _ => moves_pure _
      · exact (eats_char '-').bind fun _ => moves_bind (moves_operand room) fun _ => moves_pure _
      · exact eats_query.bind fun _ => moves_pure _

lemma opens_expr (levels : Nat) : (exprAt levels).Opens Start.IsOperand :=
  opens_bind (opens_bind (opens_operand levels) _) _

lemma eats_product (room : Nat) : (chain productSign (operand room)).Eats :=
  (eats_operand room).bind fun e =>
    moves_chainTail (moves_sign (by decide)) (moves_operand room) _ e

lemma eats_expr (levels : Nat) : (exprAt levels).Eats :=
  (eats_product (levels + 1)).bind fun e =>
    moves_chainTail (moves_sign (by decide)) (moves_reader .product (levels + 1)) _ e

lemma opens_word : word.Opens (· = .sign '"') := opens_bind (opens_char (by decide) (by decide)) _

lemma eats_word : word.Eats :=
  (eats_char '"').bind fun _ => moves_bind moves_line fun _ =>
    moves_bind (moves_run1 (by decide)) fun _ => moves_pure _

lemma opens_arg (levels : Nat) :
    (arg (exprAt levels)).Opens fun x => x = .sign '"' ∨ x.IsOperand := by
  apply opens_orElse
  · exact opens_bind ((opens_padded opens_word).mono fun x hx => .inl hx) _
  · exact opens_bind ((opens_expr levels).mono fun x hx => .inr hx) _

lemma eats_arg (levels : Nat) : (arg (exprAt levels)).Eats :=
  eats_orElse ((eats_padded eats_word).bind fun _ => moves_pure _)
    ((eats_expr levels).bind fun _ => moves_pure _)

lemma opens_block (levels : Nat) : (block (bodyReader levels)).Opens (· = .sign '[') :=
  opens_bind (opens_padded (opens_char (by decide) (by decide))) _

lemma placedIn_bodyReader (levels : Nat) : ∀ p ∈ bodyReader levels, PlacedIn p := by
  intro p hp
  cases levels with
  | zero => cases hp
  | succ levels =>
      obtain rfl : many (statement levels) = p := by simpa [bodyReader] using hp
      exact (placed_statement levels).many

lemma moves_block (levels : Nat) : (block (bodyReader levels)).Moves :=
  fun s v t h => (placed_block (placedIn_bodyReader levels) s v t h).1

lemma eats_block (levels : Nat) : (block (bodyReader levels)).Eats := by
  refine (eats_padded (eats_char '[')).bind fun _ => ?_
  cases levels with
  | zero => exact moves_tooDeep
  | succ levels =>
      exact moves_bind (moves_many (moves_statement levels)) fun _ =>
        moves_bind (moves_padded (moves_char (by decide))) fun _ => moves_pure _

lemma opens_definition (levels : Nat) : (definition (bodyReader levels)).Opens (· = .word "to") :=
  opens_bind (opens_keyword (by decide)) _

lemma opens_statement (levels : Nat) : (statement levels).Opens Start.IsStatement := by
  have hkeyword {word : String} (hword : word ∈ ["if", "repeat", "make", "to"])
      (hreserved : word ∈ reserved) : (keyword word).Opens Start.IsStatement := by
    refine (opens_keyword hreserved).mono ?_
    rintro x rfl
    exact .inl hword
  rw [statement_eq_statementWith]
  apply opens_padded
  apply opens_choice
  intro p hp
  simp only [List.mem_cons, List.not_mem_nil, or_false] at hp
  obtain rfl | rfl | rfl | rfl | rfl := hp
  · exact opens_line fun _ => opens_bind (hkeyword (by simp) (by decide)) _
  · exact opens_line fun _ => opens_bind (hkeyword (by simp) (by decide)) _
  · exact opens_bind (hkeyword (by simp) (by decide)) _
  · exact opens_bind (hkeyword (by simp) (by decide)) _
  · apply opens_bind
    refine (opens_padded opens_ident).mono ?_
    rintro x ⟨name, rfl, hname⟩
    exact .inr hname

lemma eats_definition (levels : Nat) : (definition (bodyReader levels)).Eats := by
  refine (eats_keyword (by decide)).bind fun _ => ?_
  cases levels with
  | zero => exact moves_tooDeep
  | succ levels =>
      exact moves_bind (moves_padded moves_ident) fun _ =>
        moves_bind (moves_many (moves_padded moves_variableName)) fun _ =>
          moves_bind (moves_many (moves_statement levels)) fun _ =>
            moves_bind moves_line fun _ => moves_bind (moves_keyword (by decide)) fun _ =>
              moves_pure _

lemma eats_statement (levels : Nat) : (statement levels).Eats := by
  have hexpr := moves_expr levels
  have hblock := moves_block levels
  rw [statement_eq_statementWith]
  apply eats_padded
  apply eats_choice
  intro p hp
  simp only [List.mem_cons, List.not_mem_nil, or_false] at hp
  obtain rfl | rfl | rfl | rfl | rfl := hp
  · exact eats_bind moves_line fun _ => (eats_keyword (by decide)).bind fun _ =>
      moves_bind (moves_condition hexpr) fun _ => moves_bind hblock fun _ => moves_pure _
  · exact eats_bind moves_line fun _ => (eats_keyword (by decide)).bind fun _ =>
      moves_bind hexpr fun _ => moves_bind hblock fun _ => moves_pure _
  · exact (eats_keyword (by decide)).bind fun _ =>
      moves_bind (moves_padded (moves_bind (moves_char (by decide)) fun _ => moves_ident)) fun _ =>
        moves_bind hexpr fun _ => moves_pure _
  · exact eats_definition levels
  · exact (eats_padded eats_ident).bind fun _ =>
      moves_bind (moves_many (moves_arg hexpr)) fun _ => moves_pure _

end LogoStudio.Logo
