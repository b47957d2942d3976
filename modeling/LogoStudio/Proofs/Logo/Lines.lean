import LogoStudio.Proofs.Logo.Layout
import LogoStudio.Proofs.Logo.Reading
import Mathlib.Data.List.TakeDrop
import Mathlib.Data.List.TakeWhile

/-!
# Lines

A parser that reads something moves its place over the text it took, and counts the line
feeds in it. So every line that a syntax tree holds is the line of a place in the source,
and the lines of the code come from the tree.
-/
namespace LogoStudio.Logo

namespace Cursor

/-- One place lies before another, or they are the same. -/
def Leads (s t : Cursor) : Prop :=
  ∃ taken, s.rest = taken ++ t.rest ∧ t.line = s.line + taken.count '\n'

lemma Leads.refl (s : Cursor) : s.Leads s := ⟨[], rfl, rfl⟩

lemma Leads.trans {s t u : Cursor} (h : s.Leads t) (h' : t.Leads u) : s.Leads u := by
  obtain ⟨a, ha, hline⟩ := h
  obtain ⟨b, hb, hline'⟩ := h'
  refine ⟨a ++ b, by rw [ha, hb, List.append_assoc], ?_⟩
  rw [hline', hline, List.count_append, Nat.add_assoc]

/-- A line on which some text stands at `s` or later. -/
def Sees (s : Cursor) (line : Nat) : Prop := ∃ t, s.Leads t ∧ t.rest ≠ [] ∧ t.line = line

lemma Leads.sees {s t : Cursor} {line : Nat} (h : s.Leads t) (h' : t.Sees line) : s.Sees line := by
  obtain ⟨u, hu, hrest, hline⟩ := h'
  exact ⟨u, h.trans hu, hrest, hline⟩

lemma linesFrom_ne_nil (line : List Char) {rest : List Char} (h : rest ≠ []) :
    Text.linesFrom line rest ≠ [] := by
  induction rest generalizing line with
  | nil => exact absurd rfl h
  | cons c rest ih =>
      unfold Text.linesFrom
      split
      · simp
      · cases rest with
        | nil => simp [Text.linesFrom]
        | cons d rest => exact ih _ (by simp)

lemma count_lt_length_linesFrom (line taken : List Char) {rest : List Char} (h : rest ≠ []) :
    taken.count '\n' < (Text.linesFrom line (taken ++ rest)).length := by
  induction taken generalizing line with
  | nil =>
      rw [List.nil_append, List.count_nil, List.length_pos_iff]
      exact linesFrom_ne_nil line h
  | cons c taken ih =>
      rw [List.cons_append]
      unfold Text.linesFrom
      by_cases hc : c = '\n'
      · have hrest := ih []
        rw [if_pos hc, hc, List.count_cons_self, List.length_cons]
        omega
      · have hrest := ih (c :: line)
        rw [if_neg hc, List.count_cons_of_ne hc]
        exact hrest

/-- A line with text on it is one of the lines of the source. -/
lemma Sees.le_lineCount {source : String} {line : Nat} (h : Sees ⟨source.toList, 1⟩ line) :
    1 ≤ line ∧ line ≤ lineCount source := by
  obtain ⟨t, ⟨taken, htext, hline⟩, hrest, rfl⟩ := h
  have hcount := count_lt_length_linesFrom [] taken hrest
  rw [← show source.toList = taken ++ t.rest from htext] at hcount
  have hlines : (Text.lines source.toList).length ≤ lineCount source := Nat.le_max_left _ _
  rw [Text.lines] at hlines
  rw [hline]
  dsimp only
  omega

end Cursor

namespace Parser

/-- A parser that reads something moves over the text it took. -/
def Moves {α : Type} (p : Parser α) : Prop := ∀ s v t, p s = .done v t → s.Leads t

variable {α β : Type} {p q : Parser α}

lemma bind_eq_done {f : α → Parser β} {s u : Cursor} {w : β} :
    (p >>= f) s = .done w u ↔ ∃ v t, p s = .done v t ∧ f v t = .done w u := by
  rw [bind_apply]
  cases p s with
  | done v t =>
      constructor
      · intro h
        exact ⟨v, t, rfl, h⟩
      · rintro ⟨v', t', h, h'⟩
        cases h
        exact h'
  | miss => simp
  | tooDeep line => simp

@[simp] lemma pure_eq_done {s t : Cursor} {v w : α} :
    (pure v : Parser α) s = .done w t ↔ v = w ∧ s = t := by
  change (Outcome.done v s = .done w t) ↔ _
  simp

lemma orElse_eq_done {s t : Cursor} {v : α} :
    orElse p q s = .done v t ↔ p s = .done v t ∨ (p s = .miss ∧ q s = .done v t) := by
  rw [orElse_apply]
  cases p s <;> simp

lemma choice_eq_done {ps : List (Parser α)} {s t : Cursor} {v : α}
    (h : choice ps s = .done v t) : ∃ p ∈ ps, p s = .done v t := by
  induction ps with
  | nil => cases h
  | cons p rest ih =>
      obtain h | ⟨-, h⟩ := orElse_eq_done.mp h
      · exact ⟨p, by simp, h⟩
      · obtain ⟨q, hq, h⟩ := ih h
        exact ⟨q, by simp [hq], h⟩

lemma moves_pure (v : α) : Moves (pure v : Parser α) := by
  intro s w t h
  obtain ⟨-, rfl⟩ := pure_eq_done.mp h
  exact .refl s

lemma moves_bind {f : α → Parser β} (hp : p.Moves) (hf : ∀ v, (f v).Moves) :
    Moves (p >>= f) := by
  intro s w u h
  obtain ⟨v, t, h, h'⟩ := bind_eq_done.mp h
  exact (hp s v t h).trans (hf v t w u h')

lemma moves_orElse (hp : p.Moves) (hq : q.Moves) : (orElse p q).Moves := by
  intro s v t h
  obtain h | ⟨-, h⟩ := orElse_eq_done.mp h
  · exact hp s v t h
  · exact hq s v t h

lemma moves_choice {ps : List (Parser α)} (h : ∀ p ∈ ps, p.Moves) : (choice ps).Moves := by
  intro s v t hs
  obtain ⟨p, hp, hs⟩ := choice_eq_done hs
  exact h p hp s v t hs

lemma moves_tooDeep : (tooDeep : Parser α).Moves := by
  intro s v t h
  cases h

lemma moves_line : line.Moves := by
  intro s v t h
  obtain ⟨-, rfl⟩ : s.line = v ∧ s = t := by simpa [line] using h
  exact .refl s

/-- What a loop reads, it reads one value at a time on the way. -/
lemma manyUpTo_done {turns : Nat} {s t : Cursor} {vs : List α} (hp : p.Moves)
    (h : manyUpTo p turns s = .done vs t) :
    s.Leads t ∧ ∀ v ∈ vs, ∃ a b, s.Leads a ∧ p a = .done v b := by
  induction turns generalizing s vs with
  | zero =>
      obtain ⟨rfl, rfl⟩ : vs = [] ∧ s = t := by simpa [manyUpTo, eq_comm] using h
      exact ⟨.refl s, by simp⟩
  | succ turns ih =>
      unfold manyUpTo at h
      split at h
      · obtain ⟨rfl, rfl⟩ : vs = [] ∧ s = t := by simpa [eq_comm] using h
        exact ⟨.refl s, by simp⟩
      · cases h
      · next v next hv =>
          split at h
          · next values last hvalues =>
              obtain ⟨rfl, rfl⟩ : v :: values = vs ∧ last = t := by simpa using h
              obtain ⟨hleads, hmem⟩ := ih hvalues
              have hfirst := hp s v next hv
              refine ⟨hfirst.trans hleads, ?_⟩
              intro w hw
              obtain rfl | hw := List.mem_cons.mp hw
              · exact ⟨s, next, .refl s, hv⟩
              · obtain ⟨a, b, ha, hab⟩ := hmem w hw
                exact ⟨a, b, hfirst.trans ha, hab⟩
          · cases h
          · cases h

lemma moves_many (hp : p.Moves) : (many p).Moves := fun _ _ _ h => (manyUpTo_done hp h).1

lemma skipFrom_leads (inside : Bool) (text : List Char) (line : Nat) :
    Cursor.Leads ⟨text, line⟩ (skipFrom inside text line) := by
  induction text generalizing inside line with
  | nil => exact .refl _
  | cons c rest ih =>
      have hstep (line' : Nat) (hline : line' = line + [c].count '\n') (inside : Bool) :
          Cursor.Leads ⟨c :: rest, line⟩ (skipFrom inside rest line') :=
        Cursor.Leads.trans ⟨[c], rfl, hline⟩ (ih inside line')
      unfold skipFrom
      by_cases hc : c = '\n'
      · rw [if_pos hc]
        exact hstep (line + 1) (by simp [hc]) false
      · have hsame : line = line + [c].count '\n' := by simp [hc]
        rw [if_neg hc]
        split
        · exact hstep line hsame true
        · split
          · exact hstep line hsame false
          · split
            · exact hstep line hsame true
            · exact .refl _

lemma moves_blanks : blanks.Moves := by
  intro s v t h
  obtain rfl : skipFrom false s.rest s.line = t := by simpa [blanks] using h
  exact skipFrom_leads false s.rest s.line

lemma moves_padded (hp : p.Moves) : (padded p).Moves :=
  moves_bind moves_blanks fun _ => moves_bind hp fun v =>
    moves_bind moves_blanks fun _ => moves_pure v

/-- A padded parser reads somewhere after the blanks. -/
lemma padded_eq_done {s t : Cursor} {v : α} (h : padded p s = .done v t) :
    ∃ a b, s.Leads a ∧ p a = .done v b ∧ b.Leads t := by
  obtain ⟨_, a, ha, h⟩ := bind_eq_done.mp h
  obtain ⟨w, b, hb, h⟩ := bind_eq_done.mp h
  obtain ⟨_, c, hc, h⟩ := bind_eq_done.mp h
  obtain ⟨rfl, rfl⟩ := pure_eq_done.mp h
  exact ⟨a, b, moves_blanks _ _ _ ha, hb, moves_blanks _ _ _ hc⟩

lemma leads_of_append {taken rest : List Char} {line : Nat} (h : '\n' ∉ taken) :
    Cursor.Leads ⟨taken ++ rest, line⟩ ⟨rest, line⟩ :=
  ⟨taken, rfl, by rw [List.count_eq_zero_of_not_mem h]; rfl⟩

lemma moves_char {c : Char} (hc : c ≠ '\n') : (char c).Moves := by
  rintro ⟨text, line⟩ v t h
  unfold char at h
  cases text with
  | nil => cases h
  | cons d rest =>
      dsimp only at h
      split at h
      · next hd =>
          obtain rfl : Cursor.mk rest line = t := by simpa using h
          exact @leads_of_append [d] rest line (by simpa [hd] using hc.symm)
      · cases h

lemma leads_span (isIn : Char → Bool) (hisIn : isIn '\n' = false) (text : List Char) (line : Nat) :
    Cursor.Leads ⟨text, line⟩ ⟨(text.span isIn).2, line⟩ := by
  have htaken : '\n' ∉ text.takeWhile isIn := by
    intro h
    have hin := List.mem_takeWhile_imp h
    rw [hisIn] at hin
    cases hin
  have hsplit := @leads_of_append (text.takeWhile isIn) (text.dropWhile isIn) line htaken
  rwa [List.takeWhile_append_dropWhile, ← show (text.span isIn).2 = text.dropWhile isIn by
    rw [List.span_eq_takeWhile_dropWhile]] at hsplit

lemma moves_run {isIn : Char → Bool} (hisIn : isIn '\n' = false) : (run isIn).Moves := by
  rintro ⟨text, line⟩ v t h
  obtain ⟨-, rfl⟩ : (text.span isIn).1 = v ∧ Cursor.mk (text.span isIn).2 line = t := by
    simpa [run] using h
  exact leads_span isIn hisIn text line

lemma moves_run1 {isIn : Char → Bool} (hisIn : isIn '\n' = false) : (run1 isIn).Moves := by
  rintro ⟨text, line⟩ v t h
  have hleads := leads_span isIn hisIn text line
  unfold run1 at h
  dsimp only at h
  split at h
  · cases h
  · next taken rest _ hspan =>
      obtain ⟨-, rfl⟩ : taken = v ∧ Cursor.mk rest line = t := by simpa using h
      rwa [hspan] at hleads

/-- A keyword stands where it is read. -/
lemma keyword_eq_done {word : String} {s t : Cursor} {v : Unit}
    (h : keyword word s = .done v t) : s.rest = word.toList ++ t.rest ∧ t.line = s.line := by
  unfold keyword at h
  cases hafter : Text.after? word.toList s.rest with
  | none => simp [hafter] at h
  | some rest =>
      rw [Text.after?_eq_some] at hafter
      cases rest with
      | nil =>
          rw [hafter, Text.after?_append] at h
          have ht : Cursor.mk [] s.line = t := by simpa using h
          rw [hafter, ← ht]
          exact ⟨rfl, rfl⟩
      | cons c rest =>
          rw [hafter, Text.after?_append] at h
          dsimp only at h
          split at h
          · cases h
          · have ht : Cursor.mk (c :: rest) s.line = t := by simpa using h
            rw [hafter, ← ht]
            exact ⟨rfl, rfl⟩

lemma moves_keyword {word : String} (hword : '\n' ∉ word.toList) : (keyword word).Moves := by
  intro s v t h
  obtain ⟨hrest, hline⟩ := keyword_eq_done h
  exact ⟨word.toList, hrest, by rw [hline, List.count_eq_zero_of_not_mem hword]; rfl⟩

end Parser

open LogoStudio.Logo.Parser

lemma ident_eq_done {s t : Cursor} {v : Ident} (h : ident s = .done v t) :
    s.Leads t ∧ s.rest ≠ [] ∧ v.line = s.line := by
  obtain ⟨text, line⟩ := s
  unfold ident at h
  cases text with
  | nil => cases h
  | cons c rest =>
      dsimp only at h
      split at h
      · next hname =>
          obtain ⟨rfl, rfl⟩ :
              Ident.mk (String.ofList (c :: (rest.span Char.isAlphanum).1)) line = v ∧
                Cursor.mk (rest.span Char.isAlphanum).2 line = t := by simpa using h
          have hc : c ≠ '\n' := by
            rintro rfl
            simp at hname
          refine ⟨?_, by simp, rfl⟩
          exact (@leads_of_append [c] rest line (by simpa using hc.symm)).trans
            (leads_span Char.isAlphanum (by decide) rest line)
      · cases h

lemma moves_ident : ident.Moves := fun _ _ _ h => (ident_eq_done h).1

lemma moves_variableName : variableName.Moves :=
  moves_bind (moves_char (by decide)) fun _ => moves_ident

lemma moves_fraction : fraction.Moves :=
  moves_orElse (moves_bind (moves_char (by decide)) fun _ => moves_run (by decide)) (moves_pure [])

lemma moves_number : number.Moves :=
  moves_orElse
    (moves_bind (moves_run1 (by decide)) fun _ => moves_bind moves_fraction fun _ => moves_pure _)
    (moves_bind (moves_char (by decide)) fun _ =>
      moves_bind (moves_run1 (by decide)) fun _ => moves_pure _)

lemma moves_query : query.Moves := by
  apply moves_choice
  intro p hp
  obtain ⟨q, -, rfl⟩ := List.mem_map.mp hp
  exact moves_bind (moves_keyword (by cases q <;> decide)) fun _ => moves_pure q

lemma moves_sign {α : Type} {signs : List (Char × α)} (h : ∀ x ∈ signs, x.1 ≠ '\n') :
    (sign signs).Moves := by
  apply moves_choice
  intro p hp
  obtain ⟨x, hx, rfl⟩ := List.mem_map.mp hp
  exact moves_padded (moves_bind (moves_char (h x hx)) fun _ => moves_pure x.2)

lemma moves_comparison : comparison.Moves := by
  apply moves_padded
  apply moves_choice
  intro p hp
  simp only [List.mem_cons, List.not_mem_nil, or_false] at hp
  obtain rfl | rfl | rfl := hp <;>
    exact moves_bind (moves_char (by decide)) fun _ => moves_pure _

section

variable {op : Parser Operator} {operand : Parser NumExpr}

lemma moves_chainTail (hop : op.Moves) (hoperand : operand.Moves) (left : Nat) (lhs : NumExpr) :
    (chainTail op operand left lhs).Moves := by
  induction left generalizing lhs with
  | zero =>
      intro s v t h
      unfold chainTail at h
      split at h
      · obtain ⟨-, rfl⟩ : lhs = v ∧ s = t := by simpa using h
        exact .refl s
      · cases h
      · split at h
        · obtain ⟨-, rfl⟩ : lhs = v ∧ s = t := by simpa using h
          exact .refl s
        · cases h
        · cases h
  | succ left ih =>
      intro s v t h
      unfold chainTail at h
      split at h
      · obtain ⟨-, rfl⟩ : lhs = v ∧ s = t := by simpa using h
        exact .refl s
      · cases h
      · next o next ho =>
          split at h
          · obtain ⟨-, rfl⟩ : lhs = v ∧ s = t := by simpa using h
            exact .refl s
          · cases h
          · next rhs last hrhs =>
              exact ((hop s o next ho).trans (hoperand next rhs last hrhs)).trans
                (ih _ last v t h)

lemma moves_sum (hoperand : operand.Moves) : (sum operand).Moves := by
  have hchain {op : Parser Operator} {p : Parser NumExpr} (hop : op.Moves) (hp : p.Moves) :
      (chain op p).Moves := moves_bind hp fun e => moves_chainTail hop hp _ e
  exact hchain (moves_sign (by decide)) (hchain (moves_sign (by decide)) hoperand)

end

lemma moves_operand (room : Nat) : (operand room).Moves := by
  induction room with
  | zero => exact moves_tooDeep
  | succ room ih =>
      apply moves_padded
      apply moves_choice
      intro p hp
      simp only [List.mem_cons, List.not_mem_nil, or_false] at hp
      obtain rfl | rfl | rfl | rfl | rfl := hp
      · exact moves_bind (moves_char (by decide)) fun _ => moves_bind (moves_sum ih) fun _ =>
          moves_bind (moves_char (by decide)) fun _ => moves_pure _
      · exact moves_bind moves_number fun _ => moves_pure _
      · exact moves_bind moves_variableName fun _ => moves_pure _
      · exact moves_bind (moves_char (by decide)) fun _ => moves_bind ih fun _ => moves_pure _
      · exact moves_bind moves_query fun _ => moves_pure _

lemma moves_word : word.Moves :=
  moves_bind (moves_char (by decide)) fun _ => moves_bind moves_line fun _ =>
    moves_bind (moves_run1 (by decide)) fun _ => moves_pure _

lemma moves_arg {expr : Parser NumExpr} (h : expr.Moves) : (arg expr).Moves :=
  moves_orElse (moves_bind (moves_padded moves_word) fun _ => moves_pure _)
    (moves_bind h fun _ => moves_pure _)

lemma moves_condition {expr : Parser NumExpr} (h : expr.Moves) : (condition expr).Moves :=
  moves_bind h fun _ => moves_bind moves_comparison fun _ => moves_bind h fun _ => moves_pure _

mutual
/-- The lines of a statement, of the statements in it, and of the names and ends of definitions. -/
def Statement.lines : Statement → List Nat
  | .define name _ body endLine => name.line :: endLine :: linesIn body
  | .call name _ => [name.line]
  | .branch line _ body => line :: linesIn body
  | .loop line _ body => line :: linesIn body
  | .make name _ => [name.line]
termination_by structural s => s

def linesIn : List Statement → List Nat
  | [] => []
  | s :: rest => s.lines ++ linesIn rest
termination_by structural l => l
end

lemma mem_linesIn {line : Nat} {statements : List Statement} :
    line ∈ linesIn statements ↔ ∃ s ∈ statements, line ∈ s.lines := by
  induction statements with
  | nil => simp [linesIn]
  | cons s rest ih => simp [linesIn, ih]

section

/-- A parser for statements that moves on and takes all lines from where it reads. -/
def Placed (p : Parser Statement) : Prop :=
  ∀ s v t, p s = .done v t → s.Leads t ∧ ∀ line ∈ v.lines, s.Sees line

/-- The same for a list of statements. -/
def PlacedIn (p : Parser (List Statement)) : Prop :=
  ∀ s v t, p s = .done v t → s.Leads t ∧ ∀ line ∈ linesIn v, s.Sees line

variable {expr : Parser NumExpr} {inner : Option (Parser (List Statement))}

lemma Placed.many {p : Parser Statement} (hp : Placed p) : PlacedIn (many p) := by
  intro s v t h
  obtain ⟨hleads, hmem⟩ := manyUpTo_done (fun s v t h => (hp s v t h).1) h
  refine ⟨hleads, ?_⟩
  intro line hline
  obtain ⟨w, hw, hline⟩ := mem_linesIn.mp hline
  obtain ⟨a, b, ha, hab⟩ := hmem w hw
  exact ha.sees ((hp a w b hab).2 line hline)

lemma placed_block (hinner : ∀ p ∈ inner, PlacedIn p) : PlacedIn (block inner) := by
  intro s v t h
  obtain ⟨_, a, ha, h⟩ := bind_eq_done.mp h
  have hsa := moves_padded (moves_char (by decide)) s _ a ha
  cases inner with
  | none => cases h
  | some p =>
      obtain ⟨body, b, hb, h⟩ := bind_eq_done.mp h
      obtain ⟨_, c, hc, h⟩ := bind_eq_done.mp h
      obtain ⟨rfl, rfl⟩ := pure_eq_done.mp h
      obtain ⟨hab, hlines⟩ := hinner p rfl a body b hb
      have hbc := moves_padded (moves_char (by decide)) b _ c hc
      exact ⟨(hsa.trans hab).trans hbc, fun line hline => hsa.sees (hlines line hline)⟩

lemma sees_of_keyword {word : String} {s t : Cursor} {v : Unit} (hword : word.toList ≠ [])
    (h : keyword word s = .done v t) : s.Sees s.line := by
  refine ⟨s, .refl s, ?_, rfl⟩
  rw [(keyword_eq_done h).1]
  simp [hword]

lemma sees_of_ident {s t : Cursor} {v : Ident} (h : padded ident s = .done v t) :
    s.Leads t ∧ s.Sees v.line := by
  obtain ⟨a, b, hsa, hab, hbt⟩ := padded_eq_done h
  obtain ⟨hleads, hrest, hline⟩ := ident_eq_done hab
  exact ⟨(hsa.trans hleads).trans hbt, a, hsa, hrest, hline.symm⟩

lemma placed_definition (hinner : ∀ p ∈ inner, PlacedIn p) : Placed (definition inner) := by
  intro s v t h
  obtain ⟨_, a, ha, h⟩ := bind_eq_done.mp h
  have hsa := moves_keyword (by decide) s _ a ha
  cases inner with
  | none => cases h
  | some p =>
      obtain ⟨name, b, hb, h⟩ := bind_eq_done.mp h
      obtain ⟨params, c, hc, h⟩ := bind_eq_done.mp h
      obtain ⟨body, d, hd, h⟩ := bind_eq_done.mp h
      obtain ⟨endLine, e, he, h⟩ := bind_eq_done.mp h
      obtain ⟨_, f, hf, h⟩ := bind_eq_done.mp h
      obtain ⟨rfl, rfl⟩ := pure_eq_done.mp h
      obtain ⟨rfl, rfl⟩ : d.line = endLine ∧ d = e := by simpa [line] using he
      obtain ⟨hab, hname⟩ := sees_of_ident hb
      have hac := hab.trans (moves_many (moves_padded moves_variableName) b _ c hc)
      obtain ⟨hcd, hlines⟩ := hinner p rfl c body d hd
      have hsc := hsa.trans hac
      have hsd := hsc.trans hcd
      refine ⟨hsd.trans (moves_keyword (by decide) d _ f hf), ?_⟩
      intro line hline
      rw [Statement.lines, List.mem_cons, List.mem_cons] at hline
      obtain rfl | rfl | hline := hline
      · exact hsa.sees hname
      · exact hsd.sees (sees_of_keyword (by decide) hf)
      · exact hsc.sees (hlines line hline)

/-- Every form of statement moves on and takes its lines from where it reads. -/
lemma placed_statementWith (hexpr : expr.Moves) (hinner : ∀ p ∈ inner, PlacedIn p) :
    Placed (statementWith expr inner) := by
  intro s v t h
  obtain ⟨a, b, hsa, hab, hbt⟩ := padded_eq_done h
  obtain ⟨p, hp, hab⟩ := choice_eq_done hab
  suffices hplaced : Placed p by
    obtain ⟨hleads, hlines⟩ := hplaced a v b hab
    exact ⟨(hsa.trans hleads).trans hbt, fun line hline => hsa.sees (hlines line hline)⟩
  clear h hab hsa hbt
  simp only [List.mem_cons, List.not_mem_nil, or_false] at hp
  intro s v t h
  obtain rfl | rfl | rfl | rfl | rfl := hp
  · obtain ⟨line, a, ha, h⟩ := bind_eq_done.mp h
    obtain ⟨_, b, hb, h⟩ := bind_eq_done.mp h
    obtain ⟨cond, c, hc, h⟩ := bind_eq_done.mp h
    obtain ⟨body, d, hd, h⟩ := bind_eq_done.mp h
    obtain ⟨rfl, rfl⟩ := pure_eq_done.mp h
    obtain ⟨rfl, rfl⟩ : s.line = line ∧ s = a := by simpa [Parser.line] using ha
    have hsc := (moves_keyword (by decide) s _ b hb).trans (moves_condition hexpr b _ c hc)
    obtain ⟨hcd, hlines⟩ := placed_block hinner c body d hd
    refine ⟨hsc.trans hcd, ?_⟩
    intro line hline
    obtain rfl | hline := List.mem_cons.mp hline
    · exact sees_of_keyword (by decide) hb
    · exact hsc.sees (hlines line hline)
  · obtain ⟨line, a, ha, h⟩ := bind_eq_done.mp h
    obtain ⟨_, b, hb, h⟩ := bind_eq_done.mp h
    obtain ⟨count, c, hc, h⟩ := bind_eq_done.mp h
    obtain ⟨body, d, hd, h⟩ := bind_eq_done.mp h
    obtain ⟨rfl, rfl⟩ := pure_eq_done.mp h
    obtain ⟨rfl, rfl⟩ : s.line = line ∧ s = a := by simpa [Parser.line] using ha
    have hsc := (moves_keyword (by decide) s _ b hb).trans (hexpr b _ c hc)
    obtain ⟨hcd, hlines⟩ := placed_block hinner c body d hd
    refine ⟨hsc.trans hcd, ?_⟩
    intro line hline
    obtain rfl | hline := List.mem_cons.mp hline
    · exact sees_of_keyword (by decide) hb
    · exact hsc.sees (hlines line hline)
  · obtain ⟨_, a, ha, h⟩ := bind_eq_done.mp h
    obtain ⟨name, b, hb, h⟩ := bind_eq_done.mp h
    obtain ⟨value, c, hc, h⟩ := bind_eq_done.mp h
    obtain ⟨rfl, rfl⟩ := pure_eq_done.mp h
    have hsa := moves_keyword (by decide) s _ a ha
    obtain ⟨d, e, had, hde, heb⟩ := padded_eq_done hb
    obtain ⟨_, f, hf, hde⟩ := bind_eq_done.mp hde
    have hdf := moves_char (by decide) d _ f hf
    obtain ⟨hfe, hrest, hline⟩ := ident_eq_done hde
    have hsf := (hsa.trans had).trans hdf
    refine ⟨((hsf.trans hfe).trans heb).trans (hexpr b _ c hc), ?_⟩
    intro line hmem
    obtain rfl : line = name.line := List.mem_singleton.mp hmem
    exact ⟨f, hsf, hrest, hline.symm⟩
  · exact placed_definition hinner s v t h
  · obtain ⟨name, a, ha, h⟩ := bind_eq_done.mp h
    obtain ⟨args, b, hb, h⟩ := bind_eq_done.mp h
    obtain ⟨rfl, rfl⟩ := pure_eq_done.mp h
    obtain ⟨hsa, hsees⟩ := sees_of_ident ha
    refine ⟨hsa.trans (moves_many (moves_arg hexpr) a _ b hb), ?_⟩
    intro line hline
    obtain rfl : line = name.line := List.mem_singleton.mp hline
    exact hsees

end

lemma placed_statement (levels : Nat) : Placed (statement levels) := by
  induction levels with
  | zero => exact placed_statementWith (moves_sum (moves_operand _)) (by simp)
  | succ levels ih =>
      refine placed_statementWith (moves_sum (moves_operand _)) ?_
      intro p hp
      obtain rfl : many (statement levels) = p := by simpa using hp
      exact ih.many

/-- Every line in a program that can be read is a line of its source with text on it. -/
lemma sees_of_parse {source : String} {program : List Statement}
    (h : parse source = .ok program) {line : Nat} (hline : line ∈ linesIn program) :
    Cursor.Sees ⟨source.toList, 1⟩ line := by
  unfold parse at h
  split at h
  · next program' _ hdone =>
      obtain rfl := Except.ok.inj h
      obtain ⟨a, b, hsa, hab, -⟩ := padded_eq_done hdone
      exact hsa.sees (((placed_statement maxNesting).many a program' b hab).2 line hline)
  · cases h
  · cases h
  · cases h

section

variable (procs : List Definition)

mutual
lemma lines_code (s : Statement) {base : Nat} {x : Instr × Nat} (h : x ∈ s.code procs base) :
    x.2 ∈ s.lines := by
  cases s with
  | define => simp [Statement.code] at h
  | call name args =>
      simp only [Statement.code, Option.mem_toList, Option.map_eq_some_iff] at h
      obtain ⟨instr, -, rfl⟩ := h
      simp [Statement.lines]
  | branch line cond body =>
      obtain rfl | h := List.mem_cons.mp h
      · simp [Statement.lines]
      · exact List.mem_cons_of_mem _ (lines_codeOf body h)
  | loop line count body =>
      simp only [Statement.code, List.mem_append, List.mem_cons, List.not_mem_nil, or_false] at h
      obtain (rfl | h) | rfl := h
      · simp [Statement.lines]
      · exact List.mem_cons_of_mem _ (lines_codeOf body h)
      · simp [Statement.lines]
  | make name value =>
      obtain rfl := List.mem_singleton.mp h
      simp [Statement.lines]

/-- The lines of the code of statements are lines of the statements. -/
lemma lines_codeOf (statements : List Statement) {base : Nat} {x : Instr × Nat}
    (h : x ∈ codeOf procs base statements) : x.2 ∈ linesIn statements := by
  cases statements with
  | nil => simp [codeOf] at h
  | cons first rest =>
      simp only [linesIn, List.mem_append]
      obtain h | h := List.mem_append.mp h
      · exact .inl (lines_code first h)
      · exact .inr (lines_codeOf rest h)
end

lemma lines_procedures {base : Nat} {ds : List Definition} {x : Instr × Nat}
    (h : x ∈ (procedures procs base ds).1) : ∃ d ∈ ds, x.2 ∈ d.endLine :: linesIn d.body := by
  induction ds generalizing base with
  | nil => simp [procedures] at h
  | cons d rest ih =>
      obtain h | h := List.mem_append.mp h
      · refine ⟨d, by simp, ?_⟩
        obtain h | h := List.mem_append.mp h
        · exact List.mem_cons_of_mem _ (lines_codeOf procs d.body h)
        · obtain rfl := List.mem_singleton.mp h
          exact List.mem_cons_self
      · obtain ⟨d', hd', h⟩ := ih h
        exact ⟨d', by simp [hd'], h⟩

mutual
lemma lines_definitions (s : Statement) {d : Definition} (h : d ∈ s.definitions) :
    ∀ line ∈ d.name.line :: d.endLine :: linesIn d.body, line ∈ s.lines := by
  intro line hline
  cases s with
  | define name params body endLine =>
      obtain rfl | h := List.mem_cons.mp h
      · exact hline
      · exact List.mem_cons_of_mem _
          (List.mem_cons_of_mem _ (lines_definitionsIn body h line hline))
  | branch line' cond body => exact List.mem_cons_of_mem _ (lines_definitionsIn body h line hline)
  | loop line' count body => exact List.mem_cons_of_mem _ (lines_definitionsIn body h line hline)
  | call => simp [Statement.definitions] at h
  | make => simp [Statement.definitions] at h

/-- The lines of the definitions in statements are lines of the statements. -/
lemma lines_definitionsIn (statements : List Statement) {d : Definition}
    (h : d ∈ definitionsIn statements) :
    ∀ line ∈ d.name.line :: d.endLine :: linesIn d.body, line ∈ linesIn statements := by
  intro line hline
  cases statements with
  | nil => simp [definitionsIn] at h
  | cons first rest =>
      simp only [linesIn, List.mem_append]
      obtain h | h := List.mem_append.mp h
      · exact .inl (lines_definitions first h line hline)
      · exact .inr (lines_definitionsIn rest h line hline)
end

end

/-- The lines of a compiled program are lines of its source with text on them, but for the last
one of the main program, which is the last line of the source. -/
lemma mem_lines_of_compile {source : String} {p : Program} (hp : compile source = .ok p)
    {line : Nat} (h : line ∈ p.lines) :
    line = lineCount source ∨ Cursor.Sees ⟨source.toList, 1⟩ line := by
  obtain ⟨program, hparse, rfl, haccepted, -, -⟩ := compile_eq_ok hp
  rw [assemble_eq, Program.ofListing, List.mem_toArray, List.mem_map] at h
  obtain ⟨x, hx, rfl⟩ := h
  obtain hx | hx := List.mem_append.mp hx
  · obtain hx | hx := List.mem_append.mp hx
    · exact .inr (sees_of_parse hparse (lines_codeOf _ program hx))
    · obtain rfl := List.mem_singleton.mp hx
      exact .inl rfl
  · obtain ⟨d, hd, hx⟩ := lines_procedures _ hx
    rw [haccepted] at hd
    have hline := lines_definitionsIn program hd _ (List.mem_cons_of_mem _ hx)
    exact .inr (sees_of_parse hparse hline)

/-- The lines of a compiled program count from one up to the last line of the source. -/
lemma line_range_of_compile {source : String} {p : Program} (hp : compile source = .ok p)
    {line : Nat} (h : line ∈ p.lines) : 1 ≤ line ∧ line ≤ lineCount source := by
  obtain rfl | hsees := mem_lines_of_compile hp h
  · exact ⟨Nat.le_max_right _ _, Nat.le_refl _⟩
  · exact hsees.le_lineCount

/-- Each instruction of a compiled program has a line. -/
lemma lines_size_of_compile {source : String} {p : Program} (hp : compile source = .ok p) :
    p.lines.size = p.code.size := by
  obtain ⟨program, -, rfl, -, -, -⟩ := compile_eq_ok hp
  simp [assemble_eq, Program.ofListing]

/-- Every instruction of a compiled program has a line, and lines count from one. -/
lemma line_pos_of_compile {source : String} {p : Program} (hp : compile source = .ok p) {pc : Nat}
    {instr : Instr} (h : p.code[pc]? = some instr) : 1 ≤ p.line pc := by
  obtain ⟨hpc, -⟩ := Array.getElem?_eq_some_iff.mp h
  rw [← lines_size_of_compile hp] at hpc
  rw [Program.line, Array.getD_eq_getD_getElem?, Array.getElem?_eq_getElem hpc]
  exact (line_range_of_compile hp (Array.getElem_mem hpc)).1

end LogoStudio.Logo
