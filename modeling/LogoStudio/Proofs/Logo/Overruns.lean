import LogoStudio.Proofs.Logo.Lines
import LogoStudio.Proofs.Logo.ReadBack
import Mathlib.Logic.Relation

/-!
# Going over a limit

A text over one of the limits is refused while it is read, and here it is followed which sign is
to blame. A reading passes to the readings that it is made of, one after the other, and gives up
where one of them does. So a reading that gives up has come through as many openings as may be
nested to one more, or in a chain of operands to the operator before one operand too many. It
gives up with the line of that sign, but for a bracket the blanks after it are skipped first.
-/
namespace LogoStudio.Logo

open LogoStudio.Logo.Parser

/-- No blank and no comment starts at a place. -/
def Cursor.Settled (s : Cursor) : Prop := skipFrom false s.rest s.line = s

lemma settled_skipFrom (inside : Bool) (text : List Char) (line : Nat) :
    (skipFrom inside text line).Settled := by
  fun_induction skipFrom inside text line with
  | case1 => rfl
  | case2 _ _ _ ih => exact ih
  | case3 _ _ _ _ _ _ ih => exact ih
  | case4 _ _ _ _ _ _ _ ih => exact ih
  | case5 _ _ _ _ _ _ _ _ ih => exact ih
  | case6 inside line c rest hfeed hinside hspace hcomment =>
      rw [Cursor.Settled, skipFrom, if_neg hfeed, if_neg (by simp), if_neg hspace,
        if_neg hcomment]

/-- What becomes of the rest of a chain. -/
inductive ChainStep (op : Parser Operator) (expr : Parser NumExpr) (left : Nat) (lhs : NumExpr)
    (s : Cursor) : Outcome NumExpr → Prop
  | stop : ChainStep op expr left lhs s (.done lhs s)
  | sign {line : Nat} (hop : op s = .tooDeep line) : ChainStep op expr left lhs s (.tooDeep line)
  | operand {line : Nat} {o : Operator} {u : Cursor} (hop : op s = .done o u)
      (hrhs : expr u = .tooDeep line) : ChainStep op expr left lhs s (.tooDeep line)
  | full {o : Operator} {rhs : NumExpr} {u v : Cursor} (hop : op s = .done o u)
      (hrhs : expr u = .done rhs v) (hleft : left = 0) :
      ChainStep op expr left lhs s (.tooDeep s.line)
  | next {o : Operator} {rhs : NumExpr} {u v : Cursor} {n : Nat} (hop : op s = .done o u)
      (hrhs : expr u = .done rhs v) (hleft : left = n + 1) :
      ChainStep op expr left lhs s (chainTail op expr n (.op lhs o rhs) v)

lemma chainStep (op : Parser Operator) (expr : Parser NumExpr) (left : Nat) (lhs : NumExpr)
    (s : Cursor) : ChainStep op expr left lhs s (chainTail op expr left lhs s) := by
  unfold chainTail
  split
  · exact .stop
  · next line hop => exact .sign hop
  · next o u hop =>
      split
      · exact .stop
      · next line hrhs => exact .operand hop hrhs
      · next rhs v hrhs =>
          split
          · exact .full hop hrhs rfl
          · exact .next hop hrhs rfl

/-- A parser stops where no blank and no comment starts. -/
def Parser.EndsSettled {α : Type} (p : Parser α) : Prop := ∀ s v t, p s = .done v t → t.Settled

section Settled

variable {α β : Type} {p : Parser α} {op : Parser Operator} {expr : Parser NumExpr}

lemma endsSettled_padded : (padded p).EndsSettled := by
  intro s v t h
  obtain ⟨_, a, -, h⟩ := bind_eq_done.mp h
  obtain ⟨w, b, -, h⟩ := bind_eq_done.mp h
  obtain ⟨_, c, hc, h⟩ := bind_eq_done.mp h
  obtain ⟨-, rfl⟩ := pure_eq_done.mp h
  obtain rfl : skipFrom false b.rest b.line = c := by simpa [blanks] using hc
  exact settled_skipFrom false b.rest b.line

lemma endsSettled_bind {f : α → Parser β} (hf : ∀ v, (f v).EndsSettled) :
    (p >>= f).EndsSettled := by
  intro s w u h
  obtain ⟨v, t, -, h⟩ := bind_eq_done.mp h
  exact hf v t w u h

lemma Parser.EndsSettled.map (hp : p.EndsSettled) (f : α → β) :
    (p >>= fun v => pure (f v)).EndsSettled := by
  intro s w u h
  obtain ⟨v, t, hv, h⟩ := bind_eq_done.mp h
  obtain ⟨-, rfl⟩ := pure_eq_done.mp h
  exact hp s v t hv

lemma settled_of_chainTail (hexpr : expr.EndsSettled) {left : Nat} {lhs e : NumExpr}
    {s t : Cursor} (hs : s.Settled) (h : chainTail op expr left lhs s = .done e t) :
    t.Settled := by
  induction left using Nat.strong_induction_on generalizing lhs s with
  | _ left ih =>
      have hstep := chainStep op expr left lhs s
      generalize chainTail op expr left lhs s = outcome at h hstep
      cases hstep with
      | stop =>
          obtain ⟨-, rfl⟩ : lhs = e ∧ s = t := by simpa using h
          exact hs
      | next _ hrhs hleft => exact ih _ (by omega) (hexpr _ _ _ hrhs) h
      | sign | operand | full => cases h

lemma endsSettled_chain (hexpr : expr.EndsSettled) : (chain op expr).EndsSettled := by
  intro s e t h
  obtain ⟨first, u, hu, h⟩ := bind_eq_done.mp h
  exact settled_of_chainTail hexpr (hexpr s first u hu) h

lemma endsSettled_reader (level : Level) (room : Nat) : (reader level room).EndsSettled := by
  have hoperand : (operand room).EndsSettled := by
    cases room with
    | zero =>
        intro s e t h
        cases h
    | succ room => exact endsSettled_padded
  cases level with
  | sum => exact endsSettled_chain (endsSettled_chain hoperand)
  | product => exact endsSettled_chain hoperand
  | operand => exact hoperand

end Settled

/-- Values are read one after the other, from one place to another. -/
inductive Turns {α : Type} (p : Parser α) : Nat → Cursor → Cursor → Prop
  | nil {s : Cursor} : Turns p 0 s s
  | cons {n : Nat} {s t u : Cursor} {v : α} (h : p s = .done v t) (hrest : Turns p n t u) :
      Turns p (n + 1) s u

/-- Operands with signs between them are read, from one place to another. -/
inductive Operands (op : Parser Operator) (p : Parser NumExpr) : Nat → Cursor → Cursor → Prop
  | first {s t : Cursor} {e : NumExpr} (h : p s = .done e t) : Operands op p 1 s t
  | next {n : Nat} {s t u v : Cursor} {o : Operator} {e : NumExpr} (hread : Operands op p n s t)
      (hop : op t = .done o u) (h : p u = .done e v) : Operands op p (n + 1) s v

/-- A parser at a place. -/
structure Reading where
  {α : Type}
  parser : Parser α
  place : Cursor

namespace Reading

/-- A reading gives up, with a line. -/
def GivesUp (r : Reading) (line : Nat) : Prop := r.parser r.place = .tooDeep line

/-- The readings that a reading is made of. A reading passes to the next one if those before it
have been read, or have been tried and missed. -/
inductive Passes : Reading → Reading → Prop
  | first {α β : Type} {p : Parser α} {f : α → Parser β} {s : Cursor} :
      Passes ⟨p >>= f, s⟩ ⟨p, s⟩
  | next {α β : Type} {p : Parser α} {f : α → Parser β} {s t : Cursor} {v : α}
      (h : p s = .done v t) : Passes ⟨p >>= f, s⟩ ⟨f v, t⟩
  | choose {α : Type} {p q : Parser α} {s : Cursor} : Passes ⟨orElse p q, s⟩ ⟨p, s⟩
  | skip {α : Type} {p q : Parser α} {s : Cursor} (h : p s = .miss) :
      Passes ⟨orElse p q, s⟩ ⟨q, s⟩
  | turn {α : Type} {p : Parser α} {n : Nat} {s t : Cursor} (hread : Turns p n s t)
      (hn : n < s.rest.length) : Passes ⟨many p, s⟩ ⟨p, t⟩
  | operand {op : Parser Operator} {p : Parser NumExpr} {n : Nat} {s t u : Cursor} {o : Operator}
      (hread : Operands op p n s t) (hn : n ≤ maxOperands) (hop : op t = .done o u) :
      Passes ⟨chain op p, s⟩ ⟨p, u⟩

/-- A reading comes to another one. -/
def Comes : Reading → Reading → Prop := Relation.ReflTransGen Passes

end Reading

section GivesUp

variable {α : Type} {p : Parser α} {op : Parser Operator} {expr : Parser NumExpr}
  {n turns line : Nat} {s t : Cursor}

lemma Turns.givesUp (h : Turns p n s t) (hn : n < turns) (ht : p t = .tooDeep line) :
    manyUpTo p turns s = .tooDeep line := by
  induction h generalizing turns with
  | nil =>
      obtain ⟨turns, rfl⟩ := Nat.exists_eq_succ_of_ne_zero (Nat.ne_of_gt hn)
      simp [manyUpTo, ht]
  | cons hv _ ih =>
      obtain ⟨turns, rfl⟩ := Nat.exists_eq_succ_of_ne_zero (Nat.ne_of_gt (Nat.zero_lt_of_lt hn))
      simp [manyUpTo, hv, ih (Nat.lt_of_succ_lt_succ hn) ht]

/-- Behind some operands, the rest of the chain is to be read. -/
lemma Operands.chain_eq (h : Operands op expr n s t) (hn : n ≤ maxOperands) :
    0 < n ∧ ∃ lhs, chain op expr s = chainTail op expr (maxOperands - n) lhs t := by
  induction h with
  | @first s t e hfirst =>
      refine ⟨Nat.one_pos, e, ?_⟩
      rw [chain, bind_apply, hfirst]
  | @next n s t u v o e hread hop hnext ih =>
      obtain ⟨-, lhs, hchain⟩ := ih (Nat.le_of_succ_le hn)
      refine ⟨Nat.succ_pos n, .op lhs o e, ?_⟩
      rw [hchain, show maxOperands - n = maxOperands - (n + 1) + 1 by omega, chainTail.eq_def]
      simp only [hop, hnext]

lemma Operands.givesUp (h : Operands op expr n s t) (hn : n ≤ maxOperands) {o : Operator}
    {u : Cursor} (hop : op t = .done o u) (hu : expr u = .tooDeep line) :
    chain op expr s = .tooDeep line := by
  obtain ⟨-, lhs, hchain⟩ := h.chain_eq hn
  rw [hchain, chainTail.eq_def]
  simp only [hop, hu]

/-- A chain of operands gives up at the operator before one operand too many. -/
lemma Operands.givesUp_of_maxOperands (h : Operands op expr maxOperands s t) {o : Operator}
    {e : NumExpr} {u v : Cursor} (hop : op t = .done o u) (hu : expr u = .done e v) :
    chain op expr s = .tooDeep t.line := by
  obtain ⟨-, lhs, hchain⟩ := h.chain_eq (Nat.le_refl _)
  rw [hchain, Nat.sub_self, chainTail.eq_def]
  simp only [hop, hu]

namespace Reading

lemma Passes.givesUp {r r' : Reading} (h : Passes r r') (hr' : r'.GivesUp line) :
    r.GivesUp line := by
  cases h with
  | @first α β p f s =>
      change (p >>= f) s = .tooDeep line
      rw [bind_apply, show p s = .tooDeep line from hr']
  | @next α β p f s t v hv =>
      change (p >>= f) s = .tooDeep line
      rw [bind_apply, hv]
      exact hr'
  | @choose α p q s =>
      change orElse p q s = .tooDeep line
      rw [orElse_apply, show p s = .tooDeep line from hr']
  | @skip α p q s hmiss =>
      change orElse p q s = .tooDeep line
      rw [orElse_apply, hmiss]
      exact hr'
  | turn hread hn => exact hread.givesUp hn hr'
  | operand hread hn hop => exact hread.givesUp hn hop hr'

lemma Comes.givesUp {r r' : Reading} (h : r.Comes r') (hr' : r'.GivesUp line) :
    r.GivesUp line := by
  induction h with
  | refl => exact hr'
  | tail _ hpasses ih => exact ih (hpasses.givesUp hr')

end Reading

end GivesUp

/-- What takes a level of nesting. -/
inductive Opening where
  | paren
  | minus
  | bracket
  | define

namespace Opening

def text : Opening → List Char
  | paren => ['(']
  | minus => ['-']
  | bracket => ['[']
  | define => "to".toList

/-- What an opening starts. -/
def Value : Opening → Type
  | paren | minus => NumExpr
  | bracket => List Statement
  | define => Statement

/-- The parser for what an opening starts, with `levels` levels left inside it. -/
def reader (levels : Nat) : (o : Opening) → Parser o.Value
  | paren => do
      char '('
      let e ← sum (operand levels)
      char ')'
      return e
  | minus => do
      char '-'
      return .neg (← operand levels)
  | bracket => block (bodyReader levels)
  | define => definition (bodyReader levels)

end Opening

/-- What may go over a limit. -/
inductive Offender where
  | opening (o : Opening)
  | operator (o : Operator)

namespace Offender

def text : Offender → List Char
  | opening o => o.text
  | operator o => [o.sign]

/-- The place whose line is reported for an offender. Behind a bracket, blanks are skipped first. -/
def reportedAt (t : Cursor) : Offender → Cursor
  | opening .bracket => skipFrom false t.rest.tail t.line
  | _ => t

end Offender

/-- A reading with `levels` levels of nesting left goes over a limit at a place, and gives up with
a line: it comes to an opening when no level is left, or to an operator behind as many operands
as a chain may have, or it comes to an opening and goes over a limit inside it. -/
inductive Overruns (line : Nat) : Nat → Reading → Offender → Cursor → Prop
  | opening {r : Reading} {o : Opening} {t : Cursor} (hcomes : r.Comes ⟨o.reader 0, t⟩)
      (hover : o.reader 0 t = .tooDeep line) : Overruns line 0 r (.opening o) t
  | operator {levels : Nat} {r : Reading} {level : Level} {o : Operator} {e : NumExpr}
      {s t u v : Cursor} (hlevel : level ≠ .operand)
      (hcomes : r.Comes ⟨Logo.reader level (levels + 1), s⟩)
      (hread : Operands (signOf level) (Logo.reader level.next (levels + 1)) maxOperands s t)
      (hop : signOf level t = .done o u)
      (hnext : Logo.reader level.next (levels + 1) u = .done e v) (hline : t.line = line) :
      Overruns line levels r (.operator o) t
  | inside {levels : Nat} {r : Reading} {o : Opening} {k : Offender} {s t : Cursor}
      (hcomes : r.Comes ⟨o.reader (levels + 1), s⟩) (hstands : o.text <+: s.rest)
      (hrest : Overruns line levels ⟨o.reader (levels + 1), s⟩ k t) :
      Overruns line (levels + 1) r k t

namespace Overruns

variable {line levels : Nat} {r r' : Reading} {k : Offender} {t : Cursor}

lemma of_passes (h : Overruns line levels r' k t) (hpasses : r.Passes r') :
    Overruns line levels r k t := by
  cases h with
  | opening hcomes hover => exact .opening (.head hpasses hcomes) hover
  | operator hlevel hcomes hread hop hnext hline =>
      exact .operator hlevel (.head hpasses hcomes) hread hop hnext hline
  | inside hcomes hstands hrest => exact .inside (.head hpasses hcomes) hstands hrest

/-- What goes over a limit is refused, with this line. -/
lemma givesUp (h : Overruns line levels r k t) : r.GivesUp line := by
  induction h with
  | opening hcomes hover => exact hcomes.givesUp hover
  | @operator levels r level o e s t u v hlevel hcomes hread hop hnext hline =>
      refine hcomes.givesUp ?_
      change Logo.reader level (levels + 1) s = .tooDeep line
      rw [reader_eq_chain hlevel, hread.givesUp_of_maxOperands hop hnext, hline]
  | inside hcomes hstands hrest ih => exact hcomes.givesUp ih

end Overruns

/-- An offender stands in the text behind the place of a reading, goes over a limit and explains
the line with which the reading gives up. -/
structure Blamed (line levels : Nat) (r : Reading) (k : Offender) (t : Cursor) : Prop where
  overruns : Overruns line levels r k t
  leads : r.place.Leads t
  stands : k.text <+: t.rest
  line : (k.reportedAt t).line = line

/-- If a parser gives up at a place, then some offender is to blame. -/
def Traced {α : Type} (levels : Nat) (p : Parser α) (s : Cursor) : Prop :=
  ∀ line, p s = .tooDeep line → ∃ k t, Blamed line levels ⟨p, s⟩ k t

lemma Blamed.of_passes {line levels : Nat} {r r' : Reading} {k : Offender} {t : Cursor}
    (h : Blamed line levels r' k t) (hpasses : r.Passes r') (hleads : r.place.Leads r'.place) :
    Blamed line levels r k t :=
  ⟨h.overruns.of_passes hpasses, hleads.trans h.leads, h.stands, h.line⟩

namespace Parser

/-- A parser never gives up. -/
def Shallow {α : Type} (p : Parser α) : Prop := ∀ s line, p s ≠ .tooDeep line

variable {α β : Type} {p q : Parser α} {f : α → Parser β} {s t : Cursor} {line levels : Nat}

lemma bind_eq_tooDeep : (p >>= f) s = .tooDeep line ↔
    p s = .tooDeep line ∨ ∃ v t, p s = .done v t ∧ f v t = .tooDeep line := by
  rw [bind_apply]
  cases p s <;> simp

/-- Behind a parser that never gives up, the rest does. -/
lemma Shallow.bind_eq_tooDeep (hp : p.Shallow) (h : (p >>= f) s = .tooDeep line) :
    ∃ v t, p s = .done v t ∧ f v t = .tooDeep line :=
  (Parser.bind_eq_tooDeep.mp h).resolve_left (hp s line)

lemma orElse_eq_tooDeep : orElse p q s = .tooDeep line ↔
    p s = .tooDeep line ∨ p s = .miss ∧ q s = .tooDeep line := by
  rw [orElse_apply]
  cases p s <;> simp

/-- A loop gives up where one of its turns does. -/
lemma manyUpTo_eq_tooDeep {turns : Nat} (h : manyUpTo p turns s = .tooDeep line) :
    ∃ n t, Turns p n s t ∧ n < turns ∧ p t = .tooDeep line := by
  induction turns generalizing s with
  | zero => cases h
  | succ turns ih =>
      unfold manyUpTo at h
      split at h
      · cases h
      · next hs =>
          obtain rfl := Outcome.tooDeep.inj h
          exact ⟨0, s, .nil, Nat.succ_pos turns, hs⟩
      · next v u hv =>
          split at h
          · cases h
          · cases h
          · next hrest =>
              obtain rfl := Outcome.tooDeep.inj h
              obtain ⟨n, t, hread, hn, ht⟩ := ih hrest
              exact ⟨n + 1, t, .cons hv hread, Nat.succ_lt_succ hn, ht⟩

lemma shallow_pure (v : α) : Shallow (pure v : Parser α) := by
  intro s line h
  cases h

lemma shallow_bind (hp : p.Shallow) (hf : ∀ v, (f v).Shallow) : (p >>= f).Shallow := by
  intro s line h
  obtain h | ⟨v, t, -, h⟩ := bind_eq_tooDeep.mp h
  · exact hp s line h
  · exact hf v t line h

lemma shallow_orElse (hp : p.Shallow) (hq : q.Shallow) : (orElse p q).Shallow := by
  intro s line h
  obtain h | ⟨-, h⟩ := orElse_eq_tooDeep.mp h
  · exact hp s line h
  · exact hq s line h

lemma shallow_choice {ps : List (Parser α)} (h : ∀ p ∈ ps, p.Shallow) : (choice ps).Shallow := by
  induction ps with
  | nil =>
      intro s line h
      cases h
  | cons p ps ih =>
      exact shallow_orElse (h p (by simp)) (ih fun q hq => h q (by simp [hq]))

lemma shallow_many (hp : p.Shallow) : (many p).Shallow := by
  intro s line h
  obtain ⟨n, t, -, -, h⟩ := manyUpTo_eq_tooDeep h
  exact hp t line h

lemma shallow_blanks : blanks.Shallow := by
  intro s line h
  cases h

lemma shallow_line : Parser.line.Shallow := by
  intro s line h
  cases h

lemma shallow_padded (hp : p.Shallow) : (padded p).Shallow :=
  shallow_bind shallow_blanks fun _ => shallow_bind hp fun v =>
    shallow_bind shallow_blanks fun _ => shallow_pure v

lemma shallow_char (c : Char) : (char c).Shallow := by
  intro s line h
  unfold char at h
  split at h
  · split at h <;> cases h
  · cases h

lemma shallow_run (isIn : Char → Bool) : (run isIn).Shallow := by
  intro s line h
  cases h

lemma shallow_run1 (isIn : Char → Bool) : (run1 isIn).Shallow := by
  intro s line h
  unfold run1 at h
  split at h <;> cases h

lemma shallow_keyword (word : String) : (keyword word).Shallow := by
  intro s line h
  unfold keyword at h
  split at h
  · split at h <;> cases h
  · cases h
  · cases h

end Parser

lemma shallow_ident : ident.Shallow := by
  intro s line h
  unfold ident at h
  split at h
  · dsimp only at h
    split at h <;> cases h
  · cases h

lemma shallow_variableName : variableName.Shallow :=
  shallow_bind (shallow_char ':') fun _ => shallow_ident

lemma shallow_number : number.Shallow := by
  have hfraction : fraction.Shallow :=
    shallow_orElse (shallow_bind (shallow_char '.') fun _ => shallow_run _) (shallow_pure [])
  exact shallow_orElse
    (shallow_bind (shallow_run1 _) fun _ => shallow_bind hfraction fun _ => shallow_pure _)
    (shallow_bind (shallow_char '.') fun _ =>
      shallow_bind (shallow_run1 _) fun _ => shallow_pure _)

lemma shallow_query : query.Shallow := by
  apply shallow_choice
  intro p hp
  obtain ⟨q, -, rfl⟩ := List.mem_map.mp hp
  exact shallow_bind (shallow_keyword _) fun _ => shallow_pure q

lemma shallow_sign {α : Type} (signs : List (Char × α)) : (sign signs).Shallow := by
  apply shallow_choice
  intro p hp
  obtain ⟨x, -, rfl⟩ := List.mem_map.mp hp
  exact shallow_padded (shallow_bind (shallow_char x.1) fun _ => shallow_pure x.2)

lemma shallow_comparison : comparison.Shallow := by
  apply shallow_padded
  apply shallow_choice
  intro p hp
  simp only [List.mem_cons, List.not_mem_nil, or_false] at hp
  obtain rfl | rfl | rfl := hp <;>
    exact shallow_bind (shallow_char _) fun _ => shallow_pure _

lemma shallow_word : word.Shallow :=
  shallow_bind (shallow_char '"') fun _ => shallow_bind shallow_line fun _ =>
    shallow_bind (shallow_run1 _) fun _ => shallow_pure _

section Tracing

variable {α β : Type} {p q : Parser α} {f : α → Parser β} {s t : Cursor} {levels : Nat}

lemma Parser.Shallow.traced (h : p.Shallow) : Traced levels p s :=
  fun line hs => absurd hs (h s line)

lemma traced_bind (hmoves : p.Moves) (hp : Traced levels p s)
    (hf : ∀ v t, p s = .done v t → Traced levels (f v) t) : Traced levels (p >>= f) s := by
  intro line h
  obtain h | ⟨v, t, hv, h⟩ := bind_eq_tooDeep.mp h
  · obtain ⟨k, t, hblamed⟩ := hp line h
    exact ⟨k, t, hblamed.of_passes .first (.refl s)⟩
  · obtain ⟨k, u, hblamed⟩ := hf v t hv line h
    exact ⟨k, u, hblamed.of_passes (.next hv) (hmoves s v t hv)⟩

/-- What never gives up and comes first is not to blame. -/
lemma traced_after (hmoves : p.Moves) (hp : p.Shallow)
    (hf : ∀ v t, p s = .done v t → Traced levels (f v) t) : Traced levels (p >>= f) s :=
  traced_bind hmoves hp.traced hf

/-- What never gives up and comes last is not to blame. -/
lemma Traced.bind (hp : Traced levels p s) (hf : ∀ v, (f v).Shallow) :
    Traced levels (p >>= f) s := by
  intro line h
  obtain h | ⟨v, t, -, h⟩ := bind_eq_tooDeep.mp h
  · obtain ⟨k, t, hblamed⟩ := hp line h
    exact ⟨k, t, hblamed.of_passes .first (.refl s)⟩
  · exact absurd h (hf v t line)

lemma traced_orElse (hp : Traced levels p s) (hq : Traced levels q s) :
    Traced levels (orElse p q) s := by
  intro line h
  obtain h | ⟨hmiss, h⟩ := orElse_eq_tooDeep.mp h
  · obtain ⟨k, t, hblamed⟩ := hp line h
    exact ⟨k, t, hblamed.of_passes .choose (.refl s)⟩
  · obtain ⟨k, t, hblamed⟩ := hq line h
    exact ⟨k, t, hblamed.of_passes (.skip hmiss) (.refl s)⟩

lemma traced_choice {ps : List (Parser α)} (h : ∀ p ∈ ps, Traced levels p s) :
    Traced levels (choice ps) s := by
  induction ps with
  | nil =>
      intro line h
      cases h
  | cons p ps ih => exact traced_orElse (h p (by simp)) (ih fun q hq => h q (by simp [hq]))

lemma Turns.leads {n : Nat} (hmoves : p.Moves) (h : Turns p n s t) : s.Leads t := by
  induction h with
  | nil => exact .refl _
  | cons hv _ ih => exact (hmoves _ _ _ hv).trans ih

lemma traced_many (hmoves : p.Moves) (hp : ∀ s, Traced levels p s) : Traced levels (many p) s := by
  intro line h
  obtain ⟨n, t, hread, hn, ht⟩ := manyUpTo_eq_tooDeep h
  obtain ⟨k, u, hblamed⟩ := hp t line ht
  exact ⟨k, u, hblamed.of_passes (.turn hread hn) (hread.leads hmoves)⟩

/-- Between blanks, a parser starts where no more blanks are. -/
lemma traced_padded (hp : ∀ s, s.Settled → Traced levels p s) : Traced levels (padded p) s := by
  refine traced_after moves_blanks shallow_blanks fun _ a ha => ?_
  obtain rfl : skipFrom false s.rest s.line = a := by simpa [blanks] using ha
  refine (hp _ (settled_skipFrom false s.rest s.line)).bind fun v => ?_
  exact shallow_bind shallow_blanks fun _ => shallow_pure v

end Tracing

section Openings

variable {s t : Cursor} {line levels : Nat}

lemma char_eq_done {c : Char} {v : Unit} (h : char c s = .done v t) :
    s.rest = c :: t.rest ∧ t.line = s.line := by
  unfold char at h
  split at h
  · next d rest hrest =>
      split at h
      · next hd =>
          obtain rfl : Cursor.mk rest s.line = t := by simpa using h
          exact ⟨by rw [hrest, hd], rfl⟩
      · cases h
  · cases h

lemma padded_eq_done_of_settled {α : Type} {p : Parser α} {v : α} (hs : s.Settled)
    (h : padded p s = .done v t) : ∃ b, p s = .done v b ∧ skipFrom false b.rest b.line = t := by
  obtain ⟨_, a, ha, h⟩ := bind_eq_done.mp h
  obtain ⟨w, b, hb, h⟩ := bind_eq_done.mp h
  obtain ⟨_, c, hc, h⟩ := bind_eq_done.mp h
  obtain ⟨rfl, rfl⟩ := pure_eq_done.mp h
  obtain rfl : s = a := by
    rw [← hs]
    simpa [blanks] using ha
  exact ⟨b, hb, by simpa [blanks] using hc⟩

/-- An opening stands where its parser gives up. -/
lemma Opening.stands {o : Opening} (hs : s.Settled) (h : o.reader levels s = .tooDeep line) :
    o.text <+: s.rest := by
  cases o with
  | paren =>
      obtain ⟨_, t, ht, -⟩ := (shallow_char _).bind_eq_tooDeep h
      exact ⟨t.rest, (char_eq_done ht).1.symm⟩
  | minus =>
      obtain ⟨_, t, ht, -⟩ := (shallow_char _).bind_eq_tooDeep h
      exact ⟨t.rest, (char_eq_done ht).1.symm⟩
  | bracket =>
      obtain ⟨_, t, ht, -⟩ := (shallow_padded (shallow_char _)).bind_eq_tooDeep h
      obtain ⟨b, hb, -⟩ := padded_eq_done_of_settled hs ht
      exact ⟨b.rest, (char_eq_done hb).1.symm⟩
  | define =>
      obtain ⟨_, t, ht, -⟩ := (shallow_keyword _).bind_eq_tooDeep h
      exact ⟨t.rest, (keyword_eq_done ht).1.symm⟩

/-- Without a level left, the parser of an opening gives up with the line that is reported. -/
lemma Opening.line_reportedAt {o : Opening} (hs : s.Settled) (h : o.reader 0 s = .tooDeep line) :
    ((Offender.opening o).reportedAt s).line = line := by
  cases o with
  | paren =>
      obtain ⟨_, t, ht, h⟩ := (shallow_char _).bind_eq_tooDeep h
      exact (char_eq_done ht).2.symm.trans (Outcome.tooDeep.inj h)
  | minus =>
      obtain ⟨_, t, ht, h⟩ := (shallow_char _).bind_eq_tooDeep h
      exact (char_eq_done ht).2.symm.trans (Outcome.tooDeep.inj h)
  | bracket =>
      obtain ⟨_, t, ht, h⟩ := (shallow_padded (shallow_char _)).bind_eq_tooDeep h
      obtain ⟨b, hb, rfl⟩ := padded_eq_done_of_settled hs ht
      obtain ⟨hrest, hline⟩ := char_eq_done hb
      rw [Offender.reportedAt, hrest, List.tail_cons, ← hline]
      exact Outcome.tooDeep.inj h
  | define =>
      obtain ⟨_, t, ht, h⟩ := (shallow_keyword _).bind_eq_tooDeep h
      exact (keyword_eq_done ht).2.symm.trans (Outcome.tooDeep.inj h)

/-- An opening is to blame if no level is left, and else what is to blame inside it. -/
lemma traced_opening (o : Opening) (hs : s.Settled)
    (h : ∀ n, levels = n + 1 → Traced n (o.reader (n + 1)) s) :
    Traced levels (o.reader levels) s := by
  intro line hline
  have hstands := o.stands hs hline
  cases levels with
  | zero =>
      exact ⟨.opening o, s, .opening .refl hline, .refl s, hstands, o.line_reportedAt hs hline⟩
  | succ n =>
      obtain ⟨k, t, hblamed⟩ := h n rfl line hline
      exact ⟨k, t, .inside .refl hstands hblamed.overruns, hblamed.leads, hblamed.stands,
        hblamed.line⟩

end Openings

section Chains

variable {op : Parser Operator} {expr : Parser NumExpr} {n left line levels : Nat} {s t : Cursor}

lemma Operands.leads (hop : op.Moves) (hexpr : expr.Moves) (h : Operands op expr n s t) :
    s.Leads t := by
  induction h with
  | first hfirst => exact hexpr _ _ _ hfirst
  | next _ ho hnext ih => exact (ih.trans (hop _ _ _ ho)).trans (hexpr _ _ _ hnext)

lemma Operands.settled (hexpr : expr.EndsSettled) (h : Operands op expr n s t) : t.Settled := by
  cases h with
  | first hfirst => exact hexpr _ _ _ hfirst
  | next _ _ hnext => exact hexpr _ _ _ hnext

/-- A chain goes over its limit at the operator before one operand too many. -/
def TooLong (op : Parser Operator) (expr : Parser NumExpr) (s : Cursor) (line : Nat) : Prop :=
  ∃ t o u e v, Operands op expr maxOperands s t ∧ op t = .done o u ∧ expr u = .done e v ∧
    t.line = line

/-- The rest of a chain gives up at an operand, or the chain is too long. -/
lemma chainTail_eq_tooDeep (hop : op.Shallow) {lhs : NumExpr} (hread : Operands op expr n s t)
    (hn : n + left = maxOperands) (h : chainTail op expr left lhs t = .tooDeep line) :
    (∃ m a o u, Operands op expr m s a ∧ m ≤ maxOperands ∧ op a = .done o u ∧
      expr u = .tooDeep line) ∨ TooLong op expr s line := by
  induction left using Nat.strong_induction_on generalizing n t lhs with
  | _ left ih =>
      have hstep := chainStep op expr left lhs t
      generalize chainTail op expr left lhs t = outcome at h hstep
      cases hstep with
      | stop => cases h
      | sign ht => exact absurd ht (hop t _)
      | operand ho hu =>
          obtain rfl := Outcome.tooDeep.inj h
          exact .inl ⟨n, t, _, _, hread, by omega, ho, hu⟩
      | full ho he hleft =>
          obtain rfl : n = maxOperands := by omega
          exact .inr ⟨t, _, _, _, _, hread, ho, he, Outcome.tooDeep.inj h⟩
      | next ho he hleft => exact ih _ (by omega) (.next hread ho he) (by omega) h

lemma chain_eq_tooDeep (hop : op.Shallow) (h : chain op expr s = .tooDeep line) :
    expr s = .tooDeep line ∨
      (∃ m a o u, Operands op expr m s a ∧ m ≤ maxOperands ∧ op a = .done o u ∧
        expr u = .tooDeep line) ∨ TooLong op expr s line := by
  obtain h | ⟨e, t, ht, h⟩ := bind_eq_tooDeep.mp h
  · exact .inl h
  · exact .inr (chainTail_eq_tooDeep hop (.first ht) (by decide) h)

lemma moves_signOf (level : Level) : (signOf level).Moves := by
  cases level <;> exact moves_sign (by decide)

lemma shallow_signOf (level : Level) : (signOf level).Shallow := by
  cases level <;> exact shallow_sign _

lemma moves_reader (level : Level) (room : Nat) : (reader level room).Moves := by
  have hoperand := moves_operand room
  cases level with
  | sum => exact moves_sum hoperand
  | product =>
      exact moves_bind hoperand fun e => moves_chainTail (moves_sign (by decide)) hoperand _ e
  | operand => exact hoperand

/-- A sign stands where it is read behind blanks. -/
lemma sign_eq_done {α : Type} {signs : List (Char × α)} {v : α} {u : Cursor} (ht : t.Settled)
    (h : sign signs t = .done v u) : ∃ c, (c, v) ∈ signs ∧ [c] <+: t.rest := by
  obtain ⟨p, hp, h⟩ := choice_eq_done h
  obtain ⟨⟨c, w⟩, hmem, rfl⟩ := List.mem_map.mp hp
  obtain ⟨b, hb, -⟩ := padded_eq_done_of_settled ht h
  obtain ⟨_, a, ha, hb⟩ := bind_eq_done.mp hb
  obtain ⟨rfl, -⟩ := pure_eq_done.mp hb
  exact ⟨c, hmem, a.rest, (char_eq_done ha).1.symm⟩

lemma operator_stands {level : Level} {o : Operator} {u : Cursor} (ht : t.Settled)
    (h : signOf level t = .done o u) : [o.sign] <+: t.rest := by
  cases level with
  | sum | product | operand =>
      obtain ⟨c, hc, hstands⟩ := sign_eq_done ht h
      simp only [List.mem_cons, Prod.mk.injEq, List.not_mem_nil, or_false] at hc
      obtain ⟨rfl, rfl⟩ | ⟨rfl, rfl⟩ := hc <;> exact hstands

/-- In a chain an operand is to blame, or the operator before one operand too many. -/
lemma traced_reader_of_next {level : Level} (hlevel : level ≠ .operand)
    (hnext : ∀ s, Traced levels (reader level.next (levels + 1)) s) :
    Traced levels (reader level (levels + 1)) s := by
  intro line h
  have hmoves := moves_reader level.next (levels + 1)
  have hchain := reader_eq_chain hlevel (levels + 1)
  rw [hchain] at h
  obtain h | ⟨m, a, o, u, hread, hm, hop, hu⟩ | ⟨t, o, u, e, v, hread, hop, hu, hline⟩ :=
    chain_eq_tooDeep (shallow_signOf level) h
  · obtain ⟨k, t, hblamed⟩ := hnext s line h
    rw [hchain]
    exact ⟨k, t, hblamed.of_passes .first (.refl s)⟩
  · obtain ⟨k, t, hblamed⟩ := hnext u line hu
    have hleads := (hread.leads (moves_signOf level) hmoves).trans (moves_signOf level a o u hop)
    rw [hchain]
    exact ⟨k, t, hblamed.of_passes (.operand hread hm hop) hleads⟩
  · have ht := hread.settled (endsSettled_reader level.next (levels + 1))
    exact ⟨.operator o, t, .operator hlevel .refl hread hop hu hline,
      hread.leads (moves_signOf level) hmoves, operator_stands ht hop, hline⟩

end Chains

section Grammar

variable {s : Cursor} {levels : Nat}

lemma traced_sum (h : ∀ s, Traced levels (operand (levels + 1)) s) :
    Traced levels (sum (operand (levels + 1))) s := by
  have hproduct (s : Cursor) : Traced levels (reader .product (levels + 1)) s :=
    @traced_reader_of_next levels s .product (by decide) h
  exact @traced_reader_of_next levels s .sum (by decide) hproduct

/-- One level of operands, given the levels inside. -/
lemma traced_operand_of_inner (h : ∀ n, levels = n + 1 → ∀ s, Traced n (operand (n + 1)) s) :
    Traced levels (operand (levels + 1)) s := by
  rw [operand_succ]
  refine traced_padded fun s hs => traced_choice fun p hp => ?_
  simp only [List.mem_cons, List.not_mem_nil, or_false] at hp
  obtain rfl | rfl | rfl | rfl | rfl := hp
  · refine traced_opening .paren hs fun n hn => ?_
    refine traced_after (moves_char (by decide)) (shallow_char '(') fun _ t _ => ?_
    exact (traced_sum (h n hn)).bind fun e =>
      shallow_bind (shallow_char ')') fun _ => shallow_pure e
  · exact (shallow_bind shallow_number fun _ => shallow_pure _).traced
  · exact (shallow_bind shallow_variableName fun _ => shallow_pure _).traced
  · refine traced_opening .minus hs fun n hn => ?_
    refine traced_after (moves_char (by decide)) (shallow_char '-') fun _ t _ => ?_
    exact (h n hn t).bind fun e => shallow_pure _
  · exact (shallow_bind shallow_query fun _ => shallow_pure _).traced

lemma traced_operand (levels : Nat) (s : Cursor) : Traced levels (operand (levels + 1)) s := by
  induction levels generalizing s with
  | zero => exact traced_operand_of_inner fun n hn => absurd hn (Nat.succ_ne_zero n).symm
  | succ levels ih =>
      refine traced_operand_of_inner fun n hn => ?_
      obtain rfl : levels = n := Nat.succ.inj hn
      exact ih

/-- The parser for the expressions of a statement with `levels` levels below it. -/
abbrev exprAt (levels : Nat) : Parser NumExpr := sum (operand (levels + 1))

lemma statement_eq_statementWith (levels : Nat) :
    statement levels = statementWith (exprAt levels) (bodyReader levels) := by
  cases levels <;> rfl

lemma traced_expr (levels : Nat) (s : Cursor) : Traced levels (exprAt levels) s :=
  traced_sum (traced_operand levels)

lemma moves_expr (levels : Nat) : (exprAt levels).Moves := moves_sum (moves_operand _)

lemma moves_statement (levels : Nat) : (statement levels).Moves :=
  fun s v t h => (placed_statement levels s v t h).1

lemma traced_block (hs : s.Settled)
    (h : ∀ n, levels = n + 1 → ∀ s, Traced n (statement n) s) :
    Traced levels (block (bodyReader levels)) s := by
  refine traced_opening .bracket hs fun n hn => ?_
  refine traced_after (moves_padded (moves_char (by decide))) (shallow_padded (shallow_char '['))
    fun _ t _ => ?_
  refine (traced_many (moves_statement n) (h n hn)).bind fun body => ?_
  exact shallow_bind (shallow_padded (shallow_char ']')) fun _ => shallow_pure body

lemma traced_definition (hs : s.Settled)
    (h : ∀ n, levels = n + 1 → ∀ s, Traced n (statement n) s) :
    Traced levels (definition (bodyReader levels)) s := by
  refine traced_opening .define hs fun n hn => ?_
  refine traced_after (moves_keyword (by decide)) (shallow_keyword "to") fun _ t _ => ?_
  refine traced_after (moves_padded moves_ident) (shallow_padded shallow_ident)
    fun name a _ => ?_
  refine traced_after (moves_many (moves_padded moves_variableName))
    (shallow_many (shallow_padded shallow_variableName)) fun params b _ => ?_
  refine (traced_many (moves_statement n) (h n hn)).bind fun body => ?_
  exact shallow_bind shallow_line fun _ => shallow_bind (shallow_keyword "end") fun _ =>
    shallow_pure _

/-- One level of statements, given the levels inside. -/
lemma traced_statement_of_inner (h : ∀ n, levels = n + 1 → ∀ s, Traced n (statement n) s) :
    Traced levels (statement levels) s := by
  have hexpr := traced_expr levels
  have hmoves := moves_expr levels
  have hsettled := endsSettled_reader .sum (levels + 1)
  rw [statement_eq_statementWith]
  refine traced_padded fun s hs => traced_choice fun p hp => ?_
  simp only [List.mem_cons, List.not_mem_nil, or_false] at hp
  obtain rfl | rfl | rfl | rfl | rfl := hp
  · refine traced_after moves_line shallow_line fun line a _ => ?_
    refine traced_after (moves_keyword (by decide)) (shallow_keyword "if") fun _ b _ => ?_
    refine traced_bind (moves_condition hmoves) ?_ fun cond c hc => ?_
    · refine traced_bind hmoves (hexpr b) fun lhs c _ => ?_
      refine traced_after moves_comparison shallow_comparison fun _ d _ => ?_
      exact (hexpr d).bind fun rhs => shallow_pure _
    · have hunblank : (condition (exprAt levels)).EndsSettled := endsSettled_bind fun _ =>
        endsSettled_bind fun _ => hsettled.map _
      exact (traced_block (hunblank b cond c hc) h).bind fun body => shallow_pure _
  · refine traced_after moves_line shallow_line fun line a _ => ?_
    refine traced_after (moves_keyword (by decide)) (shallow_keyword "repeat")
      fun _ b _ => ?_
    refine traced_bind hmoves (hexpr b) fun count c hc => ?_
    exact (traced_block (hsettled b count c hc) h).bind fun body => shallow_pure _
  · refine traced_after (moves_keyword (by decide)) (shallow_keyword "make") fun _ a _ => ?_
    refine traced_after
      (moves_padded (moves_bind (moves_char (by decide)) fun _ => moves_ident))
      (shallow_padded (shallow_bind (shallow_char '"') fun _ => shallow_ident)) fun name b _ => ?_
    exact (hexpr b).bind fun value => shallow_pure _
  · exact traced_definition hs h
  · refine traced_after (moves_padded moves_ident) (shallow_padded shallow_ident)
      fun name a _ => ?_
    refine (traced_many (moves_arg hmoves) fun s => ?_).bind fun args => shallow_pure _
    exact traced_orElse
      (shallow_bind (shallow_padded shallow_word) fun _ => shallow_pure _).traced
      ((hexpr s).bind fun e => shallow_pure _)

lemma traced_statement (levels : Nat) (s : Cursor) : Traced levels (statement levels) s := by
  induction levels generalizing s with
  | zero => exact traced_statement_of_inner fun n hn => absurd hn (Nat.succ_ne_zero n).symm
  | succ levels ih =>
      refine traced_statement_of_inner fun n hn => ?_
      obtain rfl : levels = n := Nat.succ.inj hn
      exact ih

lemma traced_statements (s : Cursor) : Traced maxNesting statements s :=
  traced_padded fun _ _ => traced_many (moves_statement maxNesting) (traced_statement maxNesting)

end Grammar

end LogoStudio.Logo
