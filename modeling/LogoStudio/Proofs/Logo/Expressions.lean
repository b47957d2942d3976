import LogoStudio.Proofs.Logo.Tokens

/-!
# Reading expressions

Expressions are read level by level. A chain of operators is read up to any of its operands
before it is known where it ends, so the main statement about chains says how much of a
chain is read already. Parentheses and minus signs take a level of nesting each.
-/
namespace LogoStudio.Logo

open LogoStudio.Logo.Parser LogoStudio.Logo.Cursor

/-- The parser for a level of expressions, with `room` levels of nesting left. -/
def reader : Level → Nat → Parser NumExpr
  | .sum, room => sum (operand room)
  | .product, room => chain productSign (operand room)
  | .operand, room => operand room

/-- The parser for the signs between the operands of a chain. -/
def signOf : Level → Parser Operator
  | .sum => sumSign
  | .product | .operand => productSign

/-- The levels of nesting left at a depth. -/
def roomAt (depth : Nat) : Nat := maxNesting + 1 - depth

/-- No operator follows that an expression of a level would go on with. -/
def Ends (level : Level) (next : List Token) : Prop :=
  ∀ o : Operator, level.encloses o = false → lead? next ≠ some (.sign o.sign)

lemma reader_eq_chain {level : Level} (h : level ≠ .operand) (room : Nat) :
    reader level room = chain (signOf level) (reader level.next room) := by
  cases level with
  | sum => rfl
  | product => rfl
  | operand => exact absurd rfl h

lemma Operator.level_ne (o : Operator) : o.level ≠ .operand := by
  cases o <;> decide

lemma Operator.sign_inj {o o' : Operator} (h : o.sign = o'.sign) : o = o' := by
  cases o <;> cases o' <;> first | rfl | exact absurd h (by decide)

lemma Operator.sign_mem (o : Operator) : o.sign ∈ signs := by
  cases o <;> decide

@[simp] lemma Operator.level_encloses (o : Operator) : o.level.encloses o = false := by
  cases o <;> rfl

@[simp] lemma Operator.next_encloses (o : Operator) : o.level.next.encloses o = true := by
  cases o <;> rfl

lemma Ends.next {level : Level} {next : List Token} (h : Ends level next) :
    Ends level.next next := by
  intro o ho
  refine h o ?_
  cases level <;> cases o <;> first | rfl | exact absurd ho (by decide)

/-- Where an operator stands, a tighter expression ends. -/
lemma ends_of_sign (o : Operator) (next : List Token) :
    Ends o.level.next (.sign o.sign :: next) := by
  intro o' ho' heq
  obtain rfl : o = o' := Operator.sign_inj (by simpa [Token.lead] using heq)
  rw [Operator.next_encloses] at ho'
  cases ho'

section

variable {next : List Token}

lemma reduces_padded_char {α : Type} (c : Char) (v : α) :
    Reduces (Near (.sign c :: next)) (At next) True (padded do char c; return v) (pure v) :=
  reduces_padded ((reduces_char c).step (.refl _))

lemma misses_padded_char {α : Type} {c : Char} (hc : c ∈ signs)
    (h : lead? next ≠ some (.sign c)) (v : α) :
    Misses (Near next) (padded do char c; return v) :=
  misses_padded ((misses_sign hc h).bind _)

lemma reduces_signOf (o : Operator) :
    Reduces (Near (.sign o.sign :: next)) (At next) True (signOf o.level) (pure o) := by
  cases o with
  | add => exact .take (reduces_padded_char '+' Operator.add)
  | sub =>
      refine .skip (misses_padded_char (by decide) (by simp [Token.lead, Operator.sign]) _) ?_
      exact .take (reduces_padded_char '-' Operator.sub)
  | mul => exact .take (reduces_padded_char '*' Operator.mul)
  | div =>
      refine .skip (misses_padded_char (by decide) (by simp [Token.lead, Operator.sign]) _) ?_
      exact .take (reduces_padded_char '/' Operator.div)

lemma misses_signOf {level : Level} (hlevel : level ≠ .operand) (h : Ends level next) :
    Misses (Near next) (signOf level) := by
  have hsign (o : Operator) (ho : level.encloses o = false) :
      Misses (Near next) (padded do char o.sign; return o) :=
    misses_padded_char o.sign_mem (h o ho) o
  cases level with
  | sum => exact (hsign .add rfl).orElse ((hsign .sub rfl).orElse fun _ _ => rfl)
  | product => exact (hsign .mul rfl).orElse ((hsign .div rfl).orElse fun _ _ => rfl)
  | operand => exact absurd rfl hlevel

section

variable {P Q R : Cursor → Prop} {allowed : Prop} {op : Parser Operator} {operand : Parser NumExpr}

lemma reduces_chainTail_nil (hop : Misses P op) (left : Nat) (lhs : NumExpr) :
    Reduces P P True (chainTail op operand left lhs) (pure lhs) := by
  apply reduces_of_done
  intro s hs
  refine ⟨s, hs, ?_⟩
  unfold chainTail
  rw [hop s hs]

/-- One more operand of a chain is read, if there is room for it. -/
lemma reduces_chainTail_cons {o : Operator} {rhs : NumExpr} (hop : Reduces P Q True op (pure o))
    (hoperand : Reduces Q R allowed operand (pure rhs)) (left : Nat) (lhs : NumExpr) :
    Reduces P R (allowed ∧ 0 < left) (chainTail op operand left lhs)
      (chainTail op operand (left - 1) (.op lhs o rhs)) := by
  intro s hs
  obtain ⟨t, ht, hst⟩ := (hop s hs).1 trivial
  have hst : op s = .done o t := hst
  by_cases hallowed : allowed
  · obtain ⟨u, hu, htu⟩ := (hoperand t ht).1 hallowed
    have htu : operand t = .done rhs u := htu
    cases left with
    | zero =>
        refine ⟨fun h => absurd h.2 (Nat.lt_irrefl 0), fun _ => ⟨s.line, ?_⟩⟩
        simp [chainTail, hst, htu]
    | succ left =>
        refine ⟨fun _ => ⟨u, hu, ?_⟩, fun h => absurd ⟨hallowed, Nat.succ_pos left⟩ h⟩
        conv_lhs => unfold chainTail
        simp [hst, htu]
  · obtain ⟨line, hline⟩ := (hoperand t ht).2 hallowed
    refine ⟨fun h => absurd h.1 hallowed, fun _ => ⟨line, ?_⟩⟩
    unfold chainTail
    simp [hst, hline]

end

namespace NumExpr

lemma Allowed.depth_le {e : NumExpr} {level : Level} {depth : Nat} (h : e.Allowed level depth) :
    depth ≤ maxNesting := by
  induction e generalizing level depth with
  | neg e ih => exact Nat.le_of_succ_le (ih h)
  | op l o r ihl _ => exact Nat.le_of_add_right_le (ihl h.2.1)
  | lit | var | query => exact h

/-- An expression is read on a level, `depth` levels down. -/
def ReadAt (level : Level) (depth : Nat) (e : NumExpr) : Prop :=
  ∀ next, Ends level next →
    Reduces (Near (e.tokens level ++ next)) (At next) (e.Allowed level depth)
      (reader level (roomAt depth)) (pure e)

/-- Reading on a level comes to where the expression is read and its chain may go on. -/
def OpensAt (level : Level) (depth : Nat) (e : NumExpr) : Prop :=
  ∀ next, Ends level.next next →
    Reduces (Near (e.tokens level ++ next)) (At next) (e.Allowed level depth)
      (reader level (roomAt depth))
      (chainTail (signOf level) (reader level.next (roomAt depth))
        (maxOperands - e.operands level) e)

variable {level : Level} {depth : Nat} {e : NumExpr}

/-- A chain that does not go on is read. -/
lemma OpensAt.readAt (hlevel : level ≠ .operand) (h : OpensAt level depth e) :
    ReadAt level depth e := by
  intro next hnext
  have hstop : Reduces (At next) (At next) True
      (chainTail (signOf level) (reader level.next (roomAt depth))
        (maxOperands - e.operands level) e) (pure e) :=
    reduces_chainTail_nil (misses_signOf hlevel hnext).at_of_near _ e
  exact ((h next hnext.next).trans hstop).of_iff (by simp)

/-- An expression that is no chain on a level is one operand of it. -/
lemma ReadAt.opensAt (hlevel : level ≠ .operand) (h : ReadAt level.next depth e)
    (htokens : e.tokens level = e.tokens level.next)
    (hallowed : e.Allowed level depth ↔ e.Allowed level.next depth)
    (hoperands : e.operands level = 1) : OpensAt level depth e := by
  intro next hnext
  rw [htokens, hoperands, propext hallowed, reader_eq_chain hlevel]
  exact (h next hnext).bind _

lemma OpensAt.op {l r : NumExpr} {o : Operator} (hl : OpensAt o.level depth l)
    (hr : ReadAt o.level.next depth r) : OpensAt o.level depth (.op l o r) := by
  intro next hnext
  have hfirst := hl (.sign o.sign :: (r.tokens o.level.next ++ next)) (ends_of_sign o _)
  have hmore := reduces_chainTail_cons (reduces_signOf o).at_of_near (hr next hnext).at_of_near
    (maxOperands - l.operands o.level) l
  have htokens : (NumExpr.op l o r).tokens o.level ++ next =
      l.tokens o.level ++ .sign o.sign :: (r.tokens o.level.next ++ next) := by
    simp [tokens, enclosed]
  have hcount : (NumExpr.op l o r).operands o.level = l.operands o.level + 1 := by
    simp [operands]
  rw [htokens, hcount, Nat.sub_add_eq]
  refine (hfirst.trans hmore).of_iff ?_
  simp only [Allowed, hcount, Operator.level_encloses, Bool.toNat_false, Nat.add_zero]
  constructor
  · rintro ⟨hl, hr, hleft⟩
    exact ⟨by omega, hl, hr⟩
  · rintro ⟨hcount, hl, hr⟩
    exact ⟨hl, hr, by omega⟩

end NumExpr

/-- What stands for an operand between blanks; `inner` reads the operands inside it. -/
def operandBody (inner : Parser NumExpr) : Parser NumExpr :=
  choice [
    do
      char '('
      let e ← sum inner
      char ')'
      return e,
    do return .lit (← number),
    do return .var (← variableName),
    do
      char '-'
      return .neg (← inner),
    do return .query (← query)]

lemma operand_succ (room : Nat) : operand (room + 1) = padded (operandBody (operand room)) := rfl

lemma roomAt_eq {depth : Nat} (h : depth ≤ maxNesting) : roomAt depth = roomAt (depth + 1) + 1 := by
  unfold roomAt
  omega

/-- An operand is read where its depth is allowed, and refused elsewhere. -/
lemma reduces_operand {tokens : List Token} {depth : Nat} {allowed : Prop} {e : NumExpr}
    (h : Reduces (At tokens) (Near next) allowed (operandBody (operand (roomAt (depth + 1))))
      (pure e)) :
    Reduces (Near tokens) (At next) (depth ≤ maxNesting ∧ allowed) (operand (roomAt depth))
      (pure e) := by
  by_cases hdepth : depth ≤ maxNesting
  · rw [roomAt_eq hdepth, operand_succ]
    exact (reduces_padded h).of_iff (by simp [hdepth])
  · have hroom : roomAt depth = 0 := by
      unfold roomAt
      omega
    rw [hroom]
    exact reduces_tooDeep.of_iff (by simp [hdepth])

lemma reduces_leaf {tokens : List Token} {depth : Nat} {e : NumExpr}
    (h : Reduces (At tokens) (Near next) True (operandBody (operand (roomAt (depth + 1))))
      (pure e)) :
    Reduces (Near tokens) (At next) (depth ≤ maxNesting) (operand (roomAt depth)) (pure e) :=
  (reduces_operand h).of_iff (by simp)

lemma reduces_query (q : Query) :
    Reduces (At (.keyword q.name none :: next)) (Near next) True query (pure q) := by
  have hskip (q' : Query) (h : q'.name ≠ q.name) :
      Misses (At (.keyword q.name none :: next)) (do keyword q'.name; return q') := by
    refine (misses_keyword ?_ ?_).bind _
    · cases q' <;> decide
    · intro line heq
      obtain ⟨hname, -⟩ : q.name = q'.name ∧ none = line := by simpa using heq
      exact h hname.symm
  have htake : Reduces (At (.keyword q.name none :: next)) (Near next) True
      (do keyword q.name; return q) (pure q) := (reduces_keyword q.name none).step (.refl _)
  cases q with
  | prompt => exact .take htake
  | confirm => exact .skip (hskip .prompt (by decide)) (.take htake)
  | canvasWidth =>
      exact .skip (hskip .prompt (by decide)) (.skip (hskip .confirm (by decide)) (.take htake))
  | canvasHeight =>
      refine .skip (hskip .prompt (by decide)) (.skip (hskip .confirm (by decide)) ?_)
      exact .skip (hskip .canvasWidth (by decide)) (.take htake)

namespace NumExpr

variable {depth : Nat} {e : NumExpr}

lemma readAt_lit (x : Float) : ReadAt .operand depth (.lit x) := by
  intro next _
  refine reduces_leaf ?_
  refine .skip ((misses_sign (by decide) (by simp [tokens, Token.lead])).bind _) ?_
  exact .take ((reduces_number x).map NumExpr.lit)

lemma readAt_var (v : Ident) : ReadAt .operand depth (.var v) := by
  intro next _
  refine reduces_leaf ?_
  refine .skip ((misses_sign (by decide) (by simp [tokens, Token.lead])).bind _) ?_
  refine .skip ((misses_number (by simp [tokens, Token.lead])).bind _) ?_
  exact .take ((reduces_variableName v).map NumExpr.var)

lemma readAt_query (q : Query) : ReadAt .operand depth (.query q) := by
  intro next _
  refine reduces_leaf ?_
  refine .skip ((misses_sign (by decide) (by simp [tokens, Token.lead])).bind _) ?_
  refine .skip ((misses_number (by simp [tokens, Token.lead])).bind _) ?_
  refine .skip ((misses_variableName (by simp [tokens, Token.lead])).bind _) ?_
  refine .skip ((misses_sign (by decide) (by simp [tokens, Token.lead])).bind _) ?_
  exact .take ((reduces_query q).map NumExpr.query)

lemma readAt_neg (h : ReadAt .operand (depth + 1) e) : ReadAt .operand depth (.neg e) := by
  intro next hnext
  have hdepth : e.Allowed .operand (depth + 1) → depth ≤ maxNesting := fun h =>
    Nat.le_of_succ_le h.depth_le
  refine (reduces_operand ?_).of_iff (and_iff_right_of_imp hdepth)
  refine .skip ((misses_sign (by decide) (by simp [tokens, Token.lead])).bind _) ?_
  refine .skip ((misses_number (by simp [tokens, Token.lead])).bind _) ?_
  refine .skip ((misses_variableName (by simp [tokens, Token.lead])).bind _) ?_
  exact .take ((reduces_char '-').step ((h next hnext).map NumExpr.neg).to_near)

/-- In parentheses, every expression is an operand. -/
lemma ReadAt.parens (h : ReadAt .sum (depth + 1) e) (next : List Token) :
    Reduces (Near (enclosed true (e.tokens .sum) ++ next)) (At next) (e.Allowed .sum (depth + 1))
      (operand (roomAt depth)) (pure e) := by
  have hdepth : e.Allowed .sum (depth + 1) → depth ≤ maxNesting := fun h =>
    Nat.le_of_succ_le h.depth_le
  have hnext : Ends .sum (.sign ')' :: next) := by
    intro o _ heq
    cases o <;> exact absurd heq (by simp [Token.lead, Operator.sign])
  have htokens : enclosed true (e.tokens .sum) ++ next =
      .sign '(' :: (e.tokens .sum ++ .sign ')' :: next) := by
    simp [enclosed]
  rw [htokens]
  refine (reduces_operand ?_).of_iff (and_iff_right_of_imp hdepth)
  refine .take ((reduces_char '(').step ?_)
  exact ((h _ hnext).seq ((reduces_char ')').step (.refl (pure e)))).of_iff (by simp)

/-- An expression without operators is an operand on all levels. -/
lemma ReadAt.opens (hop : ∀ l o r, e ≠ .op l o r) (h : ReadAt .operand depth e) :
    ReadAt .operand depth e ∧ OpensAt .product depth e ∧ OpensAt .sum depth e := by
  have hsame (level level' : Level) : e.tokens level = e.tokens level' ∧
      (e.Allowed level depth ↔ e.Allowed level' depth) ∧ e.operands level = 1 := by
    cases e with
    | op l o r => exact absurd rfl (hop l o r)
    | _ => exact ⟨rfl, Iff.rfl, rfl⟩
  have hproduct : OpensAt .product depth e := by
    obtain ⟨htokens, hallowed, hoperands⟩ := hsame .product .operand
    exact h.opensAt (by decide) htokens hallowed hoperands
  have hsum : OpensAt .sum depth e := by
    obtain ⟨htokens, hallowed, hoperands⟩ := hsame .sum .product
    exact (hproduct.readAt (by decide)).opensAt (by decide) htokens hallowed hoperands
  exact ⟨h, hproduct, hsum⟩

section

variable {l r : NumExpr} {o : Operator}

lemma ReadAt.op_operand (h : ReadAt .sum (depth + 1) (.op l o r)) :
    ReadAt .operand depth (.op l o r) := by
  intro next _
  have htokens : (NumExpr.op l o r).tokens .operand =
      enclosed true ((NumExpr.op l o r).tokens .sum) := by
    simp [tokens, enclosed, Level.encloses]
  rw [htokens]
  exact h.parens next

/-- On the levels that are not its own, an operator makes one operand. -/
lemma ReadAt.op_next {level : Level} (hlevel : level ≠ .operand) (ho : o.level ≠ level)
    (h : ReadAt level.next depth (.op l o r)) : OpensAt level depth (.op l o r) := by
  have hencloses : level.next.encloses o = level.encloses o := by
    cases level <;> cases o <;> first | rfl | exact absurd rfl ho
  refine h.opensAt hlevel ?_ ?_ ?_
  · simp only [tokens, hencloses]
  · simp only [Allowed, hencloses]
  · simp [operands, ho]

end

/-- Every expression is read on every level. -/
lemma opensAt_all (e : NumExpr) (depth : Nat) :
    ReadAt .operand depth e ∧ OpensAt .product depth e ∧ OpensAt .sum depth e := by
  induction e generalizing depth with
  | lit x => exact (readAt_lit x).opens (by simp)
  | var v => exact (readAt_var v).opens (by simp)
  | query q => exact (readAt_query q).opens (by simp)
  | neg e ih => exact (readAt_neg (ih (depth + 1)).1).opens (by simp)
  | op l o r ihl ihr =>
      cases ho : o.level with
      | sum =>
          have hsum (depth : Nat) : OpensAt .sum depth (.op l o r) := by
            have hchain : OpensAt o.level depth l := ho ▸ (ihl depth).2.2
            have hterm : ReadAt o.level.next depth r := ho ▸ (ihr depth).2.1.readAt (by decide)
            exact ho ▸ hchain.op hterm
          have hoperand := ((hsum (depth + 1)).readAt (by decide)).op_operand
          exact ⟨hoperand, hoperand.op_next (by decide) (by simp [ho]), hsum depth⟩
      | product =>
          have hproduct (depth : Nat) : OpensAt .product depth (.op l o r) := by
            have hchain : OpensAt o.level depth l := ho ▸ (ihl depth).2.1
            have hterm : ReadAt o.level.next depth r := ho ▸ (ihr depth).1
            exact ho ▸ hchain.op hterm
          have hsum (depth : Nat) : OpensAt .sum depth (.op l o r) :=
            ((hproduct depth).readAt (by decide)).op_next (by decide) (by simp [ho])
          exact ⟨((hsum (depth + 1)).readAt (by decide)).op_operand, hproduct depth, hsum depth⟩
      | operand => exact absurd ho o.level_ne

lemma readAt_sum (e : NumExpr) (depth : Nat) : ReadAt .sum depth e :=
  (opensAt_all e depth).2.2.readAt (by decide)

end NumExpr

end

end LogoStudio.Logo
