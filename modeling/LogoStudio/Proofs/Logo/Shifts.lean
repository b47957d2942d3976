import LogoStudio.Proofs.Logo.Reading

/-!
# Moving a text down

The line on which a text starts is kept in the tree and decides nothing else. So a text that
stands some lines further down is read in the same way, and what is read from it stands as many
lines further down. Each parser is compared with itself, but behind a value the parser that
follows is given the value further down.
-/
namespace LogoStudio.Logo

open LogoStudio.Logo.Parser

def Ident.down (k : Nat) (v : Ident) : Ident := ⟨v.name, v.line + k⟩

def NumExpr.down (k : Nat) : NumExpr → NumExpr
  | lit x => lit x
  | var v => var (v.down k)
  | neg e => neg (e.down k)
  | op l o r => op (l.down k) o (r.down k)
  | query q => query q

def Condition.down (k : Nat) (cond : Condition) : Condition :=
  ⟨cond.lhs.down k, cond.comparison, cond.rhs.down k⟩

def Arg.down (k : Nat) : Arg → Arg
  | num e => num (e.down k)
  | word w => word (w.down k)

mutual
/-- A statement with every line in it `k` lines further down. -/
def Statement.down (k : Nat) : Statement → Statement
  | .define name params body endLine =>
      .define (name.down k) (params.map (Ident.down k)) (downIn k body) (endLine + k)
  | .call name args => .call (name.down k) (args.map (Arg.down k))
  | .branch line cond body => .branch (line + k) (cond.down k) (downIn k body)
  | .loop line count body => .loop (line + k) (count.down k) (downIn k body)
  | .make name value => .make (name.down k) (value.down k)
termination_by structural s => s

/-- The same for a list of statements. -/
def downIn (k : Nat) : List Statement → List Statement
  | [] => []
  | s :: rest => s.down k :: downIn k rest
termination_by structural l => l
end

@[simp] lemma downIn_eq_map (k : Nat) (statements : List Statement) :
    downIn k statements = statements.map (Statement.down k) := by
  induction statements with
  | nil => rfl
  | cons s rest ih => rw [downIn, ih, List.map_cons]

def Cursor.down (k : Nat) (s : Cursor) : Cursor := ⟨s.rest, s.line + k⟩

/-- The same outcome further down, where `f` moves the value. -/
def Outcome.down {α : Type} (k : Nat) (f : α → α) : Outcome α → Outcome α
  | done value next => done (f value) (next.down k)
  | miss => miss
  | tooDeep line => tooDeep (line + k)

namespace Parser

variable {α β : Type} {k : Nat} {f : α → α} {g : β → β} {p p' q q' : Parser α}

/-- Further down, `p'` reads what `p` reads. -/
def Shifts (k : Nat) (f : α → α) (p p' : Parser α) : Prop :=
  ∀ s, p' (s.down k) = (p s).down k f

lemma shifts_pure (f : α → α) (v : α) : Shifts k f (pure v) (pure (f v)) := fun _ => rfl

lemma shifts_bind {r r' : α → Parser β} (hp : Shifts k f p p')
    (hr : ∀ v, Shifts k g (r v) (r' (f v))) : Shifts k g (p >>= r) (p' >>= r') := by
  intro s
  rw [bind_apply, bind_apply, hp s]
  cases p s with
  | done v t => exact hr v t
  | miss => rfl
  | tooDeep line => rfl

/-- Behind a value without lines, the same parser follows. -/
lemma shifts_then {r r' : α → Parser β} (hp : Shifts k id p p')
    (hr : ∀ v, Shifts k g (r v) (r' v)) : Shifts k g (p >>= r) (p' >>= r') :=
  shifts_bind hp hr

lemma shifts_orElse (hp : Shifts k f p p') (hq : Shifts k f q q') :
    Shifts k f (orElse p q) (orElse p' q') := by
  intro s
  rw [orElse_apply, orElse_apply, hp s]
  cases p s with
  | done v t => rfl
  | miss => exact hq s
  | tooDeep line => rfl

lemma shifts_choice {ps : List (Parser α)} (h : ∀ p ∈ ps, Shifts k f p p) :
    Shifts k f (choice ps) (choice ps) := by
  induction ps with
  | nil => exact fun _ => rfl
  | cons p ps ih =>
      exact shifts_orElse (h p (by simp)) (ih fun q hq => h q (by simp [hq]))

lemma shifts_tooDeep : Shifts k f (tooDeep : Parser α) tooDeep := fun _ => rfl

lemma shifts_line : Shifts k (· + k) line line := fun _ => rfl

lemma shifts_manyUpTo (hp : Shifts k f p p) (turns : Nat) :
    Shifts k (List.map f) (manyUpTo p turns) (manyUpTo p turns) := by
  induction turns with
  | zero => exact fun _ => rfl
  | succ turns ih =>
      intro s
      unfold manyUpTo
      rw [hp s]
      cases p s with
      | miss => rfl
      | tooDeep line => rfl
      | done v t =>
          dsimp only [Outcome.down]
          rw [ih t]
          cases manyUpTo p turns t <;> rfl

lemma shifts_many (hp : Shifts k f p p) : Shifts k (List.map f) (many p) (many p) :=
  fun s => shifts_manyUpTo hp s.rest.length s

lemma skipFrom_down (k : Nat) (inside : Bool) (text : List Char) (line : Nat) :
    skipFrom inside text (line + k) = (skipFrom inside text line).down k := by
  induction text generalizing inside line with
  | nil => rfl
  | cons c rest ih =>
      unfold skipFrom
      split_ifs
      · rw [Nat.add_right_comm]
        exact ih false (line + 1)
      · exact ih true line
      · exact ih false line
      · exact ih true line
      · rfl

lemma shifts_blanks : Shifts k id blanks blanks := by
  intro s
  change Outcome.done () (skipFrom false s.rest (s.line + k)) = _
  rw [skipFrom_down]
  rfl

lemma shifts_padded (hp : Shifts k f p p) : Shifts k f (padded p) (padded p) :=
  shifts_then shifts_blanks fun _ => shifts_bind hp fun v =>
    shifts_then shifts_blanks fun _ => shifts_pure f v

lemma shifts_char (c : Char) : Shifts k id (char c) (char c) := by
  rintro ⟨text, line⟩
  cases text with
  | nil => rfl
  | cons d rest =>
      change (if d = c then Outcome.done () ⟨rest, line + k⟩ else .miss) =
        (if d = c then Outcome.done () ⟨rest, line⟩ else .miss).down k id
      split_ifs <;> rfl

lemma shifts_run (isIn : Char → Bool) : Shifts k id (run isIn) (run isIn) := fun _ => rfl

lemma shifts_run1 (isIn : Char → Bool) : Shifts k id (run1 isIn) (run1 isIn) := by
  intro s
  unfold run1
  dsimp only [Cursor.down]
  split <;> rfl

lemma shifts_keyword (word : String) : Shifts k id (keyword word) (keyword word) := by
  intro s
  unfold keyword
  dsimp only [Cursor.down]
  split
  · split_ifs <;> rfl
  · rfl
  · rfl

end Parser

variable {k : Nat}

lemma shifts_ident : Shifts k (Ident.down k) ident ident := by
  rintro ⟨text, line⟩
  cases text with
  | nil => rfl
  | cons c rest =>
      unfold ident
      dsimp only [Cursor.down]
      split_ifs <;> rfl

lemma shifts_variableName : Shifts k (Ident.down k) variableName variableName :=
  shifts_then (shifts_char ':') fun _ => shifts_ident

lemma shifts_number : Shifts k id number number := by
  have hfraction : Shifts k id fraction fraction :=
    shifts_orElse (shifts_then (shifts_char '.') fun _ => shifts_run _) (shifts_pure id [])
  exact shifts_orElse
    (shifts_then (shifts_run1 _) fun _ => shifts_then hfraction fun _ => shifts_pure id _)
    (shifts_then (shifts_char '.') fun _ => shifts_then (shifts_run1 _) fun _ => shifts_pure id _)

lemma shifts_query : Shifts k id query query := by
  apply shifts_choice
  intro p hp
  obtain ⟨q, -, rfl⟩ := List.mem_map.mp hp
  exact shifts_then (shifts_keyword _) fun _ => shifts_pure id q

lemma shifts_sign {α : Type} (signs : List (Char × α)) : Shifts k id (sign signs) (sign signs) := by
  apply shifts_choice
  intro p hp
  obtain ⟨x, -, rfl⟩ := List.mem_map.mp hp
  exact shifts_padded (shifts_then (shifts_char x.1) fun _ => shifts_pure id x.2)

lemma shifts_comparison : Shifts k id comparison comparison := by
  apply shifts_padded
  apply shifts_choice
  intro p hp
  simp only [List.mem_cons, List.not_mem_nil, or_false] at hp
  obtain rfl | rfl | rfl := hp <;>
    exact shifts_then (shifts_char _) fun _ => shifts_pure id _

section Expressions

variable {op : Parser Operator} {expr : Parser NumExpr}

lemma shifts_chainTail (hop : Shifts k id op op) (hexpr : Shifts k (NumExpr.down k) expr expr)
    (left : Nat) (lhs : NumExpr) :
    Shifts k (NumExpr.down k) (chainTail op expr left lhs)
      (chainTail op expr left (lhs.down k)) := by
  induction left using Nat.strongRecOn generalizing lhs with
  | _ left ih =>
      intro s
      rw [chainTail.eq_def, chainTail.eq_def op expr left lhs]
      dsimp only
      rw [hop s]
      cases op s with
      | miss => rfl
      | tooDeep line => rfl
      | done o t =>
          dsimp only [Outcome.down, id]
          rw [hexpr t]
          cases expr t with
          | miss => rfl
          | tooDeep line => rfl
          | done rhs u =>
              cases left with
              | zero => rfl
              | succ left => exact ih left (Nat.lt_succ_self left) (.op lhs o rhs) u

lemma shifts_chain (hop : Shifts k id op op) (hexpr : Shifts k (NumExpr.down k) expr expr) :
    Shifts k (NumExpr.down k) (chain op expr) (chain op expr) :=
  shifts_bind hexpr fun e => shifts_chainTail hop hexpr _ e

lemma shifts_sum (hexpr : Shifts k (NumExpr.down k) expr expr) :
    Shifts k (NumExpr.down k) (sum expr) (sum expr) :=
  shifts_chain (shifts_sign _) (shifts_chain (shifts_sign _) hexpr)

end Expressions

lemma shifts_operand (room : Nat) : Shifts k (NumExpr.down k) (operand room) (operand room) := by
  induction room with
  | zero => exact shifts_tooDeep
  | succ room ih =>
      apply shifts_padded
      apply shifts_choice
      intro p hp
      simp only [List.mem_cons, List.not_mem_nil, or_false] at hp
      obtain rfl | rfl | rfl | rfl | rfl := hp
      · exact shifts_then (shifts_char '(') fun _ => shifts_bind (shifts_sum ih) fun e =>
          shifts_then (shifts_char ')') fun _ => shifts_pure _ e
      · exact shifts_then shifts_number fun x => shifts_pure (NumExpr.down k) (.lit x)
      · exact shifts_bind shifts_variableName fun v => shifts_pure (NumExpr.down k) (.var v)
      · exact shifts_then (shifts_char '-') fun _ => shifts_bind ih fun e =>
          shifts_pure (NumExpr.down k) (.neg e)
      · exact shifts_then shifts_query fun q => shifts_pure (NumExpr.down k) (.query q)

section Statements

variable {expr : Parser NumExpr} {inner : Option (Parser (List Statement))}

lemma shifts_condition (hexpr : Shifts k (NumExpr.down k) expr expr) :
    Shifts k (Condition.down k) (condition expr) (condition expr) :=
  shifts_bind hexpr fun lhs => shifts_then shifts_comparison fun c =>
    shifts_bind hexpr fun rhs => shifts_pure (Condition.down k) ⟨lhs, c, rhs⟩

lemma shifts_word : Shifts k (Ident.down k) word word :=
  shifts_then (shifts_char '"') fun _ => shifts_bind shifts_line fun line =>
    shifts_then (shifts_run1 _) fun text => shifts_pure (Ident.down k) ⟨String.ofList text, line⟩

lemma shifts_arg (hexpr : Shifts k (NumExpr.down k) expr expr) :
    Shifts k (Arg.down k) (arg expr) (arg expr) :=
  shifts_orElse
    (shifts_bind (shifts_padded shifts_word) fun w => shifts_pure (Arg.down k) (.word w))
    (shifts_bind hexpr fun e => shifts_pure (Arg.down k) (.num e))

lemma shifts_block (hinner : ∀ p ∈ inner, Shifts k (downIn k) p p) :
    Shifts k (downIn k) (block inner) (block inner) := by
  refine shifts_then (shifts_padded (shifts_char '[')) fun _ => ?_
  cases inner with
  | none => exact shifts_tooDeep
  | some p =>
      exact shifts_bind (hinner p rfl) fun body =>
        shifts_then (shifts_padded (shifts_char ']')) fun _ => shifts_pure _ body

lemma shifts_definition (hinner : ∀ p ∈ inner, Shifts k (downIn k) p p) :
    Shifts k (Statement.down k) (definition inner) (definition inner) := by
  refine shifts_then (shifts_keyword "to") fun _ => ?_
  cases inner with
  | none => exact shifts_tooDeep
  | some p =>
      exact shifts_bind (shifts_padded shifts_ident) fun name =>
        shifts_bind (shifts_many (shifts_padded shifts_variableName)) fun params =>
          shifts_bind (hinner p rfl) fun body => shifts_bind shifts_line fun endLine =>
            shifts_then (shifts_keyword "end") fun _ =>
              shifts_pure (Statement.down k) (.define name params body endLine)

lemma shifts_statementWith (hexpr : Shifts k (NumExpr.down k) expr expr)
    (hinner : ∀ p ∈ inner, Shifts k (downIn k) p p) :
    Shifts k (Statement.down k) (statementWith expr inner) (statementWith expr inner) := by
  have hblock := shifts_block hinner
  apply shifts_padded
  apply shifts_choice
  intro p hp
  simp only [List.mem_cons, List.not_mem_nil, or_false] at hp
  obtain rfl | rfl | rfl | rfl | rfl := hp
  · exact shifts_bind shifts_line fun line => shifts_then (shifts_keyword "if") fun _ =>
      shifts_bind (shifts_condition hexpr) fun cond => shifts_bind hblock fun body =>
        shifts_pure (Statement.down k) (.branch line cond body)
  · exact shifts_bind shifts_line fun line => shifts_then (shifts_keyword "repeat") fun _ =>
      shifts_bind hexpr fun count => shifts_bind hblock fun body =>
        shifts_pure (Statement.down k) (.loop line count body)
  · exact shifts_then (shifts_keyword "make") fun _ =>
      shifts_bind (shifts_padded (shifts_then (shifts_char '"') fun _ => shifts_ident)) fun name =>
        shifts_bind hexpr fun value => shifts_pure (Statement.down k) (.make name value)
  · exact shifts_definition hinner
  · exact shifts_bind (shifts_padded shifts_ident) fun name =>
      shifts_bind (shifts_many (shifts_arg hexpr)) fun args =>
        shifts_pure (Statement.down k) (.call name args)

end Statements

/-- A statement that stands further down is read as such. -/
lemma shifts_statement (levels : Nat) :
    Shifts k (Statement.down k) (statement levels) (statement levels) := by
  induction levels with
  | zero => exact shifts_statementWith (shifts_sum (shifts_operand 1)) (by simp)
  | succ levels ih =>
      refine shifts_statementWith (shifts_sum (shifts_operand (levels + 2))) ?_
      intro p hp
      obtain rfl : many (statement levels) = p := by simpa using hp
      rw [show downIn k = List.map (Statement.down k) from funext (downIn_eq_map k)]
      exact shifts_many ih

end LogoStudio.Logo
