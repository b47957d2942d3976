import LogoStudio.Proofs.Logo.Overruns

/-!
# How high the trees of a program are

Two limits of the grammar bound the trees that it reads. Bodies nest only so deep, and so do
parentheses and minus signs; and a chain has only so many operands, though each of them makes the
tree one higher. An expression gains at most two chains of height on every level, so its height
is bounded by the levels that are left where it stands. Compilation drops lines and signs of
literals but adds nothing, so the code of a program keeps the bound.
-/
namespace LogoStudio.Logo

open LogoStudio.Logo.Parser

/-- The most minus signs and operators on a way down an expression. -/
def NumExpr.height : NumExpr → Nat
  | .lit _ => 0
  | .var _ => 0
  | .neg e => e.height + 1
  | .op l _ r => max l.height r.height + 1
  | .query _ => 0

/-- The same for an expression without lines. -/
def Expr.height : Expr → Nat
  | .num _ => 0
  | .var _ => 0
  | .neg e => e.height + 1
  | .op l _ r => max l.height r.height + 1
  | .query _ => 0

lemma height_lower (e : NumExpr) : e.lower.height ≤ e.height := by
  induction e with
  | lit x => exact Nat.le_refl 0
  | var v => exact Nat.le_refl 0
  | neg e ih =>
      unfold NumExpr.lower
      split
      · exact Nat.zero_le _
      · exact Nat.succ_le_succ ih
  | op l o r ihl ihr =>
      simp only [NumExpr.lower, Expr.height, NumExpr.height]
      omega
  | query q => exact Nat.le_refl 0

def Arg.num? : Arg → Option NumExpr
  | .num e => some e
  | .word _ => none

/-- The expressions of a statement, apart from those in its body. -/
def Statement.exprs : Statement → List NumExpr
  | .define .. => []
  | .call _ args => args.filterMap Arg.num?
  | .branch _ cond _ => [cond.lhs, cond.rhs]
  | .loop _ count _ => [count]
  | .make _ value => [value]

/-- The statements of the block or the procedure that a statement holds. -/
def Statement.body : Statement → List Statement
  | .define _ _ body _ => body
  | .branch _ _ body => body
  | .loop _ _ body => body
  | .call .. => []
  | .make .. => []

/-- A statement stands among others, with a number of blocks and procedure bodies around it. -/
inductive StandsIn : Nat → Statement → List Statement → Prop
  | here {s : Statement} {statements : List Statement} (h : s ∈ statements) :
      StandsIn 0 s statements
  | inside {depth : Nat} {s t : Statement} {statements : List Statement} (ht : t ∈ statements)
      (h : StandsIn depth s t.body) : StandsIn (depth + 1) s statements

lemma StandsIn.mono {depth : Nat} {s : Statement} {inner outer : List Statement}
    (h : StandsIn depth s inner) (hsub : ∀ t ∈ inner, t ∈ outer) : StandsIn depth s outer := by
  cases h with
  | here h => exact .here (hsub s h)
  | inside ht h => exact .inside (hsub _ ht) h

lemma StandsIn.exists_mem {depth : Nat} {s : Statement} {statements : List Statement}
    (h : StandsIn depth s statements) : ∃ t, t ∈ statements := by
  cases h with
  | here h => exact ⟨s, h⟩
  | inside ht _ => exact ⟨_, ht⟩

/-- The expressions that a parser reads stay below a height, by a margin. -/
def Parser.Below (margin height : Nat) (p : Parser NumExpr) : Prop :=
  ∀ s e t, p s = .done e t → e.height + margin ≤ height

section Expressions

variable {op : Parser Operator} {expr : Parser NumExpr} {margin height left : Nat}

/-- Every operand that a chain goes on with makes it one higher. -/
lemma height_chainTail (hexpr : expr.Below margin height) {start : Nat} {lhs e : NumExpr}
    {s t : Cursor} (hstart : height ≤ start) (hlhs : lhs.height + margin ≤ start)
    (h : chainTail op expr left lhs s = .done e t) : e.height + margin ≤ start + left := by
  induction left using Nat.strong_induction_on generalizing lhs s start with
  | _ left ih =>
      have hstep := chainStep op expr left lhs s
      generalize chainTail op expr left lhs s = outcome at h hstep
      cases hstep with
      | stop =>
          obtain ⟨rfl, -⟩ : lhs = e ∧ s = t := by simpa using h
          omega
      | @next o rhs u v n hop hrhs hleft =>
          have hnext : (NumExpr.op lhs o rhs).height + margin ≤ start + 1 := by
            have := hexpr u rhs v hrhs
            simp only [NumExpr.height]
            omega
          have := ih n (by omega) (by omega) hnext h
          omega
      | sign | operand | full => cases h

lemma below_chain (hexpr : expr.Below margin height) :
    (chain op expr).Below margin (height + (maxOperands - 1)) := by
  intro s e t h
  obtain ⟨first, u, hu, h⟩ := bind_eq_done.mp h
  exact height_chainTail hexpr (Nat.le_refl height) (hexpr s first u hu) h

/-- An expression may be two chains higher than its operands. -/
lemma below_sum (hexpr : expr.Below margin height) :
    (sum expr).Below margin (height + 2 * (maxOperands - 1)) := by
  intro s e t h
  have := below_chain (below_chain hexpr) s e t h
  omega

end Expressions

/-- An operand with no room cannot be read, and with each level of room it may be as much higher
as an expression is higher than its operands. -/
lemma below_operand (room : Nat) :
    (operand room).Below (2 * (maxOperands - 1)) (2 * (maxOperands - 1) * room) := by
  induction room with
  | zero =>
      intro s e t h
      cases h
  | succ room ih =>
      intro s e t h
      obtain ⟨a, b, -, hab, -⟩ := padded_eq_done h
      obtain ⟨p, hp, hab⟩ := choice_eq_done hab
      have hleaf : 0 + 2 * (maxOperands - 1) ≤ 2 * (maxOperands - 1) * (room + 1) := by
        rw [Nat.mul_succ]
        omega
      simp only [List.mem_cons, List.not_mem_nil, or_false] at hp
      obtain rfl | rfl | rfl | rfl | rfl := hp
      · obtain ⟨_, c, -, hab⟩ := bind_eq_done.mp hab
        obtain ⟨e', d, hd, hab⟩ := bind_eq_done.mp hab
        obtain ⟨_, _, -, hab⟩ := bind_eq_done.mp hab
        obtain ⟨rfl, -⟩ := pure_eq_done.mp hab
        exact below_sum ih c e' d hd
      · obtain ⟨x, c, -, hab⟩ := bind_eq_done.mp hab
        obtain ⟨rfl, -⟩ := pure_eq_done.mp hab
        exact hleaf
      · obtain ⟨v, c, -, hab⟩ := bind_eq_done.mp hab
        obtain ⟨rfl, -⟩ := pure_eq_done.mp hab
        exact hleaf
      · obtain ⟨_, c, -, hab⟩ := bind_eq_done.mp hab
        obtain ⟨e', d, hd, hab⟩ := bind_eq_done.mp hab
        obtain ⟨rfl, -⟩ := pure_eq_done.mp hab
        have hinner := ih c e' d hd
        have hlevel : 1 ≤ 2 * (maxOperands - 1) := by decide
        rw [Nat.mul_succ, NumExpr.height]
        omega
      · obtain ⟨q, c, -, hab⟩ := bind_eq_done.mp hab
        obtain ⟨rfl, -⟩ := pure_eq_done.mp hab
        exact hleaf

lemma height_of_expr {levels : Nat} {s t : Cursor} {e : NumExpr}
    (h : exprAt levels s = .done e t) : e.height ≤ 126 * (levels + 1) := by
  have hsum := below_sum (below_operand (levels + 1)) s e t h
  have hlevel : 2 * (maxOperands - 1) = 126 := rfl
  rw [hlevel] at hsum
  omega

section Statements

variable {expr : Parser NumExpr} {inner : Option (Parser (List Statement))} {s t : Cursor}

lemma block_eq_done {body : List Statement} (h : block inner s = .done body t) :
    ∃ p ∈ inner, ∃ a b, p a = .done body b := by
  obtain ⟨_, a, -, h⟩ := bind_eq_done.mp h
  cases inner with
  | none => cases h
  | some p =>
      obtain ⟨body', b, hb, h⟩ := bind_eq_done.mp h
      obtain ⟨_, c, -, h⟩ := bind_eq_done.mp h
      obtain ⟨rfl, -⟩ := pure_eq_done.mp h
      exact ⟨p, rfl, a, b, hb⟩

lemma definition_eq_done {v : Statement} (h : definition inner s = .done v t) :
    v.exprs = [] ∧ ∃ p ∈ inner, ∃ a b, p a = .done v.body b := by
  obtain ⟨_, a, -, h⟩ := bind_eq_done.mp h
  cases inner with
  | none => cases h
  | some p =>
      obtain ⟨name, b, -, h⟩ := bind_eq_done.mp h
      obtain ⟨params, c, -, h⟩ := bind_eq_done.mp h
      obtain ⟨body, d, hd, h⟩ := bind_eq_done.mp h
      obtain ⟨endLine, e, -, h⟩ := bind_eq_done.mp h
      obtain ⟨_, f, -, h⟩ := bind_eq_done.mp h
      obtain ⟨rfl, -⟩ := pure_eq_done.mp h
      exact ⟨rfl, p, rfl, c, d, hd⟩

lemma num_of_arg {a : Arg} {e : NumExpr} (h : arg expr s = .done a t) (he : a.num? = some e) :
    ∃ b, expr s = .done e b := by
  obtain h | ⟨-, h⟩ := orElse_eq_done.mp h
  · obtain ⟨w, b, -, h⟩ := bind_eq_done.mp h
    obtain ⟨rfl, -⟩ := pure_eq_done.mp h
    cases he
  · obtain ⟨e', b, hb, h⟩ := bind_eq_done.mp h
    obtain ⟨rfl, -⟩ := pure_eq_done.mp h
    obtain rfl := Option.some.inj he
    exact ⟨b, hb⟩

/-- What a statement holds was read by the parsers for its expressions and for its body. -/
lemma statementWith_eq_done {v : Statement} (hexpr : expr.Moves)
    (h : statementWith expr inner s = .done v t) :
    (∀ e ∈ v.exprs, ∃ a b, expr a = .done e b) ∧
      (v.body = [] ∨ ∃ p ∈ inner, ∃ a b, p a = .done v.body b) := by
  obtain ⟨a, b, -, hab, -⟩ := padded_eq_done h
  obtain ⟨p, hp, hab⟩ := choice_eq_done hab
  clear h
  simp only [List.mem_cons, List.not_mem_nil, or_false] at hp
  obtain rfl | rfl | rfl | rfl | rfl := hp
  · obtain ⟨line, c, -, hab⟩ := bind_eq_done.mp hab
    obtain ⟨_, d, -, hab⟩ := bind_eq_done.mp hab
    obtain ⟨cond, e, hcond, hab⟩ := bind_eq_done.mp hab
    obtain ⟨body, f, hbody, hab⟩ := bind_eq_done.mp hab
    obtain ⟨rfl, -⟩ := pure_eq_done.mp hab
    obtain ⟨lhs, g, hlhs, hcond⟩ := bind_eq_done.mp hcond
    obtain ⟨comparison, k, -, hcond⟩ := bind_eq_done.mp hcond
    obtain ⟨rhs, l, hrhs, hcond⟩ := bind_eq_done.mp hcond
    obtain ⟨rfl, -⟩ := pure_eq_done.mp hcond
    refine ⟨?_, .inr (block_eq_done hbody)⟩
    intro e he
    simp only [Statement.exprs, List.mem_cons, List.not_mem_nil, or_false] at he
    obtain rfl | rfl := he
    · exact ⟨_, _, hlhs⟩
    · exact ⟨_, _, hrhs⟩
  · obtain ⟨line, c, -, hab⟩ := bind_eq_done.mp hab
    obtain ⟨_, d, -, hab⟩ := bind_eq_done.mp hab
    obtain ⟨count, e, hcount, hab⟩ := bind_eq_done.mp hab
    obtain ⟨body, f, hbody, hab⟩ := bind_eq_done.mp hab
    obtain ⟨rfl, -⟩ := pure_eq_done.mp hab
    refine ⟨?_, .inr (block_eq_done hbody)⟩
    intro e' he'
    obtain rfl := List.mem_singleton.mp he'
    exact ⟨_, _, hcount⟩
  · obtain ⟨_, c, -, hab⟩ := bind_eq_done.mp hab
    obtain ⟨name, d, -, hab⟩ := bind_eq_done.mp hab
    obtain ⟨value, e, hvalue, hab⟩ := bind_eq_done.mp hab
    obtain ⟨rfl, -⟩ := pure_eq_done.mp hab
    refine ⟨?_, .inl rfl⟩
    intro e' he'
    obtain rfl := List.mem_singleton.mp he'
    exact ⟨_, _, hvalue⟩
  · obtain ⟨hexprs, hbody⟩ := definition_eq_done hab
    exact ⟨by simp [hexprs], .inr hbody⟩
  · obtain ⟨name, c, -, hab⟩ := bind_eq_done.mp hab
    obtain ⟨args, d, hargs, hab⟩ := bind_eq_done.mp hab
    obtain ⟨rfl, -⟩ := pure_eq_done.mp hab
    refine ⟨?_, .inl rfl⟩
    intro e he
    obtain ⟨x, hx, hxe⟩ := List.mem_filterMap.mp he
    obtain ⟨f, g, -, hfg⟩ := (manyUpTo_done (moves_arg hexpr) hargs).2 x hx
    exact ⟨f, num_of_arg hfg hxe⟩

end Statements

/-- A statement was read with a number of levels left below it. -/
def ReadWith (levels : Nat) (v : Statement) : Prop := ∃ s t, statement levels s = .done v t

lemma ReadWith.held {levels : Nat} {v : Statement} (h : ReadWith levels v) :
    (∀ e ∈ v.exprs, ∃ a b, exprAt levels a = .done e b) ∧
      (v.body = [] ∨ ∃ p ∈ bodyReader levels, ∃ a b, p a = .done v.body b) := by
  obtain ⟨s, t, h⟩ := h
  rw [statement_eq_statementWith] at h
  exact statementWith_eq_done (moves_expr levels) h

/-- A body is read with one level less. -/
lemma ReadWith.body {levels : Nat} {v w : Statement} (h : ReadWith levels v) (hw : w ∈ v.body) :
    ∃ n, levels = n + 1 ∧ ReadWith n w := by
  obtain hempty | ⟨p, hp, a, b, hread⟩ := h.held.2
  · rw [hempty] at hw
    cases hw
  · cases levels with
    | zero => cases hp
    | succ n =>
        obtain rfl : many (statement n) = p := Option.some.inj hp
        obtain ⟨c, d, -, hcd⟩ := (manyUpTo_done (moves_statement n) hread).2 w hw
        exact ⟨n, rfl, c, d, hcd⟩

/-- Every body around a statement takes a level. -/
lemma StandsIn.readWith {depth levels : Nat} {s : Statement} {statements : List Statement}
    (h : StandsIn depth s statements) (hread : ∀ t ∈ statements, ReadWith levels t) :
    depth ≤ levels ∧ ReadWith (levels - depth) s := by
  induction h generalizing levels with
  | here hs => exact ⟨Nat.zero_le _, hread _ hs⟩
  | @inside depth s t statements ht hs ih =>
      obtain ⟨w, hw⟩ := hs.exists_mem
      obtain ⟨n, rfl, -⟩ := (hread t ht).body hw
      have hbody : ∀ w ∈ t.body, ReadWith n w := by
        intro w hw
        obtain ⟨n', hn', hread⟩ := (hread t ht).body hw
        obtain rfl := Nat.succ.inj hn'
        exact hread
      obtain ⟨hdepth, hread⟩ := ih hbody
      refine ⟨Nat.succ_le_succ hdepth, ?_⟩
      rwa [Nat.succ_sub_succ]

lemma readWith_of_parse {source : String} {program : List Statement}
    (h : parse source = .ok program) : ∀ s ∈ program, ReadWith maxNesting s := by
  intro s hs
  unfold parse at h
  split at h
  · next program' _ hdone =>
      obtain rfl := Except.ok.inj h
      obtain ⟨a, b, -, hab, -⟩ := padded_eq_done hdone
      obtain ⟨c, d, -, hcd⟩ := (manyUpTo_done (moves_statement maxNesting) hab).2 s hs
      exact ⟨c, d, hcd⟩
  · cases h
  · cases h
  · cases h

/-- The bounds for a program: how deep its statements stand, and how high their expressions are. -/
lemma bounds_of_parse {source : String} {program : List Statement}
    (h : parse source = .ok program) {depth : Nat} {s : Statement}
    (hs : StandsIn depth s program) :
    depth ≤ maxNesting ∧ ∀ e ∈ s.exprs, e.height ≤ 126 * (maxNesting + 1 - depth) := by
  obtain ⟨hdepth, hread⟩ := hs.readWith (readWith_of_parse h)
  refine ⟨hdepth, ?_⟩
  intro e he
  obtain ⟨a, b, hab⟩ := hread.held.1 e he
  have hheight := height_of_expr hab
  rwa [← Nat.sub_add_comm hdepth] at hheight

def Actual.num? : Actual → Option Expr
  | .num e => some e
  | .word _ => none

def Instr.exprs : Instr → List Expr
  | .primitive _ args => args.filterMap Actual.num?
  | .make _ value => [value]
  | .call _ args => args
  | .jumpUnless cond _ => [cond.lhs, cond.rhs]
  | .loopStart count _ => [count]
  | .ret => []
  | .loopNext _ => []
  | .halt => []

/-- The expressions of an instruction come from a statement among some others. -/
def ComesFrom (statements : List Statement) (instr : Instr) : Prop :=
  ∀ e ∈ instr.exprs, ∃ depth s e', StandsIn depth s statements ∧ e' ∈ s.exprs ∧ e = e'.lower

lemma ComesFrom.mono {instr : Instr} {inner outer : List Statement} (h : ComesFrom inner instr)
    (hsub : ∀ depth s, StandsIn depth s inner → ∃ depth', StandsIn depth' s outer) :
    ComesFrom outer instr := by
  intro e he
  obtain ⟨depth, s, e', hs, he', rfl⟩ := h e he
  obtain ⟨depth', hs'⟩ := hsub depth s hs
  exact ⟨depth', s, e', hs', he', rfl⟩

lemma ComesFrom.of_exprs {instr : Instr} {s : Statement} {statements : List Statement}
    (hs : s ∈ statements) (h : ∀ e ∈ instr.exprs, ∃ e' ∈ s.exprs, e = e'.lower) :
    ComesFrom statements instr := by
  intro e he
  obtain ⟨e', he', rfl⟩ := h e he
  exact ⟨0, s, e', .here hs, he', rfl⟩

section Code

variable (procs : List Definition)

/-- The inputs of a call keep their expressions. -/
lemma exprs_callCode {name : Ident} {args : List Arg} {instr : Instr}
    (h : callCode? procs name args = some instr) :
    ∀ e ∈ instr.exprs, ∃ e' ∈ args.filterMap Arg.num?, e = e'.lower := by
  unfold callCode? at h
  intro e he
  split at h
  · obtain rfl := Option.some.inj h
    cases he
  · split at h
    · obtain rfl := Option.some.inj h
      obtain ⟨x, hx, hxe⟩ := List.mem_filterMap.mp he
      obtain ⟨a, ha, rfl⟩ := List.mem_map.mp hx
      cases a with
      | num e' =>
          exact ⟨e', List.mem_filterMap.mpr ⟨_, ha, rfl⟩, (Option.some.inj hxe).symm⟩
      | word w => cases hxe
    · obtain ⟨i, -, rfl⟩ := Option.map_eq_some_iff.mp h
      obtain ⟨a, ha, hae⟩ := List.mem_filterMap.mp he
      cases a with
      | num e' =>
          exact ⟨e', List.mem_filterMap.mpr ⟨_, ha, rfl⟩, (Option.some.inj hae).symm⟩
      | word w => cases hae

mutual
lemma comesFrom_code (s : Statement) {base : Nat} {x : Instr × Nat}
    (h : x ∈ s.code procs base) : ComesFrom [s] x.1 := by
  have hbody (t : Statement) (hx : ComesFrom t.body x.1) : ComesFrom [t] x.1 :=
    hx.mono fun depth w hw => ⟨depth + 1, .inside (List.mem_singleton_self t) hw⟩
  cases s with
  | define => simp [Statement.code] at h
  | call name args =>
      simp only [Statement.code, Option.mem_toList, Option.map_eq_some_iff] at h
      obtain ⟨instr, hinstr, rfl⟩ := h
      exact .of_exprs (List.mem_singleton_self _) (exprs_callCode procs hinstr)
  | branch line cond body =>
      obtain rfl | h := List.mem_cons.mp h
      · refine .of_exprs (List.mem_singleton_self _) ?_
        simp [Instr.exprs, Condition.lower, Statement.exprs]
      · exact hbody (.branch line cond body) (comesFrom_codeOf body h)
  | loop line count body =>
      simp only [Statement.code, List.mem_append, List.mem_cons, List.not_mem_nil, or_false] at h
      obtain (rfl | h) | rfl := h
      · refine .of_exprs (List.mem_singleton_self _) ?_
        simp [Instr.exprs, Statement.exprs]
      · exact hbody (.loop line count body) (comesFrom_codeOf body h)
      · intro e he
        cases he
  | make name value =>
      obtain rfl := List.mem_singleton.mp h
      refine .of_exprs (List.mem_singleton_self _) ?_
      simp [Instr.exprs, Statement.exprs]

/-- The code of statements has their expressions. -/
lemma comesFrom_codeOf (statements : List Statement) {base : Nat} {x : Instr × Nat}
    (h : x ∈ codeOf procs base statements) : ComesFrom statements x.1 := by
  cases statements with
  | nil => simp [codeOf] at h
  | cons first rest =>
      obtain h | h := List.mem_append.mp h
      · exact (comesFrom_code first h).mono fun depth s hs => ⟨depth, hs.mono (by simp)⟩
      · exact (comesFrom_codeOf rest h).mono fun depth s hs =>
          ⟨depth, hs.mono fun t ht => List.mem_cons_of_mem first ht⟩
end

lemma comesFrom_procedures {base : Nat} {ds : List Definition} {x : Instr × Nat}
    (h : x ∈ (procedures procs base ds).1) : ∃ d ∈ ds, ComesFrom d.body x.1 := by
  induction ds generalizing base with
  | nil => simp [procedures] at h
  | cons d rest ih =>
      obtain h | h := List.mem_append.mp h
      · refine ⟨d, List.mem_cons_self, ?_⟩
        obtain h | h := List.mem_append.mp h
        · exact comesFrom_codeOf procs d.body h
        · obtain rfl := List.mem_singleton.mp h
          intro e he
          cases he
      · obtain ⟨d', hd', h⟩ := ih h
        exact ⟨d', List.mem_cons_of_mem d hd', h⟩

mutual
lemma standsIn_definitions (s : Statement) {d : Definition} (h : d ∈ s.definitions) {depth : Nat}
    {w : Statement} (hw : StandsIn depth w d.body) : ∃ depth', StandsIn depth' w [s] := by
  cases s with
  | define name params body endLine =>
      obtain rfl | h := List.mem_cons.mp h
      · exact ⟨depth + 1, .inside (List.mem_singleton_self _) hw⟩
      · obtain ⟨depth', hw'⟩ := standsIn_definitionsIn body h hw
        exact ⟨depth' + 1, .inside (List.mem_singleton_self _) hw'⟩
  | branch line cond body =>
      obtain ⟨depth', hw'⟩ := standsIn_definitionsIn body h hw
      exact ⟨depth' + 1, .inside (List.mem_singleton_self _) hw'⟩
  | loop line count body =>
      obtain ⟨depth', hw'⟩ := standsIn_definitionsIn body h hw
      exact ⟨depth' + 1, .inside (List.mem_singleton_self _) hw'⟩
  | call => simp [Statement.definitions] at h
  | make => simp [Statement.definitions] at h

/-- What stands in the body of a definition stands in the program. -/
lemma standsIn_definitionsIn (statements : List Statement) {d : Definition}
    (h : d ∈ definitionsIn statements) {depth : Nat} {w : Statement}
    (hw : StandsIn depth w d.body) : ∃ depth', StandsIn depth' w statements := by
  cases statements with
  | nil => simp [definitionsIn] at h
  | cons first rest =>
      obtain h | h := List.mem_append.mp h
      · obtain ⟨depth', hw'⟩ := standsIn_definitions first h hw
        exact ⟨depth', hw'.mono (by simp)⟩
      · obtain ⟨depth', hw'⟩ := standsIn_definitionsIn rest h hw
        exact ⟨depth', hw'.mono fun t ht => List.mem_cons_of_mem first ht⟩
end

end Code

/-- All expressions of a compiled program come from its statements. -/
lemma comesFrom_of_compile {source : String} {p : Program} (hp : compile source = .ok p) :
    ∃ program, parse source = .ok program ∧ ∀ instr ∈ p.code, ComesFrom program instr := by
  obtain ⟨program, hparse, rfl, haccepted, -, -⟩ := compile_eq_ok hp
  refine ⟨program, hparse, ?_⟩
  intro instr hinstr
  rw [assemble_eq, Program.ofListing, List.mem_toArray, List.mem_map] at hinstr
  obtain ⟨x, hx, rfl⟩ := hinstr
  obtain hx | hx := List.mem_append.mp hx
  · obtain hx | hx := List.mem_append.mp hx
    · exact comesFrom_codeOf _ program hx
    · obtain rfl := List.mem_singleton.mp hx
      intro e he
      cases he
  · obtain ⟨d, hd, hx⟩ := comesFrom_procedures _ hx
    rw [haccepted] at hd
    exact hx.mono fun depth w hw => standsIn_definitionsIn program hd hw

/-- Every walk down a program is bounded. The statements of a program that can be read have at
most 32 bodies around them, and the more there are, the lower are the expressions in a statement;
compilation makes no expression higher; and so no expression of a compiled program is higher than
4158. -/
theorem heights_bounded (source : String) :
    (∀ program, parse source = .ok program → ∀ depth s, StandsIn depth s program →
      depth ≤ 32 ∧ ∀ e ∈ s.exprs, e.height ≤ 126 * (33 - depth)) ∧
    (∀ e : NumExpr, e.lower.height ≤ e.height) ∧
    (∀ p, compile source = .ok p → ∀ instr ∈ p.code, ∀ e ∈ instr.exprs, e.height ≤ 4158) := by
  refine ⟨fun program h depth s hs => bounds_of_parse h hs, height_lower, ?_⟩
  intro p hp instr hinstr e he
  obtain ⟨program, hparse, hcode⟩ := comesFrom_of_compile hp
  obtain ⟨depth, s, e', hs, he', rfl⟩ := hcode instr hinstr e he
  have hheight := (bounds_of_parse hparse hs).2 e' he'
  have htop : 126 * (maxNesting + 1 - depth) ≤ 126 * 33 := Nat.mul_le_mul_left 126 (Nat.sub_le _ _)
  exact (height_lower e').trans (hheight.trans htop)

/-- The input of the call is a sum under a minus sign, and so it is two high. -/
theorem heights_bounded_of_loop :
    ∃ program p, parse "repeat 2 [fd -(1 + 2)]" = .ok program ∧
      compile "repeat 2 [fd -(1 + 2)]" = .ok p ∧
      (p.code.toList.flatMap Instr.exprs).map Expr.height = [0, 2] ∧
      (∀ depth s, StandsIn depth s program →
        depth ≤ 32 ∧ ∀ e ∈ s.exprs, e.height ≤ 126 * (33 - depth)) ∧
      ∀ instr ∈ p.code, ∀ e ∈ instr.exprs, e.height ≤ 4158 := by
  have hheights : (compile "repeat 2 [fd -(1 + 2)]").toOption.map
      (fun p => (p.code.toList.flatMap Instr.exprs).map Expr.height) = some [0, 2] := by
    decide +kernel
  cases hp : compile "repeat 2 [fd -(1 + 2)]" with
  | error problems =>
      rw [hp] at hheights
      cases hheights
  | ok p =>
      obtain ⟨program, hparse, -⟩ := compile_eq_ok hp
      obtain ⟨hprogram, -, hcode⟩ := heights_bounded "repeat 2 [fd -(1 + 2)]"
      rw [hp] at hheights
      exact ⟨program, p, hparse, rfl, Option.some.inj hheights, hprogram program hparse,
        hcode p hp⟩

end LogoStudio.Logo
