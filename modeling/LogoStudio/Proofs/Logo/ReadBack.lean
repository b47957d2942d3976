import LogoStudio.Proofs.Logo.Expressions

/-!
# Reading programs back

Every layout of a program within the limits of the grammar is read as that program, and
every layout of any other program is refused as too deep. Calls have no marks around their
inputs, so the statements here say what may follow: inputs end where a statement starts or
a body ends, and bodies end at their closing words.
-/
namespace LogoStudio.Logo

open LogoStudio.Logo.Parser LogoStudio.Logo.Cursor

section

variable {next : List Token}

/-- The ways in which an expression can start. -/
lemma NumExpr.tokens_eq_cons (e : NumExpr) (level : Level) :
    ∃ token rest, e.tokens level = token :: rest ∧
      token.lead ∈ [.digit, .colon, .letter, .sign '-', .sign '('] := by
  induction e generalizing level with
  | lit x => exact ⟨_, _, rfl, by simp [Token.lead]⟩
  | var v => exact ⟨_, _, rfl, by simp [Token.lead]⟩
  | neg e => exact ⟨_, _, rfl, by simp [Token.lead]⟩
  | query q => exact ⟨_, _, rfl, by simp [Token.lead]⟩
  | op l o r ihl _ =>
      cases hencloses : level.encloses o with
      | true =>
          exact ⟨.sign '(', _, by simp [tokens, enclosed, hencloses]; rfl, by simp [Token.lead]⟩
      | false =>
          obtain ⟨token, rest, hl, hlead⟩ := ihl o.level
          exact ⟨token, _, by simp [tokens, enclosed, hencloses, hl]; rfl, hlead⟩

/-- A sum ends at a token that is no sign of an operator. -/
lemma ends_of_lead {token : Token} (h : ∀ o : Operator, token.lead ≠ .sign o.sign)
    (next : List Token) : Ends .sum (token :: next) := by
  intro o _ heq
  exact h o (by simpa using heq)

/-- A token that can only stand behind the inputs of a call. -/
def Token.Bounds : Token → Prop
  | name _ => True
  | keyword word _ => word ∈ ["if", "repeat", "make", "to", "end"]
  | sign c => c = ']'
  | _ => False

/-- A token that can only stand behind the statements of a body. -/
def Token.Closes : Token → Prop
  | keyword word _ => word = "end"
  | sign c => c = ']'
  | _ => False

/-- The inputs of a call end here. -/
def Bounded (next : List Token) : Prop := ∀ token ∈ next.head?, token.Bounds

/-- The statements of a body end here. -/
def Closed (next : List Token) : Prop := ∀ token ∈ next.head?, token.Closes

lemma Closed.bounded (h : Closed next) : Bounded next := by
  intro token htoken
  have hcloses := h token htoken
  cases token with
  | keyword word line =>
      obtain rfl : word = "end" := hcloses
      simp [Token.Bounds]
  | sign c => exact hcloses
  | _ => exact hcloses.elim

lemma Bounded.lead? (h : Bounded next) :
    lead? next ∈ [none, some .letter, some (.sign ']')] := by
  cases next with
  | nil => simp
  | cons token next =>
      have hbounds := h token rfl
      cases token with
      | sign c =>
          obtain rfl : c = ']' := hbounds
          simp [Token.lead]
      | name | keyword => simp [Token.lead]
      | _ => exact hbounds.elim

lemma Bounded.lead?_ne (h : Bounded next) {lead : Lead}
    (hlead : lead ∉ [.letter, .sign ']']) : Logo.lead? next ≠ some lead := by
  intro heq
  have hmem := h.lead?
  rw [heq] at hmem
  simp_all

lemma Bounded.ends (h : Bounded next) : Ends .sum next := by
  intro o _
  exact h.lead?_ne (by cases o <;> decide)

lemma misses_query (h : Bounded next) : Misses (At next) query := by
  refine Misses.choice ?_
  intro p hp
  obtain ⟨q, -, rfl⟩ := List.mem_map.mp hp
  refine (misses_keyword (by cases q <;> decide) ?_).bind _
  intro line heq
  have hbounds := h _ heq
  revert hbounds
  cases q <;> simp [Token.Bounds, Query.name]

lemma misses_operand (h : Bounded next) (room : Nat) : Misses (Near next) (operand (room + 1)) := by
  rw [operand_succ]
  refine misses_padded (Misses.choice ?_)
  simp only [List.mem_cons, List.not_mem_nil, or_false]
  rintro p (rfl | rfl | rfl | rfl | rfl)
  · exact (misses_sign (by decide) (h.lead?_ne (by decide))).bind _
  · exact (misses_number (h.lead?_ne (by decide))).bind _
  · exact (misses_variableName (h.lead?_ne (by decide))).bind _
  · exact (misses_sign (by decide) (h.lead?_ne (by decide))).bind _
  · exact (misses_query h).bind _

lemma misses_word (h : lead? next ≠ some .quote) : Misses (Near next) (padded word) :=
  misses_padded ((misses_char h).bind _)

/-- No input stands where the inputs of a call end. -/
lemma misses_arg (h : Bounded next) {depth : Nat} (hdepth : depth ≤ maxNesting) :
    Misses (At next) (arg (sum (operand (roomAt depth)))) := by
  rw [roomAt_eq hdepth]
  have hsum : Misses (Near next) (sum (operand (roomAt (depth + 1) + 1))) :=
    ((misses_operand h _).bind _).bind _
  exact (((misses_word (h.lead?_ne (by decide))).bind _).orElse (hsum.bind _)).at_of_near

/-- What is read as one operand of a level is read on that level. -/
lemma reduces_single {P : Cursor → Prop} {allowed : Prop} {level : Level} {room : Nat} {e : NumExpr}
    (hlevel : level ≠ .operand) (hnext : Ends level next)
    (h : Reduces P (At next) allowed (reader level.next room) (pure e)) :
    Reduces P (At next) allowed (reader level room) (pure e) := by
  rw [reader_eq_chain hlevel]
  have hstop : Reduces (At next) (At next) True
      (chainTail (signOf level) (reader level.next room) (maxOperands - 1) e) (pure e) :=
    reduces_chainTail_nil (misses_signOf hlevel hnext).at_of_near _ e
  exact (h.seq hstop).of_iff (by simp)

lemma reduces_num {tokens : List Token} {depth : Nat} {allowed : Prop} {e : NumExpr}
    (hlead : lead? tokens ≠ some .quote)
    (h : Reduces (Near tokens) (At next) allowed (sum (operand (roomAt depth))) (pure e)) :
    Reduces (Near tokens) (At next) allowed (arg (sum (operand (roomAt depth)))) (pure (.num e)) :=
  .orElse_of_misses ((misses_word hlead).bind _) (h.map Arg.num)

lemma reduces_arg (a : Arg) (depth : Nat) (hnext : Ends .sum next) :
    Reduces (Near (a.tokens ++ next)) (At next) (a.Allowed depth)
      (arg (sum (operand (roomAt depth)))) (pure a) := by
  cases a with
  | num e =>
      obtain ⟨token, rest, htokens, hlead⟩ := e.tokens_eq_cons .sum
      refine reduces_num ?_ (e.readAt_sum depth next hnext)
      rw [Arg.tokens, htokens, List.cons_append, lead?_cons]
      intro heq
      rw [Option.some.inj heq] at hlead
      simp at hlead
  | word w => exact ((reduces_padded (reduces_word w)).map Arg.word).orElse _

lemma startsNegative_eq (token : Token) (tokens : List Token) :
    startsNegative (token :: tokens) = true ↔ token.lead = .sign '-' := by
  unfold startsNegative
  split
  · next heq =>
      obtain ⟨rfl, -⟩ := List.cons.inj heq
      simp [Token.lead]
  · next hne =>
      cases token with
      | sign c =>
          refine ⟨fun h => absurd h (by simp), ?_⟩
          intro hlead
          obtain rfl : c = '-' := by simpa [Token.lead] using hlead
          exact absurd rfl (hne tokens)
      | _ => simp [Token.lead]

/-- An input after others is read, in parentheses if it starts with a minus sign. -/
lemma reduces_later_arg (a : Arg) (depth : Nat) (hnext : Ends .sum next) :
    Reduces (Near (enclosed a.isNegative a.tokens ++ next)) (At next)
      (a.Allowed (depth + a.isNegative.toNat)) (arg (sum (operand (roomAt depth)))) (pure a) := by
  cases hnegative : a.isNegative with
  | false => exact reduces_arg a depth hnext
  | true =>
      cases a with
      | word w => cases hnegative
      | num e =>
          have hproduct : Reduces (Near (enclosed true (e.tokens .sum) ++ next)) (At next)
              (e.Allowed .sum (depth + 1)) (reader .product (roomAt depth)) (pure e) :=
            reduces_single (by decide) hnext.next ((e.readAt_sum (depth + 1)).parens next)
          exact reduces_num (by simp [enclosed, Token.lead])
            (@reduces_single _ _ _ .sum _ _ (by decide) hnext hproduct)

lemma ends_later (args : List Arg) (hnext : Ends .sum next) :
    Ends .sum (laterTokens args ++ next) := by
  cases args with
  | nil => exact hnext
  | cons a rest =>
      rw [laterTokens, List.append_assoc]
      cases hnegative : a.isNegative with
      | true => exact ends_of_lead (by intro o; cases o <;> simp [Token.lead, Operator.sign]) _
      | false =>
          cases a with
          | word w => exact ends_of_lead (by intro o; simp [Token.lead]) _
          | num e =>
              obtain ⟨token, tail, htokens, hlead⟩ := e.tokens_eq_cons .sum
              have hminus : token.lead ≠ .sign '-' := by
                rw [Ne, ← startsNegative_eq token tail, ← htokens]
                simpa [Arg.isNegative, Arg.tokens] using hnegative
              simp only [enclosed, Arg.tokens, htokens, Bool.false_eq_true, if_false,
                List.cons_append]
              apply ends_of_lead
              intro o heq
              rw [heq] at hlead hminus
              cases o <;> simp_all [Operator.sign]

lemma repeats_later {depth : Nat} (hdepth : depth ≤ maxNesting) (hnext : Bounded next)
    (args : List Arg) :
    Repeats (At (laterTokens args ++ next)) (At next) (LaterAllowed depth args)
      (arg (sum (operand (roomAt depth)))) args := by
  induction args with
  | nil => exact .nil (misses_arg hnext hdepth)
  | cons a rest ih =>
      rw [laterTokens, List.append_assoc]
      exact .cons (reduces_later_arg a depth (ends_later rest hnext.ends)).at_of_near ih

lemma Arg.tokens_ne_nil (a : Arg) : a.tokens ≠ [] := by
  cases a with
  | word w => simp [tokens]
  | num e =>
      obtain ⟨token, rest, htokens, -⟩ := e.tokens_eq_cons .sum
      simp [tokens, htokens]

lemma length_le_laterTokens (args : List Arg) : args.length ≤ (laterTokens args).length := by
  induction args with
  | nil => exact Nat.zero_le _
  | cons a rest ih =>
      have ha : 0 < (enclosed a.isNegative a.tokens).length := by
        have hpos := List.length_pos_iff.mpr a.tokens_ne_nil
        unfold enclosed
        split
        · simp
        · exact hpos
      simp only [laterTokens, List.length_append, List.length_cons]
      omega

/-- All the inputs of a call are read. -/
lemma reduces_inputs {depth : Nat} (hdepth : depth ≤ maxNesting) (hnext : Bounded next)
    (args : List Arg) :
    Reduces (At (inputTokens args ++ next)) (At next) (InputsAllowed depth args)
      (many (arg (sum (operand (roomAt depth))))) (pure args) := by
  have hlength : args.length ≤ (inputTokens args ++ next).length := by
    cases args with
    | nil => exact Nat.zero_le _
    | cons a rest =>
        have ha := List.length_pos_iff.mpr a.tokens_ne_nil
        have hrest := length_le_laterTokens rest
        simp only [inputTokens, List.length_append, List.length_cons]
        omega
  refine Repeats.many ?_ hlength
  cases args with
  | nil => exact .nil (misses_arg hnext hdepth)
  | cons a rest =>
      rw [inputTokens, List.append_assoc]
      exact .cons (reduces_arg a depth (ends_later rest hnext.ends)).at_of_near
        (repeats_later hdepth hnext rest)

lemma Comparison.ends (k : Comparison) : Ends .sum (.sign k.sign :: next) :=
  ends_of_lead (by intro o; cases k <;> cases o <;> simp [Token.lead, sign, Operator.sign]) next

lemma ends_bracket : Ends .sum (.sign '[' :: next) :=
  ends_of_lead (by intro o; cases o <;> simp [Token.lead, Operator.sign]) next

lemma reduces_comparison (k : Comparison) :
    Reduces (Near (.sign k.sign :: next)) (At next) True comparison (pure k) := by
  have hskip (k' : Comparison) (h : k'.sign ≠ k.sign) :
      Misses (At (.sign k.sign :: next)) (do char k'.sign; return k') := by
    refine (misses_sign (by cases k' <;> decide) ?_).bind _
    simpa [Token.lead] using h.symm
  have htake : Reduces (At (.sign k.sign :: next)) (Near next) True
      (do char k.sign; return k) (pure k) := (reduces_char k.sign).step (.refl _)
  apply reduces_padded
  cases k with
  | equal => exact .take htake
  | less => exact .skip (hskip .equal (by decide)) (.take htake)
  | greater =>
      exact .skip (hskip .equal (by decide)) (.skip (hskip .less (by decide)) (.take htake))

lemma reduces_condition (cond : Condition) (depth : Nat) (hnext : Ends .sum next) :
    Reduces (Near (cond.lhs.tokens .sum ++ .sign cond.comparison.sign ::
        (cond.rhs.tokens .sum ++ next))) (At next)
      (cond.lhs.Allowed .sum depth ∧ cond.rhs.Allowed .sum depth)
      (condition (sum (operand (roomAt depth)))) (pure cond) := by
  refine (cond.lhs.readAt_sum depth _ cond.comparison.ends).seq ?_
  refine (reduces_comparison cond.comparison).at_of_near.step ?_
  have hrhs := cond.rhs.readAt_sum depth next hnext
  exact (hrhs.map (Condition.mk cond.lhs cond.comparison)).at_of_near

/-- The parser for the statements in a body, with `levels` levels of bodies left. -/
def bodyReader : Nat → Option (Parser (List Statement))
  | 0 => none
  | levels + 1 => some (many (statement levels))

lemma statement_eq {depth levels : Nat} (h : depth + levels = maxNesting) :
    statement levels = statementWith (sum (operand (roomAt depth))) (bodyReader levels) := by
  have hroom : roomAt depth = levels + 1 := by
    unfold roomAt
    omega
  rw [hroom]
  cases levels <;> rfl

/-- The statements of a body are read, `depth` bodies down. -/
def BodyRead (depth : Nat) (body : List Statement) : Prop :=
  ∀ levels next, depth + levels = maxNesting → Closed next →
    Reduces (At (tokensIn body ++ next)) (At next) (AllowedIn depth body)
      (many (statement levels)) (pure body)

lemma reduces_block {depth levels : Nat} (h : depth + levels = maxNesting)
    {body : List Statement} (hbody : BodyRead (depth + 1) body) :
    Reduces (Near (.sign '[' :: (tokensIn body ++ .sign ']' :: next))) (At next)
      (depth < maxNesting ∧ AllowedIn (depth + 1) body) (block (bodyReader levels))
      (pure body) := by
  have hopen : Reduces (Near (.sign '[' :: (tokensIn body ++ .sign ']' :: next)))
      (At (tokensIn body ++ .sign ']' :: next)) True (padded (char '[')) (pure ()) :=
    reduces_padded (reduces_char '[')
  refine hopen.step ?_
  cases levels with
  | zero => exact reduces_tooDeep.of_iff ⟨False.elim, fun h' => by omega⟩
  | succ levels =>
      have hread := hbody levels (.sign ']' :: next) (by omega)
        (by simp [Closed, Token.Closes])
      have hclose : Reduces (At (.sign ']' :: next)) (At next) True
          (padded (char ']') >>= fun _ => pure body) (pure body) :=
        (reduces_padded (reduces_char ']')).at_of_near.step (.refl _)
      refine (hread.seq hclose).of_iff ?_
      rw [and_true, and_iff_right (show depth < maxNesting by omega)]

lemma reduces_params (params : List Ident) (hnext : Bounded next) :
    Reduces (At (params.map .reference ++ next)) (At next) True (many (padded variableName))
      (pure params) := by
  refine Repeats.many ?_ (by simp)
  induction params with
  | nil =>
      have hmiss := misses_padded (misses_variableName (hnext.lead?_ne (by decide)))
      exact .nil hmiss.at_of_near
  | cons v params ih =>
      have hfirst := reduces_padded (@reduces_variableName (params.map .reference ++ next) v)
      exact (Repeats.cons hfirst.at_of_near ih).of_iff (by simp)

lemma reduces_definition {depth levels : Nat} (h : depth + levels = maxNesting) (name : Ident)
    (params : List Ident) {body : List Statement} (hbody : BodyRead (depth + 1) body)
    (endLine : Nat)
    (hbounded : Bounded (tokensIn body ++ .keyword "end" (some endLine) :: next)) :
    Reduces (At (.keyword "to" none :: .name name :: (params.map .reference ++
        (tokensIn body ++ .keyword "end" (some endLine) :: next)))) (Near next)
      (depth < maxNesting ∧ AllowedIn (depth + 1) body) (definition (bodyReader levels))
      (pure (.define name params body endLine)) := by
  refine (reduces_keyword "to" none).step ?_
  cases levels with
  | zero => exact reduces_tooDeep.of_iff ⟨False.elim, fun h' => by omega⟩
  | succ levels =>
      have hread := hbody levels (.keyword "end" (some endLine) :: next) (by omega)
        (by simp [Closed, Token.Closes])
      have hend : Reduces (At (.keyword "end" (some endLine) :: next)) (Near next) True
          (do
            let endLine ← line
            keyword "end"
            return Statement.define name params body endLine)
          (pure (.define name params body endLine)) :=
        (reduces_line rfl).step ((reduces_keyword "end" _).step (.refl _))
      have hlevel : depth < maxNesting := by omega
      refine (reduces_padded (reduces_ident name)).step ?_
      refine (reduces_params params hbounded).step ?_
      exact (hread.seq hend).of_iff (by simp [hlevel])

lemma misses_line {α : Type} {P : Cursor → Prop} {f : Nat → Parser α}
    (h : ∀ l, Misses P (f l)) : Misses P (line >>= f) :=
  fun s hs => h s.line s hs

/-- No statement stands where a body ends. -/
lemma misses_statement (h : Closed next) (expr : Parser NumExpr)
    (inner : Option (Parser (List Statement))) : Misses (At next) (statementWith expr inner) := by
  have hkeyword {word : String} (hword : word ∈ reserved) (hne : word ≠ "end") :
      Misses (At next) (keyword word) := by
    refine misses_keyword hword ?_
    intro line heq
    exact hne (h _ heq)
  have hident : Misses (At next) ident := by
    refine misses_ident ?_
    intro v heq
    exact h _ heq
  refine (misses_padded (Misses.choice ?_)).at_of_near
  simp only [List.mem_cons, List.not_mem_nil, or_false]
  rintro p (rfl | rfl | rfl | rfl | rfl)
  · exact misses_line fun _ => (hkeyword (by decide) (by decide)).bind _
  · exact misses_line fun _ => (hkeyword (by decide) (by decide)).bind _
  · exact (hkeyword (by decide) (by decide)).bind _
  · exact (hkeyword (by decide) (by decide)).bind _
  · exact (misses_padded hident).at_of_near.bind _

end

/-- Statements start with names and with the words for them. -/
lemma Statement.tokens_eq_cons (s : Statement) :
    ∃ token rest, s.tokens = token :: rest ∧ token.Bounds := by
  cases s <;> exact ⟨_, _, rfl, by simp [Token.Bounds]⟩

lemma bounded_tokensIn {next : List Token} (body : List Statement) (h : Closed next) :
    Bounded (tokensIn body ++ next) := by
  cases body with
  | nil => exact h.bounded
  | cons s rest =>
      obtain ⟨token, tail, htokens, hbounds⟩ := s.tokens_eq_cons
      simp only [tokensIn, htokens, List.cons_append]
      intro token' htoken'
      obtain rfl : token = token' := by simpa using htoken'
      exact hbounds

lemma length_le_tokensIn (body : List Statement) (next : List Token) :
    body.length ≤ (tokensIn body ++ next).length := by
  induction body with
  | nil => exact Nat.zero_le _
  | cons s rest ih =>
      obtain ⟨token, tail, htokens, -⟩ := s.tokens_eq_cons
      simp only [tokensIn, htokens, List.length_append, List.length_cons] at ih ⊢
      omega

mutual

lemma reduces_statement (s : Statement) {depth levels : Nat} (h : depth + levels = maxNesting)
    {next : List Token} (hnext : Bounded next) :
    Reduces (Near (s.tokens ++ next)) (At next) (s.Allowed depth) (statement levels) (pure s) := by
  have hdepth : depth ≤ maxNesting := Nat.le_of_add_right_le h.le
  rw [statement_eq h]
  apply reduces_padded
  cases s with
  | define name params body endLine =>
      have hbody : BodyRead (depth + 1) body := fun levels next h hnext =>
        (repeats_statement body h hnext).many (length_le_tokensIn body next)
      have hbounded : Bounded (tokensIn body ++ .keyword "end" (some endLine) :: next) :=
        bounded_tokensIn body (by simp [Closed, Token.Closes])
      simp only [Statement.tokens, List.append_assoc, List.cons_append, List.nil_append]
      refine .skip (misses_line fun _ => (misses_keyword (by decide) (by simp)).bind _) ?_
      refine .skip (misses_line fun _ => (misses_keyword (by decide) (by simp)).bind _) ?_
      refine .skip ((misses_keyword (by decide) (by simp)).bind _) ?_
      exact .take (reduces_definition h name params hbody endLine hbounded)
  | call name args =>
      simp only [Statement.tokens, List.cons_append]
      refine .skip (misses_line fun _ => (misses_keyword (by decide) (by simp)).bind _) ?_
      refine .skip (misses_line fun _ => (misses_keyword (by decide) (by simp)).bind _) ?_
      refine .skip ((misses_keyword (by decide) (by simp)).bind _) ?_
      refine .skip ((misses_keyword (by decide) (by simp)).bind _) ?_
      refine .take ((reduces_padded (reduces_ident name)).at_of_near.step ?_)
      exact ((reduces_inputs hdepth hnext args).map (Statement.call name)).to_near
  | branch line cond body =>
      have hbody : BodyRead (depth + 1) body := fun levels next h hnext =>
        (repeats_statement body h hnext).many (length_le_tokensIn body next)
      simp only [Statement.tokens, List.append_assoc, List.cons_append, List.nil_append]
      refine .take ((reduces_line rfl).step ((reduces_keyword "if" _).step ?_))
      refine Reduces.to_near (((reduces_condition cond depth ends_bracket).seq ?_).of_iff and_assoc)
      exact ((reduces_block h hbody).map (Statement.branch line cond)).at_of_near
  | loop line count body =>
      have hbody : BodyRead (depth + 1) body := fun levels next h hnext =>
        (repeats_statement body h hnext).many (length_le_tokensIn body next)
      simp only [Statement.tokens, List.append_assoc, List.cons_append, List.nil_append]
      refine .skip (misses_line fun _ => (misses_keyword (by decide) (by simp)).bind _) ?_
      refine .take ((reduces_line rfl).step ((reduces_keyword "repeat" _).step ?_))
      exact ((count.readAt_sum depth _ ends_bracket).seq
        ((reduces_block h hbody).map (Statement.loop line count)).at_of_near).to_near
  | make name value =>
      simp only [Statement.tokens, List.cons_append]
      refine .skip (misses_line fun _ => (misses_keyword (by decide) (by simp)).bind _) ?_
      refine .skip (misses_line fun _ => (misses_keyword (by decide) (by simp)).bind _) ?_
      refine .take ((reduces_keyword "make" none).step ?_)
      refine (reduces_padded (reduces_target name)).step ?_
      exact ((value.readAt_sum depth next hnext.ends).map (Statement.make name)).at_of_near.to_near

/-- Statements are read one after the other, up to the end of their body. -/
lemma repeats_statement (body : List Statement) {depth levels : Nat}
    (h : depth + levels = maxNesting) {next : List Token} (hnext : Closed next) :
    Repeats (At (tokensIn body ++ next)) (At next) (AllowedIn depth body) (statement levels)
      body := by
  cases body with
  | nil =>
      rw [statement_eq h]
      exact .nil (misses_statement hnext _ _)
  | cons s rest =>
      rw [tokensIn, List.append_assoc]
      exact .cons (reduces_statement s h (bounded_tokensIn rest hnext)).at_of_near
        (repeats_statement rest h hnext)

end

/-- A source that a program is written as is read back as that program, if the program
lies within the limits, and is refused as too deep if it does not. -/
theorem parse_of_written {program : List Statement} {source : String}
    (h : Written program source) :
    (AllowedIn 0 program → parse source = .ok program) ∧
      (¬AllowedIn 0 program → ∃ line, parse source = .error (.tooDeep line)) := by
  have hstart : Cursor.Near (tokensIn program ++ []) ⟨source.toList, 1⟩ := by
    rw [List.append_nil]
    exact h
  have hmany : Reduces (At (tokensIn program ++ [])) (At []) (AllowedIn 0 program)
      (many (statement maxNesting)) (pure program) :=
    (repeats_statement program (Nat.zero_add maxNesting) (by simp [Closed])).many
      (length_le_tokensIn program [])
  obtain ⟨hread, hrefuse⟩ := reduces_padded hmany.to_near _ hstart
  unfold parse statements
  constructor
  · intro hallowed
    obtain ⟨⟨text, line⟩, hend, hdone⟩ := hread hallowed
    obtain rfl : text = [] := hend.nil
    have hdone : padded (many (statement maxNesting)) ⟨source.toList, 1⟩ =
      .done program ⟨[], line⟩ := hdone
    rw [hdone]
  · intro hallowed
    obtain ⟨line, hline⟩ := hrefuse hallowed
    exact ⟨line, by rw [hline]⟩

/-- A token with one blank behind it. -/
lemma Spelled.blank {line : Nat} {token : Token} {tokens : List Token} {rest : List Char}
    (text : List Char) (hspells : token.Spells text) (hrest : Spelled line tokens rest)
    (hline : ∀ l ∈ token.line?, l = line) :
    Spelled line (token :: tokens) (text ++ ' ' :: rest) :=
  .cons hline hspells (@Continued.gap _ _ [' '] _ ⟨.space rfl .nil, ' ', rfl, rfl⟩ hrest)

lemma spells_digit {c : Char} (hc : c.isDigit) : (Token.number (literal [c] [])).Spells [c] := by
  have hdigits : ∀ d ∈ [c], d.isDigit := by simpa using hc
  refine ⟨.whole (by simp) (by simpa using hc), ?_⟩
  rw [read?_digits (leadOf_digit hc), readDecimal?_whole (by simp) hdigits]

/-- A definition over two lines, with a comment and an input in parentheses. -/
theorem parse_of_written_definition :
    ∃ program, program = [.define ⟨"f", 1⟩ [⟨"n", 1⟩] [.loop 1 (.var ⟨"n", 1⟩) [.call ⟨"g", 1⟩
        [.num (.lit (literal ['1'] [])), .num (.neg (.lit (literal ['2'] [])))]]] 2] ∧
      Written program "to f :n repeat :n [ g 1 ( - 2 ) ] ; a loop\nend" ∧ AllowedIn 0 program ∧
      parse "to f :n repeat :n [ g 1 ( - 2 ) ] ; a loop\nend" = .ok program := by
  refine ⟨_, rfl, ?_⟩
  suffices hboth : Written _ _ ∧ AllowedIn 0 _ from
    ⟨hboth.1, hboth.2, (parse_of_written hboth.1).1 hboth.2⟩
  constructor
  · have hf : isName "f" := by decide
    have hn : isName "n" := by decide
    have hg : isName "g" := by decide
    have hgap : Separates " ; a loop\n".toList :=
      ⟨.space rfl (@Blank.comment " a loop".toList [] (by decide) .nil), ' ', rfl, rfl⟩
    have hend : Spelled 2 [.keyword "end" (some 2)] "end".toList :=
      @Spelled.cons _ _ _ "end".toList [] (by simp [Token.line?]) ⟨by decide, rfl⟩ .nil
    refine ⟨[], "to f :n repeat :n [ g 1 ( - 2 ) ] ; a loop\nend".toList, rfl, .nil, ?_⟩
    refine .blank "to".toList ⟨by decide, rfl⟩ ?_ (by simp [Token.line?])
    refine .blank "f".toList ⟨hf, rfl⟩ ?_ (by simp [Token.line?])
    refine .blank ":n".toList ⟨hn, by decide⟩ ?_ (by simp [Token.line?])
    refine .blank "repeat".toList ⟨by decide, rfl⟩ ?_ (by simp [Token.line?])
    refine .blank ":n".toList ⟨hn, by decide⟩ ?_ (by simp [Token.line?])
    refine .blank ['['] ⟨by decide, rfl⟩ ?_ (by simp [Token.line?])
    refine .blank "g".toList ⟨hg, rfl⟩ ?_ (by simp [Token.line?])
    refine .blank ['1'] (spells_digit rfl) ?_ (by simp [Token.line?])
    refine .blank ['('] ⟨by decide, rfl⟩ ?_ (by simp [Token.line?])
    refine .blank ['-'] ⟨by decide, rfl⟩ ?_ (by simp [Token.line?])
    refine .blank ['2'] (spells_digit rfl) ?_ (by simp [Token.line?])
    refine .blank [')'] ⟨by decide, rfl⟩ ?_ (by simp [Token.line?])
    exact @Spelled.cons _ _ _ [']'] _ (by simp [Token.line?]) ⟨by decide, rfl⟩ (.gap hgap hend)
  · simp [AllowedIn, Statement.Allowed, NumExpr.Allowed, InputsAllowed, LaterAllowed, Arg.Allowed,
      maxNesting]
    decide

end LogoStudio.Logo
