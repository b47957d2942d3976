import LogoStudio.Proofs.Logo.Seams

/-!
# The grammar at a seam

Every parser of the grammar transfers at a seam, as long as what comes next cannot become part
of what it reads. An expression must not be followed by an operator, nor a call by an input. An
input that starts with a minus sign is the exception: it may follow a word, but after an
expression it would have been subtracted, so it does not occur there.
-/
namespace LogoStudio.Logo

open LogoStudio.Logo.Parser

variable {old new text text' : List Char} {s s' t : Cursor} {S T U : Start → Prop}
  {P : Cursor → Prop} {F : List Char → Prop}

lemma transfers_number (hseam : Seam old new) : number.Transfers old new P F := by
  have hwhole : Eats (run1 Char.isDigit >>= fun whole =>
      fraction >>= fun digits => pure (literal whole digits)) :=
    (eats_run1 _).bind fun _ => moves_bind moves_fraction fun _ => moves_pure _
  have hpointed : Eats (char '.' >>= fun _ =>
      run1 Char.isDigit >>= fun digits => pure (literal [] digits)) :=
    (eats_char '.').bind fun _ => moves_bind (moves_run1 (by decide)) fun _ => moves_pure _
  refine transfers_orElse
    (transfers_of_tells hseam (tells_bind (tells_run1 (by decide)) fun _ =>
      tells_bind tells_fraction fun _ => tells_pure _) hwhole)
    (transfers_of_tells hseam (tells_bind (tells_char '.') fun _ =>
      tells_bind (tells_run1 (by decide)) fun _ => tells_pure _) hpointed)
    (opens_bind opens_digits _) (opens_bind (opens_char (by decide) (by decide)) _) ?_
  rintro x ⟨c, hc, rfl⟩ hpoint
  obtain rfl : c = '.' := by simpa using hpoint
  revert hc
  decide

lemma tells_variableName : variableName.Tells :=
  tells_bind (tells_char ':') fun _ => tells_ident

lemma transfers_query (hseam : Seam old new) : query.Transfers old new P F := by
  refine (alternatives_map (fun q => .word q.name) ?_ ?_ (by decide)).transfers
  · intro q _
    exact transfers_of_tells hseam (tells_bind (tells_keyword _) fun _ => tells_pure q)
      ((eats_keyword (by cases q <;> decide)).bind fun _ => moves_pure q)
  · intro q _
    exact opens_bind (opens_keyword (mem_reserved_of_query q)) _

lemma Comparison.isSolid_sign (c : Comparison) : isSolid c.sign ∧ c.sign.isAlpha = false := by
  cases c <;> decide

lemma solid_comparison : Start.Solid fun x => ∃ c : Comparison, x = .sign c.sign := by
  rintro c ⟨d, hd⟩
  obtain rfl : c = d.sign := by simpa using hd
  exact d.isSolid_sign.1

lemma continues_comparison (hseam : Seam old new) (hT : Start.Solid T) :
    comparison.Continues old new (fun x => ∃ c : Comparison, x = .sign c.sign)
      (Follows new T) := by
  have hall : Alternatives old new Cursor.Settled (Trailing old new T) _
      ([.equal, .less, .greater].map fun (c : Comparison) => do
        char c.sign
        return c) :=
    alternatives_map (fun c => .sign c.sign)
      (fun c _ => transfers_of_tells hseam (tells_bind (tells_char c.sign) fun _ => tells_pure c)
        ((eats_char c.sign).bind fun _ => moves_pure c))
      (fun c _ => opens_bind (opens_char c.isSolid_sign.1 c.isSolid_sign.2) _) (by decide)
  exact ⟨moves_comparison, eats_comparison, opens_comparison, solid_comparison,
    transfers_padded hseam hT hall.transfers moves_comparison eats_comparison opens_comparison
      solid_comparison⟩

lemma continues_char (hseam : Seam old new) {c : Char} (hc : isSolid c)
    (halpha : c.isAlpha = false) : (char c).Continues old new (· = .sign c) F :=
  continues_of_tells hseam (tells_char c) (moves_char (ne_feed_of_isSolid hc)) (eats_char c)
    (opens_char hc halpha) (Start.solid_sign hc)

/-- What never reads anything transfers. -/
lemma transfers_of_not_done {α : Type} {p : Parser α} (h : ∀ s v t, p s ≠ .done v t) :
    p.Transfers old new P F := by
  intro text text' s s' v t _ _ hdone
  exact absurd hdone (h s v t)

lemma readsExpr_sum (hseam : Seam old new) {expr : Parser NumExpr}
    (h : ReadsExpr old new [] expr) : ReadsExpr old new ['+', '-', '*', '/'] (sum expr) := by
  have hproduct : ReadsExpr old new ['*', '/'] (chain productSign expr) :=
    readsExpr_chain [('*', .mul), ('/', .div)] hseam h
      ⟨by decide, by simp [isSolid, isSpace]⟩ (by simp) (by decide)
  exact readsExpr_chain [('+', .add), ('-', .sub)] hseam hproduct
    ⟨by decide, by simp [isSolid, isSpace]⟩ (by simp) (by decide)

lemma endsSettled_operand (room : Nat) : (operand room).EndsSettled :=
  endsSettled_reader .operand room

/-- An operand between blanks, given the operands inside it, if there can be any. -/
lemma transfers_operandBody (hseam : Seam old new) {room : Nat}
    (h : ∀ n, room = n + 1 → ReadsExpr old new [] (operand room)) :
    (operandBody (operand room)).Transfers old new P (Trailing old new (Start.Avoids [])) := by
  have hparen : Transfers old new Anywhere (Trailing old new (Start.Avoids []))
      (sum (operand room) >>= fun e => char ')' >>= fun _ => pure e) := by
    cases room with
    | zero => exact transfers_of_not_done fun _ _ _ h => by cases h
    | succ n =>
        have hsum := readsExpr_sum hseam (h n rfl)
        refine transfers_then hsum.transfers (hsum.settled.within _) (fun text _ h => h.follows ?_)
          fun e => (continues_char hseam (by decide) (by decide)).map fun _ => e
        rintro x rfl
        exact ⟨by decide, by decide⟩
  have hminus : Transfers old new P (Trailing old new (Start.Avoids []))
      (char '-' >>= fun _ => operand room >>= fun e => pure (NumExpr.neg e)) := by
    refine Transfers.trailing (transfers_after (transfers_of_tells hseam (tells_char '-')
      (eats_char '-')) (fun _ => moves_bind (moves_operand room) fun _ => moves_pure _)
      fun _ => Transfers.map ?_ NumExpr.neg) ?_
    · cases room with
      | zero => exact transfers_of_not_done fun _ _ _ h => by cases h
      | succ n => exact (h n rfl).transfers
    · exact fun s e t _ => endsSettled_bind (fun _ => (endsSettled_operand room).map _) s e t
  refine Alternatives.transfers
    (.cons (transfers_after (transfers_of_tells hseam (tells_char '(') (eats_char '('))
        (fun _ => moves_bind (moves_sum (moves_operand room)) fun e =>
          moves_bind (moves_char (by decide)) fun _ => moves_pure e) fun _ => hparen)
      (opens_bind (opens_char (by decide) (by decide)) _)
      (.cons ((transfers_number hseam).map _) (opens_bind opens_number _)
        (.cons ((transfers_of_tells hseam tells_variableName eats_variableName).map _)
          (opens_bind opens_variableName _)
          (.cons hminus (opens_bind (opens_char (by decide) (by decide)) _)
            (.cons ((transfers_query hseam).map _) (opens_bind opens_query _) .nil ?_)
            ?_) ?_) ?_) ?_)
  · exact fun _ _ h => h
  · rintro x rfl
    simp
  · rintro x rfl
    simp
  · rintro x ⟨c, hc, rfl⟩
    have hcolon : c ≠ ':' := by
      rintro rfl
      revert hc
      decide
    have hminus : c ≠ '-' := by
      rintro rfl
      revert hc
      decide
    simp [hcolon, hminus]
  · rintro x rfl
    simp

/-- One level of operands, given the levels inside. -/
lemma readsExpr_operand_of_inner (hseam : Seam old new) {room : Nat}
    (h : ∀ n, room = n + 1 → ReadsExpr old new [] (operand room)) :
    ReadsExpr old new [] (operand (room + 1)) where
  moves := moves_operand (room + 1)
  eats := eats_operand (room + 1)
  settled := endsSettled_operand (room + 1)
  opens := opens_operand room
  transfers := transfers_padded hseam (Start.solid_avoids []) (transfers_operandBody hseam h)
    (moves_operand (room + 1)) (eats_operand (room + 1)) (opens_operand room)
    Start.IsOperand.solid

lemma readsExpr_operand (hseam : Seam old new) (room : Nat) :
    ReadsExpr old new [] (operand (room + 1)) := by
  induction room with
  | zero => exact readsExpr_operand_of_inner hseam fun n hn => absurd hn (Nat.succ_ne_zero n).symm
  | succ room ih => exact readsExpr_operand_of_inner hseam fun _ _ => ih

lemma readsExpr_expr (hseam : Seam old new) (levels : Nat) :
    ReadsExpr old new ['+', '-', '*', '/'] (exprAt levels) :=
  readsExpr_sum hseam (readsExpr_operand hseam levels)

namespace Parser

variable {α β : Type} {p q p' q' : Parser α} {f g : α → Parser β}

/-- Where `p` does not give up, `q` does the same. -/
def Agrees (p q : Parser α) : Prop := ∀ s, (∀ line, p s ≠ .tooDeep line) → q s = p s

lemma Agrees.refl (p : Parser α) : p.Agrees p := fun _ _ => rfl

lemma agrees_bind (hp : p.Agrees q) (hf : ∀ v, (f v).Agrees (g v)) :
    (p >>= f).Agrees (q >>= g) := by
  intro s hs
  have hps (line : Nat) : p s ≠ .tooDeep line := by
    intro hline
    exact hs line (bind_eq_tooDeep.mpr (.inl hline))
  rw [bind_apply, bind_apply, hp s hps]
  cases hv : p s with
  | done v t =>
      apply hf v t
      intro line hline
      exact hs line (bind_eq_tooDeep.mpr (.inr ⟨v, t, hv, hline⟩))
  | miss => rfl
  | tooDeep line => rfl

lemma agrees_orElse (hp : p.Agrees q) (hp' : p'.Agrees q') :
    (orElse p p').Agrees (orElse q q') := by
  intro s hs
  have hps (line : Nat) : p s ≠ .tooDeep line := by
    intro hline
    exact hs line (orElse_eq_tooDeep.mpr (.inl hline))
  rw [orElse_apply, orElse_apply, hp s hps]
  cases hv : p s with
  | done v t => rfl
  | miss =>
      apply hp' s
      intro line hline
      exact hs line (orElse_eq_tooDeep.mpr (.inr ⟨hv, hline⟩))
  | tooDeep line => rfl

lemma agrees_padded (hp : p.Agrees q) : (padded p).Agrees (padded q) :=
  agrees_bind (.refl _) fun _ => agrees_bind hp fun _ => .refl _

end Parser

section Room

variable {op : Parser Operator} {expr expr' : Parser NumExpr}

lemma agrees_chainTail (h : expr.Agrees expr') (left : Nat) (lhs : NumExpr) :
    (chainTail op expr left lhs).Agrees (chainTail op expr' left lhs) := by
  induction left using Nat.strongRecOn generalizing lhs with
  | _ left ih =>
      intro s hs
      rw [chainTail.eq_def] at hs
      rw [chainTail.eq_def, chainTail.eq_def op expr]
      dsimp only at hs ⊢
      cases hop : op s with
      | miss => rfl
      | tooDeep line => rfl
      | done o u =>
          simp only [hop] at hs
          have hu (line : Nat) : expr u ≠ .tooDeep line := by
            intro hline
            simp only [hline] at hs
            exact hs line rfl
          dsimp only
          rw [h u hu]
          cases hrhs : expr u with
          | miss => rfl
          | tooDeep line => rfl
          | done rhs v =>
              simp only [hrhs] at hs
              cases left with
              | zero => rfl
              | succ left => exact ih left (Nat.lt_succ_self left) _ v hs

lemma agrees_chain (h : expr.Agrees expr') : (chain op expr).Agrees (chain op expr') :=
  agrees_bind h fun lhs => agrees_chainTail h _ lhs

lemma agrees_operandBody (h : expr.Agrees expr') :
    (operandBody expr).Agrees (operandBody expr') :=
  agrees_orElse
    (agrees_bind (.refl _) fun _ => agrees_bind (agrees_chain (agrees_chain h)) fun _ => .refl _)
    (agrees_orElse (.refl _) (agrees_orElse (.refl _)
      (agrees_orElse (agrees_bind (.refl _) fun _ => agrees_bind h fun _ => .refl _) (.refl _))))

/-- With more room an operand is read in the same way. -/
lemma agrees_operand (room : Nat) : (operand room).Agrees (operand (room + 1)) := by
  induction room with
  | zero =>
      intro s hs
      exact absurd rfl (hs s.line)
  | succ room ih => exact agrees_padded (agrees_operandBody ih)

end Room

section Inputs

variable {op : Parser Operator} {expr : Parser NumExpr} {e : NumExpr} {levels : Nat}

/-- A chain ends where no operator with an operand behind it follows. -/
lemma chainTail_stops {left : Nat} {lhs : NumExpr}
    (h : chainTail op expr left lhs s = .done e t) :
    op t = .miss ∨ ∃ o u, op t = .done o u ∧ expr u = .miss := by
  induction left generalizing lhs s with
  | zero =>
      obtain ⟨⟨-, rfl⟩, hstop⟩ | ⟨n, hn, -⟩ := chainTail_eq_done h
      · exact hstop
      · cases hn
  | succ left ih =>
      obtain ⟨⟨-, rfl⟩, hstop⟩ | ⟨n, hn, h⟩ := chainTail_eq_done h
      · exact hstop
      · obtain rfl := Nat.succ.inj hn
        obtain ⟨o, a, -, h⟩ := bind_eq_done.mp h
        obtain ⟨rhs, b, -, h⟩ := bind_eq_done.mp h
        exact ih h

lemma chainTail_ne_miss (left : Nat) (lhs : NumExpr) (s : Cursor) :
    chainTail op expr left lhs s ≠ .miss := by
  induction left generalizing lhs s with
  | zero =>
      rw [chainTail.eq_def]
      dsimp only
      split
      · simp
      · simp
      · split <;> simp
  | succ left ih =>
      rw [chainTail.eq_def]
      dsimp only
      split
      · simp
      · simp
      · split
        · simp
        · simp
        · exact ih _ _

lemma chain_eq_miss (h : chain op expr s = .miss) : expr s = .miss := by
  rw [chain, bind_apply] at h
  cases hs : expr s with
  | miss => rfl
  | tooDeep line => simp [hs] at h
  | done e t =>
      rw [hs] at h
      exact absurd h (chainTail_ne_miss _ _ _)

lemma padded_of_settled {α : Type} {p : Parser α} {v : α} {b : Cursor} (hs : s.Settled)
    (h : p s = .done v b) : padded p s = .done v (skipFrom false b.rest b.line) := by
  refine bind_eq_done.mpr ⟨(), s, congrArg (Outcome.done ()) hs, ?_⟩
  exact bind_eq_done.mpr ⟨v, b, h, rfl⟩

lemma sumSign_minus {rest : List Char} (ht : t.Settled) (hrest : t.rest = '-' :: rest) :
    sumSign t = .done .sub (skipFrom false rest t.line) := by
  have hchar (c : Char) : char c t = if '-' = c then .done () ⟨rest, t.line⟩ else .miss := by
    unfold char
    rw [hrest]
  have hplus : padded (char '+' >>= fun _ => pure Operator.add) t = .miss := by
    refine (opens_padded (opens_bind (opens_char (by decide) (by decide)) _)).eq_miss ?_
    rw [ht.start, hrest, startOf_sign (by decide)]
    simp
  have hminus : (char '-' >>= fun _ => pure Operator.sub) t = .done .sub ⟨rest, t.line⟩ :=
    bind_eq_done.mpr ⟨(), _, (hchar '-').trans (if_pos rfl), rfl⟩
  exact orElse_eq_done.mpr (.inr ⟨hplus, orElse_eq_done.mpr (.inl (padded_of_settled ht hminus))⟩)

/-- An operand that starts with a minus sign has an operand behind the sign. -/
lemma operand_minus {room : Nat} {rest : List Char} (ht : t.Settled) (hrest : t.rest = '-' :: rest)
    {u : Cursor} (h : operand (room + 1) t = .done e u) :
    ∃ e' a, operand room ⟨rest, t.line⟩ = .done e' a := by
  have hstart : t.start = .sign '-' := by
    rw [ht.start, hrest]
    rfl
  obtain ⟨b, hb, -⟩ := padded_eq_done_of_settled ht h
  obtain ⟨p, hp, hb⟩ := choice_eq_done hb
  simp only [List.mem_cons, List.not_mem_nil, or_false] at hp
  obtain rfl | rfl | rfl | rfl | rfl := hp
  · have hopens := opens_bind (opens_char (c := '(') (by decide) (by decide)) _ t (by rw [hb]; simp)
    rw [hstart] at hopens
    cases hopens
  · obtain ⟨c, hc, hsign⟩ := opens_bind opens_number _ t (by rw [hb]; simp)
    obtain rfl : '-' = c := by simpa [hstart] using hsign
    exact absurd hc (by decide)
  · have hopens := opens_bind opens_variableName _ t (by rw [hb]; simp)
    rw [hstart] at hopens
    cases hopens
  · obtain ⟨_, a, ha, hb⟩ := bind_eq_done.mp hb
    obtain ⟨e', c, hc, -⟩ := bind_eq_done.mp hb
    obtain ⟨harest, haline⟩ := char_eq_done ha
    obtain rfl : rest = a.rest := by simpa [hrest] using harest
    rw [← haline]
    exact ⟨e', c, hc⟩
  · obtain ⟨q, hq⟩ := opens_bind opens_query _ t (by rw [hb]; simp)
    rw [hstart] at hq
    cases hq

/-- An input that follows an expression has no sign: behind a minus sign there would be an
operand, and it would have been subtracted. -/
lemma start_ne_minus (h : exprAt levels s = .done e t) {u : Cursor} {w : Arg}
    (hnext : arg (exprAt levels) t = .done w u) : startOf t.rest ≠ .sign '-' := by
  intro hstart
  have ht : t.Settled := endsSettled_reader .sum (levels + 1) s e t h
  obtain ⟨rest, hrest⟩ := exists_cons_of_startOf hstart
  have hended : operand (levels + 1) (skipFrom false rest t.line) = .miss := by
    obtain ⟨_, a, -, h⟩ := bind_eq_done.mp h
    have hsign := sumSign_minus ht hrest
    obtain hstop | ⟨o, b, hop, hstop⟩ := chainTail_stops h
    · cases hsign.symm.trans hstop
    · obtain ⟨-, rfl⟩ := Outcome.done.inj (hsign.symm.trans hop)
      exact chain_eq_miss hstop
  obtain ⟨e', c, hfound⟩ : ∃ e' c, operand levels ⟨rest, t.line⟩ = .done e' c := by
    obtain hword | ⟨-, hnum⟩ := orElse_eq_done.mp hnext
    · have hquote := opens_bind (opens_padded opens_word) _ t (by rw [hword]; simp)
      rw [ht.start, hstart] at hquote
      cases hquote
    · obtain ⟨_, a, ha, -⟩ := bind_eq_done.mp hnum
      obtain ⟨_, b, hb, -⟩ := bind_eq_done.mp ha
      obtain ⟨_, c, hc, -⟩ := bind_eq_done.mp hb
      exact operand_minus ht hrest hc
  cases levels with
  | zero => cases hfound
  | succ levels =>
      rw [operand_succ, ← padded_skipFrom, ← operand_succ] at hfound
      have hagrees := agrees_operand (levels + 1) (skipFrom false rest t.line) fun line hline => by
        cases hfound.symm.trans hline
      cases (hended.symm.trans hagrees).trans hfound

lemma tells_word : word.Tells :=
  tells_bind (tells_char '"') fun _ => tells_bind tells_line fun _ =>
    tells_bind (tells_run1 (by decide)) fun _ => tells_pure _

lemma transfers_padded_word (hseam : Seam old new) (hT : Start.Solid T) :
    (padded word).Transfers old new P (Follows new T) :=
  transfers_padded_token hseam hT tells_word moves_word eats_word opens_word
    (Start.solid_sign (by decide))

lemma transfers_arg (hseam : Seam old new) (levels : Nat) :
    (arg (exprAt levels)).Transfers old new P
      (Follows new (Start.Avoids ['+', '-', '*', '/'])) := by
  refine transfers_orElse ((transfers_padded_word hseam (Start.solid_avoids _)).map _)
    (((readsExpr_expr hseam levels).transfers.mono (fun _ _ => trivial) fun _ h => h).map _)
    (opens_bind (opens_padded opens_word) _) (opens_bind (opens_expr levels) _) ?_
  rintro x rfl
  simp [Start.IsOperand]

lemma endsSettled_arg (levels : Nat) : (arg (exprAt levels)).EndsSettled := by
  intro s v t h
  obtain h | ⟨-, h⟩ := orElse_eq_done.mp h
  · exact endsSettled_padded.map _ s v t h
  · exact (endsSettled_reader .sum (levels + 1)).map _ s v t h

lemma solid_arg : Start.Solid fun x => x = .sign '"' ∨ x.IsOperand :=
  (Start.solid_sign (by decide)).or Start.IsOperand.solid

/-- Without a minus sign an input does not continue an expression. -/
lemma avoids_of_arg {x : Start} (h : x = .sign '"' ∨ x.IsOperand) (hminus : x ≠ .sign '-') :
    x.Avoids ['+', '-', '*', '/'] := by
  cases x with
  | nothing | word => trivial
  | sign c =>
      refine ⟨solid_arg c h, ?_⟩
      intro hc
      simp only [List.mem_cons, List.not_mem_nil, or_false] at hc
      obtain rfl | rfl | rfl | rfl := hc
      · revert h
        simp [Start.IsOperand]
      · exact hminus rfl
      · revert h
        simp [Start.IsOperand]
      · revert h
        simp [Start.IsOperand]

lemma transfersTwice_arg (hseam : Seam old new) (levels : Nat) :
    TransfersTwice old new (arg (exprAt levels)) := by
  intro text text' text'' s s' v t w u hs hsettled hv ht hw hu hnew
  have hreaches := (reaches_old_of_done (opens_arg levels) (eats_arg levels)
    (endsSettled_arg levels s v t hv) ht hw hu).of_opens solid_arg (opens_arg levels) hnew
  obtain hword | ⟨-, hnum⟩ := orElse_eq_done.mp hv
  · have hfollows := hreaches.follows fun x hx => solid_arg.avoids hx
    have hreads := (transfers_padded_word (P := Cursor.Settled) hseam
      (Start.solid_avoids [])).map Arg.word
    obtain ⟨t', hword', ht'⟩ := hreads hs hsettled hword ht hfollows
    exact ⟨t', orElse_eq_done.mpr (.inl hword'), ht'⟩
  · refine transfers_arg hseam levels hs hsettled hv ht fun hne => ?_
    obtain ⟨e, a, he, hpure⟩ := bind_eq_done.mp hnum
    obtain ⟨-, rfl⟩ := pure_eq_done.mp hpure
    refine avoids_of_arg hreaches.2 fun hminus => ?_
    obtain ⟨c, rest, rfl⟩ := List.exists_cons_of_ne_nil hne
    obtain ⟨_, hcons⟩ := exists_cons_of_startOf hminus
    obtain rfl : c = '-' := (List.cons.inj hcons).1
    apply start_ne_minus he hw
    rw [ht, List.cons_append, startOf_sign (by decide)]

lemma Start.Closing.not_arg {x : Start} (h : x.Closing) :
    ¬(x = .sign '"' ∨ x.IsOperand) := by
  cases x with
  | nothing => simp [Start.IsOperand]
  | sign c =>
      obtain rfl : c = ']' := h
      simp [Start.IsOperand]
  | word name =>
      rintro (hc | ⟨q, rfl⟩)
      · cases hc
      · exact h q rfl

lemma arg_nil (levels line : Nat) : arg (exprAt levels) ⟨[], line⟩ = .miss :=
  (opens_arg levels).eq_miss (Start.Closing.not_arg (x := .nothing) trivial)

lemma Start.Closing.solid : Start.Solid Start.Closing := by
  rintro c rfl
  decide

lemma transfers_args (hseam : Seam old new) (levels : Nat) :
    (many (arg (exprAt levels))).Transfers old new Cursor.Settled (Follows new Start.Closing) := by
  refine transfers_many (moves_arg (moves_expr levels)) (eats_arg levels) (arg_nil levels)
    (endsSettled_arg levels) (transfersTwice_arg hseam levels)
    ((transfers_arg hseam levels).mono (fun _ h => h) fun _ h => h.mono fun x hx =>
      hx.avoids (by decide)) ?_
  intro text s s' hs hnext
  have hstart := hs.start hseam Start.Closing.solid (fun _ h => h) hnext
  exact (opens_arg levels).eq_miss hstart.not_arg

end Inputs

section Statements

variable {α β : Type} {p : Parser α} {levels : Nat}

lemma settled_of_many (heats : p.Eats) (hnil : ∀ line, p ⟨[], line⟩ = .miss)
    (hend : p.EndsSettled) : ∀ s v t, s.Settled → many p s = .done v t → t.Settled :=
  fun _ _ _ hs h => ((many_eq_done heats hnil).mp h).1.settled hend hs

/-- A loop starts with a value or, where it reads none, with what follows it. -/
lemma opens_many {f : List α → Parser β} (hp : p.Opens S) (hf : ∀ vs, (f vs).Opens T) :
    (many p >>= f).Opens fun x => S x ∨ T x := by
  intro s hs
  by_cases hmiss : p s = .miss
  · right
    have hmany : many p s = .done [] s := manyUpTo_of_readsAll .nil hmiss (Nat.zero_le _)
    rw [bind_apply, hmany] at hs
    exact hf [] s hs
  · exact .inl (hp s hmiss)

lemma transfers_condition (hseam : Seam old new) (levels : Nat) :
    (condition (exprAt levels)).Transfers old new Anywhere
      (Follows new (Start.Avoids ['+', '-', '*', '/'])) := by
  have hexpr := readsExpr_expr hseam levels
  refine transfers_then hexpr.transfers (hexpr.settled.within _) (fun text _ h => h.follows ?_)
    fun lhs => (continues_comparison hseam (Start.solid_avoids [])).bind endsSettled_padded
      (fun _ => Start.Solid.follows) fun c => hexpr.continues.map (Condition.mk lhs c)
  rintro x ⟨c, rfl⟩
  cases c <;> exact ⟨by decide, by decide⟩

/-- A loop up to something that starts in another way. -/
lemma continues_many {f : List α → Parser β} (hp : p.Continues old new S (Follows new U))
    (hend : p.EndsSettled) (hSU : ∀ x, S x → U x) (hnil : ¬S .nothing)
    (hf : ∀ vs, (f vs).Continues old new T F) (hTU : ∀ x, T x → U x) (hapart : ∀ x, T x → ¬S x) :
    (many p >>= f).Continues old new (fun x => S x ∨ T x) F := by
  have hmiss (line : Nat) : p ⟨[], line⟩ = .miss := hp.opens.eq_miss hnil
  have hmany : (many p).Transfers old new Cursor.Settled (Reaches new T) := by
    refine transfers_many hp.moves hp.eats hmiss hend (hp.twice hend hSU)
      (hp.transfers.mono (fun _ h => h) fun _ h => h.follows hTU) ?_
    intro text s s' hs hnext
    exact hp.opens.eq_miss (hapart _ (hs.start_of_reaches (hf []).solid hnext))
  exact ⟨moves_bind (moves_many hp.moves) fun vs => (hf vs).moves,
    eats_bind (moves_many hp.moves) fun vs => (hf vs).eats,
    opens_many hp.opens fun vs => (hf vs).opens, hp.solid.or (hf []).solid,
    transfers_then hmany (settled_of_many hp.eats hmiss hend) (fun _ _ h => h) hf⟩

lemma continues_params (hseam : Seam old new) {f : List Ident → Parser β}
    (hf : ∀ params, (f params).Continues old new T F) (hcolon : ¬T (.sign ':')) :
    (many (padded variableName) >>= f).Continues old new (fun x => x = .sign ':' ∨ T x) F := by
  refine continues_many
    (continues_padded_token hseam (Start.solid_avoids []) tells_variableName moves_variableName
      eats_variableName opens_variableName (Start.solid_sign (by decide)))
    endsSettled_padded ?_ (by simp) hf (fun x hx => (hf []).solid.avoids hx) ?_
  · rintro x rfl
    exact ⟨by decide, by decide⟩
  · rintro x hx rfl
    exact hcolon hx

lemma Start.IsStatement.solid : Start.Solid Start.IsStatement := fun _ h => h.elim

lemma endsSettled_statement (levels : Nat) : (statement levels).EndsSettled := by
  rw [statement_eq_statementWith]
  exact endsSettled_padded

lemma statement_nil (levels line : Nat) : statement levels ⟨[], line⟩ = .miss :=
  (opens_statement levels).eq_miss fun h => h

lemma continues_statement
    (h : (statement levels).Transfers old new Cursor.Settled (Follows new Start.Closing)) :
    (statement levels).Continues old new Start.IsStatement (Follows new Start.Closing) :=
  ⟨moves_statement levels, eats_statement levels, opens_statement levels,
    Start.IsStatement.solid, h⟩

/-- The statements of a body, and then what closes it. -/
lemma continues_body
    (h : (statement levels).Transfers old new Cursor.Settled (Follows new Start.Closing))
    {f : List Statement → Parser β} (hf : ∀ body, (f body).Continues old new T F)
    (hclosing : ∀ x, T x → x.Closing) (hapart : ∀ x, T x → ¬x.IsStatement) :
    (many (statement levels) >>= f).Continues old new (fun x => x.IsStatement ∨ T x) F :=
  continues_many (continues_statement h) (endsSettled_statement levels)
    (fun _ hx => hx.closing) (fun h => h) hf hclosing hapart

/-- A block, given the statements inside it, if there can be any. -/
lemma transfers_block (hseam : Seam old new)
    (h : ∀ n, levels = n + 1 →
      (statement n).Transfers old new Cursor.Settled (Follows new Start.Closing)) :
    (block (bodyReader levels)).Transfers old new P (Follows new (Start.Avoids [])) := by
  cases levels with
  | zero =>
      refine transfers_of_not_done fun s v t h => ?_
      obtain ⟨_, a, -, h⟩ := bind_eq_done.mp h
      cases h
  | succ n =>
      have hclose (body : List Statement) := (continues_padded_token hseam
        (Start.solid_avoids []) (tells_char ']') (moves_char (by decide)) (eats_char ']')
        (opens_char (by decide) (by decide)) (Start.solid_sign (by decide))).map fun _ => body
      have hbody := continues_body (h n rfl) hclose (by rintro x rfl; rfl)
        (by rintro x rfl h; exact h)
      exact transfers_then
        (transfers_padded_token hseam (Start.solid_avoids []) (tells_char '[')
          (moves_char (by decide)) (eats_char '[') (opens_char (by decide) (by decide))
          (Start.solid_sign (by decide)))
        (endsSettled_padded.within _) (fun _ => Start.Solid.follows) fun _ => hbody

lemma transfers_padded_ident (hseam : Seam old new) :
    (padded ident).Transfers old new P (Follows new (Start.Avoids [])) := by
  refine transfers_padded_token hseam (Start.solid_avoids []) tells_ident moves_ident eats_ident
    opens_ident ?_
  rintro c ⟨name, hname, -⟩
  cases hname

/-- A word whose line is kept, and then whatever follows. -/
lemma transfers_line_keyword (hseam : Seam old new) {word : String} (hword : word ∈ reserved)
    {f : Nat → Parser β} (hmoves : ∀ l, (f l).Moves)
    (hf : ∀ l, (f l).Transfers old new Anywhere F) :
    (line >>= fun l => keyword word >>= fun _ => f l).Transfers old new Cursor.Settled F := by
  have hplain := isPlain_of_reserved word hword
  have hne : word.toList ≠ [] := by
    intro hnil
    rw [hnil] at hplain
    cases hplain
  have hfeed : '\n' ∉ word.toList := by
    intro hfeed
    exact absurd (alphanum_of_isPlain hplain '\n' hfeed) (by decide)
  refine transfers_then transfers_line ?_ (fun _ _ h => h.1) fun l =>
    { moves := moves_bind (moves_keyword hfeed) fun _ => hmoves l
      eats := (eats_keyword hne).bind fun _ => hmoves l
      opens := opens_bind (opens_keyword hword) _
      solid := by rintro c hc; cases hc
      transfers := transfers_after
        (transfers_of_tells hseam (tells_keyword word) (eats_keyword hne)) (fun _ => hmoves l)
        fun _ => hf l }
  intro s l t hs h
  obtain ⟨-, rfl⟩ : s.line = l ∧ s = t := by simpa [line] using h
  exact hs

def definitionEnd (name : Ident) (params : List Ident) (body : List Statement) :
    Parser Statement := do
  let endLine ← line
  keyword "end"
  return .define name params body endLine

lemma continues_definitionEnd (hseam : Seam old new) (name : Ident) (params : List Ident)
    (body : List Statement) :
    (definitionEnd name params body).Continues old new (· = .word "end") F where
  moves := moves_bind moves_line fun _ => moves_bind (moves_keyword (by decide)) fun _ =>
    moves_pure _
  eats := eats_bind moves_line fun _ => (eats_keyword (by decide)).bind fun _ => moves_pure _
  opens := opens_line fun _ => opens_bind (opens_keyword (by decide)) _
  solid := by rintro c hc; cases hc
  transfers := transfers_line_keyword hseam (by decide) (fun _ => moves_pure _) fun _ =>
    transfers_pure _

/-- A definition, given the statements inside it, if there can be any. -/
lemma transfers_definition (hseam : Seam old new)
    (h : ∀ n, levels = n + 1 →
      (statement n).Transfers old new Cursor.Settled (Follows new Start.Closing)) :
    (definition (bodyReader levels)).Transfers old new P F := by
  cases levels with
  | zero =>
      refine transfers_of_not_done fun s v t h => ?_
      obtain ⟨_, a, -, h⟩ := bind_eq_done.mp h
      cases h
  | succ n =>
      have hbody (name : Ident) (params : List Ident) :=
        continues_body (h n rfl) (continues_definitionEnd (F := F) hseam name params)
          (by rintro x rfl q; cases q <;> decide)
          (by rintro x rfl h; revert h; simp [Start.IsStatement, reserved])
      have hparams (name : Ident) := continues_params hseam (hbody name)
        (by rintro (h | h) <;> cases h)
      have hname := transfers_then (P := Anywhere) (transfers_padded_ident hseam)
        (endsSettled_padded.within _) (fun _ => Start.Solid.follows) hparams
      exact transfers_after
        (transfers_of_tells hseam (tells_keyword "to") (eats_keyword (by decide)))
        (fun _ => moves_bind (moves_padded moves_ident) fun name => (hparams name).moves)
        fun _ => hname

lemma endsSettled_block (levels : Nat) : (block (bodyReader levels)).EndsSettled := by
  refine endsSettled_bind fun _ => ?_
  cases levels with
  | zero =>
      intro s v t h
      cases h
  | succ n => exact endsSettled_bind fun body => endsSettled_padded.map _

/-- An expression or a condition, and then a block. -/
lemma transfers_before_block {γ : Type} (hseam : Seam old new) {head : Parser γ}
    (hhead : head.Transfers old new Anywhere (Follows new (Start.Avoids ['+', '-', '*', '/'])))
    (hend : head.EndsSettled)
    (h : ∀ n, levels = n + 1 →
      (statement n).Transfers old new Cursor.Settled (Follows new Start.Closing))
    (f : γ → List Statement → Statement) :
    (head >>= fun x => block (bodyReader levels) >>= fun body => pure (f x body)).Transfers
      old new Anywhere (Trailing old new Start.Closing) := by
  have hblock : (block (bodyReader levels)).Continues old new (· = .sign '[')
      (Follows new Start.Closing) :=
    { moves := moves_block levels
      eats := eats_block levels
      opens := opens_block levels
      solid := Start.solid_sign (by decide)
      transfers := (transfers_block hseam h).mono (fun _ h => h) fun _ h =>
        h.mono fun x hx => Start.Closing.solid.avoids hx }
  refine Transfers.trailing (transfers_then hhead (hend.within _) (fun text _ h => h.follows ?_)
    fun x => hblock.map (f x)) ?_
  · rintro x rfl
    exact ⟨by decide, by decide⟩
  · exact fun s v t _ => endsSettled_bind (fun x => (endsSettled_block levels).map _) s v t

lemma endsSettled_condition (levels : Nat) : (condition (exprAt levels)).EndsSettled :=
  endsSettled_bind fun _ => endsSettled_bind fun _ =>
    (endsSettled_reader .sum (levels + 1)).map _

lemma transfers_make (hseam : Seam old new) (levels : Nat) :
    Transfers old new P (Trailing old new Start.Closing) (keyword "make" >>= fun _ =>
      padded (char '"' >>= fun _ => ident) >>= fun name =>
        exprAt levels >>= fun value => pure (Statement.make name value)) := by
  have hexpr := readsExpr_expr hseam levels
  have hclosing (text : List Char) (h : Follows new Start.Closing text) :
      Follows new (Start.Avoids ['+', '-', '*', '/']) text :=
    h.mono fun x hx => hx.avoids (by decide)
  have hvalue (name : Ident) := (hexpr.continues.mono hclosing).map (Statement.make name)
  have htarget : Moves (char '"' >>= fun _ => ident) :=
    moves_bind (moves_char (by decide)) fun _ => moves_ident
  refine Transfers.trailing (transfers_after
    (transfers_of_tells hseam (tells_keyword "make") (eats_keyword (by decide)))
    (fun _ => moves_bind (moves_padded htarget) fun name => (hvalue name).moves) fun _ => ?_) ?_
  · exact transfers_then (transfers_padded_token hseam (Start.solid_avoids [])
        (tells_bind (tells_char '"') fun _ => tells_ident) htarget
        ((eats_char '"').bind fun _ => moves_ident)
        (opens_bind (opens_char (by decide) (by decide)) _) (Start.solid_sign (by decide)))
      (endsSettled_padded.within _) (fun _ => Start.Solid.follows) hvalue
  · exact fun s v t _ => endsSettled_bind
      (fun _ => endsSettled_bind fun name => hexpr.settled.map _) s v t

lemma transfers_call (hseam : Seam old new) (levels : Nat) :
    Transfers old new P (Trailing old new Start.Closing) (padded ident >>= fun name =>
      many (arg (exprAt levels)) >>= fun args => pure (Statement.call name args)) := by
  have hmoves := moves_many (moves_arg (moves_expr levels))
  have hcall : Transfers old new P (Follows new Start.Closing) (padded ident >>= fun name =>
      many (arg (exprAt levels)) >>= fun args => pure (Statement.call name args)) := by
    refine transfers_bind (transfers_padded_ident hseam)
      (fun name => moves_bind hmoves fun _ => moves_pure _)
      (fun s v t _ h => endsSettled_padded s v t h)
      (fun name => (transfers_args hseam levels).map _) ?_
    intro s name t w u text text' _ hname ht hw hu hnext _
    obtain ⟨args, a, hargs, hw⟩ := bind_eq_done.mp hw
    obtain ⟨-, rfl⟩ := pure_eq_done.mp hw
    obtain ⟨hreads, -⟩ := (many_eq_done (eats_arg levels) (arg_nil levels)).mp hargs
    exact hreads.avoids (moves_arg (moves_expr levels)) (eats_arg levels) (opens_arg levels)
      solid_arg (endsSettled_padded s name t hname) ht hu
      (hnext.mono fun x hx => Start.Closing.solid.avoids hx)
  refine hcall.trailing ?_
  intro s v t _ h
  obtain ⟨name, a, ha, h⟩ := bind_eq_done.mp h
  obtain ⟨args, b, hb, h⟩ := bind_eq_done.mp h
  obtain ⟨-, rfl⟩ := pure_eq_done.mp h
  exact settled_of_many (eats_arg levels) (arg_nil levels) (endsSettled_arg levels) a args b
    (endsSettled_padded s name a ha) hb

/-- One level of statements, given the levels inside. -/
lemma transfers_statement_of_inner (hseam : Seam old new)
    (h : ∀ n, levels = n + 1 →
      (statement n).Transfers old new Cursor.Settled (Follows new Start.Closing)) :
    (statement levels).Transfers old new P (Follows new Start.Closing) := by
  have hmoves := moves_statement levels
  have heats := eats_statement levels
  have hopens := opens_statement levels
  rw [statement_eq_statementWith] at hmoves heats hopens ⊢
  refine transfers_padded hseam Start.Closing.solid (Alternatives.transfers
    (.cons ?_ (opens_line fun _ => opens_bind (opens_keyword (by decide)) _)
      (.cons ?_ (opens_line fun _ => opens_bind (opens_keyword (by decide)) _)
        (.cons (transfers_make hseam levels) (opens_bind (opens_keyword (by decide)) _)
          (.cons (transfers_definition hseam h) (opens_definition levels)
            (.cons (transfers_call hseam levels) (opens_bind (opens_padded opens_ident) _) .nil
              ?_) ?_) ?_) ?_) ?_))
    hmoves heats hopens Start.IsStatement.solid
  · exact transfers_line_keyword hseam (by decide)
      (fun _ => moves_bind (moves_condition (moves_expr levels)) fun _ =>
        moves_bind (moves_block levels) fun _ => moves_pure _)
      fun l => transfers_before_block hseam (transfers_condition hseam levels)
        (endsSettled_condition levels) h (.branch l)
  · have hexpr := readsExpr_expr hseam levels
    exact transfers_line_keyword hseam (by decide)
      (fun _ => moves_bind (moves_expr levels) fun _ =>
        moves_bind (moves_block levels) fun _ => moves_pure _)
      fun l => transfers_before_block hseam hexpr.transfers hexpr.settled h (.loop l)
  · exact fun _ _ h => h
  · rintro x rfl
    simp [reserved]
  · rintro x rfl
    simp [reserved]
  · rintro x rfl
    simp [reserved]
  · rintro x rfl
    simp [reserved]

lemma transfers_statement (hseam : Seam old new) (levels : Nat) :
    (statement levels).Transfers old new P (Follows new Start.Closing) := by
  induction levels generalizing P with
  | zero =>
      exact transfers_statement_of_inner hseam fun n hn => absurd hn (Nat.succ_ne_zero n).symm
  | succ levels ih =>
      refine transfers_statement_of_inner hseam fun n hn => ?_
      obtain rfl : levels = n := Nat.succ.inj hn
      exact ih

/-- A program of one statement after the other is read in the same way up to the seam, and then
the blanks behind it are skipped. -/
lemma readsAll_seam (hseam : Seam old new) {line : Nat} {program : List Statement}
    (h : ReadsAll (statement levels) program (skipFrom false (text ++ old) line) t)
    (ht : t.rest = old) :
    ReadsAll (statement levels) program (skipFrom false (text ++ new) line)
      (skipFrom false new t.line) := by
  have hsettled := settled_skipFrom false (text ++ old) line
  have ht' : t.rest = [] ++ old := ht
  obtain ⟨taken, hrest⟩ := (h.leads (moves_statement levels)).rest_eq ht'
  have hnext : Follows new (Start.Avoids []) (taken ++ []) :=
    h.avoids (moves_statement levels) (eats_statement levels) (opens_statement levels)
      Start.IsStatement.solid hsettled hrest ht' follows_nil
  obtain ⟨s', hs', hs⟩ := transfers_blanks (P := Anywhere) hseam (.before text line) trivial rfl
    hrest hnext
  obtain rfl : skipFrom false (text ++ new) line = s' := by simpa [blanks] using hs'
  obtain ⟨t', hreads, hmatched⟩ := h.transfers (moves_statement levels)
    (endsSettled_statement levels)
    ((continues_statement (transfers_statement hseam levels)).twice
      (endsSettled_statement levels) fun _ hx => hx.closing)
    (transfers_statement hseam levels) hs hsettled ht' follows_nil
  cases hmatched with
  | before _ line' =>
      have hend := hreads.settled (endsSettled_statement levels)
        (settled_skipFrom false (text ++ new) line)
      rwa [show skipFrom false new line' = ⟨[] ++ new, line'⟩ from hend]
  | behind line' => exact hreads

end Statements

end LogoStudio.Logo
