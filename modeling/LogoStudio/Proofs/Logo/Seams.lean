import LogoStudio.Proofs.Logo.Starts

/-!
# Changing the text behind a reading

A reading looks ahead: words and numbers end before the first character that cannot be theirs,
a chain ends where no operator with an operand follows, and a call takes inputs until none
follows. Here what stands behind a reading is exchanged for another text that starts no operator
and no input, and the reading is shown to stay the same. The place of the exchange is a seam.
Two readings are followed side by side, before the old text and before the new one. A parser
transfers if from matching places it reads the same and comes to matching places, as long as
what is read next before the seam does not matter to it.
-/
namespace LogoStudio.Logo

open LogoStudio.Logo.Parser

/-- The text `old` may be exchanged for `new`: no blanks stand at the start of the old text, and
the new one starts on a new line, with nothing that continues a statement. -/
structure Seam (old new : List Char) : Prop where
  settled (line : Nat) : Cursor.Settled ⟨old, line⟩
  feed : ∀ c ∈ new.head?, c = '\n'
  closing (line : Nat) : (Cursor.mk new line).start.Closing

/-- Two places match: the same text stands between them and the seam, or else both have come to
the seam, and the blanks behind it have been skipped. -/
inductive Matched (old new : List Char) : List Char → Cursor → Cursor → Prop
  | before (text : List Char) (line : Nat) :
      Matched old new text ⟨text ++ old, line⟩ ⟨text ++ new, line⟩
  | behind (line : Nat) : Matched old new [] ⟨old, line⟩ (skipFrom false new line)

variable {old new text text' : List Char} {s s' t : Cursor} {S T : Start → Prop}

namespace Matched

lemma rest_eq (h : Matched old new text s s') : s.rest = text ++ old := by
  cases h <;> rfl

lemma of_rest (h : s.rest = text ++ old) : Matched old new text s ⟨text ++ new, s.line⟩ := by
  obtain ⟨rest, line⟩ := s
  obtain rfl : rest = text ++ old := h
  exact .before text line

lemma eq_before (h : Matched old new text s s') (hne : text ≠ []) :
    s' = ⟨text ++ new, s.line⟩ := by
  cases h with
  | before => rfl
  | behind => exact absurd rfl hne

end Matched

/-- What comes next before the seam, if anything does. -/
def Follows (new : List Char) (S : Start → Prop) (text : List Char) : Prop :=
  text ≠ [] → S (startOf (text ++ new))

/-- Something comes next before the seam. -/
def Reaches (new : List Char) (S : Start → Prop) (text : List Char) : Prop :=
  text ≠ [] ∧ S (startOf (text ++ new))

lemma Follows.mono (h : Follows new S text) (hST : ∀ x, S x → T x) : Follows new T text :=
  fun hne => hST _ (h hne)

lemma follows_nil : Follows new S [] := fun hne => absurd rfl hne

lemma Reaches.follows (h : Reaches new S text) (hST : ∀ x, S x → T x) : Follows new T text :=
  fun _ => hST _ h.2

/-- Neither blanks nor comments, nor one of some signs. -/
def Start.Avoids (signs : List Char) : Start → Prop
  | .sign c => isSolid c ∧ c ∉ signs
  | _ => True

/-- Starts that are no blanks and no comments. -/
def Start.Solid (S : Start → Prop) : Prop := ∀ c, S (.sign c) → isSolid c

lemma Start.solid_avoids (signs : List Char) : Start.Solid (Start.Avoids signs) :=
  fun _ h => h.1

lemma Start.solid_sign {c : Char} (h : isSolid c) : Start.Solid (· = .sign c) := by
  intro d hd
  obtain rfl : d = c := by simpa using hd
  exact h

lemma Start.Solid.avoids (hS : Start.Solid S) {x : Start} (h : S x) : x.Avoids [] := by
  cases x with
  | nothing | word => trivial
  | sign c => exact ⟨hS c h, List.not_mem_nil⟩

lemma Start.Solid.or (hS : Start.Solid S) (hT : Start.Solid T) :
    Start.Solid fun x => S x ∨ T x :=
  fun c h => h.elim (hS c) (hT c)

lemma isSolid_of_startOf {c : Char} {rest : List Char} (hS : Start.Solid S)
    (h : S (startOf (c :: rest))) : isSolid c := by
  by_cases hc : c.isAlpha
  · exact isSolid_of_isAlphanum (by simp [Char.isAlphanum, hc])
  · rw [startOf_sign (Bool.eq_false_of_not_eq_true hc)] at h
    exact hS c h

lemma settled_of_startOf (hS : Start.Solid S) (hne : text ≠ []) (h : S (startOf text))
    (line : Nat) : Cursor.Settled ⟨text, line⟩ := by
  obtain ⟨c, rest, rfl⟩ := List.exists_cons_of_ne_nil hne
  exact settled_of_isSolid (isSolid_of_startOf hS h) rest line

namespace Matched

lemma start_of_reaches (h : Matched old new text s s') (hS : Start.Solid S)
    (hreaches : Reaches new S text) : S s'.start := by
  obtain ⟨hne, hstart⟩ := hreaches
  rw [h.eq_before hne]
  have hne' : text ++ new ≠ [] := by simp [hne]
  rw [(settled_of_startOf hS hne' hstart s.line).start]
  exact hstart

/-- What comes next before the seam or else behind it. -/
lemma start (hseam : Seam old new) (h : Matched old new text s s') (hS : Start.Solid S)
    (hclosing : ∀ x, x.Closing → S x) (hfollows : Follows new S text) : S s'.start := by
  by_cases hne : text = []
  · subst hne
    have hstart := hclosing _ (hseam.closing s.line)
    cases h with
    | before => exact hstart
    | behind line =>
        have hskip := start_skipFrom ⟨new, line⟩
        dsimp only at hskip
        rw [hskip]
        exact hstart
  · exact h.start_of_reaches hS ⟨hne, hfollows hne⟩

end Matched

namespace Parser

variable {α β : Type} {p q : Parser α} {f : α → Parser β}

/-- A parser looks no further than at the character behind what it reads, and does not mind if
a line end stands there instead. -/
def Tells (p : Parser α) : Prop :=
  ∀ s v t, p s = .done v t → ∃ taken, s.rest = taken ++ t.rest ∧ t.line = s.line ∧
    ∀ rest : List Char, (∀ c ∈ rest.head?, c = '\n' ∨ c ∈ t.rest.head?) →
      p ⟨taken ++ rest, s.line⟩ = .done v ⟨rest, s.line⟩

lemma tells_pure (v : α) : Tells (pure v : Parser α) := by
  intro s w t h
  obtain ⟨rfl, rfl⟩ := pure_eq_done.mp h
  exact ⟨[], rfl, rfl, fun _ _ => rfl⟩

lemma tells_line : line.Tells := by
  intro s v t h
  obtain ⟨rfl, rfl⟩ : s.line = v ∧ s = t := by simpa [line] using h
  exact ⟨[], rfl, rfl, fun _ _ => rfl⟩

lemma tells_bind (hp : p.Tells) (hf : ∀ v, (f v).Tells) : (p >>= f).Tells := by
  intro s w u h
  obtain ⟨v, t, hv, h⟩ := bind_eq_done.mp h
  obtain ⟨taken, hrest, hline, hp⟩ := hp s v t hv
  obtain ⟨taken', hrest', hline', hf⟩ := hf v t w u h
  refine ⟨taken ++ taken', by rw [hrest, hrest', List.append_assoc], hline'.trans hline, ?_⟩
  intro rest hnext
  have hseen : ∀ c ∈ (taken' ++ rest).head?, c = '\n' ∨ c ∈ t.rest.head? := by
    rw [hrest']
    cases taken' with
    | nil => simpa using hnext
    | cons d tail => exact fun c hc => .inr hc
  rw [hline] at hf
  rw [List.append_assoc]
  exact bind_eq_done.mpr ⟨v, _, hp _ hseen, hf rest hnext⟩

lemma tells_char (c : Char) : (char c).Tells := by
  intro s v t h
  obtain ⟨hrest, hline⟩ := char_eq_done h
  exact ⟨[c], hrest, hline, fun rest _ => if_pos rfl⟩

lemma tells_run {isIn : Char → Bool} (hfeed : isIn '\n' = false) : (run isIn).Tells := by
  rintro ⟨text, line⟩ v t h
  obtain ⟨rfl, rfl⟩ : (text.span isIn).1 = v ∧ Cursor.mk (text.span isIn).2 line = t := by
    simpa [run] using h
  rw [List.span_eq_takeWhile_dropWhile]
  refine ⟨text.takeWhile isIn, List.takeWhile_append_dropWhile.symm, rfl, ?_⟩
  intro rest hnext
  have hstop : ∀ c ∈ rest.head?, isIn c = false := by
    intro c hc
    obtain rfl | hc := hnext c hc
    · exact hfeed
    · exact head_dropWhile isIn text c hc
  unfold run
  rw [Text.span_append (fun c hc => List.mem_takeWhile_imp hc) hstop]

lemma tells_run1 {isIn : Char → Bool} (hfeed : isIn '\n' = false) : (run1 isIn).Tells := by
  intro s v t h
  obtain ⟨hne, htake, hdrop, hline⟩ := run1_eq_done h
  refine ⟨v, by rw [← htake, ← hdrop, List.takeWhile_append_dropWhile], hline, ?_⟩
  intro rest hnext
  apply run1_append hne
  · rw [← htake]
    exact fun c hc => List.mem_takeWhile_imp hc
  · intro c hc
    obtain rfl | hc := hnext c hc
    · exact hfeed
    · rw [← hdrop] at hc
      exact head_dropWhile isIn s.rest c hc

lemma tells_keyword (word : String) : (keyword word).Tells := by
  intro s v t h
  obtain ⟨hrest, hline⟩ := keyword_eq_done h
  refine ⟨word.toList, hrest, hline, ?_⟩
  intro rest hnext
  apply keyword_append
  intro c hc
  obtain rfl | hc := hnext c hc
  · decide
  · exact head_of_keyword h c hc

end Parser

lemma tells_ident : ident.Tells := by
  intro s v t h
  obtain ⟨hname, hrest, hline, hline', hstop⟩ := name_of_ident h
  refine ⟨v.name.toList, hrest, hline', ?_⟩
  intro rest hnext
  rw [← hline]
  apply ident_append v.line hname
  intro c hc
  obtain rfl | hc := hnext c hc
  · decide
  · exact hstop c hc

lemma tells_fraction : fraction.Tells := by
  have hpointed : Parser.Tells (char '.' >>= fun _ => run Char.isDigit) :=
    tells_bind (tells_char '.') fun _ => tells_run (by decide)
  intro s v t h
  obtain h | ⟨hmiss, h⟩ := orElse_eq_done.mp h
  · obtain ⟨taken, hrest, hline, htells⟩ := hpointed s v t h
    exact ⟨taken, hrest, hline, fun rest hnext => orElse_eq_done.mpr (.inl (htells rest hnext))⟩
  · obtain ⟨rfl, rfl⟩ := pure_eq_done.mp h
    refine ⟨[], rfl, rfl, fun rest hnext => orElse_eq_done.mpr (.inr ⟨?_, rfl⟩)⟩
    have hpointless : '.' ∉ s.rest.head? := by
      intro hpoint
      obtain ⟨tail, htail⟩ := List.head?_eq_some_iff.mp hpoint
      simp [bind_apply, char, htail, run] at hmiss
    rw [List.nil_append, bind_apply]
    cases rest with
    | nil => rfl
    | cons c rest =>
        have hc : c ≠ '.' := by
          rintro rfl
          obtain hfeed | hc := hnext '.' rfl
          · cases hfeed
          · exact hpointless hc
        simp [char, hc]

/-- The text that is left before the seam, on the way to a place before it. -/
lemma Cursor.Leads.rest_eq (h : s.Leads t) (ht : t.rest = text ++ old) :
    ∃ taken, s.rest = (taken ++ text) ++ old := by
  obtain ⟨taken, hrest, -⟩ := h
  exact ⟨taken, by rw [hrest, ht, List.append_assoc]⟩

namespace Parser

variable {α β : Type} {p q : Parser α} {f : α → Parser β} {P Q : Cursor → Prop}
  {F G : List Char → Prop}

/-- From a place in `P`, a parser reads the same from a matching place and comes to a matching
place, if what comes next before the seam is in `F`. -/
def Transfers (old new : List Char) (P : Cursor → Prop) (F : List Char → Prop) (p : Parser α) :
    Prop :=
  ∀ ⦃text text' s s' v t⦄, Matched old new text s s' → P s → p s = .done v t →
    t.rest = text' ++ old → F text' → ∃ t', p s' = .done v t' ∧ Matched old new text' t t'

def Anywhere : Cursor → Prop := fun _ => True

lemma Transfers.mono {P' : Cursor → Prop} {F' : List Char → Prop}
    (h : p.Transfers old new P F) (hP : ∀ s, P' s → P s) (hF : ∀ text, F' text → F text) :
    p.Transfers old new P' F' := by
  intro text text' s s' v t hs hP' hdone ht hF'
  exact h hs (hP s hP') hdone ht (hF text' hF')

lemma transfers_pure (v : α) : Transfers old new P F (pure v : Parser α) := by
  intro text text' s s' w t hs _ h ht _
  obtain ⟨rfl, rfl⟩ := pure_eq_done.mp h
  obtain rfl : text = text' := List.append_cancel_right (hs.rest_eq.symm.trans ht)
  exact ⟨s', rfl, hs⟩

/-- Both parts of a reading transfer. What the first part leaves, the second part reads, and it
does so on both sides. -/
lemma transfers_bind (hp : p.Transfers old new P G) (hmoves : ∀ v, (f v).Moves)
    (hend : ∀ s v t, P s → p s = .done v t → Q t) (hf : ∀ v, (f v).Transfers old new Q F)
    (hnext : ∀ {s v t w u text text'}, P s → p s = .done v t → t.rest = text ++ old →
      f v t = .done w u → u.rest = text' ++ old → F text' →
      f v ⟨text ++ new, t.line⟩ ≠ .miss → G text) : (p >>= f).Transfers old new P F := by
  intro text text' s s' w u hs hP h hu hF
  obtain ⟨v, t, hv, hw⟩ := bind_eq_done.mp h
  obtain ⟨taken, ht⟩ := (hmoves v t w u hw).rest_eq hu
  have hQ := hend s v t hP hv
  obtain ⟨_, hw', -⟩ := hf v (.of_rest ht) hQ hw hu hF
  have hread : f v ⟨(taken ++ text') ++ new, t.line⟩ ≠ .miss := by
    rw [hw']
    simp
  have hG : G (taken ++ text') := hnext hP hv ht hw hu hF hread
  obtain ⟨t', hv', ht'⟩ := hp hs hP hv ht hG
  obtain ⟨u', hw', hu'⟩ := hf v ht' hQ hw hu hF
  exact ⟨u', bind_eq_done.mpr ⟨v, t', hv', hw'⟩, hu'⟩

/-- A token transfers whatever follows it. -/
lemma transfers_of_tells (hseam : Seam old new) (hp : p.Tells) (heats : p.Eats) :
    p.Transfers old new P F := by
  intro text text' s s' v t hs _ h ht _
  obtain ⟨taken, hrest, hline, htells⟩ := hp s v t h
  have htext : text ++ old = (taken ++ text') ++ old := by
    rw [← hs.rest_eq, hrest, ht, List.append_assoc]
  obtain rfl := List.append_cancel_right htext
  have hne : taken ≠ [] := by
    rintro rfl
    have hlength := heats s v t h
    rw [hrest, List.nil_append] at hlength
    exact Nat.lt_irrefl _ hlength
  rw [hs.eq_before (by simp [hne]), List.append_assoc]
  refine ⟨⟨text' ++ new, s.line⟩, htells _ ?_, ?_⟩
  · rw [ht]
    cases text' with
    | nil => exact fun c hc => .inl (hseam.feed c hc)
    | cons c rest => exact fun d hd => .inr hd
  · rw [← hline]
    exact .of_rest ht

lemma transfers_line : line.Transfers old new P (· ≠ []) := by
  intro text text' s s' v t hs _ h ht hne
  obtain ⟨rfl, rfl⟩ : s.line = v ∧ s = t := by simpa [line] using h
  obtain rfl : text = text' := List.append_cancel_right (hs.rest_eq.symm.trans ht)
  have hline : s'.line = s.line := by rw [hs.eq_before hne]
  exact ⟨s', by simp [line, hline], hs⟩

end Parser

/-- A comment that the old text leaves one is also left one by the new text. -/
lemma isComment_seam (hseam : Seam old new) (h : isComment (text ++ old)) :
    isComment (text ++ new) := by
  unfold isComment at h ⊢
  rw [List.dropWhile_append] at h ⊢
  cases hdrop : text.dropWhile (fun c => c != '\r' && c != '\n') with
  | nil =>
      cases new with
      | nil => rfl
      | cons c rest =>
          obtain rfl := hseam.feed c rfl
          rfl
  | cons c tail =>
      simp only [hdrop, List.isEmpty_cons, Bool.false_eq_true, if_false, List.cons_append] at h ⊢
      by_cases hreturn : c = '\r'
      · subst hreturn
        cases tail with
        | nil =>
            cases old with
            | nil => cases h
            | cons d rest =>
                have hunblank : d ≠ '\n' := by
                  rintro rfl
                  exact absurd (Cursor.Settled.isSpace_head (hseam.settled 0)) (by decide)
                simp [hunblank] at h
        | cons d rest =>
            by_cases hfeed : d = '\n'
            · subst hfeed
              rfl
            · simp [hfeed] at h
      · simp [hreturn]

/-- Inside a comment something is skipped unless the text ends. -/
lemma eq_nil_of_skipFrom_true {line line' : Nat} (h : skipFrom true text line = ⟨text, line'⟩) :
    text = [] := by
  cases text with
  | nil => rfl
  | cons c rest =>
      have hshorter (inside : Bool) (l : Nat) : skipFrom inside rest l ≠ ⟨c :: rest, line'⟩ := by
        intro heq
        have hlength := length_skipFrom_le inside rest l
        rw [heq] at hlength
        exact Nat.not_succ_le_self _ hlength
      exfalso
      rw [skipFrom] at h
      split_ifs at h with hfeed hinside hspace
      · exact hshorter _ _ h
      · exact hshorter _ _ h
      · exact hshorter _ _ h
      · exact hshorter _ _ h
      · simp at hinside
        subst hinside
        exact hspace rfl

lemma matched_skipFrom (hseam : Seam old new) {inside : Bool} {line line' : Nat}
    (h : skipFrom inside (text ++ old) line = ⟨text' ++ old, line'⟩)
    (hnext : Follows new (Start.Avoids []) text') :
    Matched old new text' ⟨text' ++ old, line'⟩ (skipFrom inside (text ++ new) line) := by
  induction text generalizing inside line with
  | nil =>
      rw [List.nil_append] at h ⊢
      have hlength := length_skipFrom_le inside old line
      obtain rfl : text' = [] := by
        rw [h, List.length_append] at hlength
        exact List.length_eq_zero_iff.mp (by omega)
      cases inside with
      | false =>
          obtain rfl : line = line' := congrArg Cursor.line ((hseam.settled line).symm.trans h)
          exact .behind line
      | true =>
          obtain rfl : old = [] := eq_nil_of_skipFrom_true h
          obtain rfl : line = line' := congrArg Cursor.line h
          have hends : skipFrom true new line = skipFrom false new line := by
            cases new with
            | nil => rfl
            | cons c rest =>
                obtain rfl := hseam.feed c rfl
                rfl
          rw [hends]
          exact .behind line
  | cons c rest ih =>
      rw [List.cons_append, skipFrom] at h ⊢
      split_ifs at h with hfeed hinside hspace hcomment
      · rw [if_pos hfeed]
        exact ih h
      · rw [if_neg hfeed, if_pos hinside]
        exact ih h
      · rw [if_neg hfeed, if_neg hinside, if_pos hspace]
        exact ih h
      · obtain ⟨hc, hcomment⟩ := Bool.and_eq_true_iff.mp hcomment
        rw [if_neg hfeed, if_neg hinside, if_neg hspace, if_pos]
        · exact ih h
        · exact Bool.and_eq_true_iff.mpr ⟨hc, isComment_seam hseam hcomment⟩
      · obtain ⟨htext, rfl⟩ := Cursor.mk.inj h
        obtain rfl : c :: rest = text' := List.append_cancel_right htext
        have hsolid := isSolid_of_startOf (Start.solid_avoids []) (hnext (by simp))
        have hnot : ¬(c = ';' && isComment (rest ++ new)) := by
          simp [(isSolid_iff.mp hsolid).2]
        rw [if_neg hfeed, if_neg hinside, if_neg hspace, if_neg hnot]
        exact .before (c :: rest) line

lemma transfers_blanks (hseam : Seam old new) {P : Cursor → Prop} :
    blanks.Transfers old new P (Follows new (Start.Avoids [])) := by
  intro text text' s s' v t hs _ h ht hnext
  obtain rfl : skipFrom false s.rest s.line = t := by simpa [blanks] using h
  refine ⟨skipFrom false s'.rest s'.line, rfl, ?_⟩
  generalize hskip : skipFrom false s.rest s.line = t at ht ⊢
  obtain ⟨rest, line'⟩ := t
  obtain rfl : rest = text' ++ old := ht
  cases hs with
  | before text line => exact matched_skipFrom hseam hskip hnext
  | behind line =>
      obtain ⟨htext, rfl⟩ := Cursor.mk.inj ((hseam.settled line).symm.trans hskip)
      obtain rfl : text' = [] := List.append_left_eq_self.mp htext.symm
      rw [show skipFrom false (skipFrom false new line).rest (skipFrom false new line).line =
        skipFrom false new line from settled_skipFrom false new line]
      exact .behind line

section Leaves

variable {α β : Type} {p q : Parser α} {f : α → Parser β} {P : Cursor → Prop}
  {F G : List Char → Prop}

/-- A reading that starts where no blanks are shows what is left before the seam. -/
lemma reaches_old_of_done (hopens : q.Opens S) (heats : q.Eats) (ht : t.Settled)
    (htext : t.rest = text ++ old) {w : α} {u : Cursor} (h : q t = .done w u)
    (hu : u.rest = text' ++ old) : Reaches old S text := by
  constructor
  · rintro rfl
    have hlength := heats t w u h
    rw [hu, htext, List.length_append, List.nil_append] at hlength
    exact absurd hlength (Nat.not_lt_of_le (Nat.le_add_left _ _))
  · have hstart := hopens t (by simp [h])
    rwa [ht.start, htext] at hstart

/-- A sign at the start does not depend on the seam. -/
lemma Reaches.of_sign (h : Reaches old S text) (hS : ∀ name, ¬S (.word name)) :
    Reaches new S text := by
  obtain ⟨hne, hstart⟩ := h
  obtain ⟨c, rest, rfl⟩ := List.exists_cons_of_ne_nil hne
  have halpha : c.isAlpha = false := by
    by_contra halpha
    rw [List.cons_append, startOf, if_pos (Bool.of_not_eq_false halpha)] at hstart
    exact hS _ hstart
  rw [List.cons_append, startOf_sign halpha] at hstart
  exact ⟨hne, by rwa [List.cons_append, startOf_sign halpha]⟩

/-- A word may end at the seam, but what starts with it is read before the new text, too. -/
lemma Reaches.of_opens (h : Reaches old S text) (hS : Start.Solid S) (hopens : q.Opens S)
    {line : Nat} (hnew : q ⟨text ++ new, line⟩ ≠ .miss) : Reaches new S text := by
  obtain ⟨hne, hstart⟩ := h
  obtain ⟨c, rest, rfl⟩ := List.exists_cons_of_ne_nil hne
  have hsettled : Cursor.Settled ⟨c :: rest ++ new, line⟩ :=
    settled_of_isSolid (isSolid_of_startOf hS hstart) (rest ++ new) line
  refine ⟨hne, ?_⟩
  have hstart' := hopens ⟨c :: rest ++ new, line⟩ hnew
  rwa [Cursor.Settled.start hsettled] at hstart'

lemma Start.Solid.follows (hS : Start.Solid S) (h : Reaches new S text) :
    Follows new (Start.Avoids []) text :=
  h.follows fun _ hx => hS.avoids hx

lemma Parser.EndsSettled.within (h : p.EndsSettled) (P : Cursor → Prop) :
    ∀ s v t, P s → p s = .done v t → t.Settled :=
  fun s v t _ => h s v t

/-- The rest of a reading, whose start is known to be in `S`. -/
structure Parser.Continues (old new : List Char) (S : Start → Prop) (F : List Char → Prop)
    (p : Parser α) : Prop where
  moves : p.Moves
  eats : p.Eats
  opens : p.Opens S
  solid : Start.Solid S
  transfers : p.Transfers old new Cursor.Settled F

/-- A parser that leaves no blanks, and then the rest of the reading. -/
lemma transfers_then (hp : p.Transfers old new P G)
    (hend : ∀ s v t, P s → p s = .done v t → t.Settled)
    (hG : ∀ text, Start.Solid S → Reaches new S text → G text)
    (hf : ∀ v, (f v).Continues old new S F) : (p >>= f).Transfers old new P F := by
  refine transfers_bind hp (fun v => (hf v).moves) hend (fun v => (hf v).transfers) ?_
  intro s v t w u text text' hP hv ht hw hu _ hnew
  have hreaches := reaches_old_of_done (hf v).opens (hf v).eats (hend s v t hP hv) ht hw hu
  exact hG text (hf v).solid (hreaches.of_opens (hf v).solid (hf v).opens hnew)

/-- A token, and then whatever follows. -/
lemma transfers_after (hp : p.Transfers old new P fun _ => True) (hmoves : ∀ v, (f v).Moves)
    (hf : ∀ v, (f v).Transfers old new Anywhere F) : (p >>= f).Transfers old new P F :=
  transfers_bind hp hmoves (fun _ _ _ _ _ => trivial) hf fun _ _ _ _ _ _ _ => trivial

lemma Parser.Transfers.map (hp : p.Transfers old new P F) (g : α → β) :
    (p >>= fun v => pure (g v)).Transfers old new P F := by
  refine transfers_bind hp (fun v => moves_pure (g v)) (Q := Anywhere) (fun _ _ _ _ _ => trivial)
    (fun v => transfers_pure (g v)) ?_
  intro s v t w u text text' _ _ ht hw hu hF _
  obtain ⟨-, rfl⟩ := pure_eq_done.mp hw
  rwa [List.append_cancel_right (ht.symm.trans hu)]

namespace Parser.Continues

lemma mono (hp : p.Continues old new S F) (hG : ∀ text, G text → F text) :
    p.Continues old new S G :=
  ⟨hp.moves, hp.eats, hp.opens, hp.solid, hp.transfers.mono (fun _ h => h) hG⟩

lemma map (hp : p.Continues old new S F) (g : α → β) :
    (p >>= fun v => pure (g v)).Continues old new S F :=
  ⟨moves_bind hp.moves fun v => moves_pure (g v), hp.eats.bind fun v => moves_pure (g v),
    opens_bind hp.opens _, hp.solid, hp.transfers.map g⟩

lemma bind (hp : p.Continues old new S G) (hend : p.EndsSettled)
    (hG : ∀ text, Start.Solid T → Reaches new T text → G text)
    (hf : ∀ v, (f v).Continues old new T F) : (p >>= f).Continues old new S F :=
  ⟨moves_bind hp.moves fun v => (hf v).moves, hp.eats.bind fun v => (hf v).moves,
    opens_bind hp.opens f, hp.solid, transfers_then hp.transfers (hend.within _) hG hf⟩

end Parser.Continues

/-- If a reading leaves no blanks, then what comes next is in `S`. -/
def Trailing (old new : List Char) (S : Start → Prop) (text : List Char) : Prop :=
  Cursor.Settled ⟨text ++ old, 0⟩ → Follows new S text

lemma Parser.Transfers.trailing (hp : p.Transfers old new P (Follows new S))
    (hend : ∀ s v t, P s → p s = .done v t → t.Settled) :
    p.Transfers old new P (Trailing old new S) := by
  intro text text' s s' v t hs hP h ht hF
  have hsettled : Cursor.Settled ⟨t.rest, t.line⟩ := hend s v t hP h
  rw [ht] at hsettled
  exact hp hs hP h ht (hF (settled_line hsettled 0))

lemma padded_skipFrom {α : Type} (p : Parser α) (s : Cursor) :
    padded p (skipFrom false s.rest s.line) = padded p s := by
  have hskip : blanks (skipFrom false s.rest s.line) = blanks s :=
    congrArg (Outcome.done ()) (settled_skipFrom false s.rest s.line)
  rw [padded, bind_apply, bind_apply, hskip]

/-- What starts no blanks in front of the old text starts none in front of the new one. -/
lemma Reaches.avoids (h : Reaches old S text) (hS : Start.Solid S) :
    Follows new (Start.Avoids []) text := by
  obtain ⟨hne, hstart⟩ := h
  obtain ⟨c, rest, rfl⟩ := List.exists_cons_of_ne_nil hne
  intro _
  rw [List.cons_append, startOf]
  split_ifs
  · trivial
  · exact ⟨isSolid_of_startOf hS hstart, List.not_mem_nil⟩

lemma transfers_padded (hseam : Seam old new) (hT : Start.Solid T)
    (hp : p.Transfers old new Cursor.Settled (Trailing old new T)) (hmoves : (padded p).Moves)
    (heats : (padded p).Eats) (hopens : (padded p).Opens S) (hS : Start.Solid S) :
    (padded p).Transfers old new P (Follows new T) := by
  have hblanksBehind : Parser.Transfers old new Cursor.Settled (Follows new T)
      (p >>= fun v => blanks >>= fun _ => pure v) := by
    refine transfers_bind (Q := Anywhere) hp
      (fun v => moves_bind moves_blanks fun _ => moves_pure v) (fun _ _ _ _ _ => trivial) ?_ ?_
    · intro v
      exact ((transfers_blanks hseam).mono (fun _ h => h) fun _ h =>
        Follows.mono h fun _ hx => hT.avoids hx).map fun _ => v
    · intro s v t w u text text' _ _ ht hw hu hF _ hsettled
      obtain ⟨_, a, ha, hw⟩ := bind_eq_done.mp hw
      obtain ⟨-, rfl⟩ := pure_eq_done.mp hw
      obtain rfl : skipFrom false t.rest t.line = a := by simpa [blanks] using ha
      have hskip : skipFrom false t.rest t.line = t := by
        have hsettled' := settled_line hsettled t.line
        rw [← ht] at hsettled'
        exact hsettled'
      rw [hskip] at hu
      rwa [List.append_cancel_right (ht.symm.trans hu)]
  intro text text' s s' v u hs _ h hu hF
  have ha := settled_skipFrom false s.rest s.line
  have h' := h
  rw [← padded_skipFrom] at h'
  obtain ⟨taken, hrest⟩ := (hmoves _ v u h').rest_eq hu
  have hreaches := reaches_old_of_done hopens heats ha hrest h' hu
  obtain ⟨a', hblanks, ha'⟩ :=
    transfers_blanks (P := Anywhere) hseam hs trivial rfl hrest (hreaches.avoids hS)
  obtain ⟨u', hread, hu'⟩ := hblanksBehind ha' ha h hu hF
  exact ⟨u', bind_eq_done.mpr ⟨(), a', hblanks, hread⟩, hu'⟩

lemma transfers_padded_token (hseam : Seam old new) (hT : Start.Solid T) (hp : p.Tells)
    (hmoves : p.Moves) (heats : p.Eats) (hopens : p.Opens S) (hS : Start.Solid S) :
    (padded p).Transfers old new P (Follows new T) :=
  transfers_padded hseam hT (transfers_of_tells hseam hp heats) (moves_padded hmoves)
    (eats_padded heats) (opens_padded hopens) hS

lemma continues_of_tells (hseam : Seam old new) (hp : p.Tells) (hmoves : p.Moves)
    (heats : p.Eats) (hopens : p.Opens S) (hS : Start.Solid S) : p.Continues old new S F :=
  ⟨hmoves, heats, hopens, hS, transfers_of_tells hseam hp heats⟩

lemma continues_padded_token (hseam : Seam old new) (hT : Start.Solid T) (hp : p.Tells)
    (hmoves : p.Moves) (heats : p.Eats) (hopens : p.Opens S) (hS : Start.Solid S) :
    (padded p).Continues old new S (Follows new T) :=
  ⟨moves_padded hmoves, eats_padded heats, opens_padded hopens, hS,
    transfers_padded_token hseam hT hp hmoves heats hopens hS⟩

lemma transfers_orElse (hp : p.Transfers old new P F) (hq : q.Transfers old new P F)
    (hopens : p.Opens S) (hopens' : q.Opens T) (hapart : ∀ x, S x → ¬T x) :
    (orElse p q).Transfers old new P F := by
  intro text text' s s' v t hs hP h ht hF
  obtain h | ⟨-, h⟩ := orElse_eq_done.mp h
  · obtain ⟨t', hv, ht'⟩ := hp hs hP h ht hF
    exact ⟨t', orElse_eq_done.mpr (.inl hv), ht'⟩
  · obtain ⟨t', hv, ht'⟩ := hq hs hP h ht hF
    have hstart : T s'.start := hopens' s' (by simp [hv])
    have hmiss : p s' = .miss := hopens.eq_miss fun hS => hapart _ hS hstart
    exact ⟨t', orElse_eq_done.mpr (.inr ⟨hmiss, hv⟩), ht'⟩

/-- A choice between parsers with different starts. -/
structure Alternatives (old new : List Char) (P : Cursor → Prop) (F : List Char → Prop)
    (S : Start → Prop) (ps : List (Parser α)) : Prop where
  transfers : (choice ps).Transfers old new P F
  opens : (choice ps).Opens S

lemma Alternatives.nil :
    Alternatives old new P F (fun _ => False) ([] : List (Parser α)) := by
  refine ⟨?_, fun s hs => hs rfl⟩
  intro text text' s s' v t _ _ h
  cases h

lemma Alternatives.cons {ps : List (Parser α)} (hp : p.Transfers old new P F)
    (hopens : p.Opens S) (hps : Alternatives old new P F T ps) (hapart : ∀ x, S x → ¬T x) :
    Alternatives old new P F (fun x => S x ∨ T x) (p :: ps) :=
  ⟨transfers_orElse hp hps.transfers hopens hps.opens hapart,
    opens_orElse (hopens.mono fun _ => .inl) (hps.opens.mono fun _ => .inr)⟩

lemma Alternatives.mono {ps : List (Parser α)} (h : Alternatives old new P F S ps)
    (hST : ∀ x, S x → T x) : Alternatives old new P F T ps :=
  ⟨h.transfers, h.opens.mono hST⟩

/-- A family of parsers with one start each. -/
lemma alternatives_map {ι : Type} {xs : List ι} {r : ι → Parser α} (start : ι → Start)
    (hr : ∀ x ∈ xs, (r x).Transfers old new P F) (hopens : ∀ x ∈ xs, (r x).Opens (· = start x))
    (hnodup : (xs.map start).Nodup) :
    Alternatives old new P F (· ∈ xs.map start) (xs.map r) := by
  induction xs with
  | nil => exact Alternatives.nil.mono fun _ => False.elim
  | cons x xs ih =>
      obtain ⟨hx, hnodup⟩ := List.nodup_cons.mp hnodup
      have hrest := ih (fun y hy => hr y (List.mem_cons_of_mem x hy))
        (fun y hy => hopens y (List.mem_cons_of_mem x hy)) hnodup
      refine (Alternatives.cons (hr x List.mem_cons_self) (hopens x List.mem_cons_self) hrest
        ?_).mono fun y hy => List.mem_cons.mpr hy
      rintro y rfl hy
      exact hx hy

/-- A parser transfers where it is read twice in a row. -/
def TransfersTwice (old new : List Char) (p : Parser α) : Prop :=
  ∀ ⦃text text' text'' s s' v t w u⦄, Matched old new text s s' → s.Settled →
    p s = .done v t → t.rest = text' ++ old → p t = .done w u → u.rest = text'' ++ old →
    p ⟨text' ++ new, t.line⟩ ≠ .miss → ∃ t', p s' = .done v t' ∧ Matched old new text' t t'

lemma Parser.Continues.twice (hp : p.Continues old new S (Follows new T))
    (hend : p.EndsSettled) (hST : ∀ x, S x → T x) : TransfersTwice old new p := by
  intro text text' text'' s s' v t w u hs hsettled hv ht hw hu hnew
  have hreaches := reaches_old_of_done hp.opens hp.eats (hend s v t hv) ht hw hu
  exact hp.transfers hs hsettled hv ht ((hreaches.of_opens hp.solid hp.opens hnew).follows hST)

lemma Parser.ReadsAll.transfers (hmoves : p.Moves) (hend : p.EndsSettled)
    (htwice : TransfersTwice old new p) (hlast : p.Transfers old new Cursor.Settled F)
    {vs : List α} (h : ReadsAll p vs s t) (hs : Matched old new text s s') (hsettled : s.Settled)
    (ht : t.rest = text' ++ old) (hF : F text') :
    ∃ t', ReadsAll p vs s' t' ∧ Matched old new text' t t' := by
  induction h generalizing text s' with
  | nil =>
      obtain rfl : text = text' := List.append_cancel_right (hs.rest_eq.symm.trans ht)
      exact ⟨s', .nil, hs⟩
  | @cons v vs s a t hv hrest ih =>
      obtain ⟨taken, ha⟩ := (hrest.leads hmoves).rest_eq ht
      have hasettled := hend s v a hv
      suffices hfirst : ∃ a', p s' = .done v a' ∧ Matched old new (taken ++ text') a a' by
        obtain ⟨a', hv', ha'⟩ := hfirst
        obtain ⟨t', hrest', ht'⟩ := ih ha' hasettled ht
        exact ⟨t', .cons hv' hrest', ht'⟩
      obtain ⟨t', hbeyond, -⟩ := ih (.of_rest ha) hasettled ht
      cases hrest with
      | nil =>
          have htext : text' = taken ++ text' := List.append_cancel_right (ht.symm.trans ha)
          rw [← htext]
          exact hlast hs hsettled hv ht hF
      | cons hw hrest =>
          obtain ⟨taken', hu⟩ := (hrest.leads hmoves).rest_eq ht
          cases hbeyond with
          | cons hw' _ =>
              refine htwice hs hsettled hv ha hw hu ?_
              rw [hw']
              simp

/-- In front of a loop stands its first value or, if it reads none, what follows it. -/
lemma Parser.ReadsAll.avoids (hmoves : p.Moves) (heats : p.Eats) (hopens : p.Opens S)
    (hS : Start.Solid S) {vs : List α} (h : ReadsAll p vs s t) (hsettled : s.Settled)
    (hs : s.rest = text ++ old) (ht : t.rest = text' ++ old)
    (hnext : Follows new (Start.Avoids []) text') : Follows new (Start.Avoids []) text := by
  cases h with
  | nil => rwa [List.append_cancel_right (hs.symm.trans ht)]
  | cons hv hrest =>
      obtain ⟨taken, ha⟩ := (hrest.leads hmoves).rest_eq ht
      exact (reaches_old_of_done hopens heats hsettled hs hv ha).avoids hS

lemma transfers_many (hmoves : p.Moves) (heats : p.Eats) (hnil : ∀ line, p ⟨[], line⟩ = .miss)
    (hend : p.EndsSettled) (htwice : TransfersTwice old new p)
    (hlast : p.Transfers old new Cursor.Settled F)
    (hstop : ∀ ⦃text s s'⦄, Matched old new text s s' → F text → p s' = .miss) :
    (many p).Transfers old new Cursor.Settled F := by
  intro text text' s s' vs t hs hsettled h ht hF
  obtain ⟨hreads, -⟩ := (many_eq_done heats hnil).mp h
  obtain ⟨t', hreads', ht'⟩ := hreads.transfers hmoves hend htwice hlast hs hsettled ht hF
  exact ⟨t', (many_eq_done heats hnil).mpr ⟨hreads', hstop ht' hF⟩, ht'⟩

end Leaves

section Chains

variable {op : Parser Operator} {expr : Parser NumExpr} {left : Nat} {lhs e : NumExpr}
  {P : Cursor → Prop}

/-- A chain goes on with an operator and an operand, or it ends where there is no operator or no
operand behind it. -/
lemma chainTail_eq_done (h : chainTail op expr left lhs s = .done e t) :
    ((e = lhs ∧ t = s) ∧ (op s = .miss ∨ ∃ o u, op s = .done o u ∧ expr u = .miss)) ∨
      ∃ n, left = n + 1 ∧
        (op >>= fun o => expr >>= fun rhs => chainTail op expr n (.op lhs o rhs)) s =
          .done e t := by
  rw [chainTail.eq_def] at h
  dsimp only at h
  split at h
  · next hop =>
      obtain ⟨rfl, rfl⟩ := Outcome.done.inj h
      exact .inl ⟨⟨rfl, rfl⟩, .inl hop⟩
  · cases h
  · next o u hop =>
      split at h
      · next hrhs =>
          obtain ⟨rfl, rfl⟩ := Outcome.done.inj h
          exact .inl ⟨⟨rfl, rfl⟩, .inr ⟨o, u, hop, hrhs⟩⟩
      · cases h
      · next rhs a hrhs =>
          split at h
          · cases h
          · next n =>
              refine .inr ⟨n, rfl, ?_⟩
              exact bind_eq_done.mpr ⟨o, u, hop, bind_eq_done.mpr ⟨rhs, a, hrhs, h⟩⟩

lemma chainTail_of_step {n : Nat}
    (h : (op >>= fun o => expr >>= fun rhs => chainTail op expr n (.op lhs o rhs)) s =
      .done e t) : chainTail op expr (n + 1) lhs s = .done e t := by
  obtain ⟨o, u, hop, h⟩ := bind_eq_done.mp h
  obtain ⟨rhs, a, hrhs, h⟩ := bind_eq_done.mp h
  rw [chainTail.eq_def]
  simp only [hop, hrhs, h]

lemma chainTail_of_miss (h : op s = .miss) : chainTail op expr left lhs s = .done lhs s := by
  rw [chainTail.eq_def]
  simp only [h]

/-- Signs that can be told from other starts and from one another. -/
structure Distinct (signs : List Char) : Prop where
  nodup : signs.Nodup
  solid : ∀ c ∈ signs, isSolid c ∧ c.isAlpha = false

lemma ne_feed_of_isSolid {c : Char} (h : isSolid c) : c ≠ '\n' := by
  rintro rfl
  revert h
  decide

lemma transfers_sign {α : Type} {signs : List (Char × α)} (hseam : Seam old new)
    (hT : Start.Solid T) (h : Distinct (signs.map Prod.fst)) :
    (sign signs).Transfers old new P (Follows new T) := by
  have hsolid (x : Char × α) (hx : x ∈ signs) := h.solid x.1 (List.mem_map_of_mem hx)
  have hopens (x : Char × α) (hx : x ∈ signs) :=
    opens_bind (opens_char (hsolid x hx).1 (hsolid x hx).2) fun _ => pure x.2
  refine (alternatives_map (fun x => .sign x.1) ?_ ?_ ?_).transfers
  · intro x hx
    exact transfers_padded_token hseam hT
      (tells_bind (tells_char x.1) fun _ => tells_pure x.2)
      (moves_bind (moves_char (ne_feed_of_isSolid (hsolid x hx).1)) fun _ => moves_pure x.2)
      ((eats_char x.1).bind fun _ => moves_pure x.2) (hopens x hx)
      (Start.solid_sign (hsolid x hx).1)
  · exact fun x hx => opens_padded (hopens x hx)
  · have hnodup := h.nodup.map fun _ _ hsign => Start.sign.inj hsign
    rwa [List.map_map] at hnodup

/-- A parser of expressions that end before the signs in `ends`. -/
structure ReadsExpr (old new ends : List Char) (expr : Parser NumExpr) : Prop where
  moves : expr.Moves
  eats : expr.Eats
  settled : expr.EndsSettled
  opens : expr.Opens Start.IsOperand
  transfers : expr.Transfers old new Anywhere (Follows new (Start.Avoids ends))

lemma Start.IsOperand.solid : Start.Solid Start.IsOperand := by
  rintro c (hdigit | hc)
  · exact isSolid_of_isAlphanum (by simp [Char.isAlphanum, hdigit])
  · simp only [List.mem_cons, List.not_mem_nil, or_false] at hc
    obtain rfl | rfl | rfl | rfl := hc <;> decide

lemma ReadsExpr.continues {ends : List Char} (h : ReadsExpr old new ends expr) :
    expr.Continues old new Start.IsOperand (Follows new (Start.Avoids ends)) :=
  ⟨h.moves, h.eats, h.opens, Start.IsOperand.solid,
    h.transfers.mono (fun _ _ => trivial) fun _ h => h⟩

lemma Start.Closing.avoids {ends : List Char} (hends : ']' ∉ ends) {x : Start} (h : x.Closing) :
    x.Avoids ends := by
  cases x with
  | nothing | word => trivial
  | sign c =>
      obtain rfl : c = ']' := h
      exact ⟨by decide, hends⟩

lemma Start.Avoids.mono {ends ends' : List Char} {x : Start} (h : x.Avoids ends)
    (hends : ends' ⊆ ends) : x.Avoids ends' := by
  cases x with
  | nothing | word => trivial
  | sign c => exact ⟨h.1, fun hc => h.2 (hends hc)⟩

section Chain

variable {signs : List (Char × Operator)} {ends : List Char}

lemma moves_sign_of_distinct {α : Type} {signs : List (Char × α)}
    (h : Distinct (signs.map Prod.fst)) : (sign signs).Moves := by
  apply moves_sign
  intro x hx
  exact ne_feed_of_isSolid (h.solid x.1 (List.mem_map_of_mem hx)).1

lemma endsSettled_sign {α : Type} {signs : List (Char × α)} : (sign signs).EndsSettled := by
  intro s v t h
  obtain ⟨p, hp, h⟩ := choice_eq_done h
  obtain ⟨x, -, rfl⟩ := List.mem_map.mp hp
  exact endsSettled_padded s v t h

/-- An operand and then the rest of a chain. The rest starts with a sign, or nothing of the chain
is left. -/
lemma transfers_operand_chainTail (hexpr : ReadsExpr old new ends expr)
    (hsigns : Distinct (signs.map Prod.fst)) (hends : ∀ c ∈ signs.map Prod.fst, c ∉ ends) {n : Nat}
    (htail : ∀ lhs, (chainTail (sign signs) expr n lhs).Transfers old new Cursor.Settled
      (Follows new (Start.Avoids (signs.map Prod.fst ++ ends)))) (f : NumExpr → NumExpr) :
    (expr >>= fun rhs => chainTail (sign signs) expr n (f rhs)).Transfers old new Anywhere
      (Follows new (Start.Avoids (signs.map Prod.fst ++ ends))) := by
  have hmoves := moves_sign_of_distinct hsigns
  refine transfers_bind hexpr.transfers (fun rhs => moves_chainTail hmoves hexpr.moves n _)
    (fun s v t _ h => hexpr.settled s v t h) (fun rhs => htail (f rhs)) ?_
  intro s v t w u text text' _ hv ht hw hu hnext _
  obtain ⟨⟨-, rfl⟩, -⟩ | ⟨m, -, hw⟩ := chainTail_eq_done hw
  · rw [List.append_cancel_right (ht.symm.trans hu)]
    exact hnext.mono fun x hx => hx.mono (List.subset_append_right _ _)
  · have hopens := opens_sign signs fun x hx => hsigns.solid x.1 (List.mem_map_of_mem hx)
    have hreaches := reaches_old_of_done (opens_bind hopens _)
      ((eats_sign signs).bind fun o => moves_bind hexpr.moves fun rhs =>
        moves_chainTail hmoves hexpr.moves m _) (hexpr.settled s v t hv) ht hw hu
    refine (hreaches.of_sign ?_).follows ?_
    · rintro name ⟨c, -, hc⟩
      cases hc
    · rintro x ⟨c, hc, rfl⟩
      exact ⟨(hsigns.solid c hc).1, hends c hc⟩

lemma transfers_chainTail (hseam : Seam old new) (hexpr : ReadsExpr old new ends expr)
    (hsigns : Distinct (signs.map Prod.fst)) (hends : ∀ c ∈ signs.map Prod.fst, c ∉ ends)
    (hclosing : ']' ∉ signs.map Prod.fst ++ ends) (left : Nat) (lhs : NumExpr) :
    (chainTail (sign signs) expr left lhs).Transfers old new Cursor.Settled
      (Follows new (Start.Avoids (signs.map Prod.fst ++ ends))) := by
  have hopens := opens_sign signs fun x hx => hsigns.solid x.1 (List.mem_map_of_mem hx)
  have hmoves := moves_sign_of_distinct hsigns
  have hstop {left : Nat} {lhs : NumExpr} {text : List Char} {s s' : Cursor}
      (hs : Matched old new text s s')
      (hnext : Follows new (Start.Avoids (signs.map Prod.fst ++ ends)) text) :
      chainTail (sign signs) expr left lhs s' = .done lhs s' := by
    apply chainTail_of_miss
    apply hopens.eq_miss
    rintro ⟨c, hc, hstart⟩
    have havoids := hs.start hseam (Start.solid_avoids _) (fun x hx => hx.avoids hclosing) hnext
    rw [hstart] at havoids
    exact havoids.2 (List.mem_append_left _ hc)
  induction left generalizing lhs with
  | zero =>
      intro text text' s s' e t hs _ h ht hnext
      obtain ⟨⟨rfl, rfl⟩, -⟩ | ⟨m, hm, -⟩ := chainTail_eq_done h
      · obtain rfl : text = text' := List.append_cancel_right (hs.rest_eq.symm.trans ht)
        exact ⟨s', hstop hs hnext, hs⟩
      · cases hm
  | succ left ih =>
      have hrest (o : Operator) : Parser.Continues old new Start.IsOperand
          (Follows new (Start.Avoids (signs.map Prod.fst ++ ends)))
          (expr >>= fun rhs => chainTail (sign signs) expr left (.op lhs o rhs)) :=
        { moves := moves_bind hexpr.moves fun rhs => moves_chainTail hmoves hexpr.moves left _
          eats := hexpr.eats.bind fun rhs => moves_chainTail hmoves hexpr.moves left _
          opens := opens_bind hexpr.opens _
          solid := Start.IsOperand.solid
          transfers := (transfers_operand_chainTail hexpr hsigns hends ih (.op lhs o ·)).mono
            (fun _ _ => trivial) fun _ h => h }
      have hstep := transfers_then (transfers_sign hseam (Start.solid_avoids []) hsigns)
        (endsSettled_sign.within Cursor.Settled) (fun _ => Start.Solid.follows) hrest
      intro text text' s s' e t hs hsettled h ht hnext
      obtain ⟨⟨rfl, rfl⟩, -⟩ | ⟨m, hm, h⟩ := chainTail_eq_done h
      · obtain rfl : text = text' := List.append_cancel_right (hs.rest_eq.symm.trans ht)
        exact ⟨s', hstop hs hnext, hs⟩
      · obtain rfl := Nat.succ.inj hm
        obtain ⟨t', h', ht'⟩ := hstep hs hsettled h ht hnext
        exact ⟨t', chainTail_of_step h', ht'⟩

/-- A chain of such expressions ends before its own signs, too. -/
lemma readsExpr_chain (signs : List (Char × Operator)) (hseam : Seam old new)
    (hexpr : ReadsExpr old new ends expr)
    (hsigns : Distinct (signs.map Prod.fst)) (hends : ∀ c ∈ signs.map Prod.fst, c ∉ ends)
    (hclosing : ']' ∉ signs.map Prod.fst ++ ends) :
    ReadsExpr old new (signs.map Prod.fst ++ ends) (chain (sign signs) expr) where
  moves := moves_bind hexpr.moves fun e =>
    moves_chainTail (moves_sign_of_distinct hsigns) hexpr.moves _ e
  eats := hexpr.eats.bind fun e =>
    moves_chainTail (moves_sign_of_distinct hsigns) hexpr.moves _ e
  settled := endsSettled_chain hexpr.settled
  opens := opens_bind hexpr.opens _
  transfers := transfers_operand_chainTail hexpr hsigns hends
    (transfers_chainTail hseam hexpr hsigns hends hclosing _) id

end Chain

end Chains

end LogoStudio.Logo
