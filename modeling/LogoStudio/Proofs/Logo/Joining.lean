import LogoStudio.Proofs.Logo.Diagnostics
import LogoStudio.Proofs.Logo.Lookahead

/-!
# Joining and cutting programs

Statements have no marks at their ends, and each takes as much of the text as it can. A line end
between two programs keeps them apart all the same: the text of both is the program of all their
statements, the later ones further down. In the other direction, a text that is no program is
cut where the first statement stands that cannot be read. What stands before the cut is a
program, and the refusal names the line of the cut and shows what stands there.
-/
namespace LogoStudio.Logo

open LogoStudio.Logo.Parser

/-- All the statements are read from behind the first blanks to where no other one follows. -/
lemma statements_eq_done {s t : Cursor} {program : List Statement} :
    statements s = .done program t ↔
      ReadsAll (statement maxNesting) program (skipFrom false s.rest s.line) t ∧
        statement maxNesting t = .miss := by
  have hmany {a b : Cursor} : many (statement maxNesting) a = .done program b ↔
      ReadsAll (statement maxNesting) program a b ∧ statement maxNesting b = .miss :=
    many_eq_done (eats_statement maxNesting) (statement_nil maxNesting)
  have hsettled {b : Cursor}
      (h : ReadsAll (statement maxNesting) program (skipFrom false s.rest s.line) b) : b.Settled :=
    h.settled (endsSettled_statement maxNesting) (settled_skipFrom false s.rest s.line)
  constructor
  · intro h
    obtain ⟨_, a, ha, h⟩ := bind_eq_done.mp h
    obtain ⟨_, b, hb, h⟩ := bind_eq_done.mp h
    obtain ⟨_, c, hc, h⟩ := bind_eq_done.mp h
    obtain ⟨rfl, rfl⟩ := pure_eq_done.mp h
    obtain rfl : skipFrom false s.rest s.line = a := by simpa [blanks] using ha
    obtain rfl : skipFrom false b.rest b.line = c := by simpa [blanks] using hc
    have hreads := hmany.mp hb
    rwa [show skipFrom false b.rest b.line = b from hsettled hreads.1]
  · rintro ⟨hreads, hmiss⟩
    refine bind_eq_done.mpr ⟨(), _, rfl, bind_eq_done.mpr ⟨program, t, ?_, ?_⟩⟩
    · exact hmany.mpr ⟨hreads, hmiss⟩
    · exact bind_eq_done.mpr ⟨(), t, congrArg (Outcome.done ()) (hsettled hreads), rfl⟩

lemma manyUpTo_ne_miss {α : Type} (p : Parser α) (turns : Nat) (s : Cursor) :
    manyUpTo p turns s ≠ .miss := by
  induction turns generalizing s with
  | zero => simp [manyUpTo]
  | succ turns ih =>
      unfold manyUpTo
      split
      · simp
      · simp
      · next v t _ =>
          split
          · simp
          · next hmiss => exact absurd hmiss (ih t)
          · simp

lemma bind_eq_miss {α β : Type} {p : Parser α} {f : α → Parser β} {s : Cursor} :
    (p >>= f) s = .miss ↔ p s = .miss ∨ ∃ v t, p s = .done v t ∧ f v t = .miss := by
  rw [bind_apply]
  cases p s <;> simp

/-- There may be no statement at all, so reading a program always comes to a result, unless it
gives up. -/
lemma statements_ne_miss (s : Cursor) : statements s ≠ .miss := by
  intro h
  obtain h | ⟨_, a, -, h⟩ := bind_eq_miss.mp h
  · cases h
  obtain h | ⟨_, b, -, h⟩ := bind_eq_miss.mp h
  · exact manyUpTo_ne_miss _ _ _ h
  · cases h

lemma parse_eq_ok {source : String} {program : List Statement} :
    parse source = .ok program ↔
      ∃ line, statements ⟨source.toList, 1⟩ = .done program ⟨[], line⟩ := by
  unfold parse
  constructor
  · intro h
    split at h
    · next line hdone =>
        obtain rfl := Except.ok.inj h
        exact ⟨line, hdone⟩
    · cases h
    · cases h
    · cases h
  · rintro ⟨line, hdone⟩
    rw [hdone]

/-- A program is read from its text to the end. -/
lemma readsAll_of_parse {source : String} {program : List Statement}
    (h : parse source = .ok program) :
    ReadsAll (statement maxNesting) program (skipFrom false source.toList 1)
      ⟨[], 1 + source.toList.count '\n'⟩ := by
  obtain ⟨line, hdone⟩ := parse_eq_ok.mp h
  obtain ⟨hreads, -⟩ := statements_eq_done.mp hdone
  obtain ⟨taken, hrest, hline⟩ := (skipFrom_leads false source.toList 1).trans
    (hreads.leads (moves_statement maxNesting))
  obtain rfl : source.toList = taken := by simpa using hrest
  rwa [show line = 1 + source.toList.count '\n' from hline] at hreads

lemma parse_of_readsAll {source : String} {program : List Statement} {line : Nat}
    (h : ReadsAll (statement maxNesting) program (skipFrom false source.toList 1) ⟨[], line⟩) :
    parse source = .ok program :=
  parse_eq_ok.mpr ⟨line, statements_eq_done.mpr ⟨h, statement_nil maxNesting line⟩⟩

lemma Parser.ReadsAll.down {α : Type} {p : Parser α} {k : Nat} {f : α → α} (hp : Shifts k f p p)
    {vs : List α} {s t : Cursor} (h : ReadsAll p vs s t) :
    ReadsAll p (vs.map f) (s.down k) (t.down k) := by
  induction h with
  | nil => exact .nil
  | @cons v vs s t u hv _ ih =>
      refine .cons ?_ ih
      rw [hp s, hv]
      rfl

/-- At a line end, a program may be exchanged for the end of the text. -/
lemma seam_of_parse {source : String} {program : List Statement}
    (h : parse source = .ok program) : Seam [] ('\n' :: source.toList) where
  settled _ := rfl
  feed c hc := by simpa using hc.symm
  closing line := by
    have hstart : (Cursor.mk ('\n' :: source.toList) line).start =
        (Cursor.mk source.toList 1).start := start_line source.toList (line + 1) 1
    rw [hstart]
    have hreads := readsAll_of_parse h
    cases program with
    | nil =>
        generalize hskip : skipFrom false source.toList 1 = s at hreads
        cases hreads
        rw [Cursor.start, hskip]
        trivial
    | cons v rest =>
        cases hreads with
        | cons hv _ =>
            have hopens := opens_statement maxNesting (skipFrom false source.toList 1)
              (by rw [hv]; simp)
            rw [start_skipFrom ⟨source.toList, 1⟩] at hopens
            exact hopens.closing

/-- Two programs with a line end between them are one program. The statements of the second one
stand further down by the lines of the first one. -/
theorem parse_of_joined {first second : String} {p q : List Statement}
    (hfirst : parse first = .ok p) (hsecond : parse second = .ok q) :
    parse (first ++ "\n" ++ second) =
      .ok (p ++ q.map (Statement.down (1 + first.toList.count '\n'))) := by
  have hp : ReadsAll (statement maxNesting) p
      (skipFrom false (first.toList ++ '\n' :: second.toList) 1)
      (skipFrom false ('\n' :: second.toList) (1 + first.toList.count '\n')) := by
    refine readsAll_seam (t := ⟨[], _⟩) (seam_of_parse hsecond) ?_ rfl
    rw [List.append_nil]
    exact readsAll_of_parse hfirst
  have hq := (readsAll_of_parse hsecond).down
    (shifts_statement (k := 1 + first.toList.count '\n') maxNesting)
  have hbehind : (skipFrom false second.toList 1).down (1 + first.toList.count '\n') =
      skipFrom false ('\n' :: second.toList) (1 + first.toList.count '\n') := by
    rw [← skipFrom_down, Nat.add_comm 1]
    rfl
  rw [hbehind] at hq
  have htext : (first ++ "\n" ++ second).toList = first.toList ++ '\n' :: second.toList := by
    simp
  have hjoined := hp.append hq
  rw [← htext] at hjoined
  exact parse_of_readsAll hjoined

/-- The comment ends with its line, and neither the sign in it nor the definition below becomes
part of the call. -/
theorem parse_of_joined_definition :
    ∃ p q, parse "fd :n ; - 2" = .ok p ∧ parse "\nto f :m\nend" = .ok q ∧
      parse ("fd :n ; - 2" ++ "\n" ++ "\nto f :m\nend") = .ok (p ++ q.map (Statement.down 1)) ∧
      linesIn p = [1] ∧ linesIn (q.map (Statement.down 1)) = [3, 4] := by
  have hfirst : (parse "fd :n ; - 2").toOption.any (fun p => decide (linesIn p = [1])) = true := by
    decide +kernel
  have hsecond : (parse "\nto f :m\nend").toOption.any
      (fun q => decide (linesIn (q.map (Statement.down 1)) = [3, 4])) = true := by
    decide +kernel
  obtain ⟨p, hp, hlines⟩ := exists_parse_of_any hfirst
  obtain ⟨q, hq, hlines'⟩ := exists_parse_of_any hsecond
  exact ⟨p, q, hp, hq, parse_of_joined hp hq, of_decide_eq_true hlines, of_decide_eq_true hlines'⟩

/-- Blanks at the end of a text do not change what is left of it without blanks. -/
lemma trim_append_blank {c : Char} (hc : Text.isBlank c) (text : List Char) :
    Text.trim (text ++ [c]) = Text.trim text := by
  unfold Text.trim Text.dropBlanks
  rw [List.dropWhile_append]
  cases hdrop : text.dropWhile Text.isBlank with
  | nil => simp [hc]
  | cons d rest => simp [hc]

lemma trim_dropReturn (text : List Char) : Text.trim (Text.dropReturn text) = Text.trim text := by
  unfold Text.dropReturn
  split
  · next rest hreverse =>
      obtain rfl : text = rest.reverse ++ ['\r'] := by
        rw [← List.reverse_reverse text, hreverse, List.reverse_cons]
      rw [trim_append_blank (by decide)]
  · rfl

lemma trim_head_linesFrom (line text : List Char) :
    Text.trim ((Text.linesFrom line text).headD []) =
      Text.trim (line.reverse ++ text.takeWhile (· != '\n')) := by
  induction text generalizing line with
  | nil =>
      unfold Text.linesFrom
      cases line with
      | nil => rfl
      | cons c line => simp
  | cons c text ih =>
      unfold Text.linesFrom
      by_cases hfeed : c = '\n'
      · rw [if_pos hfeed, List.headD_cons, trim_dropReturn]
        simp [hfeed]
      · rw [if_neg hfeed, ih]
        simp [hfeed]

/-- What a message shows of a text: its first line without the blanks around it, of which at most
24 characters are kept. -/
def excerpt (text : List Char) : List Char :=
  let line := Text.trim (text.takeWhile (· != '\n'))
  if line.length ≤ 24 then line else line.take 24 ++ "...".toList

lemma snippet_eq (text : List Char) : snippet text = String.ofList (excerpt text) := by
  have hline : Text.trim ((Text.lines text).headD []) =
      Text.trim (text.takeWhile (· != '\n')) := trim_head_linesFrom [] text
  unfold snippet excerpt
  rw [hline]
  exact (apply_ite String.ofList _ _ _).symm

/-- A text is refused as not understood because some of it is left over. -/
lemma statements_of_notUnderstood {source : String} {line : Nat} {near : String}
    (h : parse source = .error (.notUnderstood line near)) :
    ∃ program rest, statements ⟨source.toList, 1⟩ = .done program ⟨rest, line⟩ ∧ rest ≠ [] ∧
      near = snippet rest := by
  unfold parse at h
  split at h
  · cases h
  · next program rest line' hne hdone =>
      obtain ⟨rfl, rfl⟩ := Problem.notUnderstood.inj (Except.error.inj h)
      exact ⟨program, rest, hdone, hne, rfl⟩
  · next hmiss => exact absurd hmiss (statements_ne_miss _)
  · cases h

/-- The end of a text may be cut off where no statement can be read. -/
lemma seam_of_settled {rest : List Char} {line : Nat} (h : Cursor.Settled ⟨rest, line⟩) :
    Seam rest [] where
  settled := settled_line h
  feed c hc := by simp at hc
  closing _ := trivial

lemma statement_miss_line {levels line : Nat} {rest : List Char}
    (h : statement levels ⟨rest, line⟩ = .miss) (line' : Nat) :
    statement levels ⟨rest, line'⟩ = .miss := by
  have hzero : statement levels ⟨rest, 0⟩ = .miss := by
    have hshift := shifts_statement (k := line) levels ⟨rest, 0⟩
    rw [show Cursor.down line ⟨rest, 0⟩ = ⟨rest, line⟩ by simp [Cursor.down], h] at hshift
    cases hread : statement levels ⟨rest, 0⟩ with
    | miss => rfl
    | done | tooDeep => simp [hread, Outcome.down] at hshift
  have hshift := shifts_statement (k := line') levels ⟨rest, 0⟩
  rw [hzero, show Cursor.down line' ⟨rest, 0⟩ = ⟨rest, line'⟩ by simp [Cursor.down]] at hshift
  exact hshift

/-- A text that is not understood is a program and then something at which no statement can be
read. The refusal comes from there: it has the line of that place and shows what stands there. -/
theorem refused_at_first_unread_statement {source : String} {line : Nat} {near : String}
    (h : parse source = .error (.notUnderstood line near)) :
    ∃ (read rest : String) (program : List Statement), source = read ++ rest ∧ rest ≠ "" ∧
      (∀ c ∈ rest.toList.head?, c ∉ [' ', '\t', '\r', '\n']) ∧ parse read = .ok program ∧
      statements ⟨source.toList, 1⟩ = .done program ⟨rest.toList, line⟩ ∧
      (∀ l, statement maxNesting ⟨rest.toList, l⟩ = .miss) ∧
      line = 1 + read.toList.count '\n' ∧ near.toList = excerpt rest.toList := by
  obtain ⟨program, rest, hdone, hne, rfl⟩ := statements_of_notUnderstood h
  obtain ⟨hreads, hmiss⟩ := statements_eq_done.mp hdone
  have hsettled := hreads.settled (endsSettled_statement maxNesting)
    (settled_skipFrom false source.toList 1)
  obtain ⟨taken, htext, hline⟩ := (skipFrom_leads false source.toList 1).trans
    (hreads.leads (moves_statement maxNesting))
  dsimp only at hreads htext hline
  refine ⟨String.ofList taken, String.ofList rest, program, ?_, ?_, ?_, ?_, ?_, ?_, ?_, ?_⟩
  · rw [← String.ofList_append, ← htext, String.ofList_toList]
  · simpa using hne
  · intro c hc
    rw [String.toList_ofList] at hc
    obtain ⟨tail, rfl⟩ := List.head?_eq_some_iff.mp hc
    simpa [isSpace, and_assoc] using hsettled.isSpace_head
  · rw [htext] at hreads
    have hcut := readsAll_seam (seam_of_settled hsettled) hreads rfl
    rw [List.append_nil, ← String.toList_ofList (l := taken)] at hcut
    exact parse_of_readsAll hcut
  · rwa [String.toList_ofList]
  · rw [String.toList_ofList]
    exact statement_miss_line hmiss
  · rwa [String.toList_ofList]
  · rw [String.toList_ofList, snippet_eq, String.toList_ofList]

lemma parse_eq_error_of_match {source : String} {problem : Problem}
    (h : (match parse source with
      | .error found => decide (found = problem)
      | .ok _ => false) = true) : parse source = .error problem := by
  split at h
  · next hparse => rw [hparse, of_decide_eq_true h]
  · cases h

/-- The call of `rt` is understood without its bracket. What is wrong with the bracket is
reported for the second line, and of this line 24 characters are shown. -/
theorem refused_at_stray_bracket :
    parse "fd 1 ; ]\n\trt [ 2 and what follows it there\nend" =
        .error (.notUnderstood 2 "[ 2 and what follows it ...") ∧
      ∃ (read rest : String) (program : List Statement),
        "fd 1 ; ]\n\trt [ 2 and what follows it there\nend" = read ++ rest ∧ rest ≠ "" ∧
        (∀ c ∈ rest.toList.head?, c ∉ [' ', '\t', '\r', '\n']) ∧ parse read = .ok program ∧
        statements ⟨"fd 1 ; ]\n\trt [ 2 and what follows it there\nend".toList, 1⟩ =
          .done program ⟨rest.toList, 2⟩ ∧
        (∀ l, statement maxNesting ⟨rest.toList, l⟩ = .miss) ∧
        2 = 1 + read.toList.count '\n' ∧
        "[ 2 and what follows it ...".toList = excerpt rest.toList := by
  have hparse : parse "fd 1 ; ]\n\trt [ 2 and what follows it there\nend" =
      .error (.notUnderstood 2 "[ 2 and what follows it ...") :=
    parse_eq_error_of_match (by decide +kernel)
  exact ⟨hparse, refused_at_first_unread_statement hparse⟩

end LogoStudio.Logo
