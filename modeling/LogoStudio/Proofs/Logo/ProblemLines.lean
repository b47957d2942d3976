import LogoStudio.Proofs.Logo.Overruns

/-!
# Where problems are reported

The problems that the checks of a program find are reported for lines of names in it, and a text
that cannot be read is refused at the first text that is left over: these are lines of the source
with text on them. A text over a limit is refused at the sign that goes over it. Since blanks
behind a bracket are skipped before the limit is looked at, such a bracket may be reported for a
later line, even for one behind the last.
-/
namespace LogoStudio.Logo

open LogoStudio.Logo.Parser

/-- A problem is reported for a line, and not because of a limit. -/
def Problem.FoundOn (line : Nat) (q : Problem) : Prop :=
  q.line = line ∧ ∀ line', q ≠ .tooDeep line'

section Checks

variable {q : Problem} {d : Definition} {taken : List String} {ds : List Definition}
  {procs : List Definition}

lemma foundOn_of_declare (h : q ∈ (declare taken ds).2) : ∃ d ∈ ds, q.FoundOn d.name.line := by
  induction ds generalizing taken with
  | nil => simp [declare] at h
  | cons d ds ih =>
      have hrest {taken : List String} (h : q ∈ (declare taken ds).2) :
          ∃ d' ∈ d :: ds, q.FoundOn d'.name.line := by
        obtain ⟨d', hd', hfound⟩ := ih h
        exact ⟨d', List.mem_cons_of_mem d hd', hfound⟩
      simp only [declare] at h
      split at h
      · obtain rfl | h := List.mem_cons.mp h
        · exact ⟨d, List.mem_cons_self, rfl, by simp⟩
        · exact hrest h
      · split at h
        · obtain rfl | h := List.mem_cons.mp h
          · exact ⟨d, List.mem_cons_self, rfl, by simp⟩
          · exact hrest h
        · exact hrest h

lemma mem_of_declare (h : d ∈ (declare taken ds).1) : d ∈ ds := by
  induction ds generalizing taken with
  | nil => simp [declare] at h
  | cons d' ds ih =>
      simp only [declare] at h
      split at h
      · exact List.mem_cons_of_mem d' (ih h)
      · split at h
        · exact List.mem_cons_of_mem d' (ih h)
        · obtain rfl | h := List.mem_cons.mp h
          · exact List.mem_cons_self
          · exact List.mem_cons_of_mem d' (ih h)

lemma foundOn_of_call {name : Ident} {args : List Arg} (h : q ∈ callProblems procs name args) :
    q.FoundOn name.line := by
  unfold callProblems at h
  split at h
  · obtain rfl := List.mem_singleton.mp h
    exact ⟨rfl, by simp⟩
  · split at h
    · obtain ⟨input, -, hinput⟩ := List.mem_filterMap.mp h
      unfold inputProblem? at hinput
      split at hinput
      · obtain rfl := Option.some.inj hinput
        exact ⟨rfl, by simp⟩
      · obtain rfl := Option.some.inj hinput
        exact ⟨rfl, by simp⟩
      · cases hinput
    · obtain rfl := List.mem_singleton.mp h
      exact ⟨rfl, by simp⟩

mutual
lemma foundOn_of_statement (s : Statement) (h : q ∈ s.callProblems procs) :
    ∃ line ∈ s.lines, q.FoundOn line := by
  cases s with
  | define => simp [Statement.callProblems] at h
  | call name args => exact ⟨name.line, List.mem_singleton_self _, foundOn_of_call h⟩
  | branch line cond body =>
      obtain ⟨line', hline', hfound⟩ := foundOn_of_statements body h
      exact ⟨line', List.mem_cons_of_mem line hline', hfound⟩
  | loop line count body =>
      obtain ⟨line', hline', hfound⟩ := foundOn_of_statements body h
      exact ⟨line', List.mem_cons_of_mem line hline', hfound⟩
  | make => simp [Statement.callProblems] at h

/-- The problems of calls are found on lines of the statements. -/
lemma foundOn_of_statements (statements : List Statement)
    (h : q ∈ callProblemsIn procs statements) : ∃ line ∈ linesIn statements, q.FoundOn line := by
  cases statements with
  | nil => simp [callProblemsIn] at h
  | cons first rest =>
      simp only [linesIn, List.mem_append]
      obtain h | h := List.mem_append.mp h
      · obtain ⟨line, hline, hfound⟩ := foundOn_of_statement first h
        exact ⟨line, .inl hline, hfound⟩
      · obtain ⟨line, hline, hfound⟩ := foundOn_of_statements rest h
        exact ⟨line, .inr hline, hfound⟩
end

/-- The problems of a program are found on its lines. -/
lemma foundOn_of_problemsOf {program : List Statement} (h : q ∈ problemsOf program) :
    ∃ line ∈ linesIn program, q.FoundOn line := by
  have hdefinition {d : Definition} (hd : d ∈ definitionsIn program) :=
    lines_definitionsIn program hd
  obtain h | h := List.mem_append.mp h
  · obtain h | h := List.mem_append.mp h
    · obtain ⟨d, hd, hfound⟩ := foundOn_of_declare h
      exact ⟨d.name.line, hdefinition hd _ List.mem_cons_self, hfound⟩
    · exact foundOn_of_statements program h
  · obtain ⟨d, hd, h⟩ := List.mem_flatMap.mp h
    obtain ⟨line, hline, hfound⟩ := foundOn_of_statements d.body h
    have hmem := List.mem_cons_of_mem d.name.line (List.mem_cons_of_mem d.endLine hline)
    exact ⟨line, hdefinition (mem_of_declare hd) line hmem, hfound⟩

end Checks

/-- A place in a source is on one of its lines, or behind the last line feed. -/
lemma Cursor.Leads.line_le {source : String} {t : Cursor} (h : Leads ⟨source.toList, 1⟩ t) :
    1 ≤ t.line ∧ t.line ≤ lineCount source + 1 := by
  by_cases hrest : t.rest = []
  · obtain ⟨taken, htext, hline⟩ := h
    rw [hrest, List.append_nil] at htext
    refine ⟨by rw [hline]; exact Nat.le_add_right 1 _, ?_⟩
    obtain rfl | ⟨init, c, rfl⟩ := List.eq_nil_or_concat taken
    · rw [hline]
      exact Nat.le_add_left 1 _
    · have hcount : [c].count '\n' ≤ 1 := List.count_le_length
      have hinit : Sees ⟨source.toList, 1⟩ (1 + init.count '\n') :=
        ⟨⟨[c], 1 + init.count '\n'⟩, ⟨init, by simpa using htext, rfl⟩, by simp, rfl⟩
      have hbefore := hinit.le_lineCount.2
      rw [hline, List.concat_eq_append, List.count_append]
      dsimp only
      omega
  · have hrange := Sees.le_lineCount ⟨t, h, hrest, rfl⟩
    exact ⟨hrange.1, Nat.le_succ_of_le hrange.2⟩

lemma Offender.text_ne_nil (k : Offender) : k.text ≠ [] := by
  cases k with
  | opening o => cases o <;> decide
  | operator o => simp [Offender.text]

lemma Offender.leads_reportedAt {k : Offender} {t : Cursor} (h : k.text <+: t.rest) :
    t.Leads (k.reportedAt t) := by
  unfold Offender.reportedAt
  split
  · obtain ⟨rest, hrest⟩ := h
    obtain ⟨text, line⟩ := t
    obtain rfl : '[' :: rest = text := hrest
    exact (@leads_of_append ['['] rest line (by decide)).trans (skipFrom_leads false rest line)
  · exact .refl t

/-- Where the problems of a source are reported. -/
structure Problem.Located (source : String) (problem : Problem) : Prop where
  /-- Lines count from one; at most, the line behind the last line feed is reported. -/
  range : 1 ≤ problem.line ∧ problem.line ≤ lineCount source + 1
  /-- All problems but those with a limit are reported for lines of the source. -/
  checked : (∀ line, problem ≠ .tooDeep line) → problem.line ≤ lineCount source
  /-- A problem with a limit is reported for the line of the opening or the operator that goes
  over the limit. Only behind a bracket blanks are skipped first, perhaps over several lines or
  to the end of the source. -/
  overrun : ∀ line, problem = .tooDeep line → ∃ k t,
    Overruns line maxNesting ⟨statements, ⟨source.toList, 1⟩⟩ k t ∧
      Cursor.Leads ⟨source.toList, 1⟩ t ∧ k.text <+: t.rest ∧
      (k ≠ .opening .bracket → t.line = line ∧ line ≤ lineCount source) ∧
      (k = .opening .bracket → (skipFrom false t.rest.tail t.line).line = line ∧
        ((skipFrom false t.rest.tail t.line).rest ≠ [] → line ≤ lineCount source))
  /-- There is no other line for which a limit could be reported. -/
  unique : ∀ line, problem = .tooDeep line → ∀ line' k t,
    Overruns line' maxNesting ⟨statements, ⟨source.toList, 1⟩⟩ k t → line' = line

section Located

variable {source : String} {line : Nat}

lemma located_of_sees {q : Problem} (hsees : Cursor.Sees ⟨source.toList, 1⟩ line)
    (hfound : q.FoundOn line) : q.Located source := by
  obtain ⟨rfl, hlimit⟩ := hfound
  have hrange := hsees.le_lineCount
  exact ⟨⟨hrange.1, Nat.le_succ_of_le hrange.2⟩, fun _ => hrange.2,
    fun line h => absurd h (hlimit line), fun line h => absurd h (hlimit line)⟩

lemma located_tooDeep (h : statements ⟨source.toList, 1⟩ = .tooDeep line) :
    (Problem.tooDeep line).Located source := by
  obtain ⟨k, t, hoverruns, hleads, hstands, hline⟩ := traced_statements _ line h
  have hreported := hleads.trans (Offender.leads_reportedAt hstands)
  have hle (hrest : (k.reportedAt t).rest ≠ []) : line ≤ lineCount source :=
    (Cursor.Sees.le_lineCount ⟨_, hreported, hrest, hline⟩).2
  refine ⟨?_, fun hlimit => absurd rfl (hlimit line), ?_, ?_⟩
  · rw [Problem.line, ← hline]
    exact hreported.line_le
  · rintro _ ⟨⟩
    refine ⟨k, t, hoverruns, hleads, hstands, ?_, ?_⟩
    · intro hk
      have hplace : k.reportedAt t = t := by
        unfold Offender.reportedAt
        split
        · exact absurd rfl hk
        · rfl
      rw [hplace] at hline hle
      refine ⟨hline, hle fun hrest => ?_⟩
      rw [hrest, List.prefix_nil] at hstands
      exact k.text_ne_nil hstands
    · rintro rfl
      exact ⟨hline, hle⟩
  · rintro _ ⟨⟩ line' k' t' hoverruns'
    exact Outcome.tooDeep.inj (hoverruns'.givesUp.symm.trans h)

/-- A source that cannot be read is refused at a line of it, or for going over a limit. -/
lemma located_of_parse {q : Problem} (h : parse source = .error q) : q.Located source := by
  unfold parse at h
  split at h
  · cases h
  · next program rest line hnil hdone =>
      obtain rfl := Except.error.inj h
      have hmoves : statements.Moves := moves_padded (moves_many (moves_statement maxNesting))
      exact located_of_sees ⟨_, hmoves _ _ _ hdone, hnil, rfl⟩ ⟨rfl, by simp⟩
  · obtain rfl := Except.error.inj h
    have hone : 1 ≤ lineCount source := Nat.le_max_right _ _
    exact ⟨⟨Nat.le_refl 1, Nat.le_succ_of_le hone⟩, fun _ => hone, by simp, by simp⟩
  · next line hdeep =>
      obtain rfl := Except.error.inj h
      exact located_tooDeep hdeep

/-- A text that goes over a limit has no other problems. -/
lemma compile_eq_error_of_tooDeep {text : List Char}
    (h : (match statements ⟨text, 1⟩ with
      | .tooDeep line' => decide (line' = line)
      | _ => false) = true) : compile (String.ofList text) = .error [.tooDeep line] := by
  unfold compile parse
  rw [String.toList_ofList]
  split at h
  · next line' hdeep => rw [hdeep, of_decide_eq_true h]
  · cases h

end Located

/-- Problems point into the source. Every problem of a source that does not compile is reported
for one of its lines, and one with a limit for the line of the sign that goes over the limit. Only
for a bracket it is the line of what follows the blanks behind it. -/
theorem located_of_compile {source : String} {problems : List Problem}
    (h : compile source = .error problems) : ∀ problem ∈ problems, problem.Located source := by
  intro problem hmem
  unfold compile at h
  split at h
  · next q hparse =>
      obtain rfl := Except.error.inj h
      obtain rfl := List.mem_singleton.mp hmem
      exact located_of_parse hparse
  · next program hparse =>
      dsimp only at h
      split at h
      · cases h
      · obtain rfl := Except.error.inj h
        obtain ⟨line, hline, hfound⟩ := foundOn_of_problemsOf (List.mem_mergeSort.mp hmem)
        exact located_of_sees (sees_of_parse hparse hline) hfound

/-- One parenthesis too many, on the second line. -/
theorem located_of_nested_parentheses :
    compile (String.ofList ("fd 1\nfd ".toList ++ List.replicate 33 '(')) =
        .error [.tooDeep 2] ∧
      (Problem.tooDeep 2).Located
        (String.ofList ("fd 1\nfd ".toList ++ List.replicate 33 '(')) := by
  have hcompile : compile (String.ofList ("fd 1\nfd ".toList ++ List.replicate 33 '(')) =
      .error [.tooDeep 2] := compile_eq_error_of_tooDeep (by decide +kernel)
  exact ⟨hcompile, located_of_compile hcompile _ List.mem_cons_self⟩

/-- One block too many is reported for a second line, though the source has one line only and all
its brackets stand on it. -/
theorem overrun_reported_behind_last_line :
    compile (String.ofList ((List.replicate 33 "repeat 1[".toList).flatten ++ ['\n'])) =
        .error [.tooDeep 2] ∧
      lineCount (String.ofList ((List.replicate 33 "repeat 1[".toList).flatten ++ ['\n'])) = 1 := by
  refine ⟨compile_eq_error_of_tooDeep (by decide +kernel), ?_⟩
  rw [lineCount, String.toList_ofList]
  decide +kernel

end LogoStudio.Logo
