import LogoStudio.CommandLine.Program
import LogoStudio.Proofs.Report.Channels

/-!
# The verdict on a run

A run that goes wrong says so in its events: by an error, or by the end of its time. The report
on the events keeps three notes about that, its kind and two flags, and the program looks at
them in turn when everything else is done. Together they forget nothing and add nothing: the
program ends well exactly if no event says otherwise, or if a picture cannot be saved. The
messages of the errors stand in the text of the report, one after the other. Only a list that
starts with an error leaves out the errors of the other kind.
-/
namespace LogoStudio

namespace Text

/-- The parts stand in a text one after the other. -/
def HoldsInOrder : List String → List Char → Prop
  | [], _ => True
  | part :: parts, text =>
      ∃ before after, text = before ++ part.toList ++ after ∧ HoldsInOrder parts after

lemma HoldsInOrder.append_left {parts : List String} {text : List Char}
    (h : HoldsInOrder parts text) (lead : List Char) : HoldsInOrder parts (lead ++ text) := by
  cases parts with
  | nil => trivial
  | cons part parts =>
      obtain ⟨before, after, rfl, hafter⟩ := h
      exact ⟨lead ++ before, after, by simp, hafter⟩

/-- The first line of some joined lines is followed by the others, perhaps after a break. -/
lemma exists_intercalate_cons (line : String) (lines : List String) :
    ∃ sep, ("\n".intercalate (line :: lines)).toList =
      line.toList ++ (sep ++ ("\n".intercalate lines).toList) := by
  cases lines with
  | nil => exact ⟨[], by simp⟩
  | cons next lines => exact ⟨['\n'], by simp [String.intercalate_cons_cons]⟩

/-- If each note is a part of its line, the notes stand in the joined lines in their order,
whatever other lines there are. -/
lemma holdsInOrder_intercalate {α : Type} {line note : α → Option String}
    (h : ∀ x n, note x = some n → ∃ l, line x = some l ∧ n.toList <:+: l.toList) (xs : List α) :
    HoldsInOrder (xs.filterMap note) ("\n".intercalate (xs.filterMap line)).toList := by
  induction xs with
  | nil => trivial
  | cons x xs ih =>
      cases hline : line x with
      | none =>
          have hnote : note x = none := by
            by_contra hsome
            obtain ⟨n, hn⟩ := Option.ne_none_iff_exists'.mp hsome
            obtain ⟨l, hl, -⟩ := h x n hn
            rw [hl] at hline
            cases hline
          rw [List.filterMap_cons_none hnote, List.filterMap_cons_none hline]
          exact ih
      | some l =>
          obtain ⟨sep, htext⟩ := exists_intercalate_cons l (xs.filterMap line)
          rw [List.filterMap_cons_some hline, htext]
          cases hnote : note x with
          | none =>
              rw [List.filterMap_cons_none hnote]
              exact (ih.append_left sep).append_left l.toList
          | some n =>
              rw [List.filterMap_cons_some hnote]
              obtain ⟨l', hl, before, after, hpart⟩ := h x n hnote
              obtain rfl : l' = l := Option.some.inj (hl.symm.trans hline)
              refine ⟨before, after ++ (sep ++ ("\n".intercalate (xs.filterMap line)).toList), ?_,
                (ih.append_left sep).append_left after⟩
              rw [← hpart]
              simp only [List.append_assoc]

end Text

/-- Whether an event says that its run did not end well. -/
def Event.isFailure (e : Event) : Bool := e.isError || e.cutsOff

/-- The message of an error that a list of a kind is about; a normal list is about all. -/
def Event.noteFor? : ReportKind → Event → Option String
  | .normal, .compileError _ note | .compileError, .compileError _ note => some note
  | .normal, .runtimeError note | .runtimeError, .runtimeError note => some note
  | _, _ => none

/-- The line of an event in the text of a list of a kind. -/
def Event.lineFor? : ReportKind → Event → Option String
  | .normal, .print value | .normal, .message _ value => some value
  | .normal, .compileError line note | .compileError, .compileError line note =>
      some (compileErrorLine line note)
  | .normal, .runtimeError note | .runtimeError, .runtimeError note => some note
  | _, _ => none

/-- The kind of a list of events, by the first of them. -/
def ReportKind.ofFirst : List Event → ReportKind
  | .compileError .. :: _ => .compileError
  | .runtimeError _ :: _ => .runtimeError
  | _ => .normal

/-- The message of an error is a part of its line. -/
lemma Event.infix_lineFor? (kind : ReportKind) (e : Event) (note : String)
    (h : e.noteFor? kind = some note) :
    ∃ line, e.lineFor? kind = some line ∧ note.toList <:+: line.toList := by
  have hcompile (line : UInt32) : note.toList <:+: (compileErrorLine line note).toList := by
    refine ⟨("Line " ++ Number.digitText line.toNat ++ ": ").toList, [], ?_⟩
    simp [compileErrorLine]
  cases e with
  | compileError line _ =>
      cases kind <;> cases h
      · exact ⟨_, rfl, hcompile line⟩
      · exact ⟨_, rfl, hcompile line⟩
  | runtimeError _ =>
      cases kind <;> cases h
      · exact ⟨_, rfl, List.infix_rfl⟩
      · exact ⟨_, rfl, List.infix_rfl⟩
  | _ => cases kind <;> cases h

lemma compileErrors_eq (events : List Event) :
    Report.compileErrors events = events.filterMap (Event.lineFor? .compileError) := by
  unfold Report.compileErrors
  congr 1
  funext e
  cases e <;> rfl

lemma runtimeErrors_eq (events : List Event) :
    Report.runtimeErrors events = events.filterMap (Event.lineFor? .runtimeError) := by
  unfold Report.runtimeErrors
  congr 1
  funext e
  cases e <;> rfl

lemma textLines_eq (events : List Event) :
    textLines events = events.filterMap (Event.lineFor? .normal) := by
  unfold textLines
  congr 1
  funext e
  cases e <;> rfl

/-- The text of a report joins the lines of its kind. -/
lemma text_ofEvents (events : List Event) (screens : Screens) :
    (Report.ofEvents events screens).1.text =
      "\n".intercalate (events.filterMap (Event.lineFor? (.ofFirst events))) := by
  cases events with
  | nil => rfl
  | cons first rest =>
      cases first with
      | compileError line note =>
          have hlines := compileErrors_eq (.compileError line note :: rest)
          exact congrArg "\n".intercalate hlines
      | runtimeError note =>
          have hlines := runtimeErrors_eq (.runtimeError note :: rest)
          exact congrArg "\n".intercalate hlines
      | _ =>
          rw [ofEvents_of_isDrawn rfl, textLines_eq]
          rfl

/-- The messages of the errors that a list is about stand in the text of its report. -/
lemma holdsInOrder_text (events : List Event) (screens : Screens) :
    Text.HoldsInOrder (events.filterMap (Event.noteFor? (.ofFirst events)))
      (Report.ofEvents events screens).1.text.toList := by
  rw [text_ofEvents]
  exact Text.holdsInOrder_intercalate (Event.infix_lineFor? (.ofFirst events)) events

namespace CommandLine

lemma ofReport?_normal (file text : String) (timedOut failed : Bool) :
    Failure.ofReport? file ⟨.normal, text, timedOut, failed⟩ = none ↔
      failed = false ∧ timedOut = false := by
  cases failed <;> cases timedOut <;> simp [Failure.ofReport?]

/-- A report amounts to a failure exactly if one of its events is a failure. -/
lemma ofReport?_eq_none_iff (file : String) (events : List Event) (screens : Screens) :
    Failure.ofReport? file (Report.ofEvents events screens).1 = none ↔
      ∀ e ∈ events, e.isFailure = false := by
  have hdrawn (h : isDrawn events = true) :
      Failure.ofReport? file (Report.ofEvents events screens).1 = none ↔
        ∀ e ∈ events, e.isFailure = false := by
    rw [ofEvents_of_isDrawn h, ofReport?_normal]
    simp only [List.any_eq_false, Event.isFailure, Bool.or_eq_false_iff, Bool.not_eq_true,
      forall_and]
  cases events with
  | nil => simp [Report.ofEvents, Report.empty, Failure.ofReport?]
  | cons first rest =>
      cases first with
      | compileError line note =>
          have hfirst : (Event.compileError line note).isFailure = true := rfl
          simp [Report.ofEvents, Failure.ofReport?, hfirst]
      | runtimeError note =>
          have hfirst : (Event.runtimeError note).isFailure = true := rfl
          simp [Report.ofEvents, Failure.ofReport?, hfirst]
      | _ => exact hdrawn rfl

namespace Host

section

variable {m : Type → Type} [Monad m] (host : Host m)

/-- The events of a program and its limit, before anything of them is shown. -/
def produce (a : Arguments) : ExceptT Failure m (List Event × Float) := do
  let source ← host.need a.file (.unreadable a.file)
  let config ← host.settings a.config
  let seconds := a.timeout.getD config.defaultTimeout
  let events ← host.events config source seconds (a.inputs.map Input.ofArgument)
    ⟨a.width, a.height⟩
  return (events, seconds)

/-- The end of the program: its pictures are saved, then it fails as its report says. -/
def conclude (a : Arguments) (report : Report) (screens : Screens) : ExceptT Failure m Unit := do
  host.savePicture a.turtlePng screens.turtle
  host.savePicture a.canvasPng screens.canvas
  match Failure.ofReport? a.file report with
  | some failure => throw failure
  | none => return

/-- The program shows the events that it produces, and ends with their report. -/
lemma run_eq [LawfulMonad m] (a : Arguments) :
    host.run a = (do
      let (events, seconds) ← host.produce a
      let blank := Raster.blank a.width a.height
      let (report, screens) := Report.ofEvents events ⟨some blank, some blank⟩
      host.printAll (if a.events then [Event.listText events] else reportLines report seconds)
      host.conclude a report screens) := by
  simp only [produce, bind_assoc, pure_bind]
  rfl

end

section

variable {σ α β : Type} {s s' : σ}

lemma run_bind_of_ok {x : ExceptT Failure (StateM σ) α} {a : α} (h : x.run.run s = (.ok a, s'))
    (f : α → ExceptT Failure (StateM σ) β) : (x >>= f).run.run s = (f a).run.run s' := by
  rw [ExceptT.run_bind, StateT.run_bind, h]
  rfl

lemma run_bind_of_error {x : ExceptT Failure (StateM σ) α} {failure : Failure}
    (h : x.run.run s = (.error failure, s')) (f : α → ExceptT Failure (StateM σ) β) :
    (x >>= f).run.run s = (.error failure, s') := by
  rw [ExceptT.run_bind, StateT.run_bind, h]
  rfl

variable (host : Host (StateM σ))

/-- Saving a picture does not fail in any other way than that the picture is not saved. -/
lemma savePicture_cases (file : Option String) (picture : Option Raster) (s : σ) :
    ∃ s', (host.savePicture file picture).run.run s = (.ok (), s') ∨
      ∃ path, (host.savePicture file picture).run.run s = (.error (.unwritable path), s') := by
  unfold savePicture
  split
  · next path raster =>
      split
      · exact ⟨s, .inr ⟨path, rfl⟩⟩
      · have hanswers :
            (liftM (host.save path raster) : ExceptT Failure (StateM σ) Bool).run.run s =
              (.ok ((host.save path raster).run s).1, ((host.save path raster).run s).2) := rfl
        dsimp only
        rw [run_bind_of_ok hanswers]
        split
        · exact ⟨_, .inl rfl⟩
        · exact ⟨_, .inr ⟨path, rfl⟩⟩
  · exact ⟨s, .inl rfl⟩

/-- The program ends as its report says, unless a picture is not saved. -/
lemma conclude_cases (a : Arguments) (report : Report) (screens : Screens) (s : σ) :
    ((host.conclude a report screens).run.run s).1 =
        (Failure.ofReport? a.file report).elim (.ok ()) .error ∨
      ∃ path, ((host.conclude a report screens).run.run s).1 = .error (.unwritable path) := by
  unfold conclude
  obtain ⟨s₁, hturtle | ⟨path, hturtle⟩⟩ := host.savePicture_cases a.turtlePng screens.turtle s
  · obtain ⟨s₂, hcanvas | ⟨path, hcanvas⟩⟩ := host.savePicture_cases a.canvasPng screens.canvas s₁
    · left
      rw [run_bind_of_ok hturtle, run_bind_of_ok hcanvas]
      cases Failure.ofReport? a.file report <;> rfl
    · right
      rw [run_bind_of_ok hturtle, run_bind_of_error hcanvas]
      exact ⟨path, rfl⟩
  · right
    rw [run_bind_of_error hturtle]
    exact ⟨path, rfl⟩

/-- Once its events are there, the program ends as their report says, unless a picture is not
saved. -/
lemma run_cases {a : Arguments} {events : List Event} {seconds : Float}
    (h : (host.produce a).run.run s = (.ok (events, seconds), s')) :
    ∃ screens, ((host.run a).run.run s).1 =
        (Failure.ofReport? a.file (Report.ofEvents events screens).1).elim (.ok ()) .error ∨
      ∃ path, ((host.run a).run.run s).1 = .error (.unwritable path) := by
  let blank := Raster.blank a.width a.height
  let shown := Report.ofEvents events ⟨some blank, some blank⟩
  have hprint (lines : List String) :
      (liftM (host.printAll lines) : ExceptT Failure (StateM σ) Unit).run.run s' =
        (.ok (), ((host.printAll lines).run s').2) := rfl
  refine ⟨⟨some blank, some blank⟩, ?_⟩
  rw [run_eq, run_bind_of_ok h]
  dsimp only
  rw [run_bind_of_ok (hprint _)]
  exact host.conclude_cases a shown.1 shown.2 _

end

end Host

/-- No failure is hidden and none is invented. Whatever the rasters held, the report on a list of
events amounts to a failure exactly if one of them is an error or the end of the time, wherever
it stands. The messages of the errors stand in the text in their order: all of them, or, if the
list starts with an error, those of its kind. So a program whose events are there fails if one of
them is a failure, and otherwise it ends well or a picture is not saved. -/
theorem failures_neither_hidden_nor_invented :
    (∀ (events : List Event) (screens : Screens) (file : String),
      (Failure.ofReport? file (Report.ofEvents events screens).1 = none ↔
        ∀ e ∈ events, e.isFailure = false) ∧
      Text.HoldsInOrder (events.filterMap (Event.noteFor? (.ofFirst events)))
        (Report.ofEvents events screens).1.text.toList) ∧
    ∀ (σ : Type) (host : Host (StateM σ)) (a : Arguments) (s s' : σ) (events : List Event)
      (seconds : Float), (host.produce a).run.run s = (.ok (events, seconds), s') →
      if events.any Event.isFailure then
        ∃ failure, ((host.run a).run.run s).1 = .error failure
      else ((host.run a).run.run s).1 = .ok () ∨
        ∃ path, ((host.run a).run.run s).1 = .error (.unwritable path) := by
  refine ⟨fun events screens file => ⟨ofReport?_eq_none_iff file events screens,
    holdsInOrder_text events screens⟩, fun σ host a s s' events seconds h => ?_⟩
  obtain ⟨screens, hrun⟩ := host.run_cases h
  have hverdict := ofReport?_eq_none_iff a.file events screens
  split
  · next hfails =>
      obtain hrun | ⟨path, hrun⟩ := hrun
      · cases hfailure : Failure.ofReport? a.file (Report.ofEvents events screens).1 with
        | none =>
            obtain ⟨e, he, hfail⟩ := List.any_eq_true.mp hfails
            rw [hverdict.mp hfailure e he] at hfail
            cases hfail
        | some failure =>
            rw [hfailure] at hrun
            exact ⟨failure, hrun⟩
      · exact ⟨.unwritable path, hrun⟩
  · next hfine =>
      rw [hverdict.mpr (by simpa using hfine)] at hrun
      exact hrun

/-- A host with one file, whose clock stands still. -/
def singleFile (source : String) : Host (StateM Unit) where
  read _ := return some source
  print _ := return
  save _ _ := return true
  drive limits session := return session.run Logo.interpreter limits (fun _ => 0) 20 0
  lastInstant := 1000000000000000000

/-- A program that prints a number and then fails in the middle of its run. -/
theorem failure_shown_after_print :
    let host := singleFile "print 1\nerror \"late\nprint 2"
    let a : Arguments := ⟨"late.logo", none, [], none, false, 2, 2, none, none⟩
    ∃ seconds s', (host.produce a).run.run () =
        (.ok ([.print "1", .runtimeError "Line 2: late"], seconds), s') ∧
      ∃ failure, ((host.run a).run.run ()).1 = .error failure := by
  intro host a
  have hevents : ((host.produce a).run.run ()).1.toOption.map Prod.fst =
      some [.print "1", .runtimeError "Line 2: late"] := by decide +kernel
  cases hproduce : (host.produce a).run.run () with
  | mk result s' =>
      rw [hproduce] at hevents
      cases result with
      | error failure => cases hevents
      | ok produced =>
          obtain ⟨events, seconds⟩ := produced
          obtain rfl := Option.some.inj hevents
          exact ⟨seconds, s', rfl,
            failures_neither_hidden_nor_invented.2 Unit host a () s' _ seconds hproduce⟩

end CommandLine

end LogoStudio
