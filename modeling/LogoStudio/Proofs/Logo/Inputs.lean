import LogoStudio.Proofs.Logo.Layout
import LogoStudio.Proofs.Logo.Meaning
import LogoStudio.Proofs.Logo.Progress
import LogoStudio.Proofs.Number.Counting
import Mathlib.Data.List.Forall2

/-!
# Inputs

The machine evaluates lowered expressions in its frames as the direct semantics evaluates
written ones in scopes. Inputs that fit the slots of a primitive are evaluated from left to
right before anything is shown, whatever mixture of numbers and words they are.
-/
namespace LogoStudio.Logo

def scopesOf (frames : List Frame) : List Scope := frames.map Frame.vars

lemma lookup?_eq (frames : List Frame) (name : String) :
    lookup? frames name = (scopesOf frames).findSome? (·.lookup name) := by
  rw [scopesOf, List.findSome?_map]
  rfl

lemma finite_neg (x : Float) : (do finite (-(← finite x))) = finite (-x) := by
  unfold finite
  by_cases hx : x.isFinite = true
  · rw [if_pos hx, pure_bind]
  · have hneg : ¬(-x).isFinite = true := by rwa [Number.isFinite_neg]
    rw [if_neg hx, if_neg hneg]
    rfl

/-- Lowering does not change what an expression evaluates to. -/
lemma eval_lower (frames : List Frame) (canvas : Option Size) (e : NumExpr) :
    e.lower.eval frames canvas = e.value (scopesOf frames) canvas := by
  induction e with
  | lit x => rfl
  | var v =>
      rewrite [NumExpr.lower, Expr.eval, NumExpr.value, lookup?_eq]
      rfl
  | neg e ih =>
      rw [NumExpr.value, ← ih]
      cases hlower : e.lower with
      | num x => simp only [NumExpr.lower, hlower, Expr.eval, finite_neg]
      | var name => simp only [NumExpr.lower, hlower, Expr.eval]
      | neg e' => simp only [NumExpr.lower, hlower, Expr.eval]
      | op l o r => simp only [NumExpr.lower, hlower, Expr.eval]
      | query q => simp only [NumExpr.lower, hlower, Expr.eval]
  | op l o r ihl ihr => rw [NumExpr.lower, Expr.eval, NumExpr.value, ihl, ihr]
  | query q => rfl

lemma Arg.fits_num_iff {arg : Arg} : arg.Fits .num ↔ ∃ e, arg = .num e := by
  cases arg <;> simp [Fits]

def Value.Fits : Value → Slot → Prop
  | .number _, .num | .number _, .any => True
  | .word _, .word | .word _, .any => True
  | _, _ => False

lemma Value.fits_num_iff {v : Value} : v.Fits .num ↔ ∃ x, v = .number x := by
  cases v <;> simp [Fits]

/-- Inputs that fit have values that fit. -/
lemma inputValues_fits {scopes : List Scope} {canvas : Option Size} {args : List Arg}
    {slots : List Slot} (h : List.Forall₂ Arg.Fits args slots) {answers rest : List Input}
    {values : List Value}
    (hvalues : (inputValues scopes canvas args).outcome answers = (.ok values, rest)) :
    List.Forall₂ Value.Fits values slots := by
  induction h generalizing answers values with
  | nil =>
      obtain ⟨rfl, -⟩ : [] = values ∧ answers = rest := by simpa [inputValues] using hvalues
      exact .nil
  | @cons arg slot args slots hfits _ ih =>
      obtain ⟨v, middle, hv, hvalues⟩ := Eval.outcome_bind_eq_ok.mp hvalues
      obtain ⟨vs, last, hvs, hvalues⟩ := Eval.outcome_bind_eq_ok.mp hvalues
      obtain ⟨rfl, rfl⟩ : v :: vs = values ∧ last = rest := by simpa using hvalues
      refine .cons ?_ (ih hvs)
      cases arg with
      | num e =>
          obtain ⟨x, _, -, hv⟩ := Eval.outcome_bind_eq_ok.mp hv
          obtain ⟨rfl, -⟩ : Value.number x = v ∧ _ := by simpa using hv
          cases slot <;> exact hfits
      | word w =>
          obtain ⟨rfl, -⟩ : Value.word w.name = v ∧ answers = middle := by
            simpa [Arg.value] using hv
          cases slot <;> exact hfits

namespace Eval

/-- Two evaluations that go on alike from every value they can meet are the same. -/
lemma bind_congr_of_outcome {α β : Type} {x : Eval α} {f g : α → Eval β}
    (h : ∀ a answers rest, x.outcome answers = (.ok a, rest) → f a = g a) :
    x >>= f = x >>= g := by
  funext answers
  change (x >>= f).outcome answers = (x >>= g).outcome answers
  rw [outcome_bind, outcome_bind]
  rcases hx : x.outcome answers with ⟨_ | a, rest⟩
  · rfl
  · dsimp only
    rw [h a answers rest hx]

end Eval

namespace Machine

/-- The machine after a primitive that leaves a turtle and shows events, oldest first. -/
def presented (m : Machine) (result : Turtle × List Event) : Machine :=
  { m with turtle := result.1, shown := result.2.reverse ++ m.shown }

lemma eval_eq (m : Machine) (e : NumExpr) :
    m.eval e.lower = e.value (scopesOf m.frames) m.canvas := eval_lower m.frames m.canvas e

def number? : Value → Option Float
  | .number x => some x
  | .word _ => none

/-- Where every slot takes a number, the machine evaluates all inputs before it acts. -/
lemma numberInputs_eq (m : Machine) (p : Primitive) {args : List Arg} {n : Nat}
    (h : List.Forall₂ Arg.Fits args (List.replicate n .num)) :
    m.numberInputs p ((args.map Arg.lower).zip (List.replicate n .num)) =
      (List.filterMap number?) <$> inputValues (scopesOf m.frames) m.canvas args := by
  induction n generalizing args with
  | zero =>
      obtain rfl := List.forall₂_nil_right_iff.mp h
      rfl
  | succ n ih =>
      obtain ⟨arg, rest, hfits, hrest, rfl⟩ := List.forall₂_cons_right_iff.mp h
      cases arg with
      | word w => cases hfits
      | num e =>
          simp only [List.map_cons, List.replicate_succ, List.zip_cons_cons, Arg.lower,
            numberInputs, numberInput, ih hrest, eval_eq, inputValues, Arg.value, map_bind,
            bind_assoc, pure_bind, bind_map_left, map_pure]
          rfl

/-- A text input is the text of its value. -/
lemma textInput_eq (m : Machine) (p : Primitive) {args : List Actual} {place : Nat} {arg : Arg}
    (h : args[place]? = some arg.lower) :
    m.textInput p args place = Value.text <$> arg.value (scopesOf m.frames) m.canvas := by
  unfold textInput
  rw [h]
  cases arg with
  | num e =>
      simp only [Arg.lower, eval_eq, Arg.value, map_bind, map_pure]
      rfl
  | word w => rfl

lemma moved_eq (m : Machine) (move : Turtle × Option TurtleLine) :
    m.moved move = m.presented (drawn move) := by
  obtain ⟨turtle, _ | line⟩ := move <;> rfl

/-- A primitive whose slots all take numbers evaluates its inputs and then performs. -/
lemma primitive_eq_of_numbers (m : Machine) {p : Primitive} (hp : p ≠ .wait)
    (hslots : ∀ slot ∈ p.slots, slot = .num) {args : List Arg}
    (h : List.Forall₂ Arg.Fits args p.slots) :
    m.primitive p (args.map Arg.lower) = m.presented <$>
      (do p.perform m.turtle (← inputValues (scopesOf m.frames) m.canvas args)) := by
  have hnums : p.slots = List.replicate p.slots.length .num := List.eq_replicate_of_mem hslots
  have hfits := h
  rw [hnums] at hfits
  unfold primitive
  rw [hnums, numberInputs_eq m p hfits, bind_map_left, map_bind]
  apply Eval.bind_congr_of_outcome
  intro values answers rest hvalues
  have hshape := inputValues_fits h hvalues
  clear hfits hnums hvalues h
  cases p
  all_goals
    simp only [Primitive.slots, List.forall₂_cons_right_iff, List.forall₂_nil_right_iff,
      Value.fits_num_iff, existsAndEq, true_and] at hshape hslots
  case wait => exact absurd rfl hp
  case print | error | setFont | setTextAlign | text => simp at hslots
  case penUp | penDown | clear =>
    obtain rfl := hshape
    rfl
  case home =>
    obtain rfl := hshape
    exact congrArg pure (moved_eq m _)
  case forward | back =>
    obtain ⟨d, rfl⟩ := hshape
    exact congrArg pure (moved_eq m _)
  case left | right | setOpacity =>
    obtain ⟨a, rfl⟩ := hshape
    rfl
  case arc =>
    obtain ⟨radius, degrees, rfl⟩ := hshape
    exact congrArg pure (foldl_emit _ m)
  case setColor =>
    obtain ⟨b, g, r, rfl⟩ := hshape
    rfl
  case fillCircle | frameCircle =>
    obtain ⟨r, y, x, rfl⟩ := hshape
    simp only [Primitive.perform, map_bind, map_pure]
    rfl
  case setFillColor | setLineColor | fillRect | frameRect | line =>
    obtain ⟨w, z, y, x, rfl⟩ := hshape
    rfl
  case setPixel =>
    obtain ⟨a, b, g, r, y, x, rfl⟩ := hshape
    rfl

/-- A primitive evaluates its inputs from left to right and then performs. -/
lemma primitive_eq (m : Machine) {p : Primitive} (hp : p ≠ .wait) {args : List Arg}
    (h : List.Forall₂ Arg.Fits args p.slots) :
    m.primitive p (args.map Arg.lower) = m.presented <$>
      (do p.perform m.turtle (← inputValues (scopesOf m.frames) m.canvas args)) := by
  by_cases hslots : ∀ slot ∈ p.slots, slot = .num
  · exact primitive_eq_of_numbers m hp hslots h
  · have htext : p = .print ∨ p = .error ∨ p = .setFont ∨ p = .setTextAlign ∨ p = .text := by
      revert hslots
      cases p <;> decide
    have hfirst (p : Primitive) (arg : Arg) : m.textInput p [arg.lower] 0 =
        Value.text <$> arg.value (scopesOf m.frames) m.canvas := textInput_eq m p rfl
    obtain rfl | rfl | rfl | rfl | rfl := htext
    · obtain ⟨arg, _, -, hrest, rfl⟩ := List.forall₂_cons_right_iff.mp h
      obtain rfl := List.forall₂_nil_right_iff.mp hrest
      change (do return m.emit (.print (← m.textInput .print [arg.lower] 0))) = _
      simp only [hfirst, inputValues, Primitive.perform, map_bind, bind_assoc, pure_bind,
        bind_map_left, map_pure]
      rfl
    · obtain ⟨arg, _, -, hrest, rfl⟩ := List.forall₂_cons_right_iff.mp h
      obtain rfl := List.forall₂_nil_right_iff.mp hrest
      change (do throw (Fault.user (← m.textInput .error [arg.lower] 0))) = _
      simp only [hfirst, inputValues, Primitive.perform, map_bind, bind_assoc, pure_bind,
        bind_map_left]
      rfl
    · obtain ⟨arg, _, -, hrest, rfl⟩ := List.forall₂_cons_right_iff.mp h
      obtain rfl := List.forall₂_nil_right_iff.mp hrest
      change (do return m.draw (.setFont (spaced (← m.textInput .setFont [arg.lower] 0)))) = _
      simp only [hfirst, inputValues, Primitive.perform, map_bind, bind_assoc, pure_bind,
        bind_map_left, map_pure]
      rfl
    · obtain ⟨arg, _, -, hrest, rfl⟩ := List.forall₂_cons_right_iff.mp h
      obtain rfl := List.forall₂_nil_right_iff.mp hrest
      change (do return m.draw (.setTextAlign (← align .setTextAlign
        (← m.textInput .setTextAlign [arg.lower] 0)))) = _
      simp only [hfirst, inputValues, Primitive.perform, map_bind, bind_assoc, pure_bind,
        bind_map_left, map_pure]
      rfl
    · obtain ⟨_, _, hx, ⟨_, _, hy, ⟨arg, _, -, hrest, rfl⟩, rfl⟩, rfl⟩ : _ := by
        simpa only [Primitive.slots, List.forall₂_cons_right_iff] using h
      obtain rfl := List.forall₂_nil_right_iff.mp hrest
      obtain ⟨x, rfl⟩ := Arg.fits_num_iff.mp hx
      obtain ⟨y, rfl⟩ := Arg.fits_num_iff.mp hy
      have hlast : m.textInput .text [.num x.lower, .num y.lower, arg.lower] 2 =
          Value.text <$> arg.value (scopesOf m.frames) m.canvas := textInput_eq m .text rfl
      have hnum (e : NumExpr) : (Arg.num e).lower = .num e.lower := rfl
      have hvalue (e : NumExpr) : (Arg.num e).value (scopesOf m.frames) m.canvas =
          Value.number <$> e.value (scopesOf m.frames) m.canvas := rfl
      simp only [primitive, Primitive.slots, List.map_cons, List.map_nil, hnum, hvalue, hlast,
        List.zip_cons_cons, List.zip_nil_right, numberInputs, numberInput, eval_eq, inputValues,
        Primitive.perform, map_bind, bind_assoc, pure_bind, bind_map_left, map_pure]
      rfl

/-- The inputs of a call are evaluated from left to right for its parameters. -/
lemma bindInputs_eq (m : Machine) {params : List Ident} {args : List Arg}
    (h : List.Forall₂ Arg.Fits args (List.replicate params.length .num)) :
    m.bindInputs ((params.map Ident.name).zip (args.filterMap Arg.expr?)) =
      inputScope (scopesOf m.frames) m.canvas params args := by
  induction params generalizing args with
  | nil =>
      obtain rfl := List.forall₂_nil_right_iff.mp h
      rfl
  | cons param params ih =>
      obtain ⟨arg, rest, hfits, hrest, rfl⟩ := List.forall₂_cons_right_iff.mp h
      obtain ⟨e, rfl⟩ := Arg.fits_num_iff.mp hfits
      have hinput : (Arg.num e :: rest).filterMap Arg.expr? =
          e.lower :: rest.filterMap Arg.expr? := rfl
      rw [hinput, List.map_cons, List.zip_cons_cons, bindInputs, ih hrest, eval_eq, inputScope]

end Machine

/-- A fault that the checks of a program rule out. -/
def Fault.IsRuledOut : Fault → Prop
  | .wrongInputs _ _ => True
  | .badInput name _ => name ≠ Primitive.setTextAlign.name
  | _ => False

namespace Eval

variable {α β : Type}

/-- An evaluation that meets no fault that the checks rule out. -/
def IsChecked (x : Eval α) : Prop :=
  ∀ answers fault rest, x.outcome answers = (.error fault, rest) → ¬fault.IsRuledOut

lemma isChecked_pure (a : α) : IsChecked (pure a : Eval α) := by
  intro answers fault rest h
  simp at h

lemma isChecked_throw {fault : Fault} (h : ¬fault.IsRuledOut) :
    IsChecked (throw fault : Eval α) := by
  intro answers fault' rest h'
  obtain ⟨rfl, -⟩ : fault = fault' ∧ answers = rest := by simpa using h'
  exact h

lemma IsChecked.bind {x : Eval α} {f : α → Eval β} (hx : x.IsChecked)
    (hf : ∀ a, (f a).IsChecked) : IsChecked (x >>= f) := by
  intro answers fault rest h
  obtain h | ⟨a, middle, -, h⟩ := outcome_bind_eq_error.mp h
  · exact hx answers fault rest h
  · exact hf a middle fault rest h

end Eval

open Eval

lemma isChecked_finite (x : Float) : (finite x).IsChecked := by
  unfold finite
  split
  · exact isChecked_pure x
  · exact isChecked_throw id

lemma isChecked_nextAnswer (q : Query) : (nextAnswer q).IsChecked := by
  intro answers fault rest h
  cases answers with
  | nil =>
      have hnone : (nextAnswer q).outcome [] = (.error (.noInput q.name), []) := rfl
      obtain rfl := Except.error.inj (Prod.mk.inj (hnone.symm.trans h)).1
      exact id
  | cons answer answers => cases h

lemma isChecked_query (canvas : Option Size) (q : Query) : (q.value canvas).IsChecked := by
  cases q with
  | prompt =>
      refine (isChecked_nextAnswer _).bind fun answer => ?_
      cases answer with
      | prompt s =>
          dsimp only
          split
          · exact isChecked_pure _
          · exact isChecked_throw id
      | confirm b => exact isChecked_throw id
      | interaction i => exact isChecked_throw id
  | confirm =>
      refine (isChecked_nextAnswer _).bind fun answer => ?_
      cases answer with
      | confirm b => exact isChecked_pure _
      | prompt s => exact isChecked_throw id
      | interaction i => exact isChecked_throw id
  | canvasWidth =>
      cases canvas with
      | none => exact isChecked_throw id
      | some size => exact isChecked_pure _
  | canvasHeight =>
      cases canvas with
      | none => exact isChecked_throw id
      | some size => exact isChecked_pure _

/-- No expression meets a fault that the checks rule out. -/
lemma isChecked_eval (frames : List Frame) (canvas : Option Size) (e : Expr) :
    (e.eval frames canvas).IsChecked := by
  induction e with
  | num x => exact isChecked_finite x
  | var name =>
      unfold Expr.eval
      split
      · exact isChecked_finite _
      · exact isChecked_throw id
  | neg e ih => exact ih.bind fun x => isChecked_finite _
  | op l o r ihl ihr =>
      refine ihl.bind fun x => ihr.bind fun y => ?_
      by_cases hdiv : o = .div ∧ y == 0
      · simp only [if_pos hdiv]
        exact (isChecked_throw id).bind fun _ => isChecked_finite _
      · simp only [if_neg hdiv]
        exact isChecked_finite _
  | query q => exact (isChecked_query canvas q).bind fun x => isChecked_finite x

lemma isChecked_inputValues (frames : List Frame) (canvas : Option Size) (args : List Arg) :
    (inputValues (scopesOf frames) canvas args).IsChecked := by
  induction args with
  | nil => exact isChecked_pure _
  | cons arg rest ih =>
      refine IsChecked.bind ?_ fun v => ih.bind fun vs => isChecked_pure _
      cases arg with
      | num e =>
          have hvalue := isChecked_eval frames canvas e.lower
          rw [eval_lower] at hvalue
          exact hvalue.bind fun x => isChecked_pure _
      | word w => exact isChecked_pure _

/-- A primitive on values that fit meets no fault that the checks rule out: only the name of
an alignment may still be refused. -/
lemma isChecked_perform (t : Turtle) {p : Primitive} {values : List Value}
    (h : List.Forall₂ Value.Fits values p.slots) : (p.perform t values).IsChecked := by
  have hcircle (r : Float) : (Machine.circle r).IsChecked :=
    (isChecked_finite _).bind fun _ => isChecked_pure _
  have halign (w : String) : (Machine.align .setTextAlign w).IsChecked := by
    unfold Machine.align
    split
    all_goals first
      | exact isChecked_pure _
      | exact isChecked_throw fun h => h rfl
  cases p
  all_goals
    simp only [Primitive.slots, List.forall₂_cons_right_iff, List.forall₂_nil_right_iff,
      Value.fits_num_iff, existsAndEq, true_and] at h
  case penUp | penDown | home | wait | clear =>
    obtain rfl := h
    exact isChecked_pure _
  case forward | back | left | right | setOpacity =>
    obtain ⟨d, rfl⟩ := h
    exact isChecked_pure _
  case print | setFont =>
    obtain ⟨v, -, rfl⟩ := h
    exact isChecked_pure _
  case error =>
    obtain ⟨v, -, rfl⟩ := h
    exact isChecked_throw id
  case setTextAlign =>
    obtain ⟨v, -, rfl⟩ := h
    exact (halign _).bind fun _ => isChecked_pure _
  case arc =>
    obtain ⟨radius, degrees, rfl⟩ := h
    exact isChecked_pure _
  case text =>
    obtain ⟨v, y, x, -, rfl⟩ := h
    exact isChecked_pure _
  case setColor =>
    obtain ⟨b, g, r, rfl⟩ := h
    exact isChecked_pure _
  case fillCircle | frameCircle =>
    obtain ⟨r, y, x, rfl⟩ := h
    exact (hcircle r).bind fun _ => isChecked_pure _
  case setFillColor | setLineColor | fillRect | frameRect | line =>
    obtain ⟨w, z, y, x, rfl⟩ := h
    exact isChecked_pure _
  case setPixel =>
    obtain ⟨a, b, g, r, y, x, rfl⟩ := h
    exact isChecked_pure _

/-- A primitive on inputs that fit meets no fault that the checks rule out. -/
lemma isChecked_primitive (m : Machine) {p : Primitive} {args : List Arg}
    (h : List.Forall₂ Arg.Fits args p.slots) :
    (m.primitive p (args.map Arg.lower)).IsChecked := by
  by_cases hp : p = .wait
  · subst hp
    obtain rfl := List.forall₂_nil_right_iff.mp h
    exact isChecked_pure _
  · rw [Machine.primitive_eq m hp h, map_bind]
    intro answers fault rest hfault
    obtain hfault | ⟨values, middle, hvalues, hfault⟩ := outcome_bind_eq_error.mp hfault
    · exact isChecked_inputValues m.frames m.canvas args answers fault rest hfault
    · rw [← bind_pure_comp] at hfault
      exact (isChecked_perform m.turtle (inputValues_fits h hvalues)).bind
        (fun _ => isChecked_pure _) middle fault rest hfault

end LogoStudio.Logo
