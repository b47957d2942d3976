import LogoStudio.Logo.Grammar
import Mathlib.Tactic.Common

/-!
# Readings

How a parser is known to run from a set of places. One reading comes down to another: it
takes some text and goes on from behind it, or it gives up as too deep if what it reads
breaks a limit. Readings are put together from this in the order in which the parsers are.
-/
namespace LogoStudio.Logo.Parser

variable {α β : Type} {P Q R : Cursor → Prop} {allowed allowed' : Prop}

lemma bind_apply (p : Parser α) (f : α → Parser β) (s : Cursor) :
    (p >>= f) s = match p s with
      | .done value next => f value next
      | .miss => .miss
      | .tooDeep line => .tooDeep line := rfl

lemma orElse_apply (p q : Parser α) (s : Cursor) :
    orElse p q s = match p s with
      | .miss => q s
      | outcome => outcome := rfl

/-- At every place in `P`, `p` does what `q` does at some place in `Q`; or else the limits
are broken, and `p` gives up. -/
def Reduces (P Q : Cursor → Prop) (allowed : Prop) (p q : Parser α) : Prop :=
  ∀ s, P s → (allowed → ∃ t, Q t ∧ p s = q t) ∧ (¬allowed → ∃ line, p s = .tooDeep line)

/-- A parser misses at every place in `P`. -/
def Misses (P : Cursor → Prop) (p : Parser α) : Prop := ∀ s, P s → p s = .miss

lemma reduces_of_done {p : Parser α} {v : α} (h : ∀ s, P s → ∃ t, Q t ∧ p s = .done v t) :
    Reduces P Q True p (pure v) := by
  intro s hs
  refine ⟨fun _ => h s hs, ?_⟩
  intro hallowed
  exact absurd trivial hallowed

lemma reduces_tooDeep {p : Parser α} : Reduces P Q False (tooDeep : Parser α) p := by
  intro s _
  refine ⟨?_, fun _ => ⟨s.line, rfl⟩⟩
  intro hallowed
  exact hallowed.elim

namespace Reduces

lemma refl (p : Parser α) : Reduces P P True p p := by
  intro s hs
  refine ⟨fun _ => ⟨s, hs, rfl⟩, ?_⟩
  intro hallowed
  exact absurd trivial hallowed

lemma trans {p q r : Parser α} (h : Reduces P Q allowed p q) (h' : Reduces Q R allowed' q r) :
    Reduces P R (allowed ∧ allowed') p r := by
  intro s hs
  by_cases hallowed : allowed
  · obtain ⟨t, ht, hpq⟩ := (h s hs).1 hallowed
    rw [hpq]
    refine ⟨fun hboth => (h' t ht).1 hboth.2, ?_⟩
    intro hboth
    exact (h' t ht).2 fun hallowed' => hboth ⟨hallowed, hallowed'⟩
  · refine ⟨fun hboth => absurd hboth.1 hallowed, ?_⟩
    intro _
    exact (h s hs).2 hallowed

lemma of_iff {p q : Parser α} (h : Reduces P Q allowed p q) (hallowed : allowed ↔ allowed') :
    Reduces P Q allowed' p q := by
  rwa [propext hallowed] at h

/-- A limit that holds already can be left out. -/
lemma after {p q r : Parser α} (h : Reduces P Q True p q) (h' : Reduces Q R allowed q r) :
    Reduces P R allowed p r :=
  (h.trans h').of_iff (by simp)

lemma mono {P' Q' : Cursor → Prop} {p q : Parser α} (h : Reduces P Q allowed p q)
    (hP : ∀ s, P' s → P s) (hQ : ∀ s, Q s → Q' s) : Reduces P' Q' allowed p q := by
  intro s hs
  refine ⟨?_, (h s (hP s hs)).2⟩
  intro hallowed
  obtain ⟨t, ht, hpq⟩ := (h s (hP s hs)).1 hallowed
  exact ⟨t, hQ t ht, hpq⟩

lemma bind {p q : Parser α} (h : Reduces P Q allowed p q) (f : α → Parser β) :
    Reduces P Q allowed (p >>= f) (q >>= f) := by
  intro s hs
  constructor
  · intro hallowed
    obtain ⟨t, ht, hpq⟩ := (h s hs).1 hallowed
    exact ⟨t, ht, by rw [bind_apply, bind_apply, hpq]⟩
  · intro hallowed
    obtain ⟨line, hline⟩ := (h s hs).2 hallowed
    exact ⟨line, by rw [bind_apply, hline]⟩

/-- First read a value, then go on with it. -/
lemma seq {p : Parser α} {v : α} {f : α → Parser β} {r : Parser β}
    (h : Reduces P Q allowed p (pure v)) (h' : Reduces Q R allowed' (f v) r) :
    Reduces P R (allowed ∧ allowed') (p >>= f) r :=
  (h.bind f).trans h'

/-- First read a value that breaks no limit, then go on with it. -/
lemma step {p : Parser α} {v : α} {f : α → Parser β} {r : Parser β}
    (h : Reduces P Q True p (pure v)) (h' : Reduces Q R allowed (f v) r) :
    Reduces P R allowed (p >>= f) r :=
  (h.bind f).after h'

lemma map {p : Parser α} {v : α} (f : α → β) (h : Reduces P Q allowed p (pure v)) :
    Reduces P Q allowed (p >>= fun x => pure (f x)) (pure (f v)) :=
  h.bind fun x => pure (f x)

/-- The first parser of two is kept where it does not miss. -/
lemma orElse {p : Parser α} {v : α} (h : Reduces P Q allowed p (pure v)) (q : Parser α) :
    Reduces P Q allowed (p.orElse q) (pure v) := by
  intro s hs
  constructor
  · intro hallowed
    obtain ⟨t, ht, hpq⟩ := (h s hs).1 hallowed
    exact ⟨t, ht, by rw [orElse_apply, hpq]; rfl⟩
  · intro hallowed
    obtain ⟨line, hline⟩ := (h s hs).2 hallowed
    exact ⟨line, by rw [orElse_apply, hline]⟩

/-- A parser that misses is passed over. -/
lemma orElse_of_misses {p q r : Parser α} (hp : Misses P p) (h : Reduces P Q allowed q r) :
    Reduces P Q allowed (p.orElse q) r := by
  intro s hs
  rw [orElse_apply, hp s hs]
  exact h s hs

lemma take {p : Parser α} {ps : List (Parser α)} {v : α} (h : Reduces P Q allowed p (pure v)) :
    Reduces P Q allowed (choice (p :: ps)) (pure v) := h.orElse (choice ps)

lemma skip {p : Parser α} {ps : List (Parser α)} {r : Parser α} (hp : Misses P p)
    (h : Reduces P Q allowed (choice ps) r) : Reduces P Q allowed (choice (p :: ps)) r :=
  orElse_of_misses hp h

end Reduces

namespace Misses

lemma bind {p : Parser α} (h : Misses P p) (f : α → Parser β) : Misses P (p >>= f) := by
  intro s hs
  rw [bind_apply, h s hs]

lemma orElse {p q : Parser α} (hp : Misses P p) (hq : Misses P q) : Misses P (p.orElse q) := by
  intro s hs
  rw [orElse_apply, hp s hs]
  exact hq s hs

lemma choice {ps : List (Parser α)} (h : ∀ p ∈ ps, Misses P p) : Misses P (choice ps) := by
  induction ps with
  | nil => exact fun _ _ => rfl
  | cons p ps ih =>
      exact (h p (by simp)).orElse (ih fun q hq => h q (by simp [hq]))

end Misses

/-- With enough turns, a loop over `p` reads the values and stops behind them. -/
def Repeats (P Q : Cursor → Prop) (allowed : Prop) (p : Parser α) (vs : List α) : Prop :=
  ∀ turns, vs.length ≤ turns → Reduces P Q allowed (manyUpTo p turns) (pure vs)

namespace Repeats

lemma of_iff {p : Parser α} {vs : List α} (h : Repeats P Q allowed p vs)
    (hallowed : allowed ↔ allowed') : Repeats P Q allowed' p vs :=
  fun turns hturns => (h turns hturns).of_iff hallowed

lemma nil {p : Parser α} (hp : Misses P p) : Repeats P P True p [] := by
  intro turns _
  apply reduces_of_done
  intro s hs
  refine ⟨s, hs, ?_⟩
  cases turns with
  | zero => rfl
  | succ turns =>
      unfold manyUpTo
      rw [hp s hs]

lemma cons {p : Parser α} {v : α} {vs : List α} (h : Reduces P Q allowed p (pure v))
    (h' : Repeats Q R allowed' p vs) : Repeats P R (allowed ∧ allowed') p (v :: vs) := by
  intro turns hturns s hs
  obtain ⟨turns, rfl⟩ : ∃ n, turns = n + 1 := Nat.exists_eq_succ_of_ne_zero (by
    rintro rfl
    cases hturns)
  have hrest := h' turns (Nat.le_of_succ_le_succ hturns)
  have hturn (hp : p s ≠ .miss) : manyUpTo p (turns + 1) s =
      (p >>= fun x => manyUpTo p turns >>= fun xs => pure (x :: xs)) s := by
    rw [bind_apply]
    conv_lhs => unfold manyUpTo
    cases hps : p s with
    | miss => exact absurd hps hp
    | tooDeep line => rfl
    | done value next =>
        change _ = (manyUpTo p turns >>= fun xs => pure (value :: xs)) next
        rw [bind_apply]
        dsimp only
        cases manyUpTo p turns next <;> rfl
  have hp : p s ≠ .miss := by
    by_cases hallowed : allowed
    · obtain ⟨t, -, hpt⟩ := (h s hs).1 hallowed
      rw [hpt]
      change Outcome.done v t ≠ .miss
      simp
    · obtain ⟨line, hline⟩ := (h s hs).2 hallowed
      rw [hline]
      simp
  rw [hturn hp]
  exact h.seq (hrest.map (v :: ·)) s hs

end Repeats

end LogoStudio.Logo.Parser
