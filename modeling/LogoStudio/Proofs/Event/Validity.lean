import LogoStudio.Event.Record
import Mathlib

/-!
# Valid events

The events that records can hold: their numbers are finite, their squared radii are not
negative, and a message does not take the tag of another event. Reading a record gives
valid events only, whatever the record holds.
-/
namespace LogoStudio.Event

open Plane (Point Affine)

def pointNumbers (p : Point) : List Float := [p.x, p.y]

def colorNumbers (c : Color) : List Float := [c.r, c.g, c.b, c.a]

def canvasNumbers : CanvasCommand → List Float
  | .fillRect p q | .frameRect p q | .line p q => pointNumbers p ++ pointNumbers q
  | .fillEllipse center radii | .frameEllipse center radii =>
      pointNumbers center ++ pointNumbers radii
  | .text _ position | .setPixel position _ => pointNumbers position
  | .setLineColor color | .setFillColor color => colorNumbers color
  | .setOpacity alpha => [alpha]
  | .transform map => map.coefficients
  | .clear | .setFont _ | .setTextAlign _ | .resetTransform => []

def numbers : Event → List Float
  | .turtle line => pointNumbers line.start ++ pointNumbers line.finish ++ colorNumbers line.color
  | .canvas command => canvasNumbers command
  | .compileError .. | .runtimeError _ | .timeout | .print _ | .message .. => []

def squaredRadii : Event → List Float
  | .canvas (.fillEllipse _ radii) | .canvas (.frameEllipse _ radii) => pointNumbers radii
  | _ => []

/-- An event that a record can hold. -/
structure Valid (e : Event) : Prop where
  finite : ∀ x ∈ e.numbers, x.isFinite = true
  radii : ∀ x ∈ e.squaredRadii, ¬x < 0
  /-- A message is read as a message only under a tag that is not known. -/
  unreserved : ∀ kind value, e = .message kind value →
    Tag.isKnown (Tag.canonical kind.toList) = false

/-- Every value of a reader has a property. -/
def Yields {α : Type} (read : Json → Option α) (P : α → Prop) : Prop := ∀ j a, read j = some a → P a

def AllFinite (xs : List Float) : Prop := ∀ x ∈ xs, x.isFinite = true

lemma yields_asNumber? : Yields Json.asNumber? fun x => x.isFinite = true := by
  intro j x h
  unfold Json.asNumber? at h
  dsimp only at h
  split at h
  · split at h
    · next hfinite =>
        cases h
        exact hfinite
    · cases h
  · split at h
    · next hfinite =>
        cases h
        exact hfinite
    · cases h
  · cases h

section

variable {α : Type} {read : Json → Option α} {P : α → Prop}

lemma yields_two? (hread : Yields read P) : Yields (two? read) fun p => P p.1 ∧ P p.2 := by
  rintro j ⟨a, b⟩ h
  unfold two? at h
  split at h
  · next x y =>
      obtain ⟨a', ha, h⟩ := Option.bind_eq_some_iff.mp h
      obtain ⟨b', hb, h⟩ := Option.bind_eq_some_iff.mp h
      cases h
      exact ⟨hread x a ha, hread y b hb⟩
  · cases h

lemma forall_of_mapM {js : List Json} {xs : List α} (hread : Yields read P)
    (h : js.mapM read = some xs) : ∀ x ∈ xs, P x := by
  induction js generalizing xs with
  | nil =>
      cases h
      simp
  | cons j js ih =>
      rw [List.mapM_cons] at h
      obtain ⟨x, hx, h⟩ := Option.bind_eq_some_iff.mp h
      obtain ⟨xs', hxs, h⟩ := Option.bind_eq_some_iff.mp h
      cases h
      exact List.forall_mem_cons.mpr ⟨hread j x hx, ih hxs⟩

lemma yields_list? (hread : Yields read P) : Yields (list? read) fun xs => ∀ x ∈ xs, P x := by
  intro j xs h
  obtain ⟨js, -, h⟩ := Option.bind_eq_some_iff.mp h
  exact forall_of_mapM hread h

end

lemma yields_point? : Yields point? fun p => AllFinite (pointNumbers p) := by
  intro j p h
  obtain ⟨⟨x, y⟩, hxy, rfl⟩ := Option.map_eq_some_iff.mp h
  obtain ⟨hx, hy⟩ := yields_two? yields_asNumber? j (x, y) hxy
  simpa [AllFinite, pointNumbers] using And.intro hx hy

lemma yields_affine? : Yields affine? fun map => AllFinite map.coefficients := by
  intro j map h
  unfold affine? at h
  split at h
  · next hlist =>
      cases h
      exact yields_list? yields_asNumber? j _ hlist
  · cases h

/-- The opacity of a colour: one where there is none. -/
def opacity? (j : Json) : Option Float :=
  match j.get? "a" with
  | none => some 1
  | some v => v.asNumber?

lemma colorOfMembers?_eq (j : Json) :
    colorOfMembers? j = (opacity? j).bind fun a => ((j.get? "r").bind Json.asNumber?).bind fun r =>
      ((j.get? "g").bind Json.asNumber?).bind fun g => ((j.get? "b").bind Json.asNumber?).bind
        fun b => some ⟨r, g, b, a⟩ := by
  unfold colorOfMembers? opacity?
  dsimp only
  cases j.get? "a" <;> rfl

lemma yields_opacity? : Yields opacity? fun x => x.isFinite = true := by
  intro j x h
  unfold opacity? at h
  split at h
  · cases h
    decide
  · exact yields_asNumber? _ x h

lemma yields_colorOfMembers? : Yields colorOfMembers? fun c => AllFinite (colorNumbers c) := by
  intro j c h
  have hchannel {key : String} {x : Float} (h : (j.get? key).bind Json.asNumber? = some x) :
      x.isFinite = true := by
    obtain ⟨v, -, hv⟩ := Option.bind_eq_some_iff.mp h
    exact yields_asNumber? v x hv
  rw [colorOfMembers?_eq] at h
  obtain ⟨a, ha, h⟩ := Option.bind_eq_some_iff.mp h
  obtain ⟨r, hr, h⟩ := Option.bind_eq_some_iff.mp h
  obtain ⟨g, hg, h⟩ := Option.bind_eq_some_iff.mp h
  obtain ⟨b, hb, h⟩ := Option.bind_eq_some_iff.mp h
  cases h
  simpa [AllFinite, colorNumbers] using
    ⟨hchannel hr, hchannel hg, hchannel hb, yields_opacity? j a ha⟩

lemma yields_colorOfChannels? : Yields colorOfChannels? fun c => AllFinite (colorNumbers c) := by
  intro j c h
  unfold colorOfChannels? at h
  split at h
  · exact yields_colorOfMembers? _ c h
  · split at h
    · next hlist =>
        cases h
        have hnumbers := yields_list? yields_asNumber? _ _ hlist
        have hopaque : (1 : Float).isFinite = true := by decide
        simp only [List.mem_cons, List.not_mem_nil, or_false, forall_eq_or_imp,
          forall_eq] at hnumbers
        simpa [AllFinite, colorNumbers, hopaque] using hnumbers
    · next hlist =>
        cases h
        exact yields_list? yields_asNumber? _ _ hlist
    · cases h
  · cases h

/-- The channel of a byte is finite. -/
lemma isFinite_channel : ∀ x : UInt8, (Pixel.channel x).isFinite = true := by decide +kernel

lemma yields_lineColor? :
    Yields lineColor? fun r => ∀ c, r = .ok c → AllFinite (colorNumbers c) := by
  rintro j r h c rfl
  unfold lineColor? at h
  split at h
  · split at h
    · next pixel _ =>
        cases h
        simp [AllFinite, colorNumbers, Pixel.color, isFinite_channel]
    · cases h
  · obtain ⟨c', hc, heq⟩ := Option.map_eq_some_iff.mp h
    cases heq
    exact yields_colorOfChannels? _ c hc

lemma bind_eq_ok {ε α β : Type} {x : Except ε α} {f : α → Except ε β} {b : β} :
    (x >>= f) = .ok b ↔ ∃ a, x = .ok a ∧ f a = .ok b := by
  cases x with
  | error e => simp [bind, Except.bind]
  | ok a => simp [bind, Except.bind]

lemma mapError_eq_ok {ε ε' α : Type} {f : ε → ε'} {x : Except ε α} {a : α} :
    x.mapError f = .ok a ↔ x = .ok a := by
  cases x with
  | error e => simp [Except.mapError]
  | ok a => simp [Except.mapError]

/-- A member that is needed has the property that its reader gives. -/
lemma of_need {α : Type} {read : Json → Option α} {P : α → Prop} {j : Json} {key : String} {a : α}
    (h : need j key read = .ok a) (hread : Yields read P) : P a := by
  unfold need at h
  split at h
  · next value hvalue =>
      cases h
      obtain ⟨v, -, hv⟩ := Option.bind_eq_some_iff.mp hvalue
      exact hread v _ hv
  · cases h

lemma of_radii {shape : List (List Float)} {p : Point} (h : radii shape = .ok p)
    (hshape : ∀ xs ∈ shape, AllFinite xs) :
    AllFinite (pointNumbers p) ∧ ∀ x ∈ pointNumbers p, ¬x < 0 := by
  unfold radii at h
  dsimp only at h
  split at h
  · next r rest =>
      split at h
      · cases h
      · next hneg =>
          cases h
          have hr := hshape [r] List.mem_cons_self r List.mem_cons_self
          simpa [AllFinite, pointNumbers, hr] using hneg
  · next x y rest rest' =>
      split at h
      · cases h
      · next hneg =>
          cases h
          have hfinite := hshape (x :: y :: rest) List.mem_cons_self
          have hx := hfinite x List.mem_cons_self
          have hy := hfinite y (List.mem_cons_of_mem _ List.mem_cons_self)
          simpa [AllFinite, pointNumbers, hx, hy] using hneg
  · cases h

lemma of_ellipse {j : Json} {center p : Point} (h : ellipse j = .ok (center, p)) :
    AllFinite (pointNumbers center ++ pointNumbers p) ∧ ∀ x ∈ pointNumbers p, ¬x < 0 := by
  obtain ⟨center', hcenter, h⟩ := bind_eq_ok.mp h
  obtain ⟨shape, hshape, h⟩ := bind_eq_ok.mp h
  obtain ⟨p', hradii, h⟩ := bind_eq_ok.mp h
  cases h
  have hcenter := of_need hcenter yields_point?
  have hshape := of_need hshape (yields_list? (yields_list? yields_asNumber?))
  obtain ⟨hfinite, hradii⟩ := of_radii hradii hshape
  exact ⟨List.forall_mem_append.mpr ⟨hcenter, hfinite⟩, hradii⟩

/-- The numbers of a canvas command that was read are finite, and no radius is negative. -/
lemma of_canvasCommand {tag : String} {j : Json} {command : CanvasCommand}
    (h : canvasCommand tag j = .ok command) :
    AllFinite (canvasNumbers command) ∧ ∀ x ∈ (Event.canvas command).squaredRadii, ¬x < 0 := by
  have hcorners {p q : Point} (h : need j "points" (two? point?) = .ok (p, q)) :
      AllFinite (pointNumbers p ++ pointNumbers q) := by
    have hpoints := of_need h (yields_two? yields_point?)
    exact List.forall_mem_append.mpr hpoints
  unfold canvasCommand at h
  split at h
  · cases h
    exact ⟨List.forall_mem_nil _, List.forall_mem_nil _⟩
  · obtain ⟨⟨p, q⟩, hpoints, h⟩ := bind_eq_ok.mp h
    cases h
    exact ⟨hcorners hpoints, List.forall_mem_nil _⟩
  · obtain ⟨⟨p, q⟩, hpoints, h⟩ := bind_eq_ok.mp h
    cases h
    exact ⟨hcorners hpoints, List.forall_mem_nil _⟩
  · obtain ⟨⟨center, radii⟩, hellipse, h⟩ := bind_eq_ok.mp h
    cases h
    exact of_ellipse hellipse
  · obtain ⟨⟨center, radii⟩, hellipse, h⟩ := bind_eq_ok.mp h
    cases h
    exact of_ellipse hellipse
  · obtain ⟨p, hp, h⟩ := bind_eq_ok.mp h
    obtain ⟨q, hq, h⟩ := bind_eq_ok.mp h
    cases h
    have hp := of_need hp yields_point?
    have hq := of_need hq yields_point?
    exact ⟨List.forall_mem_append.mpr ⟨hp, hq⟩, List.forall_mem_nil _⟩
  · obtain ⟨text, -, h⟩ := bind_eq_ok.mp h
    obtain ⟨p, hp, h⟩ := bind_eq_ok.mp h
    cases h
    have hp := of_need hp yields_point?
    exact ⟨hp, List.forall_mem_nil _⟩
  · split at h
    · next color hcolor =>
        cases h
        exact ⟨yields_colorOfMembers? j color hcolor, List.forall_mem_nil _⟩
    · cases h
  · split at h
    · next color hcolor =>
        cases h
        exact ⟨yields_colorOfMembers? j color hcolor, List.forall_mem_nil _⟩
    · cases h
  · obtain ⟨x, hx, h⟩ := bind_eq_ok.mp h
    obtain ⟨y, hy, h⟩ := bind_eq_ok.mp h
    obtain ⟨pixel, -, h⟩ := bind_eq_ok.mp h
    cases h
    have hx := of_need hx yields_asNumber?
    have hy := of_need hy yields_asNumber?
    exact ⟨List.forall_mem_cons.mpr ⟨hx, List.forall_mem_singleton.mpr hy⟩, List.forall_mem_nil _⟩
  · obtain ⟨alpha, halpha, h⟩ := bind_eq_ok.mp h
    cases h
    have halpha := of_need halpha yields_asNumber?
    exact ⟨List.forall_mem_singleton.mpr halpha, List.forall_mem_nil _⟩
  · obtain ⟨font, -, h⟩ := bind_eq_ok.mp h
    cases h
    exact ⟨List.forall_mem_nil _, List.forall_mem_nil _⟩
  · obtain ⟨align, -, h⟩ := bind_eq_ok.mp h
    cases h
    exact ⟨List.forall_mem_nil _, List.forall_mem_nil _⟩
  · obtain ⟨map, hmap, h⟩ := bind_eq_ok.mp h
    cases h
    have hmap := of_need hmap yields_affine?
    exact ⟨hmap, List.forall_mem_nil _⟩
  · cases h
    exact ⟨List.forall_mem_nil _, List.forall_mem_nil _⟩
  · cases h

/-- The event of a record with a known tag is valid. -/
lemma valid_of_ofKnown {tag : String} {j : Json} {e : Event} (h : ofKnown tag j = .ok e) :
    e.Valid := by
  unfold ofKnown at h
  dsimp only at h
  split at h
  · obtain ⟨line, -, h⟩ := bind_eq_ok.mp (mapError_eq_ok.mp h)
    obtain ⟨note, -, h⟩ := bind_eq_ok.mp h
    cases h
    exact ⟨List.forall_mem_nil _, List.forall_mem_nil _, nofun⟩
  · obtain ⟨note, -, h⟩ := bind_eq_ok.mp (mapError_eq_ok.mp h)
    cases h
    exact ⟨List.forall_mem_nil _, List.forall_mem_nil _, nofun⟩
  · cases h
    exact ⟨List.forall_mem_nil _, List.forall_mem_nil _, nofun⟩
  · obtain ⟨value, -, h⟩ := bind_eq_ok.mp (mapError_eq_ok.mp h)
    cases h
    exact ⟨List.forall_mem_nil _, List.forall_mem_nil _, nofun⟩
  · obtain ⟨start, hstart, h⟩ := bind_eq_ok.mp h
    obtain ⟨finish, hfinish, h⟩ := bind_eq_ok.mp h
    obtain ⟨found, hfound, h⟩ := bind_eq_ok.mp h
    obtain ⟨color, hcolor, h⟩ := bind_eq_ok.mp h
    cases h
    have hstart := of_need (mapError_eq_ok.mp hstart) yields_point?
    have hfinish := of_need (mapError_eq_ok.mp hfinish) yields_point?
    have hchannels := of_need (mapError_eq_ok.mp hfound) yields_lineColor?
    refine ⟨?_, List.forall_mem_nil _, nofun⟩
    exact List.forall_mem_append.mpr
      ⟨List.forall_mem_append.mpr ⟨hstart, hfinish⟩, hchannels color hcolor⟩
  · obtain ⟨command, hcommand, h⟩ := bind_eq_ok.mp (mapError_eq_ok.mp h)
    cases h
    obtain ⟨hfinite, hradii⟩ := of_canvasCommand hcommand
    exact ⟨hfinite, hradii, nofun⟩

/-- Every event that is read from a record is valid. -/
theorem valid_of_ofRecord {j : Json} {e : Event} (h : ofRecord j = .ok (some e)) : e.Valid := by
  unfold ofRecord at h
  split at h
  · cases h
  · next tag _ =>
      dsimp only at h
      split at h
      · cases hknown : ofKnown (String.ofList (Tag.canonical tag.toList)) j with
        | error fault =>
            rw [hknown] at h
            cases h
        | ok event =>
            rw [hknown] at h
            cases h
            exact valid_of_ofKnown hknown
      · next hunknown =>
          obtain ⟨value, -, rfl⟩ := Option.map_eq_some_iff.mp (Except.ok.inj h)
          refine ⟨List.forall_mem_nil _, List.forall_mem_nil _, ?_⟩
          rintro kind text heq
          cases heq
          exact Bool.eq_false_iff.mpr hunknown

end LogoStudio.Event
