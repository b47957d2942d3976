import LogoStudio.Raster.Basic
import Mathlib.Data.Set.Insert
import Mathlib.Data.List.Nodup
import Mathlib.Tactic.Common

/-!
# What a drawing call paints

The pen runs through the elements of a path; an element draws a line or a curve, a curve is
replaced by lines, and a line by samples. All that a stroke paints is the set of cells in which
these samples lie, and all that a fill paints is the set of cells in the range of the path whose
centres it encloses. A cell may be met any number of times on the way, and it may lie off the
surface. The call comes to the same as painting the cells of the set that lie on the surface one
after the other, each of them once.
-/
namespace LogoStudio.Raster

open Plane (Point Path Pen Element Segment)

/-- A column and a row of the unbounded grid of pixels. Only some cells lie on a surface. -/
abbrev Cell := Int × Int

def cellOf (p : Point) : Cell :=
  (Number.toInt64Range (Number.floor p.x), Number.toInt64Range (Number.floor p.y))

/-- The number of steps in which a line is sampled: no step is longer than a pixel along the
longer axis, unless the line is too long. -/
def stepCount (p q : Point) : Nat :=
  Number.toNat64 (Number.clamp (Number.ceil (Number.larger (q - p).x.abs (q - p).y.abs)) 1 65536)

/-- The cells of the samples of a line. -/
def lineCells (p q : Point) : Set Cell :=
  {cell | ∃ i ≤ stepCount p q, cell = cellOf (p.lerp q (i.toFloat / (stepCount p q).toFloat))}

/-- The cells of a curve, which is replaced by lines between points at equal distances of the
parameter. -/
def curveCells (g : Segment) : Set Cell :=
  {cell | ∃ i < Plane.curveLines g, cell ∈ lineCells
    (g.point (i.toFloat / (Plane.curveLines g).toFloat))
    (g.point ((i + 1).toFloat / (Plane.curveLines g).toFloat))}

def segmentCells : Segment → Set Cell
  | .line p q => lineCells p q
  | .quad p q s => curveCells (.quad p q s)
  | .cubic p q s t => curveCells (.cubic p q s t)

/-- The pen after some elements, from the origin. -/
def penAfter (path : Path) : Pen := path.foldl (fun pen e => e.move pen) ⟨.origin, .origin⟩

/-- The cells that are plotted for some element of a path, with the pen where the elements before
it have left it. -/
def plotted (path : Path) : Set Cell :=
  {cell | ∃ before e after, path = before ++ e :: after ∧
    ∃ g ∈ e.trace (penAfter before), cell ∈ segmentCells g}

/-- A pixel lies in the range from `low` to `high` on an axis of the given size. -/
def InRange (low high : Float) (size n : Nat) : Prop :=
  Number.toNat64 (Number.larger (Number.floor low) 0) ≤ n ∧
    n < Number.toNat64 (Number.smaller (Number.ceil high) size.toFloat)

/-- The cells in the range of a path, clipped to a surface, whose centres the path encloses. A
path whose box is not finite has no range. -/
def enclosed (width height : Nat) (path : Path) : Set Cell :=
  {cell | path.box.isFinite = true ∧ ∃ x y : Nat, cell = ((x : Int), (y : Int)) ∧
    InRange path.box.low.x path.box.high.x width x ∧
    InRange path.box.low.y path.box.high.y height y ∧ path.contains (center x y) = true}

section Places

variable {width height : Nat} {x y : Int} {i : Fin (width * height)}

lemma place?_eq_some : place? width height x y = some i ↔
    (0 ≤ x ∧ x.toNat < width ∧ 0 ≤ y ∧ y.toNat < height) ∧
      y.toNat * width + x.toNat = i.val := by
  unfold place?
  split
  · next h => simp [h, Fin.ext_iff]
  · next h => simp [h]

lemma place?_inj {x' y' : Int} (h : place? width height x y = some i)
    (h' : place? width height x' y' = some i) : x = x' ∧ y = y' := by
  obtain ⟨⟨hx, hwidth, hy, -⟩, hi⟩ := place?_eq_some.mp h
  obtain ⟨⟨hx', hwidth', hy', -⟩, hi'⟩ := place?_eq_some.mp h'
  have hplace : y.toNat * width + x.toNat = y'.toNat * width + x'.toNat := hi.trans hi'.symm
  have hpos : 0 < width := Nat.zero_lt_of_lt hwidth
  have hcolumn : x.toNat = x'.toNat := by
    have hmod := congrArg (· % width) hplace
    simpa [Nat.mul_add_mod_of_lt, Nat.mod_eq_of_lt hwidth, Nat.mod_eq_of_lt hwidth'] using hmod
  have hrow : y.toNat = y'.toNat := by
    rw [hcolumn, Nat.add_right_cancel_iff] at hplace
    exact Nat.eq_of_mul_eq_mul_right hpos hplace
  omega

/-- Every place is the place of a pixel. -/
lemma exists_place? (i : Fin (width * height)) :
    ∃ x y : Nat, place? width height x y = some i := by
  have hi : i.val < width * height := i.isLt
  have hpos : 0 < width := by
    rcases Nat.eq_zero_or_pos width with h | h
    · simp [h] at hi
    · exact h
  obtain ⟨x, hx⟩ : ∃ x, x = i.val % width := ⟨_, rfl⟩
  obtain ⟨y, hy⟩ : ∃ y, y = i.val / width := ⟨_, rfl⟩
  have hcolumn : x < width := hx ▸ Nat.mod_lt _ hpos
  have hrow : y < height := hy ▸ Nat.div_lt_of_lt_mul hi
  have hplace : y * width + x = i.val := by
    rw [hx, hy, Nat.mul_comm]
    exact Nat.div_add_mod i.val width
  exact ⟨x, y, place?_eq_some.mpr ⟨⟨by omega, hcolumn, by omega, hrow⟩, hplace⟩⟩

lemma pixel?_eq_of_place? {r : Raster} {x y : Nat} {i : Fin (r.width * r.height)}
    (h : place? r.width r.height x y = some i) : r.pixel? x y = some (r.pixels.get i) := by
  rw [pixel?, h, Option.map_some]
  rfl

/-- Surfaces of one size with the same pixels and texts are the same. -/
lemma ext_pixel? {r r' : Raster} (hwidth : r.width = r'.width) (hheight : r.height = r'.height)
    (htexts : r.texts = r'.texts) (hpixels : ∀ x y : Nat, r.pixel? x y = r'.pixel? x y) :
    r = r' := by
  obtain ⟨width, height, pixels, texts⟩ := r
  obtain ⟨width', height', pixels', texts'⟩ := r'
  obtain rfl : width = width' := hwidth
  obtain rfl : height = height' := hheight
  obtain rfl : texts = texts' := htexts
  have heq : pixels = pixels' := by
    refine Vector.ext fun i hi => ?_
    obtain ⟨x, y, hplace⟩ := exists_place? (⟨i, hi⟩ : Fin (width * height))
    have hpixel := hpixels x y
    rw [pixel?_eq_of_place? hplace, pixel?_eq_of_place? hplace] at hpixel
    exact Option.some.inj hpixel
  rw [heq]

end Places

/-- A surface comes out of another one by painting over the pixels of some cells, each of them
once, and by nothing else. -/
structure Paints (paint : Paint) (cells : Set Cell) (r r' : Raster) : Prop where
  width : r'.width = r.width
  height : r'.height = r.height
  texts : r'.texts = r.texts
  painted : ∀ x y : Nat, ((x : Int), (y : Int)) ∈ cells →
    r'.pixel? x y = (r.pixel? x y).map paint.apply
  kept : ∀ x y : Nat, ((x : Int), (y : Int)) ∉ cells → r'.pixel? x y = r.pixel? x y

/-- Paint over the pixel of one cell, if it lies on the surface. -/
def dab (paint : Paint) (r : Raster) (cell : Cell) : Raster :=
  r.paintAt paint (place? r.width r.height cell.1 cell.2).toList

section Painting

variable {paint : Paint} {cells cells' : Set Cell} {r r' r'' : Raster}

/-- Two sets have the same cells on a surface. -/
def Agree (r : Raster) (cells cells' : Set Cell) : Prop :=
  ∀ x y : Nat, x < r.width → y < r.height →
    (((x : Int), (y : Int)) ∈ cells ↔ ((x : Int), (y : Int)) ∈ cells')

lemma pixel?_of_off_surface {x y : Nat} (h : ¬(x < r.width ∧ y < r.height)) :
    r.pixel? x y = none := by
  rw [pixel?, Option.map_eq_none_iff, place?, dif_neg]
  simpa using h

lemma Paints.pixel?_eq (h : Paints paint cells r r') (h' : Paints paint cells' r r'')
    (hagree : r.Agree cells cells') (x y : Nat) : r'.pixel? x y = r''.pixel? x y := by
  by_cases hon : x < r.width ∧ y < r.height
  · have hcell := hagree x y hon.1 hon.2
    by_cases hmem : ((x : Int), (y : Int)) ∈ cells
    · rw [h.painted x y hmem, h'.painted x y (hcell.mp hmem)]
    · rw [h.kept x y hmem, h'.kept x y (mt hcell.mpr hmem)]
  · rw [pixel?_of_off_surface (by rwa [h.width, h.height]),
      pixel?_of_off_surface (by rwa [h'.width, h'.height])]

/-- Only the cells on the surface matter. -/
lemma Paints.eq_of_agree (h : Paints paint cells r r') (h' : Paints paint cells' r r'')
    (hagree : r.Agree cells cells') : r' = r'' :=
  ext_pixel? (h.width.trans h'.width.symm) (h.height.trans h'.height.symm)
    (h.texts.trans h'.texts.symm) (h.pixel?_eq h' hagree)

lemma Paints.refl (r : Raster) : Paints paint ∅ r r :=
  ⟨rfl, rfl, rfl, fun _ _ h => h.elim, fun _ _ _ => rfl⟩

/-- Painting cells and then others paints them all. -/
lemma Paints.trans (h : Paints paint cells r r') (h' : Paints paint cells' r' r'')
    (hdisjoint : ∀ cell ∈ cells, cell ∉ cells') : Paints paint (cells ∪ cells') r r'' := by
  refine ⟨h'.width.trans h.width, h'.height.trans h.height, h'.texts.trans h.texts, ?_, ?_⟩
  · rintro x y (hmem | hmem)
    · rw [h'.kept x y (hdisjoint _ hmem), h.painted x y hmem]
    · have hnot : ((x : Int), (y : Int)) ∉ cells := fun hcell => hdisjoint _ hcell hmem
      rw [h'.painted x y hmem, h.kept x y hnot]
  · intro x y hnot
    rw [Set.mem_union, not_or] at hnot
    rw [h'.kept x y hnot.2, h.kept x y hnot.1]

/-- Painting at the places of some cells, however often they are named, paints the cells. -/
lemma paints_paintAt {places : List (Fin (r.width * r.height))}
    (h : ∀ i, i ∈ places ↔ ∃ cell ∈ cells, place? r.width r.height cell.1 cell.2 = some i) :
    Paints paint cells r (r.paintAt paint places) := by
  have hpixel (x y : Nat) := pixel?_paintAt r paint places x y
  refine ⟨rfl, rfl, rfl, ?_, ?_⟩
  · intro x y hmem
    rw [hpixel, pixel?, Option.map_map]
    cases hplace : place? r.width r.height x y with
    | none => rfl
    | some i =>
        have hi : i ∈ places := (h i).mpr ⟨_, hmem, hplace⟩
        simp [hi]
  · intro x y hnot
    rw [hpixel, pixel?]
    cases hplace : place? r.width r.height x y with
    | none => rfl
    | some i =>
        have hi : i ∉ places := by
          intro hi
          obtain ⟨⟨x', y'⟩, hcell, hplace'⟩ := (h i).mp hi
          obtain ⟨rfl, rfl⟩ := place?_inj hplace hplace'
          exact hnot hcell
        simp [hi]

lemma paints_dab (r : Raster) (cell : Cell) : Paints paint {cell} r (r.dab paint cell) :=
  paints_paintAt fun i => by simp

/-- Cells that are painted one after the other, each once, are painted. -/
lemma paints_foldl_dab {turns : List Cell} (h : turns.Nodup) (r : Raster) :
    Paints paint {cell | cell ∈ turns} r (turns.foldl (dab paint) r) := by
  induction turns generalizing r with
  | nil => simpa using Paints.refl r
  | cons cell rest ih =>
      obtain ⟨hcell, hrest⟩ := List.nodup_cons.mp h
      have hboth := (paints_dab r cell).trans (ih hrest (r.dab paint cell)) (by simpa using hcell)
      rwa [show {c | c ∈ cell :: rest} = {cell} ∪ {c | c ∈ rest} by ext; simp]

end Painting

section Strokes

variable {p q : Point} {cell : Cell}

lemma mem_cellsBetween : cell ∈ cellsBetween p q ↔ cell ∈ lineCells p q := by
  simp only [cellsBetween, List.mem_map, List.mem_range, Nat.lt_succ_iff]
  constructor
  · rintro ⟨i, hi, rfl⟩
    exact ⟨i, hi, rfl⟩
  · rintro ⟨i, hi, rfl⟩
    exact ⟨i, hi, rfl⟩

lemma mem_links_map_range {n : Nat} {f : Nat → Point} :
    (p, q) ∈ Plane.links ((List.range (n + 1)).map f) ↔ ∃ i < n, f i = p ∧ f (i + 1) = q := by
  have hlength : (Plane.links ((List.range (n + 1)).map f)).length = n := by
    simp [Plane.links]
  have hget (i : Nat) (hi : i < n) :
      (Plane.links ((List.range (n + 1)).map f))[i]? = some (f i, f (i + 1)) := by
    simp [Plane.links, hi]
  rw [List.mem_iff_getElem?]
  constructor
  · rintro ⟨i, hi⟩
    obtain ⟨hlt, -⟩ := List.getElem?_eq_some_iff.mp hi
    rw [hlength] at hlt
    rw [hget i hlt] at hi
    exact ⟨i, hlt, by simpa using hi⟩
  · rintro ⟨i, hi, rfl, rfl⟩
    exact ⟨i, hget i hi⟩

/-- The lines of a segment pass through its cells. -/
lemma mem_segmentCells {g : Segment} :
    (∃ line ∈ g.lines, cell ∈ cellsBetween line.1 line.2) ↔ cell ∈ segmentCells g := by
  have hcurve (g : Segment) (hlines : g.lines = Plane.links
      ((List.range (Plane.curveLines g + 1)).map fun i =>
        g.point (i.toFloat / (Plane.curveLines g).toFloat))) :
      (∃ line ∈ g.lines, cell ∈ cellsBetween line.1 line.2) ↔ cell ∈ curveCells g := by
    simp only [hlines, Prod.exists, mem_links_map_range, mem_cellsBetween]
    constructor
    · rintro ⟨_, _, ⟨i, hi, rfl, rfl⟩, hcell⟩
      exact ⟨i, hi, hcell⟩
    · rintro ⟨i, hi, hcell⟩
      exact ⟨_, _, ⟨i, hi, rfl, rfl⟩, hcell⟩
  cases g with
  | line p q => simp [Segment.lines, segmentCells, mem_cellsBetween]
  | quad p q s => exact hcurve _ rfl
  | cubic p q s t => exact hcurve _ rfl

/-- The segments of a walk are drawn by its elements, each with the pen as it then is. -/
lemma mem_walk {draw : Pen → Element → Option Segment} {pen : Pen} {path : Path} {g : Segment} :
    g ∈ path.walk draw pen ↔ ∃ before e after, path = before ++ e :: after ∧
      g ∈ draw (before.foldl (fun pen e => e.move pen) pen) e := by
  induction path generalizing pen with
  | nil => simp [Path.walk]
  | cons e rest ih =>
      rw [Path.walk, List.mem_append, Option.mem_toList, ih]
      constructor
      · rintro (hg | ⟨before, e', after, rfl, hg⟩)
        · exact ⟨[], e, rest, rfl, hg⟩
        · exact ⟨e :: before, e', after, rfl, hg⟩
      · rintro ⟨before, e', after, hpath, hg⟩
        cases before with
        | nil =>
            obtain ⟨rfl, rfl⟩ := List.cons.inj hpath
            exact .inl hg
        | cons d before =>
            obtain ⟨rfl, rfl⟩ := List.cons.inj hpath
            exact .inr ⟨before, e', after, rfl, hg⟩

/-- The places that an outline touches are those of the cells that are plotted. -/
lemma mem_touched {width height : Nat} {path : Path} {i : Fin (width * height)} :
    i ∈ touched width height path ↔
      ∃ cell ∈ plotted path, place? width height cell.1 cell.2 = some i := by
  have hplotted (cell : Cell) : cell ∈ plotted path ↔
      ∃ g ∈ path.outline, ∃ line ∈ g.lines, cell ∈ cellsBetween line.1 line.2 := by
    simp only [mem_segmentCells, Path.outline, mem_walk]
    constructor
    · rintro ⟨before, e, after, hpath, g, hg, hcell⟩
      exact ⟨g, ⟨before, e, after, hpath, hg⟩, hcell⟩
    · rintro ⟨g, ⟨before, e, after, hpath, hg⟩, hcell⟩
      exact ⟨before, e, after, hpath, g, hg, hcell⟩
  simp only [touched, Path.lines, List.mem_flatMap, List.mem_filterMap, hplotted]
  constructor
  · rintro ⟨line, ⟨g, hg, hline⟩, cell, hcell, hplace⟩
    exact ⟨cell, ⟨g, hg, line, hline, hcell⟩, hplace⟩
  · rintro ⟨cell, ⟨g, hg, line, hline, hcell⟩, hplace⟩
    exact ⟨line, ⟨g, hg, hline⟩, cell, hcell, hplace⟩

lemma paints_stroke (r : Raster) (path : Path) (paint : Paint) :
    Paints paint (plotted path) r (r.stroke path paint) :=
  paints_paintAt fun _ => mem_touched

end Strokes

section Fills

lemma mem_span {low high : Float} {size n : Nat} :
    n ∈ span low high size ↔ InRange low high size n := by
  simp only [span, List.mem_range'_1, InRange]
  omega

/-- The places that are filled are those of the cells that the path encloses. -/
lemma mem_filled {width height : Nat} {path : Path} {i : Fin (width * height)} :
    i ∈ filled width height path ↔
      ∃ cell ∈ enclosed width height path, place? width height cell.1 cell.2 = some i := by
  by_cases hbox : path.box.isFinite = true
  · simp only [filled, hbox, if_true, List.mem_flatMap, List.mem_filterMap, mem_span]
    constructor
    · rintro ⟨y, hy, x, hx, hplace⟩
      split at hplace
      · cases hplace
      · next hwinding =>
          exact ⟨(x, y), ⟨hbox, x, y, rfl, hx, hy, by simpa [Path.contains] using hwinding⟩, hplace⟩
    · rintro ⟨_, ⟨-, x, y, rfl, hx, hy, hcontains⟩, hplace⟩
      refine ⟨y, hy, x, hx, ?_⟩
      rw [if_neg (by simpa [Path.contains] using hcontains)]
      exact hplace
  · simp [filled, enclosed, hbox]

lemma paints_fill (r : Raster) (path : Path) (paint : Paint) :
    Paints paint (enclosed r.width r.height path) r (r.fill path paint) :=
  paints_paintAt fun _ => mem_filled

end Fills

/-- A drawing call paints some cells of a surface and nothing else. -/
structure Draws (paint : Paint) (cells : Set Cell) (r r' : Raster) : Prop
    extends Paints paint cells r r' where
  /-- It comes to the same to paint the cells one after the other, each of them once and in any
  order, whichever cells off the surface are among them. -/
  inTurn : ∀ turns : List Cell, turns.Nodup → r.Agree {cell | cell ∈ turns} cells →
    turns.foldl (dab paint) r = r'

lemma Paints.draws {paint : Paint} {cells : Set Cell} {r r' : Raster}
    (h : Paints paint cells r r') : Draws paint cells r r' :=
  ⟨h, fun _ hnodup hagree => (paints_foldl_dab hnodup r).eq_of_agree h hagree⟩

/-- Each drawing call paints a pixel at most once. A stroke paints the cells that are plotted for
the elements of the path and a fill those in its range that it encloses; the pixels of other
cells, the size and the texts stay as they are, and cells off the surface have no effect. -/
theorem draws_each_cell_once (r : Raster) (path : Path) (paint : Paint) :
    Draws paint (plotted path) r (r.stroke path paint) ∧
      Draws paint (enclosed r.width r.height path) r (r.fill path paint) :=
  ⟨(paints_stroke r path paint).draws, (paints_fill r path paint).draws⟩

end LogoStudio.Raster
