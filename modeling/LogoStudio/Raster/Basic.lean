import LogoStudio.Event.Basic
import LogoStudio.Plane.Path
import LogoStudio.Raster.Paint

/-!
# Rasters

A raster is a surface in memory. A pixel is filled if its centre lies inside the path, and
a stroke touches every pixel that its line passes through. All pixels of one drawing call
get their new colour from the colour before the call, so that a pixel which a path meets
several times is painted once. Text is kept as text.
-/
namespace LogoStudio

open Plane (Point Path Box)

/-- A text on a surface, with its position in pixels. -/
structure TextRun where
  text : String
  origin : Point
  font : String
  align : TextAlign
  paint : Paint

/-- A surface of pixels, row after row from the top. -/
structure Raster where
  width : Nat
  height : Nat
  pixels : Vector Pixel (width * height)
  texts : Array TextRun

namespace Raster

/-- The place of a pixel, if it lies on a surface of the given size. -/
def place? (width height : Nat) (x y : Int) : Option (Fin (width * height)) :=
  if h : 0 ≤ x ∧ x.toNat < width ∧ 0 ≤ y ∧ y.toNat < height then
    some ⟨y.toNat * width + x.toNat, by
      have step : (y.toNat + 1) * width ≤ height * width := Nat.mul_le_mul_right _ h.2.2.2
      rw [Nat.succ_mul, Nat.mul_comm height] at step
      omega⟩
  else none

/-- The pixels that a line passes through: samples at most one pixel apart along the
longer axis, but no more than 65537 of them. -/
def cellsBetween (p q : Point) : List (Int × Int) :=
  let d := q - p
  let steps :=
    Number.toNat64 (Number.clamp (Number.ceil (Number.larger d.x.abs d.y.abs)) 1 65536)
  (List.range (steps + 1)).map fun i =>
    let c := p.lerp q (i.toFloat / steps.toFloat)
    (Number.toInt64Range (Number.floor c.x), Number.toInt64Range (Number.floor c.y))

def center (x y : Nat) : Point := ⟨x.toFloat + 0.5, y.toFloat + 0.5⟩

/-- The whole numbers from `low` up to and without `high` that are the coordinates of
pixels on an axis of the given size. -/
def span (low high : Float) (size : Nat) : List Nat :=
  let first := Number.toNat64 (Number.larger (Number.floor low) 0)
  let last := Number.toNat64 (Number.smaller (Number.ceil high) size.toFloat)
  List.range' first (last - first)

/-- An empty surface. -/
def blank (width height : Nat) : Raster := ⟨width, height, Vector.replicate _ .transparent, #[]⟩

def isEmpty (r : Raster) : Bool := r.width * r.height == 0

def pixel? (r : Raster) (x y : Nat) : Option Pixel :=
  (place? r.width r.height x y).map fun i => r.pixels[i]

/-- Paint over the pixels at some places, each of them once. -/
def paintAt (r : Raster) (paint : Paint) (places : List (Fin (r.width * r.height))) : Raster :=
  match r, places with
  | ⟨width, height, pixels, texts⟩, places =>
      let painted := places.map fun i => (i, paint.apply pixels[i])
      ⟨width, height, painted.foldl (fun pixels (i, p) => pixels.set i p) pixels, texts⟩

/-- Writing colours that depend on the place alone: every place in the list gets its
colour, however often it stands there, and all others keep theirs. -/
theorem getElem_foldl_set {n : Nat} (f : Fin n → Pixel) (places : List (Fin n))
    (pixels : Vector Pixel n) (i : Fin n) :
    ((places.map fun j => (j, f j)).foldl (fun pixels (j, p) => pixels.set j p) pixels)[i] =
      if places.contains i then f i else pixels[i] := by
  induction places generalizing pixels with
  | nil => simp
  | cons j rest ih =>
      simp only [List.map_cons, List.foldl_cons, ih, List.contains_iff_mem, List.mem_cons]
      by_cases h : i ∈ rest
      · simp [h]
      · by_cases e : j = i
        · subst e
          simp [h]
        · have distinct : (j : Nat) ≠ i := fun c => e (Fin.ext c)
          simp [h, Ne.symm e, distinct]

/-- A pixel is painted once if its place is in the list, and else stays as it is. -/
theorem pixel?_paintAt (r : Raster) (paint : Paint) (places : List (Fin (r.width * r.height)))
    (x y : Nat) :
    (r.paintAt paint places).pixel? x y =
      (place? r.width r.height x y).map fun i =>
        if places.contains i then paint.apply r.pixels[i] else r.pixels[i] := by
  obtain ⟨width, height, pixels, texts⟩ := r
  simp only [paintAt, pixel?]
  congr 1
  funext i
  exact getElem_foldl_set (fun j => paint.apply pixels[j]) places pixels i

@[simp] theorem width_paintAt (r : Raster) (paint : Paint)
    (places : List (Fin (r.width * r.height))) : (r.paintAt paint places).width = r.width := rfl

@[simp] theorem height_paintAt (r : Raster) (paint : Paint)
    (places : List (Fin (r.width * r.height))) : (r.paintAt paint places).height = r.height := rfl

@[simp] theorem texts_paintAt (r : Raster) (paint : Paint)
    (places : List (Fin (r.width * r.height))) : (r.paintAt paint places).texts = r.texts := rfl

/-- The places that a path fills. -/
def filled (width height : Nat) (path : Path) : List (Fin (width * height)) :=
  let box := path.box
  if box.isFinite then
    let parts := path.parts
    let columns := span box.low.x box.high.x width
    (span box.low.y box.high.y height).flatMap fun y =>
      columns.filterMap fun x =>
        if Plane.winding parts (center x y) = 0 then none else place? width height x y
  else []

/-- The places that the outline of a path touches. -/
def touched (width height : Nat) (path : Path) : List (Fin (width * height)) :=
  path.lines.flatMap fun (p, q) =>
    (cellsBetween p q).filterMap fun (x, y) => place? width height x y

def fill (r : Raster) (path : Path) (paint : Paint) : Raster :=
  r.paintAt paint (filled r.width r.height path)

/-- Draw the outline of a path. -/
def stroke (r : Raster) (path : Path) (paint : Paint) : Raster :=
  r.paintAt paint (touched r.width r.height path)

def write (r : Raster) (run : TextRun) : Raster := { r with texts := r.texts.push run }

/-- Erase everything, text included. -/
def clear (r : Raster) : Raster := blank r.width r.height

end Raster

end LogoStudio
