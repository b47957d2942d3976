import LogoStudio.Color

/-!
# Paint

A paint is a colour together with an opacity that multiplies the colour's own. Painting
puts it over what is there, with colours that are not multiplied by their opacity.
-/
namespace LogoStudio

/-- A colour and an opacity on top of it. -/
structure Paint where
  color : Pixel
  opacity : Float

namespace Paint

/-- A colour as it is. -/
def solid (color : Pixel) : Paint := ⟨color, 1⟩

/-- The part of a pixel that the paint covers. -/
def coverage (paint : Paint) : Float :=
  Pixel.channel paint.color.a * Number.clamp paint.opacity 0 1

/-- One channel of paint with coverage `s` on a channel that is covered `d`; `whole` is
the coverage of both together. -/
def mix (s d whole : Float) (above below : UInt8) : UInt8 :=
  let sum := above.toUInt64.toFloat * s + below.toUInt64.toFloat * d * (1 - s)
  (Number.round (sum / whole)).toUInt8

/-- A pixel after painting on it. Paint that covers nothing leaves it as it is. -/
def apply (paint : Paint) (below : Pixel) : Pixel :=
  let s := paint.coverage
  if s ≤ 0 then below
  else
    let d := Pixel.channel below.a
    let whole := s + d * (1 - s)
    ⟨mix s d whole paint.color.r below.r, mix s d whole paint.color.g below.g,
      mix s d whole paint.color.b below.b, (Number.round (whole * 255)).toUInt8⟩

end Paint

end LogoStudio
