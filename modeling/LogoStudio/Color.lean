import LogoStudio.Number.Rounding
import LogoStudio.Text.Hex
import LogoStudio.Text.Quoted

/-!
# Colours

Programs and records name a colour by four channels from zero to one. Surfaces hold
pixels of four bytes, with the colour not multiplied by its opacity. As text a pixel is
`#rrggbbaa`.
-/
namespace LogoStudio

/-- A colour with channels from zero to one. -/
structure Color where
  r : Float
  g : Float
  b : Float
  a : Float
  deriving DecidableEq

/-- A pixel: four channels of one byte each. -/
structure Pixel where
  r : UInt8
  g : UInt8
  b : UInt8
  a : UInt8
  deriving DecidableEq

namespace Color

def black : Color := ⟨0, 0, 0, 1⟩

/-- The byte of a channel: out-of-range channels are clamped and NaN gives zero. -/
def channelByte (x : Float) : UInt8 := (Number.round (Number.clamp x 0 1 * 255)).toUInt8

/-- The pixel nearest to a colour. -/
def pixel (c : Color) : Pixel :=
  ⟨channelByte c.r, channelByte c.g, channelByte c.b, channelByte c.a⟩

end Color

namespace Pixel

/-- The pixel of an empty surface. -/
def transparent : Pixel := ⟨0, 0, 0, 0⟩

def black : Pixel := ⟨0, 0, 0, 255⟩

def channel (x : UInt8) : Float := x.toUInt64.toFloat / 255

def color (p : Pixel) : Color := ⟨channel p.r, channel p.g, channel p.b, channel p.a⟩

def hexDigits (p : Pixel) : List Char :=
  Text.hexPair p.r.toNat ++ Text.hexPair p.g.toNat ++ Text.hexPair p.b.toNat ++
    Text.hexPair p.a.toNat

/-- A pixel as `#rrggbbaa`. -/
def hex (p : Pixel) : String := String.ofList ('#' :: p.hexDigits)

/-- The byte that a pair of characters spells: two hexadecimal digits, or a plus sign and
one. -/
def pair? (high low : Char) : Option UInt8 :=
  if high = '+' then (Text.hexDigit? low).map UInt8.ofNat
  else do return UInt8.ofNat (16 * (← Text.hexDigit? high) + (← Text.hexDigit? low))

/-- The pixel of six or eight digits; six of them leave it solid. -/
def ofDigits? : List Char → Option Pixel
  | [r, r', g, g', b, b'] => do
      return ⟨← pair? r r', ← pair? g g', ← pair? b b', 255⟩
  | [r, r', g, g', b, b', a, a'] => do
      return ⟨← pair? r r', ← pair? g g', ← pair? b b', ← pair? a a'⟩
  | _ => none

/-- The pixel that a text spells, with or without a leading `#`. -/
def ofHex? (text : String) : Option Pixel :=
  match text.toList with
  | '#' :: digits => ofDigits? digits
  | digits => ofDigits? digits

def badHexMessage (text : String) : String := "invalid color " ++ Text.quoted text

end Pixel

end LogoStudio
