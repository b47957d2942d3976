/-!
# Primitives

The procedures every program can call. Several of them have short names beside their full
one. Each takes a fixed number of inputs, and each slot for an input takes a number, a
word, or either.
-/
namespace LogoStudio.Logo

/-- What a slot for an input takes. -/
inductive Slot where
  | num
  | word
  | any
  deriving DecidableEq

inductive Primitive where
  | forward
  | back
  | left
  | right
  | penUp
  | penDown
  | home
  | setColor
  | arc
  | wait
  | print
  | error
  | clear
  | setFillColor
  | setLineColor
  | setOpacity
  | setFont
  | setTextAlign
  | fillRect
  | frameRect
  | fillCircle
  | frameCircle
  | line
  | text
  | setPixel
  deriving DecidableEq

namespace Primitive

def ofName? : String → Option Primitive
  | "fd" | "forward" => some forward
  | "bk" | "back" | "backward" => some back
  | "lt" | "left" => some left
  | "rt" | "right" => some right
  | "pu" | "penup" => some penUp
  | "pd" | "pendown" => some penDown
  | "home" => some home
  | "setcolor" | "setpencolor" => some setColor
  | "arc" => some arc
  | "wait" => some wait
  | "print" | "pr" => some print
  | "error" => some error
  | "clear" | "cs" | "clearscreen" => some clear
  | "setfillcolor" => some setFillColor
  | "setlinecolor" => some setLineColor
  | "setopacity" => some setOpacity
  | "setfont" => some setFont
  | "settextalign" => some setTextAlign
  | "fillrect" => some fillRect
  | "framerect" => some frameRect
  | "fillcircle" => some fillCircle
  | "framecircle" => some frameCircle
  | "line" => some line
  | "text" => some text
  | "setpixel" => some setPixel
  | _ => none

/-- The full name of a primitive, which messages use. -/
def name : Primitive → String
  | forward => "forward"
  | back => "back"
  | left => "left"
  | right => "right"
  | penUp => "penup"
  | penDown => "pendown"
  | home => "home"
  | setColor => "setcolor"
  | arc => "arc"
  | wait => "wait"
  | print => "print"
  | error => "error"
  | clear => "clear"
  | setFillColor => "setfillcolor"
  | setLineColor => "setlinecolor"
  | setOpacity => "setopacity"
  | setFont => "setfont"
  | setTextAlign => "settextalign"
  | fillRect => "fillrect"
  | frameRect => "framerect"
  | fillCircle => "fillcircle"
  | frameCircle => "framecircle"
  | line => "line"
  | text => "text"
  | setPixel => "setpixel"

def slots : Primitive → List Slot
  | penUp | penDown | home | wait | clear => []
  | forward | back | left | right | setOpacity => [.num]
  | print | error => [.any]
  | setFont | setTextAlign => [.word]
  | arc => [.num, .num]
  | setColor | fillCircle | frameCircle => [.num, .num, .num]
  | text => [.num, .num, .any]
  | setFillColor | setLineColor | fillRect | frameRect | line => [.num, .num, .num, .num]
  | setPixel => [.num, .num, .num, .num, .num, .num]

/-- The full name of a primitive names it. -/
theorem ofName?_name (p : Primitive) : ofName? p.name = some p := by cases p <;> rfl

end Primitive

end LogoStudio.Logo
