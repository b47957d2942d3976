import LogoStudio.Event.Basic
import LogoStudio.Event.Tag
import LogoStudio.Json.Writer

/-!
# Records of events

An event is written as a JSON object whose `type` is its tag. Reading a record is strict
for known tags: every member must be there and have its shape. A record with another tag
is a message if it has a `value`, and otherwise it is passed over. Members that a record
does not need do not matter.
-/
namespace LogoStudio

open Plane (Point Affine)

namespace Event

/-- A number as JSON. Numbers that are not finite have no JSON. -/
def numberJson (x : Float) : Json := if x.isFinite then .float x else .null

/-- A point as an array of its coordinates. -/
def pointJson (p : Point) : Json := .array [numberJson p.x, numberJson p.y]

def colorMembers (c : Color) : List (String × Json) :=
  [("r", numberJson c.r), ("g", numberJson c.g), ("b", numberJson c.b), ("a", numberJson c.a)]

def pixelJson (p : Pixel) : Json :=
  .array [.integer p.r.toNat, .integer p.g.toNat, .integer p.b.toNat, .integer p.a.toNat]

def alignName : TextAlign → String
  | .left => "left"
  | .center => "center"
  | .right => "right"

/-- The members of a canvas command after its tag. -/
def canvasMembers : CanvasCommand → List (String × Json)
  | .clear => []
  | .fillRect p q => [("points", .array [pointJson p, pointJson q])]
  | .frameRect p q => [("points", .array [pointJson p, pointJson q])]
  | .fillEllipse center radii =>
      [("center", pointJson center), ("shape", .array [pointJson radii])]
  | .frameEllipse center radii =>
      [("center", pointJson center), ("shape", .array [pointJson radii])]
  | .line start finish => [("from", pointJson start), ("to", pointJson finish)]
  | .text text position => [("str", .text text), ("position", pointJson position)]
  | .setLineColor color => colorMembers color
  | .setFillColor color => colorMembers color
  | .setPixel position pixel =>
      [("x", numberJson position.x), ("y", numberJson position.y), ("rgba", pixelJson pixel)]
  | .setOpacity alpha => [("alpha", numberJson alpha)]
  | .setFont font => [("font", .text font)]
  | .setTextAlign align => [("align", .text (alignName align))]
  | .transform map => [("matrix", .array (map.coefficients.map numberJson))]
  | .resetTransform => []

/-- The members of an event after its tag. -/
def members : Event → List (String × Json)
  | .compileError line note => [("line", .integer line.toNat), ("message", .text note)]
  | .runtimeError note => [("message", .text note)]
  | .timeout => []
  | .print value => [("value", .text value)]
  | .message _ value => [("value", .text value)]
  | .turtle line =>
      [("from", pointJson line.start), ("to", pointJson line.finish),
        ("color", .object (colorMembers line.color))]
  | .canvas command => canvasMembers command

def record (e : Event) : Json := .object (("type", .text e.tag) :: e.members)

def text (e : Event) : String := e.record.write

def listText (events : List Event) : String := (Json.array (events.map record)).write

end Event

/-- What is wrong with a member of a record. -/
inductive RecordFault where
  /-- A member is missing or has another shape. -/
  | shape
  /-- The shape of an ellipse has no radius. -/
  | noRadius
  /-- A squared radius is negative. -/
  | badRadii (x y : Float)

inductive RecordError where
  | missingType
  | malformed (tag : String) (fault : RecordFault)
  | badColor (text : String)

/-- What is said about a fault. Of a member without its shape no more is said. -/
def RecordFault.reason? : RecordFault → Option String
  | .shape => none
  | .noRadius => some "missing shape"
  | .badRadii x y =>
      some ("bad squared radii (" ++ Number.plainText x ++ ", " ++ Number.plainText y ++ ")")

/-- What is said about a record, where there is something to say. -/
def RecordError.message? : RecordError → Option String
  | .missingType => some "event record has no \"type\" tag"
  | .malformed tag fault =>
      fault.reason?.map fun reason => "malformed " ++ tag ++ " event: " ++ reason
  | .badColor text => some (Pixel.badHexMessage text)

namespace Event

/-- A list of exactly two values. -/
def two? (read : Json → Option α) : Json → Option (α × α)
  | .array [x, y] => do return (← read x, ← read y)
  | _ => none

/-- A point from an array of two numbers. -/
def point? (j : Json) : Option Point := (two? Json.asNumber? j).map fun (x, y) => ⟨x, y⟩

def list? (read : Json → Option α) (j : Json) : Option (List α) := j.asArray?.bind (·.mapM read)

/-- The colour of the members `r`, `g`, `b` and perhaps `a`. -/
def colorOfMembers? (j : Json) : Option Color := do
  let channel (key : String) := (j.get? key).bind Json.asNumber?
  let a ← match j.get? "a" with
    | none => some 1
    | some v => v.asNumber?
  return ⟨← channel "r", ← channel "g", ← channel "b", a⟩

/-- The colour of an object of channels, or of an array of three or four of them. -/
def colorOfChannels? (j : Json) : Option Color :=
  match j with
  | .object _ => colorOfMembers? j
  | .array _ =>
      match list? Json.asNumber? j with
      | some [r, g, b] => some ⟨r, g, b, 1⟩
      | some [r, g, b, a] => some ⟨r, g, b, a⟩
      | _ => none
  | _ => none

/-- The pixel of an array of four bytes. -/
def pixel? (j : Json) : Option Pixel :=
  match list? (Json.asNat? 256) j with
  | some [r, g, b, a] => some ⟨UInt8.ofNat r, UInt8.ofNat g, UInt8.ofNat b, UInt8.ofNat a⟩
  | _ => none

def alignOfName? : String → Option TextAlign
  | "left" | "start" => some .left
  | "center" => some .center
  | "right" | "end" => some .right
  | _ => none

/-- An alignment by its name, or as an object whose one key is the name and whose value
holds nothing. -/
def align? : Json → Option TextAlign
  | .text name => alignOfName? name
  | .object [(name, .null)] => alignOfName? name
  | .object [(name, .object [])] => alignOfName? name
  | _ => none

/-- The map of an array of six numbers. -/
def affine? (j : Json) : Option Affine :=
  match list? Json.asNumber? j with
  | some [a, b, c, d, e, f] => some ⟨a, b, c, d, e, f⟩
  | _ => none

/-- The squared radii of the first list in a shape: one number for both, or one for each.
Numbers and lists after them do not matter. -/
def radii (shape : List (List Float)) : Except RecordFault Point :=
  let check (x y : Float) : Except RecordFault Point :=
    if x < 0 ∨ y < 0 then .error (.badRadii x y) else .ok ⟨x, y⟩
  match shape with
  | [r] :: _ => check r r
  | (x :: y :: _) :: _ => check x y
  | _ => .error .noRadius

/-- A member that must be there. -/
def need (j : Json) (key : String) (read : Json → Option α) : Except RecordFault α :=
  match (j.get? key).bind read with
  | some value => .ok value
  | none => .error .shape

/-- The centre and the squared radii of an ellipse. -/
def ellipse (j : Json) : Except RecordFault (Point × Point) := do
  let center ← need j "center" point?
  let shape ← need j "shape" (list? (list? Json.asNumber?))
  return (center, ← radii shape)

/-- The canvas command of a record with a canonical tag. -/
def canvasCommand (tag : String) (j : Json) : Except RecordFault CanvasCommand :=
  match tag with
  | "canvas.clear" => return .clear
  | "canvas.fill" => do
      let (p, q) ← need j "points" (two? point?)
      return .fillRect p q
  | "canvas.frame" => do
      let (p, q) ← need j "points" (two? point?)
      return .frameRect p q
  | "canvas.ellipseFill" => do
      let (center, radii) ← ellipse j
      return .fillEllipse center radii
  | "canvas.ellipseCurve" => do
      let (center, radii) ← ellipse j
      return .frameEllipse center radii
  | "canvas.line" => return .line (← need j "from" point?) (← need j "to" point?)
  | "canvas.text" => return .text (← need j "str" Json.asText?) (← need j "position" point?)
  | "canvas.setLineColor" =>
      match colorOfMembers? j with
      | some color => return .setLineColor color
      | none => .error .shape
  | "canvas.setFillColor" =>
      match colorOfMembers? j with
      | some color => return .setFillColor color
      | none => .error .shape
  | "canvas.setPixel" => do
      let x ← need j "x" Json.asNumber?
      let y ← need j "y" Json.asNumber?
      return .setPixel ⟨x, y⟩ (← need j "rgba" pixel?)
  | "canvas.setOpacity" => return .setOpacity (← need j "alpha" Json.asNumber?)
  | "canvas.setFont" => return .setFont (← need j "font" Json.asText?)
  | "canvas.setTextAlign" => return .setTextAlign (← need j "align" align?)
  | "canvas.transform" => return .transform (← need j "matrix" affine?)
  | "canvas.resetTransform" => return .resetTransform
  | _ => .error .shape

/-- The colour of a turtle line: channels, or the text of a pixel, which is looked at
last. -/
def lineColor? : Json → Option (Except RecordError Color)
  | .text s =>
      match Pixel.ofHex? s with
      | some pixel => some (.ok pixel.color)
      | none => some (.error (.badColor s))
  | j => (colorOfChannels? j).map .ok

/-- The text of a value: a text as it stands, nothing for `null`, and JSON for the rest. -/
def valueText : Json → String
  | .text s => s
  | .null => ""
  | j => j.write

/-- The event of a record with a known canonical tag. -/
def ofKnown (tag : String) (j : Json) : Except RecordError Event :=
  let orMalformed {α : Type} (r : Except RecordFault α) : Except RecordError α :=
    r.mapError (.malformed tag)
  match tag with
  | "compile error" => orMalformed do
      let line ← need j "line" (Json.asNat? (Nat.pow 2 32))
      return .compileError (UInt32.ofNat line) (← need j "message" Json.asText?)
  | "runtime error" => orMalformed do return .runtimeError (← need j "message" Json.asText?)
  | "timeout" => .ok .timeout
  | "print" => orMalformed do return .print (← need j "value" (some ∘ valueText))
  | "turtle.line" => do
      let start ← orMalformed (need j "from" point?)
      let finish ← orMalformed (need j "to" point?)
      let color ← orMalformed (need j "color" lineColor?)
      return .turtle ⟨start, finish, ← color⟩
  | _ => orMalformed do return .canvas (← canvasCommand tag j)

/-- The event of a record. A record with an unknown tag and no value has none. -/
def ofRecord (j : Json) : Except RecordError (Option Event) :=
  match (j.get? "type").bind Json.asText? with
  | none => .error .missingType
  | some tag =>
      let canonical := Tag.canonical tag.toList
      if Tag.isKnown canonical then (ofKnown (String.ofList canonical) j).map some
      else .ok ((j.get? "value").map fun value => .message tag (valueText value))

/-- Why a text is no list of records. -/
inductive ListError where
  | json
  | notAnArray

def notAnArrayMessage : String := "expected an array of event records"

/-- The events of a list of records; malformed records are left out. -/
def ofRecords (records : List Json) : List Event :=
  records.filterMap fun j =>
    match ofRecord j with
    | .ok event => event
    | .error _ => none

/-- The events of a JSON text that holds an array of records. -/
def readList (text : String) : Except ListError (List Event) :=
  match Json.read? text with
  | none => .error .json
  | some (.array records) => .ok (ofRecords records)
  | some _ => .error .notAnArray

end Event

end LogoStudio
