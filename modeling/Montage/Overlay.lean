import Montage.Text.Blank
import Montage.Timeline.Rejection

/-!
# Overlays

Captions and shapes that are drawn over the picture for a while. Their only rules are the checks
of their own values.
-/

namespace Montage

variable {α : Type} [Scalar α]

/-! ## Checks -/

/-- The whole number of the given value. -/
def Scalar.ofNat : Nat → α
  | 0 => 0
  | n + 1 => Scalar.ofNat n + 1

/-- An overlay is shown from an instant that is not negative, for a positive time. -/
def checkRange (start stop : α) : Except (Rejection α) Unit :=
  if start < 0 || stop ≤ start then .error (.emptyRange start stop) else .ok ()

/-- A position is a percentage of the picture. -/
def checkPercent (label : String) (value : α) : Except (Rejection α) Unit :=
  if 0 ≤ value && value ≤ Scalar.ofNat 100 then .ok () else .error (.outsidePercent label value)

/-! ## Captions -/

/-- A text over the picture. -/
structure Caption (α : Type) where
  id : String
  text : String
  start : α
  stop : α
  /-- Percent from the left. -/
  x : α
  /-- Percent from the bottom. -/
  y : α
  fontSize : UInt32
  fontFamily : String
  color : String
deriving DecidableEq, Repr

namespace Caption

/-- The values that a caption has when nobody says otherwise. -/
def standard (id text : String) (start stop : α) : Caption α where
  id := id
  text := text
  start := start
  stop := stop
  x := Scalar.ofNat 50
  y := Scalar.ofNat 10
  fontSize := 48
  fontFamily := "Sans"
  color := "white"

/-- Whether the caption may be drawn. -/
def check (caption : Caption α) : Except (Rejection α) Unit := do
  checkRange caption.start caption.stop
  checkPercent "x" caption.x
  checkPercent "y" caption.y
  if Text.allBlank caption.text then throw .blankText
  if caption.fontSize = 0 then throw .zeroFontSize

end Caption

/-! ## Shapes -/

/-- What a shape looks like. -/
inductive ShapeKind
  | line
  | arrow
deriving DecidableEq, Repr, Inhabited

/-- The kind as documents name it. -/
def ShapeKind.wireName : ShapeKind → String
  | .line => "line"
  | .arrow => "arrow"

/-- A line or an arrow over the picture. -/
structure Shape (α : Type) where
  id : String
  name : String
  kind : ShapeKind
  start : α
  stop : α
  x1 : α
  y1 : α
  x2 : α
  y2 : α
  color : String
  width : UInt32
deriving DecidableEq, Repr

namespace Shape

/-- The values that a shape has when nobody says otherwise. -/
def standard (id : String) (kind : ShapeKind) (start stop : α) : Shape α where
  id := id
  name := ""
  kind := kind
  start := start
  stop := stop
  x1 := Scalar.ofNat 10
  y1 := Scalar.ofNat 10
  x2 := Scalar.ofNat 90
  y2 := Scalar.ofNat 10
  color := "white"
  width := 3

/-- Whether the shape may be drawn. -/
def check (shape : Shape α) : Except (Rejection α) Unit := do
  checkRange shape.start shape.stop
  checkPercent "x1" shape.x1
  checkPercent "y1" shape.y1
  checkPercent "x2" shape.x2
  checkPercent "y2" shape.y2
  if shape.width = 0 then throw .zeroStrokeWidth

end Shape

end Montage
