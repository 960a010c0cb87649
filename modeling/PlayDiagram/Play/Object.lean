import PlayDiagram.Court.Point
import PlayDiagram.Play.Id

/-!
# Objects on the court
-/

namespace PlayDiagram

/-- What an object stands for. -/
inductive ObjectKind where
  | offensePlayer
  | defensePlayer
  | ball
  | cone
  | text
  | shapeRect
  | shapeCircle
  deriving DecidableEq, Repr

namespace ObjectKind

/-- All kinds, in the order in which they are listed. -/
def all : List ObjectKind :=
  [offensePlayer, defensePlayer, ball, cone, text, shapeRect, shapeCircle]

/-- The written name of a kind. -/
def name : ObjectKind → String
  | offensePlayer => "offense_player"
  | defensePlayer => "defense_player"
  | ball => "ball"
  | cone => "cone"
  | text => "text"
  | shapeRect => "shape_rect"
  | shapeCircle => "shape_circle"

/-- Whether the object is a player, of either team.  Only players get the ball by themselves. -/
def isPlayer : ObjectKind → Bool
  | offensePlayer | defensePlayer => true
  | _ => false

/-- The size, in court units, that a new object of the kind has. -/
def defaultSize : ObjectKind → UInt32
  | offensePlayer | defensePlayer => 28
  | ball => 16
  | cone => 20
  | text => 18
  | shapeRect | shapeCircle => 80

end ObjectKind

/-- Anything that a phase places on the court. -/
structure CourtObject (α : Type) where
  id : ObjectId
  kind : ObjectKind
  /-- The text drawn beside the object. -/
  label : Option String
  position : Point α
  size : α
  /-- The width of a rectangle. -/
  width : Option α
  /-- The height of a rectangle. -/
  height : Option α
  deriving DecidableEq, BEq, Repr

namespace CourtObject

variable {α : Type} [Scalar α]

/-- The size of an object that is recorded without one. -/
def recordedSize : α :=
  Scalar.ofWord 28

/-- A new object without a label, of the size of its kind; a rectangle is 120 by 80. -/
def new (id : ObjectId) (kind : ObjectKind) (position : Point α) : CourtObject α :=
  let isRect := kind = .shapeRect
  { id
    kind
    label := none
    position
    size := Scalar.ofWord kind.defaultSize
    width := if isRect then some (Scalar.ofWord 120) else none
    height := if isRect then some (Scalar.ofWord 80) else none }

omit [Scalar α] in
/-- The object with a label. -/
def labelled (o : CourtObject α) (label : String) : CourtObject α :=
  { o with label := some label }

omit [Scalar α] in
/-- The name to show: the label, or the identifier where there is none. -/
def displayName (o : CourtObject α) : String :=
  o.label.getD o.id.text

end CourtObject

end PlayDiagram
