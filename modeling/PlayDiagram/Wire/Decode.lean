import PlayDiagram.Play.Document
import PlayDiagram.Wire.ShapeError

/-!
# Documents read from JSON values

A record is an object with its fields as members, or an array of its fields in order.  Of an
object's members the known ones are read in the order of their names, whatever their order in the
object; unknown ones are ignored.  Only then is a missing field noticed.  Reading stops at the
first fault.
-/

namespace PlayDiagram

-- Powers mean the ones of core, whatever else is in scope.
attribute [local instance (2000)] instPowNat

open Json (Value)

/-- Reads a value of one type from a JSON value. -/
abbrev Decoder (β : Type) := Value → Except ShapeError β

namespace Decode

variable {β : Type}

/-- The report of a value of the wrong type. -/
def mismatch (v : Value) (expected : String) : Except ShapeError β :=
  .error (.wrongType (Found.ofValue v) expected)

/-! ## Single values -/

def text : Decoder String
  | .string s => .ok s
  | v => mismatch v "a string"

/-- Reads a double; an integer stands for the nearest one. -/
def float : Decoder Float
  | .number n => .ok n.toFloat
  | v => mismatch v "f64"

/-- Reads a signed integer of 64 bits. -/
def int64 : Decoder Int64
  | .number (.integer n lower upper) =>
    if n < 2 ^ (63 : Nat) then .ok n.toInt64
    else .error (.wrongValue (Found.ofValue (.number (.integer n lower upper))) "i64")
  | v => mismatch v "i64"

/-- Reads an unsigned integer of 32 bits. -/
def uint32 : Decoder UInt32
  | .number (.integer n lower upper) =>
    if 0 ≤ n ∧ n < 2 ^ (32 : Nat) then .ok n.toNat.toUInt32
    else .error (.wrongValue (Found.ofValue (.number (.integer n lower upper))) "u32")
  | v => mismatch v "u32"

/-- Reads a value that may be `null`. -/
def nullable (decode : Decoder β) : Decoder (Option β)
  | .null => .ok none
  | v => (decode v).map some

/-- Reads all items of a list with one decoder. -/
def each (decode : Decoder β) : List Value → Except ShapeError (List β)
  | [] => .ok []
  | v :: rest => do
    let head ← decode v
    let tail ← each decode rest
    return head :: tail

def list (decode : Decoder β) : Decoder (List β)
  | .array items => each decode items
  | v => mismatch v "a sequence"

/-- Finds the choice of a name. -/
def choiceOfName (choices : List β) (name : β → String) (s : String) : Except ShapeError β :=
  match choices.find? fun b => name b = s with
  | some b => .ok b
  | none => .error (.unknownName s (choices.map name))

/-- Reads one of several choices: its name, or an object whose only member has the name and the
value `null`. -/
def choice (choices : List β) (name : β → String) : Decoder β
  | .string s => choiceOfName choices name s
  | .object [(s, content)] => do
    let b ← choiceOfName choices name s
    match content with
    | .null => return b
    | v => mismatch v "unit"
  | .object _ => .error (.wrongValue .map "map with a single key")
  | v => mismatch v "string or map"

/-! ## Records -/

def record (name : String) (ofMembers : List (String × Value) → Except ShapeError β)
    (ofItems : List Value → Except ShapeError β) : Decoder β
  | .object members => ofMembers members
  | .array items => ofItems items
  | v => mismatch v s!"struct {name}"

/-- Reads the member of a name, if there is one. -/
def member? (members : List (String × Value)) (key : String) (decode : Decoder β) :
    Except ShapeError (Option β) :=
  match members.lookup key with
  | some v => (decode v).map some
  | none => .ok none

/-- The value of a field that a record must have. -/
def required (key : String) : Option β → Except ShapeError β
  | some b => .ok b
  | none => .error (.missingField key)

/-- Reads the item at an index, if there is one. -/
def item? (items : List Value) (index : Nat) (decode : Decoder β) :
    Except ShapeError (Option β) :=
  match items[index]? with
  | some v => (decode v).map some
  | none => .ok none

/-- Reads the item at an index, which must be there. -/
def item (expected : String) (items : List Value) (index : Nat) (decode : Decoder β) :
    Except ShapeError β :=
  match items[index]? with
  | some v => decode v
  | none => .error (.wrongLength index expected)

/-- Refuses items beyond the fields of a record. -/
def noMore (items : List Value) (count : Nat) : Except ShapeError Unit :=
  if count < items.length then .error (.wrongLength items.length "fewer elements in array")
  else .ok ()

/-! ## Points -/

def pointOfMembers (members : List (String × Value)) : Except ShapeError (Point Float) := do
  let x? ← member? members "x" float
  let y? ← member? members "y" float
  let x ← required "x" x?
  let y ← required "y" y?
  return { x, y }

def pointOfItems (items : List Value) : Except ShapeError (Point Float) := do
  let shape := "struct Point with 2 elements"
  let x ← item shape items 0 float
  let y ← item shape items 1 float
  noMore items 2
  return { x, y }

def point : Decoder (Point Float) :=
  record "Point" pointOfMembers pointOfItems

/-! ## Objects -/

def objectId : Decoder ObjectId := fun v =>
  (text v).map ObjectId.mk

def objectKind : Decoder ObjectKind :=
  choice ObjectKind.all ObjectKind.name

def objectOfMembers (members : List (String × Value)) :
    Except ShapeError (CourtObject Float) := do
  let height? ← member? members "height" (nullable float)
  let id? ← member? members "id" objectId
  let label? ← member? members "label" (nullable text)
  let position? ← member? members "position" point
  let size? ← member? members "size" float
  let kind? ← member? members "type" objectKind
  let width? ← member? members "width" (nullable float)
  let id ← required "id" id?
  let kind ← required "type" kind?
  let position ← required "position" position?
  return {
    id, kind, position
    label := label?.join
    size := size?.getD CourtObject.recordedSize
    width := width?.join
    height := height?.join }

def objectOfItems (items : List Value) : Except ShapeError (CourtObject Float) := do
  let shape := "struct PlayObject with 7 elements"
  let id ← item shape items 0 objectId
  let kind ← item shape items 1 objectKind
  let label? ← item? items 2 (nullable text)
  let position ← item shape items 3 point
  let size? ← item? items 4 float
  let width? ← item? items 5 (nullable float)
  let height? ← item? items 6 (nullable float)
  noMore items 7
  return {
    id, kind, position
    label := label?.join
    size := size?.getD CourtObject.recordedSize
    width := width?.join
    height := height?.join }

def object : Decoder (CourtObject Float) :=
  record "PlayObject" objectOfMembers objectOfItems

/-! ## Actions -/

def actionKind : Decoder ActionKind :=
  choice ActionKind.all ActionKind.name

def trigger : Decoder Trigger :=
  choice Trigger.all Trigger.name

def timingOfMembers (members : List (String × Value)) : Except ShapeError Timing := do
  let durationMs? ← member? members "durationMs" (nullable uint32)
  let trigger? ← member? members "trigger" trigger
  return { trigger := trigger?.getD .afterPrevious, durationMs := durationMs?.join }

def timingOfItems (items : List Value) : Except ShapeError Timing := do
  let trigger? ← item? items 0 trigger
  let durationMs? ← item? items 1 (nullable uint32)
  noMore items 2
  return { trigger := trigger?.getD .afterPrevious, durationMs := durationMs?.join }

def timing : Decoder Timing :=
  record "Animation" timingOfMembers timingOfItems

def actionOfMembers (members : List (String × Value)) : Except ShapeError (Action Float) := do
  let timing? ← member? members "animation" timing
  let origin? ← member? members "from" point
  let performer? ← member? members "fromObjectId" (nullable objectId)
  let id? ← member? members "id" text
  let target? ← member? members "to" point
  let receiver? ← member? members "toObjectId" (nullable objectId)
  let kind? ← member? members "type" actionKind
  let id ← required "id" id?
  let kind ← required "type" kind?
  let origin ← required "from" origin?
  let target ← required "to" target?
  return {
    id := ⟨id⟩, kind, origin, target
    performer := performer?.join
    receiver := receiver?.join
    timing := timing?.getD {} }

def actionOfItems (items : List Value) : Except ShapeError (Action Float) := do
  let shape := "struct PlayAction with 7 elements"
  let id ← item shape items 0 text
  let kind ← item shape items 1 actionKind
  let origin ← item shape items 2 point
  let target ← item shape items 3 point
  let performer? ← item? items 4 (nullable objectId)
  let receiver? ← item? items 5 (nullable objectId)
  let timing? ← item? items 6 timing
  noMore items 7
  return {
    id := ⟨id⟩, kind, origin, target
    performer := performer?.join
    receiver := receiver?.join
    timing := timing?.getD {} }

def action : Decoder (Action Float) :=
  record "PlayAction" actionOfMembers actionOfItems

/-! ## Phases and documents -/

/-- Reads a ball owner that is given: `null` is nobody. -/
def ballOwner : Decoder BallOwner := fun v =>
  (nullable objectId v).map fun id? => id?.elim .nobody .owner

/-- Reads a phase from members.  An owner that is not given is inherited. -/
def phaseOfMembers (members : List (String × Value)) : Except ShapeError (Phase Float) := do
  let actions? ← member? members "actions" (list action)
  let ballOwner? ← member? members "ballOwnerObjectId" ballOwner
  let id? ← member? members "id" text
  let name? ← member? members "name" text
  let objects? ← member? members "objects" (list object)
  let id ← required "id" id?
  let name ← required "name" name?
  return {
    id := ⟨id⟩, name
    objects := objects?.getD []
    actions := actions?.getD []
    ballOwner := ballOwner?.getD .inherit }

def phaseOfItems (items : List Value) : Except ShapeError (Phase Float) := do
  let shape := "struct Phase with 5 elements"
  let id ← item shape items 0 text
  let name ← item shape items 1 text
  let objects? ← item? items 2 (list object)
  let actions? ← item? items 3 (list action)
  let ballOwner? ← item? items 4 ballOwner
  noMore items 5
  return {
    id := ⟨id⟩, name
    objects := objects?.getD []
    actions := actions?.getD []
    ballOwner := ballOwner?.getD .inherit }

def phase : Decoder (Phase Float) :=
  record "Phase" phaseOfMembers phaseOfItems

def court : Decoder Court :=
  choice Court.all Court.name

def documentOfMembers (members : List (String × Value)) :
    Except ShapeError (Document Float) := do
  let court? ← member? members "courtTemplate" court
  let phases? ← member? members "phases" (list phase)
  let schemaVersion? ← member? members "schemaVersion" int64
  let schemaVersion ← required "schemaVersion" schemaVersion?
  let court ← required "courtTemplate" court?
  let phases ← required "phases" phases?
  return { schemaVersion, court, phases }

def documentOfItems (items : List Value) : Except ShapeError (Document Float) := do
  let shape := "struct BasketballPlayDocument with 3 elements"
  let schemaVersion ← item shape items 0 int64
  let court ← item shape items 1 court
  let phases ← item shape items 2 (list phase)
  noMore items 3
  return { schemaVersion, court, phases }

def document : Decoder (Document Float) :=
  record "BasketballPlayDocument" documentOfMembers documentOfItems

end Decode

end PlayDiagram
