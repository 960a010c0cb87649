import PlayDiagram.Play.Document

/-!
# Templates

Ready-made documents to start from.
-/

namespace PlayDiagram

/-- The ready-made plays. -/
inductive Template where
  | empty
  | pickAndRoll
  | hornsFlare
  deriving DecidableEq, Repr

namespace Template

/-- All templates, in the order in which they are listed. -/
def all : List Template :=
  [empty, pickAndRoll, hornsFlare]

/-- The written name of a template. -/
def name : Template → String
  | empty => "empty"
  | pickAndRoll => "pick_and_roll"
  | hornsFlare => "horns_flare"

/-- The template of a name. -/
def ofName? (name : String) : Option Template :=
  all.find? fun t => t.name = name

variable {α : Type} [Scalar α]

/-- The point with whole coordinates. -/
def spot (x y : UInt32) : Point α :=
  ⟨Scalar.ofWord x, Scalar.ofWord y⟩

/-- A labelled player of the attacking team. -/
def attacker (id label : String) (x y : UInt32) : CourtObject α :=
  (CourtObject.new ⟨id⟩ .offensePlayer (spot x y)).labelled label

/-- A labelled player of the defending team. -/
def defender (id label : String) (x y : UInt32) : CourtObject α :=
  (CourtObject.new ⟨id⟩ .defensePlayer (spot x y)).labelled label

/-- An action of one object along a path with whole coordinates. -/
def move (id : String) (kind : ActionKind) (performer : String) (origin target : UInt32 × UInt32)
    (ms : UInt32) : Action α :=
  ((Action.freehand ⟨id⟩ kind (spot origin.1 origin.2) (spot target.1 target.2)).performedBy
    ⟨performer⟩).lasting ms

/-- A screen away from the ball; the screener then rolls to the basket and gets the pass. -/
def pickAndRollPlay : Document α :=
  let afterScreen : List (CourtObject α) :=
    [attacker "P1" "1" 660 620, attacker "P5" "5" 520 360, attacker "P2" "2" 180 520,
      defender "X1" "x1" 500 700]
  Document.new .half
    [ { id := ⟨"pnr-1"⟩
        name := "Set the screen"
        objects :=
          [attacker "P1" "1" 500 760, attacker "P5" "5" 620 560, attacker "P2" "2" 180 520,
            defender "X1" "x1" 500 700]
        actions :=
          [move "pnr-a1" .screen "P5" (620, 560) (545, 700) 700,
            move "pnr-a2" .dribble "P1" (500, 760) (660, 620) 900,
            (move "pnr-a3" .cut "P5" (545, 700) (520, 360) 900).triggered .withPrevious]
        ballOwner := .owner ⟨"P1"⟩ },
      { id := ⟨"pnr-2"⟩
        name := "Hit the roller"
        objects := afterScreen
        actions := [(move "pnr-a4" .pass "P1" (660, 620) (520, 360) 500).receivedBy ⟨"P5"⟩]
        ballOwner := .inherit },
      { id := ⟨"pnr-3"⟩
        name := "Finish"
        objects := afterScreen
        actions := [move "pnr-a5" .shot "P5" (520, 360) (500, 120) 600]
        ballOwner := .inherit } ]

/-- The ball goes to one horn; the other screens for a shooter on the far side. -/
def hornsFlarePlay : Document α :=
  Document.new .half
    [ { id := ⟨"horns-1"⟩
        name := "Horns entry"
        objects :=
          [attacker "P1" "1" 500 780, attacker "P4" "4" 380 540, attacker "P5" "5" 620 540,
            attacker "P2" "2" 120 300, attacker "P3" "3" 880 300]
        actions :=
          [(move "horns-a1" .pass "P1" (500, 780) (380, 540) 600).receivedBy ⟨"P4"⟩,
            (move "horns-a2" .screen "P5" (620, 540) (800, 420) 800).triggered .withPrevious,
            move "horns-a3" .cut "P3" (880, 300) (900, 520) 700]
        ballOwner := .owner ⟨"P1"⟩ },
      { id := ⟨"horns-2"⟩
        name := "Skip to the flare"
        objects :=
          [attacker "P1" "1" 500 780, attacker "P4" "4" 380 540, attacker "P5" "5" 800 420,
            attacker "P2" "2" 120 300, attacker "P3" "3" 900 520]
        actions := [(move "horns-a4" .pass "P4" (380, 540) (900, 520) 700).receivedBy ⟨"P3"⟩]
        ballOwner := .inherit } ]

/-- The document of a template. -/
def document : Template → Document α
  | empty => Document.empty
  | pickAndRoll => pickAndRollPlay
  | hornsFlare => hornsFlarePlay

end Template

end PlayDiagram
