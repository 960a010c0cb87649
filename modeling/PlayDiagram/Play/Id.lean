/-!
# Identifiers

Phases, objects and actions are named by texts.  Each kind of name is a type of its own, so that
one cannot stand for another.  The texts have no structure; only equality matters, and for objects
the order in which they are listed.
-/

namespace PlayDiagram

/-- The name of a phase, unique in its document. -/
structure PhaseId where
  text : String
  deriving DecidableEq, Repr

/-- The name of an object, unique in its phase.  In neighbouring phases one name stands for one
object. -/
structure ObjectId where
  text : String
  deriving DecidableEq, Repr

/-- The name of an action, unique in its phase. -/
structure ActionId where
  text : String
  deriving DecidableEq, Repr

namespace ObjectId

/-- Objects are listed by the code points of their names. -/
instance : LT ObjectId := ⟨fun a b => a.text < b.text⟩

instance (a b : ObjectId) : Decidable (a < b) :=
  inferInstanceAs (Decidable (a.text < b.text))

end ObjectId

end PlayDiagram
