/-! Names of the things a fight is about. -/

namespace Fray

/-- An entity of the host, named by a value of 128 bits. -/
structure EntityId where
  val : Nat
  deriving DecidableEq, Inhabited

/-- The identity of a modifier. Two modifiers are one exactly when their identities agree, whatever they
    are worth. -/
structure ModifierId where
  val : Nat
  deriving DecidableEq, Inhabited

/-- A task of a scheduler. -/
structure TaskId where
  val : Nat
  deriving DecidableEq, Inhabited

/-- A task is written as its number after a hash sign. -/
def TaskId.text (t : TaskId) : String := "#" ++ toString t.val

end Fray
