import Fray.Damage.Attack
import Fray.Roster
import Fray.Skill.Ident

/-! Skills: a handler that knows what a skill does, together with the values of its parameters. -/

namespace Fray

/-- The parameters that every handler declares. -/
def defaultParameters : List String := ["cooldown", "mana", "stamina", "timer", "delay"]

/-- Inserts into an ascending list without repetitions. -/
def insertSorted (x : String) : List String → List String
  | [] => [x]
  | y :: ys => if x < y then x :: y :: ys else if x = y then y :: ys else y :: insertSorted x ys

/-- The name of a handler and the parameters that it declares, in ascending order. -/
structure HandlerInfo where
  id : SkillId
  parameters : List String
  deriving Inhabited

/-- A handler that declares the default parameters and `extra`. -/
def HandlerInfo.new (name : String) (extra : List String) : HandlerInfo :=
  ⟨.ofText name, (defaultParameters ++ extra).foldr insertSorted []⟩

/-- A handle of what a handler does. -/
abbrev HandlerRef := Nat

structure Handler where
  info : HandlerInfo
  ref : HandlerRef
  deriving Inhabited

/-- What a handler answers when it is asked for a cast. -/
inductive Reply where
  | refused
  /-- It will cast, on the entity that it picked if it picked one. -/
  | accepted (target : Option EntityId)
  deriving DecidableEq

def Reply.target : Reply → Option EntityId
  | .refused => none
  | .accepted target => target

structure Skill (α : Type) where
  handler : Handler
  parameters : List (String × α) := []

instance {α : Type} : Inhabited (Skill α) := ⟨⟨default, []⟩⟩

namespace Skill

variable {α : Type}

def id (s : Skill α) : SkillId := s.handler.info.id

/-- Sets the base value of a parameter, which the handler has to declare. -/
def withParameter (s : Skill α) (name : String) (value : α) : Except (Fault α) (Skill α) :=
  if s.handler.info.parameters.contains name then
    .ok { s with parameters := (name, value) :: s.parameters.filter fun p => p.1 ≠ name }
  else .error (.unknownParameter s.id.text name)

/-- The base value of a parameter; zero when it was not set. -/
def parameter [Amount α] (s : Skill α) (name : String) : α := (s.parameters.lookup name).getD 0

end Skill

/-- Everything about one cast. -/
structure Casting (α : Type) where
  skill : Skill α
  caster : Wielder
  /-- The state of the caster, which outlives its connection. -/
  state : StateRef
  target : Option EntityId
  /-- The attack that triggered the cast, for skills cast on a hit. -/
  source : Option (Attack α) := none

instance {α : Type} : Inhabited (Casting α) := ⟨⟨default, ⟨default, default⟩, 0, none, none⟩⟩

inductive CastOutcome where
  /-- The handler refused. -/
  | refused
  | onCooldown
  /-- A listener cancelled the cast. -/
  | cancelled
  | cast
  /-- The effect comes when the task runs. -/
  | delayed (task : TaskId)
  deriving DecidableEq

end Fray
