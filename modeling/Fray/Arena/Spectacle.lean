import Fray.Arena.Spell

/-! What spectators of an arena see and hear: the events that the engine tells of, with the fighters under their
    names. -/

namespace Fray
namespace Arena

inductive Announcement (α : Type) where
  | kill (attacker target : String)
  /-- A number shown above a fighter. -/
  | indicator (target : String) (indicator : Indicator α)
  | castStart (caster : String) (skill : SkillId)
  | castEnd (caster : String) (skill : SkillId)
  | postCast (skill : SkillId) (target : Option String)

variable {α : Type} [Amount α]

/-- What is announced of an event. Numbers are shown to whoever asked for them. -/
def announce (w : World α (Arena α)) : Event α → List (Announcement α)
  | .kill attacker target _ => [.kill (w.host.name attacker) (w.host.name target)]
  | .finalized a final =>
    if w.bus.ears.contains .indicators then
      (Indicator.ofDamage a.damage final).map (.indicator (w.host.name a.target))
    else []
  | .castStart _ caster skill => [.castStart (w.host.name caster) skill]
  | .castEnd _ caster skill => [.castEnd (w.host.name caster) skill]
  | .postCast c r => [.postCast c.skill.id (r.target.map w.host.name)]
  | .attack _ | .preCast _ _ => []

/-- What was announced since the given number of events. -/
def announced (w : World α (Arena α)) (since : Nat) : List (Announcement α) :=
  (w.history.toList.drop since).flatMap (announce w)

/-- An empty arena with the spells of the arena, and with damage numbers if the configuration allows them. -/
def prepare (pvp : Bool) (c : Config) : World α (Arena α) :=
  (StateT.run (do
    discard (World.enableIndicators c)
    registerHandlers : Act α (Arena α) Unit) (World.new { pvp } c)).2

end Arena
end Fray
