import Fray.Damage.Indicator

/-! Steps with damage: a change or a question, as a script takes them one by one. A step that is refused leaves
    the damage as it was and answers why. -/

namespace Fray

inductive Packet.Step (α : Type) where
  | edit (edit : Packet.Edit α)
  | hasType (t : DamageType)
  | isElement (e : Option Element)

inductive Damage.Step (α : Type) where
  | edit (edit : Damage.Edit α)
  /-- Appends a packet after a bonus and a scale. -/
  | contribute (value : α) (element : Option Element) (types : List DamageType) (bonus scale : α)
  | packet (index : Nat) (step : Packet.Step α)
  /-- Asks for everything there is to know. -/
  | survey
  /-- Asks for the numbers that are shown once `final` was dealt; without it, once all was dealt. -/
  | indicators (final : Option α)

inductive Damage.Answer (α : Type) where
  | done
  | refused (fault : Fault α)
  /-- There is no packet at the index. -/
  | absent
  | truth (b : Bool)
  | survey (damage : Damage α)
  | indicators (shown : List (Indicator α))

variable {α : Type} [Amount α]

namespace Packet

def step (p : Packet α) : Step α → Packet α × Damage.Answer α
  | .edit e => match p.edit e with
    | .ok p' => (p', .done)
    | .error fault => (p, .refused fault)
  | .hasType t => (p, .truth (p.hasType t))
  | .isElement e => (p, .truth (p.isElement e))

end Packet

namespace Damage

/-- The edit that appends a packet after a bonus and a scale. -/
def contribution (value : α) (element : Option Element) (types : List DamageType) (bonus scale : α) :
    Except (Fault α) (Edit α) := do
  let p ← Packet.new value element types
  let p ← p.edit (.add bonus)
  let p ← p.edit (.scale scale)
  return .addPacket p

def tryEdit (d : Damage α) (e : Except (Fault α) (Edit α)) : Damage α × Answer α :=
  match e.bind d.edit with
  | .ok d' => (d', .done)
  | .error fault => (d, .refused fault)

def step (d : Damage α) : Step α → Damage α × Answer α
  | .edit e => d.tryEdit (.ok e)
  | .contribute value element types bonus scale => d.tryEdit (contribution value element types bonus scale)
  | .packet index s =>
    match d.packets[index]? with
    | none => (d, .absent)
    | some p =>
      let (p, answer) := p.step s
      ({ d with packets := d.packets.set index p }, answer)
  | .survey => (d, .survey d)
  | .indicators final => (d, .indicators (Indicator.ofDamage d (final.getD d.dealt)))

/-- Takes steps one after the other; one that is refused changes nothing, and the next is taken. -/
def steps (d : Damage α) (ss : List (Step α)) : Damage α := ss.foldl (fun d s => (d.step s).1) d

end Damage
end Fray
