import Fray.Engine.Listeners
import Fray.Proofs.Action

/-! Telling listeners of blows. An event is entered into the history once, before anyone hears of it; what comes
    after is what the listeners do. So a telling stays within any relation that its listeners stay within, from
    the world in which the event has been announced. -/

namespace Fray

open Act

variable {α η : Type}

/-- One of the three events that the resolution of a blow announces. -/
def Event.isOfBlow : Event α → Bool
  | .attack _ | .kill _ _ _ | .finalized _ _ => true
  | .preCast _ _ | .postCast _ _ | .castStart _ _ _ | .castEnd _ _ _ => false

namespace World

/-- The world once an event is entered into the history. -/
def announced (e : Event α) (w : World α η) : World α η := { w with history := w.history.push e }

/-- What listeners were told of blows, oldest first. -/
def told (w : World α η) : List (Event α) := w.history.toList.filter Event.isOfBlow

theorem told_announced {e : Event α} (he : e.isOfBlow = true) (w : World α η) :
    (w.announced e).told = w.told ++ [e] := by
  simp [told, announced, he]

end World

namespace Listeners

/-- Whatever listeners do when they are told of blows, and wherever damage numbers are shown, it stays within
    the relation. -/
structure Within (R : World α η → World α η → Prop) (l : Listeners α η) : Prop where
  attack : ∀ id r cancelled, Act.Within R (l.attack id r cancelled)
  kill : ∀ id attacker target a, Act.Within R (l.kill id attacker target a)
  finalized : ∀ id a final, Act.Within R (l.finalized id a final)
  display : ∀ target i, Act.Within R (l.display target i)

theorem Within.mono {R S : World α η → World α η → Prop} {l : Listeners α η} (hl : l.Within R)
    (h : ∀ w v, R w v → S w v) : l.Within S where
  attack id r cancelled w := h _ _ (hl.attack id r cancelled w)
  kill id attacker target a w := h _ _ (hl.kill id attacker target a w)
  finalized id a final w := h _ _ (hl.finalized id a final w)
  display target i w := h _ _ (hl.display target i w)

variable {R : World α η → World α η → Prop} (hR : Lasting R)
include hR

theorem silent_within : silent.Within R where
  attack _ _ cancelled := hR.pure cancelled
  kill _ _ _ _ := hR.pure ()
  finalized _ _ _ := hR.pure ()
  display _ _ := hR.pure ()

theorem tell_within {e : Event α} {call : ListenerId → Act α η Unit} (hc : ∀ id, Act.Within R (call id))
    (w : World α η) : R (w.announced e) (after (tell e call) w) := by
  show R (w.announced e) (after ((answer (announce e) w).forM _) (w.announced e))
  refine hR.forM (fun ear _ => ?_) _
  cases ear
  · exact hc _
  · exact hR.pure ()

theorem ask_within {e : Event α} {call : ListenerId → Bool → Act α η Bool}
    (hc : ∀ id cancelled, Act.Within R (call id cancelled)) (w : World α η) :
    R (w.announced e) (after (ask e call) w) := by
  show R (w.announced e) (after ((answer (announce e) w).foldlM _ false) (w.announced e))
  refine hR.foldlM (fun ear _ cancelled => ?_) false _
  cases ear
  · exact hc _ cancelled
  · exact hR.pure cancelled

variable {l : Listeners α η} (hl : l.Within R)
include hl

theorem askAttack_within (r : AttackRef) (w : World α η) :
    R (w.announced (.attack r)) (after (l.askAttack r) w) :=
  ask_within hR (fun id cancelled => hl.attack id r cancelled) w

theorem tellKill_within (attacker target : EntityId) (a : Attack α) (w : World α η) :
    R (w.announced (.kill attacker target a)) (after (l.tellKill attacker target a) w) :=
  tell_within hR (fun id => hl.kill id attacker target a) w

theorem tellFinalized_within [Amount α] (a : Attack α) (final : α) (w : World α η) :
    R (w.announced (.finalized a final)) (after (l.tellFinalized a final) w) := by
  show R (w.announced _) (after ((answer (announce (.finalized a final)) w).forM _) (w.announced _))
  refine hR.forM (fun ear _ => ?_) _
  cases ear
  · exact hl.finalized _ a final
  · exact hR.forM fun i _ => hl.display a.target i

end Listeners
end Fray
