import Fray.Proofs.Listening
import Fray.Proofs.Outcome
import Fray.Proofs.Precedence

/-! Delivery of events. Who is told of an event is settled when its dispatch begins, by the subscriptions that stand
    then. Listeners may register and unregister others and themselves while they are told, and may dispatch further
    events; the dispatch that is going on does not notice, the next one does. -/

namespace Fray

open Act

variable {α η : Type}

namespace Listeners

variable [Amount α] (l : Listeners α η)

/-- What an ear does when it hears of an event, of which it knows whether it is cancelled so far; it answers whether
    it is now. -/
def hear (e : Event α) (cancelled : Bool) : Ear → Act α η Bool
  | .listener id => match e with
    | .attack r => l.attack id r cancelled
    | .kill attacker target a => l.kill id attacker target a >>= fun _ => pure cancelled
    | .finalized a final => l.finalized id a final >>= fun _ => pure cancelled
    | .preCast c r => l.preCast id c r cancelled
    | .postCast c r => l.postCast id c r >>= fun _ => pure cancelled
    | .castStart _ caster skill => l.castStart id caster skill >>= fun _ => pure cancelled
    | .castEnd _ caster skill => l.castEnd id caster skill >>= fun _ => pure cancelled
  | .indicators => match e with
    | .finalized a final => (Indicator.ofDamage a.damage final).forM (l.display a.target) >>= fun _ => pure cancelled
    | .attack _ | .kill _ _ _ | .preCast _ _ | .postCast _ _ | .castStart _ _ _ | .castEnd _ _ _ => pure cancelled

/-- Tells of an event; answers whether it is cancelled. -/
def dispatch : Event α → Act α η Bool
  | .attack r => l.askAttack r
  | .kill attacker target a => l.tellKill attacker target a >>= fun _ => pure false
  | .finalized a final => l.tellFinalized a final >>= fun _ => pure false
  | .preCast c r => l.askPreCast c r
  | .postCast c r => l.tellPostCast c r >>= fun _ => pure false
  | .castStart r caster skill => l.tellCastStart r caster skill >>= fun _ => pure false
  | .castEnd r caster skill => l.tellCastEnd r caster skill >>= fun _ => pure false

section Turns

variable {e : Event α} {turn : Bool → Ear → Act α η Bool}

omit [Amount α] in
theorem forM_eq_foldlM {f : Ear → Act α η Unit} (h : ∀ ear c, turn c ear = f ear >>= fun _ => pure c)
    (ears : List Ear) (c : Bool) : (ears.forM f >>= fun _ => pure c) = ears.foldlM turn c := by
  induction ears with
  | nil => rfl
  | cons ear ears ih =>
    show (f ear >>= fun _ => ears.forM f) >>= (fun _ => pure c) = _
    rw [List.foldlM_cons, h, bind_assoc, bind_assoc]
    simp only [pure_bind, ih]

omit [Amount α] in
theorem tell_eq {call : ListenerId → Act α η Unit} (hl : ∀ id c, turn c (.listener id) = call id >>= fun _ => pure c)
    (hi : ∀ c, turn c .indicators = pure c) :
    (tell e call >>= fun _ => pure false) = announce e >>= fun ears => ears.foldlM turn false := by
  rw [tell, bind_assoc]
  refine bind_congr fun ears => forM_eq_foldlM (fun ear c => ?_) ears false
  cases ear with
  | listener id => exact hl id c
  | indicators => exact hi c

omit [Amount α] in
theorem ask_eq {call : ListenerId → Bool → Act α η Bool} (hl : ∀ id c, turn c (.listener id) = call id c)
    (hi : ∀ c, turn c .indicators = pure c) :
    ask e call = announce e >>= fun ears => ears.foldlM turn false := by
  refine bind_congr fun ears => ?_
  congr
  funext c ear
  cases ear with
  | listener id => exact (hl id c).symm
  | indicators => exact (hi c).symm

end Turns

/-- Whatever the event is, it is entered into the history, and those who are subscribed at that point hear of it in
    turn. -/
theorem dispatch_eq (e : Event α) :
    l.dispatch e = announce e >>= fun ears => ears.foldlM (fun c ear => l.hear e c ear) false := by
  cases e with
  | attack r => exact ask_eq (fun _ _ => rfl) fun _ => rfl
  | preCast c r => exact ask_eq (fun _ _ => rfl) fun _ => rfl
  | kill attacker target a => exact tell_eq (fun _ _ => rfl) fun _ => rfl
  | postCast c r => exact tell_eq (fun _ _ => rfl) fun _ => rfl
  | castStart r caster skill => exact tell_eq (fun _ _ => rfl) fun _ => rfl
  | castEnd r caster skill => exact tell_eq (fun _ _ => rfl) fun _ => rfl
  | finalized a final =>
    show (l.tellFinalized a final >>= fun _ => pure false) = _
    rw [tellFinalized, bind_assoc]
    exact bind_congr fun ears => forM_eq_foldlM (fun ear c => by cases ear <;> rfl) ears false

/-- Where each ear that hears of an event appends something to a record, the dispatch appends it in the order in which
    they hear of it. -/
theorem dispatch_appends {δ : Type} {e : Event α} {record : η → List δ} {out : Ear → List δ}
    (h : ∀ c ear w, record (after (l.hear e c ear) w).host = record w.host ++ out ear) (w : World α η) :
    record (after (l.dispatch e) w).host = record w.host ++ w.bus.ears.flatMap out := by
  rw [dispatch_eq]
  exact foldlM_appends (fun w => record w.host) h w.bus.ears false (w.announced e)

variable {l}

/-- What is heard stays within what the listeners stay within, each in its part, and those who show numbers. -/
theorem hear_within {R : World α η → World α η → Prop} (hR : Lasting R) (hl : l.Within R)
    (preCast : ∀ id c r cancelled, Act.Within R (l.preCast id c r cancelled))
    (postCast : ∀ id c r, Act.Within R (l.postCast id c r))
    (castStart : ∀ id caster skill, Act.Within R (l.castStart id caster skill))
    (castEnd : ∀ id caster skill, Act.Within R (l.castEnd id caster skill)) (e : Event α) (cancelled : Bool) (ear : Ear) :
    Act.Within R (l.hear e cancelled ear) := by
  have heard : ∀ {x : Act α η Unit}, Act.Within R x → Act.Within R (x >>= fun _ => pure cancelled) := fun hx =>
    hR.bind hx fun _ => hR.pure cancelled
  cases ear with
  | listener id =>
    cases e with
    | attack r => exact hl.attack id r cancelled
    | kill attacker target a => exact heard (hl.kill id attacker target a)
    | finalized a final => exact heard (hl.finalized id a final)
    | preCast c r => exact preCast id c r cancelled
    | postCast c r => exact heard (postCast id c r)
    | castStart r caster skill => exact heard (castStart id caster skill)
    | castEnd r caster skill => exact heard (castEnd id caster skill)
  | indicators =>
    cases e with
    | finalized a final => exact heard (hR.forM fun i _ => hl.display a.target i)
    | attack | kill | preCast | postCast | castStart | castEnd => exact hR.pure cancelled

/-- The dispatch of an event stays within what those who hear of it stay within, from where it is announced on. -/
theorem dispatch_within {R : World α η → World α η → Prop} (hR : Lasting R)
    (hl : ∀ e c ear, Act.Within R (l.hear e c ear)) (e : Event α) (w : World α η) :
    R (w.announced e) (after (l.dispatch e) w) := by
  rw [dispatch_eq]
  exact hR.foldlM (fun ear _ c => hl e c ear) false _

end Listeners

namespace World

/-- Some changes lead from the one bus to the other. -/
def Rearranges (w v : World α η) : Prop := ∃ cs : List Bus.Change, v.bus = cs.foldl Bus.Change.act w.bus

/-- A point in the dispatch of an event: whether the event is cancelled so far, and what was done to the bus since it
    was empty. -/
structure Moment (α η : Type) where
  cancelled : Bool
  world : World α η
  changes : List Bus.Change

theorem Rearranges.ofEq {w v : World α η} (h : v.bus = w.bus) : Rearranges w v := ⟨[], h⟩

theorem lasting_rearranges : Lasting (Rearranges (α := α) (η := η)) where
  refl w := .ofEq rfl
  trans h h' := by
    obtain ⟨cs, h⟩ := h
    obtain ⟨ds, h'⟩ := h'
    exact ⟨cs ++ ds, by rw [h', h, List.foldl_append]⟩

theorem subscribe_rearranges (s : Subscription) : Act.Within (Rearranges (α := α) (η := η)) (subscribe s) :=
  fun _ => ⟨[.register s], rfl⟩

theorem unsubscribe_rearranges (id : ListenerId) : Act.Within (Rearranges (α := α) (η := η)) (unsubscribe id) :=
  fun _ => ⟨[.unregister (.listener id)], rfl⟩

variable [Amount α]

theorem dispatch_rearranges {l : Listeners α η} (hl : ∀ e c ear, Act.Within Rearranges (l.hear e c ear))
    (e : Event α) : Act.Within Rearranges (l.dispatch e) := fun w =>
  lasting_rearranges.trans (.ofEq (v := w.announced e) rfl) (Listeners.dispatch_within lasting_rearranges hl e w)

/-! ### Turns -/

/-- An ear hears of an event at a point of its dispatch. What it does to the bus is done at once. -/
structure Turn (l : Listeners α η) (e : Event α) (ear : Ear) (m n : Moment α η) : Prop where
  cancelled : n.cancelled = answer (l.hear e m.cancelled ear) m.world
  world : n.world = after (l.hear e m.cancelled ear) m.world
  changes : ∃ cs, n.changes = m.changes ++ cs ∧ n.world.bus = cs.foldl Bus.Change.act m.world.bus
  settled : n.world.bus.Settled n.changes

/-- An event is delivered: each ear of a list has its turn, one after the other, whatever is done to the bus
    meanwhile. -/
inductive Delivered (l : Listeners α η) (e : Event α) : List Ear → Moment α η → Moment α η → Prop
  | done {m : Moment α η} : Delivered l e [] m m
  | turn {ear : Ear} {ears : List Ear} {m n o : Moment α η} (h : Turn l e ear m n) (rest : Delivered l e ears n o) :
    Delivered l e (ear :: ears) m o

variable {l : Listeners α η} {e : Event α} {ears : List Ear} {m n : Moment α η}

/-- Whoever is on the list has a turn, and what is done to the bus in it comes after what was done before. -/
theorem delivered_foldlM (hl : ∀ c ear, Act.Within Rearranges (l.hear e c ear)) (ears : List Ear)
    (hm : m.world.bus.Ranked m.changes) :
    ∃ cs, Delivered l e ears m ⟨answer (ears.foldlM (fun c ear => l.hear e c ear) m.cancelled) m.world,
        after (ears.foldlM (fun c ear => l.hear e c ear) m.cancelled) m.world, m.changes ++ cs⟩ ∧
      (after (ears.foldlM (fun c ear => l.hear e c ear) m.cancelled) m.world).bus.Ranked (m.changes ++ cs) := by
  induction ears generalizing m with
  | nil =>
    refine ⟨[], ?_, ?_⟩
    · simp only [List.foldlM_nil, answer_pure, after_pure, List.append_nil]
      exact .done
    · simpa using hm
  | cons ear ears ih =>
    obtain ⟨cs, hcs⟩ := hl m.cancelled ear m.world
    have hranked : (after (l.hear e m.cancelled ear) m.world).bus.Ranked (m.changes ++ cs) := by
      rw [hcs]
      exact hm.foldl cs
    obtain ⟨ds, hrest, hlast⟩ := ih (m := ⟨answer (l.hear e m.cancelled ear) m.world,
      after (l.hear e m.cancelled ear) m.world, m.changes ++ cs⟩) hranked
    refine ⟨cs ++ ds, ?_, ?_⟩
    · rw [List.foldlM_cons, ← List.append_assoc]
      exact .turn ⟨rfl, rfl, ⟨cs, rfl, hcs⟩, hranked.settled⟩ hrest
    · rw [List.foldlM_cons, ← List.append_assoc]
      exact hlast

/-! ### Runs -/

/-- What may happen to the bus from outside. -/
inductive BusStep (α η : Type)
  | subscribe (s : Subscription)
  | unsubscribe (id : ListenerId)
  | dispatch (e : Event α)
  /-- Anything else, such as the resolution of a blow. -/
  | act (x : Act α η Unit)

namespace BusStep

/-- What else happens leaves the bus to its own operations. -/
def Fits : BusStep α η → Prop
  | .act x => Act.Within Rearranges x
  | .subscribe _ | .unsubscribe _ | .dispatch _ => True

def leaves (l : Listeners α η) (w : World α η) : BusStep α η → World α η
  | .subscribe s => after (World.subscribe s) w
  | .unsubscribe id => after (World.unsubscribe id) w
  | .dispatch e => after (l.dispatch e) w
  | .act x => after x w

/-- What comes of a step, after some changes: more changes. An event is delivered to all whose subscriptions stand when
    its dispatch begins, once for each, in the order of their priorities. -/
def Yields (l : Listeners α η) (w : World α η) (cs cs' : List Bus.Change) : BusStep α η → Prop
  | .subscribe s => cs' = cs ++ [.register s]
  | .unsubscribe id => cs' = cs ++ [.unregister (.listener id)] ∧
      (answer (World.unsubscribe id) w = true ↔ ∃ s ∈ Bus.standing cs, s.ear = .listener id)
  | .dispatch e =>
      let ears := (Bus.byPriority (Bus.standing cs)).map (·.ear)
      Delivered l e ears ⟨false, w.announced e, cs⟩ ⟨answer (l.dispatch e) w, after (l.dispatch e) w, cs'⟩ ∧
        ∀ log : η → List Ear, (∀ c ear w, log (after (l.hear e c ear) w).host = log w.host ++ [ear]) →
          log (after (l.dispatch e) w).host = log w.host ++ ears
  | .act x => ∃ ds, cs' = cs ++ ds ∧ (after x w).bus = ds.foldl Bus.Change.act w.bus

variable {w : World α η} {cs : List Bus.Change}

theorem yields (hl : ∀ e c ear, Act.Within Rearranges (l.hear e c ear)) {x : BusStep α η} (hx : x.Fits)
    (hw : w.bus.Ranked cs) : ∃ cs', x.Yields l w cs cs' ∧ (x.leaves l w).bus.Ranked cs' := by
  cases x with
  | subscribe s => exact ⟨_, rfl, hw.act (.register s)⟩
  | unsubscribe id => exact ⟨_, ⟨rfl, hw.settled.stood_iff (.listener id)⟩, hw.act (.unregister (.listener id))⟩
  | act x =>
    obtain ⟨ds, hds⟩ := hx w
    refine ⟨cs ++ ds, ⟨ds, rfl, hds⟩, ?_⟩
    rw [leaves, hds]
    exact hw.foldl ds
  | dispatch e =>
    have hears : w.bus.ears = (Bus.byPriority (Bus.standing cs)).map (·.ear) := by rw [Bus.ears, hw.settled.sorted]
    obtain ⟨ds, hdelivered, hranked⟩ :=
      delivered_foldlM (m := ⟨false, w.announced e, cs⟩) (fun c ear => hl e c ear) w.bus.ears hw
    have hdispatch : Delivered l e w.bus.ears ⟨false, w.announced e, cs⟩
        ⟨answer (l.dispatch e) w, after (l.dispatch e) w, cs ++ ds⟩ := by
      rw [Listeners.dispatch_eq]
      exact hdelivered
    refine ⟨cs ++ ds, ?_, ?_⟩
    · rw [Yields, ← hears]
      refine ⟨hdispatch, fun log hlog => ?_⟩
      rw [l.dispatch_appends hlog, List.flatMap_singleton']
    · rw [leaves, Listeners.dispatch_eq]
      exact hranked

end BusStep

/-- Through a run the bus has the subscriptions that stand, in their order, at every point of it, and every event is
    delivered by them as they stand when its dispatch begins. -/
def Delivers (l : Listeners α η) : List (BusStep α η) → World α η → List Bus.Change → Prop
  | [], w, cs => w.bus.Settled cs
  | x :: xs, w, cs => w.bus.Settled cs ∧ ∃ cs', x.Yields l w cs cs' ∧ Delivers l xs (x.leaves l w) cs'

theorem Delivers.ofRanked (hl : ∀ e c ear, Act.Within Rearranges (l.hear e c ear)) {xs : List (BusStep α η)}
    (hxs : ∀ x ∈ xs, x.Fits) {w : World α η} {cs : List Bus.Change} (hw : w.bus.Ranked cs) : Delivers l xs w cs := by
  induction xs generalizing w cs with
  | nil => exact hw.settled
  | cons x xs ih =>
    obtain ⟨hx, hxs⟩ := List.forall_mem_cons.mp hxs
    obtain ⟨cs', hyields, hranked⟩ := BusStep.yields hl hx hw
    exact ⟨hw.settled, cs', hyields, ih hxs hranked⟩

/-- Every event is delivered by the subscriptions that stand when its dispatch begins: those of a run, and those that a
    listener dispatches in the midst of its turn, in whatever world the bus has come about by changes. -/
structure DeliversAll (l : Listeners α η) (xs : List (BusStep α η)) (w : World α η) : Prop where
  run : Delivers l xs w []
  amidst : ∀ (v : World α η) (cs : List Bus.Change), v.bus = cs.foldl Bus.Change.act {} →
    v.bus.Settled cs ∧ ∀ e, ∃ cs', (BusStep.dispatch e).Yields l v cs cs'

/-- Beginning with an empty bus, every run keeps the subscriptions in order and delivers every event by them. -/
theorem delivers_from_start (hl : ∀ e c ear, Act.Within Rearranges (l.hear e c ear)) {w : World α η} (hw : w.bus = {})
    {xs : List (BusStep α η)} (hxs : ∀ x ∈ xs, x.Fits) : DeliversAll l xs w where
  run := .ofRanked hl hxs (hw ▸ Bus.ranked_start)
  amidst v cs hv := by
    have hranked : v.bus.Ranked cs := by
      rw [hv]
      exact Bus.ranked_start.foldl cs
    refine ⟨hranked.settled, fun e => ?_⟩
    obtain ⟨cs', hyields, -⟩ := BusStep.yields hl (x := .dispatch e) trivial hranked
    exact ⟨cs', hyields⟩

/-! ### Restless listeners -/

/-- Whoever is told of the start of an effect sends another one twice, leaves, and tells of the end of the effect. -/
def restless : Listeners Rat (Arena Rat) :=
  { Listeners.silent with
    castStart := fun id caster skill => do
      subscribe ⟨.listener (id + 1), -1⟩
      subscribe ⟨.listener (id + 1), -1⟩
      discard (unsubscribe id)
      discard (Listeners.silent.dispatch (.castEnd 0 caster skill)) }

theorem silent_rearranges (e : Event Rat) (c : Bool) (ear : Ear) :
    Act.Within (Rearranges (η := Arena Rat)) (Listeners.silent.hear e c ear) :=
  Listeners.hear_within lasting_rearranges (Listeners.silent_within lasting_rearranges)
    (fun _ _ _ => lasting_rearranges.pure) (fun _ _ _ => lasting_rearranges.pure ())
    (fun _ _ _ => lasting_rearranges.pure ()) (fun _ _ _ => lasting_rearranges.pure ()) e c ear

theorem restless_rearranges (e : Event Rat) (c : Bool) (ear : Ear) :
    Act.Within (Rearranges (η := Arena Rat)) (restless.hear e c ear) := by
  have hl : restless.Within Rearranges := { Listeners.silent_within lasting_rearranges with }
  refine Listeners.hear_within lasting_rearranges hl
    (fun _ _ _ => lasting_rearranges.pure) (fun _ _ _ => lasting_rearranges.pure ()) (fun id caster skill => ?_)
    (fun _ _ _ => lasting_rearranges.pure ()) e c ear
  refine lasting_rearranges.bind (subscribe_rearranges _) fun _ => ?_
  refine lasting_rearranges.bind (subscribe_rearranges _) fun _ => ?_
  refine lasting_rearranges.bind (fun w => unsubscribe_rearranges id w) fun _ => ?_
  exact fun w => dispatch_rearranges silent_rearranges (.castEnd 0 caster skill) w

/-- Three subscriptions, two of them of one listener; the start of an effect; and someone who is gone by then. -/
def bustle : List (BusStep Rat (Arena Rat)) :=
  [.subscribe ⟨.listener 0, 10⟩, .subscribe ⟨.listener 5, -5⟩, .subscribe ⟨.listener 0, 10⟩,
    .dispatch (.castStart 0 (Arena.idOf 0) ⟨"haze"⟩), .unsubscribe 5, .subscribe ⟨.listener 9, -5⟩]

theorem delivers_bustle : (∀ e c ear, Act.Within (Rearranges (η := Arena Rat)) (restless.hear e c ear)) ∧
    duel.bus = {} ∧ (∀ x ∈ bustle, x.Fits) ∧ DeliversAll restless bustle duel ∧
    (bustle.foldl (BusStep.leaves restless) duel).bus.ears =
      [.listener 9, .listener 6, .listener 6, .listener 1, .listener 1, .listener 1, .listener 1] := by
  have hxs : ∀ x ∈ bustle, x.Fits := by simp [bustle, BusStep.Fits]
  exact ⟨restless_rearranges, rfl, hxs, delivers_from_start restless_rearranges rfl hxs, by decide +kernel⟩

end World
end Fray
