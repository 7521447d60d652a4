import Fray.Demo.Fight
import Fray.Proofs.Felled
import Fray.Proofs.Machine
import Fray.Proofs.Permission
import Fray.Proofs.WrittenOnce

/-! Who is noted to fall. A strike that is applied notes the fall of its target as soon as it leaves no health: for
    the living that is when their health goes from above zero to zero, once and for all; but whoever is struck dead
    already is noted again, with each strike that is applied. Of the attackers only players are kept from that, by the
    gate. -/

namespace Fray

open Act

/-- Who is said to fall. -/
def Note.fallen? {α : Type} : Note α → Option String
  | .falls name => some name
  | _ => none

namespace World

variable {α η : Type}

/-- The falls that are noted, oldest first. -/
def falls (w : World α η) : List String := w.journal.toList.filterMap Note.fallen?

theorem falls_note (n : Note α) (w : World α η) : (after (note n) w).falls = w.falls ++ n.fallen?.toList := by
  simp only [falls, after_note, Array.toList_push, List.filterMap_append]
  cases hn : n.fallen? <;> simp [hn]

end World

namespace Arena

variable {α : Type} [Amount α]

/-! ### Peace -/

/-- The fighters are who and as they were, and no fall is noted. -/
structure Peaceful (w v : World α (Arena α)) : Prop where
  fighters : ∀ e, v.host.fighter? e = w.host.fighter? e
  falls : v.falls = w.falls

omit [Amount α] in
theorem lasting_peaceful : Lasting (Peaceful (α := α)) where
  refl _ := ⟨fun _ => rfl, rfl⟩
  trans h h' := ⟨fun e => (h'.fighters e).trans (h.fighters e), h'.falls.trans h.falls⟩

omit [Amount α] in
theorem note_peaceful {n : Note α} (hn : n.fallen? = none) : Act.Within (Peaceful (α := α)) (World.note n) :=
  fun w => ⟨fun _ => rfl, by simp [World.falls_note, hn]⟩

omit [Amount α] in
theorem windows_peaceful (w : World α (Arena α)) (windows : Windows α) : Peaceful w { w with windows } :=
  ⟨fun _ => rfl, rfl⟩

omit [Amount α] in
theorem announced_peaceful (e : Event α) (w : World α (Arena α)) : Peaceful w (w.announced e) := ⟨fun _ => rfl, rfl⟩

omit [Amount α] in
theorem expire_peaceful (tick : Nat) : Act.Within (Peaceful (α := α)) (World.expire tick) := by
  intro w
  refine lasting_peaceful.trans (windows_peaceful w (w.windows.expire tick)) ?_
  simp only [World.expire, after_bind, after_set, after_ite, after_pure]
  split
  · exact note_peaceful rfl _
  · exact lasting_peaceful.refl _

omit [Amount α] in
theorem register_peaceful (k : WindowKey) (a : Attack α) : Act.Within (Peaceful (α := α)) (World.register k a) := by
  intro w
  exact lasting_peaceful.trans (expire_peaceful k.tick w) (windows_peaceful _ _)

theorem locate_peaceful (b : Blow α) : Act.Within (Peaceful (α := α)) (World.locate b).run := by
  intro w
  rcases World.run_locate w b with ⟨fault, -, -, hafter⟩ | ⟨r, -, -, hafter⟩ | ⟨a, -, -, -, hafter⟩
  · rw [hafter]
    exact lasting_peaceful.refl w
  · rw [hafter]
    exact lasting_peaceful.refl w
  · rw [hafter]
    exact register_peaceful b.key a w

section

variable {l : Listeners α (Arena α)} (hl : l.Within Peaceful)
include hl

theorem finish_peaceful (b : Blow α) (a : Attack α) (health : Option α) :
    Act.Within Peaceful (World.finish l b a health) := by
  intro w
  cases hb : b.final with
  | none =>
    rw [(World.finish_of_none hb l a health w).2]
    exact World.conclude_within lasting_peaceful (fun e w _ => announced_peaceful e w) hl b a _ w
  | some previous =>
    simp only [World.finish, Blow.write, hb]
    exact note_peaceful rfl w

theorem apply_peaceful (b : Blow α) (r : AttackRef) : Act.Within Peaceful (World.apply l b r) := by
  have hasked : Act.Within Peaceful (l.askAttack r) := fun w =>
    lasting_peaceful.trans (announced_peaceful _ w) (l.askAttack_within lasting_peaceful hl r w)
  have hclosed : Act.Within (Peaceful (α := α)) (World.close b.key r) := fun w => windows_peaceful w _
  intro w
  simp only [World.apply, after_get_bind]
  split
  · cases (w.windows.attack r).attacker with
    | none => exact hclosed w
    | some wielder => exact lasting_peaceful.trans (note_peaceful rfl w) (hclosed _)
  · refine lasting_peaceful.bind hasked (fun cancelled => lasting_peaceful.bind hclosed fun _ => ?_) w
    exact .ite (lasting_peaceful.pure _) fun w => finish_peaceful hl b _ _ w

/-- To resolve a blow is no strike: it leaves the fighters in peace, whatever listeners do short of striking. -/
theorem resolve_peaceful (b : Blow α) : Act.Within Peaceful (World.resolve l b) := by
  unfold World.resolve
  refine .ite (lasting_peaceful.pure _) (lasting_peaceful.bind (expire_peaceful b.tick) fun _ => .ite ?_ ?_)
  · exact lasting_peaceful.bind (fun w => windows_peaceful w _) fun _ => lasting_peaceful.pure _
  · refine lasting_peaceful.bind (locate_peaceful b) fun found => ?_
    cases found with
    | error fault => exact lasting_peaceful.bind (note_peaceful rfl) fun _ => lasting_peaceful.pure _
    | ok r => exact apply_peaceful hl b r

end

/-! ### Strikes -/

/-- A strike, and the world in which it is dealt. -/
structure Strike (α : Type) where
  world : World α (Arena α)
  damager : Option Damager
  target : EntityId
  cause : Cause
  amount : α

namespace Strike

/-- The blow that the engine resolves. -/
def blow (s : Strike α) : Blow α :=
  { target := s.target, damager := s.damager, cause := s.cause, amount := s.amount, tick := s.world.host.tick }

def outcome (l : Listeners α (Arena α)) (s : Strike α) : Outcome α :=
  answer (strike l s.damager s.target s.cause s.amount) s.world

def leaves (l : Listeners α (Arena α)) (s : Strike α) : World α (Arena α) :=
  after (strike l s.damager s.target s.cause s.amount) s.world

/-- The fighter that is struck, as it was. -/
def victim (s : Strike α) : Option (Fighter α) := s.world.host.fighter? s.target

/-- The health that damage leaves. -/
def left (f : Fighter α) (d : α) : α := Amount.larger (f.health - d) 0

/-- Who falls by a strike: its target, if the strike is applied and leaves it no health. -/
def fall (l : Listeners α (Arena α)) (s : Strike α) : Option String :=
  match (s.outcome l).applied?, s.victim with
  | some d, some f => if Amount.IsZero (left f d) then some f.name else none
  | _, _ => none

variable (l : Listeners α (Arena α))

theorem outcome_eq (s : Strike α) : s.outcome l = (answer (World.resolve l s.blow) s.world).1 := answer_strike

theorem final_eq (s : Strike α) : (answer (World.resolve l s.blow) s.world).2.final = (s.outcome l).applied? := by
  have hfinal := (World.resolve_exit l s.blow s.world).final
  rw [show s.blow.final = none from rfl, Option.toList_none, List.nil_append, ← outcome_eq] at hfinal
  cases hf : (answer (World.resolve l s.blow) s.world).2.final <;> cases ha : (s.outcome l).applied? <;> simp_all

/-- What is applied is dealt after the blow is resolved, and nothing else is. -/
theorem leaves_eq (s : Strike α) : s.leaves l =
    after ((s.outcome l).applied?.elim (pure ()) (hurt s.target)) (after (World.resolve l s.blow) s.world) := by
  rw [← final_eq]
  exact after_strike

theorem leaves_of_none {s : Strike α} (h : (s.outcome l).applied? = none) :
    s.leaves l = after (World.resolve l s.blow) s.world := by
  rw [leaves_eq, h]
  rfl

theorem leaves_of_some {s : Strike α} {d : α} (h : (s.outcome l).applied? = some d) :
    s.leaves l = after (hurt s.target d) (after (World.resolve l s.blow) s.world) := by
  rw [leaves_eq, h]
  rfl

/-- What is applied is no less than the least damage. -/
theorem exists_of_applied {s : Strike α} {d : α} (h : (s.outcome l).applied? = some d) :
    ∃ total, d = Amount.larger total Amount.leastDamage := by
  have hexit := World.resolve_exit l s.blow s.world
  rw [outcome_eq] at h
  generalize (answer (World.resolve l s.blow) s.world).1 = o at h hexit
  generalize (answer (World.resolve l s.blow) s.world).2 = b', after (World.resolve l s.blow) s.world = w' at hexit
  cases hexit with
  | ignored | withdrawn | baseless | denied | stopped | spent => simp [Outcome.applied?] at h
  | @applied r v u a killer hs hw ha hk =>
    obtain rfl : a.damage.dealt = d := by simpa [Outcome.applied?] using h
    exact ⟨a.damage.total, rfl⟩

/-- The fighter struck, with the health that the strike leaves it. -/
def wounded (s : Strike α) (f : Fighter α) : Fighter α :=
  match (s.outcome l).applied? with
  | some d => { f with health := left f d }
  | none => f

variable {l} (hl : l.Within Peaceful)
include hl

theorem fighter?_leaves (s : Strike α) (e : EntityId) : (s.leaves l).host.fighter? e =
    if e = s.target then s.victim.map (s.wounded l) else s.world.host.fighter? e := by
  have hsame := (resolve_peaceful hl s.blow s.world).fighters
  unfold wounded
  cases h : (s.outcome l).applied? with
  | none =>
    rw [leaves_of_none l h, hsame]
    by_cases he : e = s.target
    · simp [he, victim]
    · simp [he]
  | some d =>
    rw [leaves_of_some l h, fighter?_hurt, hsame, hsame]
    rfl

/-- A strike notes the fall that it is, if it is one, and nothing else notes any. -/
theorem falls_leaves (s : Strike α) : (s.leaves l).falls = s.world.falls ++ (s.fall l).toList := by
  have hpeace := resolve_peaceful hl s.blow s.world
  unfold fall
  cases h : (s.outcome l).applied? with
  | none =>
    rw [leaves_of_none l h, hpeace.falls]
    exact (List.append_nil _).symm
  | some d =>
    rw [leaves_of_some l h, ← hpeace.falls]
    rcases after_hurt (after (World.resolve l s.blow) s.world) s.target d with ⟨hf, hafter⟩ | ⟨i, f, hp, hf, hafter⟩
    · have hnone : s.victim = none := (hpeace.fighters s.target).symm.trans hf
      rw [hafter, hnone]
      exact (List.append_nil _).symm
    · have hvictim : s.victim = some f := by
        rw [victim, ← hpeace.fighters, fighter?, hp, Option.bind_some, hf]
      rw [hafter, hvictim]
      by_cases hz : Amount.IsZero (Amount.larger (f.health - d) 0)
      · simp [World.falls, left, hz, Note.fallen?]
      · simp [World.falls, left, hz]

end Strike

/-! ### Bouts -/

/-- A fighter without health left. -/
def Lifeless (a : Arena α) (e : EntityId) : Prop := ∃ f, a.fighter? e = some f ∧ ¬ 0 < f.health

omit [Amount α] in
theorem falls_spawn (f : Fighter α) (w : World α (Arena α)) : (after (spawn f) w).falls = w.falls := by
  show ((w.journal.push _).toList.filterMap Note.fallen?) = _
  simp [World.falls, Note.fallen?]

omit [Amount α] in
theorem fighter?_spawn {f f' : Fighter α} {w : World α (Arena α)} {e : EntityId} (h : w.host.fighter? e = some f') :
    (after (spawn f) w).host.fighter? e = some f' := by
  obtain ⟨i, hi, hf⟩ := Option.bind_eq_some_iff.mp h
  obtain ⟨hlt, -⟩ := Array.getElem?_eq_some_iff.mp hf
  show (place? e).bind (fun i => (w.host.fighters.push f)[i]?) = some f'
  rw [hi, Option.bind_some, Array.getElem?_push, if_neg (Nat.ne_of_lt hlt), hf]

theorem Lifeless.peace {w v : World α (Arena α)} {e : EntityId} (h : Lifeless w.host e) (hp : Peaceful w v) :
    Lifeless v.host e := by
  obtain ⟨f, hf, hdead⟩ := h
  exact ⟨f, (hp.fighters e).trans hf, hdead⟩

theorem Lifeless.spawn {w : World α (Arena α)} {e : EntityId} (h : Lifeless w.host e) (f : Fighter α) :
    Lifeless (after (Arena.spawn f) w).host e := by
  obtain ⟨f', hf, hdead⟩ := h
  exact ⟨f', fighter?_spawn hf, hdead⟩

/-- A bout of strikes: anyone may strike anyone in any order, fighters may enter between them, and whatever leaves the
    fighters in peace may happen. The strikes are listed with the worlds in which they are dealt. -/
inductive Bout (l : Listeners α (Arena α)) (w : World α (Arena α)) : List (Strike α) → World α (Arena α) → Prop
  | start : Bout l w [] w
  | peace {ss : List (Strike α)} {v u : World α (Arena α)} (h : Bout l w ss v) (hp : Peaceful v u) : Bout l w ss u
  | spawn {ss : List (Strike α)} {v : World α (Arena α)} (h : Bout l w ss v) (f : Fighter α) :
    Bout l w ss (after (spawn f) v)
  | strike {ss : List (Strike α)} (s : Strike α) (h : Bout l w ss s.world) : Bout l w (ss ++ [s]) (s.leaves l)

/-- What is noted of the strikes of a bout. -/
structure Chronicle (l : Listeners α (Arena α)) (w : World α (Arena α)) (ss : List (Strike α))
    (v : World α (Arena α)) : Prop where
  /-- The falls are noted in the order of the strikes, each strike that is one under the name of its target. -/
  falls : v.falls = w.falls ++ ss.filterMap (Strike.fall l)
  /-- Of a living target the fall is noted exactly if the strike takes its health from above zero to zero. -/
  living : ∀ s ∈ ss, ∀ f, s.victim = some f → 0 < f.health → ∃ f', (s.leaves l).host.fighter? s.target = some f' ∧
    s.fall l = if Amount.IsZero f'.health then some f.name else none
  /-- Of a dead target the fall is noted with every strike that is applied. -/
  dead : ∀ s ∈ ss, ∀ f, s.victim = some f → ¬ 0 < f.health →
    s.fall l = (s.outcome l).applied?.map fun _ => f.name
  /-- Nothing that a player deals is applied to the dead. -/
  guarded : ∀ s ∈ ss, Lifeless s.world.host s.target → ∀ a wielder, s.world.behind s.blow = .ok a →
    a.attacker = some wielder → Host.player s.world.host wielder.entity = true → (s.outcome l).applied? = none
  /-- Whoever has fallen is dead at every later strike. -/
  once : ss.Pairwise fun s s' => s'.target = s.target → (s.fall l).isSome → Lifeless s'.world.host s'.target

namespace Strike

variable {l : Listeners α (Arena α)} {s : Strike α} {f : Fighter α}

theorem fall_eq (h : s.victim = some f) : s.fall l =
    (s.outcome l).applied?.bind fun d => if Amount.IsZero (left f d) then some f.name else none := by
  unfold fall
  rw [h]
  cases (s.outcome l).applied? <;> rfl

theorem exists_of_fall (h : (s.fall l).isSome) :
    ∃ f d, s.victim = some f ∧ (s.outcome l).applied? = some d ∧ Amount.IsZero (left f d) := by
  unfold fall at h
  cases hd : (s.outcome l).applied? with
  | none => simp [hd] at h
  | some d =>
    cases hv : s.victim with
    | none => simp [hd, hv] at h
    | some f =>
      refine ⟨f, d, rfl, rfl, ?_⟩
      by_contra hz
      simp [hd, hv, hz] at h

section

variable (hα : Amount.Wounding α)
include hα

theorem left_of_dead {d : α} (hd : (s.outcome l).applied? = some d) (hf : ¬ 0 < f.health) :
    Amount.IsZero (left f d) := by
  obtain ⟨total, rfl⟩ := exists_of_applied l hd
  exact hα.left _ _ hf (hα.least total)

theorem fall_of_dead (h : s.victim = some f) (hf : ¬ 0 < f.health) :
    s.fall l = (s.outcome l).applied?.map fun _ => f.name := by
  rw [fall_eq h]
  cases hd : (s.outcome l).applied? with
  | none => rfl
  | some d => simp [left_of_dead hα hd hf]

theorem fall_of_living (hl : l.Within Peaceful) (h : s.victim = some f) (hf : 0 < f.health) :
    ∃ f', (s.leaves l).host.fighter? s.target = some f' ∧
      s.fall l = if Amount.IsZero f'.health then some f.name else none := by
  refine ⟨s.wounded l f, by rw [fighter?_leaves hl, if_pos rfl, h, Option.map_some], ?_⟩
  rw [fall_eq h]
  unfold wounded
  cases hd : (s.outcome l).applied? with
  | none => exact (if_neg fun hz => hα.zero _ hz hf).symm
  | some d => rfl

/-- The dead stay dead. -/
theorem lifeless_leaves (hl : l.Within Peaceful) {e : EntityId} (h : Lifeless s.world.host e) :
    Lifeless (s.leaves l).host e := by
  obtain ⟨f, hf, hdead⟩ := h
  by_cases he : e = s.target
  · subst he
    have hv : s.victim = some f := hf
    refine ⟨s.wounded l f, by rw [fighter?_leaves hl, if_pos rfl, hv, Option.map_some], ?_⟩
    unfold wounded
    cases hd : (s.outcome l).applied? with
    | none => exact hdead
    | some d => exact hα.zero _ (left_of_dead hα hd hdead)
  · exact ⟨f, by rw [fighter?_leaves hl, if_neg he, hf], hdead⟩

theorem lifeless_of_fall (hl : l.Within Peaceful) (h : (s.fall l).isSome) :
    Lifeless (s.leaves l).host s.target := by
  obtain ⟨f, d, hv, hd, hz⟩ := exists_of_fall h
  refine ⟨{ f with health := left f d }, ?_, hα.zero _ hz⟩
  rw [fighter?_leaves hl, if_pos rfl, hv, Option.map_some]
  simp only [wounded, hd]

end

/-- The gate keeps a player from whoever is not alive. -/
theorem applied_of_player (hdead : Lifeless s.world.host s.target) {a : Attack α} {wielder : Wielder}
    (hb : s.world.behind s.blow = .ok a) (ha : a.attacker = some wielder)
    (hp : Host.player s.world.host wielder.entity = true) : (s.outcome l).applied? = none := by
  have hexit := World.resolve_exit l s.blow s.world
  rw [outcome_eq]
  by_cases hz : Amount.IsZero s.amount
  · simp [World.resolve, blow, hz, Outcome.applied?]
  · have hnot : ¬ s.world.gate.Permits s.world.host wielder.entity s.target a.interaction := by
      intro hpermits
      obtain ⟨f, hf, hnone⟩ := hdead
      have halive := hpermits.targetLives
      simp [Host.alive, Fighter.isAlive, hf, hnone] at halive
    have hdenied := World.isDenied_eq_true_iff (k := s.blow.key) ha |>.mpr ⟨hp, hnot⟩
    obtain ⟨ho, -⟩ := hexit.denied_of_not_permits hz rfl hb hdenied
    rw [ho]
    rfl

end Strike

namespace Bout

variable {l : Listeners α (Arena α)} {w v : World α (Arena α)} {ss : List (Strike α)}

theorem falls_eq (hl : l.Within Peaceful) (h : Bout l w ss v) :
    v.falls = w.falls ++ ss.filterMap (Strike.fall l) := by
  induction h with
  | start => exact (List.append_nil _).symm
  | peace _ hp ih => rw [hp.falls, ih]
  | spawn _ f ih => rw [falls_spawn, ih]
  | strike s _ ih =>
    rw [Strike.falls_leaves hl, ih, List.filterMap_append, List.append_assoc]
    cases hf : s.fall l <;> simp [hf]

variable (hα : Amount.Wounding α) (hl : l.Within Peaceful)
include hα hl

theorem lifeless_of_mem (h : Bout l w ss v) : ∀ s ∈ ss, (s.fall l).isSome → Lifeless v.host s.target := by
  induction h with
  | start => simp
  | peace _ hp ih =>
    intro s hs hfall
    exact (ih s hs hfall).peace hp
  | spawn _ f ih =>
    intro s hs hfall
    exact (ih s hs hfall).spawn f
  | strike s' _ ih =>
    intro s hs hfall
    rcases List.mem_append.mp hs with hs | hs
    · exact Strike.lifeless_leaves hα hl (ih s hs hfall)
    · obtain rfl := List.mem_singleton.mp hs
      exact Strike.lifeless_of_fall hα hl hfall

theorem once (h : Bout l w ss v) :
    ss.Pairwise fun s s' => s'.target = s.target → (s.fall l).isSome → Lifeless s'.world.host s'.target := by
  induction h with
  | start => exact List.Pairwise.nil
  | peace _ _ ih => exact ih
  | spawn _ _ ih => exact ih
  | strike _ h ih =>
    refine List.pairwise_append.mpr ⟨ih, List.pairwise_singleton _ _, ?_⟩
    intro s hs s' hs' htarget hfall
    obtain rfl := List.mem_singleton.mp hs'
    exact htarget ▸ lifeless_of_mem hα hl h s hs hfall

theorem chronicle (h : Bout l w ss v) : Chronicle l w ss v where
  falls := h.falls_eq hl
  living _ _ _ hv hf := Strike.fall_of_living hα hl hv hf
  dead _ _ _ hv hf := Strike.fall_of_dead hα hv hf
  guarded _ _ hdead _ _ hb ha hp := Strike.applied_of_player hdead hb ha hp
  once := h.once hα hl

end Bout

/-- Through every bout of strikes, whoever deals them and in whatever order: the living fall when their health goes
    from above zero to zero, and are dead from then on; and the dead are noted again with every strike on them that is
    applied, as none that a player deals is. -/
theorem falls_chronicled {l : Listeners Float (Arena Float)} (hl : l.Within Peaceful) {w v : World Float (Arena Float)}
    {ss : List (Strike Float)} (h : Bout l w ss v) : Chronicle l w ss v :=
  h.chronicle Amount.wounding_float hl

end Arena

/-! ### A knight among wolves -/

namespace Demo

theorem listeners_peaceful : listeners.Within Arena.Peaceful :=
  { Listeners.silent_within Arena.lasting_peaceful with
    kill := fun _ _ _ _ w => Arena.note_peaceful rfl w
    display := fun _ _ w => Arena.note_peaceful rfl w }

/-- The knight of the demonstration, with little health left, and two of the wolves. -/
def cornered : World Float (Arena Float) :=
  { World.new { tick := 1, fighters := #[⟨"Knight", 2, true, .weapon⟩, ⟨"Wolf 1", 18, false, .empty⟩,
      ⟨"Wolf 2", 18, false, .empty⟩] } .empty with bus := Bus.register {} herald }

/-- A bite of the wolf that entered after `i` others. -/
def biteOf (i : Nat) (amount : Float) (w : World Float (Arena Float)) : Arena.Strike Float :=
  ⟨w, some (.entity (Arena.idOf i)), Arena.idOf 0, .entityAttack, amount⟩

theorem bout_bite {w v : World Float (Arena Float)} {ss : List (Arena.Strike Float)} (h : Arena.Bout listeners w ss v)
    (i : Nat) (amount : Float) :
    Arena.Bout listeners w (ss ++ [biteOf i amount v]) ((biteOf i amount v).leaves listeners) :=
  .strike (biteOf i amount v) h

def bitten : World Float (Arena Float) := (biteOf 1 2.5 cornered).leaves listeners

def bittenAgain : World Float (Arena Float) := (biteOf 2 1.5 bitten).leaves listeners

theorem bout_of_bites : Arena.Bout listeners cornered [biteOf 1 2.5 cornered, biteOf 2 1.5 bitten] bittenAgain :=
  bout_bite (bout_bite .start 1 2.5) 2 1.5

theorem chronicled_bites :
    listeners.Within Arena.Peaceful ∧
      Arena.Bout listeners cornered [biteOf 1 2.5 cornered, biteOf 2 1.5 bitten] bittenAgain ∧
      Arena.Chronicle listeners cornered [biteOf 1 2.5 cornered, biteOf 2 1.5 bitten] bittenAgain :=
  ⟨listeners_peaceful, bout_of_bites, Arena.falls_chronicled listeners_peaceful bout_of_bites⟩

/-- Two wolves bite in one tick. The first kills the knight, who falls; by the second the knight, dead already, falls
    again. The engine tells only of the first that it killed. -/
theorem knight_falls_twice :
    cornered.falls = [] ∧ bitten.host.tick = cornered.host.tick ∧
      Host.alive cornered.host (Arena.idOf 0) = true ∧ bitten.falls = ["Knight"] ∧
      Host.alive bitten.host (Arena.idOf 0) = false ∧ bittenAgain.falls = ["Knight", "Knight"] ∧
      bittenAgain.kills = [(Arena.idOf 1, Arena.idOf 0)] := by
  decide +kernel

end Demo
end Fray
