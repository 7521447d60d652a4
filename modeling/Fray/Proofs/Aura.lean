import Fray.Arena.Spell
import Fray.Proofs.Association
import Fray.Proofs.Casting
import Fray.Proofs.Exact
import Fray.Proofs.Resolution
import Fray.Proofs.Rota

/-! A burning aura in the arena. It counts its pulses, and whatever it burns does not change that count; so it pulses
    as often as its cast says, as long as its caster and some mob live. -/

namespace Fray

open Act

namespace Vigil

variable {α η β : Type} {g : Vigil η β} {l : Listeners α η}

variable (g) in
/-- Listeners who spare the effect. -/
structure Heeded (l : Listeners α η) : Prop where
  blows : l.Within g.Spares
  postCast : ∀ id c r, Act.Within g.Spares (l.postCast id c r)
  castStart : ∀ id caster skill, Act.Within g.Spares (l.castStart id caster skill)
  castEnd : ∀ id caster skill, Act.Within g.Spares (l.castEnd id caster skill)

theorem heeded_silent : g.Heeded (.silent : Listeners α η) where
  blows := Listeners.silent_within lasting_spares
  postCast _ _ _ := lasting_spares.pure ()
  castStart _ _ _ := lasting_spares.pure ()
  castEnd _ _ _ := lasting_spares.pure ()

theorem host_spares {w : World α η} {host : η} (h : g.account host = g.account w.host) :
    g.Spares w { w with host } :=
  .aside rfl rfl rfl (Nat.le_refl _) (fun _ _ => rfl) h rfl

theorem windows_spares (w : World α η) (windows : Windows α) (journal : Array (Note α)) :
    g.Spares w { w with windows, journal } :=
  .aside rfl rfl rfl (Nat.le_refl _) (fun _ _ => rfl) rfl rfl

variable [Amount α] [Host η α]

theorem resolve_spares (hl : l.Within g.Spares) (b : Blow α) : Act.Within g.Spares (World.resolve l b) := by
  refine World.resolve_within lasting_spares (fun e w he => announced_spares (fun b => ?_) w)
    (fun w windows journal => windows_spares w windows journal) hl b
  cases e <;> simp_all [Event.herald?, Event.isOfBlow]

theorem attack_spares (wielder : Wielder) (target : EntityId) (value : α) (element : Option Element)
    (types : List DamageType) : Act.Within g.Spares (World.attack (η := η) wielder target value element types).run := by
  intro w
  cases hd : Damage.new value element types with
  | error fault => simpa [World.attack, hd] using lasting_spares.refl w
  | ok d =>
    obtain ⟨j, hj⟩ := World.after_register ⟨target, some wielder.entity, Host.tick w.host⟩
      ⟨d, target, some wielder, .generic⟩ w
    simpa [World.attack, hd, hj] using windows_spares w _ _

end Vigil

namespace Arena

variable {α : Type} [Amount α] {l : Listeners α (Arena α)} {r : ChannelRef} {w v : World α (Arena α)}

/-- Watch over an aura: the arena itself keeps the account of its pulses. -/
def vigil (r : ChannelRef) : Vigil (Arena α) (Aura α) where
  effect := r
  account a := a.aura r
  enter _ c x := if c = .pulsed then { x with pulses := x.pulses + 1 } else x

/-! ### What happens in an arena -/

theorem update_spares {f : Arena α → Arena α} (hf : ∀ a, (f a).auras = a.auras) :
    Act.Within (vigil (α := α) r).Spares (update f) := fun w =>
  Vigil.host_spares (by simp only [vigil, aura, hf])

theorem hurt_spares (e : EntityId) (damage : α) : Act.Within (vigil r).Spares (hurt e damage) := by
  intro w
  rw [hurt]
  cases place? e with
  | none => exact Vigil.lasting_spares.refl w
  | some i =>
    simp only [after_get_bind]
    cases w.host.fighters[i]? with
    | none => exact Vigil.lasting_spares.refl w
    | some f =>
      have htaken : Act.Within (vigil (α := α) r).Spares (update fun a =>
          { a with fighters := a.fighters.modify i fun f' => { f' with health := Amount.larger (f.health - damage) 0 } }) :=
        update_spares fun _ => rfl
      refine Vigil.lasting_spares.bind htaken (fun _ => ?_) w
      split
      · exact Vigil.note_spares _
      · exact Vigil.lasting_spares.pure ()

theorem strike_spares (hl : l.Within (vigil r).Spares) (damager : Option Damager) (target : EntityId) (cause : Cause)
    (amount : α) : Act.Within (vigil r).Spares (strike l damager target cause amount) := by
  intro w
  rw [strike, after_get_bind]
  refine Vigil.lasting_spares.bind (Vigil.resolve_spares hl _) (fun (outcome, b) => ?_) w
  dsimp only
  split
  · exact Vigil.lasting_spares.bind (hurt_spares target _) fun _ => Vigil.lasting_spares.pure outcome
  · exact Vigil.lasting_spares.pure outcome

theorem burn_spares (hl : l.Within (vigil r).Spares) (caster : Wielder) (target : EntityId) (damage : α)
    (type : DamageType) (cause : Cause) : Act.Within (vigil r).Spares (burn l caster target damage type cause).run := by
  have hattack : Act.Within (vigil r).Spares
      (discard (World.attack caster target damage (some .fire) [.skill, type]) : Try α (Arena α) Unit).run := by
    rw [Try.run_discard]
    exact Vigil.attack_spares caster target damage (some .fire) [.skill, type]
  have hstrike : Act.Within (vigil r).Spares
      (discard (Try.ofAct (strike l (some (.entity caster.entity)) target cause damage)) : Try α (Arena α) Unit).run :=
    strike_spares hl _ target cause damage
  exact Vigil.lasting_spares.tryBind hattack fun _ => hstrike

theorem aura_setAura (i : ChannelRef) (x : Aura α) (w : World α (Arena α)) :
    (after (setAura i x) w).host.aura r = if r = i then x else w.host.aura r := by
  by_cases h : r = i
  · simp [setAura, update, aura, h]
  · have hlookup := lookup_filter_ne i r w.host.auras
    rw [if_neg h] at hlookup
    simp only [setAura, update, after_modify, aura, List.lookup_cons, beq_eq_false_iff_ne.mpr h, hlookup, if_neg h]

theorem setAura_spares {i : ChannelRef} (hi : i ≠ r) (x : Aura α) : Act.Within (vigil r).Spares (setAura i x) := fun w =>
  Vigil.host_spares ((aura_setAura i x w).trans (if_neg (Ne.symm hi)))

theorem burns_spares (hl : l.Within (vigil r).Spares) (caster : Wielder) (targets : List EntityId) (damage : α) :
    Act.Within (vigil r).Spares (targets.forM fun target =>
      discard (burn l caster target damage .dot .fireTick).run : Act α (Arena α) Unit) :=
  Vigil.lasting_spares.forM fun target _ => burn_spares hl caster target damage .dot .fireTick

/-! ### Who is called in an arena -/

theorem after_shouldEnd (l : Listeners α (Arena α)) (i : ChannelRef) (w : World α (Arena α)) :
    after ((effects l).shouldEnd i) w = w := by
  simp only [effects, after_get_bind, after_pure]

theorem after_pulse (l : Listeners α (Arena α)) (i : ChannelRef) (w : World α (Arena α)) :
    after ((effects l).pulse i) w =
      after ((w.host.living false).forM fun target =>
          discard (burn l (casterOf w i) target (w.host.aura i).damage .dot .fireTick).run)
        (after (setAura i { w.host.aura i with pulses := (w.host.aura i).pulses + 1 }) w) := by
  simp only [effects]
  rw [after_get_bind, after_bind]

theorem onStart_spares (i : ChannelRef) : Act.Within (vigil r).Spares ((effects l).onStart i) := fun w => by
  simp only [effects]
  rw [after_get_bind]
  exact Vigil.note_spares _ w

theorem onEnd_spares (i : ChannelRef) : Act.Within (vigil r).Spares ((effects l).onEnd i) := fun w => by
  simp only [effects]
  rw [after_get_bind]
  exact Vigil.note_spares _ w

theorem attended (hl : (vigil r).Heeded l) : (vigil r).Attended l (effects l) where
  postCast := hl.postCast
  castStart := hl.castStart
  castEnd := hl.castEnd
  others i hi := by
    refine ⟨fun w => ?_, fun w => ?_, onStart_spares i, onEnd_spares i⟩
    · rw [after_shouldEnd]
      exact Vigil.lasting_spares.refl w
    · rw [after_pulse]
      exact Vigil.lasting_spares.trans (setAura_spares hi _ w) (burns_spares hl.blows _ _ _ _)
  onStart := onStart_spares r
  shouldEnd w := by
    refine ⟨w, ⟨w.host, rfl, rfl⟩, ?_⟩
    rw [show (vigil (α := α) r).effect = r from rfl, after_shouldEnd]
    exact Vigil.lasting_spares.refl w
  pulse w := by
    refine ⟨after (setAura r { w.host.aura r with pulses := (w.host.aura r).pulses + 1 }) w, ⟨_, rfl, ?_⟩, ?_⟩
    · exact (aura_setAura r _ w).trans (if_pos rfl)
    · rw [show (vigil (α := α) r).effect = r from rfl, after_pulse]
      exact burns_spares hl.blows _ _ _ _
  onEnd w := ⟨w, ⟨w.host, rfl, rfl⟩, onEnd_spares r w⟩

/-- How often an aura of a cast pulses. -/
def limitOf (w : World α (Arena α)) (c : Casting α) : Nat :=
  min (Amount.floor (Amount.larger (w.parameter c "pulses") 0)) maxPulses

/-- The aura of a cast is made, and not yet started. -/
def kindled (c : Casting α) (w : World α (Arena α)) : World α (Arena α) :=
  after (setAura w.channels.size ⟨w.parameter c "damage", limitOf w c, 0⟩) (after (World.newChannel c) w)

theorem run_perform_burningAura (l : Listeners α (Arena α)) (c : Casting α) (reply : Reply) (w : World α (Arena α)) :
    answer (perform l .burningAura c reply).run w =
        (answer (World.startChannel l (effects l) .ticked w.channels.size 0 auraPeriod).run (kindled c w)).map
          (fun _ => ()) ∧
      after (perform l .burningAura c reply).run w =
        after (World.startChannel l (effects l) .ticked w.channels.size 0 auraPeriod).run (kindled c w) := by
  rw [perform, Try.run_get_bind, answer_get_bind, after_get_bind]
  dsimp only
  simp only [Try.run_bind, Try.run_ofAct, Try.run_discard]
  exact ⟨rfl, rfl⟩

theorem perform_spares (hl : (vigil r).Heeded l) (s : Spell) (c : Casting α) (reply : Reply) :
    Act.Within (vigil r).Spares (perform l s c reply).run := by
  intro w hw
  cases s with
  | fireBolt =>
    rw [perform, Try.run_get_bind, after_get_bind]
    dsimp only
    split
    · exact burn_spares hl.blows c.caster _ _ .magic .magic w hw
    · exact Vigil.lasting_spares.refl w hw
  | burningAura =>
    -- The new aura is another one.
    have hother : w.channels.size ≠ r := Nat.ne_of_gt hw.known
    have hkindled : (vigil r).Spares w (kindled c w) :=
      Vigil.lasting_spares.trans (Vigil.newChannel_spares c w) (setAura_spares hother _ _)
    have hsize : w.channels.size < (kindled c w).channels.size := by
      simp [kindled, setAura, update, World.newChannel]
    rw [(run_perform_burningAura l c reply w).2]
    exact Vigil.lasting_spares.trans hkindled ((attended hl).start_spares hother hsize 0 auraPeriod) hw

theorem minded (hl : (vigil r).Heeded l) : (vigil r).Minded l (effects l) (repertoire l) where
  toAttended := attended hl
  perform ref c reply := perform_spares hl (.ofRef ref) c reply

end Arena

/-! ### The course of an aura -/

/-- The engine is there and its tasks are in order; it holds no appointment of an effect that is not there. -/
structure World.Composed {α η : Type} (w : World α η) : Prop where
  running : w.running = true
  ordered : w.timetable.Ordered
  held : ∀ i id, w.phase i = .running id → id.val < w.timetable.nextId
  known : ∀ a ∈ w.timetable.tasks, ∀ i, a.job = .channel i → i < w.channels.size

namespace Arena

variable {α : Type} [Amount α] {l : Listeners α (Arena α)} {w v : World α (Arena α)} {c : Casting α}

theorem ready_kindled (hw : w.Composed) (hc : c.state < w.roster.states.size) :
    (vigil w.channels.size).Ready (kindled c w) := by
  have hphase : ∀ i, (kindled c w).phase i = w.phase i := World.phase_newChannel c w
  have hcasting : (kindled c w).channel w.channels.size = ⟨c, .idle⟩ := by
    show (w.channels.push ⟨c, .idle⟩).getD w.channels.size default = _
    simp
  have hfree : ∀ a ∈ (kindled c w).timetable.tasks, ¬ (vigil (α := α) w.channels.size).Owns a := fun a ha how =>
    Nat.lt_irrefl _ (hw.known a ha _ how)
  refine ⟨⟨hw.running, ?_, ?_, hw.ordered, fun i id hi => ?_, fun a ha how => absurd how (hfree a ha)⟩, ?_, hfree⟩
  · simp [vigil, kindled, setAura, update, World.newChannel]
  · show ((kindled c w).channel w.channels.size).casting.state < w.roster.states.size
    rw [hcasting]
    exact hc
  · exact hw.held i id ((hphase i).symm.trans hi)
  · exact (hphase _).trans (World.phase_of_size_le (Nat.le_refl _))

/-- When an aura that is started in `w` has its rounds. -/
def rotaOf (id : TaskId) (w : World α (Arena α)) : Rota := ⟨id, w.timetable.now, 0, auraPeriod⟩

/-- The handler starts the aura. -/
theorem perform_starts (hl : (vigil w.channels.size).Heeded l) (hw : w.Composed) (hc : c.state < w.roster.states.size)
    (reply : Reply) :
    ∃ id, answer (perform l .burningAura c reply).run w = .ok () ∧
      (vigil w.channels.size).Started (rotaOf id w) (kindled c w) (after (perform l .burningAura c reply).run w) := by
  obtain ⟨id, hanswer, hstarted⟩ := (ready_kindled hw hc).start (attended hl) 0 auraPeriod
  obtain ⟨hanswered, hafter⟩ := run_perform_burningAura l c reply w
  have hok : answer (World.startChannel l (effects l) .ticked w.channels.size 0 auraPeriod).run (kindled c w) = .ok id :=
    hanswer
  rw [hok] at hanswered
  rw [hafter]
  exact ⟨id, hanswered, hstarted⟩

/-- A cast whose handler does not fail. -/
theorem castInstantly_of_ok {η : Type} [Host η α] {l : Listeners α η} {h : Repertoire α η} {c : Casting α} {r : Reply}
    {w : World α η} (hok : answer (h.perform c.skill.handler.ref c r).run (Watch.begun c w) = .ok ()) :
    answer (World.castInstantly l h c r).run w = .ok () ∧
      after (World.castInstantly l h c r).run w =
        after (l.tellPostCast c r) (after (h.perform c.skill.handler.ref c r).run (Watch.begun c w)) := by
  have hanswer : answer (World.castInstantly l h c r).run w =
      answer (h.perform c.skill.handler.ref c r >>= fun _ => Try.ofAct (l.tellPostCast c r)).run (Watch.begun c w) := rfl
  have hafter : after (World.castInstantly l h c r).run w =
      after (h.perform c.skill.handler.ref c r >>= fun _ => Try.ofAct (l.tellPostCast c r)).run (Watch.begun c w) := rfl
  rw [hanswer, hafter, Try.run_bind, answer_bind, after_bind, hok]
  exact ⟨rfl, rfl⟩

/-- The world in which a cast starts its aura. -/
def lit (c : Casting α) (w : World α (Arena α)) : World α (Arena α) := kindled c (Watch.begun c w)

theorem aura_lit (hc : c.state < w.roster.states.size) :
    (lit c w).host.aura w.channels.size = ⟨w.parameter c "damage", limitOf w c, 0⟩ := by
  have hparameter : ∀ name, (Watch.begun c w).parameter c name = w.parameter c name := fun name => by
    rw [World.parameter, World.parameter, Watch.begun, World.combatant_updateCombatant hc]
  have hsize : w.channels.size = (Watch.begun c w).channels.size := rfl
  rw [lit, kindled, aura_setAura, if_pos hsize, limitOf, hparameter, hparameter, ← limitOf]

theorem casting_lit (c : Casting α) (w : World α (Arena α)) : ((lit c w).channel w.channels.size).casting = c := by
  show ((w.channels.push ⟨c, .idle⟩).getD w.channels.size default).casting = c
  simp

/-- An aura is started by its cast. -/
theorem cast_starts (hl : (vigil w.channels.size).Heeded l) (hw : w.Composed) (hc : c.state < w.roster.states.size)
    (hs : c.skill.handler.ref = Spell.burningAura.ref) (reply : Reply) :
    ∃ id, answer (World.castInstantly l (repertoire l) c reply).run w = .ok () ∧
      (vigil w.channels.size).Started (rotaOf id w) (lit c w)
        (after (World.castInstantly l (repertoire l) c reply).run w) := by
  -- The cooldown begins before the handler is invoked.
  have hcomposed : (Watch.begun c w).Composed := ⟨hw.running, hw.ordered, hw.held, hw.known⟩
  have hhoused : c.state < (Watch.begun c w).roster.states.size := by
    simpa [Watch.begun, World.updateCombatant, Roster.update] using hc
  obtain ⟨id, hanswer, hstarted⟩ := perform_starts (w := Watch.begun c w) hl hcomposed hhoused reply
  have hperform : (repertoire l).perform c.skill.handler.ref c reply = perform l .burningAura c reply := by
    simp only [repertoire, hs, Spell.ofRef_ref]
  obtain ⟨hcast, hafter⟩ := castInstantly_of_ok (l := l) (hperform ▸ hanswer)
  rw [hafter, hperform]
  exact ⟨id, hcast, hstarted.spared (Vigil.tell_spares (by simp [Event.herald?]) (fun i => hl.postCast i c reply) _)⟩

/-! ### Its pulses -/

theorem entered_pulses (r : ChannelRef) (q : Rota) (k : Nat) (x : Aura α) :
    (vigil r).entered (q.pulses k) x = { x with pulses := x.pulses + k } := by
  induction k with
  | zero => rfl
  | succ k ih =>
    rw [Rota.pulses_succ, Vigil.entered_append, ih]
    rfl

theorem entered_calls (r : ChannelRef) (q : Rota) (n : Nat) (x : Aura α) :
    (vigil r).entered (q.calls n) x = { x with pulses := x.pulses + n } := by
  rw [Rota.calls, Vigil.entered_append, entered_pulses]
  rfl

/-- The caster of an aura and some mob live. -/
def Thrives (c : Casting α) (w : World α (Arena α)) : Prop :=
  Host.alive w.host c.caster.entity = true ∧ w.host.living false ≠ []

theorem answer_shouldEnd (l : Listeners α (Arena α)) (r : ChannelRef) (w : World α (Arena α)) :
    answer ((effects l).shouldEnd r) w = false ↔
      (w.host.aura r).pulses < (w.host.aura r).limit ∧ Thrives (w.channel r).casting w := by
  simp only [effects]
  rw [answer_get_bind, answer_pure]
  simp [Thrives, casterOf, and_assoc]

/-- The world in which an aura has its turn, in the next tick. -/
def atTurn (l : Listeners α (Arena α)) (q : Rota) (w : World α (Arena α)) : World α (Arena α) :=
  w.turnOf (World.runJob l (effects l) (repertoire l) .ticked) q.task

variable {ws : List (World α (Arena α))} {q : Rota} {o : World α (Arena α)} {r : ChannelRef} {d : α} {k n : Nat}

/-- An aura goes on as long as it has not pulsed as often as it should, and its caster and some mob live. -/
theorem thrives_of_answered {b : Bool} (ha : Vigil.Answered (vigil r) l (effects l) (repertoire l) q o ws k b)
    (hx : o.host.aura r = ⟨d, n, 0⟩) (hc : (o.channel r).casting = c) :
    ∃ x ∈ ws, x.timetable.now + 1 = q.round k ∧ (b = false ↔ k < n ∧ Thrives c (atTurn l q x)) := by
  obtain ⟨x, hmem, hround, ⟨s, hsince⟩, rfl⟩ := ha
  have hcasting : ((atTurn l q x).channel r).casting = c := hsince.casting.trans hc
  have haccount : (atTurn l q x).host.aura r = ⟨d, n, 0 + k⟩ := by
    have haccount : (atTurn l q x).host.aura r = (vigil r).entered (q.pulses k) (o.host.aura r) := hsince.account
    rw [haccount, hx, entered_pulses]
  refine ⟨x, hmem, hround, ?_⟩
  have hanswer := answer_shouldEnd l r (atTurn l q x)
  rw [haccount, hcasting, Nat.zero_add] at hanswer
  exact hanswer

/-- What becomes of an aura that may pulse `n` times. -/
structure Burns (l : Listeners α (Arena α)) (r : ChannelRef) (c : Casting α) (q : Rota) (o : World α (Arena α))
    (n : Nat) (ws : List (World α (Arena α))) (v : World α (Arena α)) : Prop where
  /-- It goes on or has ended; where it ended early, its caster was dead in that round or no mob lived. -/
  course : (∃ k ≤ n, (vigil r).Lasts q o k v ∧ (v.host.aura r).pulses = k) ∨
    ∃ k ≤ n, (vigil r).Rests q o k v ∧ (v.host.aura r).pulses = k ∧
      (k < n → ∃ x ∈ ws, x.timetable.now + 1 = q.round k ∧ ¬ Thrives c (atTurn l q x))
  /-- It pulses as often as it may while its caster and some mob live. -/
  thriving : (∀ x ∈ ws, ∀ k < n, x.timetable.now + 1 = q.round k → Thrives c (atTurn l q x)) →
    (v.timetable.now < q.round n → ∃ k ≤ n, (vigil r).Lasts q o k v ∧ (v.host.aura r).pulses = k) ∧
    (q.round n ≤ v.timetable.now → (vigil r).Rests q o n v ∧ (v.host.aura r).pulses = n)

theorem Burns.ofCourse
    (h : (∃ k ≤ n, (vigil r).Lasts q o k v ∧ (v.host.aura r).pulses = k) ∨
      ∃ k ≤ n, (vigil r).Rests q o k v ∧ (v.host.aura r).pulses = k ∧
        (k < n → ∃ x ∈ ws, x.timetable.now + 1 = q.round k ∧ ¬ Thrives c (atTurn l q x))) :
    Burns l r c q o n ws v := by
  refine ⟨h, fun hthrives => ?_⟩
  rcases h with ⟨k, hk, hlasts, hpulses⟩ | ⟨k, hk, hrests, hpulses, hearly⟩
  · refine ⟨fun _ => ⟨k, hk, hlasts, hpulses⟩, fun hover => ?_⟩
    exact absurd (Nat.lt_of_lt_of_le hlasts.ahead (q.round_le hk)) (Nat.not_lt_of_le hover)
  · have heq : k = n := by
      by_contra hne
      obtain ⟨x, hx, hround, hnot⟩ := hearly (Nat.lt_of_le_of_ne hk hne)
      exact hnot (hthrives x hx k (Nat.lt_of_le_of_ne hk hne) hround)
    subst heq
    exact ⟨fun hahead => absurd hrests.past (Nat.not_le_of_lt hahead), fun _ => ⟨hrests, hpulses⟩⟩

theorem burns_of_passes (hl : (vigil r).Heeded l) (hx : o.host.aura r = ⟨d, n, 0⟩) (hc : (o.channel r).casting = c)
    (hp : Vigil.Passes (vigil r) l (effects l) (repertoire l) w ws v) (hw : (vigil r).Lasts q o 0 w)
    (hb : q.round n < Tick.bound) : Burns l r c q o n ws v := by
  have hlasts : ∀ {k}, (vigil r).Lasts q o k v → (v.host.aura r).pulses = k := fun {k} h => by
    have haccount : v.host.aura r = (vigil r).entered (q.pulses k) (o.host.aura r) := h.since.account
    rw [haccount, hx, entered_pulses, Nat.zero_add]
  have hrests : ∀ {k}, (vigil r).Rests q o k v → (v.host.aura r).pulses = k := fun {k} h => by
    have haccount : v.host.aura r = (vigil r).entered (q.calls k) (o.host.aura r) := h.since.account
    rw [haccount, hx, entered_calls, Nat.zero_add]
  -- It went on in no round after its last.
  have hwithin : ∀ k, (vigil r).WentOn l (effects l) (repertoire l) q o ws k → k ≤ n := by
    intro k hgoes
    by_contra hlt
    obtain ⟨x, -, -, hiff⟩ := thrives_of_answered (hgoes n (Nat.lt_of_not_le hlt)) hx hc
    exact Nat.lt_irrefl n (hiff.mp rfl).1
  refine .ofCourse ?_
  have hbounds : ∀ k, (vigil r).WentOn l (effects l) (repertoire l) q o ws k → q.round k < Tick.bound := fun k hgoes =>
    Nat.lt_of_le_of_lt (q.round_le (hwithin k hgoes)) hb
  rcases hw.passes (minded hl) hp hbounds with ⟨k, hk, hgoes⟩ | ⟨k, hk, hgoes, hends⟩
  · exact Or.inl ⟨k, hwithin k hgoes, hk, hlasts hk⟩
  · refine Or.inr ⟨k, hwithin k hgoes, hk, hrests hk, fun hlt => ?_⟩
    obtain ⟨x, hmem, hround, hiff⟩ := thrives_of_answered hends hx hc
    exact ⟨x, hmem, hround, fun hthrives => by simpa using hiff.mpr ⟨hlt, hthrives⟩⟩

/-- The number of pulses is the integer part of its parameter, and held within 32 bits. -/
theorem limitOf_eq (w : World Rat (Arena Rat)) (c : Casting Rat) :
    limitOf w c = min (max (w.parameter c "pulses") 0).floor.toNat (2 ^ 32 - 1) := by
  have hfloor : Amount.floor (max (w.parameter c "pulses") 0) =
      min (max (w.parameter c "pulses") 0).floor.toNat Amount.maxWord := rfl
  have hword : maxPulses ≤ Amount.maxWord := by decide
  rw [limitOf, Amount.larger_eq_max, hfloor, Nat.min_assoc, Nat.min_eq_right hword]
  rfl

/-! ### Turns of an arena -/

theorem passes_turn (hp : (vigil r).Passes l (effects l) (repertoire l) w ws v) :
    (vigil r).Passes l (effects l) (repertoire l) w (ws ++ [after advance v]) (after (turn l) v) := by
  have hadvance : (vigil r).Spares v (after advance v) :=
    update_spares (f := fun a => { a with tick := a.tick + 1 }) (fun _ => rfl) v
  exact .tick (.aside hp hadvance)

end Arena

/-! ### The rota of effects -/

namespace Arena

variable {l : Listeners Rat (Arena Rat)} {r : ChannelRef} {w : World Rat (Arena Rat)}

/-- The arena after some turns. -/
def turns (l : Listeners Rat (Arena Rat)) (count : Nat) (w : World Rat (Arena Rat)) : World Rat (Arena Rat) :=
  (fun v => after (turn l) v)^[count] w

/-- The worlds in which the ticks of these turns begin. -/
def dawns (l : Listeners Rat (Arena Rat)) (count : Nat) (w : World Rat (Arena Rat)) : List (World Rat (Arena Rat)) :=
  (List.range count).map fun i => after advance (turns l i w)

theorem passes_turns (r : ChannelRef) (l : Listeners Rat (Arena Rat)) (count : Nat) (w : World Rat (Arena Rat)) :
    (vigil r).Passes l (effects l) (repertoire l) w (dawns l count w) (turns l count w) := by
  induction count with
  | zero => exact .refl
  | succ count ih =>
    rw [dawns, List.range_succ, List.map_append, turns, Function.iterate_succ_apply']
    exact passes_turn ih

/-- A player and a wolf. -/
def clearing : World Rat (Arena Rat) :=
  after (World.connect (idOf 0)) (.new { fighters := #[⟨"Ann", 20, true, .empty⟩, ⟨"Wolf", 30, false, .empty⟩] } .empty)

/-- The player burns the wolf, once. -/
def blaze : Casting Rat :=
  ⟨⟨Spell.burningAura.handler, [("damage", 2), ("pulses", 1)]⟩, ⟨idOf 0, .main⟩, 0, none, none⟩

def started : World Rat (Arena Rat) :=
  after (World.startChannel .silent (effects .silent) .ticked 0 0 3).run (kindled blaze clearing)

def burning : World Rat (Arena Rat) :=
  after (World.castInstantly .silent (repertoire .silent) blaze (.accepted none)).run clearing

theorem composed_clearing : clearing.Composed where
  running := rfl
  ordered := .start
  held i id hi := by
    have hidle : clearing.phase i = .idle := World.phase_of_size_le (Nat.zero_le i)
    simp [hidle] at hi
  known a ha := by
    have hnone : clearing.timetable.tasks = [] := rfl
    simp [hnone] at ha

/-- Once the engine is dropped. -/
def dropped : World Rat (Arena Rat) := { started with running := false }

/-- Once the caster has disconnected. -/
def deserted : World Rat (Arena Rat) := after (World.disconnect (idOf 0)) started

/-- Once the aura is given a turn by hand. -/
def hastened : World Rat (Arena Rat) := after (World.turnChannel .silent (effects .silent) .ticked 0) started

/-- The aura is started in tick 1 with the longest delay that there is. -/
def overdue : World Rat (Arena Rat) :=
  after (World.startChannel .silent (effects .silent) .ticked 0 (Tick.bound - 1) 3).run
    { kindled blaze clearing with timetable := { now := 1 } }

end Arena

end Fray
