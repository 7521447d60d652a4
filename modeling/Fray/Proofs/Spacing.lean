import Fray.Proofs.Casting

/-! The effects of a skill are spaced through every run of casts, turns of the scheduler and ticks of the host. A cast
    is held to what took effect before it was attempted; one that waits for its delay passed its test earlier, and
    may take effect right after another that waited with it. A cooldown that would end past the last tick holds nothing
    back. -/

namespace Fray

open Act

/-- What a run of casts is made of. -/
inductive Move (α η : Type)
  | cast (c : Casting α)
  | castNamed (caster : Wielder) (skill : SkillId) (target : Option EntityId)
  /-- A tick of the scheduler. -/
  | turn
  /-- The host goes on. -/
  | host (f : η → η)

namespace Move

variable {α η : Type} [Amount α] [Host η α]

def leaves (l : Listeners α η) (e : Effects α η) (h : Repertoire α η) (w : World α η) : Move α η → World α η
  | .cast c => after (World.cast l h .ticked c).run w
  | .castNamed caster skill target => after (World.castNamed l h .ticked caster skill target).run w
  | .turn => after (World.runTick l e h .ticked) w
  | .host f => { w with host := f w.host }

/-- Nothing else is cast under the name of the skill, and the host neither goes back nor loses its record. -/
def Fits (x : Watch α η) (w : World α η) : Move α η → Prop
  | .cast c => x.owns c = true → c.skill = x.skill
  | .host f => Watch.now w ≤ Host.tick (f w.host) ∧ x.log (f w.host) = x.log w.host
  | .castNamed _ _ _ | .turn => True

/-- The move is an attempt to cast the skill. -/
def Attempts (x : Watch α η) (w : World α η) : Move α η → Prop
  | .cast c => x.owns c = true
  | .castNamed caster name _ => w.roster.get? caster.entity = some x.state ∧
      ∃ skill, w.skills.get? name.text = some skill ∧ skill.id = x.skill.id
  | .turn | .host _ => False

end Move

namespace Watch

variable {α η : Type} [Amount α] [Host η α] {x : Watch α η} {l : Listeners α η} {e : Effects α η}
  {h : Repertoire α η} {w : World α η}

/-- A cast by name comes to nothing, or it is the cast of the skill of that name by the entity's state. -/
theorem castNamed_cases (l : Listeners α η) (h : Repertoire α η) (caster : Wielder) (name : SkillId)
    (target : Option EntityId) (w : World α η) :
    (after (World.castNamed l h .ticked caster name target).run w = w ∧
      ¬ (∃ skill state, w.skills.get? name.text = some skill ∧ w.roster.get? caster.entity = some state)) ∨
    ∃ skill state, w.skills.get? name.text = some skill ∧ w.roster.get? caster.entity = some state ∧
      after (World.castNamed l h .ticked caster name target).run w =
        after (World.cast l h .ticked ⟨skill, caster, state, target, none⟩).run w := by
  cases hs : w.skills.get? name.text with
  | none => exact Or.inl ⟨by simp [World.castNamed, Registry.require, hs], by simp⟩
  | some skill =>
    cases hr : w.roster.get? caster.entity with
    | none => exact Or.inl ⟨by simp [World.castNamed, Registry.require, Roster.require, hs, hr], by simp⟩
    | some state =>
      exact Or.inr ⟨skill, state, rfl, rfl, by simp [World.castNamed, Registry.require, Roster.require, hs, hr]⟩

/-- An attempt to cast the skill is one, by whatever way it is made. -/
theorem move_attempt (hx : x.Client l e h) {m : Move α η} (hm : m.Fits x w) (ha : m.Attempts x w) (hw : x.Steady w) :
    x.Steady (m.leaves l e h w) ∧ x.Attempt w (m.leaves l e h w) := by
  cases m with
  | cast c => exact cast_attempt hx ha (hm ha) hw
  | castNamed caster name target =>
    obtain ⟨hstate, skill, hskill, hid⟩ := ha
    rcases castNamed_cases l h caster name target w with ⟨-, hnot⟩ | ⟨skill', state, hskill', hstate', hafter⟩
    · exact absurd ⟨skill, x.state, hskill, hstate⟩ hnot
    · obtain rfl : skill = skill' := by simpa [hskill] using hskill'
      obtain rfl : x.state = state := by simpa [hstate] using hstate'
      rw [Move.leaves, hafter]
      exact cast_attempt hx (by simp [owns, hid]) (hw.registered _ _ hskill hid) hw
  | turn => exact ha.elim
  | host f => exact ha.elim

theorem move_conduct (hx : x.Client l e h) {m : Move α η} (hm : m.Fits x w) : x.Conduct w (m.leaves l e h w) := by
  intro hw
  have hcast : ∀ c : Casting α, (x.owns c = true → c.skill = x.skill) →
      x.Steady (after (World.cast l h .ticked c).run w) ∧ x.Course w (after (World.cast l h .ticked c).run w) := by
    intro c hc
    cases ho : x.owns c with
    | true =>
      obtain ⟨hsteady, hattempt⟩ := cast_attempt hx ho (hc ho) hw
      exact ⟨hsteady, hattempt.course⟩
    | false => exact cast_conduct hx ho w hw
  cases m with
  | cast c => exact hcast c hm
  | castNamed caster name target =>
    rcases castNamed_cases l h caster name target w with ⟨hafter, -⟩ | ⟨skill, state, hskill, -, hafter⟩
    · rw [Move.leaves, hafter]
      exact ⟨hw, .refl⟩
    · rw [Move.leaves, hafter]
      refine hcast _ fun ho => hw.registered _ _ hskill ?_
      have hboth : state = x.state ∧ skill.id = x.skill.id := by simpa [owns] using ho
      exact hboth.2
  | turn => exact runTick_conduct hx w hw
  | host f =>
    have hleaves : x.Leaves w { w with host := f w.host } :=
      ⟨hm.1, hm.2, rfl, Or.inl rfl, Nat.le_refl _, rfl, rfl, fun a ha => ⟨a, ha, rfl⟩⟩
    exact hleaves.conduct hw

/-! ### Runs -/

variable (x l e h) in
/-- Every move fits the world that the moves before it leave. -/
def Fit : List (Move α η) → World α η → Prop
  | [], _ => True
  | m :: ms, w => m.Fits x w ∧ Fit ms (m.leaves l e h w)

variable (x l e h) in
/-- At every point of a run, two invocations are a cooldown apart if a cast passed its test between them; and what is
    invoked during an attempt is a cooldown later than whatever was invoked before it. -/
def Spaced : List (Move α η) → World α η → Prop
  | [], w => x.Separated (x.log w.host)
  | m :: ms, w => x.Separated (x.log w.host) ∧
      (m.Attempts x w → ∀ p ∈ x.log w.host, ∀ q ∈ (x.log (m.leaves l e h w).host).drop (x.log w.host).length,
        p.tick + x.cooldown ≤ q.tick) ∧
      Spaced ms (m.leaves l e h w)

theorem run_course (hx : x.Client l e h) {ms : List (Move α η)} (hm : x.Fit l e h ms w) (hw : x.Steady w) :
    x.Course w (ms.foldl (Move.leaves l e h) w) := by
  induction ms generalizing w with
  | nil => exact .refl
  | cons m ms ih =>
    obtain ⟨hm, hms⟩ := hm
    obtain ⟨hsteady, hcourse⟩ := move_conduct hx hm hw
    exact hcourse.trans (ih hms hsteady)

theorem spaced_of_sound (hx : x.Client l e h) {ms : List (Move α η)} (hm : x.Fit l e h ms w) (hw : x.Steady w)
    (hs : x.Sound w) (hb : x.InBounds (x.log (ms.foldl (Move.leaves l e h) w).host)) : x.Spaced l e h ms w := by
  induction ms generalizing w with
  | nil => exact hs.separated
  | cons m ms ih =>
    obtain ⟨hm, hms⟩ := hm
    obtain ⟨hsteady, hcourse⟩ := move_conduct hx hm hw
    have hnext : x.InBounds (x.log (m.leaves l e h w).host) := hb.of_course (run_course hx hms hsteady)
    refine ⟨hs.separated, fun ha => ?_, ih hms hsteady (hs.course hcourse hnext) hb⟩
    exact (move_attempt hx hm ha hw).2.spaced hs (hnext.of_course hcourse)

/-- The effects of a skill are spaced through every run that begins with none on record, as long as no cooldown ends
    past the last tick. -/
theorem spaced_from_start (hx : x.Client l e h) (hw : x.Steady w) (hl : x.log w.host = []) {ms : List (Move α η)}
    (hm : x.Fit l e h ms w) (hb : x.InBounds (x.log (ms.foldl (Move.leaves l e h) w).host)) : x.Spaced l e h ms w :=
  spaced_of_sound hx hm hw (.start hl) hb

end Watch

/-! ### Two dashes in one tick -/

/-- A host that keeps the time, and the invocations of one handler. -/
structure Clock where
  tick : Nat := 0
  struck : List Stamp := []

instance : Host Clock Rat where
  tick c := c.tick
  alive _ _ := true
  health _ _ := none
  player _ _ := true
  targetable _ _ := true
  pvp _ _ := true
  held _ _ _ := .empty

/-- A skill with a cooldown of one second that takes effect after half a second. -/
def dash : Skill Rat := ⟨⟨⟨⟨"dash"⟩, ["cooldown", "delay"]⟩, 0⟩, [("cooldown", 1), ("delay", 1 / 2)]⟩

def dashWatch : Watch Rat Clock := ⟨0, dash, 20, by decide, Clock.struck⟩

/-- A handler that always accepts, and does nothing but put itself on record. -/
def dasher : Repertoire Rat Clock where
  reply _ _ _ := .accepted none
  perform _ c _ := .ofAct (modify fun w => if dashWatch.owns c then
    { w with host := { w.host with struck := w.host.struck ++ [⟨w.host.tick, dashWatch.passes w⟩] } } else w)

def dashStart : World Rat Clock :=
  let w : World Rat Clock := .new {} .empty
  { w with roster := (w.roster.connect ⟨1⟩).2 }

/-- Two casts at once, and the half second after which both take effect. -/
def dashes : List (Move Rat Clock) :=
  let c : Casting Rat := ⟨dash, ⟨⟨1⟩, .main⟩, 0, none, none⟩
  [.cast c, .cast c, .host fun clock => { clock with tick := clock.tick + 10 }] ++ List.replicate 10 .turn

theorem dasher_client {x : Watch Rat Clock} (hx : x.owns = dashWatch.owns) (hl : x.log = Clock.struck) :
    x.Client .silent .idle dasher where
  preCast _ _ _ cancelled := Watch.lasting_conduct.pure cancelled
  postCast _ _ _ := Watch.lasting_conduct.pure ()
  castEnd _ _ _ := Watch.lasting_conduct.pure ()
  shouldEnd _ := Watch.lasting_conduct.pure false
  pulse _ := Watch.lasting_conduct.pure ()
  onEnd _ := Watch.lasting_conduct.pure ()
  perform c r ho := by
    intro w
    rw [hx] at ho
    have hafter : after (dasher.perform c.skill.handler.ref c r).run w = w := by simp [dasher, ho]
    rw [hafter]
    exact Watch.lasting_conduct.refl w
  record c r ho w := by
    rw [hx] at ho
    have hpass : dashWatch.isPass = x.isPass := by
      funext e
      cases e <;> simp [Watch.isPass, hx]
    have hpasses : dashWatch.passes w = x.passes w := by rw [Watch.passes, hpass, Watch.passes]
    refine ⟨{ w.host with struck := w.host.struck ++ [⟨w.host.tick, x.passes w⟩] }, rfl, by rw [hl]; rfl, ?_⟩
    have hafter : after (dasher.perform c.skill.handler.ref c r).run w =
        { w with host := { w.host with struck := w.host.struck ++ [⟨w.host.tick, x.passes w⟩] } } := by
      simp [dasher, ho, hpasses]
    rw [hafter]
    exact Watch.lasting_conduct.refl _

theorem dash_steady : dashWatch.Steady dashStart where
  state := by decide
  cooldown := by decide +kernel
  registered _ _ h := by simp [dashStart, World.new, Registry.get?] at h
  waiting _ h := by simp [dashStart, World.new] at h

theorem dashes_fit : dashWatch.Fit .silent .idle dasher dashes dashStart := by
  refine ⟨fun _ => rfl, fun _ => rfl, ⟨Nat.le_add_right _ 10, rfl⟩, ?_⟩
  exact ⟨trivial, trivial, trivial, trivial, trivial, trivial, trivial, trivial, trivial, trivial, trivial⟩

theorem log_dashes : dashWatch.log (dashes.foldl (Move.leaves .silent .idle dasher) dashStart).host =
    [⟨10, 2⟩, ⟨10, 2⟩] := by decide +kernel

/-- The dashes are spaced as every run is. -/
theorem spaced_dashes : dashWatch.Client .silent .idle dasher ∧ dashWatch.Steady dashStart ∧
    dashWatch.log dashStart.host = [] ∧ dashWatch.Fit .silent .idle dasher dashes dashStart ∧
    dashWatch.InBounds (dashWatch.log (dashes.foldl (Move.leaves .silent .idle dasher) dashStart).host) ∧
    dashWatch.Spaced .silent .idle dasher dashes dashStart := by
  have hclient : dashWatch.Client .silent .idle dasher := dasher_client rfl rfl
  have hbounds :
      dashWatch.InBounds (dashWatch.log (dashes.foldl (Move.leaves .silent .idle dasher) dashStart).host) := by
    rw [log_dashes]
    simp [Watch.InBounds, dashWatch, Tick.bound]
  exact ⟨hclient, dash_steady, rfl, dashes_fit, hbounds,
    Watch.spaced_from_start hclient dash_steady rfl dashes_fit hbounds⟩

/-! ### A dash for once -/

/-- A skill with the longest cooldown that there is. -/
def lastDash : Skill Rat := ⟨dash.handler, [("cooldown", 0x10000000000000000)]⟩

def lastWatch : Watch Rat Clock := ⟨0, lastDash, Tick.bound - 1, by decide, Clock.struck⟩

/-- A host that is one tick old. -/
def lateStart : World Rat Clock := { dashStart with host := { tick := 1 } }

/-- Two casts at once, without delay. -/
def lastDashes : List (Move Rat Clock) :=
  let c : Casting Rat := ⟨lastDash, ⟨⟨1⟩, .main⟩, 0, none, none⟩
  [.cast c, .cast c]

theorem lastDash_steady : lastWatch.Steady lateStart where
  state := by decide
  cooldown := by decide +kernel
  registered _ _ h := by simp [lateStart, dashStart, World.new, Registry.get?] at h
  waiting _ h := by simp [lateStart, dashStart, World.new] at h

theorem lastDashes_fit : lastWatch.Fit .silent .idle dasher lastDashes lateStart :=
  ⟨fun _ => rfl, fun _ => rfl, trivial⟩

/-- Both dashes take effect in one tick: neither had taken effect when the other passed its test. And where a cooldown
    would end past the last tick, it is over at once: the other dash passes its test after the first has taken effect,
    and takes effect in the same tick. -/
theorem dashes_not_apart :
    (dashWatch.Client .silent .idle dasher ∧ dashWatch.Steady dashStart ∧
      dashWatch.log dashStart.host = [] ∧ dashWatch.Fit .silent .idle dasher dashes dashStart ∧
      dashWatch.log (dashes.foldl (Move.leaves .silent .idle dasher) dashStart).host = [⟨10, 2⟩, ⟨10, 2⟩] ∧
      ¬ (dashWatch.log (dashes.foldl (Move.leaves .silent .idle dasher) dashStart).host).Pairwise
        fun p q => p.tick + dashWatch.cooldown ≤ q.tick) ∧
    lastWatch.Client .silent .idle dasher ∧ lastWatch.Steady lateStart ∧
      lastWatch.log lateStart.host = [] ∧ lastWatch.Fit .silent .idle dasher lastDashes lateStart ∧
      lastWatch.log (lastDashes.foldl (Move.leaves .silent .idle dasher) lateStart).host = [⟨1, 1⟩, ⟨1, 2⟩] ∧
      ¬ lastWatch.Separated (lastWatch.log (lastDashes.foldl (Move.leaves .silent .idle dasher) lateStart).host) := by
  have hlog : lastWatch.log (lastDashes.foldl (Move.leaves .silent .idle dasher) lateStart).host =
      [⟨1, 1⟩, ⟨1, 2⟩] := by decide +kernel
  refine ⟨⟨dasher_client rfl rfl, dash_steady, rfl, dashes_fit, log_dashes, ?_⟩, dasher_client rfl rfl, lastDash_steady,
    rfl, lastDashes_fit, hlog, ?_⟩
  · rw [log_dashes]
    decide
  · rw [hlog]
    simp [Watch.Separated, lastWatch, Tick.bound]

end Fray
