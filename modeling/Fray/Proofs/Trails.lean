import Fray.Engine.Channel
import Fray.Proofs.Beats
import Fray.Proofs.Handles
import Fray.Proofs.Listening

/-! Trails of channelled effects. A trail accounts for everything that happens between two worlds: every move of it is
    a beat of some effect, or leaves all effects alone. -/

namespace Fray

open Act

/-- Where effects are at home: the record that the host keeps of its calls, the tasks that the scheduler has handed
    out and cancelled, and what else may be done while no effect is touched. -/
structure Ground (α η : Type) where
  log : η → List (ChannelRef × Beat)
  handed : World α η → TaskId → Prop
  isCancelled : World α η → TaskId → Bool
  other : World α η → World α η → Prop

variable {α η : Type}

/-- The beat that an event tells of. -/
def Event.herald? : Event α → Option (ChannelRef × Beat)
  | .castStart r _ _ => some (r, .announced)
  | .castEnd r _ _ => some (r, .retired)
  | .attack _ | .kill _ _ _ | .finalized _ _ | .preCast _ _ | .postCast _ _ => none

/-- What the listeners were told of effects, oldest first. -/
def World.heralds (w : World α η) : List (ChannelRef × Beat) := w.history.toList.filterMap Event.herald?

namespace Ground

variable (g : Ground α η)

/-- No id is handed out twice, so a task that is cancelled stays so. -/
structure Keeps (w v : World α η) : Prop where
  handed : ∀ id, g.handed w id → g.handed v id
  cancelled : ∀ id, g.handed w id → g.isCancelled w id = true → g.isCancelled v id = true

/-- Effects are left alone. -/
structure Apart (w v : World α η) : Prop extends g.Keeps w v where
  running : v.running = w.running
  phase : ∀ r, v.phase r = w.phase r
  size : w.channels.size ≤ v.channels.size
  casting : ∀ r, r < w.channels.size → (v.channel r).casting = (w.channel r).casting
  log : g.log v.host = g.log w.host
  heralds : v.heralds = w.heralds

/-- What else is done leaves effects alone, and the scheduler keeps its state in the host or the timetable. -/
structure Lawful : Prop where
  other : ∀ {w v}, g.other w v → g.Apart w v
  keeps : ∀ {w v : World α η}, v.host = w.host → v.timetable = w.timetable → g.Keeps w v

/-- The host puts a call on record. -/
def Recorded (x : ChannelRef × Beat) (w v : World α η) : Prop :=
  ∃ host, v = { w with host } ∧ g.log host = g.log w.host ++ [x] ∧ g.Keeps w v

/-- The scheduler cancels a task. -/
def Withdraws (id : TaskId) (w v : World α η) : Prop := g.other w v ∧ g.isCancelled v id = true

/-- An effect has a beat. -/
inductive Step (r : ChannelRef) : Beat → World α η → World α η → Prop
  | begun {w : World α η} (h : w.phase r = .idle) : Step r .begun w (after (World.setPhase r .starting) w)
  | entered (w : World α η) : Step r .entered w (after (World.setCasting (w.channel r).casting true) w)
  | started {w v : World α η} (h : g.Recorded (r, .started) w v) : Step r .started w v
  | announced (w : World α η) : Step r .announced w
      (w.announced (.castStart r (w.channel r).casting.caster.entity (w.channel r).casting.skill.id))
  | scheduled {w : World α η} {id : TaskId} (h : w.phase r = .starting) (hid : g.handed w id) :
    Step r (.scheduled id) w (after (World.setPhase r (.running id)) w)
  /-- The effect ended before it had a task. -/
  | late {w v : World α η} {id : TaskId} (h : w.phase r = .ended none) (hid : g.handed w id)
      (hv : g.Withdraws id (after (World.setPhase r (.ended (some id))) w) v) : Step r (.scheduled id) w v
  | pulsed {w v : World α η} (h : g.Recorded (r, .pulsed) w v) : Step r .pulsed w v
  | torn {w : World α η} (h : w.phase r = .starting) : Step r .ended w (after (World.setPhase r (.ended none)) w)
  | stopped {w v : World α η} {id : TaskId} (h : w.phase r = .running id)
      (hv : g.Withdraws id (after (World.setPhase r (.ended (some id))) w) v) : Step r .ended w v
  | finished {w v : World α η} (h : g.Recorded (r, .finished) w v) : Step r .finished w v
  | left (w : World α η) : Step r .left w (after (World.setCasting (w.channel r).casting false) w)
  | retired (w : World α η) : Step r .retired w
      (w.announced (.castEnd r (w.channel r).casting.caster.entity (w.channel r).casting.skill.id))

/-- A move is a beat of an effect, or no effect's. -/
def Moves (w v : World α η) : Option (ChannelRef × Beat) → Prop
  | some (r, b) => r < w.channels.size ∧ g.Step r b w v
  | none => g.other w v ∨ ∃ n, v = after (World.note n) w

/-- A way from one world to another, move by move. -/
inductive Trail : World α η → List (Option (ChannelRef × Beat) × World α η) → World α η → Prop
  | nil (w : World α η) : Trail w [] w
  | cons {w v u : World α η} {x : Option (ChannelRef × Beat)} {t : List (Option (ChannelRef × Beat) × World α η)}
    (h : g.Moves w v x) (ht : Trail v t u) : Trail w ((x, v) :: t) u

/-! ### The laws of a trail -/

/-- Whatever task an effect has was handed out, and is cancelled once the effect has ended. -/
structure Tidy (w : World α η) : Prop where
  running : w.running = true
  known : ∀ r id, World.channelTask w r = .ok id → g.handed w id
  cancelled : ∀ r id, w.phase r = .ended (some id) → g.isCancelled w id = true

end Ground

/-- An effect stays in its phase or goes on to the next. -/
inductive Phase.Next : Phase → Phase → Prop
  | same (p : Phase) : Next p p
  | begin : Next .idle .starting
  | schedule (id : TaskId) : Next .starting (.running id)
  | tear : Next .starting (.ended none)
  | late (id : TaskId) : Next (.ended none) (.ended (some id))
  | stop (id : TaskId) : Next (.running id) (.ended (some id))

/-- What an effect went through stays so: once begun it is not idle again, it keeps its task, and it stays ended. -/
structure Phase.Onward (p q : Phase) : Prop where
  begun : p ≠ .idle → q ≠ .idle
  task : ∀ id, p = .running id ∨ p = .ended (some id) → q = .running id ∨ q = .ended (some id)
  ended : (∃ task, p = .ended task) → ∃ task, q = .ended task

theorem Phase.Onward.refl (p : Phase) : p.Onward p := ⟨id, fun _ => id, id⟩

theorem Phase.Onward.trans {p q s : Phase} (h : p.Onward q) (h' : q.Onward s) : p.Onward s :=
  ⟨fun hp => h'.begun (h.begun hp), fun id hp => h'.task id (h.task id hp), fun hp => h'.ended (h.ended hp)⟩

theorem Phase.Next.onward {p q : Phase} (h : p.Next q) : p.Onward q := by
  cases h with
  | same => exact .refl _
  | begin => exact ⟨fun h => absurd rfl h, by simp, by simp⟩
  | schedule id => exact ⟨by simp, by simp, by simp⟩
  | tear => exact ⟨by simp, by simp, by simp⟩
  | late id => exact ⟨by simp, by simp, by simp⟩
  | stop id => exact ⟨by simp, by simp, by simp⟩

namespace World

theorem heralds_announced (e : Event α) (w : World α η) : (w.announced e).heralds = w.heralds ++ e.herald?.toList := by
  cases h : e.herald? <;> simp [heralds, announced, h]

theorem phase_of_size_le {w : World α η} {r : ChannelRef} (h : w.channels.size ≤ r) : w.phase r = .idle := by
  have hchannel : w.channel r = default := by simp [channel, Array.getElem?_eq_none h]
  rw [phase, hchannel]
  rfl

theorem lt_size_of_phase {w : World α η} {r : ChannelRef} (h : w.phase r ≠ .idle) : r < w.channels.size :=
  Nat.lt_of_not_le fun hle => h (phase_of_size_le hle)

theorem channel_newChannel (c : Casting α) {w : World α η} {r : ChannelRef} (hr : r ≠ w.channels.size) :
    (after (newChannel c) w).channel r = w.channel r := by
  show (w.channels.push ⟨c, .idle⟩).getD r default = w.channels.getD r default
  simp [Array.getElem?_push, hr]

theorem phase_newChannel (c : Casting α) (w : World α η) (r : ChannelRef) :
    (after (newChannel c) w).phase r = w.phase r := by
  by_cases hr : r = w.channels.size
  · subst hr
    rw [phase_of_size_le (Nat.le_refl _)]
    show ((w.channels.push ⟨c, .idle⟩).getD w.channels.size default).phase = _
    simp
  · rw [phase, phase, channel_newChannel c hr]

theorem phase_setPhase {w : World α η} {r : ChannelRef} (p : Phase) (i : ChannelRef) :
    (after (setPhase r p) w).phase i = if i = r ∧ r < w.channels.size then p else w.phase i := by
  show ((w.channels.modify r fun ch => { ch with phase := p }).getD i default).phase = _
  rw [getD_modify]
  split <;> rfl

theorem phase_setPhase_self {w : World α η} {r : ChannelRef} (hr : r < w.channels.size) (p : Phase) :
    (after (setPhase r p) w).phase r = p := by
  rw [phase_setPhase, if_pos ⟨rfl, hr⟩]

theorem casting_setPhase {w : World α η} {r : ChannelRef} (p : Phase) (i : ChannelRef) :
    ((after (setPhase r p) w).channel i).casting = (w.channel i).casting := by
  show ((w.channels.modify r fun ch => { ch with phase := p }).getD i default).casting =
    (w.channels.getD i default).casting
  rw [getD_modify]
  split <;> rfl

theorem channelTask_eq_ok {w : World α η} {r : ChannelRef} {id : TaskId} :
    channelTask w r = .ok id ↔ w.phase r = .running id ∨ w.phase r = .ended (some id) := by
  unfold channelTask
  cases w.phase r with
  | idle => simp
  | starting => simp
  | running task => simp
  | ended task => cases task <;> simp

end World

namespace Ground

variable {g : Ground α η} {w v u : World α η} {r : ChannelRef} {b : Beat}

theorem Keeps.refl (w : World α η) : g.Keeps w w := ⟨fun _ h => h, fun _ _ h => h⟩

theorem Keeps.trans (h : g.Keeps w v) (h' : g.Keeps v u) : g.Keeps w u where
  handed id hid := h'.handed id (h.handed id hid)
  cancelled id hid hc := h'.cancelled id (h.handed id hid) (h.cancelled id hid hc)

variable (g) in
/-- No effect but `r` is touched, and that one goes on. -/
structure Touches (r : ChannelRef) (w v : World α η) : Prop extends g.Keeps w v where
  running : v.running = w.running
  size : w.channels.size ≤ v.channels.size
  casting : ∀ i, i < w.channels.size → (v.channel i).casting = (w.channel i).casting
  others : ∀ i, i ≠ r → v.phase i = w.phase i
  next : (w.phase r).Next (v.phase r)
  task : ∀ id, World.channelTask v r = .ok id → World.channelTask w r = .ok id ∨ g.handed w id
  settled : ∀ id, v.phase r = .ended (some id) → w.phase r = .ended (some id) ∨ g.isCancelled v id = true

theorem Apart.touches (h : g.Apart w v) (r : ChannelRef) : g.Touches r w v where
  toKeeps := h.toKeeps
  running := h.running
  size := h.size
  casting := h.casting
  others i _ := h.phase i
  next := by
    rw [h.phase]
    exact .same _
  task id hid := by
    rw [World.channelTask_eq_ok, h.phase, ← World.channelTask_eq_ok] at hid
    exact Or.inl hid
  settled id hid := by
    rw [h.phase] at hid
    exact Or.inl hid

theorem touches_of_phase (hkeeps : g.Keeps w v) (hrunning : v.running = w.running) (hchannels : v.channels = w.channels)
    (r : ChannelRef) : g.Touches r w v := by
  have hchannel : ∀ i, v.channel i = w.channel i := fun i => by rw [World.channel, World.channel, hchannels]
  have hphase : ∀ i, v.phase i = w.phase i := fun i => by rw [World.phase, World.phase, hchannel]
  refine ⟨hkeeps, hrunning, Nat.le_of_eq (by rw [hchannels]), fun i _ => by rw [hchannel], fun i _ => hphase i,
    ?_, ?_, ?_⟩
  · rw [hphase]
    exact .same _
  · intro id hid
    rw [World.channelTask_eq_ok, hphase, ← World.channelTask_eq_ok] at hid
    exact Or.inl hid
  · intro id hid
    rw [hphase] at hid
    exact Or.inl hid

theorem Apart.refl (w : World α η) : g.Apart w w :=
  ⟨.refl w, rfl, fun _ => rfl, Nat.le_refl _, fun _ _ => rfl, rfl, rfl⟩

theorem touches_setPhase (hg : g.Lawful) {p : Phase} (hv : g.Apart (after (World.setPhase r p) w) v)
    (hnext : (w.phase r).Next p)
    (htask : ∀ id, p = .running id ∨ p = .ended (some id) → World.channelTask w r = .ok id ∨ g.handed w id)
    (hover : ∀ id, p = .ended (some id) → g.isCancelled v id = true) : g.Touches r w v := by
  have hphase : v.phase r = p ∨ v.phase r = w.phase r := by
    rw [hv.phase, World.phase_setPhase]
    split
    · exact Or.inl rfl
    · exact Or.inr rfl
  have hkeeps : g.Keeps w (after (World.setPhase r p) w) := hg.keeps rfl rfl
  refine ⟨hkeeps.trans hv.toKeeps, hv.running, ?_, fun i hi => ?_, fun i hi => ?_, ?_, fun id hid => ?_,
    fun id hid => ?_⟩
  · exact Nat.le_trans (Nat.le_of_eq (by simp [World.setPhase])) hv.size
  · exact (hv.casting i (by simpa [World.setPhase] using hi)).trans (World.casting_setPhase p i)
  · rw [hv.phase, World.phase_setPhase, if_neg fun h => hi h.1]
  · rcases hphase with h | h
    · rw [h]
      exact hnext
    · rw [h]
      exact .same _
  · rw [World.channelTask_eq_ok] at hid
    rcases hphase with h | h
    · rw [h] at hid
      exact htask id hid
    · rw [h, ← World.channelTask_eq_ok] at hid
      exact Or.inl hid
  · rcases hphase with h | h
    · exact Or.inr (hover id (h.symm.trans hid))
    · exact Or.inl (h.symm.trans hid)

theorem Recorded.touches {x : ChannelRef × Beat} (h : g.Recorded x w v) (r : ChannelRef) : g.Touches r w v := by
  obtain ⟨host, rfl, -, hkeeps⟩ := h
  exact touches_of_phase hkeeps rfl rfl r

theorem Lawful.touches (hg : g.Lawful) (hhost : v.host = w.host) (htimetable : v.timetable = w.timetable)
    (hrunning : v.running = w.running) (hchannels : v.channels = w.channels) : g.Touches r w v :=
  touches_of_phase (hg.keeps hhost htimetable) hrunning hchannels r

theorem Step.touches (hg : g.Lawful) (h : g.Step r b w v) : g.Touches r w v := by
  cases h with
  | begun h =>
    refine touches_setPhase hg (.refl _) (h ▸ .begin) (fun id hid => ?_) fun id hid => by simp at hid
    simp at hid
  | entered => exact hg.touches rfl rfl rfl rfl
  | started h => exact h.touches r
  | announced => exact hg.touches rfl rfl rfl rfl
  | @scheduled _ id h hid =>
    refine touches_setPhase hg (.refl _) (h ▸ .schedule id) (fun i hi => ?_) fun i hi => by simp at hi
    obtain rfl : id = i := by simpa using hi
    exact Or.inr hid
  | @late _ _ id h hid hv =>
    refine touches_setPhase hg (hg.other hv.1) (h ▸ .late id) (fun i hi => ?_) fun i hi => ?_
    · obtain rfl : id = i := by simpa using hi
      exact Or.inr hid
    · obtain rfl : id = i := by simpa using hi
      exact hv.2
  | pulsed h => exact h.touches r
  | torn h =>
    refine touches_setPhase hg (.refl _) (h ▸ .tear) (fun id hid => ?_) fun id hid => by simp at hid
    simp at hid
  | @stopped _ _ id h hv =>
    refine touches_setPhase hg (hg.other hv.1) (h ▸ .stop id) (fun i hi => ?_) fun i hi => ?_
    · obtain rfl : id = i := by simpa using hi
      exact Or.inl (World.channelTask_eq_ok.mpr (Or.inl h))
    · obtain rfl : id = i := by simpa using hi
      exact hv.2
  | finished h => exact h.touches r
  | left => exact hg.touches rfl rfl rfl rfl
  | retired => exact hg.touches rfl rfl rfl rfl

theorem Moves.touches (hg : g.Lawful) {x : Option (ChannelRef × Beat)} (h : g.Moves w v x) : ∃ r, g.Touches r w v := by
  cases x with
  | some x => exact ⟨x.1, Step.touches hg h.2⟩
  | none =>
    refine ⟨0, ?_⟩
    rcases h with h | ⟨n, rfl⟩
    · exact (hg.other h).touches 0
    · exact hg.touches rfl rfl rfl rfl

theorem Touches.tidy (h : g.Touches r w v) (hw : g.Tidy w) : g.Tidy v where
  running := h.running.trans hw.running
  known i id hid := by
    by_cases hi : i = r
    · subst hi
      rcases h.task id hid with hid | hid
      · exact h.handed id (hw.known i id hid)
      · exact h.handed id hid
    · rw [World.channelTask_eq_ok, h.others i hi, ← World.channelTask_eq_ok] at hid
      exact h.handed id (hw.known i id hid)
  cancelled i id hid := by
    have hkept : w.phase i = .ended (some id) → g.isCancelled v id = true := fun hid =>
      h.toKeeps.cancelled id (hw.known i id (World.channelTask_eq_ok.mpr (Or.inr hid))) (hw.cancelled i id hid)
    by_cases hi : i = r
    · subst hi
      exact (h.settled id hid).elim hkept fun hc => hc
    · rw [h.others i hi] at hid
      exact hkept hid

theorem Tidy.start (hrunning : w.running = true) (hidle : ∀ r, w.phase r = .idle) : g.Tidy w where
  running := hrunning
  known r id h := by simp [World.channelTask_eq_ok, hidle] at h
  cancelled r id h := by simp [hidle] at h

/-! ### Whole trails -/

/-- The beats of a trail. -/
def beats (t : List (Option (ChannelRef × Beat) × World α η)) : List (ChannelRef × Beat) := t.filterMap Prod.fst

/-- The beats of one effect. -/
def beatsOf (r : ChannelRef) (t : List (Option (ChannelRef × Beat) × World α η)) : List Beat :=
  ((beats t).filter fun x => x.1 = r).map Prod.snd

variable {t t' : List (Option (ChannelRef × Beat) × World α η)}

theorem beatsOf_append (r : ChannelRef) : beatsOf r (t ++ t') = beatsOf r t ++ beatsOf r t' := by
  simp [beatsOf, beats]

/-- The beats of one kind, and of these the ones of an effect. -/
theorem beatsOf_filter (t : List (Option (ChannelRef × Beat) × World α η)) (r : ChannelRef) (p : Beat → Bool) :
    (((beats t).filter (p ·.2)).filter fun x => x.1 = r).map Prod.snd = (beatsOf r t).filter p := by
  have hswap : ((beats t).filter (p ·.2)).filter (fun x => x.1 = r) =
      ((beats t).filter fun x => x.1 = r).filter (p ·.2) := by
    rw [List.filter_filter, List.filter_filter]
    exact List.filter_congr fun x _ => Bool.and_comm _ _
  rw [hswap, beatsOf, List.filter_map]
  rfl

theorem Trail.append (h : g.Trail w t v) (h' : g.Trail v t' u) : g.Trail w (t ++ t') u := by
  induction h with
  | nil => exact h'
  | cons hmove _ ih => exact .cons hmove (ih h')

theorem Trail.single {x : Option (ChannelRef × Beat)} (h : g.Moves w v x) : g.Trail w [(x, v)] v := .cons h (.nil v)

/-- Every point of a trail that begins tidy is tidy. -/
theorem Trail.tidy (hg : g.Lawful) (h : g.Trail w t v) (hw : g.Tidy w) : (∀ p ∈ t, g.Tidy p.2) ∧ g.Tidy v := by
  induction h with
  | nil => exact ⟨by simp, hw⟩
  | cons hmove _ ih =>
    obtain ⟨r, htouches⟩ := hmove.touches hg
    obtain ⟨hpoints, hend⟩ := ih (htouches.tidy hw)
    exact ⟨List.forall_mem_cons.mpr ⟨htouches.tidy hw, hpoints⟩, hend⟩

theorem Trail.size_le (hg : g.Lawful) (h : g.Trail w t v) : w.channels.size ≤ v.channels.size := by
  induction h with
  | nil => exact Nat.le_refl _
  | cons hmove _ ih =>
    obtain ⟨r, htouches⟩ := hmove.touches hg
    exact Nat.le_trans htouches.size ih

theorem Trail.casting (hg : g.Lawful) (h : g.Trail w t v) (hr : r < w.channels.size) :
    (v.channel r).casting = (w.channel r).casting := by
  induction h with
  | nil => rfl
  | cons hmove _ ih =>
    obtain ⟨i, htouches⟩ := hmove.touches hg
    exact (ih (Nat.lt_of_lt_of_le hr htouches.size)).trans (htouches.casting r hr)

theorem Step.records (hg : g.Lawful) (h : g.Step r b w v) :
    g.log v.host = g.log w.host ++ [(r, b)].filter (·.2.isCall) ∧
      v.heralds = w.heralds ++ [(r, b)].filter (·.2.isHeralded) := by
  have hcalled : ∀ {x}, g.Recorded x w v → g.log v.host = g.log w.host ++ [x] ∧ v.heralds = w.heralds := by
    rintro x ⟨host, rfl, hlog, -⟩
    exact ⟨hlog, rfl⟩
  have hsilent : g.log v.host = g.log w.host → v.heralds = w.heralds →
      g.log v.host = g.log w.host ++ [] ∧ v.heralds = w.heralds ++ [] := fun h h' => by simp [h, h']
  cases h with
  | begun => exact hsilent rfl rfl
  | entered => exact hsilent rfl rfl
  | started h => simpa [Beat.isCall, Beat.isHeralded] using hcalled h
  | announced =>
    exact ⟨by simp [Beat.isCall, World.announced],
      by simp [World.heralds_announced, Event.herald?, Beat.isHeralded]⟩
  | scheduled => exact hsilent rfl rfl
  | late _ _ hv => exact hsilent (hg.other hv.1).log (hg.other hv.1).heralds
  | pulsed h => simpa [Beat.isCall, Beat.isHeralded] using hcalled h
  | torn => exact hsilent rfl rfl
  | stopped _ hv => exact hsilent (hg.other hv.1).log (hg.other hv.1).heralds
  | finished h => simpa [Beat.isCall, Beat.isHeralded] using hcalled h
  | left => exact hsilent rfl rfl
  | retired =>
    exact ⟨by simp [Beat.isCall, World.announced],
      by simp [World.heralds_announced, Event.herald?, Beat.isHeralded]⟩

/-- What the host has on record, and what the listeners were told, are the beats of the trail. -/
theorem Trail.records (hg : g.Lawful) (h : g.Trail w t v) :
    g.log v.host = g.log w.host ++ (beats t).filter (·.2.isCall) ∧
      v.heralds = w.heralds ++ (beats t).filter (·.2.isHeralded) := by
  induction h with
  | nil => simp [beats]
  | @cons w u v x t hmove _ ih =>
    obtain ⟨hlog, hheralds⟩ := ih
    rw [hlog, hheralds]
    cases x with
    | some x =>
      obtain ⟨hlog, hheralds⟩ := Step.records hg hmove.2
      have hbeats : beats ((some x, u) :: t) = [x] ++ beats t := rfl
      rw [hlog, hheralds, hbeats, List.filter_append, List.filter_append, List.append_assoc, List.append_assoc]
      exact ⟨rfl, rfl⟩
    | none =>
      have hbeats : beats ((none, u) :: t) = beats t := rfl
      rw [hbeats]
      rcases hmove with h | ⟨n, rfl⟩
      · rw [(hg.other h).log, (hg.other h).heralds]
        exact ⟨rfl, rfl⟩
      · exact ⟨rfl, rfl⟩

theorem Trail.onward (hg : g.Lawful) (h : g.Trail w t v) (r : ChannelRef) : (w.phase r).Onward (v.phase r) := by
  induction h with
  | nil => exact .refl _
  | cons hmove _ ih =>
    obtain ⟨i, htouches⟩ := hmove.touches hg
    refine Phase.Onward.trans ?_ ih
    by_cases hi : r = i
    · subst hi
      exact htouches.next.onward
    · rw [htouches.others r hi]
      exact .refl _

end Ground
end Fray
