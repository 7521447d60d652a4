import Fray.Proofs.Rounds

/-! The rota of a repeating effect. Its rounds come after its delay and then once in every period, whatever happens in
    between, as long as they are not past the last tick; how many there are is for its answers alone to decide. -/

namespace Fray

open Act

/-- When a task was entered, and with which delay and period. -/
structure Rota where
  task : TaskId
  tick : Nat
  delay : Nat
  period : Nat

namespace Rota

variable (q : Rota)

/-- The tick of a round; the first round is round zero. -/
def round (k : Nat) : Nat := q.tick + max q.delay 1 + k * max q.period 1

/-- The calls of an effect in the first rounds, when it pulses in all of them. -/
def pulses (k : Nat) : List (Nat × Call) :=
  (List.range k).flatMap fun j => [(q.round j, .asked), (q.round j, .pulsed)]

/-- The calls of an effect that ends in a round. -/
def calls (n : Nat) : List (Nat × Call) := q.pulses n ++ [(q.round n, .asked), (q.round n, .finished)]

theorem round_succ (k : Nat) : q.round (k + 1) = q.round k + max q.period 1 := by
  simp only [round, Nat.succ_mul, Nat.add_assoc]

theorem round_lt {j k : Nat} (h : j < k) : q.round j < q.round k :=
  Nat.add_lt_add_left (Nat.mul_lt_mul_of_pos_right h (Nat.lt_of_lt_of_le Nat.one_pos (Nat.le_max_right _ _))) _

theorem round_le {j k : Nat} (h : j ≤ k) : q.round j ≤ q.round k :=
  (Nat.lt_or_eq_of_le h).elim (fun h => Nat.le_of_lt (q.round_lt h)) fun h => h ▸ Nat.le_refl _

theorem pulses_succ (k : Nat) : q.pulses (k + 1) = q.pulses k ++ [(q.round k, .asked), (q.round k, .pulsed)] := by
  simp [pulses, List.range_succ]

end Rota

namespace Vigil

variable {α η β : Type} {g : Vigil η β} {o w v u : World α η} {q : Rota} {j k n : Nat}

variable (g) in
/-- The effect was started, and its first turn is where the count of ticks puts it. -/
def Started (q : Rota) (o w : World α η) : Prop :=
  g.Since o [] [.announced] ⟨q.tick, .running q.task,
    [⟨q.task, .channel g.effect, Tick.later q.tick (max q.delay 1), max q.period 1⟩], true⟩ w

variable (g) in
/-- The effect goes on: the first `k` rounds are over, and the next is still to come. -/
structure Lasts (q : Rota) (o : World α η) (k : Nat) (w : World α η) : Prop where
  since : g.Since o (q.pulses k) [.announced] ⟨w.timetable.now, .running q.task,
    [⟨q.task, .channel g.effect, q.round k, max q.period 1⟩], true⟩ w
  past : ∀ j < k, q.round j ≤ w.timetable.now
  ahead : w.timetable.now < q.round k

variable (g) in
/-- The effect ended in round `n`. -/
structure Rests (q : Rota) (o : World α η) (n : Nat) (w : World α η) : Prop where
  since : g.Since o (q.calls n) [.announced, .retired] ⟨w.timetable.now, .ended (some q.task), [], false⟩ w
  past : q.round n ≤ w.timetable.now

theorem Lasts.spared (h : g.Lasts q o k w) (hv : g.Spares w v) : g.Lasts q o k v := by
  obtain ⟨-, hnow, -⟩ := hv h.since.fit
  refine ⟨?_, ?_, ?_⟩ <;> rw [hnow]
  · exact h.since.spared hv
  · exact h.past
  · exact h.ahead

theorem Rests.spared (h : g.Rests q o n w) (hv : g.Spares w v) : g.Rests q o n v := by
  obtain ⟨-, hnow, -⟩ := hv h.since.fit
  refine ⟨?_, ?_⟩ <;> rw [hnow]
  · exact h.since.spared hv
  · exact h.past

variable (g) in
/-- The effect may be started: it never was, and has no appointment. -/
structure Ready (w : World α η) : Prop where
  fit : g.Fit w
  idle : w.phase g.effect = .idle
  free : ∀ a ∈ w.timetable.tasks, ¬ g.Owns a

theorem Ready.since (h : g.Ready w) :
    g.Since w [] [] ⟨w.timetable.now, .idle, [], w.shows g.effect⟩ w where
  toGrown := .of_channels rfl
  fit := h.fit
  known := h.fit.known
  tick := rfl
  phase := h.idle
  turns a how := iff_of_false (fun ha => h.free a ha how) (by simp)
  shown _ := rfl
  account := rfl
  notices := (List.append_nil _).symm

variable {l : Listeners α η} {e : Effects α η}

theorem Ready.start (hm : g.Attended l e) (h : g.Ready w) (delay period : Nat) :
    ∃ id, answer (World.startChannel l e .ticked g.effect delay period).run w = .ok id ∧
      g.Started ⟨id, w.timetable.now, delay, period⟩ w
        (after (World.startChannel l e .ticked g.effect delay period).run w) :=
  h.since.start hm rfl rfl delay period

theorem Started.spared (h : g.Started q o w) (hv : g.Spares w v) : g.Started q o v := Since.spared h hv

/-- An effect that was started goes on, if its first round is not past the last tick. -/
theorem Started.lasts (h : g.Started q o w) (hb : q.round 0 < Tick.bound) : g.Lasts q o 0 w := by
  have hround : q.round 0 = q.tick + max q.delay 1 := by simp [Rota.round]
  have hnow : w.timetable.now = q.tick := h.tick
  rw [hround] at hb
  refine ⟨?_, fun j hj => absurd hj (Nat.not_lt_zero j), ?_⟩ <;> rw [hnow, hround]
  · rw [← Tick.later_of_lt hb]
    exact h
  · exact Nat.lt_add_of_pos_right (Nat.lt_of_lt_of_le Nat.one_pos (Nat.le_max_right _ _))

/-! ### A tick -/

variable [Amount α] [Host η α] {h : Repertoire α η} {ws : List (World α η)}

variable (g l e h) in
/-- The worlds `ws` in which a tick began include the one of a round in which the effect answered `b`, after it had
    pulsed in all rounds before. -/
def Answered (q : Rota) (o : World α η) (ws : List (World α η)) (k : Nat) (b : Bool) : Prop :=
  ∃ x ∈ ws, x.timetable.now + 1 = q.round k ∧
    (∃ s, g.Since o (q.pulses k) [.announced] s (x.turnOf (World.runJob l e h .ticked) q.task)) ∧
    answer (e.shouldEnd g.effect) (x.turnOf (World.runJob l e h .ticked) q.task) = b

theorem Answered.mono {b : Bool} (ha : Answered g l e h q o ws k b) {vs : List (World α η)} (hs : ws ⊆ vs) :
    Answered g l e h q o vs k b := by
  obtain ⟨x, hx, hround⟩ := ha
  exact ⟨x, hs hx, hround⟩

variable (g l e h) in
/-- The effect went on in its first `k` rounds. -/
def WentOn (q : Rota) (o : World α η) (ws : List (World α η)) (k : Nat) : Prop :=
  ∀ j < k, Answered g l e h q o ws j false

theorem WentOn.mono (hk : WentOn g l e h q o ws k) {vs : List (World α η)} (hs : ws ⊆ vs) : WentOn g l e h q o vs k :=
  fun j hj => (hk j hj).mono hs

theorem WentOn.succ (hk : WentOn g l e h q o ws k) (ha : Answered g l e h q o ws k false) :
    WentOn g l e h q o ws (k + 1) := fun j hj => by
  rcases Nat.lt_succ_iff_lt_or_eq.mp hj with hj | rfl
  · exact hk j hj
  · exact ha

theorem Rests.tick (hm : g.Minded l e h) (hr : g.Rests q o n w) :
    g.Rests q o n (after (World.runTick l e h .ticked) w) := by
  have hnext := hr.since.tick_waits hm (by simp)
  have hnow := hnext.tick
  refine ⟨?_, ?_⟩ <;> rw [hnow]
  · exact hnext
  · exact Nat.le_succ_of_le hr.past

/-- In a tick the effect goes on as it was, or a round of it comes. -/
theorem Lasts.tick (hm : g.Minded l e h) (hl : g.Lasts q o k w)
    (hb : Answered g l e h q o [w] k false → q.round (k + 1) < Tick.bound) :
    g.Lasts q o k (after (World.runTick l e h .ticked) w) ∨
    Answered g l e h q o [w] k false ∧ g.Lasts q o (k + 1) (after (World.runTick l e h .ticked) w) ∨
    Answered g l e h q o [w] k true ∧ g.Rests q o k (after (World.runTick l e h .ticked) w) := by
  have hpositive : max q.period 1 ≠ 0 := Nat.ne_of_gt (Nat.lt_of_lt_of_le Nat.one_pos (Nat.le_max_right _ _))
  by_cases hround : q.round k = w.timetable.now + 1
  · right
    obtain ⟨hturn, htick⟩ := hl.since.tick_turns hm rfl rfl hround hpositive
    cases hanswer : answer (e.shouldEnd g.effect) (w.turnOf (World.runJob l e h .ticked) q.task) with
    | false =>
      have hanswered : Answered g l e h q o [w] k false :=
        ⟨w, List.mem_singleton_self w, hround.symm, ⟨_, hturn⟩, hanswer⟩
      refine Or.inl ⟨hanswered, ?_⟩
      have hnext := htick (by simp) (hturn.turn_pulses hm.toAttended rfl hanswer)
      have hnow := hnext.tick
      have hlater : Tick.later (w.timetable.now + 1) (max q.period 1) = q.round (k + 1) := by
        have hsucc := hb hanswered
        rw [Rota.round_succ, hround] at hsucc ⊢
        exact Tick.later_of_lt hsucc
      refine ⟨?_, fun j hj => ?_, ?_⟩ <;> rw [hnow]
      · rw [Rota.pulses_succ, ← hlater, hround]
        exact hnext
      · refine Nat.le_trans ?_ (Nat.le_of_eq hround)
        exact q.round_le (Nat.le_of_lt_succ hj)
      · rw [Rota.round_succ, hround]
        exact Nat.lt_add_of_pos_right (Nat.pos_of_ne_zero hpositive)
    | true =>
      refine Or.inr ⟨⟨w, List.mem_singleton_self w, hround.symm, ⟨_, hturn⟩, hanswer⟩, ?_⟩
      have hnext := htick (by simp) (hturn.turn_ends hm.toAttended rfl rfl hanswer)
      have hnow := hnext.tick
      refine ⟨?_, ?_⟩ <;> rw [hnow]
      · rw [Rota.calls, hround]
        exact hnext
      · exact Nat.le_of_eq hround
  · left
    have hlate : w.timetable.now + 1 < q.round k := Nat.lt_of_le_of_ne hl.ahead (Ne.symm hround)
    have hnext := hl.since.tick_waits hm (by simpa using hlate)
    have hnow := hnext.tick
    refine ⟨?_, fun j hj => ?_, ?_⟩ <;> rw [hnow]
    · exact hnext
    · exact Nat.le_succ_of_le (hl.past j hj)
    · exact hlate

/-! ### A run -/

variable (g l e h) in
/-- From one world on to another; the ticks in between began in the worlds `ws`, and whatever happened between two of
    them spared the effect. -/
inductive Passes (w : World α η) : List (World α η) → World α η → Prop
  | refl : Passes w [] w
  | aside {v u : World α η} {ws : List (World α η)} : Passes w ws v → g.Spares v u → Passes w ws u
  | tick {v : World α η} {ws : List (World α η)} : Passes w ws v →
      Passes w (ws ++ [v]) (after (World.runTick l e h .ticked) v)

/-- An effect goes on as long as it answers so, and ends in the first round in which it does not. -/
theorem Lasts.passes (hm : g.Minded l e h) (hp : Passes g l e h w ws v) (hw : g.Lasts q o 0 w)
    (hb : ∀ k, WentOn g l e h q o ws k → q.round k < Tick.bound) :
    (∃ k, g.Lasts q o k v ∧ WentOn g l e h q o ws k) ∨
    ∃ n, g.Rests q o n v ∧ WentOn g l e h q o ws n ∧ Answered g l e h q o ws n true := by
  induction hp with
  | refl => exact Or.inl ⟨0, hw, fun j hj => absurd hj (Nat.not_lt_zero j)⟩
  | aside _ hspared ih =>
    rcases ih hb with ⟨k, hlasts, hgoes⟩ | ⟨n, hrests, hgoes, hends⟩
    · exact Or.inl ⟨k, hlasts.spared hspared, hgoes⟩
    · exact Or.inr ⟨n, hrests.spared hspared, hgoes, hends⟩
  | @tick v ws _ ih =>
    have hbefore : ws ⊆ ws ++ [v] := List.subset_append_left ..
    have hnow : [v] ⊆ ws ++ [v] := List.subset_append_right ..
    rcases ih (fun k hgoes => hb k (hgoes.mono hbefore)) with ⟨k, hlasts, hgoes⟩ | ⟨n, hrests, hgoes, hends⟩
    · have hnext : Answered g l e h q o [v] k false → WentOn g l e h q o (ws ++ [v]) (k + 1) := fun hanswered =>
        (hgoes.mono hbefore).succ (hanswered.mono hnow)
      rcases hlasts.tick hm fun hanswered => hb _ (hnext hanswered) with
        hstays | ⟨hanswered, hlasts'⟩ | ⟨hanswered, hrests⟩
      · exact Or.inl ⟨k, hstays, hgoes.mono hbefore⟩
      · exact Or.inl ⟨k + 1, hlasts', hnext hanswered⟩
      · exact Or.inr ⟨k, hrests, hgoes.mono hbefore, hanswered.mono hnow⟩
    · exact Or.inr ⟨n, hrests.tick hm, hgoes.mono hbefore, hends.mono hbefore⟩

variable (g l e h) in
/-- Asked whether it should end, the effect goes on in its first `n` rounds, and then ends. -/
def Patient (q : Rota) (n : Nat) (ws : List (World α η)) : Prop :=
  ∀ x ∈ ws, ∀ k ≤ n, x.timetable.now + 1 = q.round k →
    answer (e.shouldEnd g.effect) (x.turnOf (World.runJob l e h .ticked) q.task) = decide (k = n)

theorem Patient.eq (hn : Patient g l e h q n ws) {b : Bool} (ha : Answered g l e h q o ws k b) (hk : k ≤ n) :
    b = decide (k = n) := by
  obtain ⟨x, hx, hround, -, rfl⟩ := ha
  exact hn x hx k hk hround

theorem Lasts.passes_patient (hm : g.Minded l e h) (hp : Passes g l e h w ws v) (hw : g.Lasts q o 0 w)
    (hn : Patient g l e h q n ws) (hb : q.round n < Tick.bound) :
    (v.timetable.now < q.round n → ∃ k ≤ n, g.Lasts q o k v) ∧ (q.round n ≤ v.timetable.now → g.Rests q o n v) := by
  -- It went on in no round after the first `n`.
  have hwithin : ∀ k, WentOn g l e h q o ws k → k ≤ n := fun k hgoes =>
    Nat.le_of_not_lt fun hlt => by simpa using hn.eq (hgoes n hlt) (Nat.le_refl n)
  have hbounds : ∀ k, WentOn g l e h q o ws k → q.round k < Tick.bound := fun k hgoes =>
    Nat.lt_of_le_of_lt (q.round_le (hwithin k hgoes)) hb
  rcases hw.passes hm hp hbounds with ⟨k, hlasts, hgoes⟩ | ⟨k, hrests, hgoes, hends⟩
  · have hk := hwithin k hgoes
    refine ⟨fun _ => ⟨k, hk, hlasts⟩, fun hover => ?_⟩
    exact absurd (Nat.lt_of_lt_of_le hlasts.ahead (q.round_le hk)) (Nat.not_lt_of_le hover)
  · obtain rfl : k = n := by simpa using hn.eq hends (hwithin k hgoes)
    exact ⟨fun hahead => absurd hrests.past (Nat.not_le_of_lt hahead), fun _ => hrests⟩

end Vigil
end Fray
