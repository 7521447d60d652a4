import Fray.Proofs.Courses
import Fray.Proofs.Work

/-! Everything that the engine does, with whichever crew, is a course of the world, as long as all that its crews do
    when they are called is one. They may do as they like with everything but the timetable, and schedule, cancel and
    tick that; so they may call the engine in turn. -/

namespace Fray

open Act

variable {ι α η : Type} [Amount α] [Host η α] (crew : ι → Crew α η)

/-- Some course leads from one world to the other. -/
def Follows (w v : World α η) : Prop := ∃ ls, Course crew [] w ls v

/-- Whatever the crews do when they are called is some course. -/
structure Company : Prop where
  preCast : ∀ i id c r cancelled, Act.Within (Follows crew) ((crew i).listeners.preCast id c r cancelled)
  postCast : ∀ i id c r, Act.Within (Follows crew) ((crew i).listeners.postCast id c r)
  castStart : ∀ i id caster skill, Act.Within (Follows crew) ((crew i).listeners.castStart id caster skill)
  castEnd : ∀ i id caster skill, Act.Within (Follows crew) ((crew i).listeners.castEnd id caster skill)
  shouldEnd : ∀ i r, Act.Within (Follows crew) ((crew i).effects.shouldEnd r)
  pulse : ∀ i r, Act.Within (Follows crew) ((crew i).effects.pulse r)
  onStart : ∀ i r, Act.Within (Follows crew) ((crew i).effects.onStart r)
  onEnd : ∀ i r, Act.Within (Follows crew) ((crew i).effects.onEnd r)
  perform : ∀ i ref c r, Act.Within (Follows crew) ((crew i).repertoire.perform ref c r).run

variable {crew} {w v : World α η}

theorem lasting_follows : Lasting (Follows crew) where
  refl _ := ⟨[], .done⟩
  trans := fun ⟨ls, h⟩ ⟨ls', h'⟩ => ⟨ls ++ ls', h.append h'⟩

theorem Follows.aside (h : v.timetable = w.timetable) : Follows crew w v := ⟨[], .aside h .done⟩

theorem Follows.ordered (h : Follows crew w v) (hw : w.timetable.Ordered) : v.timetable.Ordered := by
  obtain ⟨ls, h⟩ := h
  exact h.ordered hw

theorem lenient_follows : Lenient (Follows crew) where
  toLasting := lasting_follows
  aside _ htimetable _ := .aside htimetable
  note _ _ := .aside rfl
  enter j delay period _ := ⟨_, .enter j delay period .done⟩
  cancel id _ := ⟨_, .cancel id .done⟩

namespace Company

variable (hcrew : Company crew) (i : ι)
include hcrew

theorem listeners_within : (crew i).listeners.WithinCasts (Follows crew) :=
  ⟨hcrew.preCast i, hcrew.postCast i, hcrew.castStart i, hcrew.castEnd i⟩

theorem effects_within : (crew i).effects.Within (Follows crew) :=
  ⟨hcrew.shouldEnd i, hcrew.pulse i, hcrew.onStart i, hcrew.onEnd i⟩

theorem repertoire_within : (crew i).repertoire.Within (Follows crew) := hcrew.perform i

theorem askPreCast_follows (c : Casting α) (r : Reply) :
    Act.Within (Follows crew) ((crew i).listeners.askPreCast c r) :=
  lenient_follows.askPreCast (hcrew.listeners_within i) c r

theorem cast_follows (c : Casting α) :
    Act.Within (Follows crew) (World.cast (crew i).listeners (crew i).repertoire .ticked c).run :=
  lenient_follows.cast (hcrew.listeners_within i) (hcrew.repertoire_within i) c

theorem run_follows (j : Job α) : Act.Within (Follows crew) ((crew i).run j) :=
  lenient_follows.runJob (hcrew.listeners_within i) (hcrew.repertoire_within i) (hcrew.effects_within i) j

/-! ### Ticks -/

theorem turns_course (ids : List TaskId) (ran : Nat) (w : World α η) :
    ∃ ls, Course crew ids w ls (after (ids.foldlM (Timetable.turn (crew i).run) ran) w) := by
  induction ids generalizing ran w with
  | nil => exact ⟨[], .done⟩
  | cons id ids ih =>
    have htimetable : HasTimetable.timetable w = w.timetable := rfl
    rw [List.foldlM_cons, after_bind]
    cases htake : w.timetable.take id with
    | none =>
      have hturn : after (Timetable.turn (crew i).run ran id) w = w := by
        simp only [Timetable.turn, after_get_bind, htimetable, htake, after_pure]
      obtain ⟨ls, h⟩ := ih (answer (Timetable.turn (crew i).run ran id) w) w
      rw [hturn]
      exact ⟨ls, .skip htake h⟩
    | some taken =>
      obtain ⟨job, t⟩ := taken
      have hturn : after (Timetable.turn (crew i).run ran id) w =
          after ((crew i).run job) { w with timetable := t } := by
        simp only [Timetable.turn, after_get_bind, htimetable, htake]
        rfl
      obtain ⟨ls, hrun⟩ := hcrew.run_follows i job { w with timetable := t }
      obtain ⟨ls', h⟩ := ih (answer (Timetable.turn (crew i).run ran id) w)
        (after ((crew i).run job) { w with timetable := t })
      rw [hturn]
      exact ⟨_, .turn i htake hrun h⟩

/-- A tick opens, its tasks have their turns, and it closes. -/
theorem runTick_course (w : World α η) :
    ∃ ls, Course crew [] w (.opened (w.timetable.now + 1) :: ls ++ [.closed (w.timetable.now + 1)])
      (after (World.runTick (crew i).listeners (crew i).effects (crew i).repertoire .ticked) w) := by
  obtain ⟨ls, h⟩ := hcrew.turns_course i w.timetable.advance.due 0 { w with timetable := w.timetable.advance }
  exact ⟨ls, .tick h .done⟩

end Company

end Fray
