import Mathlib.Data.List.Nodup
import Fray.Timetable

/-! Appointments, and what the operations of a timetable do to them. -/

namespace Fray

/-- A task that is scheduled in tick `s` is to run in tick `n`: after its delay, which is at least one tick, and then
    once in each period. -/
def Appointed (s delay period n : Nat) : Prop := ∃ k, n = s + max delay 1 + k * period ∧ (period = 0 → k = 0)

namespace Appointed

variable {s delay period m n : Nat}

theorem first (s delay period : Nat) : Appointed s delay period (s + max delay 1) := ⟨0, by simp, fun _ => rfl⟩

theorem lt (h : Appointed s delay period n) : s < n := by
  obtain ⟨k, rfl, -⟩ := h
  have hdelay : 1 ≤ max delay 1 := Nat.le_max_right _ _
  omega

theorem add_period (h : Appointed s delay period n) (hp : period ≠ 0) : Appointed s delay period (n + period) := by
  obtain ⟨k, rfl, -⟩ := h
  exact ⟨k + 1, by rw [Nat.succ_mul]; omega, fun h => absurd h hp⟩

/-- From one appointment to the next it is a period. -/
theorem add_period_le (hm : Appointed s delay period m) (hn : Appointed s delay period n) (h : m < n) :
    period ≠ 0 ∧ m + period ≤ n := by
  obtain ⟨i, rfl, -⟩ := hm
  obtain ⟨k, rfl, hk⟩ := hn
  have hlt : i < k := by
    refine Nat.lt_of_not_le fun hle => ?_
    have hmul := Nat.mul_le_mul_right period hle
    omega
  refine ⟨fun hp => ?_, ?_⟩
  · have hzero := hk hp
    omega
  · have hmul := Nat.mul_le_mul_right period (Nat.succ_le_of_lt hlt)
    rw [Nat.succ_mul] at hmul
    omega

end Appointed

namespace Timetable

variable {κ : Type} {t : Timetable κ} {id : TaskId}

theorem isCancelled_iff : t.isCancelled id = true ↔ ∀ a ∈ t.tasks, a.id ≠ id := by
  simp [isCancelled, find?]

theorem take_eq_none_iff : t.take id = none ↔ ∀ a ∈ t.tasks, a.id ≠ id := by
  simp [take, find?]

/-- No two tasks have one id, and the ids ascend. -/
def Ascending (t : Timetable κ) : Prop := t.tasks.Pairwise fun a b => a.id.val < b.id.val

namespace Ascending

theorem nodup_ids (h : t.Ascending) : (t.tasks.map (·.id)).Nodup := by
  refine List.pairwise_map.mpr (h.imp fun {a b} hlt heq => ?_)
  rw [heq] at hlt
  exact Nat.lt_irrefl _ hlt

theorem eq_of_id_eq (h : t.Ascending) {a b : Appointment κ} (ha : a ∈ t.tasks) (hb : b ∈ t.tasks)
    (hid : a.id = b.id) : a = b :=
  List.inj_on_of_nodup_map h.nodup_ids ha hb hid

theorem schedule (h : t.Ascending) (hlt : ∀ a ∈ t.tasks, a.id.val < t.nextId) (job : κ) (delay period : Nat) :
    (t.schedule job delay period).2.Ascending := by
  refine List.pairwise_append.mpr ⟨h, List.pairwise_singleton _ _, fun a ha b hb => ?_⟩
  obtain rfl := List.mem_singleton.mp hb
  exact hlt a ha

theorem cancel (h : t.Ascending) (id : TaskId) : (t.cancel id).Ascending := h.filter _

end Ascending

/-- A task that has its turn leaves, or moves on by its period; the others stay. -/
theorem mem_tasks_take (h : t.Ascending) {job : κ} {u : Timetable κ} (ht : t.take id = some (job, u)) :
    ∃ a ∈ t.tasks, a.id = id ∧ a.job = job ∧ u.now = t.now ∧ u.nextId = t.nextId ∧ u.Ascending ∧
      ∀ b, b ∈ u.tasks ↔
        b ∈ t.tasks ∧ b.id ≠ id ∨ a.period ≠ 0 ∧ b = { a with next := Tick.later t.now a.period } := by
  obtain ⟨a, hfind, heq⟩ := Option.map_eq_some_iff.mp ht
  obtain ⟨rfl, rfl⟩ := Prod.mk.inj heq
  have ha : a ∈ t.tasks := List.mem_of_find?_eq_some hfind
  obtain rfl : a.id = id := by simpa using List.find?_some hfind
  refine ⟨a, ha, rfl, rfl, ?_⟩
  clear ht heq
  by_cases hp : a.period = 0
  · rw [if_pos hp]
    refine ⟨rfl, rfl, h.cancel _, fun b => ?_⟩
    simp [cancel, hp]
  · rw [if_neg hp]
    refine ⟨rfl, rfl, ?_, fun b => ?_⟩
    · refine List.pairwise_map.mpr (h.imp fun {b c} hlt => ?_)
      split <;> split <;> exact hlt
    · simp only [List.mem_map]
      constructor
      · rintro ⟨c, hc, rfl⟩
        by_cases hid : c.id = a.id
        · obtain rfl := h.eq_of_id_eq hc ha hid
          exact Or.inr ⟨hp, if_pos rfl⟩
        · rw [if_neg hid]
          exact Or.inl ⟨hc, hid⟩
      · rintro (⟨hb, hid⟩ | ⟨-, rfl⟩)
        · exact ⟨b, hb, if_neg hid⟩
        · exact ⟨a, ha, if_pos rfl⟩

end Timetable
end Fray
