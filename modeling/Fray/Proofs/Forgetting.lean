import Mathlib.Logic.Function.Basic
import Fray.Proofs.CooldownAnswers

/-! Forgetting what is over. Cooldowns drop what has expired when it is asked for. As long as time does not run
    backwards, and no cooldown ends past the last tick, nobody can tell them from a record in which nothing is ever
    dropped, and which knows of each skill no more than its last put. -/

namespace Fray

namespace Cooldowns

/-- When the cooldown of each skill was last put, and for how long. -/
abbrev LastPuts := SkillId → Option (Nat × Nat)

/-- The tick at which a query is made. -/
def Query.moment? : Query → Option Nat
  | put _ now _ | test _ now | remaining _ now => some now
  | clear => none

/-- No cooldown is put that ends past the last tick. -/
def Query.InBounds : Query → Prop
  | put _ now duration => now + duration < Tick.bound
  | test _ _ | remaining _ _ | clear => True

/-- The query is about the skill; a clearing is about every one. -/
def Query.concerns (k : SkillId) : Query → Bool
  | put j _ _ | test j _ | remaining j _ => j = k
  | clear => true

/-- The cooldowns that a sequence of queries leaves. -/
def afterAll (qs : List Query) (c : Cooldowns) : Cooldowns := qs.foldl (fun c q => (obey q c).2) c

/-- What is answered to the queries about a skill, in the course of a sequence of queries. -/
def answersAbout (k : SkillId) (qs : List Query) (c : Cooldowns) : List (Option (Bool ⊕ Nat)) :=
  ((qs.zip (answers qs c)).filter fun x => x.1.concerns k).map Prod.snd

namespace LastPuts

/-- What is left of the last put at a tick. -/
def remaining (m : LastPuts) (k : SkillId) (now : Nat) : Nat :=
  match m k with
  | some (start, duration) => start + duration - now
  | none => 0

/-- The last put is over at a tick. -/
def test (m : LastPuts) (k : SkillId) (now : Nat) : Bool :=
  match m k with
  | some (start, duration) => start + duration ≤ now
  | none => true

def obey (q : Query) (m : LastPuts) : Option (Bool ⊕ Nat) × LastPuts :=
  match q with
  | .put skill now duration => (none, Function.update m skill (some (now, duration)))
  | .test skill now => (some (.inl (m.test skill now)), m)
  | .remaining skill now => (some (.inr (m.remaining skill now)), m)
  | .clear => (none, fun _ => none)

def answers : List Query → LastPuts → List (Option (Bool ⊕ Nat))
  | [], _ => []
  | q :: qs, m => (obey q m).1 :: answers qs (obey q m).2

variable (m : LastPuts) (j k : SkillId) (now duration n : Nat)

theorem test_eq : m.test k now = decide (m.remaining k now = 0) := by
  unfold test remaining
  cases m k with
  | none => rfl
  | some put => exact decide_eq_decide.mpr Nat.sub_eq_zero_iff_le.symm

theorem remaining_update : remaining (Function.update m k (some (now, duration))) j n =
    if j = k then now + duration - n else m.remaining j n := by
  by_cases hj : j = k
  · subst hj
    simp [remaining]
  · simp [remaining, hj]

theorem remaining_eq_zero {m : LastPuts} {k : SkillId} {now n : Nat} (h : m.remaining k now = 0) (hn : now ≤ n) :
    m.remaining k n = 0 := by
  unfold remaining at h ⊢
  split at h
  · omega
  · rfl

end LastPuts

/-! ### Cooldowns beside the record -/

/-- From a tick on, as much is left of every cooldown as of the last put on the record. -/
def Recalls (t : Nat) (c : Cooldowns) (m : LastPuts) : Prop := ∀ k n, t ≤ n → c.remaining k n = m.remaining k n

variable {t : Nat} {c d : Cooldowns} {m : LastPuts}

theorem recalls_nothing : Recalls 0 {} fun _ => none := fun _ n _ => Nat.zero_sub n

namespace Recalls

theorem put (h : Recalls t c m) {now duration : Nat} (ht : t ≤ now) (hb : now + duration < Tick.bound) (k : SkillId) :
    Recalls now (c.put k now duration) (Function.update m k (some (now, duration))) := by
  intro j n hn
  rw [remaining_put, Tick.later_of_lt hb, LastPuts.remaining_update, h j n (Nat.le_trans ht hn)]
  by_cases hd : duration = 0
  · -- A put for no time at all is over at once.
    subst hd
    simp [hn]
  · simp [hd]

theorem test (h : Recalls t c m) {now : Nat} (ht : t ≤ now) (k : SkillId) : Recalls now (c.test k now).2 m := by
  intro j n hn
  rw [remaining_test, h j n (Nat.le_trans ht hn), h k now ht]
  split
  · next hover =>
    obtain ⟨rfl, hover⟩ := hover
    exact (LastPuts.remaining_eq_zero hover hn).symm
  · rfl

/-- A query that is made no earlier is answered alike, and the record goes on being recalled. -/
theorem obey (h : Recalls t c m) {q : Query} (hq : ∀ now, q.moment? = some now → t ≤ now) (hb : q.InBounds) :
    (Cooldowns.obey q c).1 = (LastPuts.obey q m).1 ∧
      Recalls (q.moment?.getD t) (Cooldowns.obey q c).2 (LastPuts.obey q m).2 := by
  cases q with
  | put k now duration => exact ⟨rfl, h.put (hq now rfl) hb k⟩
  | test k now =>
    refine ⟨?_, h.test (hq now rfl) k⟩
    simp only [Cooldowns.obey, LastPuts.obey, test_fst, LastPuts.test_eq, h k now (hq now rfl)]
  | remaining k now =>
    refine ⟨?_, fun j n hn => h j n (Nat.le_trans (hq now rfl) hn)⟩
    simp only [Cooldowns.obey, LastPuts.obey, h k now (hq now rfl)]
  | clear => exact ⟨rfl, fun _ n _ => Nat.zero_sub n⟩

theorem answers (h : Recalls t c m) {qs : List Query} (ht : ∀ now ∈ qs.filterMap Query.moment?, t ≤ now)
    (hs : (qs.filterMap Query.moment?).Pairwise (· ≤ ·)) (hb : ∀ q ∈ qs, q.InBounds) :
    Cooldowns.answers qs c = LastPuts.answers qs m := by
  induction qs generalizing t c m with
  | nil => rfl
  | cons q qs ih =>
    obtain ⟨hfirst, hb⟩ := List.forall_mem_cons.mp hb
    obtain ⟨hanswer, hnext⟩ := h.obey (fun now hnow => ht now (by simp [hnow])) hfirst
    have hrest : Cooldowns.answers qs (Cooldowns.obey q c).2 = LastPuts.answers qs (LastPuts.obey q m).2 := by
      cases hq : q.moment? with
      | none =>
        rw [List.filterMap_cons_none hq] at ht hs
        exact ih hnext (by simpa [hq] using ht) hs hb
      | some now =>
        rw [List.filterMap_cons_some hq] at hs
        obtain ⟨hlater, hs⟩ := List.pairwise_cons.mp hs
        exact ih hnext (by simpa [hq] using hlater) hs hb
    simp only [Cooldowns.answers, LastPuts.answers, hanswer, hrest]

end Recalls

/-! ### One skill among others -/

theorem test_eq_of_expiry? {k : SkillId} (h : c.expiry? k = d.expiry? k) (now : Nat) :
    (c.test k now).1 = (d.test k now).1 ∧ (c.test k now).2.expiry? k = (d.test k now).2.expiry? k := by
  unfold test
  rw [← h]
  cases he : c.expiry? k with
  | none => exact ⟨rfl, h⟩
  | some e =>
    by_cases hlt : now < e
    · simp [hlt, h]
    · simp [hlt, expiry?_erase]

theorem put_eq_of_expiry? (k : SkillId) (now duration : Nat) :
    (c.put k now duration).expiry? k = (d.put k now duration).expiry? k := by
  by_cases hd : duration = 0
  · simp [put, hd, expiry?_erase]
  · rw [expiry?_put c (Nat.pos_of_ne_zero hd), expiry?_put d (Nat.pos_of_ne_zero hd)]

/-- A query about a skill is answered by the expiry of that skill alone, and settles it alone. -/
theorem obey_of_concerns {k : SkillId} {q : Query} (hq : q.concerns k = true) (h : c.expiry? k = d.expiry? k) :
    (obey q c).1 = (obey q d).1 ∧ (obey q c).2.expiry? k = (obey q d).2.expiry? k := by
  cases q with
  | put j now duration =>
    obtain rfl : j = k := by simpa [Query.concerns] using hq
    exact ⟨rfl, put_eq_of_expiry? j now duration⟩
  | test j now =>
    obtain rfl : j = k := by simpa [Query.concerns] using hq
    obtain ⟨hanswer, hnext⟩ := test_eq_of_expiry? h now
    exact ⟨by simp only [obey, hanswer], hnext⟩
  | remaining j now =>
    obtain rfl : j = k := by simpa [Query.concerns] using hq
    exact ⟨by simp only [obey, remaining, h], h⟩
  | clear => exact ⟨rfl, rfl⟩

theorem expiry?_obey {k : SkillId} {q : Query} (hq : q.concerns k = false) (c : Cooldowns) :
    (obey q c).2.expiry? k = c.expiry? k := by
  cases q with
  | put j now duration => exact c.expiry?_put_of_ne (by simpa [Query.concerns, eq_comm] using hq) now duration
  | test j now => exact c.expiry?_test_of_ne (by simpa [Query.concerns, eq_comm] using hq) now
  | remaining j now => rfl
  | clear => simp [Query.concerns] at hq

/-- What is answered about a skill is what would be answered if nothing else had been asked or put. -/
theorem answersAbout_eq {k : SkillId} (h : c.expiry? k = d.expiry? k) (qs : List Query) :
    answersAbout k qs c = answers (qs.filter (·.concerns k)) d := by
  induction qs generalizing c d with
  | nil => rfl
  | cons q qs ih =>
    cases hq : q.concerns k with
    | true =>
      obtain ⟨hanswer, hnext⟩ := obey_of_concerns hq h
      have hrest := ih hnext
      simp only [answersAbout] at hrest
      simp [answersAbout, answers, hq, hanswer, hrest]
    | false =>
      have hrest := ih ((expiry?_obey hq c).trans h)
      simp only [answersAbout] at hrest
      simp [answersAbout, answers, hq, hrest]

/-! ### Nothing is noticed -/

/-- What is so of the answers to a sequence of queries to cooldowns that were empty before. -/
structure Unnoticed (qs : List Query) : Prop where
  /-- They are the answers of the record. -/
  recalled : answers qs {} = LastPuts.answers qs fun _ => none
  /-- Skills do not affect each other. -/
  apart : ∀ k, answersAbout k qs {} = answers (qs.filter (·.concerns k)) {}
  /-- At every point, a skill is off cooldown exactly if nothing of its cooldown remains. -/
  agree : ∀ past, past <+: qs → ∀ k now,
    ((afterAll past {}).test k now).1 = true ↔ (afterAll past {}).remaining k now = 0
  /-- At every point, a new cooldown replaces any other, whichever is longer; one of no time is none. -/
  replaced : ∀ past, past <+: qs → ∀ k now duration n, now ≤ n → now + duration < Tick.bound →
    ((afterAll past {}).put k now duration).remaining k n = now + duration - n

/-- Nobody notices that expired cooldowns are dropped, if time does not run backwards and no cooldown ends past the
    last tick. -/
theorem expired_unnoticed {qs : List Query} (hqs : (qs.filterMap Query.moment?).Pairwise (· ≤ ·))
    (hb : ∀ q ∈ qs, q.InBounds) : Unnoticed qs where
  recalled := recalls_nothing.answers (fun _ _ => Nat.zero_le _) hqs hb
  apart k := answersAbout_eq rfl qs
  agree past _ k now := by simp [test_fst]
  replaced past _ k now duration n hn hb := by
    rw [remaining_put, if_pos rfl, Tick.later_of_lt hb]
    split
    · next hd => simp [hd, hn]
    · rfl

/-- A long cooldown that is tested on its last tick and when it is over, a shorter one in place of another, and one of
    no time. -/
def spells : List Query :=
  [.put ⟨"dash"⟩ 10 30, .put ⟨"leap"⟩ 20 50, .test ⟨"dash"⟩ 39, .test ⟨"dash"⟩ 40, .put ⟨"leap"⟩ 45 5,
    .remaining ⟨"leap"⟩ 48, .test ⟨"leap"⟩ 50, .put ⟨"dash"⟩ 60 0, .test ⟨"dash"⟩ 60]

theorem spells_unnoticed : (spells.filterMap Query.moment?).Pairwise (· ≤ ·) ∧ (∀ q ∈ spells, q.InBounds) ∧
    Unnoticed spells ∧ (answers spells {}).reduceOption = [.inl false, .inl true, .inr 2, .inl true, .inl true] := by
  have hspells : ∀ q ∈ spells, q.InBounds := by simp [spells, Query.InBounds, Tick.bound]
  exact ⟨by decide, hspells, expired_unnoticed (by decide) hspells, by decide +kernel⟩

end Cooldowns

end Fray
