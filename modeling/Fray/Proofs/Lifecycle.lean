import Mathlib.Data.List.Induction
import Fray.Proofs.Collections
import Fray.Proofs.Handles

/-! The states of entities from the first connection on. Whatever is done to them in between, an entity has one state
    from the time it connects until it disconnects, that state is released then and only then, and a released
    combatant has nothing left, whichever handle it is looked at through. -/

namespace Fray

namespace Roster

/-- What can happen to a roster: an entity comes or goes, or a state is changed through its handle. -/
inductive Move (ω : Type) where
  | connect (e : EntityId)
  | disconnect (e : EntityId)
  | act (s : StateRef) (o : ω)

/-- The entity connected, and has not disconnected since. -/
def Present {ω : Type} (e : EntityId) (ms : List (Move ω)) : Prop :=
  ∃ pre mid, ms = pre ++ .connect e :: mid ∧ .disconnect e ∉ mid

variable {σ ω : Type} [EntityState σ] {r : Roster σ}

/-! ### One move -/

/-- Each connected entity has a state of its own. -/
def Tidy (r : Roster σ) : Prop := Numbered r.connected r.states.size

theorem get?_connect (r : Roster σ) (e j : EntityId) :
    (r.connect e).2.get? j = if j = e then some (r.connect e).1 else r.get? j := by
  unfold connect
  split
  · next s hs =>
    split
    · next hj => rw [hj, hs]
    · rfl
  · next hnone =>
    have hnone : r.connected.lookup e = none := hnone
    by_cases hj : j = e
    · subst hj
      simp [get?, List.lookup_append, hnone]
    · have hne : (j == e) = false := beq_false_of_ne hj
      simp [get?, List.lookup_append, List.lookup_cons, hne, hj]

theorem get?_disconnect (r : Roster σ) (e j : EntityId) :
    (r.disconnect e).2.get? j = if j = e then none else r.get? j := by
  unfold disconnect
  split
  · exact lookup_filter_ne e j r.connected
  · next hnone =>
    split
    · next hj => rw [hj, hnone]
    · rfl

theorem answer_disconnect (r : Roster σ) (e : EntityId) : (r.disconnect e).1 = r.contains e := by
  unfold disconnect contains
  split
  · next h => simp [h]
  · next h => simp [h]

/-- An entity that is connected has the state that it had, another gets one that was never given out. -/
theorem connect_cases (r : Roster σ) (e : EntityId) :
    (∃ s, r.get? e = some s ∧ r.connect e = (s, r)) ∨
      (r.get? e = none ∧ (r.connect e).1 = r.states.size ∧ (r.connect e).2.states.size = r.states.size + 1) := by
  unfold connect
  split
  · next s hs => exact Or.inl ⟨s, hs, rfl⟩
  · next hnone => exact Or.inr ⟨hnone, rfl, Array.size_push _⟩

theorem size_le_connect (r : Roster σ) (e : EntityId) : r.states.size ≤ (r.connect e).2.states.size := by
  rcases r.connect_cases e with ⟨s, -, heq⟩ | ⟨-, -, hsize⟩
  · exact Nat.le_of_eq (congrArg (fun p => p.2.states.size) heq.symm)
  · exact Nat.le_trans (Nat.le_succ _) (Nat.le_of_eq hsize.symm)

theorem size_disconnect (r : Roster σ) (e : EntityId) : (r.disconnect e).2.states.size = r.states.size := by
  unfold disconnect
  split
  · exact Array.size_modify
  · rfl

theorem state_connect (r : Roster σ) (e : EntityId) (s : StateRef) : (r.connect e).2.state s = r.state s := by
  unfold connect
  split
  · rfl
  · exact getD_push_self r.states s _

theorem state_of_size_le {s : StateRef} (hs : r.states.size ≤ s) : r.state s = EntityState.fresh := by
  simp [state, hs]

theorem Tidy.connect (h : r.Tidy) (e : EntityId) : (r.connect e).2.Tidy := by
  unfold Roster.connect
  split
  · exact h
  · next hnone =>
    unfold Tidy
    rw [Array.size_push]
    exact Numbered.add h hnone

theorem Tidy.disconnect (h : r.Tidy) (e : EntityId) : (r.disconnect e).2.Tidy := by
  unfold Tidy
  rw [size_disconnect]
  unfold Roster.disconnect
  split
  · exact Numbered.filter h _
  · exact h

/-- The state of the entity is released, and no other is touched. -/
theorem Tidy.state_disconnect (h : r.Tidy) (e : EntityId) (s : StateRef) :
    (r.disconnect e).2.state s = if r.get? e = some s then EntityState.release (r.state s) else r.state s := by
  unfold Roster.disconnect
  split
  · next t ht =>
    have hupdate := r.state_update t s EntityState.release
    have hlt : t < r.states.size := Numbered.lookup_lt h ht
    rw [ht]
    by_cases hst : s = t
    · subst hst
      rw [if_pos ⟨rfl, hlt⟩] at hupdate
      rw [if_pos rfl]
      exact hupdate
    · rw [if_neg fun hc => hst hc.1] at hupdate
      rw [if_neg fun hc => hst (Option.some.inj hc).symm]
      exact hupdate
  · next hnone => simp [hnone]

theorem Tidy.connect_lt (h : r.Tidy) (e : EntityId) : (r.connect e).1 < (r.connect e).2.states.size := by
  rcases r.connect_cases e with ⟨s, hs, heq⟩ | ⟨-, hnew, hsize⟩
  · rw [heq]
    exact Numbered.lookup_lt h hs
  · rw [hnew, hsize]
    exact Nat.lt_succ_self _

/-! ### Any number of moves -/

variable (act : ω → σ → σ)

def move (r : Roster σ) : Move ω → Roster σ
  | .connect e => (r.connect e).2
  | .disconnect e => (r.disconnect e).2
  | .act s o => r.update s (act o)

/-- The roster after a sequence of moves. -/
def run (ms : List (Move ω)) : Roster σ := ms.foldl (move act) {}

variable {act}

theorem run_concat (ms : List (Move ω)) (m : Move ω) : run act (ms ++ [m]) = move act (run act ms) m := by
  simp [run]

theorem run_connect (ms : List (Move ω)) (e : EntityId) :
    run act (ms ++ [.connect e]) = ((run act ms).connect e).2 := run_concat ..

theorem Tidy.move (h : r.Tidy) (m : Move ω) : (move act r m).Tidy := by
  cases m with
  | connect e => exact h.connect e
  | disconnect e => exact h.disconnect e
  | act s o =>
    unfold Tidy
    rw [Roster.move, Roster.update, Array.size_modify]
    exact h

theorem tidy_run (ms : List (Move ω)) : (run act ms).Tidy := by
  induction ms using List.reverseRecOn with
  | nil => exact .nil _
  | append_singleton ms m ih =>
    rw [run_concat]
    exact ih.move m

theorem size_le_move (r : Roster σ) (m : Move ω) : r.states.size ≤ (move act r m).states.size := by
  cases m with
  | connect e => exact r.size_le_connect e
  | disconnect e => exact Nat.le_of_eq (r.size_disconnect e).symm
  | act s o => exact Nat.le_of_eq Array.size_modify.symm

theorem size_le_run (pre post : List (Move ω)) : (run act pre).states.size ≤ (run act (pre ++ post)).states.size := by
  induction post using List.reverseRecOn with
  | nil => exact Nat.le_of_eq (by rw [List.append_nil])
  | append_singleton post m ih =>
    rw [← List.append_assoc, run_concat]
    exact Nat.le_trans ih (size_le_move _ m)

/-- What holds of a fresh state, of one that was acted on and of one that was released, holds of every state. -/
theorem state_run {P : σ → Prop} (hfresh : P EntityState.fresh) (hact : ∀ o s, P s → P (act o s))
    (hrelease : ∀ s, P s → P (EntityState.release s)) (ms : List (Move ω)) (s : StateRef) :
    P ((run act ms).state s) := by
  induction ms using List.reverseRecOn with
  | nil =>
    rw [state_of_size_le (by simp [run])]
    exact hfresh
  | append_singleton ms m ih =>
    rw [run_concat]
    cases m with
    | connect e =>
      rw [move, state_connect]
      exact ih
    | disconnect e =>
      rw [move, (tidy_run ms).state_disconnect]
      split
      · exact hrelease _ ih
      · exact ih
    | act t o =>
      rw [move, state_update]
      split
      · exact hact o _ ih
      · exact ih

/-- An entity that does not disconnect keeps its state. -/
theorem get?_run_of_stays {pre mid : List (Move ω)} {e : EntityId} {s : StateRef} (hs : (run act pre).get? e = some s)
    (hmid : .disconnect e ∉ mid) : (run act (pre ++ mid)).get? e = some s := by
  induction mid using List.reverseRecOn with
  | nil =>
    rw [List.append_nil]
    exact hs
  | append_singleton mid m ih =>
    have ih := ih fun h => hmid (List.mem_append_left [m] h)
    rw [← List.append_assoc, run_concat]
    cases m with
    | connect j =>
      rw [move, get?_connect]
      split
      · next hj =>
        subst hj
        rcases connect_cases (run act (pre ++ mid)) e with ⟨t, ht, heq⟩ | ⟨hnone, -⟩
        · rw [heq, ← ht, ih]
        · exact absurd (ih.symm.trans hnone) (by simp)
      · exact ih
    | disconnect j =>
      have hj : e ≠ j := fun h => hmid (by simp [h])
      rw [move, get?_disconnect, if_neg hj]
      exact ih
    | act t o => exact ih

/-- A state that has an owner after a move, and was there before it, had the owner before. -/
theorem get?_of_move {m : Move ω} {e : EntityId} {s : StateRef} (hs : s < r.states.size)
    (he : (move act r m).get? e = some s) : r.get? e = some s := by
  cases m with
  | connect j =>
    rw [move, get?_connect] at he
    split at he
    · next hj =>
      subst hj
      rcases r.connect_cases e with ⟨t, ht, heq⟩ | ⟨-, hnew, -⟩
      · rw [ht]
        simpa [heq] using he
      · exact absurd (hnew.symm.trans (Option.some.inj he)) (Nat.ne_of_gt hs)
    · exact he
  | disconnect j =>
    rw [move, get?_disconnect] at he
    split at he
    · cases he
    · exact he
  | act t o => exact he

theorem get?_run_of_given {ms pre mid : List (Move ω)} {e : EntityId} (hms : ms = pre ++ .connect e :: mid)
    (hmid : .disconnect e ∉ mid) : (run act ms).get? e = some ((run act pre).connect e).1 := by
  rw [hms, ← List.singleton_append, ← List.append_assoc]
  refine get?_run_of_stays ?_ hmid
  rw [run_connect, get?_connect, if_pos rfl]

theorem given_lt {ms pre mid : List (Move ω)} {e : EntityId} (hms : ms = pre ++ .connect e :: mid) :
    ((run act pre).connect e).1 < (run act ms).states.size := by
  have hsize : (run act (pre ++ [.connect e])).states.size ≤ (run act (pre ++ [.connect e] ++ mid)).states.size :=
    size_le_run _ _
  rw [List.append_assoc, List.singleton_append, ← hms, run_connect] at hsize
  exact Nat.lt_of_lt_of_le ((tidy_run pre).connect_lt e) hsize

/-- Who has a state was given it by a connection that was not followed by a disconnection. -/
theorem exists_given {ms : List (Move ω)} {e : EntityId} {s : StateRef} (he : (run act ms).get? e = some s) :
    ∃ pre mid, ms = pre ++ .connect e :: mid ∧ ((run act pre).connect e).1 = s ∧ .disconnect e ∉ mid := by
  induction ms using List.reverseRecOn with
  | nil => cases he
  | append_singleton ms m ih =>
    rw [run_concat] at he
    have later : (run act ms).get? e = some s → m ≠ .disconnect e → ∃ pre mid, ms ++ [m] = pre ++ .connect e :: mid ∧
        ((run act pre).connect e).1 = s ∧ .disconnect e ∉ mid := fun hs hm => by
      obtain ⟨pre, mid, rfl, hgiven, hmid⟩ := ih hs
      exact ⟨pre, mid ++ [m], by simp, hgiven, by simp [hmid, hm.symm]⟩
    cases m with
    | connect j =>
      rw [move, get?_connect] at he
      split at he
      · next hj =>
        subst hj
        exact ⟨ms, [], rfl, Option.some.inj he, by simp⟩
      · exact later he (by simp)
    | disconnect j =>
      rw [move, get?_disconnect] at he
      split at he
      · cases he
      · next hj => exact later he (by simpa using Ne.symm hj)
    | act t o => exact later he (by simp)

theorem contains_run_iff (ms : List (Move ω)) (e : EntityId) : (run act ms).contains e = true ↔ Present e ms := by
  constructor
  · intro h
    obtain ⟨s, hs⟩ := Option.isSome_iff_exists.mp h
    obtain ⟨pre, mid, hms, -, hmid⟩ := exists_given hs
    exact ⟨pre, mid, hms, hmid⟩
  · rintro ⟨pre, mid, hms, hmid⟩
    rw [contains, get?_run_of_given hms hmid, Option.isSome_some]

theorem not_present_of_gone {pre mid : List (Move ω)} {e : EntityId} (hmid : .connect e ∉ mid) :
    ¬Present e (pre ++ .disconnect e :: mid) := by
  rintro ⟨pre', mid', heq, hmid'⟩
  rcases List.append_eq_append_iff.mp heq with ⟨as, -, has⟩ | ⟨bs, -, hbs⟩
  · cases as with
    | nil => cases has
    | cons a as =>
      obtain ⟨-, rfl⟩ := List.cons.inj has
      exact hmid (by simp)
  · cases bs with
    | nil => cases hbs
    | cons b bs =>
      obtain ⟨-, rfl⟩ := List.cons.inj hbs
      exact hmid' (by simp)

/-! ### Released once -/

/-- The state was given to an entity that has disconnected since. -/
def Disconnected (act : ω → σ → σ) (ms : List (Move ω)) (s : StateRef) : Prop :=
  ∃ pre e post, ms = pre ++ .connect e :: post ∧ ((run act pre).connect e).1 = s ∧ .disconnect e ∈ post

theorem Disconnected.lt {ms : List (Move ω)} {s : StateRef} (h : Disconnected act ms s) :
    s < (run act ms).states.size := by
  obtain ⟨pre, e, post, hms, rfl, -⟩ := h
  exact given_lt hms

theorem disconnected_concat {ms : List (Move ω)} {m : Move ω} {s : StateRef} :
    Disconnected act (ms ++ [m]) s ↔ Disconnected act ms s ∨
      ∃ pre e post, ms = pre ++ .connect e :: post ∧ ((run act pre).connect e).1 = s ∧ m = .disconnect e := by
  constructor
  · rintro ⟨pre, e, post, hms, hgiven, hpost⟩
    rcases concat_eq_append_cons.mp hms with ⟨-, -, rfl⟩ | ⟨mid, rfl, hinit⟩
    · cases hpost
    · rcases List.mem_append.mp hpost with h | h
      · exact Or.inl ⟨pre, e, mid, hinit, hgiven, h⟩
      · exact Or.inr ⟨pre, e, mid, hinit, hgiven, (List.mem_singleton.mp h).symm⟩
  · rintro (⟨pre, e, post, rfl, hgiven, hpost⟩ | ⟨pre, e, post, rfl, hgiven, rfl⟩)
    · exact ⟨pre, e, post ++ [m], by simp, hgiven, List.mem_append_left [m] hpost⟩
    · exact ⟨pre, e, post ++ [.disconnect e], by simp, hgiven, by simp⟩

/-- The state of a connected entity was not disconnected before. -/
theorem not_disconnected {ms : List (Move ω)} {e : EntityId} {s : StateRef} (he : (run act ms).get? e = some s) :
    ¬Disconnected act ms s := by
  induction ms using List.reverseRecOn with
  | nil => cases he
  | append_singleton ms m ih =>
    rw [run_concat] at he
    rw [disconnected_concat]
    rintro (hold | ⟨pre, j, post, hms, hgiven, rfl⟩)
    · exact ih (get?_of_move hold.lt he) hold
    · -- If this move disconnected the state, it was that of the entity that leaves, which then has it no more.
      have hlt : s < (run act ms).states.size := hgiven ▸ given_lt hms
      have hs := get?_of_move hlt he
      by_cases hpost : .disconnect j ∈ post
      · exact ih hs ⟨pre, j, post, hms, hgiven, hpost⟩
      · have hj : (run act ms).get? j = some s := hgiven ▸ get?_run_of_given hms hpost
        have hje : e = j := Numbered.key_unique (tidy_run ms) hs hj
        rw [move, get?_disconnect, if_pos hje] at he
        cases he

/-- Only the disconnection of the entity that has a state disconnects it. -/
theorem disconnected_concat_of_not_owner {ms : List (Move ω)} {m : Move ω} {s : StateRef}
    (hm : ∀ e, m = .disconnect e → (run act ms).get? e ≠ some s) :
    Disconnected act (ms ++ [m]) s ↔ Disconnected act ms s := by
  rw [disconnected_concat, or_iff_left_of_imp]
  rintro ⟨pre, e, post, hms, hgiven, hdis⟩
  by_contra hold
  have hpost : .disconnect e ∉ post := fun hpost => hold ⟨pre, e, post, hms, hgiven, hpost⟩
  exact hm e hdis (hgiven ▸ get?_run_of_given hms hpost)

theorem disconnected_concat_of_owner {ms : List (Move ω)} {e : EntityId} {s : StateRef}
    (he : (run act ms).get? e = some s) : Disconnected act (ms ++ [.disconnect e]) s := by
  obtain ⟨pre, mid, hms, hgiven, -⟩ := exists_given he
  exact disconnected_concat.mpr (Or.inr ⟨pre, e, mid, hms, hgiven, rfl⟩)

end Roster

/-- A state that counts how often it was released. -/
structure Tallied (σ : Type) where
  state : σ
  releases : Nat

namespace Tallied

variable {σ ω : Type}

instance [EntityState σ] : EntityState (Tallied σ) where
  fresh := ⟨EntityState.fresh, 0⟩
  release t := ⟨EntityState.release t.state, t.releases + 1⟩

def act (act : ω → σ → σ) (o : ω) (t : Tallied σ) : Tallied σ := { t with state := act o t.state }

end Tallied

namespace Roster

variable {σ ω : Type}

/-- The roster without the counts. -/
def untally (r : Roster (Tallied σ)) : Roster σ := ⟨r.states.map Tallied.state, r.connected⟩

theorem untally_update {f : Tallied σ → Tallied σ} {f' : σ → σ} (hf : ∀ t, (f t).state = f' t.state)
    (r : Roster (Tallied σ)) (s : StateRef) : (r.update s f).untally = r.untally.update s f' := by
  refine congrArg (Roster.mk · r.connected) (Array.ext (by simp [update, untally]) fun i hi _ => ?_)
  simp only [update, untally, Array.getElem_map, Array.getElem_modify]
  split
  · exact hf _
  · rfl

variable [EntityState σ] {act : ω → σ → σ}

theorem connect_untally (r : Roster (Tallied σ)) (e : EntityId) :
    r.untally.connect e = ((r.connect e).1, (r.connect e).2.untally) := by
  have hget : r.untally.get? e = r.get? e := rfl
  unfold connect
  rw [hget]
  split
  · rfl
  · simp only [untally, Array.size_map, Array.map_push]
    rfl

theorem untally_move (r : Roster (Tallied σ)) (m : Move ω) :
    (move (Tallied.act act) r m).untally = move act r.untally m := by
  cases m with
  | connect e => exact (congrArg Prod.snd (r.connect_untally e)).symm
  | disconnect e =>
    have hget : r.untally.get? e = r.get? e := rfl
    show (r.disconnect e).2.untally = (r.untally.disconnect e).2
    unfold disconnect
    rw [hget]
    split
    · next s hs =>
      have hstates : (r.update s EntityState.release).untally = r.untally.update s EntityState.release :=
        untally_update (fun _ => rfl) r s
      exact congrArg (fun u : Roster σ => { u with connected := r.connected.filter fun c => c.1 ≠ e }) hstates
    · rfl
  | act s o => exact untally_update (fun _ => rfl) r s

theorem untally_run (ms : List (Move ω)) : (run (Tallied.act act) ms).untally = run act ms := by
  induction ms using List.reverseRecOn with
  | nil => simp [run, untally]
  | append_singleton ms m ih => rw [run_concat, run_concat, untally_move, ih]

theorem disconnected_tallied {ms : List (Move ω)} {s : StateRef} :
    Disconnected (Tallied.act act) ms s ↔ Disconnected act ms s := by
  have hgiven : ∀ (pre : List (Move ω)) (e : EntityId),
      ((run (Tallied.act act) pre).connect e).1 = ((run act pre).connect e).1 := fun pre e => by
    have hpre : (run (Tallied.act act) pre).untally = run act pre := untally_run pre
    rw [← hpre, connect_untally]
  simp only [Disconnected, hgiven]

theorem releases_run (ms : List (Move ω)) (s : StateRef) :
    (Disconnected (Tallied.act act) ms s → ((run (Tallied.act act) ms).state s).releases = 1) ∧
      (¬Disconnected (Tallied.act act) ms s → ((run (Tallied.act act) ms).state s).releases = 0) := by
  induction ms using List.reverseRecOn with
  | nil =>
    refine ⟨fun ⟨pre, e, post, hms, _⟩ => absurd hms (by simp), fun _ => ?_⟩
    rw [state_of_size_le (by simp [run])]
    rfl
  | append_singleton ms m ih =>
    rw [run_concat]
    cases m with
    | connect e =>
      rw [disconnected_concat_of_not_owner (by simp), move, state_connect]
      exact ih
    | act t o =>
      have hsame : ((move (Tallied.act act) (run (Tallied.act act) ms) (.act t o)).state s).releases =
          ((run (Tallied.act act) ms).state s).releases := by
        rw [move, state_update]
        split <;> rfl
      rw [disconnected_concat_of_not_owner (by simp), hsame]
      exact ih
    | disconnect e =>
      rw [move, (tidy_run ms).state_disconnect]
      by_cases he : (run (Tallied.act act) ms).get? e = some s
      · rw [if_pos he]
        exact ⟨fun _ => congrArg (· + 1) (ih.2 (not_disconnected he)),
          fun h => absurd (disconnected_concat_of_owner he) h⟩
      · rw [if_neg he, disconnected_concat_of_not_owner fun j hj => by
          cases hj
          exact he]
        exact ih

/-- What the states of entities go through when `act` is what can be done to them. -/
structure Lived (act : ω → σ → σ) : Prop where
  /-- Connections with no disconnection between them give the same state, and the later one changes nothing. -/
  same : ∀ pre mid e, .disconnect e ∉ mid →
    (run act (pre ++ .connect e :: mid)).connect e =
      (((run act pre).connect e).1, run act (pre ++ .connect e :: mid))
  gone : ∀ (pre mid : List (Move ω)) e, .connect e ∉ mid → ¬Present e (pre ++ .disconnect e :: mid)
  /-- An entity that is not present is given a fresh state, which nobody was given before. -/
  fresh : ∀ ms e, ¬Present e ms →
    ((run act ms).connect e).2.state ((run act ms).connect e).1 = EntityState.fresh ∧
    ∀ pre j post, ms = pre ++ .connect j :: post → ((run act pre).connect j).1 ≠ ((run act ms).connect e).1
  answer : ∀ ms e, ((run act ms).disconnect e).1 = true ↔ Present e ms
  counted : ∀ ms : List (Move ω), (run (Tallied.act act) ms).untally = run act ms
  released : ∀ ms s, Disconnected act ms s → ((run (Tallied.act act) ms).state s).releases = 1
  unreleased : ∀ ms s, ¬Disconnected act ms s → ((run (Tallied.act act) ms).state s).releases = 0
  /-- A disconnection touches the state of nobody else. -/
  apart : ∀ ms e s, (run act ms).get? e ≠ some s → ((run act ms).disconnect e).2.state s = (run act ms).state s
  others : ∀ ms e j, j ≠ e → ((run act ms).disconnect e).2.get? j = (run act ms).get? j
  own : ∀ ms e j s, (run act ms).get? e = some s → (run act ms).get? j = some s → e = j

theorem lived (act : ω → σ → σ) : Lived act where
  same pre mid e hmid := by
    have hs : (run act (pre ++ .connect e :: mid)).get? e = some ((run act pre).connect e).1 :=
      get?_run_of_given rfl hmid
    rcases (run act (pre ++ .connect e :: mid)).connect_cases e with ⟨s, hs', heq⟩ | ⟨hnone, -⟩
    · rw [heq, ← Option.some.inj (hs.symm.trans hs')]
    · exact absurd (hs.symm.trans hnone) (by simp)
  gone _ _ _ := not_present_of_gone
  fresh ms e he := by
    have hnot : ¬(run act ms).contains e = true := fun h => he ((contains_run_iff ms e).mp h)
    have hnone : (run act ms).get? e = none := by simpa [contains] using hnot
    rcases (run act ms).connect_cases e with ⟨s, hs, -⟩ | ⟨-, hnew, -⟩
    · exact absurd (hs.symm.trans hnone) (by simp)
    · refine ⟨?_, fun pre j post hms => ?_⟩
      · rw [state_connect, state_of_size_le (Nat.le_of_eq hnew.symm)]
      · rw [hnew]
        exact Nat.ne_of_lt (given_lt hms)
  answer ms e := by rw [answer_disconnect, contains_run_iff]
  counted := untally_run
  released ms s h := (releases_run ms s).1 (disconnected_tallied.mpr h)
  unreleased ms s h := (releases_run ms s).2 (mt disconnected_tallied.mp h)
  apart ms e s he := by rw [(tidy_run ms).state_disconnect, if_neg he]
  others ms e j hj := by rw [get?_disconnect, if_neg hj]
  own ms e j s he hj := Numbered.key_unique (tidy_run ms) he hj

end Roster

end Fray
