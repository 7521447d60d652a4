import Fray.Proofs.OneLife

/-! What listeners are told of an effect: once that it began, and once that it ended. They are told in this order
    unless the effect ends at its onset, while nobody but itself knows of it; then they are told of its end first. -/

namespace Fray

open Act

namespace Beat

/-- Who shows a skill from the start of an effect on and hides it at its end. -/
def follow : Bool → Beat → Bool
  | _, announced => true
  | _, retired => false
  | shown, begun | shown, entered | shown, started | shown, scheduled _ | shown, pulsed | shown, ended
  | shown, finished | shown, left => shown

theorem filter_isHeralded_steady (bs : List Beat) : (steady bs).filter isHeralded = bs.filter isHeralded := by
  rw [steady, List.filter_filter]
  refine List.filter_congr fun b _ => ?_
  cases b <;> rfl

end Beat

/-- Nothing is told of an effect that is left alone at its onset, and only its end of one that ends there. -/
theorem Stretch.heralded_of_starting {bs : List Beat} {p : Phase} (h : Stretch .starting bs p) :
    bs.filter Beat.isHeralded = if p = .starting then [] else [.retired] := by
  rw [← Beat.filter_isHeralded_steady]
  rcases h.of_starting with ⟨rfl, hbs⟩ | ⟨rfl, hbs⟩
  · rw [hbs]
    rfl
  · rw [hbs]
    rfl

theorem Career.heralded {bs : List Beat} {p : Phase} (h : Career bs p) :
    p = .idle ∧ bs.filter Beat.isHeralded = [] ∨
    (∃ id, p = .running id) ∧ bs.filter Beat.isHeralded = [.announced] ∨
    (∃ id, p = .ended (some id)) ∧ (bs.filter Beat.isHeralded = [.announced, .retired] ∨
      bs.filter Beat.isHeralded = [.retired, .announced]) := by
  have hopening : ∀ cs, (Beat.opening ++ cs).filter Beat.isHeralded = (Beat.steady cs).filter Beat.isHeralded :=
    fun cs => by rw [Beat.filter_isHeralded_steady]; rfl
  cases h with
  | idle => exact Or.inl ⟨rfl, rfl⟩
  | running id h =>
    refine Or.inr (Or.inl ⟨⟨id, rfl⟩, ?_⟩)
    rw [hopening, h]
    rfl
  | ended id h =>
    refine Or.inr (Or.inr ⟨⟨id, rfl⟩, ?_⟩)
    rw [hopening]
    rcases h with h | h | h
    · rw [h]
      exact Or.inr rfl
    · rw [h]
      exact Or.inl rfl
    · rw [h]
      exact Or.inl rfl

/-- What the listeners were told of an effect, oldest first. -/
def World.noticesOf {α η : Type} (w : World α η) (r : ChannelRef) : List Beat :=
  (w.heralds.filter fun x => x.1 = r).map Prod.snd

namespace Ground

variable {α η : Type} {g : Ground α η} {l : Listeners α η} {e : Effects α η} {s : Scheduling α η} {r : ChannelRef}
  {o w v : World α η} {t : List (Option (ChannelRef × Beat) × World α η)}

theorem Trail.noticesOf (hg : g.Lawful) (h : g.Trail w t v) (r : ChannelRef) :
    v.noticesOf r = w.noticesOf r ++ (beatsOf r t).filter Beat.isHeralded := by
  rw [World.noticesOf, World.noticesOf, (h.records hg).2, List.filter_append, List.map_append, beatsOf_filter]

/-- Nobody is told of an effect that is not begun. -/
theorem Happens.noticesOf_idle (hg : g.Lawful) (h : g.Happens o w) (ho : g.Tidy o) (hidle : w.phase r = .idle) :
    w.noticesOf r = o.noticesOf r := by
  obtain ⟨t, ht, hstretch⟩ := h _ (conduct_closed hg) ho
  -- Whatever began is not idle again.
  have horigin : o.phase r = .idle := by
    by_contra hbegun
    exact (ht.onward hg r).begun hbegun hidle
  have hcareer := (horigin ▸ hstretch r).career
  rw [hidle] at hcareer
  have hheralded : (beatsOf r t).filter Beat.isHeralded = [] := by
    rcases hcareer.heralded with h | h | h
    · exact h.2
    · obtain ⟨⟨id, hid⟩, -⟩ := h
      simp at hid
    · obtain ⟨⟨id, hid⟩, -⟩ := h
      simp at hid
  rw [ht.noticesOf hg, hheralded, List.append_nil]

/-- What listeners were told of an effect whose phase is `p`, if `spared` says that it did not end at its onset. -/
structure Heard (spared : Prop) (told : List Beat) (p : Phase) : Prop where
  running : ∀ id, p = .running id → spared ∧ told = [.announced]
  ended : ∀ task, p = .ended task → spared ∧ told = [.announced, .retired] ∨ ¬ spared ∧ told = [.retired, .announced]
  settled : (∃ id, p = .running id) ∨ ∃ id, p = .ended (some id)
  /-- The end is told after the start if and only if the effect did not end at its onset. -/
  ordered : .retired ∈ told → ([.announced, .retired].Sublist told ↔ spared)
  /-- Whoever follows what is told does not show the skill of an effect that has ended, if it did not end there. -/
  followed : (∃ task, p = .ended task) → (told.foldl Beat.follow false = false ↔ spared)

theorem Heard.ofRunning {spared : Prop} (hspared : spared) {id : TaskId} : Heard spared [.announced] (.running id) where
  running _ _ := ⟨hspared, rfl⟩
  ended task h := by simp at h
  settled := Or.inl ⟨id, rfl⟩
  ordered h := by simp at h
  followed h := by simp at h

theorem Heard.ofEnded {spared : Prop} (hspared : spared) {id : TaskId} :
    Heard spared [.announced, .retired] (.ended (some id)) where
  running i h := by simp at h
  ended _ _ := Or.inl ⟨hspared, rfl⟩
  settled := Or.inr ⟨id, rfl⟩
  ordered _ := iff_of_true (List.Sublist.refl _) hspared
  followed _ := iff_of_true rfl hspared

theorem Heard.ofCut {spared : Prop} (hcut : ¬ spared) {id : TaskId} :
    Heard spared [.retired, .announced] (.ended (some id)) where
  running i h := by simp at h
  ended _ _ := Or.inr ⟨hcut, rfl⟩
  settled := Or.inr ⟨id, rfl⟩
  ordered _ := iff_of_false (by decide) hcut
  followed _ := iff_of_false (by decide) hcut

/-- From before an effect is started to any later time, its listeners are told what they should be, in an order that
    depends on the onset of the effect and on nothing else. -/
theorem heard_of_started (hg : g.Lawful) (hc : g.Company g.Happens l e s) (ho : g.Tidy o) (hnone : o.noticesOf r = [])
    (hbefore : g.Happens o w) (hr : r < w.channels.size) (hidle : w.phase r = .idle) (delay period : Nat)
    (hafter : g.Happens (after (World.startChannel l e s r delay period).run w) v) :
    w.noticesOf r = [] ∧
      Heard ((after (World.onset e r (w.channel r).casting) w).phase r = .starting) (v.noticesOf r) (v.phase r) := by
  have hw : g.Tidy w := by
    obtain ⟨t, ht, -⟩ := hbefore _ (conduct_closed hg) ho
    exact (ht.tidy hg ho).2
  have hnone' : w.noticesOf r = [] := (hbefore.noticesOf_idle hg ho hidle).trans hnone
  have hconduct : g.Company g.Conduct l e s := hc.mono fun _ _ h => h _ (conduct_closed hg)
  obtain ⟨id, bs, cs, -, -, honset, hleads, hstretch⟩ := start_leads hg hconduct hw hr hidle delay period
  obtain ⟨t, ht, hbeats, -⟩ := hleads
  obtain ⟨t', ht', hstretch'⟩ := hafter _ (conduct_closed hg) (ht.tidy hg hw).2
  have hcareer := (hstretch.trans (hstretch' r)).career.heralded
  have htold : v.noticesOf r = (Beat.opening ++ bs ++ Beat.announced :: cs ++ [Beat.scheduled id] ++ beatsOf r t').filter
      Beat.isHeralded := by
    rw [(ht.append ht').noticesOf hg, beatsOf_append, hbeats, hnone', List.nil_append]
  -- What is told first tells the two orders apart.
  have hfirst : ∃ rest, v.noticesOf r = bs.filter Beat.isHeralded ++ .announced :: rest := by
    refine ⟨(cs ++ [Beat.scheduled id] ++ beatsOf r t').filter Beat.isHeralded, ?_⟩
    rw [htold]
    simp [Beat.opening, Beat.isHeralded, List.filter_cons]
  rw [← htold] at hcareer
  obtain ⟨rest, hrest⟩ := hfirst
  refine ⟨hnone', ?_⟩
  by_cases hspared : (after (World.onset e r (w.channel r).casting) w).phase r = .starting
  · rw [honset.heralded_of_starting, if_pos hspared] at hrest
    rcases hcareer with ⟨-, htold⟩ | ⟨⟨i, hp⟩, htold⟩ | ⟨⟨i, hp⟩, htold | htold⟩
    · simp [htold] at hrest
    · rw [htold, hp]
      exact .ofRunning hspared
    · rw [htold, hp]
      exact .ofEnded hspared
    · simp [htold] at hrest
  · rw [honset.heralded_of_starting, if_neg hspared] at hrest
    rcases hcareer with ⟨-, htold⟩ | ⟨-, htold⟩ | ⟨⟨i, hp⟩, htold | htold⟩
    · simp [htold] at hrest
    · simp [htold] at hrest
    · simp [htold] at hrest
    · rw [htold, hp]
      exact .ofCut hspared

end Ground

/-! ### A rash effect -/

namespace Hall

/-- It stops itself while it is being started. -/
def rash : Effects Rat Hall :=
  { plain with
    onStart := fun r => do
      enter (r, .started)
      discard (World.stopChannel .silent plain .ticked r).run }

theorem rash_company : hall.Company hall.Happens .silent rash .ticked :=
  { plain_company with
    onStart := fun r w hr => ⟨_, recorded (r, .started) w,
      Ground.happens_closed.stop (w := after (enter (r, .started)) w) plain_company hr⟩ }

theorem start_idle (r : ChannelRef) : start.phase r = .idle := by
  rw [start, World.phase_newChannel]
  rfl

/-- The fickle effect ends in its first turn, and its listeners are told in order. -/
theorem heard_of_fickle : hall.Lawful ∧ hall.Company hall.Happens .silent fickle prompt ∧ hall.Tidy start ∧
    start.noticesOf 0 = [] ∧ hall.Happens start start ∧ 0 < start.channels.size ∧ start.phase 0 = .idle ∧
    (after (World.startChannel .silent fickle prompt 0 0 1).run start).phase 0 = .ended (some ⟨1⟩) ∧
    (after (World.startChannel .silent fickle prompt 0 0 1).run start).noticesOf 0 = [.announced, .retired] := by
  have hended : (after (World.startChannel .silent fickle prompt 0 0 1).run start).phase 0 = .ended (some ⟨1⟩) := by
    decide +kernel
  have hspared : (after (World.onset fickle 0 (start.channel 0).casting) start).phase 0 = .starting := by
    decide +kernel
  have htidy : hall.Tidy start := .start rfl start_idle
  have hsize : 0 < start.channels.size := by decide +kernel
  have hheard := (Ground.heard_of_started lawful prompt_company htidy rfl (Ground.happens_closed.refl start) hsize
    (start_idle 0) 0 1 (Ground.happens_closed.refl _)).2
  refine ⟨lawful, prompt_company, htidy, rfl, Ground.happens_closed.refl start, hsize, start_idle 0, hended, ?_⟩
  rcases hheard.ended _ hended with ⟨-, htold⟩ | ⟨hcut, -⟩
  · exact htold
  · exact absurd hspared hcut

/-- The rash effect has ended when its listeners are told that it began: they are told of its end before, and who
    follows them goes on showing its skill. -/
theorem rash_reversed : hall.Company hall.Happens .silent rash .ticked ∧ hall.Tidy start ∧
    (after (World.startChannel .silent rash .ticked 0 0 1).run start).phase 0 = .ended (some ⟨1⟩) ∧
    (after (World.startChannel .silent rash .ticked 0 0 1).run start).noticesOf 0 = [.retired, .announced] ∧
    ((after (World.startChannel .silent rash .ticked 0 0 1).run start).noticesOf 0).foldl Beat.follow false = true :=
  ⟨rash_company, .start rfl start_idle, by decide +kernel, by decide +kernel, by decide +kernel⟩

end Hall
end Fray
