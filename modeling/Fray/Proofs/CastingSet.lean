import Fray.Proofs.Casting
import Fray.Proofs.OneLife

/-! The casting sets, as effects keep them. A skill is in the set of a caster if and only if an effect of that caster
    and skill is running, and none of the others left the set after it entered. -/

namespace Fray

open Act

namespace CastingSet

theorem contains_start (s : CastingSet) (j k : SkillId) :
    (s.start j).2.contains k = (decide (j = k) || s.contains k) := by
  unfold start
  split
  · next h =>
    by_cases hjk : j = k
    · subst hjk
      simp [h]
    · simp [hjk]
  · by_cases hjk : j = k
    · simp [contains, hjk]
    · simp [contains, hjk, Ne.symm hjk]

theorem contains_stop (s : CastingSet) (j k : SkillId) :
    (s.stop j).2.contains k = (decide (j ≠ k) && s.contains k) := by
  by_cases hjk : j = k
  · simp [stop, contains, hjk]
  · simp [stop, contains, hjk, Ne.symm hjk]

end CastingSet

namespace World

variable {α η : Type} {w : World α η}

def isCasting (w : World α η) (s : StateRef) (k : SkillId) : Bool := (w.combatant s).casting.contains k

/-- The effect belongs to a caster and a skill. -/
def owns (w : World α η) (s : StateRef) (k : SkillId) (r : ChannelRef) : Bool :=
  (w.channel r).casting.state = s && (w.channel r).casting.skill.id = k

/-- The casters of all effects have a state. -/
def Housed (w : World α η) : Prop := ∀ r, r < w.channels.size → (w.channel r).casting.state < w.roster.states.size

theorem isCasting_setCasting {c : Casting α} (hc : c.state < w.roster.states.size) (on : Bool) (s : StateRef)
    (k : SkillId) : (after (setCasting c on) w).isCasting s k =
      if c.state = s && c.skill.id = k then on else w.isCasting s k := by
  by_cases hs : c.state = s
  · subst hs
    have hcombatant := combatant_updateCombatant hc fun f =>
      { f with casting := ((if on then f.casting.start else f.casting.stop) c.skill.id).2 }
    show ((after (updateCombatant c.state _) w).combatant c.state).casting.contains k = _
    rw [hcombatant]
    cases on with
    | true =>
      show ((w.combatant c.state).casting.start c.skill.id).2.contains k = _
      rw [CastingSet.contains_start]
      by_cases hk : c.skill.id = k <;> simp [hk, isCasting]
    | false =>
      show ((w.combatant c.state).casting.stop c.skill.id).2.contains k = _
      rw [CastingSet.contains_stop]
      by_cases hk : c.skill.id = k <;> simp [hk, isCasting]
  · have hother : (after (setCasting c on) w).combatant s = w.combatant s := by
      show (w.roster.update c.state _).state s = _
      rw [Roster.state_update, if_neg fun h => hs h.1.symm]
      rfl
    rw [isCasting, hother, if_neg (by simp [hs])]
    rfl

end World

/-- What a beat makes of the casting set. -/
def Beat.casts? : Beat → Option Bool
  | entered => some true
  | left => some false
  | begun | started | announced | scheduled _ | pulsed | ended | finished | retired => none

/-! ### The last turn -/

/-- What the effects `o` made of the casting set last. -/
def lastCast (o : ChannelRef → Bool) (bs : List (ChannelRef × Beat)) : Option Bool :=
  (bs.filterMap fun x => if o x.1 then x.2.casts? else none).getLast?

section LastCast

variable {o : ChannelRef → Bool} {bs : List (ChannelRef × Beat)} {b : Bool}

theorem lastCast_cons (x : ChannelRef × Beat) (c : Bool) :
    (lastCast o (x :: bs)).getD c = (lastCast o bs).getD (if o x.1 then x.2.casts?.getD c else c) := by
  unfold lastCast
  by_cases ho : o x.1 = true
  · cases hx : x.2.casts? with
    | none => simp [ho, hx]
    | some b => simp [ho, hx, List.getLast?_cons]
  · simp [ho]

theorem exists_of_lastCast (h : lastCast o bs = some b) :
    ∃ pre r x post, bs = pre ++ (r, x) :: post ∧ o r = true ∧ x.casts? = some b ∧
      ∀ y ∈ post, o y.1 = true → y.2.casts? = none := by
  obtain ⟨casts, hcasts⟩ := List.getLast?_eq_some_iff.mp h
  obtain ⟨pre, rest, rfl, -, hrest⟩ := List.filterMap_eq_append_iff.mp hcasts
  obtain ⟨pre', x, post, rfl, -, hx, hpost⟩ := List.filterMap_eq_cons_iff.mp hrest
  have ho : o x.1 = true := by
    by_contra ho
    simp [ho] at hx
  refine ⟨pre ++ pre', x.1, x.2, post, by simp, ho, by simpa [ho] using hx, fun y hy hoy => ?_⟩
  simpa [hoy] using List.filterMap_eq_nil_iff.mp hpost y hy

theorem lastCast_ne_none {r : ChannelRef} {x : Beat} (hmem : (r, x) ∈ bs) (ho : o r = true) (hx : x.casts? = some b) :
    lastCast o bs ≠ none := by
  intro hnone
  have hnil := List.filterMap_eq_nil_iff.mp (List.getLast?_eq_none_iff.mp hnone) _ hmem
  simp [ho, hx] at hnil

end LastCast

theorem mem_of_pair_sublist {α : Type} {a b : α} {pre post : List α} (h : [a, b].Sublist (pre ++ a :: post))
    (ha : a ∉ pre) : b ∈ post := by
  induction pre with
  | nil =>
    have htail : [b].Sublist post := List.cons_sublist_cons.mp h
    exact List.singleton_sublist.mp htail
  | cons x pre ih =>
    obtain ⟨hne, hpre⟩ := not_or.mp (mt List.mem_cons.mpr ha)
    refine ih ?_ hpre
    cases h with
    | cons _ h => exact h
    | cons_cons _ _ => exact absurd rfl hne

/-! ### One entry in a career -/

theorem Career.mem_entered {bs : List Beat} {id : TaskId} (h : Career bs (.running id)) : .entered ∈ bs := by
  cases h with
  | running id h => exact List.mem_append_left _ (by decide)

/-- An effect enters the casting set once, after it was begun. -/
theorem Career.eq_of_entered {bs cs : List Beat} {p : Phase} (h : Career (bs ++ .entered :: cs) p) :
    bs = [.begun] ∧ (.left ∉ cs → ∃ id, p = .running id) := by
  have hsplit : ∀ {xs : List Beat}, .entered ∉ Beat.steady xs → bs ++ .entered :: cs = Beat.opening ++ xs →
      bs = [.begun] ∧ cs = .started :: xs := by
    intro xs hxs heq
    have hnot : .entered ∉ Beat.started :: xs := by
      intro hmem
      exact hxs (List.mem_filter.mpr ⟨(List.mem_cons.mp hmem).resolve_left (by decide), by decide⟩)
    match bs, heq with
    | [], heq => exact absurd (List.cons.inj heq).1 (by decide)
    | [x], heq =>
      obtain ⟨rfl, hrest⟩ := List.cons.inj heq
      exact ⟨rfl, (List.cons.inj hrest).2⟩
    | x :: y :: bs', heq =>
      have hrest : bs' ++ .entered :: cs = .started :: xs := (List.cons.inj (List.cons.inj heq).2).2
      exact absurd (hrest ▸ List.mem_append_right _ (List.mem_cons_self ..)) hnot
  generalize hbs : bs ++ .entered :: cs = all at h
  cases h with
  | idle => simp at hbs
  | @running xs id h => exact ⟨(hsplit (by simp [h]) hbs).1, fun _ => ⟨id, rfl⟩⟩
  | @ended xs id h =>
    have hentered : .entered ∉ Beat.steady xs := by
      rcases h with h | h | h <;> simp [h, Beat.teardown]
    have hleft : .left ∈ xs := by
      have hmem : .left ∈ Beat.steady xs := by
        rcases h with h | h | h <;> simp [h, Beat.teardown]
      exact List.mem_of_mem_filter hmem
    obtain ⟨rfl, rfl⟩ := hsplit hentered hbs
    exact ⟨rfl, fun hnot => absurd (List.mem_cons_of_mem _ hleft) hnot⟩

/-! ### Trails -/

namespace Ground

variable {α η : Type} {g : Ground α η} {w v u : World α η} {r : ChannelRef} {b : Beat}

/-- What else is done leaves the casting sets alone, and gives every caster a state. -/
structure Discreet (g : Ground α η) : Prop where
  casting : ∀ {w v}, g.other w v → ∀ s k, v.isCasting s k = w.isCasting s k
  housed : ∀ {w v : World α η}, g.other w v → w.Housed → v.Housed

theorem Step.casting (hd : g.Discreet) (h : g.Step r b w v) (hr : r < w.channels.size) (hw : w.Housed) (s : StateRef)
    (k : SkillId) :
    v.isCasting s k = (if w.owns s k r then b.casts?.getD (w.isCasting s k) else w.isCasting s k) := by
  have hsame : b.casts? = none → v.isCasting s k = w.isCasting s k → v.isCasting s k =
      (if w.owns s k r then b.casts?.getD (w.isCasting s k) else w.isCasting s k) := by
    intro hb hv
    rw [hv, hb]
    simp
  have hrecorded : ∀ {x}, g.Recorded x w v → v.isCasting s k = w.isCasting s k := by
    rintro x ⟨host, rfl, -⟩
    rfl
  cases h with
  | entered => exact World.isCasting_setCasting (hw r hr) true s k
  | left => exact World.isCasting_setCasting (hw r hr) false s k
  | begun => exact hsame rfl rfl
  | started h => exact hsame rfl (hrecorded h)
  | announced => exact hsame rfl rfl
  | scheduled => exact hsame rfl rfl
  | late _ _ hv => exact hsame rfl (hd.casting hv.1 s k)
  | pulsed h => exact hsame rfl (hrecorded h)
  | torn => exact hsame rfl rfl
  | stopped _ hv => exact hsame rfl (hd.casting hv.1 s k)
  | finished h => exact hsame rfl (hrecorded h)
  | retired => exact hsame rfl rfl

theorem housed_setPhase (p : Phase) (hw : w.Housed) : (after (World.setPhase r p) w).Housed := by
  intro i hi
  rw [World.casting_setPhase]
  exact hw i (by simpa [World.setPhase] using hi)

theorem housed_setCasting (c : Casting α) (on : Bool) (hw : w.Housed) : (after (World.setCasting c on) w).Housed := by
  intro i hi
  refine Nat.lt_of_lt_of_le (hw i hi) (Nat.le_of_eq ?_)
  simp [World.setCasting, World.updateCombatant, Roster.update]

theorem Step.housed (hd : g.Discreet) (h : g.Step r b w v) (hw : w.Housed) : v.Housed := by
  have hrecorded : ∀ {x}, g.Recorded x w v → v.Housed := by
    rintro x ⟨host, rfl, -⟩
    exact hw
  cases h with
  | begun => exact housed_setPhase _ hw
  | entered => exact housed_setCasting _ true hw
  | started h => exact hrecorded h
  | announced => exact hw
  | scheduled => exact housed_setPhase _ hw
  | late _ _ hv => exact hd.housed hv.1 (housed_setPhase _ hw)
  | pulsed h => exact hrecorded h
  | torn => exact housed_setPhase _ hw
  | stopped _ hv => exact hd.housed hv.1 (housed_setPhase _ hw)
  | finished h => exact hrecorded h
  | left => exact housed_setCasting _ false hw
  | retired => exact hw

variable {t : List (Option (ChannelRef × Beat) × World α η)}

/-- A casting set is what the last of its effects that entered or left it made of it. -/
theorem Trail.isCasting_eq (hg : g.Lawful) (hd : g.Discreet) (h : g.Trail w t v) (hw : w.Housed) (s : StateRef)
    (k : SkillId) : v.isCasting s k = (lastCast (v.owns s k) (beats t)).getD (w.isCasting s k) := by
  induction h with
  | nil => rfl
  | @cons w u v x t hmove ht ih =>
    cases x with
    | none =>
      have hbeats : beats ((none, u) :: t) = beats t := rfl
      rw [hbeats]
      rcases hmove with h | ⟨n, rfl⟩
      · rw [ih (hd.housed h hw), hd.casting h]
      · exact ih hw
    | some x =>
      obtain ⟨hr, hstep⟩ := hmove
      have hbeats : beats ((some x, u) :: t) = x :: beats t := rfl
      have howner : v.owns s k x.1 = w.owns s k x.1 := by
        have htrail : g.Trail w ((some x, u) :: t) v := .cons ⟨hr, hstep⟩ ht
        rw [World.owns, World.owns, htrail.casting hg hr]
      rw [hbeats, lastCast_cons, howner, ih (hstep.housed hd hw), hstep.casting hd hr hw]

theorem mem_filter_of {bs : List (ChannelRef × Beat)} :
    b ∈ (bs.filter fun x => x.1 = r).map Prod.snd ↔ (r, b) ∈ bs := by
  simp

variable {o : ChannelRef → Bool}

/-- An effect that entered last is running, and none left after it did. -/
theorem exists_running_of_lastCast (hcareer : ∀ r, Career (beatsOf r t) (v.phase r))
    (hlast : lastCast o (beats t) = some true) :
    ∃ r id, o r = true ∧ v.phase r = .running id ∧
      ∀ i, o i = true → ¬ [(r, .entered), (i, .left)].Sublist (beats t) := by
  obtain ⟨pre, r, x, post, hbeats, ho, hx, hpost⟩ := exists_of_lastCast hlast
  obtain rfl : x = .entered := by cases x <;> simp [Beat.casts?] at hx ⊢
  have hsplit : beatsOf r t = (pre.filter fun x => x.1 = r).map Prod.snd ++
      .entered :: (post.filter fun x => x.1 = r).map Prod.snd := by
    rw [beatsOf, hbeats, List.filter_append, List.filter_cons_of_pos (by simp), List.map_append, List.map_cons]
  obtain ⟨hpre, hrunning⟩ := (hsplit ▸ hcareer r).eq_of_entered
  have hstayed : .left ∉ (post.filter fun x => x.1 = r).map Prod.snd := fun hleft => by
    simpa [Beat.casts?] using hpost _ (mem_filter_of.mp hleft) ho
  obtain ⟨id, hid⟩ := hrunning hstayed
  refine ⟨r, id, ho, hid, fun i hi hsub => ?_⟩
  have hnew : (r, .entered) ∉ pre := fun hmem => by
    have hin := mem_filter_of.mpr hmem
    rw [hpre] at hin
    simp at hin
  rw [hbeats] at hsub
  simpa [Beat.casts?] using hpost _ (mem_of_pair_sublist hsub hnew) hi

/-- Where an effect is running and none left after it entered, the last of them entered. -/
theorem lastCast_of_running (hcareer : ∀ r, Career (beatsOf r t) (v.phase r)) {id : TaskId} (ho : o r = true)
    (hid : v.phase r = .running id) (hstayed : ∀ i, o i = true → ¬ [(r, .entered), (i, .left)].Sublist (beats t)) :
    lastCast o (beats t) = some true := by
  have hentered : (r, .entered) ∈ beats t := mem_filter_of.mp (hid ▸ hcareer r).mem_entered
  cases hcast : lastCast o (beats t) with
  | none => exact absurd hcast (lastCast_ne_none hentered ho rfl)
  | some b =>
    cases b with
    | true => rfl
    | false =>
      -- The last of them left, so `r` had entered before it.
      obtain ⟨pre, i, x, post, hbeats, hi, hx, hpost⟩ := exists_of_lastCast hcast
      obtain rfl : x = .left := by cases x <;> simp [Beat.casts?] at hx ⊢
      have hpre : (r, .entered) ∈ pre := by
        rw [hbeats] at hentered
        rcases List.mem_append.mp hentered with hmem | hmem
        · exact hmem
        · rcases List.mem_cons.mp hmem with heq | hmem
          · simp at heq
          · simpa [Beat.casts?] using hpost _ hmem ho
      refine absurd ?_ (hstayed i hi)
      rw [hbeats]
      exact (List.singleton_sublist.mpr hpre).append (List.singleton_sublist.mpr (List.mem_cons_self ..))

/-- The casting sets after any run: a skill is in the set of a caster if and only if an effect of that caster and
    skill is running, and none of the others left the set after it entered. -/
theorem isCasting_iff (hg : g.Lawful) (hd : g.Discreet) (hw : g.Tidy w) (hidle : ∀ r, w.phase r = .idle)
    (hhoused : w.Housed) (hnone : ∀ s k, w.isCasting s k = false) (h : g.Happens w v) :
    ∃ t, g.Trail w t v ∧ (∀ r, Career (beatsOf r t) (v.phase r)) ∧ ∀ s k, v.isCasting s k = true ↔
      ∃ r id, v.owns s k r = true ∧ v.phase r = .running id ∧
        ∀ i, v.owns s k i = true → ¬ [(r, .entered), (i, .left)].Sublist (beats t) := by
  obtain ⟨t, ht, hstretch⟩ := h _ (conduct_closed hg) hw
  have hcareer : ∀ r, Career (beatsOf r t) (v.phase r) := fun r => (hidle r ▸ hstretch r).career
  refine ⟨t, ht, hcareer, fun s k => ?_⟩
  rw [ht.isCasting_eq hg hd hhoused s k, hnone]
  constructor
  · intro hlast
    refine exists_running_of_lastCast hcareer ?_
    cases hcast : lastCast (v.owns s k) (beats t) with
    | none => simp [hcast] at hlast
    | some b => simpa [hcast] using hlast
  · rintro ⟨r, id, ho, hid, hstayed⟩
    rw [lastCast_of_running hcareer ho hid hstayed]
    rfl

end Ground

/-! ### One haze that hides another -/

namespace Hall

theorem discreet : hall.Discreet where
  casting := by
    rintro w v (⟨id, rfl⟩ | ⟨j, delay, period, rfl⟩ | ⟨c, -, rfl⟩) s k
    · rfl
    · rfl
    · rfl
  housed := by
    rintro w v (⟨id, rfl⟩ | ⟨j, delay, period, rfl⟩ | ⟨c, hc, rfl⟩) hw r hr
    · exact hw r hr
    · exact hw r hr
    · by_cases hnew : r = w.channels.size
      · subst hnew
        have hcasting : ((after (World.newChannel c) w).channel w.channels.size).casting = c := by
          show ((w.channels.push ⟨c, .idle⟩).getD w.channels.size default).casting = c
          simp
        rw [hcasting]
        exact hc
      · have hold : r < w.channels.size := by
          have hr : r < w.channels.size + 1 := by simpa [World.newChannel] using hr
          omega
        rw [World.channel_newChannel c hnew]
        exact hw r hold

def haze : Casting Rat := ⟨⟨⟨⟨⟨"haze"⟩, []⟩, 0⟩, []⟩, ⟨⟨1⟩, .main⟩, 0, none, none⟩

/-- Two effects of one caster and skill. -/
def hazes : World Rat Hall :=
  let w : World Rat Hall := .new {} .empty
  after (World.newChannel haze) (after (World.newChannel haze) { w with roster := (w.roster.connect ⟨1⟩).2 })

/-- Both are started, and then the first is stopped. -/
def hazed : World Rat Hall :=
  let start r w := after (World.startChannel .silent plain .ticked r 1 1).run w
  after (World.stopChannel .silent plain .ticked 0).run (start 1 (start 0 hazes))

theorem hazes_idle (r : ChannelRef) : hazes.phase r = .idle := by
  rw [hazes, World.phase_newChannel, World.phase_newChannel]
  rfl

theorem hazes_none (s : StateRef) (k : SkillId) : hazes.isCasting s k = false := by
  have hstates : hazes.roster.states = #[EntityState.fresh] := rfl
  have hfresh : hazes.combatant s = EntityState.fresh := by
    rw [World.combatant, Roster.state, hstates]
    by_cases hs : s = 0
    · subst hs
      rfl
    · simp [hs]
  rw [World.isCasting, hfresh]
  rfl

theorem hazes_housed : hazes.Housed := by
  show ∀ r, r < hazes.channels.size → (hazes.channel r).casting.state < hazes.roster.states.size
  decide +kernel

theorem hazed_happens : hall.Happens hazes hazed := by
  have hclosed := Ground.happens_closed (g := hall)
  refine hclosed.trans (hclosed.trans (hclosed.start plain_company ?_ 1 1) (hclosed.start plain_company ?_ 1 1))
    (hclosed.stop plain_company ?_)
  · decide +kernel
  · decide +kernel
  · decide +kernel

theorem casting_hazed : hall.Lawful ∧ hall.Discreet ∧ hall.Tidy hazes ∧ (∀ r, hazes.phase r = .idle) ∧ hazes.Housed ∧
    (∀ s k, hazes.isCasting s k = false) ∧ hall.Happens hazes hazed ∧
    ∃ t, hall.Trail hazes t hazed ∧ (∀ r, Career (Ground.beatsOf r t) (hazed.phase r)) ∧
      ∀ s k, hazed.isCasting s k = true ↔ ∃ r id, hazed.owns s k r = true ∧ hazed.phase r = .running id ∧
        ∀ i, hazed.owns s k i = true → ¬ [(r, .entered), (i, .left)].Sublist (Ground.beats t) :=
  ⟨lawful, discreet, .start rfl hazes_idle, hazes_idle, hazes_housed, hazes_none, hazed_happens,
    Ground.isCasting_iff lawful discreet (.start rfl hazes_idle) hazes_idle hazes_housed hazes_none hazed_happens⟩

/-- The second haze still runs, but its skill is not in the casting set. -/
theorem haze_hidden : hall.Happens hazes hazed ∧ hazed.owns haze.state haze.skill.id 1 = true ∧
    hazed.phase 1 = .running ⟨2⟩ ∧ hazed.isCasting haze.state haze.skill.id = false :=
  ⟨hazed_happens, by decide +kernel, by decide +kernel, by decide +kernel⟩

end Hall
end Fray
