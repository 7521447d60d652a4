import Fray.Proofs.Ledger
import Fray.Proofs.Outcome

/-! Contributions are conserved. Every run of the engine is entered into a ledger as it goes: an operation enters
    what it did to the windows, and a resolution also what its listeners contributed while it ran. The ledger goes
    on following the windows and the attacks that listeners were told of, and it conserves. -/

namespace Fray

open Act

variable {α η : Type}

/-! ### Entries of listeners -/

/-- A contribution made in a tick, or a change of numbers. -/
def Entry.IsContribution (t : Nat) : Entry α → Prop
  | .contribution k _ => k.tick = t
  | .renumbering _ _ => True
  | .expiry _ | .loss _ _ | .application _ => False

/-- What is contributed in the tick of a window leaves the window open. -/
theorem Entry.find?_act {e : Entry α} {k : WindowKey} (he : e.IsContribution k.tick) {w : Windows α} {r : AttackRef}
    (h : w.find? k = some r) : (e.act w).find? k = some r := by
  cases e with
  | contribution j a => exact Windows.find?_register_of_some h (Nat.le_of_eq he) a
  | renumbering s f => exact h
  | expiry t => exact he.elim
  | loss j why => exact he.elim
  | application j => exact he.elim

theorem Entry.find?_foldl_act {es : List (Entry α)} {k : WindowKey} (hes : ∀ e ∈ es, e.IsContribution k.tick)
    {w : Windows α} {r : AttackRef} (h : w.find? k = some r) : (es.foldl Entry.act w).find? k = some r := by
  induction es generalizing w with
  | nil => exact h
  | cons e es ih =>
    obtain ⟨he, hes⟩ := List.forall_mem_cons.mp hes
    exact ih hes (Entry.find?_act he h)

/-- The attack that an event tells of as applied. -/
def Event.finalized? : Event α → Option (Attack α)
  | .finalized a _ => some a
  | .attack _ | .kill _ _ _ | .preCast _ _ | .postCast _ _ | .castStart _ _ _ | .castEnd _ _ _ => none

namespace Ledger

theorem applied_postAll {es : List (Entry α)} {t : Nat} (hes : ∀ e ∈ es, e.IsContribution t) (L : Ledger α) :
    (L.postAll es).applied = L.applied := by
  induction es generalizing L with
  | nil => rfl
  | cons e es ih =>
    obtain ⟨he, hes⟩ := List.forall_mem_cons.mp hes
    refine (ih hes (L.post e)).trans ?_
    cases e with
    | contribution k a => rfl
    | renumbering r f => rfl
    | expiry u => exact he.elim
    | loss k why => exact he.elim
    | application k => exact he.elim

theorem postAll_append (L : Ledger α) (es es' : List (Entry α)) :
    L.postAll (es ++ es') = (L.postAll es).postAll es' :=
  List.foldl_append

end Ledger

namespace World

/-- The attacks that listeners were told of as applied, oldest first. -/
def finalizations (w : World α η) : List (Attack α) := w.told.filterMap Event.finalized?

theorem finalizations_append {w w' : World α η} {events : List (Event α)} (h : w'.told = w.told ++ events) :
    w'.finalizations = w.finalizations ++ events.filterMap Event.finalized? := by
  simp [finalizations, h]

/-- From one world to the other, damage is contributed in the current tick and numbers of attacks change; nothing
    else happens to the windows. -/
def Contributes [Host η α] (w v : World α η) : Prop :=
  Host.tick v.host = Host.tick w.host ∧
    ∃ es : List (Entry α), (∀ e ∈ es, e.IsContribution (Host.tick w.host)) ∧ v.windows = es.foldl Entry.act w.windows

variable [Host η α]

theorem Contributes.ofWindows {w v : World α η} (ht : Host.tick v.host = Host.tick w.host)
    (hw : v.windows = w.windows) : Contributes w v :=
  ⟨ht, [], by simp, hw⟩

theorem lasting_contributes : Lasting (Contributes (α := α) (η := η)) where
  refl w := .ofWindows rfl rfl
  trans h₁ h₂ := by
    obtain ⟨ht₁, es₁, he₁, hw₁⟩ := h₁
    obtain ⟨ht₂, es₂, he₂, hw₂⟩ := h₂
    refine ⟨ht₂.trans ht₁, es₁ ++ es₂, ?_, by rw [hw₂, hw₁, List.foldl_append]⟩
    exact List.forall_mem_append.mpr ⟨he₁, ht₁ ▸ he₂⟩

/-- Listeners may change the numbers of attacks, cancel them and contribute damage; they resolve nothing. -/
def Assists (w v : World α η) : Prop := Contributes w v ∧ v.told = w.told

theorem lasting_assists : Lasting (Assists (α := α) (η := η)) where
  refl w := ⟨lasting_contributes.refl w, rfl⟩
  trans h₁ h₂ := ⟨lasting_contributes.trans h₁.1 h₂.1, h₂.2.trans h₁.2⟩

theorem register_assists {w : World α η} {k : WindowKey} (hk : k.tick = Host.tick w.host) (a : Attack α) :
    Assists w (after (register k a) w) := by
  obtain ⟨j, hj⟩ := after_register k a w
  rw [hj]
  exact ⟨⟨rfl, [.contribution k a], by simpa [Entry.IsContribution] using hk, rfl⟩, rfl⟩

variable [Amount α]

/-- A listener may contribute damage. -/
theorem attack_assists (wielder : Wielder) (target : EntityId) (value : α) (element : Option Element)
    (types : List DamageType) : Act.Within Assists (attack (η := η) wielder target value element types).run := by
  intro w
  cases hd : Damage.new value element types with
  | error fault =>
    rw [after_attack_of_error wielder target hd]
    exact lasting_assists.refl w
  | ok d =>
    rw [after_attack_of_ok wielder target hd]
    exact register_assists rfl _

theorem editAttack_assists (r : AttackRef) {e : Damage.Edit α} (he : e.isNumeric = true) :
    Act.Within (Assists (η := η)) (editAttack r e).run := by
  intro w
  cases hd : (w.windows.attack r).damage.edit e with
  | error fault =>
    rw [after_editAttack_of_error hd]
    exact lasting_assists.refl w
  | ok d =>
    obtain ⟨f, hf⟩ := Damage.edit_eq_renumber he hd
    rw [after_editAttack_of_ok hd]
    refine ⟨⟨rfl, [.renumbering r f], by simp [Entry.IsContribution], ?_⟩, rfl⟩
    exact w.windows.update_congr (by simp [hf])

/-! ### Resolutions -/

/-- What a resolution enters: it drops the windows of earlier ticks; contributions are made while the blow is found
    out and shown; and its window is discarded or applied as a whole. Once it was applied, more contributions may
    follow. -/
def Settles (b : Blow α) (o : Outcome α) (es : List (Entry α)) : Prop :=
  match o with
  | .ignored => es = []
  | .denied => ∃ during, (∀ e ∈ during, e.IsContribution b.tick) ∧
      es = .expiry b.tick :: (during ++ [.loss b.key .denied])
  | .cancelled => ∃ during, (∀ e ∈ during, e.IsContribution b.tick) ∧
      es = .expiry b.tick :: (during ++ [.loss b.key .cancelled])
  | .applied _ _ => ∃ during later, (∀ e ∈ during ++ later, e.IsContribution b.tick) ∧
      es = .expiry b.tick :: (during ++ .application b.key :: later)

theorem Sought.entries {w v : World α η} {b : Blow α} {r : AttackRef} (h : Sought w b r v) :
    ∃ es : List (Entry α), (∀ e ∈ es, e.IsContribution b.tick) ∧
      v.windows = es.foldl Entry.act (w.windows.expire b.tick) := by
  cases h.located with
  | known h => exact ⟨[], by simp, rfl⟩
  | @discovered a j h ha =>
    refine ⟨[.contribution b.key a], by simp [Entry.IsContribution, Blow.key], ?_⟩
    exact congrArg Prod.snd (w.windows.register_expire b.key a).symm

/-- The window of an attack that is shown is still its own when it is closed. -/
theorem Shown.entries {l : Listeners α η} (hl : l.Within Contributes) {b : Blow α} {w v u : World α η}
    {r : AttackRef} {cancelled : Bool} (h : Shown l b w r v cancelled u) (ht : b.tick = Host.tick w.host) :
    ∃ es : List (Entry α), (∀ e ∈ es, e.IsContribution b.tick) ∧
      (es.foldl Entry.act (w.windows.expire b.tick)).find? b.key = some r ∧
      (es.foldl Entry.act (w.windows.expire b.tick)).attack r = u.windows.attack r ∧
      u.windows = (es.foldl Entry.act (w.windows.expire b.tick)).remove b.key ∧
      Host.tick u.host = b.tick := by
  obtain ⟨es₀, he₀, hv⟩ := h.sought.entries
  have htick : Host.tick v.host = b.tick := by rw [h.sought.located.frame.1, ht]
  obtain ⟨hask, es, hes, hwindows⟩ := l.askAttack_within lasting_contributes hl r v
  -- Listeners contribute in the tick of the blow, and that leaves its window open.
  have hes : ∀ e ∈ es, e.IsContribution b.tick := htick ▸ hes
  have hfold : (es₀ ++ es).foldl Entry.act (w.windows.expire b.tick) = (after (l.askAttack r) v).windows := by
    rw [List.foldl_append, ← hv]
    exact hwindows.symm
  have hfound : (after (l.askAttack r) v).windows.find? b.key = some r := by
    rw [hwindows]
    exact Entry.find?_foldl_act hes h.sought.located.found
  refine ⟨es₀ ++ es, List.forall_mem_append.mpr ⟨he₀, hes⟩, ?_, ?_, ?_, ?_⟩
  · rw [hfold]
    exact hfound
  · rw [hfold, h.closed]
    simp
  · rw [hfold, h.closed]
    exact Windows.close_of_find? hfound
  · rw [h.closed]
    exact hask.trans htick

theorem conclude_contributes {l : Listeners α η} (hl : l.Within Contributes) (b : Blow α) (a : Attack α)
    (killer : Option EntityId) (w : World α η) : Contributes w (after (conclude l b a killer) w) :=
  conclude_within lasting_contributes (fun _ _ _ => .ofWindows rfl rfl) hl b a killer w

end World

/-! ### A ledger that is kept -/

/-- The ledger has the windows of the world, and has applied what listeners were told of as applied. -/
structure Ledger.Tracks (L : Ledger α) (w : World α η) : Prop where
  windows : L.windows = w.windows
  applied : L.applied.map Prod.snd = w.finalizations
  conserved : L.Conserved
  once : ∀ c ∈ L.contributions, L.places.count c.attack = 1

namespace Ledger.Tracks

open World

variable {L : Ledger α} {w w' : World α η}

theorem step (h : L.Tracks w) {es : List (Entry α)} (hw : w'.windows = es.foldl Entry.act w.windows)
    (ha : (L.postAll es).applied.map Prod.snd = w'.finalizations) : (L.postAll es).Tracks w' where
  windows := by rw [windows_postAll, h.windows, hw]
  applied := ha
  conserved := h.conserved.postAll es
  once _ hc := (h.conserved.postAll es).count_places hc

theorem contribution (h : L.Tracks w) (k : WindowKey) (a : Attack α) :
    (L.postAll [.contribution k a]).Tracks (after (register k a) w) := by
  obtain ⟨j, hj⟩ := after_register k a w
  rw [hj]
  exact h.step rfl h.applied

theorem discard (h : L.Tracks w) {t : Nat} {during : List (Entry α)} (hd : ∀ e ∈ during, e.IsContribution t)
    {k : WindowKey} {why : Loss} (hw : w'.windows = (during.foldl Entry.act (w.windows.expire t)).remove k)
    (hf : w'.finalizations = w.finalizations) : (L.postAll (.expiry t :: (during ++ [.loss k why]))).Tracks w' := by
  refine h.step ?_ ?_
  · simpa [Entry.act] using hw
  · have happlied : (L.postAll (.expiry t :: (during ++ [.loss k why]))).applied = L.applied :=
      calc ((L.expire t).postAll (during ++ [.loss k why])).applied
        _ = (((L.expire t).postAll during).lose k why).applied := by rw [postAll_append]; rfl
        _ = L.applied := applied_postAll hd (L.expire t)
    rw [happlied, h.applied, hf]

theorem apply (h : L.Tracks w) {t : Nat} {during later : List (Entry α)} (hd : ∀ e ∈ during, e.IsContribution t)
    (hl : ∀ e ∈ later, e.IsContribution t) {k : WindowKey} {r : AttackRef} {a : Attack α} {v : Windows α}
    (hv : during.foldl Entry.act (w.windows.expire t) = v) (hr : v.find? k = some r) (ha : v.attack r = a)
    (hw : w'.windows = later.foldl Entry.act (v.remove k))
    (hf : w'.finalizations = w.finalizations ++ [a]) :
    (L.postAll (.expiry t :: (during ++ .application k :: later))).Tracks w' := by
  have hopen : ((L.expire t).postAll during).windows = v := by
    rw [windows_postAll, ← hv, ← h.windows]
    rfl
  refine h.step ?_ ?_
  · simpa [Entry.act, hv] using hw
  · have happlied : (L.postAll (.expiry t :: (during ++ .application k :: later))).applied = L.applied ++ [(r, a)] :=
      calc ((L.expire t).postAll (during ++ .application k :: later)).applied
        _ = ((((L.expire t).postAll during).apply k).postAll later).applied := by rw [postAll_append]; rfl
        _ = (((L.expire t).postAll during).apply k).applied := applied_postAll hl _
        _ = ((L.expire t).postAll during).applied ++ [(r, a)] := by simp [Ledger.apply, hopen, hr, ha]
        _ = L.applied ++ [(r, a)] := by rw [applied_postAll hd]; rfl
    rw [happlied, hf, List.map_append, h.applied]
    rfl

end Ledger.Tracks

namespace World

variable [Amount α] [Host η α]

theorem Exit.tracked {l : Listeners α η} (hl : l.Within Assists) {b b' : Blow α} {w w' : World α η} {o : Outcome α}
    (h : Exit l b w o b' w') (ht : b.tick = Host.tick w.host) {L : Ledger α} (hL : L.Tracks w) :
    ∃ es, Settles b o es ∧ (L.postAll es).Tracks w' := by
  have hc : l.Within Contributes := hl.mono fun _ _ h => h.1
  have htold : l.Within fun u v => v.told = u.told := hl.mono fun _ _ h => h.2
  cases h with
  | ignored hz => exact ⟨[], rfl, hL⟩
  | withdrawn hz hcancelled =>
    refine ⟨_, ⟨[], by simp, rfl⟩, hL.discard (by simp) rfl rfl⟩
  | baseless hz hcancelled hb =>
    have hnone : (w.windows.expire b.tick).find? b.key = none :=
      (w.windows.find?_expire_tick b.key).trans (behind_eq_error.mp hb).1
    refine ⟨_, ⟨[], by simp, rfl⟩, hL.discard (by simp) ?_ rfl⟩
    exact (Windows.remove_of_none hnone).symm
  | denied hz hcancelled hs hd =>
    -- No listener was asked: at most the discovered attack was contributed.
    obtain ⟨es, hes, hv⟩ := hs.entries
    refine ⟨_, ⟨es, hes, rfl⟩, hL.discard hes ?_ ?_⟩
    · rw [← hv]
      exact Windows.close_of_find? hs.located.found
    · simp [finalizations, told, hs.located.frame.2.2.2]
  | stopped hs =>
    obtain ⟨es, hes, -, -, hwindows, -⟩ := hs.entries hc ht
    refine ⟨_, ⟨es, hes, rfl⟩, hL.discard hes hwindows ?_⟩
    exact (finalizations_append (hs.told htold)).trans (by simp [Event.finalized?])
  | spent hs hw =>
    obtain ⟨es, hes, -, -, hwindows, -⟩ := hs.entries hc ht
    refine ⟨_, ⟨es, hes, rfl⟩, hL.discard hes hwindows ?_⟩
    exact (finalizations_append (hs.told htold)).trans (by simp [Event.finalized?])
  | @applied r v u a killer hs hw ha hk =>
    obtain ⟨es, hes, hfound, hattack, hwindows, htick⟩ := hs.entries hc ht
    -- What is contributed once the window is closed opens another one, and is no part of the applied attack.
    obtain ⟨-, later, hlater, hlast⟩ := conclude_contributes hc b a killer u
    have hlater : ∀ e ∈ later, e.IsContribution b.tick := htick ▸ hlater
    have hall := List.forall_mem_append.mpr ⟨hes, hlater⟩
    refine ⟨_, ⟨es, later, hall, rfl⟩, hL.apply hes hlater rfl hfound (hattack.trans ha) ?_ ?_⟩
    · rw [hlast, hwindows]
    · have hevents : (after (conclude l b a killer) u).told = w.told ++ ([.attack r] ++
          ((killer.toList.map fun e => .kill e b.target a) ++ [.finalized a a.damage.dealt])) := by
        rw [told_conclude htold, hs.told htold, List.append_assoc]
      rw [finalizations_append hevents]
      cases killer with
      | none => rfl
      | some e => rfl

/-! ### Runs -/

/-- What may happen to the engine from outside. -/
inductive Deed (α η : Type)
  | attack (wielder : Wielder) (target : EntityId) (value : α) (element : Option Element) (types : List DamageType)
  | register (k : WindowKey) (a : Attack α)
  | expire (tick : Nat)
  | unregister (k : WindowKey)
  | resolve (b : Blow α)
  /-- Anything else, such as a new tick of the host. -/
  | elsewhere (f : World α η → World α η)

namespace Deed

/-- A blow is handed over in its tick; and what happens elsewhere leaves the windows alone. -/
def Fits (w : World α η) : Deed α η → Prop
  | .resolve b => b.tick = Host.tick w.host
  | .elsewhere f => (f w).windows = w.windows ∧ (f w).told = w.told
  | .attack _ _ _ _ _ | .register _ _ | .expire _ | .unregister _ => True

def leaves (l : Listeners α η) (w : World α η) : Deed α η → World α η
  | .attack wielder target value element types => after (World.attack wielder target value element types).run w
  | .register k a => after (World.register k a) w
  | .expire t => after (World.expire t) w
  | .unregister k => after (World.unregister k) w
  | .resolve b => after (World.resolve l b) w
  | .elsewhere f => f w

/-- What a deed enters. -/
def Enters (l : Listeners α η) (w : World α η) (es : List (Entry α)) : Deed α η → Prop
  | .attack wielder target value element types => match Damage.new value element types with
    | .ok d => es = [.contribution ⟨target, some wielder.entity, Host.tick w.host⟩ ⟨d, target, some wielder, .generic⟩]
    | .error _ => es = []
  | .register k a => es = [.contribution k a]
  | .expire t => es = [.expiry t]
  | .unregister k => es = [.loss k .unregistered]
  | .resolve b => Settles b (answer (World.resolve l b) w).1 es
  | .elsewhere _ => es = []

/-- Every deed is entered. -/
theorem tracked {l : Listeners α η} (hl : l.Within Assists) {d : Deed α η} {w : World α η} (hd : d.Fits w)
    {L : Ledger α} (hL : L.Tracks w) : ∃ es, d.Enters l w es ∧ (L.postAll es).Tracks (d.leaves l w) := by
  cases d with
  | attack wielder target value element types =>
    cases hnew : Damage.new value element types with
    | error fault =>
      have hleaves : (Deed.attack wielder target value element types).leaves l w = w :=
        after_attack_of_error wielder target hnew w
      rw [hleaves]
      exact ⟨[], by simp [Enters, hnew], hL⟩
    | ok damage =>
      have hleaves : (Deed.attack wielder target value element types).leaves l w =
          after (World.register ⟨target, some wielder.entity, Host.tick w.host⟩
            ⟨damage, target, some wielder, .generic⟩) w := after_attack_of_ok wielder target hnew w
      rw [hleaves]
      exact ⟨_, by simp only [Enters, hnew], hL.contribution _ _⟩
  | register k a => exact ⟨_, rfl, hL.contribution k a⟩
  | expire t =>
    obtain ⟨j, hj⟩ := after_expire t w
    refine ⟨_, rfl, ?_⟩
    rw [leaves, hj]
    exact hL.step rfl hL.applied
  | unregister k => exact ⟨_, rfl, hL.step rfl hL.applied⟩
  | resolve b => exact (resolve_exit l b w).tracked hl hd hL
  | elsewhere f =>
    obtain ⟨hwindows, htold⟩ := hd
    refine ⟨[], rfl, hL.step hwindows ?_⟩
    rw [finalizations, leaves, htold]
    exact hL.applied

end Deed

/-- Every deed fits the world that the deeds before it leave. -/
def Fit (l : Listeners α η) : List (Deed α η) → World α η → Prop
  | [], _ => True
  | d :: ds, w => d.Fits w ∧ Fit l ds (d.leaves l w)

/-- A ledger is kept through a run: it tracks the world at every point, by what each deed enters. -/
def Kept (l : Listeners α η) : List (Deed α η) → World α η → Ledger α → Prop
  | [], w, L => L.Tracks w
  | d :: ds, w, L => L.Tracks w ∧ ∃ es, d.Enters l w es ∧ Kept l ds (d.leaves l w) (L.postAll es)

theorem Kept.ofTracks {l : Listeners α η} (hl : l.Within Assists) {ds : List (Deed α η)} {w : World α η}
    (hd : Fit l ds w) {L : Ledger α} (hL : L.Tracks w) : Kept l ds w L := by
  induction ds generalizing w L with
  | nil => exact hL
  | cons d ds ih =>
    obtain ⟨hd, hds⟩ := hd
    obtain ⟨es, hes, htracks⟩ := Deed.tracked hl hd hL
    exact ⟨hL, es, hes, ih hds htracks⟩

/-- Contributions are conserved: through every run of the engine, beginning with no window and nothing told, a ledger
    is kept that begins empty. -/
theorem kept_from_start {l : Listeners α η} (hl : l.Within Assists) {w : World α η} (hw : w.windows = {})
    (ht : w.told = []) {ds : List (Deed α η)} (hd : Fit l ds w) : Kept l ds w {} :=
  .ofTracks hl hd ⟨hw.symm, by simp [finalizations, ht], Ledger.conserved_start, by simp⟩

/-! ### A duel with a second -/

/-- A listener that adds to every attack. -/
def second : Listeners Rat (Arena Rat) :=
  { Listeners.silent with
    attack := fun _ _ cancelled => do
      discard (World.attack duelist stroke.target 2 none [.physical]).run
      return cancelled }

theorem second_assists : second.Within Assists :=
  { Listeners.silent_within lasting_assists with
    attack := fun _ _ cancelled => by
      refine lasting_assists.bind (fun w => ?_) fun _ => lasting_assists.pure cancelled
      exact attack_assists (α := Rat) duelist stroke.target 2 none [.physical] w }

def seconded : World Rat (Arena Rat) := { duel with bus := duel.bus.register ⟨.listener 0, 0⟩ }

/-- A contribution, a stroke that is applied with it, and a new tick. -/
def bout : List (Deed Rat (Arena Rat)) :=
  [.attack duelist stroke.target 1 none [.physical], .resolve stroke, .expire 1]

theorem kept_bout : second.Within Assists ∧ seconded.windows = {} ∧ seconded.told = [] ∧ Fit second bout seconded ∧
    Kept second bout seconded {} := by
  have ht : seconded.told = [] := by decide +kernel
  have hd : Fit second bout seconded := ⟨trivial, rfl, trivial, trivial⟩
  exact ⟨second_assists, rfl, ht, hd, kept_from_start second_assists rfl ht hd⟩

end World
end Fray
