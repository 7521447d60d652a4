import Fray.Proofs.Collecting
import Fray.Proofs.Conservation

/-! The open windows of a running engine. Behind every one stands an attack on its target by its attacker; so whoever
    is said to have killed is the attacker of the blow that was resolved. -/

namespace Fray

open Act

variable {α η : Type}

/-! ### Discovery -/

variable [Amount α] [Host η α]

/-- A projectile that was shot by its own target or by someone who is dead. -/
def Blow.IsStray (host : η) (b : Blow α) : Prop :=
  ∃ projectile shooter, b.damager = some (.projectile projectile (some shooter)) ∧
    (shooter = b.target ∨ Host.alive host shooter = false)

theorem Damage.packets_new {value : α} {element : Option Element} {types : List DamageType} {d : Damage α}
    (h : Damage.new value element types = .ok d) : d.packets ≠ [] := by
  obtain ⟨-, rfl⟩ := new_eq_ok.mp h
  simp [ofPacket]

namespace World

theorem discover_eq_ok {host : η} {b : Blow α} {a : Attack α} (h : discover host b = .ok a) :
    (∃ types, Damage.new b.amount none types = .ok a.damage) ∧ a.target = b.target ∧
      (a.attacker = none ∨ ∃ e, a.attacker = some ⟨e, .main⟩ ∧ b.attacker = some e ∧ ¬ b.IsStray host) := by
  have unit : ∀ {types : List DamageType} {wielder : Option Wielder} {m : Manner},
      (do return ⟨← Damage.new b.amount none types, b.target, wielder, m⟩ : Except (Fault α) (Attack α)) = .ok a →
      (∃ types, Damage.new b.amount none types = .ok a.damage) ∧ a.target = b.target ∧ a.attacker = wielder := by
    intro types wielder m h
    cases hd : Damage.new b.amount none types with
    | error fault => simp [hd, bind, Except.bind] at h
    | ok d =>
      rw [hd] at h
      cases h
      exact ⟨⟨types, hd⟩, rfl, rfl⟩
  unfold discover at h
  split at h
  · next e he =>
    split at h
    · obtain ⟨hd, ht, ha⟩ := unit h
      refine ⟨hd, ht, Or.inr ⟨e, ha, by simp [Blow.attacker, he, Damager.source], ?_⟩⟩
      rintro ⟨p, s, hs, -⟩
      simp [he] at hs
    · obtain ⟨hd, ht, ha⟩ := unit h
      exact ⟨hd, ht, Or.inl ha⟩
  · next p e he =>
    split at h
    · next hattends =>
      obtain ⟨hd, ht, ha⟩ := unit h
      refine ⟨hd, ht, Or.inr ⟨e, ha, by simp [Blow.attacker, he, Damager.source], ?_⟩⟩
      rintro ⟨p', s, hs, hstray⟩
      rw [he] at hs
      cases hs
      rcases hstray with hself | hdead
      · exact hattends.1 hself
      · simp [hdead] at hattends
    · obtain ⟨hd, ht, ha⟩ := unit h
      exact ⟨hd, ht, Or.inl ha⟩
  · obtain ⟨hd, ht, ha⟩ := unit h
    exact ⟨hd, ht, Or.inl ha⟩

theorem discover_fits {host : η} {b : Blow α} {a : Attack α} (h : discover host b = .ok a) : a.Fits b.key := by
  obtain ⟨⟨types, hd⟩, ht, ha⟩ := discover_eq_ok h
  refine ⟨ht, fun wielder hw => ?_, Damage.packets_new hd⟩
  rcases ha with ha | ⟨e, ha, hb, -⟩
  · simp [ha] at hw
  · rw [ha] at hw
    cases hw
    exact hb

variable {w v : World α η} {b : Blow α} {a : Attack α}

theorem behind_of_closed (hd : w.discoverers = []) (h : w.windows.find? b.key = none) :
    w.behind b = discover w.host b := by
  simp [behind, h, hd]

theorem behind_fits (hw : w.windows.Fitting) (hd : w.discoverers = []) (h : w.behind b = .ok a) : a.Fits b.key := by
  cases hk : w.windows.find? b.key with
  | some r =>
    have ha : w.windows.attack r = a := by simpa [behind, hk] using h
    exact ha ▸ hw _ (Windows.mem_of_find? hk)
  | none => exact discover_fits (behind_of_closed hd hk ▸ h)

/-- A stray projectile that nobody contributed to is discovered as an attack of nobody. -/
theorem attacker_of_stray (hd : w.discoverers = []) (hk : w.windows.find? b.key = none) (hb : b.IsStray w.host)
    (h : w.behind b = .ok a) : a.attacker = none := by
  rw [behind_of_closed hd hk] at h
  rcases (discover_eq_ok h).2.2 with ha | ⟨-, -, -, hstray⟩
  · exact ha
  · exact absurd hb hstray

/-! ### Locating and applying -/

/-- The ticks at which an attack is discovered behind a blow: that of the blow, if nobody contributed to it. -/
def discoveryTicks (w : World α η) (b : Blow α) : List Nat :=
  match w.windows.find? b.key with
  | some _ => []
  | none => match discover w.host b with
    | .ok _ => [b.tick]
    | .error _ => []

/-- From one world to the other windows are collected, and nothing new is there to discover attacks. -/
def Collects (w v : World α η) : Prop := v.discoverers = w.discoverers ∧ ∃ ts, w.windows.Collects ts v.windows

omit [Host η α] in
theorem lasting_collects : Lasting (Collects (α := α) (η := η)) where
  refl w := ⟨rfl, [], .refl⟩
  trans h h' := by
    obtain ⟨hd, ts, hts⟩ := h
    obtain ⟨hd', us, hus⟩ := h'
    exact ⟨hd'.trans hd, ts ++ us, hts.trans hus⟩

omit [Host η α] in
theorem close_collects (k : WindowKey) (r : AttackRef) : Act.Within (Collects (η := η)) (close (α := α) k r) := by
  intro w
  refine ⟨rfl, [], .drop .refl ?_ ?_⟩
  · show (w.windows.close k r).opened.Sublist w.windows.opened
    unfold Windows.close
    split
    · exact List.filter_sublist
    · exact List.Sublist.refl _
  · show (w.windows.close k r).attacks = w.windows.attacks
    unfold Windows.close
    split <;> rfl

variable {l : Listeners α η} (hl : l.Within Collects)
include hl

omit [Host η α] in
theorem finish_collects (b : Blow α) (a : Attack α) (health : Option α) :
    Act.Within Collects (finish l b a health) := by
  intro w
  cases hb : b.final with
  | none =>
    rw [(finish_of_none hb l a health w).2]
    exact conclude_within lasting_collects (fun _ _ _ => ⟨rfl, [], .refl⟩) hl b a _ w
  | some previous =>
    obtain ⟨-, j, hj⟩ := finish_of_some hb l a health w
    rw [hj]
    exact ⟨rfl, [], .refl⟩

theorem apply_collects (b : Blow α) (r : AttackRef) : Act.Within Collects (apply l b r) := by
  intro w
  cases hd : isDenied w b.key (w.windows.attack r) with
  | true =>
    obtain ⟨-, j, hj⟩ := after_apply_of_denied (l := l) hd
    rw [hj]
    exact close_collects b.key r w
  | false =>
    have hasked : Collects w (after (l.askAttack r) w) := l.askAttack_within lasting_collects hl r w
    have hclosed : Collects w (after (close b.key r) (after (l.askAttack r) w)) :=
      lasting_collects.trans hasked (close_collects b.key r _)
    cases ha : answer (l.askAttack r) w with
    | true =>
      have hafter : after (apply l b r) w = after (close b.key r) (after (l.askAttack r) w) := by simp [apply, hd, ha]
      rw [hafter]
      exact hclosed
    | false =>
      obtain ⟨u, hu⟩ : ∃ u, after (close b.key r) (after (l.askAttack r) w) = u := ⟨_, rfl⟩
      have hafter : after (apply l b r) w =
          after (finish l b (u.windows.attack r) (Host.health w.host b.target)) u := by simp [apply, hd, ha, hu]
      rw [hafter]
      exact lasting_collects.trans (hu ▸ hclosed) (finish_collects hl b _ _ u)

theorem resolve_collects {b : Blow α} (hz : ¬ Amount.IsZero b.amount) (hc : b.cancelled = false) (w : World α η) :
    Collects (after (locate b).run (after (expire b.tick) w)) (after (resolve l b) w) := by
  cases ha : answer (locate b).run (after (expire b.tick) w) with
  | error fault =>
    simp only [resolve, hz, hc, if_false, after_bind, after_discard, ha, Bool.false_eq_true]
    exact ⟨rfl, [], .refl⟩
  | ok r =>
    simp only [resolve, hz, hc, if_false, after_bind, after_discard, ha, Bool.false_eq_true]
    exact apply_collects hl b r _

omit hl

/-! ### Listeners that attend -/

/-- Windows are collected at the ticks, and nobody is told of any blow. -/
structure Attended (w : World α η) (ts : List Nat) (v : World α η) : Prop where
  windows : w.windows.Collects ts v.windows
  discoverers : v.discoverers = w.discoverers
  told : v.told = w.told

/-- Listeners may edit damage and contribute attacks; they resolve nothing. -/
def Attends (w v : World α η) : Prop := ∃ ts, Attended w ts v

/-- The ticks at which an acting entity contributes: the one of the host, if there is damage to contribute. -/
def attackTicks (w : World α η) (value : α) (element : Option Element) (types : List DamageType) : List Nat :=
  match Damage.new value element types with
  | .ok _ => [Host.tick w.host]
  | .error _ => []

omit [Host η α] in
theorem Attended.ofEq (hw : v.windows = w.windows) (hd : v.discoverers = w.discoverers) (ht : v.told = w.told) :
    Attended w [] v := by
  refine ⟨?_, hd, ht⟩
  rw [hw]
  exact .refl

omit [Host η α] in
theorem Attends.collects (h : Attends w v) : Collects w v := h.elim fun ts h => ⟨h.discoverers, ts, h.windows⟩

omit [Host η α] in
theorem Attends.told (h : Attends w v) : v.told = w.told := h.elim fun _ h => h.told

omit [Host η α] in
theorem lasting_attends : Lasting (Attends (α := α) (η := η)) where
  refl w := ⟨[], .ofEq rfl rfl rfl⟩
  trans h h' := by
    obtain ⟨ts, h⟩ := h
    obtain ⟨us, h'⟩ := h'
    exact ⟨ts ++ us, h.windows.trans h'.windows, h'.discoverers.trans h.discoverers, h'.told.trans h.told⟩

theorem attack_attended (wielder : Wielder) (target : EntityId) (value : α) (element : Option Element)
    (types : List DamageType) (w : World α η) :
    Attended w (w.attackTicks value element types) (after (attack wielder target value element types).run w) := by
  cases hd : Damage.new value element types with
  | error fault =>
    simp only [attackTicks, hd, after_attack_of_error wielder target hd]
    exact .ofEq rfl rfl rfl
  | ok d =>
    let a : Attack α := ⟨d, target, some wielder, .generic⟩
    let k : WindowKey := ⟨target, some wielder.entity, Host.tick w.host⟩
    have hfits : a.Fits k := by
      refine ⟨rfl, fun x hx => ?_, Damage.packets_new hd⟩
      cases hx
      rfl
    obtain ⟨j, hj⟩ := after_register k a w
    simp only [attackTicks, hd, after_attack_of_ok wielder target hd]
    rw [hj]
    exact ⟨.contribute .refl hfits, rfl, rfl⟩

omit [Host η α] in
theorem editAttack_attended (r : AttackRef) (e : Damage.Edit α) (w : World α η) :
    Attended w [] (after (editAttack r e).run w) := by
  cases hd : (w.windows.attack r).damage.edit e with
  | error fault =>
    rw [after_editAttack_of_error hd]
    exact .ofEq rfl rfl rfl
  | ok d =>
    rw [after_editAttack_of_ok hd]
    exact ⟨.edit .refl hd, rfl, rfl⟩

omit [Host η α] in
theorem expire_attended (t : Nat) (w : World α η) : Attended w [] (after (expire t) w) := by
  obtain ⟨j, hj⟩ := after_expire t w
  rw [hj]
  exact ⟨.drop .refl List.filter_sublist rfl, rfl, rfl⟩

theorem locate_attended (hd : w.discoverers = []) (b : Blow α) :
    Attended w (w.discoveryTicks b) (after (locate b).run w) := by
  rcases run_locate w b with ⟨fault, hb, -, hafter⟩ | ⟨r, hk, -, hafter⟩ | ⟨a, hk, hb, -, hafter⟩
  · obtain ⟨hk, -⟩ := behind_eq_error.mp hb
    rw [behind_of_closed hd hk] at hb
    simp only [discoveryTicks, hk, hb, hafter]
    exact .ofEq rfl rfl rfl
  · simp only [discoveryTicks, hk, hafter]
    exact .ofEq rfl rfl rfl
  · rw [behind_of_closed hd hk] at hb
    obtain ⟨j, hj⟩ := after_register b.key a w
    simp only [discoveryTicks, hk, hb, hafter, hj]
    exact ⟨.contribute .refl (discover_fits hb), rfl, rfl⟩

theorem findAttack_attended (hd : w.discoverers = []) (b : Blow α) :
    Attended w (if Amount.IsZero b.amount then [] else w.discoveryTicks b) (after (findAttack b).run w) := by
  by_cases hz : Amount.IsZero b.amount
  · simp only [findAttack, hz, if_true]
    exact .ofEq rfl rfl rfl
  · have hafter : after (findAttack b).run w = after (locate b).run w := by
      simp only [findAttack, hz, if_false, Try.run_bind, Try.run_pure, after_bind]
      cases answer (locate b).run w <;> rfl
    rw [if_neg hz, hafter]
    exact locate_attended hd b

/-! ### Kills -/

/-- What listeners make of the attack behind a blow still fits the blow. -/
theorem Shown.fits (hl : l.Within Collects) (hw : w.windows.Fitting) (hd : w.discoverers = []) {u : World α η}
    {r : AttackRef} {cancelled : Bool} (h : Shown l b w r v cancelled u) : (u.windows.attack r).Fits b.key := by
  have hv : (v.windows.attack r).Fits b.key := behind_fits hw hd h.sought.located.behind_eq
  obtain ⟨-, ts, hasked⟩ := l.askAttack_within lasting_collects hl r v
  have hlt : r < (v.announced (.attack r)).windows.attacks.size := Windows.lt_size_of_packets hv.packets
  have hfits := (hasked.persists hlt).1.fits hv
  rw [h.closed]
  simpa using hfits

theorem Exit.kills (hl : l.Within Attends) (hw : w.windows.Fitting) (hd : w.discoverers = []) {b' : Blow α}
    {o : Outcome α} {w' : World α η} (h : Exit l b w o b' w') :
    ∃ events, w'.told = w.told ++ events ∧
      ∀ e t a, Event.kill e t a ∈ events → b.attacker = some e ∧ b.target = t := by
  have hcollects : l.Within Collects := hl.mono fun _ _ h => h.collects
  have htold : l.Within fun u v => v.told = u.told := hl.mono fun _ _ h => h.told
  cases h with
  | ignored hz => exact ⟨[], by simp, by simp⟩
  | withdrawn hz hc => exact ⟨[], by simp [World.told], by simp⟩
  | baseless hz hc hb => exact ⟨[], by simp [World.told], by simp⟩
  | denied hz hc hs hdenied => exact ⟨[], by simp [World.told, hs.located.frame.2.2.2], by simp⟩
  | stopped hs => exact ⟨_, hs.told htold, by simp⟩
  | spent hs hfinal => exact ⟨_, hs.told htold, by simp⟩
  | @applied r v u a killer hs hfinal ha hk =>
    refine ⟨_, ((told_conclude htold b a killer u).trans (by rw [hs.told htold, List.append_assoc])), ?_⟩
    intro e t a' he
    have hfits : a.Fits b.key := ha ▸ hs.fits hcollects hw hd
    obtain ⟨hkiller, rfl, -⟩ : killer = some e ∧ b.target = t ∧ a = a' := by simpa using he
    obtain ⟨wielder, health, hattacker, -, -, rfl⟩ := Attack.killer_eq_some.mp (hk.trans hkiller)
    exact ⟨hfits.attacker wielder hattacker, rfl⟩

/-! ### Calls of the engine -/

/-- What the engine may be asked for, and anything else that leaves the windows alone. -/
inductive Call (α η : Type)
  | attack (wielder : Wielder) (target : EntityId) (value : α) (element : Option Element) (types : List DamageType)
  | findAttack (b : Blow α)
  | resolve (b : Blow α)
  | expire (tick : Nat)
  | edit (r : AttackRef) (e : Damage.Edit α)
  /-- Such as a new tick of the host. -/
  | elsewhere (f : World α η → World α η)

namespace Call

def Fits (w : World α η) : Call α η → Prop
  | .elsewhere f => (f w).windows = w.windows ∧ (f w).discoverers = w.discoverers ∧ (f w).told = w.told
  | .attack _ _ _ _ _ | .findAttack _ | .resolve _ | .expire _ | .edit _ _ => True

def leaves (l : Listeners α η) (w : World α η) : Call α η → World α η
  | .attack wielder target value element types => after (World.attack wielder target value element types).run w
  | .findAttack b => after (World.findAttack b).run w
  | .resolve b => after (World.resolve l b) w
  | .expire t => after (World.expire t) w
  | .edit r e => after (World.editAttack r e).run w
  | .elsewhere f => f w

/-- The ticks at which a call contributes, in their order. A resolution contributes what it discovers, and then what
    its listeners contribute. -/
def Contributes (l : Listeners α η) (w : World α η) (ts : List Nat) : Call α η → Prop
  | .attack _ _ value element types => ts = w.attackTicks value element types
  | .findAttack b => ts = if Amount.IsZero b.amount then [] else w.discoveryTicks b
  | .resolve b =>
    if Amount.IsZero b.amount ∨ b.cancelled = true then ts = []
    else ∃ us, ts = w.discoveryTicks b ++ us ∧
      (after (locate b).run (after (World.expire b.tick) w)).windows.Collects us (after (World.resolve l b) w).windows
  | .expire _ | .edit _ _ | .elsewhere _ => ts = []

theorem contributes {l : Listeners α η} (hl : l.Within Collects) (w : World α η) (c : Call α η) :
    ∃ ts, c.Contributes l w ts := by
  cases c with
  | resolve b =>
    by_cases h : Amount.IsZero b.amount ∨ b.cancelled = true
    · exact ⟨[], by simp [Contributes, h]⟩
    · obtain ⟨hz, hc⟩ := not_or.mp h
      obtain ⟨-, us, hus⟩ := World.resolve_collects hl hz (Bool.eq_false_iff.mpr hc) w
      refine ⟨w.discoveryTicks b ++ us, ?_⟩
      simp only [Contributes, h, if_false]
      exact ⟨us, rfl, hus⟩
  | attack wielder target value element types => exact ⟨_, rfl⟩
  | findAttack b => exact ⟨_, rfl⟩
  | expire t => exact ⟨_, rfl⟩
  | edit r e => exact ⟨_, rfl⟩
  | elsewhere f => exact ⟨_, rfl⟩

variable {l : Listeners α η} {w : World α η} {ts : List Nat}

/-- But for resolutions, no call tells of a blow. -/
theorem attended (hd : w.discoverers = []) {c : Call α η} (hc : c.Fits w) (hb : ∀ b, c ≠ .resolve b)
    (h : c.Contributes l w ts) : Attended w ts (c.leaves l w) := by
  cases c with
  | resolve b => exact absurd rfl (hb b)
  | attack wielder target value element types =>
    cases h
    exact attack_attended wielder target value element types w
  | findAttack b =>
    cases h
    exact findAttack_attended hd b
  | expire t =>
    cases h
    exact expire_attended t w
  | edit r e =>
    cases h
    exact editAttack_attended r e w
  | elsewhere f =>
    cases h
    exact .ofEq hc.1 hc.2.1 hc.2.2

theorem collects_resolve (hl : l.Within Collects) (hd : w.discoverers = []) {b : Blow α}
    (h : (Call.resolve b).Contributes l w ts) :
    w.windows.Collects ts (after (World.resolve l b) w).windows ∧
      (after (World.resolve l b) w).discoverers = w.discoverers := by
  by_cases hz : Amount.IsZero b.amount
  · obtain rfl : ts = [] := by simpa [Contributes, hz] using h
    simp only [World.resolve, hz, if_true]
    exact ⟨.refl, rfl⟩
  cases hc : b.cancelled with
  | true =>
    obtain rfl : ts = [] := by simpa [Contributes, hc] using h
    obtain ⟨j, hj⟩ := after_expire b.tick w
    have hafter : after (World.resolve l b) w =
        { w with windows := (w.windows.expire b.tick).remove b.key, journal := j } := by
      simp [World.resolve, hz, hc, hj, after_unregister]
    rw [hafter]
    exact ⟨.drop .refl (List.filter_sublist.trans List.filter_sublist) rfl, rfl⟩
  | false =>
    obtain ⟨us, rfl, hus⟩ : ∃ us, ts = w.discoveryTicks b ++ us ∧
        (after (locate b).run (after (World.expire b.tick) w)).windows.Collects us
          (after (World.resolve l b) w).windows := by simpa [Contributes, hz, hc] using h
    -- Stale windows are dropped before the attack is located, but never the one of the blow itself.
    have hexpired := expire_attended b.tick w
    have hlocated := locate_attended (hexpired.discoverers.trans hd) b
    have hticks : (after (World.expire b.tick) w).discoveryTicks b = w.discoveryTicks b := by
      obtain ⟨j, hj⟩ := after_expire b.tick w
      have hfind := w.windows.find?_expire_tick b.key
      simp only [discoveryTicks, hj, ← hfind]
      rfl
    rw [hticks] at hlocated
    refine ⟨(hexpired.windows.trans hlocated.windows).trans hus, ?_⟩
    exact (World.resolve_collects hl hz hc w).1.trans (hlocated.discoverers.trans hexpired.discoverers)

/-- A call collects windows at the ticks at which it contributes. -/
theorem collects (hl : l.Within Collects) (hd : w.discoverers = []) {c : Call α η} (hc : c.Fits w)
    (h : c.Contributes l w ts) :
    w.windows.Collects ts (c.leaves l w).windows ∧ (c.leaves l w).discoverers = w.discoverers := by
  cases c with
  | resolve b => exact collects_resolve hl hd h
  | attack | findAttack | expire | edit | elsewhere =>
    have hattended := attended hd hc (by simp) h
    exact ⟨hattended.windows, hattended.discoverers⟩

end Call

/-- A run of the engine, with the ticks at which it contributed. -/
inductive Run (l : Listeners α η) (w : World α η) : List Nat → World α η → Prop
  | start : Run l w [] w
  | call {ts us : List Nat} {v : World α η} (h : Run l w ts v) {c : Call α η} (hc : c.Fits v)
    (hus : c.Contributes l v us) : Run l w (ts ++ us) (c.leaves l v)

/-- A world in which the windows are in order, whatever is called for next. -/
structure Orderly (l : Listeners α η) (ts : List Nat) (w : World α η) : Prop where
  fits : ∀ o ∈ w.windows.opened, (w.windows.attack o.2).Fits o.1
  oneTick : ts.Pairwise (· ≤ ·) → ∀ o ∈ w.windows.opened, ts.getLast? = some o.1.tick
  goesOn : ∀ c : Call α η, ∃ us, c.Contributes l w us
  kills : ∀ c : Call α η, c.Fits w → ∃ events, (c.leaves l w).told = w.told ++ events ∧
    ∀ e t a, Event.kill e t a ∈ events → ∃ b, c = .resolve b ∧ b.attacker = some e ∧ b.target = t
  stray : ∀ b : Blow α, b.IsStray w.host → w.windows.find? b.key = none →
    (∀ r, answer (findAttack b).run w = .ok (some r) →
      ((after (findAttack b).run w).windows.attack r).attacker = none) ∧
    ∀ r v, Sought w b r v → (v.windows.attack r).attacker = none

theorem findAttack_of_stray (hd : w.discoverers = []) {b : Blow α} (hb : b.IsStray w.host)
    (hk : w.windows.find? b.key = none) {r : AttackRef} (h : answer (findAttack b).run w = .ok (some r)) :
    ((after (findAttack b).run w).windows.attack r).attacker = none := by
  by_cases hz : Amount.IsZero b.amount
  · simp [findAttack, hz] at h
  rcases run_locate w b with ⟨fault, -, hanswer, -⟩ | ⟨s, hs, -⟩ | ⟨a, -, hbehind, hanswer, hafter⟩
  · simp [findAttack, hz, hanswer, Except.map] at h
  · simp [hk] at hs
  · obtain ⟨j, hj⟩ := after_register b.key a w
    obtain rfl : (w.windows.register b.key a).1 = r := by
      simpa [findAttack, hz, hanswer, Except.map] using h
    have hleaves : after (findAttack b).run w = after (register b.key a) w := by
      simp [findAttack, hz, hafter]
    rw [hleaves, hj, Windows.attack_register_of_none hk]
    exact attacker_of_stray hd hk hb hbehind

variable {ts : List Nat}

/-- What holds of the windows all along a run. -/
theorem Run.windows (hl : l.Within Collects) (hw : w.windows = {}) (hd : w.discoverers = []) (h : Run l w ts v) :
    v.windows.Fitting ∧ v.windows.Latest ts ∧ v.discoverers = [] := by
  induction h with
  | start =>
    refine ⟨?_, ?_, hd⟩
    · intro o ho
      simp [hw] at ho
    · intro hts o ho
      simp [hw] at ho
  | call h hc hus ih =>
    obtain ⟨hfitting, hlatest, hnone⟩ := ih
    obtain ⟨hcollects, hsame⟩ := Call.collects hl hnone hc hus
    exact ⟨hcollects.fitting hfitting, hcollects.latest hlatest, hsame.trans hnone⟩

/-- Every world that the engine comes to is in order: from no windows and with no discovery but its own, whatever it
    is called for and whatever its listeners contribute. -/
theorem run_orderly (hl : l.Within Attends) (hw : w.windows = {}) (hd : w.discoverers = []) (h : Run l w ts v) :
    Orderly l ts v := by
  have hcollects : l.Within Collects := hl.mono fun _ _ h => h.collects
  obtain ⟨hfitting, hlatest, hnone⟩ := h.windows hcollects hw hd
  refine ⟨hfitting, hlatest, Call.contributes hcollects v, fun c hc => ?_, fun b hb hk => ⟨?_, ?_⟩⟩
  · cases c with
    | resolve b =>
      obtain ⟨events, htold, hkills⟩ := (resolve_exit l b v).kills hl hfitting hnone
      exact ⟨events, htold, fun e t a he => ⟨b, rfl, hkills e t a he⟩⟩
    | attack | findAttack | expire | edit | elsewhere =>
      obtain ⟨us, hus⟩ := Call.contributes hcollects v _
      exact ⟨[], by simpa using (Call.attended hnone hc (by simp) hus).told, by simp⟩
  · exact fun r hr => findAttack_of_stray hnone hb hk hr
  · exact fun r u hs => attacker_of_stray hnone hk hb hs.located.behind_eq

/-! ### A duel with a second -/

theorem second_attends : second.Within Attends :=
  { Listeners.silent_within lasting_attends with
    attack := fun _ _ cancelled => by
      refine lasting_attends.bind (fun w => ?_) fun _ => lasting_attends.pure cancelled
      exact ⟨_, attack_attended (α := Rat) duelist stroke.target 2 none [.physical] w⟩ }

/-- The stroke is resolved with what the second adds, and the first of the two attacks once more. -/
theorem orderly_bout : second.Within Attends ∧ seconded.windows = {} ∧ seconded.discoverers = [] ∧
    ∃ ts v, Run second seconded ts v ∧ v.windows.opened.map Prod.fst = [stroke.key] ∧ Orderly second ts v := by
  have hl : second.Within Collects := second_attends.mono fun _ _ h => h.collects
  let resolved : Call Rat (Arena Rat) := .resolve stroke
  let again : Call Rat (Arena Rat) := .attack duelist stroke.target 1 none [.physical]
  obtain ⟨ts, hts⟩ := Call.contributes hl seconded resolved
  obtain ⟨us, hus⟩ := Call.contributes hl (resolved.leaves second seconded) again
  have hrun := (Run.call .start (c := resolved) trivial hts).call (c := again) trivial hus
  exact ⟨second_attends, rfl, rfl, _, _, hrun, by decide +kernel, run_orderly second_attends rfl rfl hrun⟩

end World
end Fray
