import Fray.Engine.Resolve
import Fray.Proofs.Editing
import Fray.Proofs.Listening
import Fray.Proofs.Windows

/-! The exits of a resolution. A blow leaves it ignored, withdrawn by the host before it began, without an attack
    behind it, denied by the gate, stopped by a listener, already written, or applied; each exit says which world
    it leaves behind. Notes of the journal are left open: nothing below depends on them. -/

namespace Fray

open Act

/-- Who is said to have killed: the attacker of an attack that deals what the target had left. -/
def Attack.killer {α : Type} [Amount α] (a : Attack α) (health : Option α) : Option EntityId :=
  match a.attacker, health with
  | some wielder, some h => if h ≤ a.damage.dealt then some wielder.entity else none
  | _, _ => none

namespace World

variable {α η : Type}

/-! ### Windows -/

theorem after_note (n : Note α) (w : World α η) : after (note n) w = { w with journal := w.journal.push n } := rfl

theorem after_expire (t : Nat) (w : World α η) :
    ∃ j, after (expire t) w = { w with windows := w.windows.expire t, journal := j } := by
  simp only [expire, after_bind, after_set, after_ite, after_note, after_pure]
  split
  · exact ⟨_, rfl⟩
  · exact ⟨w.journal, rfl⟩

theorem after_register (k : WindowKey) (a : Attack α) (w : World α η) :
    ∃ j, after (register k a) w = { w with windows := (w.windows.register k a).2, journal := j } := by
  obtain ⟨j, hj⟩ := after_expire k.tick w
  exact ⟨j, by simp [register, hj]⟩

theorem answer_register (k : WindowKey) (a : Attack α) (w : World α η) :
    answer (register k a) w = (w.windows.register k a).1 := by
  obtain ⟨j, hj⟩ := after_expire k.tick w
  simp [register, hj]

theorem after_unregister (k : WindowKey) (w : World α η) :
    after (unregister k) w = { w with windows := w.windows.remove k } := rfl

theorem after_close (k : WindowKey) (r : AttackRef) (w : World α η) :
    after (close k r) w = { w with windows := w.windows.close k r } := rfl

variable [Amount α]

theorem after_editAttack_of_ok {r : AttackRef} {e : Damage.Edit α} {w : World α η} {d : Damage α}
    (h : (w.windows.attack r).damage.edit e = .ok d) :
    after (editAttack r e).run w = { w with windows := w.windows.update r fun a => { a with damage := d } } := by
  simp [editAttack, h, updateWindows]

theorem after_editAttack_of_error {r : AttackRef} {e : Damage.Edit α} {w : World α η} {fault : Fault α}
    (h : (w.windows.attack r).damage.edit e = .error fault) : after (editAttack r e).run w = w := by
  simp [editAttack, h]

variable [Host η α]

theorem after_attack_of_ok (wielder : Wielder) (target : EntityId) {value : α} {element : Option Element}
    {types : List DamageType} {d : Damage α} (h : Damage.new value element types = .ok d) (w : World α η) :
    after (attack wielder target value element types).run w =
      after (register ⟨target, some wielder.entity, Host.tick w.host⟩ ⟨d, target, some wielder, .generic⟩) w := by
  simp [attack, h]

theorem after_attack_of_error (wielder : Wielder) (target : EntityId) {value : α} {element : Option Element}
    {types : List DamageType} {fault : Fault α} (h : Damage.new value element types = .error fault) (w : World α η) :
    after (attack wielder target value element types).run w = w := by
  simp [attack, h]

/-! ### The attack behind a blow -/

/-- The attack behind a blow: the one of its open window, else the first that a discoverer makes of it, else the
    one that it amounts to by itself. -/
def behind (w : World α η) (b : Blow α) : Except (Fault α) (Attack α) :=
  match w.windows.find? b.key with
  | some r => .ok (w.windows.attack r)
  | none => match w.discoverers.findSome? fun discover => discover w.host b with
    | some a => .ok a
    | none => discover w.host b

theorem discover_eq_error {host : η} {b : Blow α} {fault : Fault α} :
    discover host b = .error fault ↔ ¬ 0 ≤ b.amount ∧ fault = .negativeDamage b.amount := by
  have unit : ∀ {types : List DamageType} {wielder : Option Wielder} {m : Manner},
      (do return ⟨← Damage.new b.amount none types, b.target, wielder, m⟩ : Except (Fault α) (Attack α)) =
        .error fault ↔ ¬ 0 ≤ b.amount ∧ fault = .negativeDamage b.amount := by
    intro types wielder m
    rw [← Packet.checkValue_eq_error, Damage.new_eq]
    cases Packet.checkValue b.amount <;> simp [Except.map, bind, Except.bind, pure, Except.pure]
  unfold discover
  split
  · split
    · exact unit
    · exact unit
  · split
    · exact unit
    · exact unit
  · exact unit

/-- No attack stands behind a blow exactly when its window is closed, no discoverer makes one of it, and its
    amount is negative or no number. -/
theorem behind_eq_error {w : World α η} {b : Blow α} {fault : Fault α} :
    w.behind b = .error fault ↔ w.windows.find? b.key = none ∧
      (w.discoverers.findSome? fun discover => discover w.host b) = none ∧
      ¬ 0 ≤ b.amount ∧ fault = .negativeDamage b.amount := by
  unfold behind
  split
  · next r h => simp [h]
  · next h =>
    split
    · next a ha => simp [ha]
    · next ha => simp [h, ha, discover_eq_error]

/-- The attack behind a blow is located: it is the one of the open window, or a new one that opens the window. -/
inductive Located (w : World α η) (b : Blow α) : AttackRef → World α η → Prop
  | known {r : AttackRef} {j : Array (Note α)} (h : w.windows.find? b.key = some r) :
    Located w b r { w with windows := w.windows.expire b.tick, journal := j }
  | discovered {a : Attack α} {j : Array (Note α)} (h : w.windows.find? b.key = none) (ha : w.behind b = .ok a) :
    Located w b (w.windows.register b.key a).1 { w with windows := (w.windows.register b.key a).2, journal := j }

namespace Located

variable {w v : World α η} {b : Blow α} {r : AttackRef}

theorem found (h : Located w b r v) : v.windows.find? b.key = some r := by
  cases h with
  | known h => exact (w.windows.find?_expire_tick b.key).trans h
  | discovered h ha => exact w.windows.find?_register b.key _

theorem behind_eq (h : Located w b r v) : w.behind b = .ok (v.windows.attack r) := by
  cases h with
  | known h => simp [behind, h]
  | discovered h ha => rw [ha, Windows.attack_register_of_none h]

theorem frame (h : Located w b r v) :
    v.host = w.host ∧ v.gate = w.gate ∧ v.bus = w.bus ∧ v.history = w.history := by
  cases h <;> exact ⟨rfl, rfl, rfl, rfl⟩

end Located

/-- The attack behind a blow is looked up once the windows of earlier ticks are dropped: its handle, and the world
    that the search leaves. -/
structure Sought (w : World α η) (b : Blow α) (r : AttackRef) (v : World α η) : Prop where
  answers : answer (locate b).run (after (expire b.tick) w) = .ok r
  leaves : after (locate b).run (after (expire b.tick) w) = v
  located : Located w b r v

theorem Sought.unique {w v v' : World α η} {b : Blow α} {r r' : AttackRef} (h : Sought w b r v)
    (h' : Sought w b r' v') : r = r' ∧ v = v' :=
  ⟨by simpa using h.answers.symm.trans h'.answers, h.leaves.symm.trans h'.leaves⟩

theorem run_locate (w : World α η) (b : Blow α) :
    (∃ fault, w.behind b = .error fault ∧ answer (locate b).run w = .error fault ∧ after (locate b).run w = w) ∨
    (∃ r, w.windows.find? b.key = some r ∧ answer (locate b).run w = .ok r ∧ after (locate b).run w = w) ∨
    (∃ a, w.windows.find? b.key = none ∧ w.behind b = .ok a ∧
      answer (locate b).run w = .ok (w.windows.register b.key a).1 ∧
      after (locate b).run w = after (register b.key a) w) := by
  cases h : w.windows.find? b.key with
  | some r => exact Or.inr (Or.inl ⟨r, rfl, by simp [locate, h], by simp [locate, h]⟩)
  | none =>
    cases hf : w.discoverers.findSome? fun discover => discover w.host b with
    | some a =>
      refine Or.inr (Or.inr ⟨a, rfl, by simp [behind, h, hf], ?_, by simp [locate, h, hf]⟩)
      simp [locate, h, hf, answer_register]
    | none =>
      cases hd : discover w.host b with
      | error fault => exact Or.inl ⟨fault, by simp [behind, h, hf, hd], by simp [locate, h, hf, hd],
          by simp [locate, h, hf, hd]⟩
      | ok a =>
        refine Or.inr (Or.inr ⟨a, rfl, by simp [behind, h, hf, hd], ?_, by simp [locate, h, hf, hd]⟩)
        simp [locate, h, hf, hd, answer_register]

/-- Once the windows of earlier ticks are dropped, locating the attack behind a blow fails for want of one, or
    succeeds. -/
theorem locate_cases (w : World α η) (b : Blow α) :
    (∃ fault j, w.behind b = .error fault ∧ answer (locate b).run (after (expire b.tick) w) = .error fault ∧
      after (locate b).run (after (expire b.tick) w) =
        { w with windows := w.windows.expire b.tick, journal := j }) ∨
    ∃ r v, Sought w b r v := by
  obtain ⟨j, hj⟩ := after_expire b.tick w
  have hfind := w.windows.find?_expire_tick b.key
  have hreg := w.windows.register_expire b.key
  have hbehind : ({ w with windows := w.windows.expire b.tick, journal := j } : World α η).behind b = w.behind b := by
    unfold behind
    rw [← hfind]
    rfl
  rw [hj]
  rcases run_locate { w with windows := w.windows.expire b.tick, journal := j } b with
    ⟨fault, hb, hans, haft⟩ | ⟨r, hf, hans, haft⟩ | ⟨a, hf, hb, hans, haft⟩
  · exact Or.inl ⟨fault, j, hbehind ▸ hb, hans, haft⟩
  · exact Or.inr ⟨r, _, ⟨hj ▸ hans, by rw [hj]; exact haft, .known (hfind ▸ hf)⟩⟩
  · obtain ⟨j', hj'⟩ := after_register b.key a { w with windows := w.windows.expire b.tick, journal := j }
    have hl : Located w b _ _ := .discovered (j := j') (hfind ▸ hf) (hbehind ▸ hb)
    rw [← hreg a] at hl
    exact Or.inr ⟨_, _, ⟨hj ▸ hans, by rw [hj]; exact haft.trans hj', hl⟩⟩

/-! ### Exits -/

/-- The last telling of a blow that was applied: of the kill, if there was one, and then of the attack. -/
def conclude (l : Listeners α η) (b : Blow α) (a : Attack α) (killer : Option EntityId) : Act α η Unit := do
  if let some attacker := killer then l.tellKill attacker b.target a
  l.tellFinalized a a.damage.dealt

omit [Host η α] in
/-- The last telling stays within what the listeners stay within, if that allows to announce what is told of blows. -/
theorem conclude_within {R : World α η → World α η → Prop} (hR : Lasting R)
    (ha : ∀ (e : Event α) w, e.isOfBlow = true → R w (w.announced e)) {l : Listeners α η} (hl : l.Within R) (b : Blow α)
    (a : Attack α) (killer : Option EntityId) : Act.Within R (conclude l b a killer) := by
  have hfinal : Act.Within R (l.tellFinalized a a.damage.dealt) := fun w =>
    hR.trans (ha _ w rfl) (l.tellFinalized_within hR hl a _ w)
  cases killer with
  | none => exact hfinal
  | some e =>
    have hkill : Act.Within R (l.tellKill e b.target a) := fun w =>
      hR.trans (ha _ w rfl) (l.tellKill_within hR hl e b.target a w)
    exact hR.bind hkill fun _ => hfinal

omit [Host η α] in
theorem finish_of_none {b : Blow α} (hb : b.final = none) (l : Listeners α η) (a : Attack α) (health : Option α)
    (w : World α η) :
    answer (finish l b a health) w =
        (.applied a.damage.dealt (a.killer health).isSome, { b with final := some a.damage.dealt }) ∧
      after (finish l b a health) w = after (conclude l b a (a.killer health)) w := by
  obtain ⟨damage, target, attacker, manner⟩ := a
  simp only [finish, Blow.write, hb]
  rcases attacker with _ | wielder
  · exact ⟨rfl, rfl⟩
  rcases health with _ | h
  · exact ⟨rfl, rfl⟩
  by_cases hd : h ≤ damage.dealt
  · simp [Attack.killer, hd, conclude]
  · simp [Attack.killer, hd, conclude]

omit [Host η α] in
theorem finish_of_some {b : Blow α} {previous : α} (hb : b.final = some previous) (l : Listeners α η)
    (a : Attack α) (health : Option α) (w : World α η) :
    answer (finish l b a health) w = (.cancelled, b.cancel) ∧
      ∃ j, after (finish l b a health) w = { w with journal := j } := by
  simp only [finish, Blow.write, hb]
  exact ⟨rfl, _, rfl⟩

/-- The attack `r` behind a blow is located in the world `v`, passes the gate and is shown to the listeners, who
    answer whether it is cancelled; in the world `u` its window is closed. -/
structure Shown (l : Listeners α η) (b : Blow α) (w : World α η) (r : AttackRef) (v : World α η) (cancelled : Bool)
    (u : World α η) : Prop where
  deals : ¬ Amount.IsZero b.amount
  stands : b.cancelled = false
  sought : Sought w b r v
  permitted : isDenied v b.key (v.windows.attack r) = false
  asked : answer (l.askAttack r) v = cancelled
  closed : u = { after (l.askAttack r) v with windows := (after (l.askAttack r) v).windows.close b.key r }

theorem Shown.unique {l : Listeners α η} {b : Blow α} {w v v' u u' : World α η} {r r' : AttackRef} {c c' : Bool}
    (h : Shown l b w r v c u) (h' : Shown l b w r' v' c' u') : r = r' ∧ v = v' ∧ c = c' ∧ u = u' := by
  obtain ⟨rfl, rfl⟩ := h.sought.unique h'.sought
  exact ⟨rfl, rfl, h.asked.symm.trans h'.asked, h.closed.trans h'.closed.symm⟩

/-- How the resolution of a blow may end, with the blow and the world that it leaves. -/
inductive Exit (l : Listeners α η) (b : Blow α) (w : World α η) : Outcome α → Blow α → World α η → Prop
  | ignored (hz : Amount.IsZero b.amount) : Exit l b w .ignored b w
  | withdrawn {j : Array (Note α)} (hz : ¬ Amount.IsZero b.amount) (hc : b.cancelled = true) :
    Exit l b w .cancelled b { w with windows := (w.windows.expire b.tick).remove b.key, journal := j }
  | baseless {fault : Fault α} {j : Array (Note α)} (hz : ¬ Amount.IsZero b.amount) (hc : b.cancelled = false)
    (hb : w.behind b = .error fault) :
    Exit l b w .cancelled b.cancel { w with windows := w.windows.expire b.tick, journal := j }
  | denied {r : AttackRef} {v : World α η} {j : Array (Note α)} (hz : ¬ Amount.IsZero b.amount)
    (hc : b.cancelled = false) (hs : Sought w b r v) (hd : isDenied v b.key (v.windows.attack r) = true) :
    Exit l b w .denied b.cancel { v with windows := v.windows.close b.key r, journal := j }
  | stopped {r : AttackRef} {v u : World α η} (h : Shown l b w r v true u) : Exit l b w .cancelled b.cancel u
  | spent {r : AttackRef} {v u : World α η} {previous : α} {j : Array (Note α)} (h : Shown l b w r v false u)
    (hw : b.final = some previous) : Exit l b w .cancelled b.cancel { u with journal := j }
  | applied {r : AttackRef} {v u : World α η} {a : Attack α} {killer : Option EntityId}
    (h : Shown l b w r v false u) (hw : b.final = none) (ha : u.windows.attack r = a)
    (hk : a.killer (Host.health w.host b.target) = killer) :
    Exit l b w (.applied a.damage.dealt killer.isSome) { b with final := some a.damage.dealt }
      (after (conclude l b a killer) u)

theorem after_apply_of_denied {l : Listeners α η} {b : Blow α} {r : AttackRef} {v : World α η}
    (hd : isDenied v b.key (v.windows.attack r) = true) :
    answer (apply l b r) v = (.denied, b.cancel) ∧
      ∃ j, after (apply l b r) v = { v with windows := v.windows.close b.key r, journal := j } := by
  simp only [apply, answer_get_bind, after_get_bind, hd, if_true]
  cases (v.windows.attack r).attacker with
  | none => exact ⟨rfl, v.journal, rfl⟩
  | some wielder => exact ⟨rfl, _, rfl⟩

theorem apply_exit {l : Listeners α η} {b : Blow α} {r : AttackRef} {w v : World α η}
    (hz : ¬ Amount.IsZero b.amount) (hc : b.cancelled = false) (hs : Sought w b r v) :
    Exit l b w (answer (apply l b r) v).1 (answer (apply l b r) v).2 (after (apply l b r) v) := by
  cases hd : isDenied v b.key (v.windows.attack r) with
  | true =>
    obtain ⟨hans, j, haft⟩ := after_apply_of_denied (l := l) hd
    rw [hans, haft]
    exact .denied hz hc hs hd
  | false =>
    have hshown : ∀ cancelled, answer (l.askAttack r) v = cancelled →
        Shown l b w r v cancelled (after (close b.key r) (after (l.askAttack r) v)) :=
      fun cancelled ha => ⟨hz, hc, hs, hd, ha, after_close ..⟩
    cases ha : answer (l.askAttack r) v with
    | true =>
      have hans : answer (apply l b r) v = (.cancelled, b.cancel) := by simp [apply, hd, ha]
      have haft : after (apply l b r) v = after (close b.key r) (after (l.askAttack r) v) := by
        simp [apply, hd, ha]
      rw [hans, haft]
      exact .stopped (hshown true ha)
    | false =>
      obtain ⟨u, hu⟩ : ∃ u, after (close b.key r) (after (l.askAttack r) v) = u := ⟨_, rfl⟩
      have hshown := hu ▸ hshown false ha
      have hans : answer (apply l b r) v =
          answer (finish l b (u.windows.attack r) (Host.health w.host b.target)) u := by
        simp [apply, hd, ha, hu, hs.located.frame.1]
      have haft : after (apply l b r) v =
          after (finish l b (u.windows.attack r) (Host.health w.host b.target)) u := by
        simp [apply, hd, ha, hu, hs.located.frame.1]
      rw [hans, haft]
      cases hw : b.final with
      | none =>
        obtain ⟨h₁, h₂⟩ := finish_of_none hw l (u.windows.attack r) (Host.health w.host b.target) u
        rw [h₁, h₂]
        exact .applied hshown hw rfl rfl
      | some previous =>
        obtain ⟨h₁, j, h₂⟩ := finish_of_some hw l (u.windows.attack r) (Host.health w.host b.target) u
        rw [h₁, h₂]
        exact .spent hshown hw

/-- Every resolution takes one of the exits. -/
theorem resolve_exit (l : Listeners α η) (b : Blow α) (w : World α η) :
    Exit l b w (answer (resolve l b) w).1 (answer (resolve l b) w).2 (after (resolve l b) w) := by
  by_cases hz : Amount.IsZero b.amount
  · simp only [resolve, hz, if_true, answer_pure, after_pure]
    exact .ignored hz
  cases hc : b.cancelled with
  | true =>
    obtain ⟨j, hj⟩ := after_expire b.tick w
    have h₁ : answer (resolve l b) w = (.cancelled, b) := by simp [resolve, hz, hc]
    have h₂ : after (resolve l b) w =
        { w with windows := (w.windows.expire b.tick).remove b.key, journal := j } := by
      simp [resolve, hz, hc, hj, after_unregister]
    rw [h₁, h₂]
    exact .withdrawn hz hc
  | false =>
    rcases locate_cases w b with ⟨fault, j, hb, hans, haft⟩ | ⟨r, v, hs⟩
    · have h₁ : answer (resolve l b) w = (.cancelled, b.cancel) := by simp [resolve, hz, hc, hans]
      have h₂ : after (resolve l b) w =
          { w with windows := w.windows.expire b.tick, journal := j.push (.attackFailed b.target fault) } := by
        simp [resolve, hz, hc, hans, haft, after_note]
      rw [h₁, h₂]
      exact .baseless hz hc hb
    · have h₁ : answer (resolve l b) w = answer (apply l b r) v := by
        simp [resolve, hz, hc, hs.answers, hs.leaves]
      have h₂ : after (resolve l b) w = after (apply l b r) v := by
        simp [resolve, hz, hc, hs.answers, hs.leaves]
      rw [h₁, h₂]
      exact apply_exit hz hc hs

/-- A resolution stays within what the listeners stay within, if that allows to announce what is told of blows, and
    anything to be done to the windows and the journal. -/
theorem resolve_within {R : World α η → World α η → Prop} (hR : Lasting R)
    (ha : ∀ (e : Event α) w, e.isOfBlow = true → R w (w.announced e))
    (haside : ∀ (w : World α η) windows journal, R w { w with windows, journal }) {l : Listeners α η}
    (hl : l.Within R) (b : Blow α) : Act.Within R (resolve l b) := by
  intro w
  have hlocated : ∀ {r v}, Located w b r v → R w v := by
    intro r v h
    cases h
    · exact haside w _ _
    · exact haside w _ _
  have hshown : ∀ {r v c u}, Shown l b w r v c u → R w u := by
    intro r v c u h
    have hasked : R v (after (l.askAttack r) v) :=
      hR.trans (ha _ v rfl) (l.askAttack_within hR hl r v)
    rw [h.closed]
    exact hR.trans (hlocated h.sought.located) (hR.trans hasked (haside (after (l.askAttack r) v) _ _))
  have h := resolve_exit l b w
  generalize (answer (resolve l b) w).1 = o at h
  generalize (answer (resolve l b) w).2 = b' at h
  generalize after (resolve l b) w = w' at h ⊢
  cases h with
  | ignored hz => exact hR.refl w
  | withdrawn hz hc => exact haside w _ _
  | baseless hz hc hb => exact haside w _ _
  | @denied r v j hz hc hs hd => exact hR.trans (hlocated hs.located) (haside v _ _)
  | stopped hs => exact hshown hs
  | @spent r v u previous j hs hw => exact hR.trans (hshown hs) (haside u u.windows j)
  | @applied r v u a killer hs hw hread hk => exact hR.trans (hshown hs) (conclude_within hR ha hl b a killer u)

end World
end Fray
