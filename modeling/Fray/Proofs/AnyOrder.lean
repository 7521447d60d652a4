import Fray.Proofs.Gathering
import Fray.Proofs.Permission

/-! What comes of a tick does not depend on the order of its contributions. Where nobody listens, a blow ends by the
    attack behind it alone, and by nothing in it that a change of the order changes. -/

namespace Fray

open Act

variable {α η : Type}

/-! ### Blows that nobody hears of -/

/-- No listener is subscribed; damage numbers may be shown. -/
def Bus.IsDeaf (b : Bus) : Prop := ∀ ear ∈ b.ears, ear = .indicators

/-- Damage numbers are shown without any further blow. -/
def Listeners.ShowsOnly (l : Listeners α η) : Prop :=
  ∀ target i, Act.Within (fun u v => v.told = u.told) (l.display target i)

/-- The numbers that an event shows. -/
def Event.indicators [Amount α] : Event α → List (Indicator α)
  | .finalized a final => Indicator.ofDamage a.damage final
  | .attack _ | .kill _ _ _ | .preCast _ _ | .postCast _ _ | .castStart _ _ _ | .castEnd _ _ _ => []

namespace Bus

theorem forM_of_deaf {f : Ear → Act α η Unit} (hf : f .indicators = pure ()) {ears : List Ear}
    (h : ∀ ear ∈ ears, ear = .indicators) : ears.forM f = pure () := by
  induction ears with
  | nil => rfl
  | cons ear ears ih =>
    obtain ⟨hear, hrest⟩ := List.forall_mem_cons.mp h
    show f ear >>= (fun _ => ears.forM f) = pure ()
    rw [hear, hf, pure_bind, ih hrest]

theorem foldlM_of_deaf {f : Bool → Ear → Act α η Bool} (hf : ∀ c, f c .indicators = pure c) {ears : List Ear}
    (h : ∀ ear ∈ ears, ear = .indicators) (c : Bool) : ears.foldlM f c = pure c := by
  induction ears with
  | nil => rfl
  | cons ear ears ih =>
    obtain ⟨hear, hrest⟩ := List.forall_mem_cons.mp h
    rw [List.foldlM_cons, hear, hf, pure_bind, ih hrest]

end Bus

namespace World

/-- The numbers of what listeners were told of, oldest first. -/
def indicators [Amount α] (w : World α η) : List (Indicator α) := w.told.flatMap Event.indicators

theorem indicators_of_told [Amount α] {w v : World α η} {e : Event α} (h : v.told = w.told ++ [e]) :
    v.indicators = w.indicators ++ e.indicators := by
  simp [indicators, h]

variable {l : Listeners α η} {w : World α η}

theorem after_tell_of_deaf (hw : w.bus.IsDeaf) (e : Event α) (call : ListenerId → Act α η Unit) :
    after (Listeners.tell e call) w = w.announced e := by
  show after (w.bus.ears.forM _) (w.announced e) = _
  rw [Bus.forM_of_deaf rfl hw]
  rfl

theorem ask_of_deaf (hw : w.bus.IsDeaf) (e : Event α) (call : ListenerId → Bool → Act α η Bool) :
    answer (Listeners.ask e call) w = false ∧ after (Listeners.ask e call) w = w.announced e := by
  constructor
  · show answer (w.bus.ears.foldlM _ false) (w.announced e) = _
    rw [Bus.foldlM_of_deaf (fun _ => rfl) hw]
    rfl
  · show after (w.bus.ears.foldlM _ false) (w.announced e) = _
    rw [Bus.foldlM_of_deaf (fun _ => rfl) hw]
    rfl

variable [Amount α]

theorem told_tellFinalized_of_deaf (hl : l.ShowsOnly) (hw : w.bus.IsDeaf) (a : Attack α) (final : α) :
    (after (l.tellFinalized a final) w).told = w.told ++ [.finalized a final] := by
  refine Eq.trans ?_ (told_announced rfl w)
  show (after (w.bus.ears.forM _) (w.announced _)).told = _
  refine lasting_told.forM (fun ear hear => ?_) _
  rw [hw ear hear]
  exact lasting_told.forM fun i _ => hl a.target i

theorem indicators_conclude_of_deaf (hl : l.ShowsOnly) (hw : w.bus.IsDeaf) (b : Blow α) (a : Attack α)
    (killer : Option EntityId) :
    (after (conclude l b a killer) w).indicators = w.indicators ++ Indicator.ofDamage a.damage a.damage.dealt := by
  cases killer with
  | none => exact indicators_of_told (told_tellFinalized_of_deaf hl hw a _)
  | some e =>
    have hkill : after (l.tellKill e b.target a) w = w.announced (.kill e b.target a) := after_tell_of_deaf hw _ _
    have hquiet : (w.announced (.kill e b.target a)).indicators = w.indicators := by
      simpa [Event.indicators] using indicators_of_told (told_announced (e := .kill e b.target a) rfl w)
    simp only [conclude, after_bind, hkill]
    rw [indicators_of_told (told_tellFinalized_of_deaf (w := w.announced _) hl hw a _), hquiet]
    rfl

variable [Host η α]

/-- What comes of a blow that nobody hears of: how it ends, the blow that is left, and the numbers shown. -/
def verdict (w : World α η) (b : Blow α) : (Outcome α × Blow α) × List (Indicator α) :=
  if Amount.IsZero b.amount then ((.ignored, b), [])
  else if b.cancelled then ((.cancelled, b), [])
  else match w.behind b with
    | .error _ => ((.cancelled, b.cancel), [])
    | .ok a =>
      if isDenied w b.key a then ((.denied, b.cancel), [])
      else if b.final.isSome then ((.cancelled, b.cancel), [])
      else ((.applied a.damage.dealt (a.killer (Host.health w.host b.target)).isSome,
        { b with final := some a.damage.dealt }), Indicator.ofDamage a.damage a.damage.dealt)

/-- Where nobody listens, the attack that is shown is the one behind the blow, and it is not cancelled. -/
theorem Shown.of_deaf {b : Blow α} {v u : World α η} {r : AttackRef} {cancelled : Bool}
    (h : Shown l b w r v cancelled u) (hw : w.bus.IsDeaf) :
    cancelled = false ∧ w.behind b = .ok (u.windows.attack r) ∧ isDenied w b.key (u.windows.attack r) = false ∧
      u.bus.IsDeaf ∧ u.indicators = w.indicators := by
  have hv : v.bus = w.bus := h.sought.located.frame.2.2.1
  have hask := ask_of_deaf (w := v) (hv ▸ hw) (.attack r) fun id => l.attack id r
  have hasked : answer (l.askAttack r) v = false := hask.1
  have hafter : after (l.askAttack r) v = v.announced (.attack r) := hask.2
  have hu : u = { v.announced (.attack r) with windows := v.windows.close b.key r } := by
    rw [h.closed, hafter]
    rfl
  have hattack : u.windows.attack r = v.windows.attack r := by simp [hu]
  refine ⟨h.asked.symm.trans hasked, ?_, ?_, ?_, ?_⟩
  · rw [hattack, h.sought.located.behind_eq]
  · rw [hattack, ← h.sought.isDenied_eq, h.permitted]
  · rw [hu]
    exact hv ▸ hw
  · have htold : u.told = w.told ++ [.attack r] := by
      rw [hu]
      refine (told_announced rfl v).trans ?_
      simp [World.told, h.sought.located.frame.2.2.2]
    simpa [Event.indicators] using indicators_of_told htold

theorem Exit.of_deaf (hl : l.ShowsOnly) (hw : w.bus.IsDeaf) {b b' : Blow α} {o : Outcome α} {w' : World α η}
    (h : Exit l b w o b' w') :
    (o, b') = (w.verdict b).1 ∧ w'.indicators = w.indicators ++ (w.verdict b).2 := by
  cases h with
  | ignored hz => simp [verdict, hz]
  | withdrawn hz hc => simp [verdict, hz, hc, indicators, told]
  | baseless hz hc hb => simp [verdict, hz, hc, hb, indicators, told]
  | denied hz hc hs hd =>
    have hdenied := (hs.isDenied_eq _ _).symm.trans hd
    have hhistory := hs.located.frame.2.2.2
    simp [verdict, hz, hc, hs.located.behind_eq, hdenied, indicators, told, hhistory]
  | stopped hs =>
    obtain ⟨hnot, -⟩ := hs.of_deaf hw
    simp at hnot
  | spent hs hfinal =>
    obtain ⟨-, hb, hd, -, hi⟩ := hs.of_deaf hw
    refine ⟨by simp [verdict, hs.deals, hs.stands, hb, hd, hfinal], ?_⟩
    refine Eq.trans hi ?_
    simp [verdict, hs.deals, hs.stands, hb, hd, hfinal]
  | applied hs hfinal ha hk =>
    obtain ⟨-, hb, hd, hu, hi⟩ := hs.of_deaf hw
    rw [ha] at hb hd
    refine ⟨by simp [verdict, hs.deals, hs.stands, hb, hd, hfinal, hk], ?_⟩
    rw [indicators_conclude_of_deaf hl hu, hi]
    simp [verdict, hs.deals, hs.stands, hb, hd, hfinal]

/-- Where nobody listens, a blow comes to its verdict. -/
theorem resolve_of_deaf (hl : l.ShowsOnly) (hw : w.bus.IsDeaf) (b : Blow α) :
    answer (resolve l b) w = (w.verdict b).1 ∧
      (after (resolve l b) w).indicators = w.indicators ++ (w.verdict b).2 :=
  (resolve_exit l b w).of_deaf hl hw

end World

/-! ### Worlds that are alike -/

theorem Attack.killer_eq_dealer [Amount α] (a : Attack α) (health : Option α) :
    a.killer health = a.dealer.bind fun e => health.bind fun h => if h ≤ a.damage.dealt then some e else none := by
  obtain ⟨damage, target, attacker, manner⟩ := a
  rcases attacker with _ | wielder
  · rfl
  rcases health with _ | h
  · rfl
  · rfl

theorem World.isDenied_eq_dealer [Amount α] [Host η α] (w : World α η) (k : WindowKey) (a : Attack α) :
    isDenied w k a = a.dealer.any fun e => Host.player w.host e &&
      !w.gate.canInteract w.host e k.target (if a.damage.hasType .skill then .offenseSkill else .offenseAction) := by
  obtain ⟨damage, target, attacker, manner⟩ := a
  rcases attacker with _ | wielder
  · rfl
  · rfl

theorem Attack.Alike.killer_eq {a b : Attack Rat} (h : a.Alike b) (health : Option Rat) :
    a.killer health = b.killer health := by
  rw [killer_eq_dealer, killer_eq_dealer, h.dealer, h.blend.dealt_eq]

namespace World

variable [Host η Rat] {w v : World Rat η}

/-- The same windows are open with attacks that are alike, and blows are met in the same way. -/
structure Alike (w v : World Rat η) : Prop where
  host : w.host = v.host
  gate : w.gate = v.gate
  discoverers : w.discoverers = v.discoverers
  windows : ∀ k, Option.Rel Attack.Alike (w.windows.open? k) (v.windows.open? k)

namespace Alike

variable (h : Alike w v)
include h

theorem behind (b : Blow Rat) :
    (∃ fault, w.behind b = .error fault ∧ v.behind b = .error fault) ∨
      ∃ a a', w.behind b = .ok a ∧ v.behind b = .ok a' ∧ a.Alike a' := by
  have hopen := h.windows b.key
  unfold Windows.open? at hopen
  cases hw : w.windows.find? b.key with
  | some r =>
    cases hv : v.windows.find? b.key with
    | some s =>
      rw [hw, hv] at hopen
      cases hopen with
      | some hattacks => exact Or.inr ⟨_, _, by simp [World.behind, hw], by simp [World.behind, hv], hattacks⟩
    | none => simp [hw, hv] at hopen
  | none =>
    cases hv : v.windows.find? b.key with
    | some s => simp [hw, hv] at hopen
    | none =>
      have hsame : w.behind b = v.behind b := by simp only [World.behind, hw, hv, h.discoverers, h.host]
      cases hb : v.behind b with
      | error fault => exact Or.inl ⟨fault, hsame.trans hb, rfl⟩
      | ok a => exact Or.inr ⟨a, a, hsame.trans hb, rfl, .refl a⟩

theorem isDenied_eq {a a' : Attack Rat} (ha : a.Alike a') (k : WindowKey) : isDenied w k a = isDenied v k a' := by
  rw [isDenied_eq_dealer, isDenied_eq_dealer, ha.dealer, ha.blend.hasType_eq, h.host, h.gate]

theorem verdict_eq (b : Blow Rat) : w.verdict b = v.verdict b := by
  unfold verdict
  rcases h.behind b with ⟨fault, hw, hv⟩ | ⟨a, a', hw, hv, ha⟩
  · rw [hw, hv]
  · rw [hw, hv]
    simp only [h.isDenied_eq ha, h.host, ha.killer_eq, ha.blend.dealt_eq, ha.blend.indicators_eq]

end Alike
end World

/-! ### Contributions of one tick -/

namespace World

def contribute (cs : List (WindowKey × Attack Rat)) : Act Rat η Unit := cs.forM fun c => discard (register c.1 c.2)

theorem after_contribute (cs : List (WindowKey × Attack Rat)) (w : World Rat η) :
    ∃ j, after (contribute cs) w = { w with windows := w.windows.registerAll cs, journal := j } := by
  induction cs generalizing w with
  | nil => exact ⟨w.journal, rfl⟩
  | cons c cs ih =>
    obtain ⟨j, hj⟩ := after_register c.1 c.2 w
    obtain ⟨j', hj'⟩ := ih (after (register c.1 c.2) w)
    refine ⟨j', ?_⟩
    show after (contribute cs) (after (register c.1 c.2) w) = _
    rw [hj', hj]
    rfl

variable [Host η Rat]

/-- The same windows are open, their attacks tell the same, and every blow ends in the same way and shows the same. -/
structure Indistinct (l : Listeners Rat η) (w v : World Rat η) : Prop where
  keys : (w.windows.opened.map Prod.fst).Perm (v.windows.opened.map Prod.fst)
  attacks : ∀ k, Option.Rel (fun a a' => a.damage.Agrees a'.damage) (w.windows.open? k) (v.windows.open? k)
  resolved : ∀ b, answer (resolve l b) w = answer (resolve l b) v
  shown : ∀ b, (after (resolve l b) w).indicators = (after (resolve l b) v).indicators

/-- Whatever was open before, contributions of one tick may come in any order, as long as those to one window are of
    one attacker. -/
theorem contributions_in_any_order {l : Listeners Rat η} (hl : l.ShowsOnly) {w : World Rat η}
    (hw : w.windows.Reachable) (hdeaf : w.bus.IsDeaf) {cs cs' : List (WindowKey × Attack Rat)} (hp : cs.Perm cs')
    {t : Nat} (ht : ∀ c ∈ cs, c.1.tick = t) (hd : ∀ c ∈ cs, ∀ c' ∈ cs, c.1 = c'.1 → c.2.dealer = c'.2.dealer) :
    Indistinct l (after (contribute cs) w) (after (contribute cs') w) := by
  obtain ⟨j, hj⟩ := after_contribute cs w
  obtain ⟨j', hj'⟩ := after_contribute cs' w
  have hwindows := Windows.registerAll_alike hw.sound ht hp hd
  have halike : Alike (after (contribute cs) w) (after (contribute cs') w) := by
    rw [hj, hj']
    exact ⟨rfl, rfl, rfl, hwindows⟩
  have hresolve : ∀ cs b, answer (resolve l b) (after (contribute cs) w) = ((after (contribute cs) w).verdict b).1 ∧
      (after (resolve l b) (after (contribute cs) w)).indicators =
        w.indicators ++ ((after (contribute cs) w).verdict b).2 := by
    intro cs b
    obtain ⟨j, hj⟩ := after_contribute cs w
    rw [hj]
    exact resolve_of_deaf (w := { w with windows := w.windows.registerAll cs, journal := j }) hl hdeaf b
  exact
    { keys := by
        rw [hj, hj']
        exact Windows.keys_perm_of_alike (hw.sound.registerAll cs) (hw.sound.registerAll cs') hwindows
      attacks := fun k => rel_of_rel (fun _ _ h => h.blend.agrees) (halike.windows k)
      resolved := fun b => by rw [(hresolve cs b).1, (hresolve cs' b).1, halike.verdict_eq]
      shown := fun b => by rw [(hresolve cs b).2, (hresolve cs' b).2, halike.verdict_eq] }

end World

/-! ### A duel with both hands -/

namespace World

/-- A hit of the first of the two with either hand. -/
def jab (hand : Hand) (value : Rat) (element : Option Element) : Attack Rat where
  damage := { Damage.empty with packets := [⟨value, fun t => t = .weapon, element, 0, 1⟩] }
  target := stroke.target
  attacker := some ⟨duelist.entity, hand⟩
  manner := .melee

def flurry : List (WindowKey × Attack Rat) := [(stroke.key, jab .main 3 none), (stroke.key, jab .off 2 (some .fire))]

theorem flurry_in_any_order :
    (Listeners.silent (α := Rat) (η := Arena Rat)).ShowsOnly ∧ duel.windows.Reachable ∧ duel.bus.IsDeaf ∧
      flurry.Perm flurry.reverse ∧ (∀ c ∈ flurry, c.1.tick = 0) ∧
      (∀ c ∈ flurry, ∀ c' ∈ flurry, c.1 = c'.1 → c.2.dealer = c'.2.dealer) ∧
      Indistinct .silent (after (contribute flurry) duel) (after (contribute flurry.reverse) duel) := by
  have hl : Listeners.silent.ShowsOnly := (Listeners.silent_within (lasting_told (α := Rat) (η := Arena Rat))).display
  have hdeaf : duel.bus.IsDeaf := by
    intro ear hear
    cases hear
  have hp : flurry.Perm flurry.reverse := flurry.reverse_perm.symm
  have ht : ∀ c ∈ flurry, c.1.tick = 0 := by simp [flurry, stroke, Blow.key]
  have hd : ∀ c ∈ flurry, ∀ c' ∈ flurry, c.1 = c'.1 → c.2.dealer = c'.2.dealer := by
    simp [flurry, jab, Attack.dealer]
  exact ⟨hl, .start, hdeaf, hp, ht, hd, contributions_in_any_order hl .start hdeaf hp ht hd⟩

end World
end Fray
