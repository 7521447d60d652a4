import Fray.Engine.World

/-! Actions on a world, read as functions: the world that an action leaves and what it answers. An action stays
    within a relation when it leads every world to one that the relation allows; a relation that allows to do
    nothing, and to do one thing after the other, is kept by a whole program as soon as its parts keep it. -/

namespace Fray
namespace Act

variable {α η β γ : Type}

/-- What an action answers in a world. -/
def answer (x : Act α η β) (w : World α η) : β := (x.run w).1

/-- The world that an action leaves. -/
def after (x : Act α η β) (w : World α η) : World α η := (x.run w).2

@[simp] theorem after_pure (b : β) (w : World α η) : after (pure b) w = w := rfl

@[simp] theorem answer_pure (b : β) (w : World α η) : answer (pure b) w = b := rfl

@[simp] theorem after_bind (x : Act α η β) (f : β → Act α η γ) (w : World α η) :
    after (x >>= f) w = after (f (answer x w)) (after x w) := rfl

@[simp] theorem answer_bind (x : Act α η β) (f : β → Act α η γ) (w : World α η) :
    answer (x >>= f) w = answer (f (answer x w)) (after x w) := rfl

-- Looking at the world comes before every other sequence, so that no test is left to speak of an answer.
@[simp 1100] theorem after_get_bind (f : World α η → Act α η γ) (w : World α η) :
    after (get >>= f) w = after (f w) w := rfl

@[simp 1100] theorem answer_get_bind (f : World α η → Act α η γ) (w : World α η) :
    answer (get >>= f) w = answer (f w) w := rfl

@[simp] theorem after_set (v w : World α η) : after (set v) w = v := rfl

@[simp] theorem after_modify (f : World α η → World α η) (w : World α η) : after (modify f) w = f w := rfl

@[simp] theorem after_map (f : β → γ) (x : Act α η β) (w : World α η) : after (f <$> x) w = after x w := rfl

@[simp] theorem answer_map (f : β → γ) (x : Act α η β) (w : World α η) : answer (f <$> x) w = f (answer x w) := rfl

@[simp] theorem after_discard (x : Act α η β) (w : World α η) : after (discard x) w = after x w := rfl

@[simp] theorem after_ite (c : Prop) [Decidable c] (x y : Act α η β) (w : World α η) :
    after (if c then x else y) w = if c then after x w else after y w := apply_ite (after · w) c x y

@[simp] theorem answer_ite (c : Prop) [Decidable c] (x y : Act α η β) (w : World α η) :
    answer (if c then x else y) w = if c then answer x w else answer y w := apply_ite (answer · w) c x y

/-- Where each turn of a loop appends something to a record, the whole loop appends it in the order of the turns. -/
theorem foldlM_appends {δ : Type} (record : World α η → List δ) {f : γ → β → Act α η γ} {out : β → List δ}
    (h : ∀ c b w, record (after (f c b) w) = record w ++ out b) (xs : List β) (c : γ) (w : World α η) :
    record (after (xs.foldlM f c) w) = record w ++ xs.flatMap out := by
  induction xs generalizing c w with
  | nil => exact (List.append_nil _).symm
  | cons x xs ih =>
    rw [List.foldlM_cons, after_bind, ih, h, List.flatMap_cons, List.append_assoc]

theorem forM_appends {δ : Type} (record : World α η → List δ) {f : β → Act α η Unit} {out : β → List δ}
    (h : ∀ b w, record (after (f b) w) = record w ++ out b) (xs : List β) (w : World α η) :
    record (after (xs.forM f) w) = record w ++ xs.flatMap out := by
  induction xs generalizing w with
  | nil => exact (List.append_nil _).symm
  | cons x xs ih =>
    show record (after (xs.forM f) (after (f x) w)) = _
    rw [ih, h, List.flatMap_cons, List.append_assoc]

/-! ### Staying within a relation -/

/-- Whatever the world is, the action leads to one that the relation allows. -/
def Within (R : World α η → World α η → Prop) (x : Act α η β) : Prop := ∀ w, R w (after x w)

theorem Within.ite {R : World α η → World α η → Prop} {c : Prop} [Decidable c] {x y : Act α η β} (hx : Within R x)
    (hy : Within R y) : Within R (if c then x else y) := by
  split
  · exact hx
  · exact hy

/-- To look at the world first is to do no more. -/
theorem Within.getBind {R : World α η → World α η → Prop} {f : World α η → Act α η β} (hf : ∀ v, Within R (f v)) :
    Within R (get >>= f) := fun w => hf w w

/-- A relation that allows to do nothing, and to do one thing after the other. -/
structure Lasting (R : World α η → World α η → Prop) : Prop where
  refl : ∀ w, R w w
  trans : ∀ {u v w}, R u v → R v w → R u w

namespace Lasting

variable {R : World α η → World α η → Prop} (hR : Lasting R)
include hR

theorem pure (b : β) : Within R (Pure.pure b : Act α η β) := fun w => hR.refl w

theorem bind {x : Act α η β} {f : β → Act α η γ} (hx : Within R x) (hf : ∀ b, Within R (f b)) :
    Within R (x >>= f) :=
  fun w => hR.trans (hx w) (hf (answer x w) (after x w))

theorem forM {xs : List β} {f : β → Act α η Unit} (hf : ∀ b ∈ xs, Within R (f b)) : Within R (xs.forM f) := by
  induction xs with
  | nil => exact hR.pure ()
  | cons x xs ih =>
    obtain ⟨hx, hxs⟩ := List.forall_mem_cons.mp hf
    exact hR.bind hx fun _ => ih hxs

theorem foldlM {xs : List β} {f : γ → β → Act α η γ} (hf : ∀ b ∈ xs, ∀ c, Within R (f c b)) (c : γ) :
    Within R (xs.foldlM f c) := by
  induction xs generalizing c with
  | nil => exact hR.pure c
  | cons x xs ih =>
    obtain ⟨hx, hxs⟩ := List.forall_mem_cons.mp hf
    exact hR.bind (hx c) fun c => ih hxs c

theorem mapM {xs : List β} {f : β → Act α η γ} (hf : ∀ b ∈ xs, Within R (f b)) : Within R (xs.mapM f) := by
  induction xs with
  | nil => exact hR.pure _
  | cons x xs ih =>
    obtain ⟨hx, hxs⟩ := List.forall_mem_cons.mp hf
    rw [List.mapM_cons]
    exact hR.bind hx fun _ => hR.bind (ih hxs) fun _ => hR.pure _

end Lasting
end Act

/-! ### Actions that may refuse -/

namespace Try

variable {α η β γ : Type}

@[simp] theorem run_pure (b : β) : (pure b : Try α η β).run = pure (.ok b) := rfl

@[simp] theorem run_throw (f : Fault α) : (throw f : Try α η β).run = pure (.error f) := rfl

@[simp] theorem run_ofAct (x : Act α η β) : (ofAct x).run = Except.ok <$> x := rfl

@[simp] theorem run_ofExcept (e : Except (Fault α) β) : (ofExcept e : Try α η β).run = pure e := rfl

@[simp] theorem run_bind (x : Try α η β) (f : β → Try α η γ) :
    (x >>= f).run = x.run >>= fun r => match r with
      | .ok b => (f b).run
      | .error fault => pure (.error fault) := by
  show x.run >>= ExceptT.bindCont f = _
  refine bind_congr fun r => ?_
  cases r <;> rfl

theorem run_discard (x : Try α η β) : (discard x : Try α η Unit).run = (Except.map fun _ => ()) <$> x.run :=
  ExceptT.run_map (fun _ => ()) x

@[simp 1100] theorem run_get_bind (f : World α η → Try α η γ) :
    (get >>= f : Try α η γ).run = (get >>= fun w => (f w).run) := rfl

end Try

namespace Act

variable {α η β γ : Type} {R : World α η → World α η → Prop}

theorem Within.tryGetBind {f : World α η → Try α η β} (hf : ∀ v, Within R (f v).run) :
    Within R (get >>= f : Try α η β).run := by
  rw [Try.run_get_bind]
  exact .getBind hf

theorem Within.ofAct {x : Act α η β} (h : Within R x) : Within R (Try.ofAct x).run := h

theorem Within.tryIte {c : Prop} [Decidable c] {x y : Try α η β} (hx : Within R x.run) (hy : Within R y.run) :
    Within R (if c then x else y).run := by
  split
  · exact hx
  · exact hy

theorem Within.tryDiscard {x : Try α η β} (h : Within R x.run) : Within R (discard x : Try α η Unit).run := by
  rw [Try.run_discard]
  exact h

namespace Lasting

variable (hR : Lasting R)
include hR

theorem ofExcept (e : Except (Fault α) β) : Within R (Try.ofExcept e : Try α η β).run := hR.pure e

theorem tryPure (b : β) : Within R (Pure.pure b : Try α η β).run := hR.pure (Except.ok b)

theorem tryBind {x : Try α η β} {f : β → Try α η γ} (hx : Within R x.run) (hf : ∀ b, Within R (f b).run) :
    Within R (x >>= f).run := by
  rw [Try.run_bind]
  refine hR.bind hx fun r => ?_
  cases r with
  | ok b => exact hf b
  | error fault => exact hR.pure _

theorem tryFoldlM {xs : List β} {f : γ → β → Try α η γ} (hf : ∀ b ∈ xs, ∀ c, Within R (f c b).run) (c : γ) :
    Within R (xs.foldlM f c).run := by
  induction xs generalizing c with
  | nil => exact hR.tryPure c
  | cons x xs ih =>
    obtain ⟨hx, hxs⟩ := List.forall_mem_cons.mp hf
    exact hR.tryBind (hx c) fun c => ih hxs c

end Lasting
end Act
end Fray
