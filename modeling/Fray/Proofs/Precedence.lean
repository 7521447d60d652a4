import Mathlib.Data.List.Basic
import Fray.Engine.Event

/-! The order in which listeners are told. However often listeners are registered and unregistered, the subscriptions
    are those that stand, sorted by priority, and where the priorities are equal in the order in which they were made. -/

namespace Fray
namespace Bus

/-- What is done to a bus. -/
inductive Change where
  | register (s : Subscription)
  | unregister (e : Ear)
  deriving DecidableEq

def Change.act (b : Bus) : Change → Bus
  | register s => b.register s
  | unregister e => (b.unregister e).2

/-- The subscriptions that stand after some changes, in the order in which they were made: all but those of an ear
    that was unregistered later. -/
def standing : List Change → List Subscription
  | [] => []
  | .register s :: cs => if .unregister s.ear ∈ cs then standing cs else s :: standing cs
  | .unregister _ :: cs => standing cs

def notAfter (s t : Subscription) : Bool := s.priority ≤ t.priority

/-- Sorts by priority; what is of equal priority stays as it is ordered. -/
def byPriority (ss : List Subscription) : List Subscription := ss.mergeSort notAfter

/-- In the order of their priorities. -/
def InOrder (ss : List Subscription) : Prop := ss.Pairwise fun s t => s.priority ≤ t.priority

/-- Of each priority the same subscriptions in the same order. -/
def SameRanks (ss ts : List Subscription) : Prop :=
  ∀ p : Int, (ss.filter fun s => s.priority = p) = ts.filter fun s => s.priority = p

/-- A bus after some changes: its subscriptions are those that stand, sorted. -/
structure Settled (cs : List Change) (b : Bus) : Prop where
  sorted : b.subscriptions = byPriority (standing cs)
  /-- To register is to append and to sort again. -/
  register : ∀ s, (b.register s).subscriptions = byPriority (b.subscriptions ++ [s])
  /-- Whether there was anything to remove is answered. -/
  removed_iff : ∀ e, (b.unregister e).1 = true ↔ (b.unregister e).2.size ≠ b.size
  stood_iff : ∀ e, (b.unregister e).1 = true ↔ ∃ s ∈ standing cs, s.ear = e

variable {ss ts us : List Subscription}

/-! ### Sorting -/

theorem SameRanks.mem_iff (h : SameRanks ss ts) {s : Subscription} : s ∈ ss ↔ s ∈ ts := by
  have hfilter : s ∈ (ss.filter fun t => t.priority = s.priority) ↔ s ∈ ts.filter fun t => t.priority = s.priority := by
    rw [h s.priority]
  simpa using hfilter

theorem SameRanks.tail {s : Subscription} (h : SameRanks (s :: ss) (s :: ts)) : SameRanks ss ts := by
  intro p
  have hp := h p
  by_cases hs : s.priority = p
  · simpa [hs] using hp
  · simpa [hs] using hp

/-- The order of priorities leaves no choice but among those of the same priority. -/
theorem eq_of_sameRanks (hs : InOrder ss) (ht : InOrder ts) (h : SameRanks ss ts) : ss = ts := by
  induction ss generalizing ts with
  | nil =>
    refine (List.eq_nil_iff_forall_not_mem.mpr fun t hmem => ?_).symm
    exact List.not_mem_nil (h.mem_iff.mpr hmem)
  | cons s ss ih =>
    cases ts with
    | nil => exact absurd (h.mem_iff.mp List.mem_cons_self) List.not_mem_nil
    | cons t ts =>
      obtain ⟨hs, hss⟩ := List.pairwise_cons.mp hs
      obtain ⟨ht, hts⟩ := List.pairwise_cons.mp ht
      have hle : s.priority ≤ t.priority := by
        rcases List.mem_cons.mp (h.mem_iff.mpr List.mem_cons_self) with rfl | hmem
        · exact Int.le_refl _
        · exact hs t hmem
      have hge : t.priority ≤ s.priority := by
        rcases List.mem_cons.mp (h.mem_iff.mp List.mem_cons_self) with rfl | hmem
        · exact Int.le_refl _
        · exact ht s hmem
      have hfirst := h s.priority
      have heq : t.priority = s.priority := Int.le_antisymm hge hle
      simp only [List.filter_cons, heq, decide_true, if_true, List.cons.injEq] at hfirst
      obtain ⟨rfl, -⟩ := hfirst
      rw [ih hss hts h.tail]

theorem notAfter_trans (s t u : Subscription) (h : notAfter s t = true) (h' : notAfter t u = true) :
    notAfter s u = true :=
  decide_eq_true (Int.le_trans (of_decide_eq_true h) (of_decide_eq_true h'))

theorem notAfter_total (s t : Subscription) : (notAfter s t || notAfter t s) = true := by
  simpa [notAfter] using Int.le_total s.priority t.priority

theorem inOrder_byPriority (ss : List Subscription) : InOrder (byPriority ss) :=
  (List.pairwise_mergeSort notAfter_trans notAfter_total ss).imp of_decide_eq_true

theorem sameRanks_byPriority (ss : List Subscription) : SameRanks (byPriority ss) ss := by
  intro p
  -- What is of one priority is in order, so a stable sort leaves it in its order.
  have hranked : (ss.filter fun s => s.priority = p).Pairwise fun s t => notAfter s t := by
    refine List.pairwise_filter.mpr (List.pairwise_of_forall fun s t hs ht => ?_)
    rw [notAfter, of_decide_eq_true hs, of_decide_eq_true ht]
    exact decide_eq_true (Int.le_refl p)
  have hsub := (List.sublist_mergeSort notAfter_trans notAfter_total hranked List.filter_sublist).filter
    fun s => decide (s.priority = p)
  rw [List.filter_filter] at hsub
  simp only [Bool.and_self] at hsub
  have hlength := ((List.mergeSort_perm ss notAfter).filter fun s => decide (s.priority = p)).length_eq
  exact (hsub.eq_of_length hlength.symm).symm

theorem eq_byPriority (hs : InOrder ss) (h : SameRanks ss ts) : ss = byPriority ts :=
  eq_of_sameRanks hs (inOrder_byPriority ts) fun p => (h p).trans (sameRanks_byPriority ts p).symm

/-! ### Changes -/

theorem mem_insert {s t : Subscription} : t ∈ insert s ss ↔ t = s ∨ t ∈ ss := by
  induction ss with
  | nil => simp [insert]
  | cons u us ih =>
    simp only [insert]
    split
    · simp only [List.mem_cons, ih, or_left_comm]
    · simp

theorem InOrder.insert (h : InOrder ss) (s : Subscription) : InOrder (Bus.insert s ss) := by
  induction ss with
  | nil => simp [Bus.insert, InOrder]
  | cons t ts ih =>
    obtain ⟨ht, hts⟩ := List.pairwise_cons.mp h
    simp only [Bus.insert]
    split
    · next hle =>
      refine List.pairwise_cons.mpr ⟨fun u hu => ?_, ih hts⟩
      rcases mem_insert.mp hu with rfl | hu
      · exact hle
      · exact ht u hu
    · next hlt =>
      have hlt : s.priority ≤ t.priority := Int.le_of_lt (Int.not_le.mp hlt)
      refine List.pairwise_cons.mpr ⟨fun u hu => ?_, h⟩
      rcases List.mem_cons.mp hu with rfl | hu
      · exact hlt
      · exact Int.le_trans hlt (ht u hu)

theorem sameRanks_insert (h : InOrder ss) (s : Subscription) : SameRanks (insert s ss) (ss ++ [s]) := by
  induction ss with
  | nil => exact fun p => rfl
  | cons t ts ih =>
    obtain ⟨ht, hts⟩ := List.pairwise_cons.mp h
    intro p
    simp only [insert]
    split
    · rw [List.cons_append, List.filter_cons, List.filter_cons, ih hts p]
    · next hlt =>
      by_cases hp : s.priority = p
      · -- Whatever comes behind is of a higher priority.
        have hnone : ((t :: ts).filter fun u => u.priority = p) = [] := by
          refine List.filter_eq_nil_iff.mpr fun u hu => ?_
          have hle : t.priority ≤ u.priority := by
            rcases List.mem_cons.mp hu with rfl | hu
            · exact Int.le_refl _
            · exact ht u hu
          simp only [decide_eq_true_eq]
          omega
        rw [List.filter_append, hnone, List.filter_cons, hnone]
        simp [hp]
      · rw [List.filter_append, List.filter_cons]
        simp [hp]

theorem standing_register (cs : List Change) (s : Subscription) :
    standing (cs ++ [.register s]) = standing cs ++ [s] := by
  induction cs with
  | nil => simp [standing]
  | cons c cs ih =>
    cases c with
    | register t =>
      by_cases ht : .unregister t.ear ∈ cs
      · simp [standing, ht, ih]
      · simp [standing, ht, ih]
    | unregister e => simp [standing, ih]

theorem standing_unregister (cs : List Change) (e : Ear) :
    standing (cs ++ [.unregister e]) = (standing cs).filter fun s => s.ear ≠ e := by
  induction cs with
  | nil => simp [standing]
  | cons c cs ih =>
    cases c with
    | register t =>
      by_cases ht : .unregister t.ear ∈ cs
      · simp [standing, ht, ih]
      · by_cases he : t.ear = e
        · subst he
          simp [standing, ht, ih]
        · simp [standing, ht, he, ih]
    | unregister x => simp [standing, ih]

/-- The subscriptions of a bus are in order, and of each priority they are those that stand. -/
structure Ranked (cs : List Change) (b : Bus) : Prop where
  inOrder : InOrder b.subscriptions
  ranks : SameRanks b.subscriptions (standing cs)

theorem ranked_start : Ranked [] {} := ⟨List.Pairwise.nil, fun _ => rfl⟩

variable {cs : List Change} {b : Bus}

theorem Ranked.act (h : Ranked cs b) (c : Change) : Ranked (cs ++ [c]) (c.act b) := by
  cases c with
  | register s =>
    refine ⟨h.inOrder.insert s, fun p => ?_⟩
    rw [standing_register, List.filter_append, ← h.ranks p, ← List.filter_append]
    exact sameRanks_insert h.inOrder s p
  | unregister e =>
    refine ⟨h.inOrder.filter _, fun p => ?_⟩
    show ((b.subscriptions.filter _).filter _) = _
    rw [standing_unregister, List.filter_comm, h.ranks p, List.filter_comm]

theorem Ranked.foldl (h : Ranked cs b) (ds : List Change) : Ranked (cs ++ ds) (ds.foldl Change.act b) := by
  induction ds generalizing cs b with
  | nil => simpa using h
  | cons d ds ih => simpa using ih (h.act d)

theorem Ranked.settled (h : Ranked cs b) : Settled cs b where
  sorted := eq_byPriority h.inOrder h.ranks
  register s := eq_byPriority (h.inOrder.insert s) (sameRanks_insert h.inOrder s)
  removed_iff e := by
    have hlength : (b.unregister e).2.size = b.size ↔ ∀ s ∈ b.subscriptions, s.ear ≠ e := by
      simp [unregister, size, List.length_filter_eq_length_iff]
    rw [Ne, hlength]
    simp [unregister]
  stood_iff e := by simp [unregister, h.ranks.mem_iff]

end Bus
end Fray
