import Fray.Proofs.Notices

/-! What becomes of an effect that has ended: nothing, whoever calls it. Only a turn that is under way may outlast it:
    an effect that ends while it is asked whether it should, and answers that it should not, pulses once more. -/

namespace Fray

open Act

namespace Ground

variable {α η : Type} {g : Ground α η} {l : Listeners α η} {e : Effects α η} {s : Scheduling α η} {r : ChannelRef}
  {w v : World α η} {t : List (Option (ChannelRef × Beat) × World α η)} {task : Option TaskId}

variable (g) in
/-- The calls of an effect that the host has on record, oldest first. -/
def callsOf (r : ChannelRef) (w : World α η) : List Beat :=
  ((g.log w.host).filter fun x => x.1 = r).map Prod.snd

theorem Trail.callsOf (hg : g.Lawful) (h : g.Trail w t v) (r : ChannelRef) :
    g.callsOf r v = g.callsOf r w ++ (beatsOf r t).filter Beat.isCall := by
  rw [Ground.callsOf, Ground.callsOf, (h.records hg).1, List.filter_append, List.map_append, beatsOf_filter]

/-- Whatever is called once an effect has ended, the effect is not: it keeps its phase and its record, and nobody is
    told of it. -/
theorem Happens.afterlife (hg : g.Lawful) (h : g.Happens w v) (hw : g.Tidy w) (hr : w.phase r = .ended task) :
    v.phase r = .ended task ∧ g.callsOf r v = g.callsOf r w ∧ v.noticesOf r = w.noticesOf r := by
  obtain ⟨⟨t, ht, hbeats, -⟩, hended⟩ := (h _ (conduct_closed hg)).leads_of_ended hw hr
  refine ⟨hended, ?_, ?_⟩
  · rw [ht.callsOf hg r, hbeats]
    exact List.append_nil _
  · rw [ht.noticesOf hg r, hbeats]
    exact List.append_nil _

/-- A turn outlasts the effect if and only if this ends when it is asked and answers that it does not; then it pulses
    once more, and that is the last of it. -/
theorem turn_outlasts (hg : g.Lawful) (hc : g.Company g.Happens l e s) (hw : g.Tidy w) (hr : r < w.channels.size)
    (hactive : w.IsActive r) (hended : (after (e.shouldEnd r) w).phase r = .ended task) :
    (after (World.turnChannel l e s r) w).phase r = .ended task ∧
      g.callsOf r (after (World.turnChannel l e s r) w) =
        g.callsOf r (after (e.shouldEnd r) w) ++ if answer (e.shouldEnd r) w = true then [] else [.pulsed] := by
  have hasked : g.Happens w (after (e.shouldEnd r) w) := hc.shouldEnd r w hr
  obtain ⟨t, ht, -⟩ := hasked _ (conduct_closed hg) hw
  have htidy := (ht.tidy hg hw).2
  have hsize := Nat.lt_of_lt_of_le hr (ht.size_le hg)
  rw [World.run_turnChannel l e s hactive hw.running]
  generalize after (e.shouldEnd r) w = a at hended htidy hsize ⊢
  split
  · rw [(World.run_stopChannel_ended l e s hended).2]
    exact ⟨hended, (List.append_nil _).symm⟩
  · obtain ⟨u, hrecorded, hhappens⟩ := hc.pulse r a hsize
    have hpulsed : g.Leads r a [.pulsed] u := .step hg hsize (.pulsed hrecorded)
    have hu : u.phase r = .ended task := by
      obtain ⟨host, rfl, -⟩ := hrecorded
      exact hended
    obtain ⟨hphase, hcalls, -⟩ := hhappens.afterlife hg (hpulsed.tidy hg htidy) hu
    obtain ⟨t', ht', hbeats, -⟩ := hpulsed
    rw [hcalls, ht'.callsOf hg r, hbeats]
    exact ⟨hphase, rfl⟩

end Ground

/-! ### A hasty effect -/

namespace Hall

/-- Asked whether it should end, it stops itself and answers that it should not. -/
def hasty : Effects Rat Hall :=
  { plain with
    shouldEnd := fun r => do
      discard (World.stopChannel .silent plain .ticked r).run
      return false }

theorem hasty_company : hall.Company hall.Happens .silent hasty .ticked :=
  { plain_company with
    shouldEnd := fun _ _ hr => Ground.happens_closed.stop plain_company hr }

def hastened : World Rat Hall := after (World.startChannel .silent hasty .ticked 0 0 1).run start

/-- The hasty effect pulses after it has ended. -/
theorem hasty_outlasted : hall.Company hall.Happens .silent hasty .ticked ∧
    hall.callsOf 0 (after (World.turnChannel .silent hasty .ticked 0) hastened) = [.started, .finished, .pulsed] := by
  refine ⟨hasty_company, by decide +kernel⟩

end Hall
end Fray
