import Bandscan.Session
import Bandscan.Proofs.MemoryBench
/-!
Tuning on a bench. Whoever gets a lock finds the multiplex of the frequency in the queue, and
nothing else of what a multiplex sends ever changes.
-/

namespace Bandscan.Bench

variable {kind : DeliveryKind} {o : TuneOptions}

def Sends (frequency : Nat) (w : World Bench) : Prop :=
  w.device.demux.queue = Queued.ofMultiplex w.device.demux.multiplexes frequency

/-- What tuning to a frequency leads to: the multiplexes are the same, and the one on the frequency
can be read if there is a lock. -/
structure Retuned (frequency : Nat) (w : World Bench) (r : Bool × World Bench) : Prop where
  multiplexes : r.2.device.demux.multiplexes = w.device.demux.multiplexes
  sends : r.1 = true → Sends frequency r.2

theorem Retuned.of_multiplexes {frequency : Nat} {w w' : World Bench} {r : Bool × World Bench}
    (h : Retuned frequency w' r)
    (hw : w'.device.demux.multiplexes = w.device.demux.multiplexes) : Retuned frequency w r :=
  ⟨h.multiplexes.trans hw, h.sends⟩

theorem tuned_spec (frequency : Nat) (w : World Bench) :
    (tuned frequency w).device.demux.multiplexes = w.device.demux.multiplexes ∧
      Sends frequency (tuned frequency w) := by
  have hpids (pids : List Nat) (d : MemoryDemux) :
      (pids.foldl (fun d pid => d.failPid pid) d).multiplexes = d.multiplexes := by
    induction pids generalizing d with
    | nil => rfl
    | cons pid pids ih => exact ih (d.failPid pid)
  unfold tuned Sends
  dsimp only
  split
  · exact ⟨hpids _ _, rfl⟩
  · exact ⟨hpids _ _, rfl⟩

theorem awaitLock_demux (kind : DeliveryKind) (frequency attempt delay polls : Nat)
    (w : World Bench) :
    ((frontendDevice kind).awaitLock frequency attempt delay polls w).2.device.demux =
      w.device.demux := by
  induction polls generalizing w with
  | zero => rfl
  | succ polls ih =>
    have hlock : ((frontendDevice kind).hasLock (w.sleep delay)).2.device.demux =
        w.device.demux := rfl
    unfold Frontend.awaitLock
    rcases hr : (frontendDevice kind).hasLock (w.sleep delay) with ⟨_ | locked, w'⟩ <;>
      rw [hr] at hlock
    · exact hlock
    · cases locked with
      | true => exact hlock
      | false => exact (ih w').trans hlock

theorem set_spec (kind : DeliveryKind) (tp : Transponder) (w : World Bench) :
    match (frontendDevice kind).set tp w with
    | (.error _, w') => w'.device.demux = w.device.demux
    | (.ok _, w') => w'.device.demux.multiplexes = w.device.demux.multiplexes ∧
        Sends tp.frequency w' := by
  have hset : (w.onDevice (onFrontend (·.set tp.frequency))).2.device.demux = w.device.demux := rfl
  unfold frontendDevice
  dsimp only
  rcases hr : w.onDevice (onFrontend (·.set tp.frequency)) with ⟨_ | _, w'⟩ <;> rw [hr] at hset
  · exact hset
  · have h := tuned_spec tp.frequency w'
    exact ⟨h.1.trans (congrArg _ hset), h.2⟩

theorem attempt_retuned (tp : Transponder) (number left : Nat) (w : World Bench) :
    Retuned tp.frequency w ((frontendDevice kind).attempt tp o number left w) := by
  induction left generalizing number w with
  | zero => exact ⟨rfl, by simp [Frontend.attempt]⟩
  | succ left ih =>
    have hset := set_spec kind tp (w.tell (.info s!"tuning to {tp.frequency}"))
    unfold Frontend.attempt
    rcases hr : (frontendDevice kind).set tp (w.tell (.info s!"tuning to {tp.frequency}"))
      with ⟨e | _, w'⟩ <;> rw [hr] at hset
    · exact (ih (number + 1) _).of_multiplexes (congrArg MemoryDemux.multiplexes hset)
    · obtain ⟨hm, hs⟩ := hset
      have hd := awaitLock_demux kind tp.frequency number o.lockDelay o.lockPolls w'
      dsimp only
      rcases ha : (frontendDevice kind).awaitLock tp.frequency number o.lockDelay o.lockPolls w'
        with ⟨_ | _, w''⟩ <;> rw [ha] at hd
      · exact (ih (number + 1) _).of_multiplexes ((congrArg MemoryDemux.multiplexes hd).trans hm)
      · refine ⟨(congrArg MemoryDemux.multiplexes hd).trans hm, fun _ => ?_⟩
        have hq : w''.device.demux.queue =
            Queued.ofMultiplex w''.device.demux.multiplexes tp.frequency := by
          rw [hd]
          exact hs
        exact hq

theorem tune_retuned (kind : DeliveryKind) (o : TuneOptions) (tp : Transponder) (w : World Bench) :
    Retuned tp.frequency w ((frontendDevice kind).tune tp o w) := attempt_retuned tp 1 _ w

end Bandscan.Bench

namespace Bandscan.Session

open Bench

theorem tryFrequencies_retuned (kind : DeliveryKind) (o : ScanOptions) (tp : Transponder)
    (alternates : List Nat) (w : World Bench) :
    let r := tryFrequencies (frontendDevice kind) o tp alternates w
    Retuned r.1.2.frequency w (r.1.1, r.2) := by
  induction alternates generalizing tp w with
  | nil =>
    have h := tune_retuned kind o.tune tp w
    unfold tryFrequencies
    rcases hr : (frontendDevice kind).tune tp o.tune w with ⟨_ | _, w'⟩ <;> rw [hr] at h
    · exact h
    · exact h
  | cons f rest ih =>
    have h := tune_retuned kind o.tune tp w
    unfold tryFrequencies
    rcases hr : (frontendDevice kind).tune tp o.tune w with ⟨_ | _, w'⟩ <;> rw [hr] at h
    · dsimp only
      split
      · exact (ih { tp with frequency := f, alternates := rest.reverse } _).of_multiplexes
          h.multiplexes
      · exact h
    · exact h

end Bandscan.Session
