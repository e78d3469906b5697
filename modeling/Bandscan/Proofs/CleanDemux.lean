import Bandscan.Config
import Bandscan.Proofs.FilterPool
import Bandscan.Proofs.SessionSteps
/-!
A session that is the only user of a demux gives back every filter that it takes. Whatever sections
and lost sections wait to be read, and whatever the device refuses, a scan of one transponder comes
to its end, and unless it has failed no filter is open then.
-/

namespace Bandscan.Session

open Bench Scheduler

variable {limit : Nat} {capacity : Option Nat} {fe : Frontend Bench} {o : ScanOptions}
  {s : Session MemoryFilter} {w : World Bench}

/-- The filters of the session are those that are open in the device. If the collection is over,
there are none. -/
structure Settled (limit : Nat) (capacity : Option Nat)
    (r : Except ScanError Outcome × Session MemoryFilter × World Bench) : Prop where
  kept : Kept limit capacity r.2.1.scheduler r.2.2.device.demux
  once : Every Once r.2.1.scheduler
  idle : r.1 = .ok .completed ∨ r.1 = .ok .interrupted → r.2.1.scheduler.isIdle = true

theorem startFilters_kept (o : ScanOptions)
    (h : Kept limit capacity s.scheduler w.device.demux) :
    Kept limit capacity (s.startFilters demuxDevice o w).2.1.scheduler
      (s.startFilters demuxDevice o w).2.2.device.demux := by
  unfold startFilters
  split
  · exact h.addAll _
  · have h₁ := h.install (patFilter o)
    rcases hi₁ : s.scheduler.install demuxDevice (patFilter o) w with ⟨_ | id, sch, w'⟩ <;>
      rw [hi₁] at h₁
    · exact h₁
    · have h₂ := h₁.install (sdtFilter o)
      dsimp only at h₂ ⊢
      rcases hi₂ : sch.install demuxDevice (sdtFilter o) w' with ⟨_ | id', sch', w''⟩ <;>
        rw [hi₂] at h₂
      · exact h₂
      · exact h₂.addAll (nitFilters o)

theorem collect_settled (fe : Frontend Bench) (o : ScanOptions)
    (h : Kept limit capacity s.scheduler w.device.demux) (hs : Every Once s.scheduler)
    (budget : Nat) : Settled limit capacity (s.collect demuxDevice fe o budget w) := by
  induction budget generalizing s w with
  | zero =>
    refine ⟨h, hs, fun hr => ?_⟩
    cases hi : s.scheduler.isIdle with
    | true => exact hi
    | false => simp [collect, hi] at hr
  | succ budget ih =>
    cases hi : s.scheduler.isIdle with
    | true =>
      rw [collect_idle hi]
      exact ⟨h, hs, fun _ => hi⟩
    | false =>
      have hk : Kept limit capacity (afterPass fe o s w).scheduler
          (worldAfterPass fe o s w).device.demux :=
        h.pollOnce o.pollInterval (handler fe o) (s.network, false)
      have hu : Unharmed fe o w.device.demux.queue fun _ => True := unharmed_true _
      have hs' := (afterPass_keeps hu trivial hs).2.1
      rw [collect_succ fe o s w hi]
      split
      · exact ⟨hk, hs', by simp⟩
      · split
        · exact ⟨Kept.clear (w := World.tell _ (worldAfterPass fe o s w)) hk,
            every_of_isIdle rfl, fun _ => rfl⟩
        · exact ih hk hs'

theorem scanTransponder_settled (fe : Frontend Bench) (o : ScanOptions)
    (h : Kept limit capacity s.scheduler w.device.demux) (hs : Every Once s.scheduler)
    (budget : Nat) : Settled limit capacity (s.scanTransponder demuxDevice fe o budget w) := by
  have hk := startFilters_kept o h
  obtain ⟨-, hs', -⟩ := startFilters_keeps o w hs
  unfold scanTransponder
  rcases hf : s.startFilters demuxDevice o w with ⟨e | _, s', w'⟩ <;> rw [hf] at hk hs'
  · exact ⟨hk, hs', by simp⟩
  · exact collect_settled fe o hk hs' budget

/-- The session and its demux after any number of scans. Between two scans the network may be
changed, and so may everything that does not open or stop a filter: time, what waits to be read,
what fails, and what is tuned to. -/
inductive Attained (limit : Nat) : Session MemoryFilter → World Bench → Prop
  | fresh (network : Network) (w : World Bench) (h : Unused w.device.demux) :
    Attained limit { network, scheduler := .ofLimit limit } w
  | scan (fe : Frontend Bench) (o : ScanOptions) (budget : Nat) {s : Session MemoryFilter}
    {w : World Bench} (h : Attained limit s w) :
    Attained limit (s.scanTransponder demuxDevice fe o budget w).2.1
      (s.scanTransponder demuxDevice fe o budget w).2.2
  | meanwhile (network : Network) (w' : World Bench) {s : Session MemoryFilter} {w : World Bench}
    (h : Attained limit s w) (hl : ledger w'.device.demux = ledger w.device.demux) :
    Attained limit { s with network } w'

theorem Attained.kept (h : Attained limit s w) :
    (∃ capacity, Kept limit capacity s.scheduler w.device.demux) ∧ Every Once s.scheduler := by
  induction h with
  | fresh network w h => exact ⟨⟨_, Kept.ofLimit limit h⟩, every_of_isIdle rfl⟩
  | scan fe o budget h ih =>
    obtain ⟨⟨capacity, hk⟩, hs⟩ := ih
    have hr := scanTransponder_settled fe o hk hs budget
    exact ⟨⟨capacity, hr.kept⟩, hr.once⟩
  | meanwhile network w' h hl ih =>
    obtain ⟨⟨capacity, hk⟩, hs⟩ := ih
    exact ⟨⟨capacity, hk.demux hl⟩, hs⟩

/-- A device with two filters, on which stopping fails and the first read finds that sections were
lost. -/
def lossyBench : World Bench :=
  { device := { demux := {
      capacity := some 2, failingStop := true
      queue := [⟨Pat.pid, Pat.tableId, .overflow⟩] } } }

def briefOptions : ScanOptions :=
  { timeouts := ⟨2, 3, 2, 2⟩, pollInterval := 1, tune := {}, readNit := true, readOtherNits := true,
    channelNumbers := false }

def firstScan : Except ScanError Outcome × Session MemoryFilter × World Bench :=
  (({ maxFilters := 5 } : Config).session).scanTransponder demuxDevice
    (frontendDevice .terrestrial) briefOptions 9 lossyBench

end Bandscan.Session
