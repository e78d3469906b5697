import Bandscan.Proofs.HealthyProgress
import Bandscan.Proofs.SectionEffects
/-!
A bench without a limit on its filters and without failing pids is a healthy device, and time goes
on there: what is read leaves the queue, and a poll that finds nothing waits.
-/

namespace Bandscan.Bench

open Scheduler

/-- Every filter can be opened, and no section that waits to be read codes a number out of range. -/
structure Accepting (b : Bench) : Prop where
  capacity : b.demux.capacity = none
  failingPids : b.demux.failingPids = []
  inRange : ∀ t, Delivers b.demux.queue t → ¬ t.Overflows

theorem Accepting.of_eq {b b' : Bench} (h : Accepting b)
    (hc : b'.demux.capacity = b.demux.capacity) (hf : b'.demux.failingPids = b.demux.failingPids)
    (hq : b'.demux.queue.Sublist b.demux.queue) : Accepting b' :=
  ⟨hc.trans h.capacity, hf.trans h.failingPids, fun t ht => h.inRange t (ht.mono hq)⟩

theorem Accepting.openFilter {w : World Bench} (h : Accepting w.device) (pid tableId : Nat) :
    demuxDevice.openFilter pid tableId w =
      (.ok ⟨pid, tableId, w.device.demux.opened.length⟩, setDemux { w.device.demux with
        active := w.device.demux.active + 1
        opened := w.device.demux.opened ++ [(pid, tableId)] } w) := by
  have hc : ¬ w.device.demux.capacity.any (· ≤ w.device.demux.active) = true := by
    simp [h.capacity]
  have hp : ¬ w.device.demux.failingPids.contains pid = true := by simp [h.failingPids]
  rw [openFilter_eq, MemoryDemux.openFilter, if_neg hc, if_neg hp]

theorem Accepting.stop {w : World Bench} (h : Accepting w.device) (f : MemoryFilter) :
    Accepting (setDemux (w.device.demux.stop f).2 w).device := by
  unfold MemoryDemux.stop
  split
  · exact h
  · exact h.of_eq rfl rfl (List.Sublist.refl _)

theorem poll_eq (fs : List MemoryFilter) (timeout : Nat) (w : World Bench) :
    demuxDevice.poll fs timeout w =
      (.ok (w.device.demux.ready fs), polled timeout (w.device.demux.ready fs) w) := rfl

theorem device_polled (timeout : Nat) (ready : List Nat) (w : World Bench) :
    (polled timeout ready w).device = w.device := by
  unfold polled
  split <;> rfl

theorem healthy_accepting : Healthy demuxDevice Accepting where
  opens pid tableId w hw := ⟨_, congrArg Prod.fst (hw.openFilter pid tableId)⟩
  polls fs timeout w _ := ⟨w.device.demux.ready fs, rfl⟩
  openFilter pid tableId w hw := by
    rw [hw.openFilter]
    exact hw.of_eq rfl rfl (List.Sublist.refl _)
  poll fs timeout w hw := by
    rw [poll_eq, device_polled]
    exact hw
  read f w hw := by
    rw [read_snd]
    exact hw.of_eq rfl rfl (take_sublist f.pid f.tableId _)
  stop f w hw := hw.stop f
  close f w hw := hw.stop f

theorem offers_accepting : Offers demuxDevice Accepting fun t => ¬ t.Overflows := by
  intro f w bytes t hw hr hp
  have he : demuxDevice.read f w = (.ok bytes, (demuxDevice.read f w).2) := Prod.ext hr rfl
  obtain ⟨q, hq, b, hb, rfl⟩ := mem_of_read he
  exact hw.inRange t ⟨q, hq, b, hb, hp⟩

def stock (b : Bench) : Nat := b.demux.queue.length

theorem Instant.onward {w w' : World Bench} (h : Instant w w') : Onward stock w w' :=
  .inr ⟨h.time.symm, h.queue.length_le⟩

/-- A poll that finds no filter ready takes time. -/
theorem polled_ahead {interval : Nat} (hi : 0 < interval) (w : World Bench) :
    Ahead stock w (polled interval [] w) :=
  .inl (Nat.lt_add_of_pos_right (Nat.lt_min.2 ⟨hi, by decide⟩))

theorem lively_accepting {interval : Nat} (hi : 0 < interval) :
    Lively demuxDevice Accepting stock interval where
  toHealthy := healthy_accepting
  opening pid tableId w _ := (openFilter_instant pid tableId w).onward
  reading f w _ := (read_reads f w).instant.onward
  stopping f w _ := (stop_instant f w).onward
  closing f w _ := (stop_instant f w).onward
  polling fs w _ := by
    rw [poll_eq]
    cases w.device.demux.ready fs with
    | nil => exact (polled_ahead hi w).onward
    | cons i ready => exact (Instant.refl w).onward
  progress fs w _ _ := by
    rw [poll_eq]
    cases hr : w.device.demux.ready fs with
    | nil => exact .inl (polled_ahead hi w)
    | cons i ready =>
      obtain ⟨f, hf, hready⟩ := mem_ready (hr ▸ List.mem_cons_self)
      exact .inr ⟨i, ready, f, rfl, hf, .inr ⟨(read_reads f w).instant.time.symm,
        length_read_lt hready⟩⟩

end Bandscan.Bench
