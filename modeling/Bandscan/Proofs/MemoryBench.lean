import Mathlib.Data.List.Basic
import Bandscan.Device.Memory
/-!
What the operations of a demux do to a bench, one lemma for each. `Reads` relates two worlds
between which filters have only been read, `Instant` two worlds between which no time has passed.
-/

namespace Bandscan.Bench

def setDemux (d : MemoryDemux) (w : World Bench) : World Bench :=
  { w with device := { w.device with demux := d } }

def Reads (w w' : World Bench) : Prop :=
  ∃ queue journal, queue.Sublist w.device.demux.queue ∧
    w' = { setDemux { w.device.demux with queue } w with journal }

/-- Filters may have been opened, read and stopped, but no time has passed. -/
structure Instant (w w' : World Bench) : Prop where
  time : w'.time = w.time
  interrupted : w'.interrupted = w.interrupted
  frontend : w'.device.frontend = w.device.frontend
  multiplexes : w'.device.demux.multiplexes = w.device.demux.multiplexes
  queue : w'.device.demux.queue.Sublist w.device.demux.queue

structure Later (w w' : World Bench) : Prop where
  interrupted : w'.interrupted = w.interrupted
  frontend : w'.device.frontend = w.device.frontend
  multiplexes : w'.device.demux.multiplexes = w.device.demux.multiplexes
  queue : w'.device.demux.queue.Sublist w.device.demux.queue

theorem Reads.refl (w : World Bench) : Reads w w :=
  ⟨_, w.journal, List.Sublist.refl _, rfl⟩

theorem Reads.trans {w w' w'' : World Bench} (h : Reads w w') (h' : Reads w' w'') :
    Reads w w'' := by
  obtain ⟨q, j, hq, rfl⟩ := h
  obtain ⟨q', j', hq', rfl⟩ := h'
  exact ⟨q', j', hq'.trans hq, rfl⟩

theorem Reads.tell (note : Note) (w : World Bench) : Reads w (w.tell note) :=
  ⟨_, _, List.Sublist.refl _, rfl⟩

theorem Reads.tellAll (notes : List Note) (w : World Bench) : Reads w (w.tellAll notes) := by
  induction notes generalizing w with
  | nil => exact .refl w
  | cons note notes ih => exact (Reads.tell note w).trans (ih _)

theorem Reads.instant {w w' : World Bench} (h : Reads w w') : Instant w w' := by
  obtain ⟨q, j, hq, rfl⟩ := h
  exact ⟨rfl, rfl, rfl, rfl, hq⟩

theorem Instant.refl (w : World Bench) : Instant w w := (Reads.refl w).instant

theorem Instant.trans {w w' w'' : World Bench} (h : Instant w w') (h' : Instant w' w'') :
    Instant w w'' where
  time := h'.time.trans h.time
  interrupted := h'.interrupted.trans h.interrupted
  frontend := h'.frontend.trans h.frontend
  multiplexes := h'.multiplexes.trans h.multiplexes
  queue := h'.queue.trans h.queue

theorem Instant.tell (note : Note) (w : World Bench) : Instant w (w.tell note) :=
  (Reads.tell note w).instant

theorem Instant.tellAll (notes : List Note) (w : World Bench) : Instant w (w.tellAll notes) :=
  (Reads.tellAll notes w).instant

theorem Instant.later {w w' : World Bench} (h : Instant w w') : Later w w' :=
  ⟨h.interrupted, h.frontend, h.multiplexes, h.queue⟩

theorem Later.refl (w : World Bench) : Later w w := (Instant.refl w).later

theorem Later.trans {w w' w'' : World Bench} (h : Later w w') (h' : Later w' w'') :
    Later w w'' where
  interrupted := h'.interrupted.trans h.interrupted
  frontend := h'.frontend.trans h.frontend
  multiplexes := h'.multiplexes.trans h.multiplexes
  queue := h'.queue.trans h.queue

theorem Later.sleep (duration : Nat) (w : World Bench) : Later w (w.sleep duration) :=
  ⟨rfl, rfl, rfl, List.Sublist.refl _⟩

@[simp] theorem device_tellAll (notes : List Note) (w : World Bench) :
    (w.tellAll notes).device = w.device := by
  induction notes generalizing w with
  | nil => rfl
  | cons note notes ih => exact ih (w.tell note)

theorem openFilter_eq (pid tableId : Nat) (w : World Bench) :
    demuxDevice.openFilter pid tableId w =
      ((w.device.demux.openFilter pid tableId).1,
        setDemux (w.device.demux.openFilter pid tableId).2 w) := rfl

theorem stop_eq (f : MemoryFilter) (w : World Bench) :
    demuxDevice.stop f w = ((w.device.demux.stop f).1, setDemux (w.device.demux.stop f).2 w) := rfl

theorem close_eq (f : MemoryFilter) (w : World Bench) :
    demuxDevice.close f w = setDemux (w.device.demux.stop f).2 w := rfl

theorem take_sublist (pid tableId : Nat) (qs : List Queued) :
    (Queued.take pid tableId qs).2.Sublist qs := by
  induction qs with
  | nil => exact List.Sublist.refl _
  | cons q qs ih =>
    by_cases hq : q.isFor pid tableId
    · simp [Queued.take, hq]
    · simpa [Queued.take, hq] using ih

theorem mem_of_take {pid tableId : Nat} {qs : List Queued} {a : Arrival}
    (h : (Queued.take pid tableId qs).1 = some a) : ∃ q ∈ qs, q.arrival = a := by
  induction qs with
  | nil => simp [Queued.take] at h
  | cons q qs ih =>
    by_cases hq : q.isFor pid tableId
    · simp only [Queued.take, hq, if_true, Option.some.injEq] at h
      exact ⟨q, by simp, h⟩
    · simp only [Queued.take, hq] at h
      obtain ⟨r, hr, ha⟩ := ih h
      exact ⟨r, by simp [hr], ha⟩

theorem length_take_lt {pid tableId : Nat} {qs : List Queued}
    (h : qs.any (·.isFor pid tableId) = true) :
    (Queued.take pid tableId qs).2.length < qs.length := by
  induction qs with
  | nil => simp at h
  | cons q qs ih =>
    by_cases hq : q.isFor pid tableId
    · simp [Queued.take, hq]
    · have hqs : qs.any (·.isFor pid tableId) = true := by simpa [hq] using h
      simpa [Queued.take, hq] using ih hqs

theorem read_snd (f : MemoryFilter) (w : World Bench) :
    (demuxDevice.read f w).2 = setDemux { w.device.demux with
      queue := (Queued.take f.pid f.tableId w.device.demux.queue).2 } w := by
  change setDemux (w.device.demux.read f).2 w = _
  unfold MemoryDemux.read
  rcases Queued.take f.pid f.tableId w.device.demux.queue with ⟨a, qs⟩
  rcases a with _ | _ | _ <;> rfl

theorem read_reads (f : MemoryFilter) (w : World Bench) : Reads w (demuxDevice.read f w).2 :=
  ⟨_, w.journal, take_sublist f.pid f.tableId _, read_snd f w⟩

theorem length_read_lt {f : MemoryFilter} {w : World Bench}
    (h : w.device.demux.isReady f = true) :
    (demuxDevice.read f w).2.device.demux.queue.length < w.device.demux.queue.length := by
  rw [read_snd]
  exact length_take_lt h

theorem mem_of_read {f : MemoryFilter} {w w' : World Bench} {bytes : Bytes}
    (h : demuxDevice.read f w = (.ok bytes, w')) :
    ∃ q ∈ w.device.demux.queue, ∃ b, q.arrival = .bytes b ∧ bytes = b.take maxSectionSize := by
  have hr : (w.device.demux.read f).1 = .ok bytes := congrArg Prod.fst h
  unfold MemoryDemux.read at hr
  cases ha : (Queued.take f.pid f.tableId w.device.demux.queue).1 with
  | none => simp [ha] at hr
  | some a =>
    cases a with
    | overflow => simp [ha] at hr
    | bytes b =>
      obtain ⟨q, hq, hqa⟩ := mem_of_take ha
      simp only [ha, Except.ok.injEq] at hr
      exact ⟨q, hq, b, hqa, hr.symm⟩

end Bandscan.Bench
