import Bandscan.Proofs.MemoryBench
import Bandscan.Proofs.SchedulerFrame
/-!
The steps of a scheduler that runs its filters on a bench. `start_cases` is the only place where the
starting of a filter is taken apart: a full pool or device, a refusal, or one more running filter.
-/

namespace Bandscan.Scheduler

open Bench

variable {η : Type}

def hasNoSlot (s : Scheduler MemoryFilter) (d : MemoryDemux) : Bool :=
  s.isFull || d.capacity.any (· ≤ d.active)

def started (id : Nat) (f : FilterSpec) (w : World Bench) : RunningFilter MemoryFilter :=
  { id, spec := f, handle := ⟨f.pid, f.tableId, w.device.demux.opened.length⟩, started := w.time
    collector := { tableId := f.tableId, segmented := f.segmented } }

def afterStart (f : FilterSpec) (w : World Bench) : World Bench :=
  (setDemux { w.device.demux with
    active := w.device.demux.active + 1
    opened := w.device.demux.opened ++ [(f.pid, f.tableId)] } w).tell
      (.debug ("start filter " ++ f.label))

theorem start_cases (id : Nat) (f : FilterSpec) (s : Scheduler MemoryFilter) (w : World Bench) :
    (s.hasNoSlot w.device.demux = true ∧
      start demuxDevice id f s w = (.error .exhausted, s, w)) ∨
    (s.hasNoSlot w.device.demux = false ∧
      start demuxDevice id f s w = (.error (.setFilter f.pid .invalidInput), s, w)) ∨
    (s.hasNoSlot w.device.demux = false ∧
      start demuxDevice id f s w =
        (.ok (), { s with running := s.running ++ [started id f w] }, afterStart f w)) := by
  unfold start hasNoSlot
  by_cases hf : s.isFull
  · exact .inl ⟨by rw [hf, Bool.true_or], by rw [if_pos hf]⟩
  · rw [if_neg hf, openFilter_eq, Bool.eq_false_iff.2 hf, Bool.false_or]
    unfold MemoryDemux.openFilter
    by_cases hc : w.device.demux.capacity.any (· ≤ w.device.demux.active)
    · rw [if_pos hc]
      exact .inl ⟨hc, rfl⟩
    · rw [if_neg hc]
      by_cases hp : w.device.demux.failingPids.contains f.pid
      · rw [if_pos hp]
        exact .inr (.inl ⟨Bool.eq_false_iff.2 hc, rfl⟩)
      · rw [if_neg hp]
        exact .inr (.inr ⟨Bool.eq_false_iff.2 hc, rfl⟩)

theorem add_cases (f : FilterSpec) (s : Scheduler MemoryFilter) (w : World Bench) :
    (s.hasNoSlot w.device.demux = true ∧ ∃ note, add demuxDevice f s w =
      (.queued (s.lastId + 1), { s with
        lastId := s.lastId + 1, waiting := s.waiting ++ [(s.lastId + 1, f)] }, w.tell note)) ∨
    (s.hasNoSlot w.device.demux = false ∧ ∃ note, add demuxDevice f s w =
      (.rejected, { s with lastId := s.lastId + 1 }, w.tell note)) ∨
    (s.hasNoSlot w.device.demux = false ∧ add demuxDevice f s w =
      (.running (s.lastId + 1), { s with
        lastId := s.lastId + 1, running := s.running ++ [started (s.lastId + 1) f w] },
        afterStart f w)) := by
  rcases start_cases (s.lastId + 1) f { s with lastId := s.lastId + 1 } w with
    ⟨hs, h⟩ | ⟨hs, h⟩ | ⟨hs, h⟩
  · exact .inl ⟨hs, _, by simp only [add, h]; rfl⟩
  · exact .inr (.inl ⟨hs, _, by simp only [add, h]; rfl⟩)
  · exact .inr (.inr ⟨hs, by simp only [add, h]⟩)

theorem install_cases (f : FilterSpec) (s : Scheduler MemoryFilter) (w : World Bench) :
    (∃ e, install demuxDevice f s w = (.error e, { s with lastId := s.lastId + 1 }, w)) ∨
    (s.hasNoSlot w.device.demux = false ∧ install demuxDevice f s w =
      (.ok (s.lastId + 1), { s with
        lastId := s.lastId + 1, running := s.running ++ [started (s.lastId + 1) f w] },
        afterStart f w)) := by
  rcases start_cases (s.lastId + 1) f { s with lastId := s.lastId + 1 } w with
    ⟨-, h⟩ | ⟨-, h⟩ | ⟨hs, h⟩
  · exact .inl ⟨_, by simp only [install, h]; rfl⟩
  · exact .inl ⟨_, by simp only [install, h]; rfl⟩
  · exact .inr ⟨hs, by simp only [install, h]⟩

theorem promoteFrom_cases (id : Nat) (f : FilterSpec) (ws : List (Nat × FilterSpec))
    (s : Scheduler MemoryFilter) (w : World Bench) :
    (s.hasNoSlot w.device.demux = true ∧
      promoteFrom demuxDevice ((id, f) :: ws) s w = ({ s with waiting := (id, f) :: ws }, w)) ∨
    (s.hasNoSlot w.device.demux = false ∧ ∃ note, promoteFrom demuxDevice ((id, f) :: ws) s w =
      promoteFrom demuxDevice ws s (w.tell note)) ∨
    (s.hasNoSlot w.device.demux = false ∧ promoteFrom demuxDevice ((id, f) :: ws) s w =
      promoteFrom demuxDevice ws { s with running := s.running ++ [started id f w] }
        (afterStart f w)) := by
  rw [promoteFrom]
  by_cases hf : s.isFull
  · exact .inl ⟨by simp [hasNoSlot, hf], by rw [if_pos hf]⟩
  · rw [if_neg hf]
    rcases start_cases id f s w with ⟨hs, h⟩ | ⟨hs, h⟩ | ⟨hs, h⟩
    · exact .inl ⟨hs, by simp only [h]⟩
    · exact .inr (.inl ⟨hs, _, by simp only [h]; rfl⟩)
    · exact .inr (.inr ⟨hs, by simp only [h]⟩)

theorem openFilter_instant (pid tableId : Nat) (w : World Bench) :
    Instant w (demuxDevice.openFilter pid tableId w).2 := by
  rw [openFilter_eq]
  unfold MemoryDemux.openFilter
  split
  · exact .refl w
  · split
    · exact .refl w
    · exact ⟨rfl, rfl, rfl, rfl, List.Sublist.refl _⟩

theorem stop_instant (f : MemoryFilter) (w : World Bench) :
    Instant w (setDemux (w.device.demux.stop f).2 w) := by
  unfold MemoryDemux.stop
  split
  · exact .refl w
  · exact ⟨rfl, rfl, rfl, rfl, List.Sublist.refl _⟩

theorem frame_instant : ReadingFrame demuxDevice Instant where
  refl := .refl
  trans := .trans
  tell := .tell
  openFilter := openFilter_instant
  read f w := (read_reads f w).instant
  stop := stop_instant
  close := stop_instant

theorem addAll_instant (fs : List FilterSpec) (s : Scheduler MemoryFilter) (w : World Bench) :
    Instant w (addAll demuxDevice fs s w).2 := frame_instant.addAll fs s w

theorem install_instant (f : FilterSpec) (s : Scheduler MemoryFilter) (w : World Bench) :
    Instant w (install demuxDevice f s w).2.2 := frame_instant.install f s w

theorem promoteFrom_instant (ws : List (Nat × FilterSpec)) (s : Scheduler MemoryFilter)
    (w : World Bench) : Instant w (promoteFrom demuxDevice ws s w).2 :=
  frame_instant.promoteFrom ws s w

theorem halt_eq (f : RunningFilter MemoryFilter) (w : World Bench) :
    ∃ journal, halt demuxDevice f w =
      { setDemux (w.device.demux.stop f.handle).2 w with journal } := by
  unfold halt
  rw [stop_eq]
  rcases w.device.demux.stop f.handle with ⟨r, d⟩
  cases r with
  | ok _ => exact ⟨_, rfl⟩
  | error e => exact ⟨_, rfl⟩

theorem halt_instant (f : RunningFilter MemoryFilter) (w : World Bench) :
    Instant w (halt demuxDevice f w) := frame_instant.halt f w

theorem remove_instant (id : Nat) (s : Scheduler MemoryFilter) (w : World Bench) :
    Instant w (remove demuxDevice id s w).2.2 := frame_instant.remove id s w

theorem retire_instant (s : Scheduler MemoryFilter) (w : World Bench) :
    Instant w (retire demuxDevice s w).2 := frame_instant.retire s w

theorem clear_instant (s : Scheduler MemoryFilter) (w : World Bench) :
    Instant w (clear demuxDevice s w).2 := frame_instant.clear s w

theorem taken_reads (f : RunningFilter MemoryFilter) (r : Except DemuxError Bytes × World Bench) :
    Reads r.2 (taken f r).2 := by
  rcases r with ⟨e | bytes, w⟩
  · exact .tell _ w
  · exact .refl w

theorem readOne_cases (f : RunningFilter MemoryFilter) (w : World Bench) :
    readOne demuxDevice f w = taken f (demuxDevice.read f.handle w) ∨
    ∃ note, readOne demuxDevice f w =
      taken f (demuxDevice.read f.handle ((demuxDevice.read f.handle w).2.tell note)) := by
  unfold readOne
  split
  · next w₁ h =>
    rw [h]
    exact .inr ⟨_, rfl⟩
  · exact .inl rfl

theorem readOne_after (f : RunningFilter MemoryFilter) (w : World Bench) :
    Reads (demuxDevice.read f.handle w).2 (readOne demuxDevice f w).2 := by
  rcases readOne_cases f w with he | ⟨note, he⟩ <;> rw [he]
  · exact taken_reads f _
  · exact ((Reads.tell note _).trans (read_reads f.handle _)).trans (taken_reads f _)

theorem readOne_reads (f : RunningFilter MemoryFilter) (w : World Bench) :
    Reads w (readOne demuxDevice f w).2 :=
  (read_reads f.handle w).trans (readOne_after f w)

theorem length_readOne_lt {f : RunningFilter MemoryFilter} {w : World Bench}
    (hr : w.device.demux.isReady f.handle = true) :
    (readOne demuxDevice f w).2.device.demux.queue.length < w.device.demux.queue.length :=
  Nat.lt_of_le_of_lt (readOne_after f w).instant.queue.length_le (length_read_lt hr)

theorem mem_of_readOne {f : RunningFilter MemoryFilter} {w : World Bench} {bytes : Bytes}
    (h : (readOne demuxDevice f w).1 = some bytes) :
    ∃ q ∈ w.device.demux.queue, ∃ b, q.arrival = .bytes b ∧ bytes = b.take maxSectionSize := by
  have htaken (w₁ : World Bench) (ht : (taken f (demuxDevice.read f.handle w₁)).1 = some bytes) :
      ∃ q ∈ w₁.device.demux.queue, ∃ b, q.arrival = .bytes b ∧ bytes = b.take maxSectionSize := by
    rcases hr : demuxDevice.read f.handle w₁ with ⟨e | b, w₂⟩
    · simp [hr, taken] at ht
    · obtain rfl : b = bytes := by simpa [hr, taken] using ht
      exact mem_of_read hr
  rcases readOne_cases f w with he | ⟨note, he⟩ <;> rw [he] at h
  · exact htaken w h
  · obtain ⟨q, hq, b, hb⟩ := htaken _ h
    exact ⟨q, (read_reads f.handle w).instant.queue.subset hq, b, hb⟩

def core (f : RunningFilter MemoryFilter) : Nat × FilterSpec × MemoryFilter × Nat :=
  (f.id, f.spec, f.handle, f.started)

def Delivers (queue : List Queued) (s : Section) : Prop :=
  ∃ q ∈ queue, ∃ b, q.arrival = .bytes b ∧ Section.parse (b.take maxSectionSize) = .ok s

theorem Delivers.mono {queue queue' : List Queued} {s : Section} (h : Delivers queue s)
    (hq : queue.Sublist queue') : Delivers queue' s := by
  obtain ⟨q, hm, b, hb⟩ := h
  exact ⟨q, hq.subset hm, b, hb⟩

theorem parse_of_check {c : Collector} {bytes : Bytes} {s : Section}
    (h : (c.check bytes).1 = some s) :
    Section.parse bytes = .ok s ∧ s.header.tableId = c.tableId := by
  unfold Collector.check Section.parseExpecting at h
  cases hp : Section.parse bytes with
  | error e => simp [hp, bind, Except.bind] at h
  | ok s' =>
    by_cases ht : s'.header.tableId = c.tableId
    · simp only [hp, bind, Except.bind, Section.expect, ht, if_true, pure, Except.pure,
        Option.some.injEq] at h
      subst h
      exact ⟨rfl, ht⟩
    · simp [hp, bind, Except.bind, Section.expect, ht] at h

/-- Everything that can come of reading a filter: nothing new, or a section that is handed on. -/
theorem collect_spec (f : RunningFilter MemoryFilter) (w : World Bench) :
    let r := collect demuxDevice f w
    Reads (readOne demuxDevice f w).2 r.2.2 ∧ core r.2.1 = core f ∧
      ∀ s, r.1 = some s →
        Delivers w.device.demux.queue s ∧ s.header.tableId = f.collector.tableId := by
  unfold collect
  rcases hr : readOne demuxDevice f w with ⟨_ | bytes, w₁⟩
  · exact ⟨.refl w₁, rfl, by simp⟩
  · dsimp only
    rcases hc : f.collector.check bytes with ⟨_ | s, notes, collector⟩
    · exact ⟨.tellAll notes w₁, rfl, by simp⟩
    · have hs := parse_of_check (congrArg Prod.fst hc)
      have hw := (Reads.tellAll notes w₁).trans (.tellAll (collector.recordNotes s.header) _)
      dsimp only
      rcases collector.record s.header with ⟨_ | complete, collector⟩
      · exact ⟨hw, rfl, by simp⟩
      · refine ⟨hw.trans (.tellAll _ _), rfl, ?_⟩
        rintro s' ⟨⟩
        obtain ⟨q, hq, b, hb, rfl⟩ := mem_of_readOne (congrArg Prod.fst hr)
        exact ⟨⟨q, hq, b, hb, hs.1⟩, hs.2⟩

theorem collect_reads (f : RunningFilter MemoryFilter) (w : World Bench) :
    Reads w (collect demuxDevice f w).2.2 :=
  (readOne_reads f w).trans (collect_spec f w).1

theorem length_collect_lt {f : RunningFilter MemoryFilter} {w : World Bench}
    (hr : w.device.demux.isReady f.handle = true) :
    (collect demuxDevice f w).2.2.device.demux.queue.length < w.device.demux.queue.length :=
  Nat.lt_of_le_of_lt (collect_spec f w).1.instant.queue.length_le (length_readOne_lt hr)

/-- The handler keeps `P` and asks only for filters with `R`, whatever section of the queue it is
given. -/
def Respects (handle : Handler η) (queue : List Queued) (P : η → Prop) (R : FilterSpec → Prop) :
    Prop :=
  ∀ f s h, Delivers queue s → P h → P (handle f s h).1 ∧ ∀ r ∈ (handle f s h).2.1, R r

theorem serve_none {handle : Handler η} {p : Pass Bench MemoryFilter η} {i : Nat}
    (hi : p.running[i]? = none) : serve demuxDevice handle p i = p := by
  simp [serve, hi]

theorem serve_world (handle : Handler η) {p : Pass Bench MemoryFilter η} {i : Nat}
    {f : RunningFilter MemoryFilter} (hi : p.running[i]? = some f) :
    Reads (collect demuxDevice f p.world).2.2 (serve demuxDevice handle p i).world ∧
      (serve demuxDevice handle p i).running =
        p.running.set i (collect demuxDevice f p.world).2.1 := by
  unfold serve
  rw [hi]
  dsimp only
  rcases collect demuxDevice f p.world with ⟨_ | s, f', w⟩
  · exact ⟨.refl w, rfl⟩
  · exact ⟨.tellAll _ w, rfl⟩

theorem serve_reads (handle : Handler η) (p : Pass Bench MemoryFilter η) (i : Nat) :
    Reads p.world (serve demuxDevice handle p i).world := by
  cases hi : p.running[i]? with
  | none =>
    rw [serve_none hi]
    exact .refl _
  | some f => exact (collect_reads f p.world).trans (serve_world handle hi).1

theorem serve_core (handle : Handler η) (p : Pass Bench MemoryFilter η) (i : Nat) :
    (serve demuxDevice handle p i).running.map core = p.running.map core := by
  cases hi : p.running[i]? with
  | none => rw [serve_none hi]
  | some f =>
    obtain ⟨hlt, hf⟩ := List.getElem?_eq_some_iff.1 hi
    have hlt' : i < (p.running.map core).length := by simpa using hlt
    have hc : core f = (p.running.map core)[i] := by rw [List.getElem_map, hf]
    rw [(serve_world handle hi).2, List.map_set, (collect_spec f p.world).2.1, hc,
      List.set_getElem_self]

theorem serve_handler {handle : Handler η} {p : Pass Bench MemoryFilter η} {P : η → Prop}
    {R : FilterSpec → Prop} (i : Nat) (hh : Respects handle p.world.device.demux.queue P R)
    (hp : P p.handler) (hr : ∀ r ∈ p.requests, R r) :
    P (serve demuxDevice handle p i).handler ∧
      ∀ r ∈ (serve demuxDevice handle p i).requests, R r := by
  cases hi : p.running[i]? with
  | none =>
    rw [serve_none hi]
    exact ⟨hp, hr⟩
  | some f =>
    have hc := (collect_spec f p.world).2.2
    unfold serve
    rw [hi]
    dsimp only
    rcases hcol : collect demuxDevice f p.world with ⟨_ | s, f', w⟩
    · exact ⟨hp, hr⟩
    · obtain ⟨hP, hR⟩ := hh f'.spec s p.handler (hc s (congrArg Prod.fst hcol)).1 hp
      refine ⟨hP, fun r hm => ?_⟩
      rcases List.mem_append.1 hm with hm | hm
      · exact hr r hm
      · exact hR r hm

def serveAll (handle : Handler η) (p : Pass Bench MemoryFilter η) (ready : List Nat) :
    Pass Bench MemoryFilter η := ready.foldl (serve demuxDevice handle) p

theorem serveAll_reads (handle : Handler η) (p : Pass Bench MemoryFilter η) (ready : List Nat) :
    Reads p.world (serveAll handle p ready).world := by
  induction ready generalizing p with
  | nil => exact .refl _
  | cons i ready ih => exact (serve_reads handle p i).trans (ih _)

theorem serveAll_core (handle : Handler η) (p : Pass Bench MemoryFilter η) (ready : List Nat) :
    (serveAll handle p ready).running.map core = p.running.map core := by
  induction ready generalizing p with
  | nil => rfl
  | cons i ready ih => exact (ih _).trans (serve_core handle p i)

theorem serveAll_handler {handle : Handler η} {p : Pass Bench MemoryFilter η} {P : η → Prop}
    {R : FilterSpec → Prop} (ready : List Nat)
    (hh : Respects handle p.world.device.demux.queue P R)
    (hp : P p.handler) (hr : ∀ r ∈ p.requests, R r) :
    P (serveAll handle p ready).handler ∧ ∀ r ∈ (serveAll handle p ready).requests, R r := by
  induction ready generalizing p with
  | nil => exact ⟨hp, hr⟩
  | cons i ready ih =>
    obtain ⟨hP, hR⟩ := serve_handler i hh hp hr
    have hq := (serve_reads handle p i).instant.queue
    exact ih (fun f s h hs => hh f s h (hs.mono hq)) hP hR

def promoted (s : Scheduler MemoryFilter) (w : World Bench) :
    Scheduler MemoryFilter × World Bench :=
  if s.running.isEmpty then promote demuxDevice s w else (s, w)

def polled (timeout : Nat) (ready : List Nat) (w : World Bench) : World Bench :=
  if ready.isEmpty then w.sleep (min timeout idleWait) else w

/-- A pass gives up the waiting filters if none can be started. Otherwise it serves the filters
that are ready, adds what is asked for and retires what is done. -/
theorem pollOnce_eq (timeout : Nat) (handle : Handler η) (h : η) (s : Scheduler MemoryFilter)
    (w : World Bench) :
    pollOnce demuxDevice timeout handle h s w =
      let (s, w) := promoted s w
      if s.running.isEmpty then (.ok (), h, { s with waiting := [] }, w.tellAll s.abandonNotes)
      else
        let ready := w.device.demux.ready (s.running.map (·.handle))
        let p := serveAll handle
          { running := s.running, handler := h, world := polled timeout ready w } ready
        let (s, w) := addAll demuxDevice p.requests { s with running := p.running } p.world
        let (s, w) := retire demuxDevice s w
        (.ok (), p.handler, s, w) := rfl

theorem pollOnce_ok (timeout : Nat) (handle : Handler η) (h : η) (s : Scheduler MemoryFilter)
    (w : World Bench) : (pollOnce demuxDevice timeout handle h s w).1 = .ok () := by
  rw [pollOnce_eq]
  dsimp only
  split <;> rfl

theorem promoted_instant (s : Scheduler MemoryFilter) (w : World Bench) :
    Instant w (promoted s w).2 := by
  unfold promoted
  split
  · exact promoteFrom_instant _ _ _
  · exact .refl w

end Bandscan.Scheduler
