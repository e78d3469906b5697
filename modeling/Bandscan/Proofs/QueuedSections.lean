import Bandscan.Proofs.AcceptingBench
/-!
What waits to be read on a bench, as sections. Filters for the same table on the same pid share
their sections: whoever reads first gets the oldest. Only whole sections are looked at here, that is
tables that consist of a single section each.
-/

namespace Bandscan

def FilterSpec.key (f : FilterSpec) : Nat × Nat := (f.pid, f.tableId)

namespace Queued

def content (q : Queued) : Option Section :=
  match q.arrival with
  | .bytes b => (Section.parse (b.take maxSectionSize)).toOption
  | .overflow => none

structure Whole (q : Queued) (t : Section) : Prop where
  content : q.content = some t
  table : t.header.tableId = q.tableId
  number : t.header.number = 0
  last : t.header.last = 0

def sections (key : Nat × Nat) (qs : List Queued) : List Section :=
  (qs.filter fun q => q.isFor key.1 key.2).filterMap content

def AllWhole (qs : List Queued) : Prop := ∀ q ∈ qs, ∃ t, q.Whole t

instance (q : Queued) : Decidable (∃ t, q.Whole t) :=
  decidable_of_iff (∃ t ∈ q.content, t.header.tableId = q.tableId ∧ t.header.number = 0 ∧
      t.header.last = 0)
    ⟨fun ⟨t, ht, hid, hn, hl⟩ => ⟨t, ht, hid, hn, hl⟩,
      fun ⟨t, ht⟩ => ⟨t, ht.content, ht.table, ht.number, ht.last⟩⟩

instance (qs : List Queued) : Decidable (AllWhole qs) :=
  inferInstanceAs (Decidable (∀ q ∈ qs, ∃ t, q.Whole t))

theorem AllWhole.sublist {qs qs' : List Queued} (h : AllWhole qs) (hq : qs'.Sublist qs) :
    AllWhole qs' := fun q hm => h q (hq.subset hm)

theorem sections_cons_of_isFor {key : Nat × Nat} {q : Queued} {t : Section}
    (h : q.isFor key.1 key.2 = true) (ht : q.content = some t) (qs : List Queued) :
    sections key (q :: qs) = t :: sections key qs := by
  simp [sections, h, ht]

theorem sections_cons_of_not_isFor {key : Nat × Nat} {q : Queued}
    (h : q.isFor key.1 key.2 = false) (qs : List Queued) :
    sections key (q :: qs) = sections key qs := by
  simp [sections, h]

theorem isFor_iff {key : Nat × Nat} {q : Queued} :
    q.isFor key.1 key.2 = true ↔ (q.pid, q.tableId) = key := by
  simp [isFor, Prod.ext_iff]

theorem any_isFor {qs : List Queued} (h : AllWhole qs) (key : Nat × Nat) :
    qs.any (·.isFor key.1 key.2) = true ↔ sections key qs ≠ [] := by
  induction qs with
  | nil => simp [sections]
  | cons q qs ih =>
    have ih := ih (h.sublist (List.sublist_cons_self q qs))
    cases hq : q.isFor key.1 key.2 with
    | true =>
      obtain ⟨t, ht⟩ := h q List.mem_cons_self
      simp [sections_cons_of_isFor hq ht.content, hq]
    | false => simpa [sections_cons_of_not_isFor hq, hq] using ih

theorem take_of_nil {qs : List Queued} (h : AllWhole qs) {key : Nat × Nat}
    (hs : sections key qs = []) : take key.1 key.2 qs = (none, qs) := by
  induction qs with
  | nil => rfl
  | cons q qs ih =>
    cases hq : q.isFor key.1 key.2 with
    | true =>
      obtain ⟨t, ht⟩ := h q List.mem_cons_self
      simp [sections_cons_of_isFor hq ht.content] at hs
    | false =>
      rw [sections_cons_of_not_isFor hq] at hs
      simp [take, hq, ih (h.sublist (List.sublist_cons_self q qs)) hs]

/-- `t` is the oldest section with the key, and without it `qs'` is left. -/
structure Taken (key : Nat × Nat) (t : Section) (ts : List Section) (qs qs' : List Queued) :
    Prop where
  table : t.header.tableId = key.2
  number : t.header.number = 0
  last : t.header.last = 0
  rest : sections key qs' = ts
  others : ∀ key' ≠ key, sections key' qs' = sections key' qs

theorem Whole.bytes {q : Queued} {t : Section} (h : q.Whole t) :
    ∃ b, q.arrival = .bytes b ∧ Section.parse (b.take maxSectionSize) = .ok t := by
  have hc := h.content
  unfold Queued.content at hc
  cases ha : q.arrival with
  | overflow => simp [ha] at hc
  | bytes b =>
    cases hp : Section.parse (b.take maxSectionSize) with
    | error e => simp [ha, hp, Except.toOption] at hc
    | ok t' =>
      simp only [ha, hp, Except.toOption, Option.some.injEq] at hc
      exact ⟨b, rfl, hc ▸ hp⟩

theorem take_of_cons {qs : List Queued} (h : AllWhole qs) {key : Nat × Nat} {t : Section}
    {ts : List Section} (hs : sections key qs = t :: ts) :
    ∃ b qs', take key.1 key.2 qs = (some (.bytes b), qs') ∧
      Section.parse (b.take maxSectionSize) = .ok t ∧ Taken key t ts qs qs' := by
  induction qs with
  | nil => simp [sections] at hs
  | cons q qs ih =>
    obtain ⟨t', ht⟩ := h q List.mem_cons_self
    cases hq : q.isFor key.1 key.2 with
    | true =>
      rw [sections_cons_of_isFor hq ht.content, List.cons.injEq] at hs
      obtain ⟨rfl, hrest⟩ := hs
      have hkey := isFor_iff.1 hq
      obtain ⟨b, hb, hp⟩ := ht.bytes
      refine ⟨b, qs, by simp [take, hq, hb], hp, ?_, ht.number, ht.last, hrest, fun key' hne => ?_⟩
      · rw [ht.table, ← hkey]
      · refine (sections_cons_of_not_isFor (Bool.eq_false_iff.2 fun hq' => ?_) qs).symm
        exact hne ((isFor_iff.1 hq').symm.trans hkey)
    | false =>
      rw [sections_cons_of_not_isFor hq] at hs
      obtain ⟨b, qs', htake, hp, hr⟩ := ih (h.sublist (List.sublist_cons_self q qs)) hs
      refine ⟨b, q :: qs', by simp [take, hq, htake], hp, hr.table, hr.number, hr.last, ?_,
        fun key' hne => ?_⟩
      · rw [sections_cons_of_not_isFor hq, hr.rest]
      · cases hq' : q.isFor key'.1 key'.2 with
        | true =>
          rw [sections_cons_of_isFor hq' ht.content, sections_cons_of_isFor hq' ht.content,
            hr.others key' hne]
        | false =>
          rw [sections_cons_of_not_isFor hq', sections_cons_of_not_isFor hq', hr.others key' hne]

end Queued

namespace Scheduler

open Bench Queued

variable {f : RunningFilter MemoryFilter} {w : World Bench}

def Unread (f : RunningFilter MemoryFilter) : Prop :=
  f.collector = { tableId := f.spec.tableId, segmented := f.spec.segmented }

/-- The handle of the filter is for what the filter collects. -/
def Matched (f : RunningFilter MemoryFilter) : Prop :=
  (f.handle.pid, f.handle.tableId) = f.spec.key

theorem Unread.not_finished (h : Unread f) : f.collector.isFinished = false := by
  rw [h]
  simp [Collector.isFinished]

theorem Fresh.unread {now : Nat} {p : Nat × FilterSpec} (h : Fresh demuxDevice now p f) :
    Unread f := by
  rw [Unread, h.collector, h.spec]

theorem Fresh.matched {now : Nat} {p : Nat × FilterSpec} (h : Fresh demuxDevice now p f) :
    Matched f := by
  obtain ⟨w, hw⟩ := h.opened
  rw [openFilter_eq] at hw
  unfold MemoryDemux.openFilter at hw
  rw [Matched, h.spec]
  split at hw
  · simp at hw
  · split at hw
    · simp at hw
    · rw [← Except.ok.inj hw]
      rfl

/-- A whole section completes the table of a filter that has not been read before. -/
theorem record_whole (tableId : Nat) {h : Header} (hn : h.number = 0) (hl : h.last = 0) :
    (Collector.record h { tableId }).1 = some true ∧
      (Collector.record h { tableId }).2.isFinished = true := by
  have hopened : ({} : Collection).opened h = { key := some (Collection.keyOf h) } := by
    simp [Collection.opened]
  have hrecord : ({} : Collection).record h = (some true,
      { key := some (Collection.keyOf h), seen := ({} : NumberMap).insert 0,
        complete := true }) := by
    have hseen : ({} : NumberMap).contains 0 = false := NumberMap.contains_empty 0
    have hall : Collection.hasAll 0 (({} : NumberMap).insert 0) = true := by decide
    unfold Collection.record
    simp [hopened, hn, hl, hseen, hall]
  have hcollection : Collector.record h { tableId } =
      ((({} : Collection).record h).1, { tableId, single := (({} : Collection).record h).2 }) := rfl
  rw [hcollection, hrecord]
  exact ⟨rfl, rfl⟩

theorem Matched.take (h : Matched f) (qs : List Queued) :
    Queued.take f.handle.pid f.handle.tableId qs =
      Queued.take f.spec.key.1 f.spec.key.2 qs := by
  rw [← h]

theorem collect_of_cons {t : Section} {ts : List Section} (hw : AllWhole w.device.demux.queue)
    (hu : Unread f) (hg : f.spec.segmented = false) (hm : Matched f)
    (hs : sections f.spec.key w.device.demux.queue = t :: ts) :
    let r := collect demuxDevice f w
    r.1 = some t ∧ r.2.1.collector.isFinished = true ∧
      Taken f.spec.key t ts w.device.demux.queue r.2.2.device.demux.queue := by
  obtain ⟨b, qs', htake, hp, ht⟩ := take_of_cons hw hs
  have hread : demuxDevice.read f.handle w =
      (.ok (b.take maxSectionSize), setDemux { w.device.demux with queue := qs' } w) := by
    change ((w.device.demux.read f.handle).1, setDemux (w.device.demux.read f.handle).2 w) = _
    rw [MemoryDemux.read, hm.take, htake]
  have hone : readOne demuxDevice f w =
      (some (b.take maxSectionSize), setDemux { w.device.demux with queue := qs' } w) := by
    rw [readOne, hread]
    rfl
  have hcollector : f.collector = { tableId := f.spec.tableId } := by rw [hu, hg]
  have hcheck : f.collector.check (b.take maxSectionSize) = (some t, [], f.collector) := by
    have htable : t.header.tableId = f.collector.tableId := by
      rw [hcollector, ht.table]
      rfl
    simp [Collector.check, Section.parseExpecting, hp, Section.expect, htable, bind, Except.bind,
      pure, Except.pure]
  obtain ⟨hrecord, hfinished⟩ := record_whole f.spec.tableId ht.number ht.last
  rw [← hcollector] at hrecord hfinished
  unfold collect
  rw [hone]
  dsimp only
  rw [hcheck]
  dsimp only
  rcases hr : f.collector.record t.header with ⟨r, collector⟩
  rw [hr] at hrecord hfinished
  obtain rfl : r = some true := hrecord
  exact ⟨rfl, hfinished, by simpa using! ht⟩

theorem collect_of_nil (hw : AllWhole w.device.demux.queue) (hm : Matched f)
    (hs : sections f.spec.key w.device.demux.queue = []) :
    let r := collect demuxDevice f w
    r.1 = none ∧ r.2.1 = f ∧ r.2.2.device.demux.queue = w.device.demux.queue := by
  have hread : demuxDevice.read f.handle w = (.error (.read .wouldBlock), w) := by
    change ((w.device.demux.read f.handle).1, setDemux (w.device.demux.read f.handle).2 w) = _
    rw [MemoryDemux.read, hm.take, take_of_nil hw hs]
    rfl
  unfold collect readOne
  rw [hread]
  exact ⟨rfl, rfl, rfl⟩

/-- No time has passed and nothing has been read. -/
def Still (w w' : World Bench) : Prop :=
  w'.time = w.time ∧ w'.device.demux.queue = w.device.demux.queue

theorem frame_still : Frame demuxDevice Still where
  refl _ := ⟨rfl, rfl⟩
  trans h h' := ⟨h'.1.trans h.1, h'.2.trans h.2⟩
  tell _ _ := ⟨rfl, rfl⟩
  openFilter pid tableId w := by
    rw [openFilter_eq]
    unfold MemoryDemux.openFilter
    split
    · exact ⟨rfl, rfl⟩
    · split <;> exact ⟨rfl, rfl⟩
  stop f w := by
    rw [stop_eq]
    unfold MemoryDemux.stop
    split <;> exact ⟨rfl, rfl⟩
  close f w := by
    rw [close_eq]
    unfold MemoryDemux.stop
    split <;> exact ⟨rfl, rfl⟩

end Scheduler

end Bandscan
