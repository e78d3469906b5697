import Bandscan.Proofs.FilterAccount
/-!
A pass over the filters of a scheduler, on any device. The filters that are ready are read in turn,
each once, and what is new among the answers is handed on. What the handler asks for is added when
all reading is over, and only then the filters whose time has come are removed, with one look at the
clock, and others take their places.
-/

namespace Bandscan.Scheduler

variable {δ φ η : Type} {d : Demux δ φ} {s s' : Scheduler φ}

def Told (w w' : World δ) : Prop := ∃ notes, w' = w.tellAll notes

theorem Told.refl (w : World δ) : Told w w := ⟨[], rfl⟩

theorem Told.trans {w w' w'' : World δ} (h : Told w w') (h' : Told w' w'') : Told w w'' := by
  obtain ⟨notes, rfl⟩ := h
  obtain ⟨notes', rfl⟩ := h'
  exact ⟨notes ++ notes', (List.foldl_append ..).symm⟩

theorem told_tell (note : Note) (w : World δ) : Told w (w.tell note) := ⟨[note], rfl⟩

theorem told_tellAll (notes : List Note) (w : World δ) : Told w (w.tellAll notes) := ⟨notes, rfl⟩

/-- A filter answers the first time it is read or, if sections have been lost, the second time. -/
inductive Answered (d : Demux δ φ) (f : φ) (w : World δ) : Option Bytes → World δ → Prop
  | once {r : Except DemuxError Bytes} {w₁ : World δ} (hr : d.read f w = (r, w₁))
    (hn : r ≠ .error .overflow) : Answered d f w r.toOption w₁
  | again {r : Except DemuxError Bytes} {w₁ w₂ w₃ : World δ}
    (hr : d.read f w = (.error .overflow, w₁)) (ht : Told w₁ w₂) (hr' : d.read f w₂ = (r, w₃)) :
    Answered d f w r.toOption w₃

theorem taken_eq (f : RunningFilter φ) (r : Except DemuxError Bytes × World δ) :
    (taken f r).1 = r.1.toOption ∧ Told r.2 (taken f r).2 := by
  rcases r with ⟨e | bytes, w⟩
  · exact ⟨rfl, told_tell _ w⟩
  · exact ⟨rfl, .refl w⟩

theorem answered_readOne (f : RunningFilter φ) (w : World δ) :
    ∃ w₁, Answered d f.handle w (readOne d f w).1 w₁ ∧ Told w₁ (readOne d f w).2 := by
  unfold readOne
  split
  · next w₁ hr =>
    obtain ⟨hbytes, ht⟩ := taken_eq f (d.read f.handle
      (w₁.tell (.debug ("pid " ++ Hex.word f.spec.pid ++ ": section buffer overflow, retrying"))))
    exact ⟨_, hbytes ▸ .again hr (told_tell _ w₁) rfl, ht⟩
  · next hn =>
    obtain ⟨hbytes, ht⟩ := taken_eq f (d.read f.handle w)
    exact ⟨_, hbytes ▸ .once rfl fun he => hn _ (Prod.ext he rfl), ht⟩

structure Readout (φ : Type) where
  position : Nat
  filter : RunningFilter φ
  bytes : Option Bytes

namespace Readout

variable (r : Readout φ)

def arrived : Option Section := do
  let bytes ← r.bytes
  let t ← (r.filter.collector.check bytes).1
  let _ ← (r.filter.collector.record t.header).1
  return t

def after : RunningFilter φ :=
  { r.filter with
    collector :=
      match r.bytes with
      | none => r.filter.collector
      | some bytes =>
        match r.filter.collector.check bytes with
        | (none, _, collector) => collector
        | (some t, _, collector) => (collector.record t.header).2 }

def calls : List (FilterSpec × Section) := (r.arrived.map fun t => (r.filter.spec, t)).toList

end Readout

theorem check_some {c c' : Collector} {bytes : Bytes} {t : Section} {notes : List Note}
    (h : c.check bytes = (some t, notes, c')) : c' = c := by
  unfold Collector.check at h
  split at h
  · exact (Prod.mk.inj (Prod.mk.inj h).2).2.symm
  · cases h

theorem collect_eq (i : Nat) (f : RunningFilter φ) (w : World δ) :
    ∃ w', Told (readOne d f w).2 w' ∧
      collect d f w = (Readout.arrived ⟨i, f, (readOne d f w).1⟩,
        Readout.after ⟨i, f, (readOne d f w).1⟩, w') := by
  unfold collect
  rcases readOne d f w with ⟨_ | bytes, w₁⟩
  · exact ⟨w₁, .refl w₁, rfl⟩
  · unfold Readout.arrived Readout.after
    dsimp only
    rcases hc : f.collector.check bytes with ⟨_ | t, notes, collector⟩
    · exact ⟨_, told_tellAll notes w₁, by simp [hc]⟩
    · obtain rfl := check_some hc
      have ht := (told_tellAll notes w₁).trans (told_tellAll (f.collector.recordNotes t.header) _)
      dsimp only
      rcases hr : f.collector.record t.header with ⟨_ | complete, collector⟩
      · exact ⟨_, ht, by simp [hc, hr]⟩
      · exact ⟨_, ht.trans (told_tellAll (arrivalNotes f.spec t.header complete) _),
          by simp [hc, hr]⟩

def heard (handle : Handler η) (x : η) (call : FilterSpec × Section) : η :=
  (handle call.1 call.2 x).1

def asked (handle : Handler η) (x : η) (call : FilterSpec × Section) : List FilterSpec :=
  (handle call.1 call.2 x).2.1

/-- One filter after the other is read, and nothing else happens than that something is told. -/
inductive ReadInTurn (d : Demux δ φ) : World δ → List (Readout φ) → World δ → Prop
  | done {w : World δ} : ReadInTurn d w [] w
  | next {w w₁ w₂ w' : World δ} {r : Readout φ} {rs : List (Readout φ)}
    (ha : Answered d r.filter.handle w r.bytes w₁) (ht : Told w₁ w₂)
    (h : ReadInTurn d w₂ rs w') : ReadInTurn d w (r :: rs) w'

theorem serve_reading (handle : Handler η) {p : Pass δ φ η} {i : Nat} {f : RunningFilter φ}
    (hi : p.running[i]? = some f) :
    ∃ bytes w₁, Answered d f.handle p.world bytes w₁ ∧ Told w₁ (serve d handle p i).world ∧
      (serve d handle p i).running = p.running.set i (Readout.after ⟨i, f, bytes⟩) ∧
      (serve d handle p i).handler =
        (Readout.calls ⟨i, f, bytes⟩).foldl (heard handle) p.handler ∧
      (serve d handle p i).requests = p.requests ++
        along (heard handle) (asked handle) p.handler (Readout.calls ⟨i, f, bytes⟩) := by
  obtain ⟨w₁, ha, ht⟩ := answered_readOne (d := d) f p.world
  obtain ⟨w', ht', hc⟩ := collect_eq (d := d) i f p.world
  refine ⟨_, w₁, ha, ?_⟩
  unfold serve
  rw [hi]
  dsimp only
  rw [hc]
  unfold Readout.calls
  cases Readout.arrived ⟨i, f, (readOne d f p.world).1⟩ with
  | none => exact ⟨ht.trans ht', rfl, rfl, (List.append_nil _).symm⟩
  | some t =>
    exact ⟨(ht.trans ht').trans (told_tellAll _ w'), rfl, rfl,
      congrArg (p.requests ++ ·) (List.append_nil _).symm⟩

/-- The filters at the positions `ready` have been read in turn, each once, and the handler has been
given what was new. The other filters are as they were. -/
structure Dispatched (d : Demux δ φ) (handle : Handler η) (p : Pass δ φ η) (ready : List Nat)
    (rs : List (Readout φ)) (p' : Pass δ φ η) : Prop where
  order : rs.map (·.position) = ready
  before : ∀ r ∈ rs, p.running[r.position]? = some r.filter
  reads : ReadInTurn d p.world rs p'.world
  handler : p'.handler = (rs.flatMap (·.calls)).foldl (heard handle) p.handler
  requests : p'.requests =
    p.requests ++ along (heard handle) (asked handle) p.handler (rs.flatMap (·.calls))
  length : p'.running.length = p.running.length
  after : ∀ r ∈ rs, p'.running[r.position]? = some r.after
  others : ∀ i, i ∉ ready → p'.running[i]? = p.running[i]?

theorem exists_dispatched (handle : Handler η) (p : Pass δ φ η) {ready : List Nat}
    (hn : ready.Nodup) (hin : ∀ i ∈ ready, i < p.running.length) :
    ∃ rs, Dispatched d handle p ready rs (ready.foldl (serve d handle) p) := by
  induction ready generalizing p with
  | nil => exact ⟨[], rfl, by simp, .done, rfl, (List.append_nil _).symm, rfl, by simp, by simp⟩
  | cons i ready ih =>
    rw [List.nodup_cons] at hn
    rw [List.forall_mem_cons] at hin
    have hi : p.running[i]? = some p.running[i] := List.getElem?_eq_getElem hin.1
    obtain ⟨bytes, w₁, ha, ht, hrun, hhandler, hrequests⟩ := serve_reading (d := d) handle hi
    have hlen : (serve d handle p i).running.length = p.running.length := by
      rw [hrun, List.length_set]
    have hother {j : Nat} (hj : j ≠ i) : (serve d handle p i).running[j]? = p.running[j]? := by
      rw [hrun, List.getElem?_set_ne (Ne.symm hj)]
    obtain ⟨rs, hd⟩ := ih (serve d handle p i) hn.2 (hlen.symm ▸ hin.2)
    refine ⟨⟨i, p.running[i], bytes⟩ :: rs, congrArg (i :: ·) hd.order, ?_, .next ha ht hd.reads,
      ?_, ?_, hd.length.trans hlen, ?_, fun j hj => ?_⟩
    · rw [List.forall_mem_cons]
      refine ⟨hi, fun r hr => ?_⟩
      have hpos : r.position ∈ ready := hd.order ▸ List.mem_map_of_mem hr
      rw [← hother fun he => hn.1 (he ▸ hpos)]
      exact hd.before r hr
    · rw [List.foldl_cons, hd.handler, hhandler, List.flatMap_cons, List.foldl_append]
    · rw [List.foldl_cons, hd.requests, hrequests, hhandler, List.flatMap_cons, along_append,
        List.append_assoc]
    · rw [List.forall_mem_cons]
      refine ⟨?_, hd.after⟩
      rw [List.foldl_cons, hd.others i hn.1, hrun, List.getElem?_set_self hin.1]
    · rw [List.mem_cons, not_or] at hj
      rw [List.foldl_cons, hd.others j hj.2, hother hj.1]

/-- Filters have been opened, stopped and closed, and something has been told. None was read. -/
inductive Managed (d : Demux δ φ) (w : World δ) : World δ → Prop
  | refl : Managed d w w
  | tell (note : Note) {w' : World δ} (h : Managed d w w') : Managed d w (w'.tell note)
  | openFilter (pid tableId : Nat) {w' : World δ} (h : Managed d w w') :
    Managed d w (d.openFilter pid tableId w').2
  | stop (f : φ) {w' : World δ} (h : Managed d w w') : Managed d w (d.stop f w').2
  | close (f : φ) {w' : World δ} (h : Managed d w w') : Managed d w (d.close f w')

theorem Managed.trans {w w' w'' : World δ} (h : Managed d w w') (h' : Managed d w' w'') :
    Managed d w w'' := by
  induction h' with
  | refl => exact h
  | tell note _ ih => exact .tell note ih
  | openFilter pid tableId _ ih => exact .openFilter pid tableId ih
  | stop f _ ih => exact .stop f ih
  | close f _ ih => exact .close f ih

theorem frame_managed : Frame d (Managed d) where
  refl _ := .refl
  trans := .trans
  tell note _ := .tell note .refl
  openFilter pid tableId _ := .openFilter pid tableId .refl
  stop f _ := .stop f .refl
  close f _ := .close f .refl

/-- The filters whose time has come are gone and the others have kept their order. One that is kept
for ever has begun a new window if its time was up. Others have been started behind all that were
there. -/
structure Retires (d : Demux δ φ) (now : Nat) (s s' : Scheduler φ)
    (more : List (RunningFilter φ)) : Prop where
  promotes : Promotes d
    { s with running := (s.running.filter fun f => !isDone now f).map (renew now) } s' more
  removed : ∀ f ∈ s.running, f.id ∉ s'.running.map (·.id) ↔
    f.spec.runOnce = true ∧ (f.collector.isFinished = true ∨ f.spec.timeout ≤ now - f.started)
  renewed : ∀ f ∈ s.running, f.spec.runOnce = false → { f with
    started := if f.spec.timeout ≤ now - f.started then now else f.started } ∈ s'.running

theorem isDone_iff (now : Nat) (f : RunningFilter φ) : isDone now f = true ↔
    f.spec.runOnce = true ∧ (f.collector.isFinished = true ∨ f.spec.timeout ≤ now - f.started) := by
  simp [isDone, isExpired]

theorem renew_of_kept (now : Nat) {f : RunningFilter φ} (hf : f.spec.runOnce = false) :
    renew now f = { f with
      started := if f.spec.timeout ≤ now - f.started then now else f.started } := by
  unfold renew isExpired
  by_cases ht : f.spec.timeout ≤ now - f.started <;> simp [hf, ht]

theorem exists_retires (hs : Numbered s) (w : World δ) :
    ∃ more, Retires d w.time s (retire d s w).1 more := by
  obtain ⟨more, h⟩ := retire_promotes (d := d) hs w
  have hkept {f : RunningFilter φ} (hf : f ∈ s.running) (hd : isDone w.time f = false) :
      renew w.time f ∈ (retire d s w).1.running := by
    rw [h.running]
    exact List.mem_append_left _
      (List.mem_map_of_mem (List.mem_filter.2 ⟨hf, by rw [hd]; rfl⟩))
  have hmore {f g : RunningFilter φ} (hf : f ∈ s.running) (hg : g ∈ more) : g.id ≠ f.id := by
    obtain ⟨gone, hw, hm⟩ := h.waiting
    have hw : s.waiting = gone ++ (retire d s w).1.waiting := hw
    have hwaits : (g.id, g.spec) ∈ s.waiting :=
      hw ▸ List.mem_append_left _ (hm.subset (List.mem_map_of_mem hg))
    have hids := hs.ids
    rw [roll, List.map_append, List.map_map, List.nodup_append] at hids
    exact fun he => hids.2.2 f.id (List.mem_map_of_mem hf) g.id
      (List.mem_map_of_mem (f := Prod.fst) hwaits) he.symm
  refine ⟨more, h, fun f hf => ?_, fun f hf honce => ?_⟩
  · rw [← isDone_iff]
    constructor
    · intro hgone
      by_contra hd
      exact hgone (id_renew w.time f ▸
        List.mem_map_of_mem (hkept hf (Bool.eq_false_iff.2 hd)))
    · intro hd hin
      obtain ⟨g, hg, he⟩ := List.mem_map.1 hin
      rw [h.running] at hg
      rcases List.mem_append.1 hg with hg | hg
      · obtain ⟨k, hk, rfl⟩ := List.mem_map.1 hg
        obtain ⟨hk, hnot⟩ := List.mem_filter.1 hk
        rw [id_renew] at he
        obtain rfl := List.inj_on_of_nodup_map hs.nodup_running hk hf he
        simp [hd] at hnot
      · exact hmore hf hg he
  · rw [← renew_of_kept w.time honce]
    exact hkept hf (by simp [isDone, honce])

/-- One pass over filters that run. If polling fails nothing has changed. Otherwise the filters that
are ready are read in turn and the handler is given exactly what is new, then what it asks for is
added in the order in which it asks, and then the filters whose time has come are removed. -/
theorem pollOnce_exact (hs : Arises d s) (hrun : s.running ≠ []) (timeout : Nat)
    (handle : Handler η) (x : η) (w : World δ) :
    (∀ e w₁, d.poll (s.running.map (·.handle)) timeout w = (.error e, w₁) →
      pollOnce d timeout handle x s w = (.error e, x, s, w₁)) ∧
    ∀ ready w₁, d.poll (s.running.map (·.handle)) timeout w = (.ok ready, w₁) → ready.Nodup →
      (∀ i ∈ ready, i < s.running.length) →
      ∃ rs p s₂ w₂ started queued s' w' more,
        Dispatched d handle ⟨s.running, x, [], w₁⟩ ready rs p ∧
        addAll d p.requests { s with running := p.running } p.world = (s₂, w₂) ∧
        Admits d p.requests { s with running := p.running } s₂ started queued ∧
        Retires d w₂.time s₂ s' more ∧ Managed d p.world w' ∧
        pollOnce d timeout handle x s w = (.ok (), p.handler, s', w') := by
  have hbusy : ¬ s.running.isEmpty = true := fun he => hrun (List.isEmpty_iff.1 he)
  have hready : readied d s w = (s, w) := if_neg hbusy
  rw [pollOnce_readied, hready]
  dsimp only
  rw [if_neg hbusy]
  refine ⟨fun e w₁ hp => by rw [hp], fun ready w₁ hp hn hin => ?_⟩
  rw [hp]
  dsimp only
  obtain ⟨rs, hd⟩ := exists_dispatched (d := d) handle ⟨s.running, x, [], w₁⟩ hn hin
  have hfixed := fixed_foldl_serve (d := d) handle ⟨s.running, x, [], w₁⟩ ready
  generalize ready.foldl (serve d handle) ⟨s.running, x, [], w₁⟩ = p at hd hfixed ⊢
  have hnumbered : Numbered { s with running := p.running } :=
    hs.numbered.of_roll (roll_fixed hfixed) rfl
  obtain ⟨started, queued, ha⟩ := addAll_admits (d := d) p.requests
    { s with running := p.running } p.world
  have hadded := frame_managed.addAll (d := d) p.requests { s with running := p.running } p.world
  rcases he : addAll d p.requests { s with running := p.running } p.world with ⟨s₂, w₂⟩
  rw [he] at ha hadded
  obtain ⟨more, hr⟩ := exists_retires (d := d) (hnumbered.admits ha) w₂
  exact ⟨rs, p, s₂, w₂, started, queued, _, _, more, hd, he, ha, hr,
    hadded.trans (frame_managed.retire s₂ w₂), rfl⟩

/-! ### A lost section, and a filter that waits -/

/-- An association table for which a read has to be repeated. -/
def lossyWorld : World Bench where
  device := { demux := { queue := [⟨0, 0, .overflow⟩, ⟨0, 0, .bytes
    [0x00, 0xB0, 0x0D, 0x00, 0x07, 0xC1, 0x00, 0x00, 0x00, 0x01, 0xE1, 0x00, 0x00, 0x00, 0x00,
      0x00]⟩] } }
  time := 7000

/-- Two filters run, the second of them for ever, and a third one waits. -/
def threeFilters : Scheduler MemoryFilter × World Bench :=
  addAll Bench.demuxDevice [.once 0 0 5000000, ⟨17, 66, false, false, 0⟩, .once 16 64 5000000]
    (ofLimit 2) lossyWorld

def counting : Handler Nat := fun _ _ n => (n + 1, [.once 256 2 5000000], [])

theorem pollOnce_exact_overflow :
    Arises Bench.demuxDevice threeFilters.1 ∧ threeFilters.1.running ≠ [] ∧
    ∃ rs p s' w', Dispatched Bench.demuxDevice counting ⟨threeFilters.1.running, 0, [],
        threeFilters.2⟩ [0] rs p ∧ Managed Bench.demuxDevice p.world w' ∧
      pollOnce Bench.demuxDevice 1000000 counting 0 threeFilters.1 threeFilters.2 =
        (.ok (), p.handler, s', w') ∧
      p.handler = 1 ∧ s'.running.map (·.id) = [2, 3] ∧ s'.waiting.map (·.1) = [4] := by
  have hs : Arises Bench.demuxDevice threeFilters.1 := (Arises.ofLimit 2).addAll _ lossyWorld
  have hrun : threeFilters.1.running ≠ [] := by decide +kernel
  have hresult :
      let r := pollOnce Bench.demuxDevice 1000000 counting 0 threeFilters.1 threeFilters.2
      r.2.1 = 1 ∧ r.2.2.1.running.map (·.id) = [2, 3] ∧ r.2.2.1.waiting.map (·.1) = [4] := by
    decide +kernel
  obtain ⟨rs, p, s₂, w₂, started, queued, s', w', more, hd, -, -, -, hm, he⟩ :=
    (pollOnce_exact hs hrun 1000000 counting 0 threeFilters.2).2 [0] threeFilters.2 rfl
      (by decide) (by decide +kernel)
  rw [he] at hresult
  exact ⟨hs, hrun, rs, p, s', w', hd, hm, he, hresult⟩

end Bandscan.Scheduler
