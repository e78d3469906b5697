import Bandscan.Proofs.HealthyScan
import Bandscan.Proofs.MapDelivery
import Bandscan.Proofs.OwnMaps
/-!
A first scan to its end. Between two passes whoever may still read a section has not read one yet,
and in the end nobody is left, so that what is due has been read.
-/

namespace Bandscan.Session

open Bench Scheduler Queued Network

variable {queue₀ : List Queued} {table : Section} {t : Pat} {n n₀ : Network}
  {due : Nat × Nat → Nat} {fe : Frontend Bench} {so : ScanOptions} {l : List (Nat × Section)}
  {s : Scheduler MemoryFilter} {w : World Bench}

/-- The state of a scan between two passes. -/
structure Underway (fe : Frontend Bench) (so : ScanOptions) (n₀ : Network) (queue₀ : List Queued)
    (table : Section) (due : Nat × Nat → Nat) (l : List (Nat × Section))
    (s : Scheduler MemoryFilter) (n : Network) (w : World Bench) : Prop where
  sound : Sound s
  accepting : Accepting w.device
  account : Account (readOptions fe so) n₀ queue₀ table due l s [] n w.device.demux.queue
  unread : ∀ f ∈ s.running, sections f.spec.key w.device.demux.queue = [] ∨ Unread f

/-- The state at the end of a pass, before filters are removed. -/
structure Gathered (fe : Frontend Bench) (so : ScanOptions) (n₀ : Network) (queue₀ : List Queued)
    (table : Section) (due : Nat × Nat → Nat) (l : List (Nat × Section))
    (s : Scheduler MemoryFilter) (n : Network) (w : World Bench) : Prop where
  sound : Sound s
  accepting : Accepting w.device
  account : Account (readOptions fe so) n₀ queue₀ table due l s [] n w.device.demux.queue
  left : ∀ f ∈ s.running, sections f.spec.key w.device.demux.queue = [] ∨
    f.collector.isFinished = true ∨ (Unread f ∧ isExpired w.time f = false)

theorem Serving.gathered (hp : 0 < so.timeouts.pmt)
    {p : Pass Bench MemoryFilter (Network × Bool)}
    (h : Serving fe so n₀ queue₀ table due s [] l p) (hs : Sound s)
    (hw : Served Accepting (fun x : Network × Bool => x.2 = false) s.running p) :
    let r := addAll demuxDevice p.requests { s with running := p.running } p.world
    Gathered fe so n₀ queue₀ table due l r.1 p.handler.1 r.2 := by
  intro r
  have hsound := hs.served hw
  have hstill : Still p.world r.2 := frame_still.addAll p.requests _ p.world
  have hrunning {g : RunningFilter MemoryFilter} (hg : g ∈ r.1.running) :=
    healthy_accepting.running_addAll frame_still p.requests hw.good hg
  have hspecs := hsound.specs_addAll healthy_accepting hw.late hw.good
  refine ⟨hsound.addAll healthy_accepting hw.late hw.good,
    healthy_accepting.frame.addAll p.requests _ p.world hw.good, ?_, fun g hg => ?_⟩
  · refine h.account.settle hstill.2
      (fun key _ => healthy_accepting.claimants_addAll p.requests _ hw.good) (fun g hg => ?_)
      (fun f hf => hspecs ▸ hf)
    rcases hrunning hg with hg | ⟨q, w', -, -, hfresh⟩
    · exact h.account.matched g hg
    · exact hfresh.matched
  · rw [hstill.2, hstill.1]
    rcases hrunning hg with hg | ⟨q, w', hq, hstill', hfresh⟩
    · obtain ⟨j, hj⟩ := List.mem_iff_getElem?.1 hg
      exact (h.served j g hj).imp_right .inl
    · have htimeout : g.spec.timeout = so.timeouts.pmt := hfresh.spec ▸ h.patient q.2 hq
      have hstarted : g.started = p.world.time := hfresh.started.trans hstill'.1
      exact .inr (.inr ⟨hfresh.unread, decide_eq_false (by omega)⟩)

theorem Gathered.underway (h : Gathered fe so n₀ queue₀ table due l s n w) :
    Underway fe so n₀ queue₀ table due l (retire demuxDevice s w).1 n
      (retire demuxDevice s w).2 := by
  have hstill : Still w (retire demuxDevice s w).2 := frame_still.retire s w
  have hrunning {g : RunningFilter MemoryFilter} (hg : g ∈ (retire demuxDevice s w).1.running) :=
    healthy_accepting.running_retire h.sound h.accepting hg
  have hfades : Fades demuxDevice s (retire demuxDevice s w).1 := by
    rw [h.sound.retire_eq]
    exact removeAll_fades _ s _
  refine ⟨h.sound.retire healthy_accepting h.accepting,
    healthy_accepting.frame.retire s w h.accepting, ?_, fun g hg => ?_⟩
  · refine h.account.settle hstill.2 (fun key hne => ?_) (fun g hg => ?_) (fun f hf => ?_)
    · refine healthy_accepting.claimants_retire h.sound h.accepting fun f hf hd => ?_
      -- A filter whose time is up has nothing left to read.
      by_cases hk : f.spec.key = key
      · subst hk
        rcases h.left f hf with hnil | hfinished | ⟨hunread, hexpired⟩
        · exact absurd hnil hne
        · exact .inr hfinished
        · simp [isDone, hunread.not_finished, hexpired] at hd
      · exact .inl hk
    · rcases hrunning hg with ⟨hg, -⟩ | ⟨q, -, now, hfresh⟩
      · exact h.account.matched g hg
      · exact hfresh.matched
    · exact List.mem_append_left _ ((hfades.roll.map Prod.snd).subset hf)
  · rw [hstill.2]
    rcases hrunning hg with ⟨hg, hd⟩ | ⟨q, -, now, hfresh⟩
    · have honce : g.spec.runOnce = true := h.sound.once_running hg
      rcases h.left g hg with hnil | hfinished | ⟨hunread, -⟩
      · exact .inl hnil
      · simp [isDone, honce, hfinished] at hd
      · exact .inr hunread
    · exact .inr hfresh.unread

theorem nodup_ready (d : MemoryDemux) (fs : List MemoryFilter) : (d.ready fs).Nodup := by
  have hsub : (d.ready fs).Sublist (fs.zipIdx.map Prod.snd) := List.filter_sublist.map _
  refine List.Nodup.sublist hsub ?_
  rw [List.zipIdx_map_snd]
  exact List.nodup_range'

theorem mem_ready_of_isReady {d : MemoryDemux} {fs : List MemoryFilter} {i : Nat}
    {f : MemoryFilter} (hi : fs[i]? = some f) (hf : d.isReady f = true) : i ∈ d.ready fs := by
  refine List.mem_map.2 ⟨(f, i), List.mem_filter.2 ⟨?_, hf⟩, rfl⟩
  exact List.mem_zipIdx_iff_getElem?.2 hi

theorem Underway.pollOnce (ha : Announces queue₀ table t) (hp : 0 < so.timeouts.pmt)
    (h : Underway fe so n₀ queue₀ table due l s n w) (hi : s.isIdle = false) :
    let r := pollOnce demuxDevice so.pollInterval (handler fe so) (n, false) s w
    r.2.1.2 = false ∧ ∃ l', Underway fe so n₀ queue₀ table due l' r.2.2.1 r.2.1.1 r.2.2.2 := by
  obtain ⟨ready, hready, he⟩ := healthy_accepting.pollOnce_eq so.pollInterval (handler fe so)
    (n, false) (h.sound.running_ne_nil hi) h.accepting
  rw [poll_eq] at hready he
  obtain rfl := Except.ok.inj hready
  rw [he]
  dsimp only
  generalize hfilters : s.running.map (·.handle) = handles
  have hdevice : (polled so.pollInterval (w.device.demux.ready handles) w).device = w.device :=
    device_polled _ _ w
  generalize polled so.pollInterval (w.device.demux.ready handles) w = w₁ at hdevice ⊢
  have hserving : Serving fe so n₀ queue₀ table due s (w.device.demux.ready handles) l
      ⟨s.running, (n, false), [], w₁⟩ := by
    refine ⟨?_, rfl, by simp, fun j f hj => ?_⟩
    · rw [hdevice]
      exact h.account
    · have hf : f ∈ s.running := List.mem_of_getElem? hj
      rw [hdevice]
      by_cases hr : j ∈ w.device.demux.ready handles
      · rw [if_pos hr]
        exact h.unread f hf
      · refine .inl (of_not_not fun hne => hr ?_)
        have hhandle : handles[j]? = some f.handle := by
          rw [← hfilters, List.getElem?_map, hj]
          rfl
        refine mem_ready_of_isReady hhandle ?_
        have hmatched := h.account.matched f hf
        have hany := (any_isFor h.account.whole f.spec.key).2 hne
        rw [← hmatched] at hany
        exact hany
  obtain ⟨l', hl'⟩ := hserving.foldl ha (nodup_ready _ handles)
  have hstart : Served Accepting (fun x : Network × Bool => x.2 = false) s.running
      (⟨s.running, (n, false), [], w₁⟩ : Pass Bench MemoryFilter (Network × Bool)) := by
    refine ⟨?_, rfl, rfl, by simp, fun _ => rfl⟩
    rw [hdevice]
    exact h.accepting
  have hserved := hstart.foldl healthy_accepting offers_accepting (handler_obliging fe so)
    (w.device.demux.ready handles)
  exact ⟨hl'.inRange, l', (hl'.gathered hp h.sound hserved).underway⟩

theorem Underway.collect (ha : Announces queue₀ table t) (hp : 0 < so.timeouts.pmt)
    {s : Session MemoryFilter}
    (h : Underway fe so n₀ queue₀ table due l s.scheduler s.network w) (budget : Nat)
    (hc : (s.collect demuxDevice fe so budget w).1 = .ok .completed) :
    ∃ l', Underway fe so n₀ queue₀ table due l'
        (s.collect demuxDevice fe so budget w).2.1.scheduler
        (s.collect demuxDevice fe so budget w).2.1.network
        (s.collect demuxDevice fe so budget w).2.2 ∧
      (s.collect demuxDevice fe so budget w).2.1.scheduler.isIdle = true := by
  induction budget generalizing s w l with
  | zero =>
    cases hi : s.scheduler.isIdle with
    | true => exact ⟨l, h, hi⟩
    | false => simp [Session.collect, hi] at hc
  | succ budget ih =>
    cases hi : s.scheduler.isIdle with
    | true =>
      rw [collect_idle hi]
      exact ⟨l, h, hi⟩
    | false =>
      obtain ⟨hover, l', h'⟩ := h.pollOnce ha hp hi
      rw [collect_succ fe so s w hi, hover, if_neg Bool.false_ne_true] at hc ⊢
      cases hint : (worldAfterPass fe so s w).interrupted with
      | true => simp [hint] at hc
      | false =>
        rw [hint] at hc
        rw [if_neg Bool.false_ne_true] at hc ⊢
        exact ih (s := afterPass fe so s w) h' hc

def dueFilters (fe : Frontend Bench) (so : ScanOptions) (n₀ : Network) (table : Section)
    (key : Nat × Nat) : Nat :=
  ([patFilter so, sdtFilter so] ++ nitFilters so).countP (·.key = key) +
    promised (readOptions fe so) n₀ table key

theorem claimants_of_unread {s : Scheduler MemoryFilter} (h : ∀ f ∈ s.running, Unread f)
    (key : Nat × Nat) : s.claimants key = (s.roll.map Prod.snd).countP (·.key = key) := by
  have hrunning : s.running.countP (fun f => f.spec.key = key && !f.collector.isFinished) =
      s.running.countP fun f => f.spec.key = key := by
    refine List.countP_congr fun f hf => ?_
    simp [(h f hf).not_finished]
  rw [claimants, hrunning, roll, List.map_append, List.map_map, List.countP_append, List.countP_map,
    List.countP_map]
  rfl

theorem not_map_first (so : ScanOptions) :
    ∀ f ∈ [patFilter so, sdtFilter so] ++ nitFilters so, f.tableId ≠ Pmt.tableId := by
  intro f hf
  simp only [nitFilters, List.mem_append, List.mem_cons, List.not_mem_nil, or_false,
    List.mem_ite_nil_right] at hf
  rcases hf with (rfl | rfl) | ⟨-, rfl⟩ | ⟨-, rfl⟩
  · exact (by decide : Pat.tableId ≠ Pmt.tableId)
  · exact (by decide : Sdt.actualId ≠ Pmt.tableId)
  · exact (by decide : Nit.actualId ≠ Pmt.tableId)
  · exact (by decide : Nit.otherId ≠ Pmt.tableId)

theorem segmented_first {f : FilterSpec} (hf : f ∈ [patFilter so, sdtFilter so] ++ nitFilters so)
    (hg : f.segmented = true) : f.tableId = Nit.otherId := by
  simp only [nitFilters, List.mem_append, List.mem_cons, List.not_mem_nil, or_false,
    List.mem_ite_nil_right] at hf
  rcases hf with (rfl | rfl) | ⟨-, rfl⟩ | ⟨-, rfl⟩
  · exact absurd hg Bool.false_ne_true
  · exact absurd hg Bool.false_ne_true
  · exact absurd hg Bool.false_ne_true
  · rfl

theorem Started.underway (fe : Frontend Bench) (ha : Announces queue₀ table t)
    {r : Except DemuxError Unit × Session MemoryFilter × World Bench}
    (h : Started demuxDevice Accepting so n₀ r) (hq : r.2.2.device.demux.queue = queue₀) :
    Underway fe so n₀ queue₀ table (dueFilters fe so n₀ table) [] r.2.1.scheduler r.2.1.network
      r.2.2 := by
  have hunread : ∀ f ∈ r.2.1.scheduler.running, Unread f := fun f hf => by
    obtain ⟨p, now, hfresh⟩ := h.fresh f hf
    exact hfresh.unread
  refine ⟨h.sound, h.good, ?_, fun f hf => .inr (hunread f hf)⟩
  rw [h.network, hq]
  exact {
    network := (editServices_nil n₀).symm
    whole := ha.whole
    split := fun key => rfl
    owed := fun key => by
      rw [claimants_of_unread hunread, h.specs]
      rfl
    matched := fun f hf => by
      obtain ⟨p, now, hfresh⟩ := h.fresh f hf
      exact hfresh.matched
    plain := fun f hf hg => by
      rw [List.append_nil, h.specs] at hf
      by_contra hne
      have htable := segmented_first hf hg
      rcases ha.key hne with hk | ⟨p, -, hk⟩
      · exact (by decide : Nit.otherId ≠ Pat.tableId) (htable.symm.trans (congrArg Prod.snd hk))
      · exact (by decide : Nit.otherId ≠ Pmt.tableId) (htable.symm.trans (congrArg Prod.snd hk))
    begun := .inl ⟨rfl, rfl, fun f hf => not_map_first so f (h.specs ▸ hf)⟩ }

theorem promised_pat (o : ReadOptions) (n₀ : Network) (table : Section) :
    promised o n₀ table (Pat.pid, Pat.tableId) = 0 := by
  refine List.countP_eq_zero.2 fun f hf hk => ?_
  obtain ⟨-, mapPid, rfl⟩ := of_mem_requests hf
  have hk : (mapPid, Pmt.tableId) = (Pat.pid, Pat.tableId) := of_decide_eq_true hk
  exact map_not_pat (congrArg Prod.snd hk)

theorem dueFilters_pat (n₀ : Network) (table : Section) :
    0 < dueFilters fe so n₀ table (Pat.pid, Pat.tableId) := by
  refine Nat.add_pos_left (List.countP_pos_iff.2 ⟨patFilter so, ?_, rfl⟩) _
  simp

theorem dueFilters_map (ha : Announces queue₀ table t) (hc : n₀.current?.isSome) (pid : Nat) :
    dueFilters fe so n₀ table (pid, Pmt.tableId) = n₀.mapsAsked t pid := by
  have hfirst : ([patFilter so, sdtFilter so] ++ nitFilters so).countP
      (·.key = (pid, Pmt.tableId)) = 0 := by
    refine List.countP_eq_zero.2 fun f hf hk => not_map_first so f hf ?_
    exact congrArg Prod.snd (of_decide_eq_true hk)
  have htable : table.header.tableId = Pat.tableId := ha.tableId
  have hrequests : (n₀.read (readOptions fe so) Pat.pid table).requests =
      (n₀.readPat (readOptions fe so) t).requests := by
    rw [Network.read, if_pos htable, ha.parsed]
    rfl
  rw [dueFilters, hfirst, Nat.zero_add, promised, hrequests]
  exact countP_readPat hc ha.distinct ha.pids pid

theorem Underway.read_of_isIdle (ha : Announces queue₀ table t)
    (h : Underway fe so n₀ queue₀ table (dueFilters fe so n₀ table) l s n w)
    (hi : s.isIdle = true) :
    (∃ maps, l = (Pat.pid, table) :: maps ∧ ∀ r ∈ maps, r.2.header.tableId = Pmt.tableId) ∧
      ∀ key, onKey key l = (sections key queue₀).take (dueFilters fe so n₀ table key) := by
  have hidle : s.running = [] ∧ s.waiting = [] := by
    simpa [isIdle] using hi
  have hclaim (key : Nat × Nat) : s.claimants key = 0 := by simp [claimants, hidle.1, hidle.2]
  rcases h.account.begun with ⟨rfl, -, -⟩ | ⟨hl, -⟩
  · -- The association table would not have been read, but a filter for it was opened.
    have hdue : [table].take (dueFilters fe so n₀ table (Pat.pid, Pat.tableId)) = [table] :=
      List.take_of_length_le (dueFilters_pat n₀ table)
    have howed := h.account.owed (Pat.pid, Pat.tableId)
    rw [hclaim, promised_pat, ha.first, hdue] at howed
    simp [onKey] at howed
  · refine ⟨hl, fun key => ?_⟩
    obtain ⟨maps, rfl, -⟩ := hl
    have howed := h.account.owed key
    rw [hclaim, if_neg (by simp)] at howed
    simpa using howed

theorem Announces.pid_of_read (ha : Announces queue₀ table t) {r : Nat × Section}
    (hr : r.2 ∈ sections (r.1, Pmt.tableId) queue₀) {m : Pmt} (hm : Pmt.parse r.2 = .ok m)
    {p : Program} (hp : p ∈ t.programs) (hn : m.program = p.number) : r.1 = p.pid := by
  rcases ha.key (List.ne_nil_of_mem hr) with hk | ⟨q, hq, hk⟩
  · exact absurd (congrArg Prod.snd hk) map_not_pat
  · have hpid : r.1 = q.pid := congrArg Prod.fst hk
    rw [hpid] at hr
    obtain ⟨p', hp', hpid', hn'⟩ := ha.maps q hq r.2 hr
    have hnumber : p'.number = p.number := by rw [hn', ← program_of_pmt hm, hn]
    obtain rfl : p' = p := List.inj_on_of_nodup_map ha.distinct hp' hp hnumber
    rw [hpid, hpid']

theorem Announces.edits (ha : Announces queue₀ table t) :
    table.edits = t.programs.map (.assign t.streamId) := by
  rw [edits_pat ha.tableId, ha.parsed]

theorem Underway.service_of_isIdle (ha : Announces queue₀ table t) (hc : n₀.current?.isSome)
    (h : Underway fe so n₀ queue₀ table (dueFilters fe so n₀ table) l s n w)
    (hi : s.isIdle = true) {p : Program} (hp : p ∈ t.programs) :
    n.currentServices.find? (·.id = p.number) =
      some ((p.ownMaps ((sections (p.pid, Pmt.tableId) queue₀).take
        (n₀.mapsAsked t p.pid))).foldl (fun x m => x.applyMap m)
          (((n₀.currentServices.find? (·.id = p.number)).getD { id := p.number }).assign
            t.streamId p)) := by
  obtain ⟨⟨maps, rfl, htable⟩, hread⟩ := h.read_of_isIdle ha hi
  have hpid : ∀ r ∈ maps, ∀ m, Pmt.parse r.2 = .ok m → m.program = p.number →
      decide ((r.1, r.2.header.tableId) = (p.pid, Pmt.tableId)) = true := by
    intro r hr m hm hn
    have hon : r.2 ∈ onKey (r.1, Pmt.tableId) ((Pat.pid, table) :: maps) :=
      List.mem_map.2 ⟨r, List.mem_filter.2 ⟨List.mem_cons_of_mem _ hr, by simp [htable r hr]⟩, rfl⟩
    rw [hread] at hon
    rw [htable r hr, ha.pid_of_read (List.mem_of_mem_take hon) hm hp hn]
    exact decide_eq_true rfl
  have hfirst : onKey (p.pid, Pmt.tableId) ((Pat.pid, table) :: maps) =
      onKey (p.pid, Pmt.tableId) maps := by
    have hne : (Pat.pid, table.header.tableId) ≠ (p.pid, Pmt.tableId) := fun hk =>
      map_not_pat ((congrArg Prod.snd hk).symm.trans ha.tableId)
    unfold onKey
    rw [List.filter_cons_of_neg (by simpa using hne)]
  have hown : p.ownMaps (maps.map (·.2)) =
      p.ownMaps ((sections (p.pid, Pmt.tableId) queue₀).take (n₀.mapsAsked t p.pid)) := by
    rw [← Program.ownMaps_filter (fun r : Nat × Section => r.2) hpid, ← dueFilters_map ha hc,
      ← hread, hfirst]
    rfl
  have hservices := ((hasCurrent_of_isSome hc).editServices
    (((Pat.pid, table) :: maps).flatMap fun r => r.2.edits)).2
  rw [← h.account.network] at hservices
  calc n.currentServices.find? (·.id = p.number)
      = Edit.actAll p.number (((Pat.pid, table) :: maps).flatMap fun r => r.2.edits)
          (n₀.currentServices.find? (·.id = p.number)) := by
        rw [hservices, Edit.find?_applyAll]
    _ = Edit.actAll p.number ((maps.map (·.2)).flatMap Section.edits)
          (Edit.actAll p.number (t.programs.map (.assign t.streamId))
            (n₀.currentServices.find? (·.id = p.number))) := by
        rw [List.flatMap_cons, ha.edits, Edit.actAll, List.foldl_append, List.flatMap_map]
        rfl
    _ = _ := by
        rw [Edit.actAll_assign ha.distinct hp, Program.actAll_ownMaps, hown]
        intro u hu
        obtain ⟨r, hr, rfl⟩ := List.mem_map.1 hu
        exact htable r hr

theorem Announces.accepting {b : Bench} (ha : Announces b.demux.queue table t)
    (hc : b.demux.capacity = none) (hf : b.demux.failingPids = []) : Accepting b := by
  refine ⟨hc, hf, fun u ⟨q, hq, bytes, hb, hp⟩ ho => ?_⟩
  obtain ⟨u', hu'⟩ := ha.whole q hq
  have hcontent := hu'.content
  simp only [content, hb, hp, Except.toOption] at hcontent
  obtain rfl : u = u' := Option.some.inj hcontent
  have hmem : u ∈ sections (q.pid, q.tableId) _ :=
    List.mem_filterMap.2 ⟨q, List.mem_filter.2 ⟨hq, isFor_iff.2 rfl⟩, hu'.content⟩
  exact ha.not_nit (List.ne_nil_of_mem hmem) hu'.table ho.1

/-- A first scan of a multiplex in a pool of two filters or more. Of the maps on a pid the oldest
are read, one for each program there that none has been asked for, and a service takes over its own
ones among these. If time goes on and nobody asks to stop, the scan is completed. -/
theorem scanTransponder_ownMaps (fe : Frontend Bench) {so : ScanOptions}
    {s : Session MemoryFilter} {limit : Nat} (hs : s.scheduler = .ofLimit limit)
    (hf : s.started = false) (hl : 2 ≤ limit) (hcurrent : s.network.current?.isSome)
    (hcapacity : w.device.demux.capacity = none) (hfailing : w.device.demux.failingPids = [])
    (ha : Announces w.device.demux.queue table t) (hp : 0 < so.timeouts.pmt) :
    (∀ budget, (s.scanTransponder demuxDevice fe so budget w).1 = .ok .completed →
      ∀ p ∈ t.programs, ∃ service maps,
        maps = p.ownMaps ((sections (p.pid, Pmt.tableId) w.device.demux.queue).take
          (s.network.mapsAsked t p.pid)) ∧
        (s.scanTransponder demuxDevice fe so budget w).2.1.network.currentServices.find?
          (·.id = p.number) = some service ∧
        service = maps.foldl (fun x m => x.applyMap m)
          (((s.network.currentServices.find? (·.id = p.number)).getD { id := p.number }).assign
            t.streamId p) ∧
        ∀ m ∈ maps.getLast?, service.clockPid = m.clockPid) ∧
    (0 < so.pollInterval → w.interrupted = false →
      ∃ N, ∀ budget ≥ N, (s.scanTransponder demuxDevice fe so budget w).1 = .ok .completed) := by
  have hw := ha.accepting hcapacity hfailing
  have hstarted := (startFilters_first so healthy_accepting hf hs hw).2 hl
  have hqueue := (startFilters_frame frame_still so s w).2
  obtain ⟨-, honce, hinstant⟩ :=
    startFilters_keeps so w (s := s) (every_of_isIdle (by rw [hs]; rfl))
  have hunderway := hstarted.underway fe ha hqueue
  unfold scanTransponder
  rcases hr : s.startFilters demuxDevice so w with ⟨r, s', w'⟩
  rw [hr] at hstarted hunderway honce hinstant
  obtain rfl : r = .ok () := hstarted.ok
  dsimp only at hunderway honce hinstant ⊢
  constructor
  · intro budget hcompleted p hmem
    obtain ⟨l, hend, hidle⟩ := hunderway.collect ha hp budget hcompleted
    refine ⟨_, _, rfl, hend.service_of_isIdle ha hcurrent hidle hmem, rfl, fun m hm => ?_⟩
    rw [Service.clockPid_foldl_applyMap, hm]
    rfl
  · intro hinterval hint
    obtain ⟨N, hN⟩ : ∃ N, ∀ budget ≥ N,
        (s'.collect demuxDevice fe so budget w').1 = .ok .completed ∨
        (s'.collect demuxDevice fe so budget w').1 = .ok .interrupted :=
      collect_over stock (lively_accepting hinterval) offers_accepting hstarted.sound hstarted.good
    exact ⟨N, fun budget hb => (hN budget hb).resolve_right
      (collect_uninterrupted honce (hinstant.interrupted.trans hint) budget)⟩

def bareMap (program clockPid : UInt8) : Queued :=
  .ofSection 0x100 [0x02, 0xB0, 0x0D, 0x00, program, 0xC1, 0x00, 0x00, 0xE0, clockPid, 0xF0, 0x00,
    0, 0, 0, 0]

/-- The programs 1 and 2 have their maps on the same pid. -/
def sharedPids : Pat := ⟨7, 0, [⟨1, 0x100⟩, ⟨2, 0x100⟩], none⟩

def sharedTable : Section where
  header := { tableId := 0x00, longForm := true, length := 17, ext := 7, version := 0 }
  payload := [0x00, 0x01, 0xE1, 0x00, 0x00, 0x02, 0xE1, 0x00]

def sharedBench (maps : List Queued) : World Bench :=
  { device := { demux := { queue := .ofSection Pat.pid [0x00, 0xB0, 0x11, 0x00, 0x07, 0xC1, 0x00,
      0x00, 0x00, 0x01, 0xE1, 0x00, 0x00, 0x02, 0xE1, 0x00, 0, 0, 0, 0] :: maps } } }

def sharedSession : Session MemoryFilter where
  network := ({ tolerance := 2000, inversion := .auto } : Network).pinCurrent
  scheduler := .ofLimit 2

def sharedOptions : ScanOptions :=
  { timeouts := ⟨1, 1, 1, 1⟩, pollInterval := 1, tune := {}, readNit := false
    readOtherNits := false, channelNumbers := false }

def sharedScan (maps : List Queued) (budget : Nat) :
    Except ScanError Outcome × Session MemoryFilter × World Bench :=
  sharedSession.scanTransponder demuxDevice (frontendDevice .terrestrial) sharedOptions budget
    (sharedBench maps)

/-- Each program takes over its own map, in whatever order they come. -/
theorem scanTransponder_ownMaps_shared_pid :
    let maps := [bareMap 2 0x22, bareMap 1 0x21]
    Announces (sharedBench maps).device.demux.queue sharedTable sharedPids ∧
      ∃ N, ∀ budget ≥ N, (sharedScan maps budget).1 = .ok .completed ∧
        ∀ p ∈ sharedPids.programs, ∃ service,
          (sharedScan maps budget).2.1.network.currentServices.find? (·.id = p.number) =
            some service ∧ service.clockPid = 0x20 + p.number := by
  intro maps
  have ha : Announces (sharedBench maps).device.demux.queue sharedTable sharedPids := by
    decide +kernel
  have hlast : ∀ p ∈ sharedPids.programs,
      ∃ m ∈ (p.ownMaps ((sections (p.pid, Pmt.tableId) (sharedBench maps).device.demux.queue).take
        (sharedSession.network.mapsAsked sharedPids p.pid))).getLast?,
        m.clockPid = 0x20 + p.number := by decide +kernel
  have htimeout : 0 < sharedOptions.timeouts.pmt := by decide
  obtain ⟨hread, hover⟩ := scanTransponder_ownMaps (frontendDevice .terrestrial)
    (rfl : sharedSession.scheduler = .ofLimit 2) rfl (Nat.le_refl 2) rfl rfl rfl ha htimeout
  obtain ⟨N, hN⟩ := hover (by decide) rfl
  refine ⟨ha, N, fun budget hb => ⟨hN budget hb, fun p hp => ?_⟩⟩
  obtain ⟨service, own, rfl, hfind, -, hclock⟩ := hread budget (hN budget hb) p hp
  obtain ⟨m, hm, hpid⟩ := hlast p hp
  exact ⟨service, hfind, (hclock m hm).trans hpid⟩

/-- Both filters read the map of program 1. That of program 2 waits behind it and is never read. -/
theorem sharedScan_lost_map :
    let maps := [bareMap 1 0x21, bareMap 1 0x21, bareMap 2 0x22]
    let queue := (sharedBench maps).device.demux.queue
    Announces queue sharedTable sharedPids ∧
      (∀ p ∈ sharedPids.programs, p.ownMaps (sections (p.pid, Pmt.tableId) queue) ≠ []) ∧
      (sharedScan maps 9).1 = .ok .completed ∧
      ∃ p ∈ sharedPids.programs, ∃ service ∈
        (sharedScan maps 9).2.1.network.currentServices.find? (·.id = p.number),
        ∀ m ∈ p.ownMaps (sections (p.pid, Pmt.tableId) queue), service.clockPid ≠ m.clockPid := by
  decide +kernel

end Bandscan.Session
