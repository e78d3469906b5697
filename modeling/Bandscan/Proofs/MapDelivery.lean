import Bandscan.Proofs.Claimants
import Bandscan.Proofs.SessionSteps
import Bandscan.Proofs.TableOrder
/-!
Which maps a first scan reads. The association table asks for one filter for each program, each
filter reads one section, and programs on the same pid share the sections there. So of the maps on
a pid as many are read as there are programs that ask for it, and these are the oldest ones,
whatever program they are for.
-/

namespace Bandscan.Session

open Bench Scheduler Queued Network

def onKey (key : Nat × Nat) (l : List (Nat × Section)) : List Section :=
  (l.filter fun r => (r.1, r.2.header.tableId) = key).map (·.2)

theorem onKey_append (key : Nat × Nat) (l l' : List (Nat × Section)) :
    onKey key (l ++ l') = onKey key l ++ onKey key l' := by
  simp [onKey]

theorem onKey_singleton {pid : Nat} {t : Section} {key : Nat × Nat} :
    onKey key [(pid, t)] = if (pid, t.header.tableId) = key then [t] else [] := by
  unfold onKey
  by_cases h : (pid, t.header.tableId) = key <;> simp [h]

theorem sections_taken {queue queue' : List Queued} {key₀ : Nat × Nat} {u : Section}
    {us : List Section} (ht : Taken key₀ u us queue queue') (hs : sections key₀ queue = u :: us)
    (key : Nat × Nat) : sections key queue = onKey key [(key₀.1, u)] ++ sections key queue' := by
  have hkey : (key₀.1, u.header.tableId) = key₀ := by rw [ht.table]
  rw [onKey_singleton, hkey]
  by_cases hk : key₀ = key
  · subst hk
    rw [hs, ht.rest, if_pos rfl]
    rfl
  · rw [ht.others key (Ne.symm hk), if_neg hk]
    rfl

/-- What waits to be read is one whole association table, with distinct programs, and whole maps of
these programs, each on the pid of its program. A pid may be that of several programs. -/
structure Announces (queue : List Queued) (table : Section) (t : Pat) : Prop where
  whole : AllWhole queue
  first : sections (Pat.pid, Pat.tableId) queue = [table]
  parsed : Pat.parse table = .ok t
  distinct : (t.programs.map (·.number)).Nodup
  pids : ∀ p ∈ t.programs, p.pid ≠ 0
  maps : ∀ p ∈ t.programs, ∀ m ∈ sections (p.pid, Pmt.tableId) queue,
    ∃ p' ∈ t.programs, p'.pid = p.pid ∧ p'.number = m.header.ext
  nothingElse : ∀ q ∈ queue, (q.pid, q.tableId) = (Pat.pid, Pat.tableId) ∨
    ∃ p ∈ t.programs, (q.pid, q.tableId) = (p.pid, Pmt.tableId)

instance (queue : List Queued) (table : Section) (t : Pat) : Decidable (Announces queue table t) :=
  decidable_of_iff (AllWhole queue ∧ sections (Pat.pid, Pat.tableId) queue = [table] ∧
      Pat.parse table = .ok t ∧ (t.programs.map (·.number)).Nodup ∧ (∀ p ∈ t.programs, p.pid ≠ 0) ∧
      (∀ p ∈ t.programs, ∀ m ∈ sections (p.pid, Pmt.tableId) queue,
        ∃ p' ∈ t.programs, p'.pid = p.pid ∧ p'.number = m.header.ext) ∧
      ∀ q ∈ queue, (q.pid, q.tableId) = (Pat.pid, Pat.tableId) ∨
        ∃ p ∈ t.programs, (q.pid, q.tableId) = (p.pid, Pmt.tableId))
    ⟨fun ⟨h₁, h₂, h₃, h₄, h₅, h₆, h₇⟩ => ⟨h₁, h₂, h₃, h₄, h₅, h₆, h₇⟩,
      fun ⟨h₁, h₂, h₃, h₄, h₅, h₆, h₇⟩ => ⟨h₁, h₂, h₃, h₄, h₅, h₆, h₇⟩⟩

variable {queue queue₀ : List Queued} {table : Section} {t : Pat} {o : ReadOptions}
  {n n₀ : Network} {due : Nat × Nat → Nat}

theorem exists_of_sections {key : Nat × Nat} (h : sections key queue ≠ []) :
    ∃ q ∈ queue, (q.pid, q.tableId) = key := by
  have hf : queue.filter (fun q => q.isFor key.1 key.2) ≠ [] := fun he => h (by simp [sections, he])
  obtain ⟨q, hq⟩ := List.exists_mem_of_ne_nil _ hf
  obtain ⟨hm, hk⟩ := List.mem_filter.1 hq
  exact ⟨q, hm, isFor_iff.1 hk⟩

theorem Announces.key (h : Announces queue table t) {key : Nat × Nat}
    (hs : sections key queue ≠ []) :
    key = (Pat.pid, Pat.tableId) ∨ ∃ p ∈ t.programs, key = (p.pid, Pmt.tableId) := by
  obtain ⟨q, hq, rfl⟩ := exists_of_sections hs
  exact h.nothingElse q hq

theorem Announces.key_of_not_map (h : Announces queue table t) {key : Nat × Nat}
    (hs : sections key queue ≠ []) (hm : key.2 ≠ Pmt.tableId) : key = (Pat.pid, Pat.tableId) := by
  obtain hk | ⟨p, -, rfl⟩ := h.key hs
  · exact hk
  · exact absurd rfl hm

theorem Announces.tableId (h : Announces queue table t) : table.header.tableId = Pat.tableId := by
  have hp := h.parsed
  unfold Pat.parse Section.expectTable Section.expect at hp
  by_contra hne
  simp [hne, bind, Except.bind, Except.mapError] at hp

def promised (o : ReadOptions) (n₀ : Network) (table : Section) (key : Nat × Nat) : Nat :=
  (n₀.read o Pat.pid table).requests.countP (·.key = key)

/-- The sections `l` have been read, the filters `rs` have been asked for but not been added. With
every key as many sections will have been read in the end as are due, if there are so many. -/
structure Account (o : ReadOptions) (n₀ : Network) (queue₀ : List Queued) (table : Section)
    (due : Nat × Nat → Nat) (l : List (Nat × Section)) (s : Scheduler MemoryFilter)
    (rs : List FilterSpec) (n : Network) (queue : List Queued) : Prop where
  network : n = n₀.editServices (l.flatMap fun r => r.2.edits)
  whole : AllWhole queue
  split : ∀ key, sections key queue₀ = onKey key l ++ sections key queue
  owed : ∀ key, onKey key l ++ (sections key queue).take (s.claimants key +
    rs.countP (·.key = key) + if l = [] then promised o n₀ table key else 0) =
      (sections key queue₀).take (due key)
  matched : ∀ f ∈ s.running, Matched f
  plain : ∀ f ∈ s.roll.map Prod.snd ++ rs, f.segmented = true → sections f.key queue₀ = []
  begun : (l = [] ∧ rs = [] ∧ ∀ f ∈ s.roll.map Prod.snd, f.tableId ≠ Pmt.tableId) ∨
    (∃ maps, l = (Pat.pid, table) :: maps ∧ ∀ r ∈ maps, r.2.header.tableId = Pmt.tableId) ∧
      sections (Pat.pid, Pat.tableId) queue = []

theorem claimants_set {s : Scheduler MemoryFilter} {i : Nat} {f f' : RunningFilter MemoryFilter}
    (hi : s.running[i]? = some f) (hu : f.collector.isFinished = false)
    (hf : f'.collector.isFinished = true) (key : Nat × Nat) :
    s.claimants key = claimants key { s with running := s.running.set i f' } +
      if f.spec.key = key then 1 else 0 := by
  obtain ⟨hlt, he⟩ := List.getElem?_eq_some_iff.1 hi
  simp only [claimants, List.countP_set hlt, he, hu, hf, Bool.not_false, Bool.not_true,
    Bool.and_true, Bool.and_false, decide_eq_true_eq, if_neg Bool.false_ne_true]
  by_cases hk : f.spec.key = key
  · have hpos : 0 < s.running.countP fun g => g.spec.key = key && !g.collector.isFinished :=
      List.countP_pos_iff.2 ⟨f, List.mem_of_getElem? hi, by simp [hk, hu]⟩
    rw [if_pos hk]
    omega
  · rw [if_neg hk]
    omega

theorem Announces.not_nit (h : Announces queue table t) {key : Nat × Nat}
    (hs : sections key queue ≠ []) {u : Section} (hu : u.header.tableId = key.2) : ¬ u.IsNit := by
  have hkey : key.2 = Pat.tableId ∨ key.2 = Pmt.tableId := by
    rcases h.key hs with rfl | ⟨p, -, rfl⟩
    · exact .inl rfl
    · exact .inr rfl
  obtain hk | hk := hkey <;> exact Section.not_isNit (hu.trans hk) (by decide)

/-- The first section is the association table and asks for what is promised. The others are maps
and ask for nothing. -/
theorem Account.requests (ha : Announces queue₀ table t) {l : List (Nat × Section)}
    {s : Scheduler MemoryFilter} {rs : List FilterSpec}
    (h : Account o n₀ queue₀ table due l s rs n queue) {f : RunningFilter MemoryFilter}
    (hf : f ∈ s.running) {u : Section} {us : List Section}
    (hs : sections f.spec.key queue = u :: us) (hu : u.header.tableId = f.spec.tableId) :
    (∃ maps, l ++ [(f.spec.pid, u)] = (Pat.pid, table) :: maps ∧
      ∀ r ∈ maps, r.2.header.tableId = Pmt.tableId) ∧
    (f.spec.key = (Pat.pid, Pat.tableId) → us = []) ∧
    ∀ key, (n.read o f.spec.pid u).requests.countP (·.key = key) =
      if l = [] then promised o n₀ table key else 0 := by
  have hsplit := h.split f.spec.key
  rw [hs] at hsplit
  have hne : sections f.spec.key queue₀ ≠ [] := by simp [hsplit]
  rcases h.begun with ⟨rfl, -, hno⟩ | ⟨⟨maps, rfl, hmaps⟩, hpat⟩
  · have hkey := ha.key_of_not_map hne (hno f.spec (spec_mem_roll hf))
    have hfirst := ha.first
    rw [← hkey, hsplit] at hfirst
    obtain ⟨rfl, rfl⟩ : u = table ∧ us = [] := by simpa [onKey] using hfirst
    have hpid : f.spec.pid = Pat.pid := congrArg Prod.fst hkey
    have hn : n = n₀ := h.network.trans (editServices_nil n₀)
    exact ⟨⟨[], by simp [hpid], by simp⟩, fun _ => rfl, fun key => by rw [hpid, hn]; rfl⟩
  · have hkey : f.spec.key ≠ (Pat.pid, Pat.tableId) := fun hk => by simp [hk, hpat] at hs
    have htable : u.header.tableId = Pmt.tableId := by
      rcases ha.key hne with hk | ⟨p, -, hk⟩
      · exact absurd hk hkey
      · exact hu.trans (congrArg Prod.snd hk)
    have hsilent : (n.read o f.spec.pid u).requests = [] := by
      refine List.eq_nil_iff_forall_not_mem.2 fun r hr => ?_
      have hpat := (of_mem_requests hr).1
      rw [htable] at hpat
      exact absurd hpat (by decide)
    refine ⟨⟨maps ++ [(f.spec.pid, u)], rfl, fun r hr => ?_⟩, fun hk => absurd hk hkey,
      fun key => by simp [hsilent]⟩
    rcases List.mem_append.1 hr with hr | hr
    · exact hmaps r hr
    · rw [List.mem_singleton.1 hr]
      exact htable

theorem Account.read (ha : Announces queue₀ table t) {l : List (Nat × Section)}
    {s : Scheduler MemoryFilter} {rs : List FilterSpec}
    (h : Account o n₀ queue₀ table due l s rs n queue) {i : Nat}
    {f f' : RunningFilter MemoryFilter} (hi : s.running[i]? = some f) (hu : Unread f)
    (hf : f'.collector.isFinished = true) (hfix : fixed f' = fixed f) {u : Section}
    {us : List Section} (hs : sections f.spec.key queue = u :: us) {queue' : List Queued}
    (ht : Taken f.spec.key u us queue queue') (hq : queue'.Sublist queue) :
    Account o n₀ queue₀ table due (l ++ [(f.spec.pid, u)])
      { s with running := s.running.set i f' } (rs ++ (n.read o f.spec.pid u).requests)
      (n.read o f.spec.pid u).network queue' := by
  have hm : f ∈ s.running := List.mem_of_getElem? hi
  obtain ⟨hl, hus, hreq⟩ := h.requests ha hm hs ht.table
  have hne : sections f.spec.key queue₀ ≠ [] := by simp [h.split, hs]
  have hroll := roll_fixed (map_fixed_set hi hfix)
  have hfront (key : Nat × Nat) : sections key queue =
      onKey key [(f.spec.pid, u)] ++ sections key queue' := sections_taken ht hs key
  refine {
    network := ?_
    whole := h.whole.sublist hq
    split := fun key => ?_
    owed := fun key => ?_
    matched := fun g hg => ?_
    plain := fun g hg => ?_
    begun := .inr ⟨hl, ?_⟩ }
  · rw [(read_of_not_nit (ha.not_nit hne ht.table) f.spec.pid).1, h.network, editServices_append]
    simp
  · rw [h.split key, hfront key, onKey_append, List.append_assoc]
  · have hnil : ¬ l ++ [(f.spec.pid, u)] = [] := by simp
    have hone : (onKey key [(f.spec.pid, u)]).length = if f.spec.key = key then 1 else 0 := by
      have hkey : (f.spec.pid, u.header.tableId) = f.spec.key := by rw [ht.table]; rfl
      rw [onKey_singleton, hkey]
      split <;> rfl
    rw [onKey_append, List.append_assoc, ← List.take_length_add_append, ← hfront key, hone,
      if_neg hnil, List.countP_append, hreq key, ← h.owed key,
      claimants_set hi hu.not_finished hf key]
    congr 2
    omega
  · rcases List.mem_or_eq_of_mem_set hg with hg | he
    · exact h.matched g hg
    · have hhandle : f'.handle = f.handle := congrArg (·.2.2.1) hfix
      have hspec : f'.spec = f.spec := congrArg (·.2.1) hfix
      rw [he, Matched, hhandle, hspec]
      exact h.matched f hm
  · rw [hroll, ← List.append_assoc] at hg
    rcases List.mem_append.1 hg with hg | hg
    · exact h.plain g hg
    · obtain ⟨-, mapPid, rfl⟩ := of_mem_requests hg
      simp [FilterSpec.once]
  · by_cases hk : f.spec.key = (Pat.pid, Pat.tableId)
    · rw [← hk, ht.rest]
      exact hus hk
    · rw [ht.others _ (Ne.symm hk)]
      rcases h.begun with ⟨-, -, hno⟩ | ⟨-, hpat⟩
      · exact absurd (ha.key_of_not_map hne (hno f.spec (spec_mem_roll hm))) hk
      · exact hpat

/-- Nothing is read any more while filters come in and leave, if all that could still be read for
is kept. -/
theorem Account.settle {l : List (Nat × Section)} {s s' : Scheduler MemoryFilter}
    {rs : List FilterSpec} {queue' : List Queued}
    (h : Account o n₀ queue₀ table due l s rs n queue) (hq : queue' = queue)
    (hk : ∀ key, sections key queue ≠ [] →
      s'.claimants key = s.claimants key + rs.countP (·.key = key))
    (hm : ∀ f ∈ s'.running, Matched f)
    (hs : ∀ f ∈ s'.roll.map Prod.snd, f ∈ s.roll.map Prod.snd ++ rs) :
    Account o n₀ queue₀ table due l s' [] n queue' where
  network := h.network
  whole := hq ▸ h.whole
  split := hq ▸ h.split
  owed key := by
    have ho := h.owed key
    rw [hq]
    by_cases he : sections key queue = []
    · rw [he] at ho ⊢
      rw [List.take_nil] at ho ⊢
      exact ho
    · rw [hk key he]
      exact ho
  matched := hm
  plain f hf := h.plain f (hs f (by simpa using hf))
  begun := by
    rcases h.begun with ⟨hl, hr, hno⟩ | ⟨hl, hpat⟩
    · exact .inl ⟨hl, rfl, fun f hf => hno f (by simpa [hr] using hs f hf)⟩
    · exact .inr ⟨hl, hq ▸ hpat⟩

variable {fe : Frontend Bench} {so : ScanOptions} {s : Scheduler MemoryFilter} {i : Nat}
  {todo : List Nat} {l : List (Nat × Section)} {p : Pass Bench MemoryFilter (Network × Bool)}

/-- The state of a pass while filters are served. Those at the positions `todo` are still to be
served, and whatever is left to be read is left for them. -/
structure Serving (fe : Frontend Bench) (so : ScanOptions) (n₀ : Network) (queue₀ : List Queued)
    (table : Section) (due : Nat × Nat → Nat) (s : Scheduler MemoryFilter) (todo : List Nat)
    (l : List (Nat × Section)) (p : Pass Bench MemoryFilter (Network × Bool)) : Prop where
  account : Account (readOptions fe so) n₀ queue₀ table due l { s with running := p.running }
    p.requests p.handler.1 p.world.device.demux.queue
  inRange : p.handler.2 = false
  patient : ∀ r ∈ p.requests, r.timeout = so.timeouts.pmt
  served : ∀ j f, p.running[j]? = some f → sections f.spec.key p.world.device.demux.queue = [] ∨
    if j ∈ todo then Unread f else f.collector.isFinished = true

theorem handler_of_not_nit {u : Section} (hu : ¬ u.IsNit) (f : FilterSpec) (n : Network) :
    handler fe so f u (n, false) =
      (((n.read (readOptions fe so) f.pid u).network, false),
        (n.read (readOptions fe so) f.pid u).requests,
        (n.read (readOptions fe so) f.pid u).notes) := by
  rw [handler, if_neg Bool.false_ne_true, ← (read_of_not_nit hu f.pid).2]

theorem Serving.unread (h : Serving fe so n₀ queue₀ table due s (i :: todo) l p)
    {f : RunningFilter MemoryFilter} (hf : p.running[i]? = some f)
    (hs : sections f.spec.key p.world.device.demux.queue ≠ []) :
    Unread f ∧ f.spec.segmented = false := by
  have hserved := (h.served i f hf).resolve_left hs
  rw [if_pos List.mem_cons_self] at hserved
  refine ⟨hserved, Bool.eq_false_iff.2 fun hg => hs ?_⟩
  have hspec := spec_mem_roll (s := { s with running := p.running }) (List.mem_of_getElem? hf)
  have hnone := h.account.plain f.spec (List.mem_append_left _ hspec) hg
  rw [h.account.split] at hnone
  exact (List.append_eq_nil_iff.1 hnone).2

theorem Serving.others (h : Serving fe so n₀ queue₀ table due s (i :: todo) l p) {j : Nat}
    {f : RunningFilter MemoryFilter} (hj : p.running[j]? = some f) (hne : j ≠ i) :
    sections f.spec.key p.world.device.demux.queue = [] ∨
      if j ∈ todo then Unread f else f.collector.isFinished = true := by
  have hserved := h.served j f hj
  simpa only [List.mem_cons, hne, false_or] using hserved

theorem Serving.serve_nil (h : Serving fe so n₀ queue₀ table due s (i :: todo) l p)
    {f : RunningFilter MemoryFilter} (hf : p.running[i]? = some f)
    (hs : sections f.spec.key p.world.device.demux.queue = []) :
    Serving fe so n₀ queue₀ table due s todo l
      (Scheduler.serve demuxDevice (handler fe so) p i) := by
  have hmatched : Matched f := h.account.matched f (List.mem_of_getElem? hf)
  obtain ⟨hnone, hsame, hq⟩ := collect_of_nil h.account.whole hmatched hs
  have hset : p.running.set i f = p.running := by
    obtain ⟨hlt, he⟩ := List.getElem?_eq_some_iff.1 hf
    rw [← he, List.set_getElem_self]
  unfold Scheduler.serve
  rw [hf]
  dsimp only
  rcases hr : Scheduler.collect demuxDevice f p.world with ⟨arrived, f', w'⟩
  rw [hr] at hnone hsame hq
  obtain rfl : arrived = none := hnone
  obtain rfl : f' = f := hsame
  dsimp only at hq ⊢
  rw [hset]
  refine ⟨hq ▸ h.account, h.inRange, h.patient, fun j g hj => ?_⟩
  rw [hq]
  by_cases hne : j = i
  · subst hne
    obtain rfl := Option.some.inj (hf.symm.trans hj)
    exact .inl hs
  · exact h.others hj hne

theorem Serving.serve_cons (ha : Announces queue₀ table t) (hi : i ∉ todo)
    (h : Serving fe so n₀ queue₀ table due s (i :: todo) l p) {f : RunningFilter MemoryFilter}
    (hf : p.running[i]? = some f) {u : Section} {us : List Section}
    (hs : sections f.spec.key p.world.device.demux.queue = u :: us) :
    Serving fe so n₀ queue₀ table due s todo (l ++ [(f.spec.pid, u)])
      (Scheduler.serve demuxDevice (handler fe so) p i) := by
  have hmatched : Matched f := h.account.matched f (List.mem_of_getElem? hf)
  obtain ⟨hunread, hplain⟩ := h.unread hf (by simp [hs])
  obtain ⟨hsome, hfinished, htaken⟩ := collect_of_cons h.account.whole hunread hplain hmatched hs
  have hfix := fixed_collect (d := demuxDevice) f p.world
  have hqueue := (collect_reads f p.world).instant.queue
  unfold Scheduler.serve
  rw [hf]
  dsimp only
  rcases hr : Scheduler.collect demuxDevice f p.world with ⟨arrived, f', w'⟩
  rw [hr] at hsome hfinished htaken hfix hqueue
  obtain rfl : arrived = some u := hsome
  have hspec : f'.spec = f.spec := congrArg (·.2.1) hfix
  have hread := h.account.read ha hf hunread hfinished hfix hs htaken hqueue
  have hne : sections f.spec.key queue₀ ≠ [] := by simp [h.account.split, hs]
  have hhandler : p.handler = (p.handler.1, false) := Prod.ext rfl h.inRange
  dsimp only at hread hfinished htaken ⊢
  rw [hhandler, handler_of_not_nit (ha.not_nit hne htaken.table), hspec]
  refine ⟨?_, rfl, fun r hr => ?_, fun j g hj => ?_⟩
  · simpa using! hread
  · rcases List.mem_append.1 hr with hr | hr
    · exact h.patient r hr
    · obtain ⟨-, mapPid, rfl⟩ := of_mem_requests hr
      rfl
  · rw [device_tellAll]
    by_cases hji : j = i
    · subst hji
      rw [List.getElem?_set_self (List.getElem?_eq_some_iff.1 hf).1] at hj
      obtain rfl := Option.some.inj hj
      exact .inr (by rw [if_neg hi]; exact hfinished)
    · rw [List.getElem?_set_ne (Ne.symm hji)] at hj
      refine (h.others hj hji).imp_left fun hnil => ?_
      have hkey : g.spec.key ≠ f.spec.key := fun hk => by
        rw [hk, hs] at hnil
        simp at hnil
      rw [htaken.others _ hkey]
      exact hnil

theorem Serving.serve (ha : Announces queue₀ table t) (hi : i ∉ todo)
    (h : Serving fe so n₀ queue₀ table due s (i :: todo) l p) :
    ∃ l', Serving fe so n₀ queue₀ table due s todo l'
      (Scheduler.serve demuxDevice (handler fe so) p i) := by
  cases hf : p.running[i]? with
  | none =>
    rw [serve_none hf]
    refine ⟨l, h.account, h.inRange, h.patient, fun j f hj => h.others hj ?_⟩
    rintro rfl
    exact absurd (hf.symm.trans hj) (by simp)
  | some f =>
    cases hs : sections f.spec.key p.world.device.demux.queue with
    | nil => exact ⟨l, h.serve_nil hf hs⟩
    | cons u us => exact ⟨_, h.serve_cons ha hi hf hs⟩

theorem Serving.foldl (ha : Announces queue₀ table t) (hn : todo.Nodup)
    (h : Serving fe so n₀ queue₀ table due s todo l p) :
    ∃ l', Serving fe so n₀ queue₀ table due s [] l'
      (todo.foldl (Scheduler.serve demuxDevice (handler fe so)) p) := by
  induction todo generalizing l p with
  | nil => exact ⟨l, h⟩
  | cons i todo ih =>
    rw [List.nodup_cons] at hn
    obtain ⟨l', h'⟩ := h.serve ha hn.1
    exact ih hn.2 h'

end Bandscan.Session
