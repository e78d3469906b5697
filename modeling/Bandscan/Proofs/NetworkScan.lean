import Bandscan.Proofs.BenchTuning
import Bandscan.Proofs.SessionSteps
import Bandscan.Proofs.VisitedMultiplexes
/-!
Which multiplexes a scan of a network locks on, and whether it ends. A transponder that is locked
on the frequency it is listed with is recognised from then on. One that is locked on an alternate
frequency leaves the listed one behind, and a network table that lists it once more has the
multiplex scanned once more.
-/

namespace Bandscan.Session

open Bench Scheduler Network

variable {kind : DeliveryKind} {o : ScanOptions} {tolerance : Nat} {listed visited : List Nat}
  {s s' : Session MemoryFilter} {w w' : World Bench}

/-- A successful tuning: the frequency that the transponder had before it, and the one on which it
has been left. -/
structure Lock where
  listed : Nat
  frequency : Nat
  deriving DecidableEq, Repr

abbrev Lock.IsDirect (l : Lock) : Prop := l.frequency = l.listed

/-- The frequencies of transponders that were found where they are listed. -/
def visits (ls : List Lock) : List Nat := (ls.filter fun l => l.IsDirect).map (·.frequency)

def detours (ls : List Lock) : Nat := ls.countP fun l => ¬ l.IsDirect

@[simp] theorem visits_cons_direct {l : Lock} {ls : List Lock} (h : l.IsDirect) :
    visits (l :: ls) = l.frequency :: visits ls := by
  rw [visits, List.filter_cons_of_pos (by simpa using h)]
  rfl

@[simp] theorem visits_cons_detour {l : Lock} {ls : List Lock} (h : ¬ l.IsDirect) :
    visits (l :: ls) = visits ls := by
  simp [visits, h]

@[simp] theorem detours_cons_direct {l : Lock} {ls : List Lock} (h : l.IsDirect) :
    detours (l :: ls) = detours ls := by
  simp [detours, h]

@[simp] theorem detours_cons_detour {l : Lock} {ls : List Lock} (h : ¬ l.IsDirect) :
    detours (l :: ls) = detours ls + 1 := by
  simp [detours, h]

theorem pairwise_of_visits {ls : List Lock}
    (h : (visits ls).Pairwise fun f g => ¬ Near tolerance f g) :
    ls.Pairwise fun a b =>
      Near tolerance a.frequency b.frequency → ¬ a.IsDirect ∨ ¬ b.IsDirect := by
  rw [visits, List.pairwise_map, List.pairwise_filter] at h
  refine h.imp fun {a b} hab hnear => ?_
  by_contra hno
  rw [not_or, not_not, not_not] at hno
  exact hab (by simpa using hno.1) (by simpa using hno.2) hnear

def lockOf (before after : Network) : Lock :=
  let id := after.current.getD 0
  { listed := before.frequencyOf id, frequency := after.frequencyOf id }

def nextLock (kind : DeliveryKind) (o : ScanOptions) :
    Except ScanError Outcome × Session MemoryFilter × World Bench →
      Option (Lock × Session MemoryFilter × World Bench)
  | (.ok .completed, s, w) =>
    match s.tuneNext (frontendDevice kind) o
        (w.tell (.debug s!"{s.network.pending.length} transponders pending")) with
    | (true, s', w') => some (lockOf s.network s'.network, s', w')
    | (false, _) => none
  | _ => none

def ending (kind : DeliveryKind) (o : ScanOptions) :
    Except ScanError Outcome × Session MemoryFilter × World Bench →
      Except ScanError Outcome × Session MemoryFilter × World Bench
  | (.ok .completed, s, w) =>
    let r := s.tuneNext (frontendDevice kind) o
      (w.tell (.debug s!"{s.network.pending.length} transponders pending"))
    (.ok (ended r.2.2), r.2)
  | other => other

def locks (kind : DeliveryKind) (o : ScanOptions) (passes : Nat) :
    Nat → Session MemoryFilter → World Bench → List Lock
  | 0, _, _ => []
  | tunings + 1, s, w =>
    match nextLock kind o (s.scanTransponder demuxDevice (frontendDevice kind) o passes w) with
    | some (l, s, w) => l :: locks kind o passes tunings s w
    | none => []

/-- The locks that `scanNetwork` comes to. -/
def networkLocks (kind : DeliveryKind) (o : ScanOptions) (budget : Nat)
    (initial : List InitialList.Entry) (s : Session MemoryFilter) (w : World Bench) : List Lock :=
  let s := { s with network := InitialList.load initial s.network }
  match s.tuneNext (frontendDevice kind) o (w.tellAll (InitialList.loadNotes initial)) with
  | (true, s', w') => lockOf s.network s'.network :: locks kind o budget budget s' w'
  | (false, _) => []

def described (kind : DeliveryKind) : Arrival → List Nat
  | .bytes b =>
    match Section.parse (b.take maxSectionSize) with
    | .ok t => (descriptions kind t).map (·.frequency)
    | .error _ => []
  | .overflow => []

/-- Every frequency that the initial list or any multiplex names. Alternate frequencies are not
listed. -/
def listedFrequencies (kind : DeliveryKind) (initial : List InitialList.Entry)
    (ms : Multiplexes) : List Nat :=
  initial.map (·.frequency) ++
    ms.flatMap fun m => (Queued.ofMultiplex ms m.1).flatMap fun q => described kind q.arrival

theorem mem_described {queue : List Queued} {t : Section} {d : Description}
    (ht : Delivers queue t) (hd : d ∈ descriptions kind t) :
    ∃ q ∈ queue, d.frequency ∈ described kind q.arrival := by
  obtain ⟨q, hq, b, ha, hp⟩ := ht
  refine ⟨q, hq, ?_⟩
  rw [ha, described, hp]
  exact List.mem_map_of_mem hd

theorem listed_of_described {initial : List InitialList.Entry} {ms : Multiplexes}
    {frequency f : Nat} {q : Queued} (hq : q ∈ Queued.ofMultiplex ms frequency)
    (hf : f ∈ described kind q.arrival) : f ∈ listedFrequencies kind initial ms := by
  have hm : ∃ m ∈ ms, m.1 = frequency := by
    cases hl : ms.lookup frequency with
    | none => simp [Queued.ofMultiplex, hl] at hq
    | some sections =>
      obtain ⟨l₁, l₂, rfl, -⟩ := List.lookup_eq_some_iff.1 hl
      exact ⟨(frequency, sections), by simp, rfl⟩
  obtain ⟨m, hm, rfl⟩ := hm
  refine List.mem_append_right _ (List.mem_flatMap.2 ⟨m, hm, List.mem_flatMap.2 ⟨q, hq, hf⟩⟩)

theorem outline_marked {n : Network} {id : Nat} {rest : List Nat} (hp : n.pending = id :: rest) :
    ((n.markScanned id).setCurrent id).outline =
      (n.tolerance, n.pinned, n.scanned ++ [id], rest, n.frequencies) := by
  unfold markScanned
  rw [hp, if_pos (by simp), List.erase_cons_head]
  have h := outline_modify (n := { n with scanned := n.scanned ++ [id], pending := rest })
    (f := fun tp => { tp with scanDone := true }) id fun _ => rfl
  exact h

theorem frequencyOf_of_get? {n : Network} {id : Nat} {tp : Transponder} (h : n.get? id = some tp) :
    n.frequencyOf id = tp.frequency := by
  unfold get? at h
  simp [frequencyOf, frequencies, h]

/-- Only terrestrial broadcasts are sent on other frequencies as well. -/
theorem otherFrequency_of_kind {tp : Transponder} (hk : kind ≠ .terrestrial)
    (h : untunable (frontendDevice kind) tp = none) : tp.otherFrequency = false := by
  have hkind : tp.kind = some kind := by
    unfold untunable at h
    split at h
    · cases h
    · next k hk' =>
      split at h
      · next he => exact hk'.trans (congrArg some he)
      · cases h
  unfold Transponder.kind at hkind
  unfold Transponder.otherFrequency
  cases hd : tp.delivery with
  | none => rfl
  | some d =>
    rw [hd] at hkind
    cases d with
    | satellite p => rfl
    | cable p => rfl
    | terrestrial p => exact absurd (Option.some.inj hkind).symm hk

theorem frequency_tryFrequencies (kind : DeliveryKind) (o : ScanOptions) {tp : Transponder}
    (h : tp.otherFrequency = false) (alternates : List Nat) (w : World Bench) :
    (tryFrequencies (frontendDevice kind) o tp alternates w).1.2.frequency = tp.frequency := by
  unfold tryFrequencies
  rcases (frontendDevice kind).tune tp o.tune w with ⟨_ | _, w'⟩
  · cases alternates with
    | nil => rfl
    | cons f rest => simp [h]
  · rfl

theorem tuneTo_spec (kind : DeliveryKind) (o : ScanOptions) {n : Network} (w : World Bench)
    {id : Nat} {rest : List Nat} (hp : n.pending = id :: rest) :
    let r := tuneTo (frontendDevice kind) o id n w
    r.2.1.current = some id ∧ ∃ frequency,
      r.2.1.outline = (n.tolerance, n.pinned, n.scanned ++ [id], rest,
        n.frequencies.set id frequency) ∧
      Retuned frequency w (r.1, r.2.2) ∧
      (kind ≠ .terrestrial → frequency = n.frequencyOf id) := by
  have hm := outline_marked hp
  unfold tuneTo
  generalize hn : (n.markScanned id).setCurrent id = m at hm
  have hc : m.current = some id := hn ▸ rfl
  simp only [outline, Prod.mk.injEq] at hm
  obtain ⟨ht, hpin, hsc, hpe, hf⟩ := hm
  have hhome : m.frequencyOf id = n.frequencyOf id := by rw [frequencyOf, hf, frequencyOf]
  have hkept : (m.tolerance, m.pinned, m.scanned, m.pending, m.frequencies) =
      (n.tolerance, n.pinned, n.scanned ++ [id], rest,
        n.frequencies.set id (m.frequencyOf id)) := by
    rw [ht, hpin, hsc, hpe, hf, hhome, set_frequencyOf]
  dsimp only
  cases hg : m.get? id with
  | none => exact ⟨hc, m.frequencyOf id, hkept, ⟨rfl, by simp⟩, fun _ => hhome⟩
  | some tp =>
    dsimp only
    cases hu : untunable (frontendDevice kind) tp with
    | some note =>
      have ho : (setFailed id true m).outline = m.outline := outline_modify id fun _ => rfl
      exact ⟨hc, m.frequencyOf id, ho.trans hkept, ⟨rfl, by simp⟩, fun _ => hhome⟩
    | none =>
      have hr := tryFrequencies_retuned kind o tp tp.alternates.reverse w
      have hstay (hk : kind ≠ .terrestrial) :=
        frequency_tryFrequencies kind o (otherFrequency_of_kind hk hu) tp.alternates.reverse w
      dsimp only at hr ⊢
      generalize tryFrequencies (frontendDevice kind) o tp tp.alternates.reverse w = r at hr hstay ⊢
      obtain ⟨⟨locked, tp'⟩, w'⟩ := r
      refine ⟨hc, tp'.frequency, ?_, hr, fun hk => ?_⟩
      swap
      · rw [hstay hk, ← frequencyOf_of_get? hg, hhome]
      unfold outline
      rw [frequencies_modify_to id fun _ => rfl, hf, ← ht, ← hpin, ← hsc, ← hpe]
      rfl

/-- What comes of trying the pending transponders if one of them locks. -/
structure Locked (kind : DeliveryKind) (tolerance : Nat) (listed visited : List Nat) (n : Network)
    (w : World Bench) (l : Lock) (n' : Network) (w' : World Bench) : Prop where
  orderly : Orderly tolerance listed visited n'
  direct : l.IsDirect → Orderly tolerance listed (visited ++ [l.frequency]) n'
  multiplexes : w'.device.demux.multiplexes = w.device.demux.multiplexes
  sends : Sends l.frequency w'
  home : kind ≠ .terrestrial → l.IsDirect

theorem tuneFirst_spec (kind : DeliveryKind) (o : ScanOptions) (ht : 0 < tolerance) {n : Network}
    (w : World Bench) (h : Orderly tolerance listed visited n) :
    let r := tuneFirst (frontendDevice kind) o n.pending n w
    r.1 = true → ∃ id ∈ n.pending, r.2.1.current = some id ∧
      Locked kind tolerance listed visited n w ⟨n.frequencyOf id, r.2.1.frequencyOf id⟩
        r.2.1 r.2.2 := by
  induction hp : n.pending generalizing n w with
  | nil => simp [tuneFirst]
  | cons id rest ih =>
    have hid : id ∈ n.scanned ++ n.pending := List.mem_append_right _ (hp ▸ List.mem_cons_self)
    have hspec := tuneTo_spec kind o w hp
    unfold tuneFirst
    split
    · simp
    rcases hr : tuneTo (frontendDevice kind) o id n w with ⟨locked, n₁, w₁⟩
    rw [hr] at hspec
    obtain ⟨hc, frequency, ho, hret, hhome⟩ := hspec
    obtain ⟨hold, hnew⟩ := h.visit ht hp ho
    simp only [outline, Prod.mk.injEq] at ho
    obtain ⟨-, -, -, hpe, hf⟩ := ho
    have hfreq := frequencyOf_of_set (h.registered id hid) hf
    cases locked with
    | true =>
      have hself : n₁.frequencyOf id = frequency := by rw [hfreq, if_pos rfl]
      refine fun _ => ⟨id, List.mem_cons_self, hc, hold, fun hd => ?_, hret.multiplexes, ?_,
        fun hk => hself.trans (hhome hk)⟩
      · have hd : n₁.frequencyOf id = n.frequencyOf id := hd
        have := hnew (hself ▸ hd)
        rwa [← hself] at this
      · have := hret.sends rfl
        rwa [← hself] at this
    | false =>
      intro r hlock
      obtain ⟨j, hj, hcj, hl⟩ := ih (n := n₁) w₁ hold hpe hlock
      have hne : j ≠ id := by
        have hd := (List.nodup_append.1 h.distinct).2.1
        rw [hp] at hd
        rintro rfl
        exact (List.nodup_cons.1 hd).1 hj
      have hfj : n₁.frequencyOf j = n.frequencyOf j := by rw [hfreq, if_neg hne]
      rw [hfj] at hl
      exact ⟨j, List.mem_cons_of_mem _ hj, hcj, hl.orderly, hl.direct,
        hl.multiplexes.trans hret.multiplexes, hl.sends, hl.home⟩

theorem tuneNext_spec (ht : 0 < tolerance) (h : Orderly tolerance listed visited s.network)
    (hr : s.tuneNext (frontendDevice kind) o w = (true, s', w')) :
    s'.scheduler = s.scheduler ∧ Locked kind tolerance listed visited s.network w
      (lockOf s.network s'.network) s'.network w' := by
  have hspec := tuneFirst_spec kind o ht w h
  unfold tuneNext at hr
  rcases hf : tuneFirst (frontendDevice kind) o s.network.pending s.network w with ⟨locked, n, w₁⟩
  rw [hf] at hr hspec
  simp only [Prod.mk.injEq] at hr
  obtain ⟨rfl, rfl, rfl⟩ := hr
  obtain ⟨id, -, hc, hl⟩ := hspec rfl
  have hid : lockOf s.network n = ⟨s.network.frequencyOf id, n.frequencyOf id⟩ := by
    have hc : n.current = some id := hc
    rw [lockOf, hc]
    rfl
  exact ⟨rfl, hid ▸ hl⟩

/-- What holds of a scan whenever it goes on: the network is in order, and nothing that is sent
describes a frequency that is not listed. -/
structure Scanning (kind : DeliveryKind) (tolerance : Nat) (listed visited : List Nat)
    (s : Session MemoryFilter) (w : World Bench) : Prop where
  orderly : Orderly tolerance listed visited s.network
  once : Every Once s.scheduler
  waiting : ∀ q ∈ w.device.demux.queue, ∀ f ∈ described kind q.arrival, f ∈ listed
  sent : ∀ frequency, ∀ q ∈ Queued.ofMultiplex w.device.demux.multiplexes frequency,
    ∀ f ∈ described kind q.arrival, f ∈ listed

structure Onward (kind : DeliveryKind) (tolerance : Nat) (listed visited : List Nat) (l : Lock)
    (s : Session MemoryFilter) (w : World Bench) : Prop where
  scanning : Scanning kind tolerance listed visited s w
  direct : l.IsDirect → Scanning kind tolerance listed (visited ++ [l.frequency]) s w
  home : kind ≠ .terrestrial → l.IsDirect

theorem Scanning.scanTransponder (hs : Sorted tolerance listed)
    (h : Scanning kind tolerance listed visited s w) (passes : Nat) :
    let r := s.scanTransponder demuxDevice (frontendDevice kind) o passes w
    Scanning kind tolerance listed visited r.2.1 r.2.2 := by
  have hu : Unharmed (frontendDevice kind) o w.device.demux.queue
      (Orderly tolerance listed visited) := fun pid t n ht hn => by
    refine hn.read hs _ pid fun d hd => ?_
    obtain ⟨q, hq, hf⟩ := mem_described ht hd
    exact h.waiting q hq d.frequency hf
  obtain ⟨ho, he, hl⟩ := scanTransponder_keeps hu h.orderly h.once passes
  refine ⟨ho, he, fun q hq => h.waiting q (hl.queue.subset hq), fun frequency => ?_⟩
  rw [hl.multiplexes]
  exact h.sent frequency

theorem Scanning.tuneNext (ht : 0 < tolerance) (h : Scanning kind tolerance listed visited s w)
    (hr : s.tuneNext (frontendDevice kind) o w = (true, s', w')) :
    Onward kind tolerance listed visited (lockOf s.network s'.network) s' w' := by
  obtain ⟨hsch, hl⟩ := tuneNext_spec ht h.orderly hr
  have honce : Every Once s'.scheduler := hsch ▸ h.once
  have hsent (frequency : Nat) (q : Queued)
      (hq : q ∈ Queued.ofMultiplex w'.device.demux.multiplexes frequency) :
      ∀ f ∈ described kind q.arrival, f ∈ listed := by
    rw [hl.multiplexes] at hq
    exact h.sent frequency q hq
  have hwait : ∀ q ∈ w'.device.demux.queue, ∀ f ∈ described kind q.arrival, f ∈ listed := by
    rw [hl.sends]
    exact hsent _
  exact ⟨⟨hl.orderly, honce, hwait, hsent⟩, fun hd => ⟨hl.direct hd, honce, hwait, hsent⟩, hl.home⟩

theorem Scanning.nextLock {l : Lock}
    {r : Except ScanError Outcome × Session MemoryFilter × World Bench}
    (ht : 0 < tolerance) (h : Scanning kind tolerance listed visited r.2.1 r.2.2)
    (hl : nextLock kind o r = some (l, s, w)) : Onward kind tolerance listed visited l s w := by
  unfold Session.nextLock at hl
  split at hl
  · next s₀ w₀ =>
    split at hl
    · next s₁ w₁ hr =>
      simp only [Option.some.injEq, Prod.mk.injEq] at hl
      obtain ⟨rfl, rfl, rfl⟩ := hl
      have h₀ : Scanning kind tolerance listed visited s₀
          (w₀.tell (.debug s!"{s₀.network.pending.length} transponders pending")) :=
        ⟨h.orderly, h.once, h.waiting, h.sent⟩
      exact h₀.tuneNext ht hr
    · cases hl
  · cases hl

/-- No two visits are near each other, whatever locks on alternate frequencies come between. -/
theorem locks_apart (ht : 0 < tolerance) (hs : Sorted tolerance listed) (passes tunings : Nat)
    (h : Scanning kind tolerance listed visited s w) :
    (visited ++ visits (locks kind o passes tunings s w)).Pairwise
      fun f g => ¬ Near tolerance f g := by
  induction tunings generalizing visited s w with
  | zero => simpa [locks, visits] using h.orderly.visitedApart
  | succ tunings ih =>
    have hscan := h.scanTransponder (o := o) hs passes
    unfold locks
    cases hl : Session.nextLock kind o
        (s.scanTransponder demuxDevice (frontendDevice kind) o passes w) with
    | none => simpa [visits] using h.orderly.visitedApart
    | some next =>
      obtain ⟨l, s', w'⟩ := next
      obtain ⟨hold, hnew, -⟩ := hscan.nextLock ht hl
      dsimp only
      by_cases hd : l.IsDirect
      · rw [visits_cons_direct hd, List.append_cons]
        exact ih (hnew hd)
      · rw [visits_cons_detour hd]
        exact ih hold

theorem detours_locks (hk : kind ≠ .terrestrial) (ht : 0 < tolerance) (hs : Sorted tolerance listed)
    (passes tunings : Nat) (h : Scanning kind tolerance listed visited s w) :
    detours (locks kind o passes tunings s w) = 0 := by
  induction tunings generalizing s w with
  | zero => rfl
  | succ tunings ih =>
    have hscan := h.scanTransponder (o := o) hs passes
    unfold locks
    cases hl : Session.nextLock kind o
        (s.scanTransponder demuxDevice (frontendDevice kind) o passes w) with
    | none => rfl
    | some next =>
      obtain ⟨l, s', w'⟩ := next
      obtain ⟨hold, -, hhome⟩ := hscan.nextLock ht hl
      exact (detours_cons_direct (hhome hk)).trans (ih hold)

theorem scanPending_succ (passes tunings : Nat) (s : Session MemoryFilter) (w : World Bench) :
    s.scanPending demuxDevice (frontendDevice kind) o passes (tunings + 1) w =
      match Session.nextLock kind o
        (s.scanTransponder demuxDevice (frontendDevice kind) o passes w) with
      | some (_, s, w) => s.scanPending demuxDevice (frontendDevice kind) o passes tunings w
      | none => ending kind o
        (s.scanTransponder demuxDevice (frontendDevice kind) o passes w) := by
  rw [scanPending]
  generalize s.scanTransponder demuxDevice (frontendDevice kind) o passes w = r
  obtain ⟨_ | outcome, s₀, w₀⟩ := r
  · rfl
  · cases outcome with
    | completed =>
      unfold Session.nextLock ending
      dsimp only
      rcases s₀.tuneNext (frontendDevice kind) o
        (w₀.tell (.debug s!"{s₀.network.pending.length} transponders pending"))
        with ⟨_ | _, s₁, w₁⟩
      · rfl
      · rfl
    | interrupted => rfl
    | unfinished => rfl

theorem ending_finished {r : Except ScanError Outcome × Session MemoryFilter × World Bench}
    (h : r.1 ≠ .ok .unfinished) : (ending kind o r).1 ≠ .ok .unfinished := by
  obtain ⟨_ | outcome, s₀, w₀⟩ := r
  · exact h
  · cases outcome with
    | completed =>
      unfold ending ended
      dsimp only
      split <;> simp
    | interrupted => exact h
    | unfinished => exact h

/-- A scan either ends or goes on to lock on alternate frequencies: every other lock is a visit, and
there are no more visits than listed frequencies. -/
theorem scanPending_ends_or (hp : 0 < o.pollInterval) (ht : 0 < tolerance)
    (hs : Sorted tolerance listed) (m : Nat) (h : Scanning kind tolerance listed visited s w) :
    ∃ N, ∀ passes ≥ N, ∀ tunings ≥ N,
      (s.scanPending demuxDevice (frontendDevice kind) o passes tunings w).1 ≠ .ok .unfinished ∨
        m ≤ detours (locks kind o passes tunings s w) := by
  induction hr : m + (listed.length - visited.length) using Nat.strong_induction_on
    generalizing m visited s w with
  | _ _ ih =>
    subst hr
    cases m with
    | zero => exact ⟨0, fun _ _ _ _ => .inr (Nat.zero_le _)⟩
    | succ m =>
      obtain ⟨N, r, hfin, hN⟩ :=
        scanTransponder_ends (frontendDevice kind) hp w h.once
      have hscan := h.scanTransponder (o := o) hs N
      rw [hN N (Nat.le_refl N)] at hscan
      cases hl : Session.nextLock kind o r with
      | none =>
        refine ⟨N + 1, fun passes hpass tunings htun => .inl ?_⟩
        obtain ⟨t, rfl⟩ := Nat.exists_eq_add_of_le' (Nat.le_trans (Nat.le_add_left 1 N) htun)
        rw [scanPending_succ, hN passes (Nat.le_of_succ_le hpass), hl]
        exact ending_finished hfin
      | some next =>
        obtain ⟨l, s', w'⟩ := next
        obtain ⟨hold, hnew, -⟩ := hscan.nextLock ht hl
        -- A visit leaves one listed frequency less, a detour is one of those that are counted.
        have hrest : ∃ N', ∀ passes ≥ N', ∀ tunings ≥ N',
            (s'.scanPending demuxDevice (frontendDevice kind) o passes tunings w').1 ≠
                .ok .unfinished ∨
              m + 1 ≤ detours (l :: locks kind o passes tunings s' w') := by
          by_cases hd : l.IsDirect
          · have hlt := Nat.add_lt_add_left ((hnew hd).orderly.unvisited_lt ht) (m + 1)
            obtain ⟨N', hN'⟩ := ih _ hlt (m + 1) (hnew hd) rfl
            refine ⟨N', fun passes hpass tunings htun => ?_⟩
            rw [detours_cons_direct hd]
            exact hN' passes hpass tunings htun
          · have hlt : m + (listed.length - visited.length) <
                m + 1 + (listed.length - visited.length) := by omega
            obtain ⟨N', hN'⟩ := ih _ hlt m hold rfl
            refine ⟨N', fun passes hpass tunings htun => ?_⟩
            rw [detours_cons_detour hd]
            exact (hN' passes hpass tunings htun).imp_right Nat.succ_le_succ
        obtain ⟨N', hN'⟩ := hrest
        refine ⟨max N N' + 1, fun passes hpass tunings htun => ?_⟩
        obtain ⟨t, rfl⟩ := Nat.exists_eq_add_of_le'
          (Nat.le_trans (Nat.le_add_left 1 (max N N')) htun)
        have hp' : N ≤ passes := by omega
        rw [scanPending_succ, locks, hN passes hp', hl]
        exact hN' passes (by omega) t (by omega)

theorem length_locks_le (passes tunings : Nat) (s : Session MemoryFilter) (w : World Bench) :
    (locks kind o passes tunings s w).length ≤ tunings := by
  induction tunings generalizing s w with
  | zero => exact Nat.le_refl 0
  | succ tunings ih =>
    unfold locks
    split
    · exact Nat.succ_le_succ (ih _ _)
    · exact Nat.zero_le _

theorem scanPending_stable {passes passes' tunings tunings' : Nat}
    (h : (s.scanPending demuxDevice (frontendDevice kind) o passes tunings w).1 ≠ .ok .unfinished)
    (hp : passes ≤ passes') (ht : tunings ≤ tunings') :
    s.scanPending demuxDevice (frontendDevice kind) o passes' tunings' w =
        s.scanPending demuxDevice (frontendDevice kind) o passes tunings w ∧
      locks kind o passes' tunings' s w = locks kind o passes tunings s w := by
  induction tunings generalizing s w tunings' with
  | zero => simp [scanPending] at h
  | succ tunings ih =>
    obtain ⟨t, rfl⟩ := Nat.exists_eq_add_of_le' (Nat.le_trans (Nat.le_add_left 1 tunings) ht)
    rw [scanPending_succ] at h
    have hfin : (s.scanTransponder demuxDevice (frontendDevice kind) o passes w).1 ≠
        .ok .unfinished := by
      intro hu
      rcases hr : s.scanTransponder demuxDevice (frontendDevice kind) o passes w with ⟨r, s₀, w₀⟩
      rw [hr] at h hu
      obtain rfl : r = .ok .unfinished := hu
      exact h rfl
    rw [scanPending_succ, scanPending_succ, locks, locks, scanTransponder_stable hfin hp]
    cases hl : Session.nextLock kind o
        (s.scanTransponder demuxDevice (frontendDevice kind) o passes w) with
    | none => exact ⟨rfl, rfl⟩
    | some next =>
      rw [hl] at h
      obtain ⟨hsame, hlocks⟩ := ih h (Nat.le_of_succ_le_succ ht)
      exact ⟨hsame, congrArg _ hlocks⟩

theorem detours_le_of_ends {N : Nat} (l : Lock)
    (h : (s.scanPending demuxDevice (frontendDevice kind) o N N w).1 ≠ .ok .unfinished)
    (budget : Nat) : detours (l :: locks kind o budget budget s w) ≤ N + 1 := by
  have hshort {b : Nat} (hb : b ≤ N) : detours (l :: locks kind o b b s w) ≤ N + 1 := by
    refine Nat.le_trans List.countP_le_length ?_
    rw [List.length_cons]
    exact Nat.succ_le_succ (Nat.le_trans (length_locks_le b b s w) hb)
  rcases Nat.le_total budget N with hb | hb
  · exact hshort hb
  · rw [(scanPending_stable h hb hb).2]
    exact hshort (Nat.le_refl N)

theorem ends_of_detours_le (hp : 0 < o.pollInterval) (ht : 0 < tolerance)
    (hs : Sorted tolerance listed) (h : Scanning kind tolerance listed visited s w) {m : Nat}
    (hm : ∀ budget, detours (locks kind o budget budget s w) ≤ m) :
    ∃ N r, r.1 ≠ .ok .unfinished ∧ ∀ budget ≥ N,
      s.scanPending demuxDevice (frontendDevice kind) o budget budget w = r := by
  obtain ⟨N, hN⟩ := scanPending_ends_or hp ht hs (m + 1) h
  have hend : (s.scanPending demuxDevice (frontendDevice kind) o N N w).1 ≠ .ok .unfinished := by
    refine (hN N (Nat.le_refl N) N (Nat.le_refl N)).resolve_right fun hmany => ?_
    exact Nat.not_succ_le_self m (Nat.le_trans hmany (hm N))
  exact ⟨N, _, hend, fun budget hb => (scanPending_stable hend hb hb).1⟩

theorem scanNetwork_of_locked {initial : List InitialList.Entry}
    (hr : Session.tuneNext (frontendDevice kind) o
      { s with network := InitialList.load initial s.network }
      (w.tellAll (InitialList.loadNotes initial)) = (true, s', w')) (budget : Nat) :
    s.scanNetwork demuxDevice (frontendDevice kind) o budget initial w =
        s'.scanPending demuxDevice (frontendDevice kind) o budget budget w' ∧
      networkLocks kind o budget initial s w =
        lockOf (InitialList.load initial s.network) s'.network ::
          locks kind o budget budget s' w' := by
  unfold scanNetwork networkLocks
  dsimp only
  rw [hr]
  exact ⟨rfl, rfl⟩

theorem scanNetwork_of_unlocked {initial : List InitialList.Entry}
    (hr : Session.tuneNext (frontendDevice kind) o
      { s with network := InitialList.load initial s.network }
      (w.tellAll (InitialList.loadNotes initial)) = (false, s', w')) :
    (∃ r, r.1 ≠ .ok .unfinished ∧
      ∀ budget, s.scanNetwork demuxDevice (frontendDevice kind) o budget initial w = r) ∧
      ∀ budget, networkLocks kind o budget initial s w = [] := by
  unfold scanNetwork networkLocks
  dsimp only
  rw [hr]
  dsimp only
  by_cases hi : w'.interrupted = true
  · rw [if_pos hi]
    exact ⟨⟨_, by simp, fun _ => rfl⟩, fun _ => rfl⟩
  · rw [if_neg hi]
    exact ⟨⟨_, by simp, fun _ => rfl⟩, fun _ => rfl⟩

def fresh (tolerance : Nat) (inversion : Inversion) (limit : Nat) : Session MemoryFilter :=
  { network := { tolerance, inversion }, scheduler := .ofLimit limit }

theorem scanning_fresh (ht : 0 < tolerance) (inversion : Inversion) (limit : Nat)
    {initial : List InitialList.Entry}
    (ha : (initial.map (·.frequency)).Pairwise fun f g => ¬ Near tolerance f g)
    (hs : Sorted tolerance (listedFrequencies kind initial w.device.demux.multiplexes))
    (hr : Session.tuneNext (frontendDevice kind) o
      { fresh tolerance inversion limit with
        network := InitialList.load initial { tolerance, inversion } }
      (w.tellAll (InitialList.loadNotes initial)) = (true, s', w')) :
    Onward kind tolerance (listedFrequencies kind initial w.device.demux.multiplexes) []
      (lockOf (InitialList.load initial { tolerance, inversion }) s'.network) s' w' := by
  have ho := orderly_load hs inversion
    (fun _ he => List.mem_append_left _ (List.mem_map_of_mem he)) ha
  obtain ⟨hsch, hl⟩ := tuneNext_spec ht ho hr
  have honce : Every Once s'.scheduler := hsch ▸ every_of_isIdle rfl
  have hsent (frequency : Nat) (q : Queued)
      (hq : q ∈ Queued.ofMultiplex w'.device.demux.multiplexes frequency) :
      ∀ f ∈ described kind q.arrival,
        f ∈ listedFrequencies kind initial w.device.demux.multiplexes := by
    rw [hl.multiplexes, device_tellAll] at hq
    exact fun f hf => listed_of_described hq hf
  have hwait : ∀ q ∈ w'.device.demux.queue, ∀ f ∈ described kind q.arrival,
      f ∈ listedFrequencies kind initial w.device.demux.multiplexes := by
    rw [hl.sends]
    exact hsent _
  exact ⟨⟨hl.orderly, honce, hwait, hsent⟩, fun hd => ⟨hl.direct hd, honce, hwait, hsent⟩, hl.home⟩

/-- No two transponders are locked near each other unless one of them is found elsewhere than where
it is listed, and a scan ends exactly if that happens finitely often. On satellite and cable it
never happens. -/
theorem scanNetwork_ends_iff_detours (hp : 0 < o.pollInterval) (ht : 0 < tolerance)
    (inversion : Inversion) (limit : Nat) {initial : List InitialList.Entry} (w : World Bench)
    (ha : (initial.map (·.frequency)).Pairwise fun f g => ¬ Near tolerance f g)
    (hs : Sorted tolerance (listedFrequencies kind initial w.device.demux.multiplexes)) :
    let s := fresh tolerance inversion limit
    ((∃ N r, r.1 ≠ .ok .unfinished ∧ ∀ budget ≥ N,
        s.scanNetwork demuxDevice (frontendDevice kind) o budget initial w = r) ↔
      ∃ m, ∀ budget, detours (networkLocks kind o budget initial s w) ≤ m) ∧
    (∀ budget, (networkLocks kind o budget initial s w).Pairwise fun a b =>
      Near tolerance a.frequency b.frequency → ¬ a.IsDirect ∨ ¬ b.IsDirect) ∧
    (kind ≠ .terrestrial → ∀ budget, detours (networkLocks kind o budget initial s w) = 0) := by
  dsimp only
  rcases hr : Session.tuneNext (frontendDevice kind) o
      { fresh tolerance inversion limit with
        network := InitialList.load initial { tolerance, inversion } }
      (w.tellAll (InitialList.loadNotes initial)) with ⟨_ | _, s', w'⟩
  · obtain ⟨⟨r, hfin, hrun⟩, hnone⟩ :=
      scanNetwork_of_unlocked (s := fresh tolerance inversion limit) hr
    refine ⟨⟨fun _ => ⟨0, fun budget => ?_⟩, fun _ => ⟨0, r, hfin, fun budget _ => hrun budget⟩⟩,
      fun budget => ?_, fun _ budget => ?_⟩
    · rw [hnone]
      exact Nat.le_refl 0
    · rw [hnone]
      exact .nil
    · rw [hnone]
      rfl
  obtain ⟨hold, hnew, hhome⟩ := scanning_fresh ht inversion limit ha hs hr
  have hrun := scanNetwork_of_locked (s := fresh tolerance inversion limit) hr
  generalize hl : lockOf (InitialList.load initial { tolerance, inversion }) s'.network = l
    at hnew hhome
  have hlocks (budget : Nat) :
      networkLocks kind o budget initial (fresh tolerance inversion limit) w =
        l :: locks kind o budget budget s' w' := hl ▸ (hrun budget).2
  refine ⟨⟨fun ⟨N, r, hfin, hN⟩ => ⟨N + 1, fun budget => ?_⟩, fun ⟨m, hm⟩ => ?_⟩,
    fun budget => ?_, fun hk budget => ?_⟩
  · have hend : (s'.scanPending demuxDevice (frontendDevice kind) o N N w').1 ≠
        .ok .unfinished := by
      rw [← (hrun N).1, hN N (Nat.le_refl N)]
      exact hfin
    rw [hlocks]
    exact detours_le_of_ends l hend budget
  · have hfew (budget : Nat) : detours (locks kind o budget budget s' w') ≤ m := by
      have hcons := (List.sublist_cons_self l (locks kind o budget budget s' w')).countP_le
        (p := fun l => ¬ l.IsDirect)
      exact Nat.le_trans hcons (hlocks budget ▸ hm budget)
    obtain ⟨N, r, hfin, hN⟩ := ends_of_detours_le hp ht hs hold hfew
    exact ⟨N, r, hfin, fun budget hb => (hrun budget).1.trans (hN budget hb)⟩
  · rw [hlocks]
    refine pairwise_of_visits ?_
    by_cases hd : l.IsDirect
    · rw [visits_cons_direct hd]
      exact locks_apart ht hs budget budget (hnew hd)
    · rw [visits_cons_detour hd]
      exact locks_apart ht hs budget budget hold
  · rw [hlocks, detours_cons_direct (hhome hk)]
    exact detours_locks hk ht hs budget budget hold

/-! ### A table that is read where it sends the scan

The table lists a multiplex at 514 MHz, which may also be found at 522 MHz. It is sent at 506 MHz
and at 522 MHz, and 514 MHz locks only at the third look. -/

def relistingTable : Bytes :=
  [64, 240, 39, 0, 1, 193, 0, 0, 240, 0, 240, 26, 0, 7, 0, 1, 240, 20,
    90, 11, 3, 16, 77, 64, 31, 129, 3, 255, 255, 255, 255, 98, 5, 255, 3, 28, 130, 64, 0, 0, 0, 0]

def benchOf (table : Bytes) (frequencies : List Nat) (lockAfter : List (Nat × Nat)) :
    World Bench where
  device := {
    demux := { multiplexes := frequencies.map fun f => (f, [(Nit.pid, table)]) }
    frontend := { lockAfter } }

def relistingBench : World Bench :=
  benchOf relistingTable [506000000, 522000000] [(506000000, 1), (522000000, 1), (514000000, 3)]

def relistingList : List InitialList.Entry :=
  [{ frequency := 506000000
     delivery := .terrestrial {
       bandwidth := .mhz8, codeRateHigh := .r2_3, codeRateLow := .none, constellation := .qam64,
       mode := .mode8k, guardInterval := .g1_32, hierarchy := .none, otherFrequency := false } }]

def relistingOptions : ScanOptions where
  timeouts := { pat := 1000, sdt := 1000, nit := 1000, pmt := 1000 }
  pollInterval := 1000
  tune := { attempts := 1, lockPolls := 1, lockDelay := 0 }
  readNit := true
  readOtherNits := false
  channelNumbers := false

theorem scanNetwork_ends_iff_detours_relisting :
    let s := fresh 2000 .auto 32
    let locksOf (budget : Nat) :=
      networkLocks .terrestrial relistingOptions budget relistingList s relistingBench
    0 < relistingOptions.pollInterval ∧ 0 < 2000 ∧
    ((relistingList.map (·.frequency)).Pairwise fun f g => ¬ Near 2000 f g) ∧
    Sorted 2000 (listedFrequencies .terrestrial relistingList
      relistingBench.device.demux.multiplexes) ∧
    ((∃ N r, r.1 ≠ .ok .unfinished ∧ ∀ budget ≥ N, s.scanNetwork demuxDevice
        (frontendDevice .terrestrial) relistingOptions budget relistingList relistingBench = r) ↔
      ∃ m, ∀ budget, detours (locksOf budget) ≤ m) ∧
    ∀ budget, (locksOf budget).Pairwise fun a b =>
      Near 2000 a.frequency b.frequency → ¬ a.IsDirect ∨ ¬ b.IsDirect := by
  have ha : (relistingList.map (·.frequency)).Pairwise fun f g => ¬ Near 2000 f g :=
    List.pairwise_singleton _ _
  have hl : listedFrequencies .terrestrial relistingList
      relistingBench.device.demux.multiplexes = [506000000, 514000000, 514000000] := by
    decide +kernel
  have hs : Sorted 2000 (listedFrequencies .terrestrial relistingList
      relistingBench.device.demux.multiplexes) := by
    rw [hl]
    unfold Sorted Near
    decide
  have hp : 0 < relistingOptions.pollInterval := by decide
  obtain ⟨hends, hmeet, -⟩ :=
    scanNetwork_ends_iff_detours hp (by decide) .auto 32 relistingBench ha hs
  exact ⟨hp, by decide, ha, hs, hends, hmeet⟩

/-- At 522 MHz the listed frequency has been forgotten, so that the multiplex there is scanned
again. -/
theorem networkLocks_relisting :
    ¬ (networkLocks .terrestrial relistingOptions 10 relistingList (fresh 2000 .auto 32)
      relistingBench).Pairwise fun a b => a.frequency ≠ b.frequency := by
  have hlocks : networkLocks .terrestrial relistingOptions 10 relistingList (fresh 2000 .auto 32)
      relistingBench = [⟨506000000, 506000000⟩, ⟨514000000, 522000000⟩,
        ⟨514000000, 522000000⟩, ⟨514000000, 514000000⟩] := by
    decide +kernel
  rw [hlocks]
  decide

/-- The frequencies 506, 506.0015, 506.003 and again 506 MHz are listed. Closeness is not transitive
among them, and the transponder is led away from the frequency on which it was scanned. -/
def driftingTable : Bytes :=
  [64, 240, 70, 0, 1, 193, 0, 0, 240, 0, 240, 57,
    0, 1, 0, 1, 240, 13, 90, 11, 3, 4, 24, 214, 31, 129, 2, 255, 255, 255, 255,
    0, 2, 0, 1, 240, 13, 90, 11, 3, 4, 25, 108, 31, 129, 2, 255, 255, 255, 255,
    0, 3, 0, 1, 240, 13, 90, 11, 3, 4, 24, 64, 31, 129, 2, 255, 255, 255, 255, 0, 0, 0, 0]

example : networkLocks .terrestrial relistingOptions 10 relistingList (fresh 2000 .auto 32)
    (benchOf driftingTable [506000000] [(506000000, 1)]) =
      [⟨506000000, 506000000⟩, ⟨506000000, 506000000⟩] := by
  decide +kernel

end Bandscan.Session
