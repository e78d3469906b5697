import Bandscan.Proofs.SchedulerSteps
/-!
A scheduler that is the only user of a demux never leaks a filter, keeps its filters in the order
of their arrival and leaves no slot idle while a filter waits. `Pool` is kept by everything that
starts or stops a filter. `Kept` adds that nothing waits beside a free slot, which only the calls
as a whole keep.
-/

namespace Bandscan.Scheduler

open Bench

variable {limit : Nat} {capacity : Option Nat} {s : Scheduler MemoryFilter} {d : MemoryDemux}

def ids (s : Scheduler MemoryFilter) : List Nat :=
  s.running.map (·.id) ++ s.waiting.map (·.1)

def serials (s : Scheduler MemoryFilter) : List Nat := s.running.map (·.handle.serial)

/-- Ids increase, the pool is within its bounds, and the filters of the pool are exactly those that
are open in the device. -/
structure Pool (limit : Nat) (capacity : Option Nat) (s : Scheduler MemoryFilter)
    (d : MemoryDemux) : Prop where
  ids : s.ids.Pairwise (· < ·)
  issued : ∀ id ∈ s.ids, id ≤ s.lastId
  limited : s.maxRunning = max 1 limit
  room : s.running.length ≤ max 1 limit
  fixed : d.capacity = capacity
  fits : ∀ c, capacity = some c → s.running.length ≤ c
  active : d.active = s.running.length
  distinct : s.serials.Nodup
  live : ∀ n ∈ s.serials, n < d.opened.length ∧ n ∉ d.stopped
  past : ∀ n ∈ d.stopped, n < d.opened.length

structure Kept (limit : Nat) (capacity : Option Nat) (s : Scheduler MemoryFilter)
    (d : MemoryDemux) : Prop extends Pool limit capacity s d where
  busy : s.waiting ≠ [] → s.hasNoSlot d = true

/-- What a demux knows of its filters. -/
def ledger (d : MemoryDemux) : Option Nat × Nat × List (Nat × Nat) × List Nat :=
  (d.capacity, d.active, d.opened, d.stopped)

theorem Pool.demux {d' : MemoryDemux} (h : Pool limit capacity s d) (hd : ledger d' = ledger d) :
    Pool limit capacity s d' := by
  obtain ⟨hc, ha, ho, hs⟩ : d'.capacity = d.capacity ∧ d'.active = d.active ∧
      d'.opened = d.opened ∧ d'.stopped = d.stopped := by simpa [ledger] using hd
  exact { h with
    fixed := hc ▸ h.fixed
    active := ha ▸ h.active
    live := by rw [ho, hs]; exact h.live
    past := by rw [ho, hs]; exact h.past }

theorem Kept.demux {d' : MemoryDemux} (h : Kept limit capacity s d) (hd : ledger d' = ledger d) :
    Kept limit capacity s d' where
  toPool := h.toPool.demux hd
  busy hw := by
    obtain ⟨hc, ha, -⟩ : d'.capacity = d.capacity ∧ d'.active = d.active ∧ _ ∧ _ := by
      simpa [ledger] using hd
    rw [hasNoSlot, hc, ha]
    exact h.busy hw

theorem Kept.running {running : List (RunningFilter MemoryFilter)} (h : Kept limit capacity s d)
    (hr : running.map (fun f => (f.id, f.handle)) = s.running.map (fun f => (f.id, f.handle))) :
    Kept limit capacity { s with running } d := by
  have hid : running.map (·.id) = s.running.map (·.id) := by
    simpa only [List.map_map, Function.comp_def] using congrArg (List.map Prod.fst) hr
  have hse : running.map (·.handle.serial) = s.running.map (·.handle.serial) := by
    simpa only [List.map_map, Function.comp_def] using congrArg (List.map fun p => p.2.serial) hr
  have hl : running.length = s.running.length := by
    simpa only [List.length_map] using congrArg List.length hr
  have hids : ids { s with running } = s.ids := by simp only [ids, hid]
  have hses : serials { s with running } = s.serials := hse
  exact {
    ids := hids ▸ h.ids
    issued := hids ▸ h.issued
    limited := h.limited
    room := hl ▸ h.room
    fixed := h.fixed
    fits := hl ▸ h.fits
    active := hl ▸ h.active
    distinct := hses ▸ h.distinct
    live := hses ▸ h.live
    past := h.past
    busy := fun hw => by
      have hb := h.busy hw
      simpa only [hasNoSlot, isFull, hl] using hb }

theorem Pool.waiting {ws : List (Nat × FilterSpec)} (h : Pool limit capacity s d)
    (hw : ws.Sublist s.waiting) : Pool limit capacity { s with waiting := ws } d := by
  have hids : (Scheduler.ids { s with waiting := ws }).Sublist s.ids :=
    List.Sublist.append_left (hw.map _) _
  exact { h with
    ids := h.ids.sublist hids
    issued := fun id hid => h.issued id (hids.subset hid) }

theorem Pool.enqueue (f : FilterSpec) (h : Pool limit capacity s d) :
    Pool limit capacity
      { s with lastId := s.lastId + 1, waiting := s.waiting ++ [(s.lastId + 1, f)] } d := by
  have hids : Scheduler.ids
      { s with lastId := s.lastId + 1, waiting := s.waiting ++ [(s.lastId + 1, f)] } =
        s.ids ++ [s.lastId + 1] := by
    simp [Scheduler.ids]
  exact { h with
    ids := by
      rw [hids, List.pairwise_append]
      refine ⟨h.ids, List.pairwise_singleton _ _, fun a ha b hb => ?_⟩
      obtain rfl := List.mem_singleton.1 hb
      exact Nat.lt_succ_of_le (h.issued a ha)
    issued := fun id hid => by
      rw [hids] at hid
      rcases List.mem_append.1 hid with hid | hid
      · exact Nat.le_succ_of_le (h.issued id hid)
      · exact Nat.le_of_eq (List.mem_singleton.1 hid) }

theorem running_lt (hl : s.maxRunning = max 1 limit) (hs : s.hasNoSlot d = false) :
    s.running.length < max 1 limit := by
  have hf : s.isFull = false := (Bool.or_eq_false_iff.1 hs).1
  rw [← hl]
  exact Nat.lt_of_not_le (of_decide_eq_false hf)

theorem active_lt {c : Nat} (hc : d.capacity = some c) (hs : s.hasNoSlot d = false) :
    d.active < c := by
  have hf := (Bool.or_eq_false_iff.1 hs).2
  rw [hc] at hf
  exact Nat.lt_of_not_le (of_decide_eq_false hf)

theorem Pool.start {id : Nat} {f : FilterSpec} {ws : List (Nat × FilterSpec)} {w : World Bench}
    (h : Pool limit capacity { s with waiting := (id, f) :: ws } w.device.demux)
    (hs : s.hasNoSlot w.device.demux = false) :
    Pool limit capacity { s with running := s.running ++ [started id f w], waiting := ws }
      (afterStart f w).device.demux := by
  have hids : Scheduler.ids { s with running := s.running ++ [started id f w], waiting := ws } =
      Scheduler.ids { s with waiting := (id, f) :: ws } := by
    simp [Scheduler.ids, started]
  have hser : Scheduler.serials
      { s with running := s.running ++ [started id f w], waiting := ws } =
        s.serials ++ [w.device.demux.opened.length] := by
    simp [Scheduler.serials, started]
  have hlen : (s.running ++ [started id f w]).length = s.running.length + 1 := by simp
  have hopen : (afterStart f w).device.demux.opened.length =
      w.device.demux.opened.length + 1 := by
    simp [afterStart, setDemux, World.tell]
  exact {
    ids := hids ▸ h.ids
    issued := hids ▸ h.issued
    limited := h.limited
    room := hlen ▸ running_lt h.limited hs
    fixed := h.fixed
    fits := fun c hc => by
      have := active_lt (h.fixed.trans hc) hs
      have ha : w.device.demux.active = s.running.length := h.active
      rw [hlen]
      omega
    active := (congrArg (· + 1) h.active).trans hlen.symm
    distinct := by
      rw [hser, List.nodup_append]
      refine ⟨h.distinct, by simp, fun n hn m hm => ?_⟩
      obtain rfl := List.mem_singleton.1 hm
      exact Nat.ne_of_lt (h.live n hn).1
    live := fun n hn => by
      rw [hser] at hn
      rw [hopen]
      rcases List.mem_append.1 hn with hn | hn
      · exact ⟨Nat.lt_succ_of_lt (h.live n hn).1, (h.live n hn).2⟩
      · obtain rfl := List.mem_singleton.1 hn
        exact ⟨Nat.lt_succ_self _, fun hm => Nat.lt_irrefl _ (h.past _ hm)⟩
    past := fun n hn => hopen ▸ Nat.lt_succ_of_lt (h.past n hn) }

theorem Pool.halt {f : RunningFilter MemoryFilter} {fs gs : List (RunningFilter MemoryFilter)}
    {w : World Bench} (h : Pool limit capacity s w.device.demux) (hr : s.running = fs ++ f :: gs) :
    Pool limit capacity { s with running := fs ++ gs } (halt demuxDevice f w).device.demux ∧
      f.handle.serial ∈ (halt demuxDevice f w).device.demux.stopped := by
  have hsub : (fs ++ gs).Sublist s.running := hr ▸ (List.sublist_cons_self f gs).append_left fs
  have hlen : s.running.length = (fs ++ gs).length + 1 := by
    rw [hr]
    simp
    omega
  have hlt : (fs ++ gs).length < s.running.length := hlen ▸ Nat.lt_succ_self _
  have hids : (Scheduler.ids { s with running := fs ++ gs }).Sublist s.ids :=
    (hsub.map _).append_right _
  have hsers : (Scheduler.serials { s with running := fs ++ gs }).Sublist s.serials :=
    hsub.map _
  have hmem : f.handle.serial ∈ s.serials := by simp [Scheduler.serials, hr]
  have hout : f.handle.serial ∉ Scheduler.serials { s with running := fs ++ gs } := by
    have hd := h.distinct
    simp only [Scheduler.serials, hr, List.map_append, List.map_cons] at hd ⊢
    exact (List.nodup_cons.1 (List.perm_middle.nodup_iff.1 hd)).1
  have hstop : (w.device.demux.stop f.handle).2 = { w.device.demux with
      active := w.device.demux.active - 1
      stopped := f.handle.serial :: w.device.demux.stopped } := by
    have hc : ¬ w.device.demux.stopped.contains f.handle.serial := by
      simpa using (h.live _ hmem).2
    rw [MemoryDemux.stop, if_neg hc]
  obtain ⟨j, hh⟩ := halt_eq f w
  have hd : (Scheduler.halt demuxDevice f w).device.demux = (w.device.demux.stop f.handle).2 := by
    rw [hh]
    rfl
  rw [hd, hstop]
  refine ⟨{
    ids := h.ids.sublist hids
    issued := fun id hid => h.issued id (hids.subset hid)
    limited := h.limited
    room := Nat.le_trans (Nat.le_of_lt hlt) h.room
    fixed := h.fixed
    fits := fun c hc => Nat.le_trans (Nat.le_of_lt hlt) (h.fits c hc)
    active := congrArg (· - 1) (h.active.trans hlen)
    distinct := h.distinct.sublist hsers
    live := fun n hn => ⟨(h.live n (hsers.subset hn)).1, fun hm => ?_⟩
    past := fun n hn => ?_ }, List.mem_cons_self⟩
  · rcases List.mem_cons.1 hm with rfl | hm
    · exact hout hn
    · exact (h.live n (hsers.subset hn)).2 hm
  · rcases List.mem_cons.1 hn with rfl | hn
    · exact (h.live _ hmem).1
    · exact h.past n hn

theorem close_of_stopped {f : MemoryFilter} {w : World Bench}
    (h : f.serial ∈ w.device.demux.stopped) : demuxDevice.close f w = w := by
  have hc : w.device.demux.stopped.contains f.serial = true := by simpa using h
  rw [close_eq, MemoryDemux.stop, if_pos hc]
  rfl

/-- Once the waiting filters have had their turn, no slot is free beside one that waits. -/
theorem Kept.promoteFrom {ws : List (Nat × FilterSpec)} {w : World Bench}
    (h : Pool limit capacity { s with waiting := ws } w.device.demux) :
    Kept limit capacity (promoteFrom demuxDevice ws s w).1
      (promoteFrom demuxDevice ws s w).2.device.demux := by
  induction ws generalizing s w with
  | nil => exact { h with busy := fun hw => absurd rfl hw }
  | cons p ws ih =>
    rcases promoteFrom_cases p.1 p.2 ws s w with ⟨hs, he⟩ | ⟨hs, note, he⟩ | ⟨hs, he⟩ <;> rw [he]
    · exact { h with busy := fun _ => hs }
    · exact ih (h.waiting (List.sublist_cons_self p ws))
    · exact ih (h.start hs)

theorem promoteFrom_stopped (ws : List (Nat × FilterSpec)) (s : Scheduler MemoryFilter)
    (w : World Bench) :
    (promoteFrom demuxDevice ws s w).2.device.demux.stopped = w.device.demux.stopped := by
  induction ws generalizing s w with
  | nil => rfl
  | cons p ws ih =>
    rcases promoteFrom_cases p.1 p.2 ws s w with ⟨-, h⟩ | ⟨-, note, h⟩ | ⟨-, h⟩ <;> rw [h]
    · exact ih _ _
    · exact ih _ _

theorem Kept.skip (h : Kept limit capacity s d) :
    Kept limit capacity { s with lastId := s.lastId + 1 } d :=
  { h with issued := fun id hid => Nat.le_succ_of_le (h.issued id hid) }

/-- A new filter starts in a free slot. Nothing waits there, so that it overtakes nobody. -/
theorem Kept.startNext (f : FilterSpec) {w : World Bench}
    (h : Kept limit capacity s w.device.demux) (hs : s.hasNoSlot w.device.demux = false) :
    Kept limit capacity { s with
      lastId := s.lastId + 1, running := s.running ++ [started (s.lastId + 1) f w] }
      (afterStart f w).device.demux := by
  have hw : s.waiting = [] := by
    by_contra hw
    simp [h.busy hw] at hs
  have hp := h.toPool.enqueue f
  rw [hw, List.nil_append] at hp
  have hp := Pool.start (s := { s with lastId := s.lastId + 1 }) hp hs
  rw [← hw] at hp
  exact { hp with busy := fun hn => absurd hw hn }

theorem Kept.add (f : FilterSpec) {w : World Bench} (h : Kept limit capacity s w.device.demux) :
    Kept limit capacity (add demuxDevice f s w).2.1
      (add demuxDevice f s w).2.2.device.demux := by
  rcases add_cases f s w with ⟨hs, note, he⟩ | ⟨hs, note, he⟩ | ⟨hs, he⟩ <;> rw [he]
  · exact { h.toPool.enqueue f with busy := fun _ => hs }
  · exact h.skip
  · exact h.startNext f hs

theorem Kept.install (f : FilterSpec) {w : World Bench}
    (h : Kept limit capacity s w.device.demux) :
    Kept limit capacity (install demuxDevice f s w).2.1
      (install demuxDevice f s w).2.2.device.demux := by
  rcases install_cases f s w with ⟨e, he⟩ | ⟨hs, he⟩ <;> rw [he]
  · exact h.skip
  · exact h.startNext f hs

theorem Kept.addAll (fs : List FilterSpec) {w : World Bench}
    (h : Kept limit capacity s w.device.demux) :
    Kept limit capacity (addAll demuxDevice fs s w).1
      (addAll demuxDevice fs s w).2.device.demux := by
  induction fs generalizing s w with
  | nil => exact h
  | cons f fs ih => exact ih (h.add f)

theorem Kept.remove (id : Nat) {w : World Bench} (h : Kept limit capacity s w.device.demux) :
    Kept limit capacity (remove demuxDevice id s w).2.1
      (remove demuxDevice id s w).2.2.device.demux := by
  unfold Scheduler.remove
  cases hf : s.running.find? (·.id = id) with
  | none =>
    refine { h.toPool.waiting List.eraseP_sublist with busy := fun hw => h.busy ?_ }
    rintro he
    exact hw (by simp [he])
  | some f =>
    obtain ⟨fs, gs, hr, he⟩ := exists_of_find? hf
    obtain ⟨hp, hm⟩ := h.toPool.halt hr
    dsimp only
    rw [he]
    have hk := Kept.promoteFrom (s := { s with running := fs ++ gs }) hp
    rw [← promoteFrom_stopped s.waiting { s with running := fs ++ gs }] at hm
    unfold promote
    rw [close_of_stopped hm]
    exact hk

theorem Kept.removeAll (ids : List Nat) {w : World Bench}
    (h : Kept limit capacity s w.device.demux) :
    Kept limit capacity (removeAll demuxDevice ids s w).1
      (removeAll demuxDevice ids s w).2.device.demux := by
  induction ids generalizing s w with
  | nil => exact h
  | cons id ids ih => exact ih (h.remove id)

theorem Kept.clear {w : World Bench} (h : Kept limit capacity s w.device.demux) :
    Kept limit capacity (clear demuxDevice s w).1 (clear demuxDevice s w).2.device.demux := by
  have hp : Pool limit capacity { s with waiting := [] } w.device.demux :=
    h.toPool.waiting (List.nil_sublist _)
  suffices hc : ∀ (fs : List (RunningFilter MemoryFilter)) (w : World Bench),
      Pool limit capacity { s with running := fs, waiting := [] } w.device.demux →
      Pool limit capacity { s with running := [], waiting := [] }
        (fs.foldl (fun w f => demuxDevice.close f.handle (halt demuxDevice f w))
          w).device.demux from
    { hc s.running w hp with busy := fun hw => absurd rfl hw }
  intro fs
  induction fs with
  | nil => exact fun w hp => hp
  | cons f fs ih =>
    intro w hp
    have hr : ({ s with running := f :: fs, waiting := [] } : Scheduler MemoryFilter).running =
        [] ++ f :: fs := rfl
    obtain ⟨hp, hm⟩ := hp.halt hr
    rw [List.foldl_cons, close_of_stopped hm]
    exact ih _ hp

theorem Kept.retire {w : World Bench} (h : Kept limit capacity s w.device.demux) :
    Kept limit capacity (retire demuxDevice s w).1 (retire demuxDevice s w).2.device.demux := by
  have hr : (s.running.map (renew w.time)).map (fun f => (f.id, f.handle)) =
      s.running.map (fun f => (f.id, f.handle)) := by
    rw [List.map_map]
    refine List.map_congr_left fun f _ => ?_
    simp only [Function.comp, renew]
    split <;> rfl
  have hk := h.running hr
  unfold Scheduler.retire
  refine Kept.removeAll _ ?_
  rwa [device_tellAll]

theorem Kept.promoted {w : World Bench} (h : Kept limit capacity s w.device.demux) :
    Kept limit capacity (promoted s w).1 (promoted s w).2.device.demux := by
  unfold Scheduler.promoted
  split
  · exact Kept.promoteFrom h.toPool
  · exact h

theorem Kept.reads {w w' : World Bench} (h : Kept limit capacity s w.device.demux)
    (hw : Reads w w') : Kept limit capacity s w'.device.demux := by
  obtain ⟨q, j, -, rfl⟩ := hw
  exact h.demux rfl

theorem Kept.pollOnce {η : Type} (timeout : Nat) (handle : Handler η) (x : η) {w : World Bench}
    (h : Kept limit capacity s w.device.demux) :
    Kept limit capacity (pollOnce demuxDevice timeout handle x s w).2.2.1
      (pollOnce demuxDevice timeout handle x s w).2.2.2.device.demux := by
  have hp := h.promoted
  rw [pollOnce_eq]
  rcases he : Scheduler.promoted s w with ⟨s, w⟩
  rw [he] at hp
  dsimp only at hp ⊢
  split
  · rw [device_tellAll]
    exact { hp.toPool.waiting (List.nil_sublist _) with busy := fun hw => absurd rfl hw }
  · generalize w.device.demux.ready (s.running.map (·.handle)) = ready
    have hw : Kept limit capacity s (polled timeout ready w).device.demux := by
      unfold polled
      split
      · exact hp
      · exact hp
    generalize polled timeout ready w = w at hw
    have hserved := serveAll_core handle { running := s.running, handler := x, world := w } ready
    have hr := congrArg (List.map fun c => (c.1, c.2.2.1)) hserved
    simp only [List.map_map, Function.comp_def, core] at hr
    have hk := (hw.running hr).reads
      (serveAll_reads handle { running := s.running, handler := x, world := w } ready)
    exact (hk.addAll _).retire

/-- A call on a scheduler, or what may happen to its demux between two calls. -/
inductive Operation : Type 1 where
  | add (f : FilterSpec)
  | install (f : FilterSpec)
  | remove (id : Nat)
  | clear
  | poll {η : Type} (timeout : Nat) (handle : Handler η) (handler : η)
  | arrive (q : Queued)
  | refuse (pid : Nat)
  | breakStop (failing : Bool)
  | wait (duration : Nat)

def Operation.apply (s : Scheduler MemoryFilter) (w : World Bench) :
    Operation → Scheduler MemoryFilter × World Bench
  | .add f => (Scheduler.add demuxDevice f s w).2
  | .install f => (Scheduler.install demuxDevice f s w).2
  | .remove id => (Scheduler.remove demuxDevice id s w).2
  | .clear => Scheduler.clear demuxDevice s w
  | .poll timeout handle x => (Scheduler.pollOnce demuxDevice timeout handle x s w).2.2
  | .arrive q => (s, setDemux (w.device.demux.push q) w)
  | .refuse pid => (s, setDemux (w.device.demux.failPid pid) w)
  | .breakStop failingStop => (s, setDemux { w.device.demux with failingStop } w)
  | .wait duration => (s, w.sleep duration)

def run (operations : List Operation) (s : Scheduler MemoryFilter) (w : World Bench) :
    Scheduler MemoryFilter × World Bench :=
  operations.foldl (fun p o => o.apply p.1 p.2) (s, w)

theorem Kept.apply (o : Operation) {w : World Bench} (h : Kept limit capacity s w.device.demux) :
    Kept limit capacity (o.apply s w).1 (o.apply s w).2.device.demux := by
  cases o with
  | add f => exact h.add f
  | install f => exact h.install f
  | remove id => exact h.remove id
  | clear => exact h.clear
  | poll timeout handle x => exact h.pollOnce timeout handle x
  | arrive q => exact h.demux rfl
  | refuse pid => exact h.demux rfl
  | breakStop failing => exact h.demux rfl
  | wait duration => exact h

theorem Kept.run (operations : List Operation) {w : World Bench}
    (h : Kept limit capacity s w.device.demux) :
    Kept limit capacity (run operations s w).1 (run operations s w).2.device.demux := by
  induction operations generalizing s w with
  | nil => exact h
  | cons o operations ih => exact ih (h.apply o)

structure Unused (d : MemoryDemux) : Prop where
  active : d.active = 0
  stopped : d.stopped = []

theorem Kept.ofLimit (limit : Nat) (h : Unused d) : Kept limit d.capacity (ofLimit limit) d where
  ids := List.Pairwise.nil
  issued := by simp [Scheduler.ids, Scheduler.ofLimit]
  limited := rfl
  room := Nat.zero_le _
  fixed := rfl
  fits _ _ := Nat.zero_le _
  active := h.active
  distinct := List.Pairwise.nil
  live := by simp [Scheduler.serials, Scheduler.ofLimit]
  past := by simp [h.stopped]
  busy hw := absurd rfl hw

/-- The number of filters that pool and device together have room for. -/
def slots (limit : Nat) : Option Nat → Nat
  | none => max 1 limit
  | some c => min (max 1 limit) c

theorem Pool.length_eq_slots (h : Pool limit capacity s d) (hs : s.hasNoSlot d = true) :
    s.running.length = slots limit capacity := by
  have hroom := h.room
  have hfull : s.maxRunning ≤ s.running.length ∨ d.capacity.any (· ≤ d.active) = true := by
    simpa [hasNoSlot, isFull] using hs
  rw [h.limited, h.fixed, h.active] at hfull
  cases capacity with
  | none =>
    have hfull : max 1 limit ≤ s.running.length := by simpa using hfull
    exact Nat.le_antisymm hroom hfull
  | some c =>
    have hfits := h.fits c rfl
    have hfull : max 1 limit ≤ s.running.length ∨ c ≤ s.running.length := by simpa using hfull
    simp only [slots]
    omega

structure WellKept (limit : Nat) (capacity : Option Nat) (s : Scheduler MemoryFilter)
    (d : MemoryDemux) : Prop where
  /-- Nobody is there twice, and nobody overtakes a filter that waits. -/
  inOrder : (s.running.map (·.id) ++ s.waiting.map (·.1)).Pairwise (· < ·)
  withinLimit : s.running.length ≤ max 1 limit
  /-- No filter is leaked or released twice. -/
  exact : d.active = s.running.length
  noIdleSlot : s.waiting ≠ [] → s.running.length = slots limit capacity

/-- Whatever is called and whatever happens in between, filters are neither leaked nor shuffled,
and no slot is idle while a filter waits. -/
theorem run_wellKept (limit : Nat) (operations : List Operation) (w : World Bench)
    (h : Unused w.device.demux) :
    WellKept limit w.device.demux.capacity (run operations (ofLimit limit) w).1
      (run operations (ofLimit limit) w).2.device.demux := by
  have hk := (Kept.ofLimit limit h).run operations
  exact {
    inOrder := hk.ids
    withinLimit := hk.room
    exact := hk.active
    noIdleSlot := fun hw => hk.toPool.length_eq_slots (hk.busy hw) }

/-- Two filters for one slot: the second waits until the first is removed. -/
theorem run_wellKept_single_slot :
    let w : World Bench := { device := { demux := { capacity := some 1 } } }
    let f : FilterSpec := .once 0 0 1000
    Unused w.device.demux ∧ WellKept 0 w.device.demux.capacity
      (run [.add f, .breakStop true, .add f, .remove 1] (ofLimit 0) w).1
      (run [.add f, .breakStop true, .add f, .remove 1] (ofLimit 0) w).2.device.demux :=
  ⟨⟨rfl, rfl⟩, run_wellKept 0 _ _ ⟨rfl, rfl⟩⟩

end Bandscan.Scheduler
