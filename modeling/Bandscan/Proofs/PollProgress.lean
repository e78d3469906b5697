import Mathlib.Algebra.Order.BigOperators.Group.List
import Mathlib.Algebra.Order.Group.Nat
import Mathlib.Algebra.GroupWithZero.Nat
import Mathlib.Data.Prod.Lex
import Bandscan.Proofs.SchedulerSteps
/-!
Every pass makes progress: it reads something, it gets rid of a filter, or the time that is left to
the filters shrinks. A pass that reads nothing waits, so that the three measures are compared in
this order.
-/

namespace Bandscan.Scheduler

open Bench

variable {η : Type} {R : FilterSpec → Prop} {s : Scheduler MemoryFilter}

def Every (R : FilterSpec → Prop) (s : Scheduler MemoryFilter) : Prop :=
  (∀ f ∈ s.running, R f.spec) ∧ ∀ p ∈ s.waiting, R p.2

def size (s : Scheduler MemoryFilter) : Nat := s.running.length + s.waiting.length

/-- How long all filters together may go on. Time does not yet run for one that waits. -/
def timeLeft (now : Nat) (s : Scheduler MemoryFilter) : Nat :=
  (s.running.map fun f => f.started + f.spec.timeout - now).sum +
    (s.waiting.map (·.2.timeout)).sum

/-- Nobody has come in and no time has been given. -/
structure Shrinks (R : FilterSpec → Prop) (now : Nat) (s s' : Scheduler MemoryFilter) : Prop where
  every : Every R s → Every R s'
  size : s'.size ≤ s.size
  timeLeft : s'.timeLeft now ≤ s.timeLeft now

theorem Shrinks.refl (now : Nat) (s : Scheduler MemoryFilter) : Shrinks R now s s :=
  ⟨id, Nat.le_refl _, Nat.le_refl _⟩

theorem Shrinks.trans {now : Nat} {s s' s'' : Scheduler MemoryFilter} (h : Shrinks R now s s')
    (h' : Shrinks R now s' s'') : Shrinks R now s s'' :=
  ⟨fun he => h'.every (h.every he), Nat.le_trans h'.size h.size,
    Nat.le_trans h'.timeLeft h.timeLeft⟩

theorem shrinks_waiting (now : Nat) {ws : List (Nat × FilterSpec)} (s : Scheduler MemoryFilter)
    (h : ws.Sublist s.waiting) : Shrinks R now s { s with waiting := ws } where
  every he := ⟨he.1, fun p hp => he.2 p (h.subset hp)⟩
  size := Nat.add_le_add_left h.length_le _
  timeLeft := Nat.add_le_add_left ((h.map _).sum_le_sum fun _ _ => Nat.zero_le _) _

theorem shrinks_started (id : Nat) (f : FilterSpec) (ws : List (Nat × FilterSpec))
    (s : Scheduler MemoryFilter) (w : World Bench) :
    Shrinks R w.time { s with waiting := (id, f) :: ws }
      { s with running := s.running ++ [started id f w], waiting := ws } where
  every he := by
    refine ⟨fun g hg => ?_, fun p hp => he.2 p (List.mem_cons_of_mem _ hp)⟩
    rcases List.mem_append.1 hg with hg | hg
    · exact he.1 g hg
    · obtain rfl := List.mem_singleton.1 hg
      exact he.2 (id, f) List.mem_cons_self
  size := by simp [Scheduler.size]; omega
  timeLeft := by simp [Scheduler.timeLeft, started]; omega

theorem promoteFrom_shrinks (ws : List (Nat × FilterSpec)) (s : Scheduler MemoryFilter)
    (w : World Bench) :
    Shrinks R w.time { s with waiting := ws } (promoteFrom demuxDevice ws s w).1 := by
  induction ws generalizing s w with
  | nil => exact .refl _ _
  | cons p ws ih =>
    rcases promoteFrom_cases p.1 p.2 ws s w with ⟨-, h⟩ | ⟨-, note, h⟩ | ⟨-, h⟩ <;> rw [h]
    · exact .refl _ _
    · exact (shrinks_waiting w.time { s with waiting := p :: ws }
        (List.sublist_cons_self p ws)).trans (ih s (w.tell note))
    · exact (shrinks_started p.1 p.2 ws s w).trans
        (ih { s with running := s.running ++ [started p.1 p.2 w] } (afterStart p.2 w))

theorem promoted_shrinks (s : Scheduler MemoryFilter) (w : World Bench) :
    Shrinks R w.time s (promoted s w).1 := by
  unfold promoted
  split
  · exact promoteFrom_shrinks s.waiting s w
  · exact .refl _ _

theorem shrinks_running (now : Nat) {fs : List (RunningFilter MemoryFilter)}
    (s : Scheduler MemoryFilter) (h : fs.Sublist s.running) :
    Shrinks R now s { s with running := fs } where
  every he := ⟨fun f hf => he.1 f (h.subset hf), he.2⟩
  size := Nat.add_le_add_right h.length_le _
  timeLeft := Nat.add_le_add_right ((h.map _).sum_le_sum fun _ _ => Nat.zero_le _) _

theorem remove_shrinks (id : Nat) (s : Scheduler MemoryFilter) (w : World Bench) :
    Shrinks R w.time s (remove demuxDevice id s w).2.1 := by
  unfold remove
  cases hf : s.running.find? (·.id = id) with
  | none => exact shrinks_waiting w.time s List.eraseP_sublist
  | some f =>
    have hp := promoteFrom_shrinks (R := R) s.waiting
      { s with running := s.running.eraseP (·.id = id) } (halt demuxDevice f w)
    rw [(halt_instant f w).time] at hp
    exact (shrinks_running w.time s List.eraseP_sublist).trans hp

theorem size_remove_lt {id : Nat} {s : Scheduler MemoryFilter} (w : World Bench)
    (h : id ∈ s.running.map (·.id)) : (remove demuxDevice id s w).2.1.size < s.size := by
  obtain ⟨g, hg, hid⟩ := List.mem_map.1 h
  unfold remove
  cases hf : s.running.find? (·.id = id) with
  | none => exact absurd hid (by simpa using List.find?_eq_none.1 hf g hg)
  | some f =>
    have hany : s.running.any (·.id = id) = true := List.any_eq_true.2 ⟨g, hg, by simpa using hid⟩
    have hlen : (s.running.eraseP (·.id = id)).length < s.running.length := by
      rw [List.length_eraseP, if_pos hany]
      exact Nat.sub_lt (List.length_pos_of_mem hg) Nat.one_pos
    have hp := (promoteFrom_shrinks (R := fun _ => True) s.waiting
      { s with running := s.running.eraseP (·.id = id) } (halt demuxDevice f w)).size
    exact Nat.lt_of_le_of_lt hp (Nat.add_lt_add_right hlen _)

theorem removeAll_shrinks (ids : List Nat) (s : Scheduler MemoryFilter) (w : World Bench) :
    Shrinks R w.time s (removeAll demuxDevice ids s w).1 := by
  induction ids generalizing s w with
  | nil => exact .refl _ _
  | cons id ids ih =>
    have h := ih (remove demuxDevice id s w).2.1 (remove demuxDevice id s w).2.2
    rw [(remove_instant id s w).time] at h
    exact (remove_shrinks id s w).trans h

theorem size_removeAll_lt {id : Nat} {s : Scheduler MemoryFilter} (ids : List Nat)
    (w : World Bench) (h : id ∈ s.running.map (·.id)) :
    (removeAll demuxDevice (id :: ids) s w).1.size < s.size :=
  Nat.lt_of_le_of_lt (removeAll_shrinks (R := fun _ => True) ids _ _).size (size_remove_lt w h)

/-- The filter is removed at its end. -/
def Once (f : FilterSpec) : Prop := f.runOnce = true

theorem map_renew (now : Nat) (hs : Every Once s) : s.running.map (renew now) = s.running := by
  refine (List.map_congr_left fun f hf => ?_).trans (List.map_id s.running)
  have hf : f.spec.runOnce = true := hs.1 f hf
  simp [renew, hf]

theorem retire_eq (w : World Bench) (hs : Every Once s) :
    retire demuxDevice s w =
      removeAll demuxDevice ((s.running.filter (isDone w.time)).map (·.id)) s
        (w.tellAll (s.running.flatMap (expiryNotes w.time))) := by
  unfold retire
  dsimp only
  rw [map_renew w.time hs]

theorem retire_progress (w : World Bench) (hs : Every Once s) :
    (retire demuxDevice s w).1.size < s.size ∨
      (retire demuxDevice s w).1 = s ∧ ∀ f ∈ s.running, isDone w.time f = false := by
  rw [retire_eq w hs]
  cases hd : s.running.filter (isDone w.time) with
  | nil => exact .inr ⟨rfl, by simpa using List.filter_eq_nil_iff.1 hd⟩
  | cons f fs =>
    have hf : f ∈ s.running := (List.mem_filter.1 (hd ▸ List.mem_cons_self)).1
    exact .inl (size_removeAll_lt _ _ (List.mem_map_of_mem hf))

theorem timeLeft_lt {now later : Nat} (hl : now < later) (hs : Every Once s)
    (hne : s.running ≠ []) (hd : ∀ f ∈ s.running, isDone later f = false) :
    s.timeLeft later < s.timeLeft now := by
  have hlt : ∀ f ∈ s.running,
      f.started + f.spec.timeout - later < f.started + f.spec.timeout - now := by
    intro f hf
    have hdone := hd f hf
    have honce : f.spec.runOnce = true := hs.1 f hf
    have hexp : ¬ f.spec.timeout ≤ later - f.started := by
      simp only [isDone, honce, Bool.true_and, Bool.or_eq_false_iff, isExpired] at hdone
      simpa using hdone.2
    omega
  unfold timeLeft
  exact Nat.add_lt_add_right (List.sum_lt_sum_of_ne_nil hne _ _ hlt) _

theorem mem_ready {d : MemoryDemux} {fs : List MemoryFilter} {i : Nat} (h : i ∈ d.ready fs) :
    ∃ f, fs[i]? = some f ∧ d.isReady f = true := by
  obtain ⟨⟨f, j⟩, hm, rfl⟩ := List.mem_map.1 h
  obtain ⟨hz, hr⟩ := List.mem_filter.1 hm
  exact ⟨f, List.mem_zipIdx_iff_getElem?.1 hz, hr⟩

theorem length_serveAll_lt (handle : Handler η) (p : Pass Bench MemoryFilter η) {i : Nat}
    (ready : List Nat) (h : i ∈ p.world.device.demux.ready (p.running.map (·.handle))) :
    (serveAll handle p (i :: ready)).world.device.demux.queue.length <
      p.world.device.demux.queue.length := by
  obtain ⟨m, hm, hr⟩ := mem_ready h
  rw [List.getElem?_map] at hm
  obtain ⟨f, hf, rfl⟩ := Option.map_eq_some_iff.1 hm
  have hc := length_collect_lt hr
  have hs := (serve_world handle hf).1.instant.queue.length_le
  have ha := (serveAll_reads handle (serve demuxDevice handle p i) ready).instant.queue.length_le
  exact Nat.lt_of_le_of_lt ha (Nat.lt_of_le_of_lt hs hc)

theorem Every.running {fs : List (RunningFilter MemoryFilter)} (h : Every R s)
    (hf : fs.map core = s.running.map core) : Every R { s with running := fs } := by
  refine ⟨fun f hm => ?_, h.2⟩
  have hc : core f ∈ s.running.map core := hf ▸ List.mem_map_of_mem hm
  obtain ⟨g, hg, he⟩ := List.mem_map.1 hc
  have hspec : f.spec = g.spec := congrArg (·.2.1) he.symm
  rw [hspec]
  exact h.1 g hg

theorem every_of_isIdle (h : s.isIdle = true) : Every R s := by
  have h := Bool.and_eq_true_iff.1 h
  rw [List.isEmpty_iff, List.isEmpty_iff] at h
  exact ⟨by simp [h.1], by simp [h.2]⟩

theorem Every.append {f : RunningFilter MemoryFilter} (h : Every R s) (hf : R f.spec) :
    Every R { s with running := s.running ++ [f] } := by
  refine ⟨fun g hg => ?_, h.2⟩
  rcases List.mem_append.1 hg with hg | hg
  · exact h.1 g hg
  · exact List.mem_singleton.1 hg ▸ hf

theorem Every.add {f : FilterSpec} (h : Every R s) (hf : R f) (w : World Bench) :
    Every R (add demuxDevice f s w).2.1 := by
  rcases add_cases f s w with ⟨-, note, he⟩ | ⟨-, note, he⟩ | ⟨-, he⟩ <;> rw [he]
  · refine ⟨h.1, fun p hp => ?_⟩
    rcases List.mem_append.1 hp with hp | hp
    · exact h.2 p hp
    · exact List.mem_singleton.1 hp ▸ hf
  · exact h
  · exact Every.append (s := { s with lastId := s.lastId + 1 }) h hf

theorem Every.install {f : FilterSpec} (h : Every R s) (hf : R f) (w : World Bench) :
    Every R (install demuxDevice f s w).2.1 := by
  rcases install_cases f s w with ⟨e, he⟩ | ⟨-, he⟩ <;> rw [he]
  · exact h
  · exact Every.append (s := { s with lastId := s.lastId + 1 }) h hf

theorem Every.addAll {fs : List FilterSpec} (h : Every R s) (hf : ∀ f ∈ fs, R f)
    (w : World Bench) : Every R (addAll demuxDevice fs s w).1 := by
  induction fs generalizing s w with
  | nil => exact h
  | cons f fs ih =>
    exact ih (h.add (hf f List.mem_cons_self) w) (fun g hg => hf g (List.mem_cons_of_mem _ hg)) _

theorem Every.retire (h : Every R s) (w : World Bench) :
    Every R (retire demuxDevice s w).1 := by
  have hr : Every R { s with running := s.running.map (renew w.time) } := by
    refine ⟨fun f hf => ?_, h.2⟩
    obtain ⟨g, hg, rfl⟩ := List.mem_map.1 hf
    have hspec : (renew w.time g).spec = g.spec := by
      unfold renew
      split <;> rfl
    exact hspec ▸ h.1 g hg
  exact (removeAll_shrinks _ _ _).every hr

structure Passed (P : η → Prop) (R : FilterSpec → Prop) (w : World Bench)
    (r : Except DemuxError Unit × η × Scheduler MemoryFilter × World Bench) : Prop where
  handler : P r.2.1
  every : Every R r.2.2.1
  later : Later w r.2.2.2

theorem polled_later (timeout : Nat) (ready : List Nat) (w : World Bench) :
    Later w (polled timeout ready w) := by
  unfold polled
  split
  · exact .sleep _ w
  · exact .refl w

theorem pollOnce_passed {handle : Handler η} {P : η → Prop} {x : η} {w : World Bench}
    (timeout : Nat) (hh : Respects handle w.device.demux.queue P R) (hx : P x)
    (hs : Every R s) : Passed P R w (pollOnce demuxDevice timeout handle x s w) := by
  have hw := (promoted_instant s w).later
  have hp := (promoted_shrinks s w).every hs
  rw [pollOnce_eq]
  rcases he : promoted s w with ⟨s, w₁⟩
  rw [he] at hw hp
  dsimp only at hw hp ⊢
  split
  · exact ⟨hx, ⟨hp.1, by simp⟩, hw.trans (Instant.tellAll _ _).later⟩
  · generalize w₁.device.demux.ready (s.running.map (·.handle)) = ready
    have hl := hw.trans (polled_later timeout ready w₁)
    generalize polled timeout ready w₁ = w₂ at hl ⊢
    obtain ⟨hP, hR⟩ := serveAll_handler (p := { running := s.running, handler := x, world := w₂ })
      ready (fun f t h ht => hh f t h (ht.mono hl.queue)) hx (by simp)
    have hr := hp.running (serveAll_core handle
      { running := s.running, handler := x, world := w₂ } ready)
    have hl := hl.trans (serveAll_reads handle
      { running := s.running, handler := x, world := w₂ } ready).instant.later
    exact ⟨hP, (hr.addAll hR _).retire _,
      (hl.trans (addAll_instant _ _ _).later).trans (retire_instant _ _).later⟩

def rank (s : Scheduler MemoryFilter) (w : World Bench) : Nat ×ₗ Nat ×ₗ Nat :=
  toLex (w.device.demux.queue.length, toLex (s.size, s.timeLeft w.time))

theorem rank_lt_of_queue {s s' : Scheduler MemoryFilter} {w w' : World Bench}
    (hq : w'.device.demux.queue.length < w.device.demux.queue.length) :
    s'.rank w' < s.rank w := Prod.Lex.toLex_lt_toLex.2 (.inl hq)

theorem rank_lt_of_later {s s' : Scheduler MemoryFilter} {w w' : World Bench}
    (hq : w'.device.demux.queue.length ≤ w.device.demux.queue.length)
    (h : s'.size < s.size ∨ s'.size ≤ s.size ∧ s'.timeLeft w'.time < s.timeLeft w.time) :
    s'.rank w' < s.rank w := by
  rcases Nat.lt_or_eq_of_le hq with hq | hq
  · exact rank_lt_of_queue hq
  refine Prod.Lex.toLex_lt_toLex.2 (.inr ⟨hq, Prod.Lex.toLex_lt_toLex.2 ?_⟩)
  rcases h with h | ⟨h, ht⟩
  · exact .inl h
  · rcases Nat.lt_or_eq_of_le h with h | h
    · exact .inl h
    · exact .inr ⟨h, ht⟩

/-- A pass leaves nothing to do, or it makes progress. -/
theorem pollOnce_progress (handle : Handler η) (x : η) (w : World Bench) {timeout : Nat}
    (ht : 0 < timeout) (hs : Every Once s) :
    (pollOnce demuxDevice timeout handle x s w).2.2.1.isIdle = true ∨
      (pollOnce demuxDevice timeout handle x s w).2.2.1.rank
        (pollOnce demuxDevice timeout handle x s w).2.2.2 < s.rank w := by
  have hi := promoted_instant s w
  have hp := promoted_shrinks (R := Once) s w
  have hq := hi.queue.length_le
  rw [pollOnce_eq]
  rcases he : promoted s w with ⟨s₁, w₁⟩
  rw [he] at hi hp hq
  have hs₁ := hp.every hs
  dsimp only at hi hp hq hs₁ ⊢
  by_cases hempty : s₁.running.isEmpty = true
  · rw [if_pos hempty]
    exact .inl (by simp [isIdle, hempty])
  rw [if_neg hempty]
  refine .inr ?_
  cases hready : w₁.device.demux.ready (s₁.running.map (·.handle)) with
  | cons i ready =>
    -- The first of the ready filters takes something out of the queue.
    have hlt := length_serveAll_lt handle
      { running := s₁.running, handler := x, world := w₁ } ready (hready ▸ List.mem_cons_self)
    refine rank_lt_of_queue (Nat.lt_of_le_of_lt ?_ (Nat.lt_of_lt_of_le hlt hq))
    exact ((addAll_instant _ _ _).trans (retire_instant _ _)).queue.length_le
  | nil =>
    -- Nothing is read, and the time that passes is missing from what is left.
    obtain ⟨w₂, hw₂⟩ : ∃ w₂, w₁.sleep (min timeout idleWait) = w₂ := ⟨_, rfl⟩
    have hpast : w₁.time < w₂.time := by
      rw [← hw₂]
      exact Nat.lt_add_of_pos_right (Nat.lt_min.2 ⟨ht, by decide⟩)
    have hr := retire_instant s₁ w₂
    have hless : (retire demuxDevice s₁ w₂).1.size < s.size ∨
        (retire demuxDevice s₁ w₂).1.size ≤ s.size ∧
          (retire demuxDevice s₁ w₂).1.timeLeft (retire demuxDevice s₁ w₂).2.time <
            s.timeLeft w.time := by
      rcases retire_progress w₂ hs₁ with hlt | ⟨hsame, hd⟩
      · exact .inl (Nat.lt_of_lt_of_le hlt hp.size)
      · have hne : s₁.running ≠ [] := fun h => hempty (by rw [h]; rfl)
        have hlt := timeLeft_lt hpast hs₁ hne hd
        rw [hi.time] at hlt
        rw [hsame, hr.time]
        exact .inr ⟨hp.size, Nat.lt_of_lt_of_le hlt hp.timeLeft⟩
    have hqr : w₂.device.demux.queue.length ≤ w.device.demux.queue.length := hw₂ ▸ hq
    have hlt := rank_lt_of_later (Nat.le_trans hr.queue.length_le hqr) hless
    rw [← hw₂] at hlt
    exact hlt

end Bandscan.Scheduler
