import Bandscan.Filter.Scheduler
/-!
A scheduler acts on the world only through its device and by telling. So if a relation holds between
the worlds before and after each call on the device, it holds between the worlds before and after
each call on the scheduler. Polls are set apart, since only they are meant to take time.
-/

namespace Bandscan.Scheduler

variable {δ φ η : Type} {d : Demux δ φ} {R : World δ → World δ → Prop}

theorem exists_of_find? {s : Scheduler φ} {id : Nat} {f : RunningFilter φ}
    (h : s.running.find? (·.id = id) = some f) : ∃ fs gs, s.running = fs ++ f :: gs ∧
      s.running.eraseP (·.id = id) = fs ++ gs := by
  obtain ⟨hid, fs, gs, hr, hfs⟩ := List.find?_eq_some_iff_append.1 h
  have hid : f.id = id := of_decide_eq_true hid
  refine ⟨fs, gs, hr, ?_⟩
  rw [hr, List.eraseP_append_right _ (fun g hg => by simpa using hfs g hg)]
  simp [hid]

/-- `R` leads along whatever may happen while filters are started and stopped. -/
structure Frame (d : Demux δ φ) (R : World δ → World δ → Prop) : Prop where
  refl : ∀ w, R w w
  trans : ∀ {w w' w''}, R w w' → R w' w'' → R w w''
  tell : ∀ note w, R w (w.tell note)
  openFilter : ∀ pid tableId w, R w (d.openFilter pid tableId w).2
  stop : ∀ f w, R w (d.stop f w).2
  close : ∀ f w, R w (d.close f w)

structure ReadingFrame (d : Demux δ φ) (R : World δ → World δ → Prop) : Prop
    extends Frame d R where
  read : ∀ f w, R w (d.read f w).2

namespace Frame

theorem tellAll (h : Frame d R) (notes : List Note) (w : World δ) : R w (w.tellAll notes) := by
  induction notes generalizing w with
  | nil => exact h.refl w
  | cons note notes ih => exact h.trans (h.tell note w) (ih _)

theorem start (h : Frame d R) (id : Nat) (f : FilterSpec) (s : Scheduler φ) (w : World δ) :
    R w (start d id f s w).2.2 := by
  have ho := h.openFilter f.pid f.tableId w
  unfold Scheduler.start
  split
  · exact h.refl w
  · rcases hr : d.openFilter f.pid f.tableId w with ⟨_ | handle, w'⟩ <;> rw [hr] at ho
    · exact ho
    · exact h.trans ho (h.tell _ w')

theorem add (h : Frame d R) (f : FilterSpec) (s : Scheduler φ) (w : World δ) :
    R w (add d f s w).2.2 := by
  have hs := h.start (s.lastId + 1) f { s with lastId := s.lastId + 1 } w
  unfold Scheduler.add
  dsimp only
  rcases hr : Scheduler.start d (s.lastId + 1) f { s with lastId := s.lastId + 1 } w
    with ⟨e | _, s', w'⟩ <;> rw [hr] at hs
  · cases e with
    | exhausted | openFailed | setFilter | overflow | read | poll =>
      exact h.trans hs (h.tell _ w')
  · exact hs

theorem addAll (h : Frame d R) (fs : List FilterSpec) (s : Scheduler φ) (w : World δ) :
    R w (addAll d fs s w).2 := by
  induction fs generalizing s w with
  | nil => exact h.refl w
  | cons f fs ih => exact h.trans (h.add f s w) (ih _ _)

theorem install (h : Frame d R) (f : FilterSpec) (s : Scheduler φ) (w : World δ) :
    R w (install d f s w).2.2 := by
  have hs := h.start (s.lastId + 1) f { s with lastId := s.lastId + 1 } w
  unfold Scheduler.install
  dsimp only
  rcases hr : Scheduler.start d (s.lastId + 1) f { s with lastId := s.lastId + 1 } w
    with ⟨_ | _, s', w'⟩ <;> rw [hr] at hs
  · exact hs
  · exact hs

theorem promoteFrom (h : Frame d R) (ws : List (Nat × FilterSpec)) (s : Scheduler φ)
    (w : World δ) : R w (promoteFrom d ws s w).2 := by
  induction ws generalizing s w with
  | nil => exact h.refl w
  | cons p ws ih =>
    have hs := h.start p.1 p.2 s w
    unfold Scheduler.promoteFrom
    split
    · exact h.refl w
    · rcases hr : Scheduler.start d p.1 p.2 s w with ⟨e | _, s', w'⟩ <;> rw [hr] at hs
      · cases e with
        | exhausted => exact hs
        | openFailed | setFilter | overflow | read | poll =>
          exact h.trans hs (h.trans (h.tell _ w') (ih _ _))
      · exact h.trans hs (ih _ _)

theorem halt (h : Frame d R) (f : RunningFilter φ) (w : World δ) : R w (halt d f w) := by
  have hs := h.stop f.handle w
  unfold Scheduler.halt
  rcases hr : d.stop f.handle w with ⟨_ | _, w'⟩ <;> rw [hr] at hs
  · exact h.trans hs (h.tell _ w')
  · exact hs

theorem remove (h : Frame d R) (id : Nat) (s : Scheduler φ) (w : World δ) :
    R w (remove d id s w).2.2 := by
  unfold Scheduler.remove
  split
  · exact h.trans (h.trans (h.halt _ w) (h.promoteFrom _ _ _)) (h.close _ _)
  · exact h.refl w

theorem removeAll (h : Frame d R) (ids : List Nat) (s : Scheduler φ) (w : World δ) :
    R w (removeAll d ids s w).2 := by
  induction ids generalizing s w with
  | nil => exact h.refl w
  | cons id ids ih => exact h.trans (h.remove id s w) (ih _ _)

theorem clear (h : Frame d R) (s : Scheduler φ) (w : World δ) : R w (clear d s w).2 := by
  unfold Scheduler.clear
  generalize s.running = fs
  induction fs generalizing w with
  | nil => exact h.refl w
  | cons f fs ih => exact h.trans (h.trans (h.halt f w) (h.close f.handle _)) (ih _)

theorem retire (h : Frame d R) (s : Scheduler φ) (w : World δ) : R w (retire d s w).2 :=
  h.trans (h.tellAll _ w) (h.removeAll _ _ _)

end Frame

namespace ReadingFrame

theorem taken (h : ReadingFrame d R) (f : RunningFilter φ) (r : Except DemuxError Bytes × World δ) :
    R r.2 (taken f r).2 := by
  rcases r with ⟨_ | _, w⟩
  · exact h.tell _ w
  · exact h.refl w

theorem readOne (h : ReadingFrame d R) (f : RunningFilter φ) (w : World δ) :
    R (d.read f.handle w).2 (readOne d f w).2 := by
  unfold Scheduler.readOne
  split
  · next w' he =>
    rw [he]
    exact h.trans (h.tell _ w') (h.trans (h.read f.handle _) (h.taken f _))
  · exact h.taken f _

theorem collect (h : ReadingFrame d R) (f : RunningFilter φ) (w : World δ) :
    R (d.read f.handle w).2 (collect d f w).2.2 := by
  refine h.trans (h.readOne f w) ?_
  unfold Scheduler.collect
  rcases Scheduler.readOne d f w with ⟨_ | bytes, w'⟩
  · exact h.refl w'
  · dsimp only
    rcases f.collector.check bytes with ⟨_ | t, notes, collector⟩
    · exact h.tellAll notes w'
    · have hn := h.trans (h.tellAll notes w') (h.tellAll (collector.recordNotes t.header) _)
      dsimp only
      rcases collector.record t.header with ⟨_ | complete, collector⟩
      · exact hn
      · exact h.trans hn (h.tellAll _ _)

theorem serve_after (h : ReadingFrame d R) (handle : Handler η) {p : Pass δ φ η} {i : Nat}
    {f : RunningFilter φ} (hi : p.running[i]? = some f) :
    R (d.read f.handle p.world).2 (serve d handle p i).world := by
  have hc := h.collect f p.world
  unfold Scheduler.serve
  rw [hi]
  dsimp only
  rcases hr : Scheduler.collect d f p.world with ⟨_ | t, f', w⟩ <;> rw [hr] at hc
  · exact hc
  · exact h.trans hc (h.tellAll _ w)

theorem serve (h : ReadingFrame d R) (handle : Handler η) (p : Pass δ φ η) (i : Nat) :
    R p.world (serve d handle p i).world := by
  cases hi : p.running[i]? with
  | none =>
    have hs : Scheduler.serve d handle p i = p := by simp [Scheduler.serve, hi]
    rw [hs]
    exact h.refl _
  | some f => exact h.trans (h.read f.handle p.world) (h.serve_after handle hi)

theorem foldl_serve (h : ReadingFrame d R) (handle : Handler η) (p : Pass δ φ η)
    (ready : List Nat) :
    R p.world (ready.foldl (Scheduler.serve d handle) p).world := by
  induction ready generalizing p with
  | nil => exact h.refl _
  | cons i ready ih => exact h.trans (h.serve handle p i) (ih _)

end ReadingFrame

end Bandscan.Scheduler
