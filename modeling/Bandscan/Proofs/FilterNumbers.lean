import Bandscan.Proofs.HealthyDemux
/-!
Filters are numbered in the order in which they are asked for, whatever the device makes of them. A
scheduler that had no filters when `floor` numbers had been given out has later none but those with
greater numbers.
-/

namespace Bandscan.Scheduler

variable {δ φ η : Type} {d : Demux δ φ} {floor : Nat} {s s' : Scheduler φ}

/-- Every filter has been asked for after the first `floor` ones. -/
structure Above (floor : Nat) (s : Scheduler φ) : Prop where
  given : floor ≤ s.lastId
  running : ∀ f ∈ s.running, floor < f.id
  waiting : ∀ p ∈ s.waiting, floor < p.1

theorem above_of_isIdle (h : s.isIdle = true) : Above s.lastId s := by
  simp only [isIdle, Bool.and_eq_true, List.isEmpty_iff] at h
  exact { given := Nat.le_refl _, running := by simp [h.1], waiting := by simp [h.2] }

theorem Above.ids_subset {fs : List (RunningFilter φ)} (h : Above floor s)
    (hf : fs.map (·.id) ⊆ s.running.map (·.id)) : Above floor { s with running := fs } where
  given := h.given
  running f hm := by
    obtain ⟨g, hg, he⟩ := List.mem_map.1 (hf (List.mem_map_of_mem hm))
    exact he ▸ h.running g hg
  waiting := h.waiting

theorem Above.fades (h : Above floor s) (hf : Fades d s s') : Above floor s' where
  given := hf.lastId ▸ h.given
  running g hg := by
    obtain hg | ⟨p, hp, now, hg⟩ := hf.running g hg
    · exact h.running g hg
    · exact hg.id ▸ h.waiting p hp
  waiting p hp := h.waiting p (hf.waiting.subset hp)

theorem Above.admits {fs : List FilterSpec} {started : List (RunningFilter φ)}
    {queued : List (Nat × FilterSpec)} (h : Above floor s)
    (ha : Admits d fs s s' started queued) : Above floor s' where
  given := ha.lastId ▸ Nat.le_add_right_of_le h.given
  running g hg := by
    rw [ha.running] at hg
    obtain hg | hg := List.mem_append.1 hg
    · exact h.running g hg
    · have hin := ha.startedOrder.subset
        (List.mem_map_of_mem (f := fun f => (f.id, f.spec)) hg)
      exact Nat.lt_of_le_of_lt h.given (mem_numbered hin).1
  waiting p hp := by
    rw [ha.waiting] at hp
    obtain hp | hp := List.mem_append.1 hp
    · exact h.waiting p hp
    · exact Nat.lt_of_le_of_lt h.given (mem_numbered (ha.queuedOrder.subset hp)).1

theorem Above.addAll (h : Above floor s) (fs : List FilterSpec) (w : World δ) :
    Above floor (addAll d fs s w).1 := by
  obtain ⟨started, queued, ha⟩ := addAll_admits (d := d) fs s w
  exact h.admits ha

theorem Above.install (h : Above floor s) (f : FilterSpec) (w : World δ) :
    Above floor (install d f s w).2.1 := by
  obtain ⟨started, ha⟩ := install_admits (d := d) f s w
  exact h.admits ha

theorem Above.retire (h : Above floor s) (w : World δ) : Above floor (retire d s w).1 := by
  unfold Scheduler.retire
  refine Above.fades (h.ids_subset ?_) (removeAll_fades _ _ _)
  simp [Function.comp_def]

theorem fixed_serve (handle : Handler η) (p : Pass δ φ η) (i : Nat) :
    (serve d handle p i).running.map fixed = p.running.map fixed := by
  unfold serve
  cases hi : p.running[i]? with
  | none => rfl
  | some f =>
    have hset := map_fixed_set hi (fixed_collect (d := d) f p.world)
    dsimp only
    split
    · exact hset
    · exact hset

theorem fixed_foldl_serve (handle : Handler η) (p : Pass δ φ η) (ready : List Nat) :
    (ready.foldl (serve d handle) p).running.map fixed = p.running.map fixed := by
  induction ready generalizing p with
  | nil => rfl
  | cons i ready ih => exact (ih _).trans (fixed_serve handle p i)

theorem ids_of_fixed {fs gs : List (RunningFilter φ)} (h : fs.map fixed = gs.map fixed) :
    fs.map (·.id) = gs.map (·.id) := by
  have hm := congrArg (List.map (·.1)) h
  rwa [List.map_map, List.map_map] at hm

def readied (d : Demux δ φ) (s : Scheduler φ) (w : World δ) : Scheduler φ × World δ :=
  if s.running.isEmpty then promote d s w else (s, w)

theorem readied_fades (s : Scheduler φ) (w : World δ) : Fades d s (readied d s w).1 := by
  unfold readied
  split
  · exact promoteFrom_fades s.waiting s w
  · exact .refl s

theorem Above.readied (h : Above floor s) (w : World δ) : Above floor (readied d s w).1 :=
  h.fades (readied_fades s w)

theorem pollOnce_readied (timeout : Nat) (handle : Handler η) (x : η) (s : Scheduler φ)
    (w : World δ) : pollOnce d timeout handle x s w =
      let r := readied d s w
      if r.1.running.isEmpty then
        (.ok (), x, { r.1 with waiting := [] }, r.2.tellAll r.1.abandonNotes)
      else
        match d.poll (r.1.running.map (·.handle)) timeout r.2 with
        | (.error e, w) => (.error e, x, r.1, w)
        | (.ok ready, w) =>
          let p := ready.foldl (serve d handle) { running := r.1.running, handler := x, world := w }
          let r' := addAll d p.requests { r.1 with running := p.running } p.world
          let r'' := retire d r'.1 r'.2
          (.ok (), p.handler, r''.1, r''.2) := rfl

theorem Above.pollOnce (h : Above floor s) (timeout : Nat) (handle : Handler η) (x : η)
    (w : World δ) : Above floor (pollOnce d timeout handle x s w).2.2.1 := by
  have hr := h.readied (d := d) w
  rw [pollOnce_readied]
  dsimp only
  split
  · exact { given := hr.given, running := hr.running, waiting := by simp }
  · split
    · exact hr
    · refine Above.retire (Above.addAll (hr.ids_subset ?_) _ _) _
      rw [ids_of_fixed (fixed_foldl_serve _ _ _)]
      exact List.Subset.refl _

end Bandscan.Scheduler
