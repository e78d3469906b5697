import Bandscan.Proofs.QueuedSections
/-!
The filters that have yet to collect the sections of a table on a pid. Starting a filter does not
change their number, adding one counts it in, and one that is finished counts no more, so that it
may be removed.
-/

namespace Bandscan.Scheduler

variable {δ φ : Type} {d : Demux δ φ} {Good : δ → Prop} {s : Scheduler φ} {w : World δ}
  {key : Nat × Nat}

/-- How many filters with this key are not finished. -/
def claimants (key : Nat × Nat) (s : Scheduler φ) : Nat :=
  (s.running.countP fun f => f.spec.key = key && !f.collector.isFinished) +
    s.waiting.countP fun p => p.2.key = key

theorem Fresh.not_finished {now : Nat} {p : Nat × FilterSpec} {g : RunningFilter φ}
    (hg : Fresh d now p g) : g.collector.isFinished = false := by
  rw [hg.collector]
  simp [Collector.isFinished]

theorem claimants_started {now : Nat} {p : Nat × FilterSpec} {g : RunningFilter φ}
    (hg : Fresh d now p g) (ws : List (Nat × FilterSpec)) (s : Scheduler φ) :
    claimants key { s with running := s.running ++ [g], waiting := ws } =
      claimants key { s with waiting := p :: ws } := by
  simp only [claimants, List.countP_append, List.countP_cons, List.countP_nil, hg.spec,
    hg.not_finished, Bool.not_false, Bool.and_true]
  omega

theorem Healthy.claimants_promoteFrom (h : Healthy d Good) (ws : List (Nat × FilterSpec))
    (s : Scheduler φ) (hw : Good w.device) :
    (promoteFrom d ws s w).1.claimants key = claimants key { s with waiting := ws } := by
  induction ws generalizing s w with
  | nil => rfl
  | cons p ws ih =>
    rcases h.promoteFrom_cases p ws s hw with ⟨-, he⟩ | ⟨-, g, w', hg, hw', he⟩ <;> rw [he]
    exact (ih _ hw').trans (claimants_started hg ws s)

theorem Healthy.claimants_add (h : Healthy d Good) (f : FilterSpec) (s : Scheduler φ)
    (hw : Good w.device) :
    (add d f s w).2.1.claimants key = s.claimants key + [f].countP (·.key = key) := by
  rcases h.add_cases f s hw with ⟨-, note, he⟩ | ⟨-, g, w', hg, he⟩ <;> rw [he]
  · simp only [claimants, List.countP_append, List.countP_cons, List.countP_nil]
    omega
  · simp only [claimants, List.countP_append, List.countP_cons, List.countP_nil, hg.spec,
      hg.not_finished, Bool.not_false, Bool.and_true]
    omega

theorem Healthy.claimants_addAll (h : Healthy d Good) (fs : List FilterSpec) (s : Scheduler φ)
    (hw : Good w.device) :
    (addAll d fs s w).1.claimants key = s.claimants key + fs.countP (·.key = key) := by
  induction fs generalizing s w with
  | nil => rfl
  | cons f fs ih =>
    refine (ih _ (h.frame.add f s w hw)).trans ?_
    rw [h.claimants_add f s hw]
    simp only [List.countP_cons, List.countP_nil]
    omega

theorem Healthy.claimants_remove (h : Healthy d Good) {f : RunningFilter φ} (hs : Sound s)
    (hf : f ∈ s.running) (hk : f.spec.key ≠ key ∨ f.collector.isFinished = true)
    (hw : Good w.device) : (remove d f.id s w).2.1.claimants key = s.claimants key := by
  have hfind := hs.find?_id hf
  obtain ⟨fs, gs, hr, he⟩ := exists_of_find? hfind
  have hno : ¬ (decide (f.spec.key = key) && !f.collector.isFinished) = true := by
    rcases hk with hk | hk <;> simp [hk]
  unfold remove
  rw [hfind]
  refine (h.claimants_promoteFrom s.waiting
    { s with running := s.running.eraseP (·.id = f.id) } (h.frame.halt f w hw)).trans ?_
  simp only [claimants, he]
  simp only [hr, List.countP_append, List.countP_cons, if_neg hno, Nat.add_zero]

theorem Healthy.claimants_removeAll (h : Healthy d Good) {fs : List (RunningFilter φ)}
    (hs : Sound s) (hf : ∀ f ∈ fs, f ∈ s.running) (hn : (fs.map (·.id)).Nodup)
    (hk : ∀ f ∈ fs, f.spec.key ≠ key ∨ f.collector.isFinished = true) (hw : Good w.device) :
    (removeAll d (fs.map (·.id)) s w).1.claimants key = s.claimants key := by
  induction fs generalizing s w with
  | nil => rfl
  | cons f fs ih =>
    rw [List.map_cons, List.nodup_cons] at hn
    have hrest : ∀ g ∈ fs, g ∈ (Scheduler.remove d f.id s w).2.1.running := fun g hg =>
      h.mem_remove (hf g (List.mem_cons_of_mem _ hg))
        (fun he => hn.1 (he ▸ List.mem_map_of_mem hg)) hw
    exact (ih (hs.remove h f.id hw) hrest hn.2 (fun g hg => hk g (List.mem_cons_of_mem _ hg))
      (h.frame.remove f.id s w hw)).trans
      (h.claimants_remove hs (hf f List.mem_cons_self) (hk f List.mem_cons_self) hw)

theorem Healthy.not_mem_remove (h : Healthy d Good) {f : RunningFilter φ} (hs : Sound s)
    (hf : f ∈ s.running) (hw : Good w.device) :
    f.id ∉ (remove d f.id s w).2.1.roll.map Prod.fst := by
  have hids := hs.ids
  have hfind := hs.find?_id hf
  obtain ⟨fs, gs, hr, he⟩ := exists_of_find? hfind
  unfold Scheduler.remove
  rw [hfind]
  dsimp only
  rw [promote, h.roll_promoteFrom _ _ (h.frame.halt f w hw), he]
  simp only [roll, hr, List.map_append, List.map_cons, List.map_map, List.append_assoc,
    List.cons_append] at hids ⊢
  exact (List.nodup_cons.1 (List.perm_middle.nodup_iff.1 hids)).1

theorem Healthy.not_mem_removeAll (h : Healthy d Good) {fs : List (RunningFilter φ)}
    (hs : Sound s) (hf : ∀ f ∈ fs, f ∈ s.running) (hn : (fs.map (·.id)).Nodup)
    (hw : Good w.device) {f : RunningFilter φ} (hm : f ∈ fs) :
    f.id ∉ (removeAll d (fs.map (·.id)) s w).1.roll.map Prod.fst := by
  induction fs generalizing s w with
  | nil => simp at hm
  | cons k fs ih =>
    have hgood := h.frame.remove k.id s w hw
    rw [List.map_cons, List.nodup_cons] at hn
    rcases List.mem_cons.1 hm with rfl | hm
    · exact fun hin => h.not_mem_remove hs (hf f List.mem_cons_self) hw
        (((removeAll_fades (fs.map (·.id)) _ _).roll.map Prod.fst).subset hin)
    · have hrest : ∀ g ∈ fs, g ∈ (Scheduler.remove d k.id s w).2.1.running := fun g hg =>
        h.mem_remove (hf g (List.mem_cons_of_mem _ hg))
          (fun he => hn.1 (he ▸ List.mem_map_of_mem hg)) hw
      exact ih (hs.remove h k.id hw) hrest hn.2 hgood hm

theorem Sound.nodup_done (hs : Sound s) (now : Nat) :
    ((s.running.filter (isDone now)).map (·.id)).Nodup := by
  have hids := hs.ids
  simp only [roll, List.map_append, List.map_map] at hids
  exact (List.nodup_append.1 hids).1.sublist (List.filter_sublist.map _)

theorem Healthy.claimants_retire (h : Healthy d Good) (hs : Sound s) (hw : Good w.device)
    (hk : ∀ f ∈ s.running, isDone w.time f = true →
      f.spec.key ≠ key ∨ f.collector.isFinished = true) :
    (retire d s w).1.claimants key = s.claimants key := by
  rw [hs.retire_eq]
  refine h.claimants_removeAll hs (fun f hf => (List.mem_filter.1 hf).1) (hs.nodup_done w.time)
    (fun f hf => ?_) (h.tellAll _ hw)
  obtain ⟨hf, hd⟩ := List.mem_filter.1 hf
  exact hk f hf hd

/-- Whoever runs after a pass is not done or has just been started. -/
theorem Healthy.running_retire (h : Healthy d Good) (hs : Sound s) (hw : Good w.device)
    {g : RunningFilter φ} (hg : g ∈ (retire d s w).1.running) :
    (g ∈ s.running ∧ isDone w.time g = false) ∨ ∃ p ∈ s.waiting, ∃ now, Fresh d now p g := by
  rw [hs.retire_eq] at hg
  have hfades := removeAll_fades (d := d) ((s.running.filter (isDone w.time)).map (·.id)) s
    (w.tellAll (s.running.flatMap (expiryNotes w.time)))
  rcases hfades.running g hg with hm | hf
  · refine .inl ⟨hm, Bool.eq_false_iff.2 fun hd => ?_⟩
    refine h.not_mem_removeAll hs (fun f hf => (List.mem_filter.1 hf).1) (hs.nodup_done w.time)
      (h.tellAll (s.running.flatMap (expiryNotes w.time)) hw) (List.mem_filter.2 ⟨hm, hd⟩) ?_
    exact List.mem_map_of_mem (f := Prod.fst) (mem_roll hg)
  · exact .inr hf

end Bandscan.Scheduler
