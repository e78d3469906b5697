import Bandscan.Proofs.FilterNumbers
/-!
The account of a scheduler's filters, on any device. Ids tell the filters apart, what is added comes
behind what is there, and what is removed leaves the others in their order, in front of those that
are started in its place.
-/

namespace Bandscan.Scheduler

variable {δ φ η : Type} {d : Demux δ φ} {s s' s'' : Scheduler φ}

/-- The ids tell the filters apart, and all of them have been given out. -/
structure Numbered (s : Scheduler φ) : Prop where
  ids : (s.roll.map Prod.fst).Nodup
  issued : ∀ p ∈ s.roll, p.1 ≤ s.lastId

theorem Numbered.fades (hs : Numbered s) (h : Fades d s s') : Numbered s' where
  ids := hs.ids.sublist (h.roll.map _)
  issued p hp := h.lastId ▸ hs.issued p (h.roll.subset hp)

theorem Numbered.nodup_running (hs : Numbered s) : (s.running.map (·.id)).Nodup := by
  have hids := hs.ids
  rw [roll, List.map_append, List.map_map] at hids
  exact (List.nodup_append.1 hids).1

theorem Numbered.of_roll (hs : Numbered s) (hr : s'.roll = s.roll) (hl : s'.lastId = s.lastId) :
    Numbered s' := ⟨hr ▸ hs.ids, hr ▸ hl ▸ hs.issued⟩

theorem Numbered.admits {fs : List FilterSpec} {started : List (RunningFilter φ)}
    {queued : List (Nat × FilterSpec)} (hs : Numbered s) (h : Admits d fs s s' started queued) :
    Numbered s' := by
  have hall : (s.roll ++ numbered s.lastId fs).map Prod.fst |>.Nodup := by
    rw [List.map_append, List.nodup_append]
    refine ⟨hs.ids, nodup_numbered _ _, fun a ha b hb => ?_⟩
    obtain ⟨p, hp, rfl⟩ := List.mem_map.1 ha
    obtain ⟨q, hq, rfl⟩ := List.mem_map.1 hb
    exact Nat.ne_of_lt (Nat.lt_of_le_of_lt (hs.issued p hp) (mem_numbered hq).1)
  have hroll : s'.roll.Subperm (s.roll ++ numbered s.lastId fs) := by
    unfold roll
    rw [h.running, h.waiting, List.map_append]
    exact (perm_exchange _ _ _ _).subperm_right.2 ((List.subperm_append_left _).2 h.apart)
  refine ⟨?_, fun p hp => ?_⟩
  · obtain ⟨l, hl, hsub⟩ := hroll
    exact (hl.map _).nodup_iff.1 (hall.sublist (hsub.map _))
  · rw [h.lastId]
    rcases List.mem_append.1 (hroll.subset hp) with hp | hp
    · exact Nat.le_add_right_of_le (hs.issued p hp)
    · exact (mem_numbered hp).2

theorem eraseP_eq_filter {fs : List (RunningFilter φ)} (hn : (fs.map (·.id)).Nodup) (id : Nat) :
    fs.eraseP (·.id = id) = fs.filter (·.id ≠ id) := by
  induction fs with
  | nil => rfl
  | cons f fs ih =>
    rw [List.map_cons, List.nodup_cons] at hn
    by_cases hf : f.id = id
    · have hrest : fs.filter (·.id ≠ id) = fs := by
        refine List.filter_eq_self.2 fun g hg => decide_eq_true fun he => hn.1 ?_
        exact (hf.trans he.symm) ▸ List.mem_map_of_mem hg
      simpa [hf] using hrest.symm
    · simp [hf, ih hn.2]

theorem remove_promotes {id : Nat} {base prom : List (RunningFilter φ)} (hs : Numbered s)
    (hrun : s.running = base ++ prom) (hin : id ∈ base.map (·.id)) (w : World δ) :
    ∃ more, Promotes d { s with running := base.filter (·.id ≠ id) ++ prom }
      (remove d id s w).2.1 more := by
  have hnodup := hs.nodup_running
  rw [hrun, List.map_append, List.nodup_append] at hnodup
  have hprom : prom.filter (·.id ≠ id) = prom :=
    List.filter_eq_self.2 fun g hg => decide_eq_true fun he =>
      hnodup.2.2 id hin g.id (List.mem_map_of_mem hg) he.symm
  have herase : s.running.eraseP (·.id = id) = base.filter (·.id ≠ id) ++ prom := by
    rw [eraseP_eq_filter hs.nodup_running, hrun, List.filter_append, hprom]
  obtain ⟨f, hf⟩ : ∃ f, s.running.find? (·.id = id) = some f := by
    obtain ⟨g, hg, he⟩ := List.mem_map.1 hin
    refine Option.isSome_iff_exists.1 (List.find?_isSome.2 ⟨g, ?_, decide_eq_true he⟩)
    exact hrun ▸ List.mem_append_left prom hg
  unfold remove
  rw [hf, herase]
  exact promoteFrom_promotes s.waiting { s with running := base.filter (·.id ≠ id) ++ prom }
    (halt d f w)

theorem removeAll_promotes {ids : List Nat} {base prom : List (RunningFilter φ)} (hs : Numbered s)
    (hrun : s.running = base ++ prom) (hin : ids ⊆ base.map (·.id)) (hn : ids.Nodup) (w : World δ) :
    ∃ more, Promotes d { s with running := base.filter (·.id ∉ ids) ++ prom }
      (removeAll d ids s w).1 more := by
  -- what has been started on the way stands behind the part that ids are removed from
  induction ids generalizing s w base prom with
  | nil =>
    refine ⟨[], rfl, rfl, ?_, ⟨[], rfl, List.Sublist.refl _⟩, by simp⟩
    simp [removeAll, hrun]
  | cons id ids ih =>
    rw [List.nodup_cons] at hn
    rw [List.cons_subset] at hin
    obtain ⟨more, h⟩ := remove_promotes (d := d) hs hrun hin.1 w
    have hrest : ids ⊆ (base.filter (·.id ≠ id)).map (·.id) := fun i hi => by
      obtain ⟨g, hg, he⟩ := List.mem_map.1 (hin.2 hi)
      have hne : g.id ≠ id := fun hid => hn.1 (hid ▸ he ▸ hi)
      exact he ▸ List.mem_map_of_mem (List.mem_filter.2 ⟨hg, decide_eq_true hne⟩)
    obtain ⟨more', h'⟩ := ih (hs.fades (remove_fades id s w))
      (by rw [h.running, List.append_assoc]) hrest hn.2 (remove d id s w).2.2
    have hfilter : (base.filter (·.id ≠ id)).filter (·.id ∉ ids) =
        base.filter (·.id ∉ id :: ids) := by
      rw [List.filter_filter]
      exact List.filter_congr fun g _ => by simp [Bool.and_comm]
    have hstep : Promotes d { s with running := base.filter (·.id ∉ id :: ids) ++ prom }
        { (remove d id s w).2.1 with
          running := (base.filter (·.id ≠ id)).filter (·.id ∉ ids) ++ (prom ++ more) } more := by
      rw [hfilter, ← List.append_assoc]
      exact ⟨h.maxRunning, h.lastId, rfl, h.waiting, h.fresh⟩
    exact ⟨more ++ more', hstep.trans h'⟩

theorem filter_not_done (hs : Numbered s) (now : Nat) :
    (s.running.map (renew now)).filter
        (·.id ∉ (s.running.filter (isDone now)).map (·.id)) =
      (s.running.filter fun f => !isDone now f).map (renew now) := by
  rw [List.filter_map]
  refine congrArg (List.map (renew now)) (List.filter_congr fun f hf => ?_)
  have hdone : f.id ∈ (s.running.filter (isDone now)).map (·.id) ↔ isDone now f = true := by
    constructor
    · intro hin
      obtain ⟨g, hg, he⟩ := List.mem_map.1 hin
      obtain ⟨hg, hd⟩ := List.mem_filter.1 hg
      exact List.inj_on_of_nodup_map hs.nodup_running hg hf he ▸ hd
    · exact fun hd => List.mem_map_of_mem (List.mem_filter.2 ⟨hf, hd⟩)
  simp only [Function.comp_apply, id_renew, hdone]
  cases isDone now f <;> rfl

theorem retire_promotes (hs : Numbered s) (w : World δ) :
    ∃ more, Promotes d
      { s with running := (s.running.filter fun f => !isDone w.time f).map (renew w.time) }
      (retire d s w).1 more := by
  have hrenewed : Numbered { s with running := s.running.map (renew w.time) } :=
    hs.of_roll (roll_renew w.time s) rfl
  have hids : (s.running.map (renew w.time)).map (·.id) = s.running.map (·.id) := by
    simp [Function.comp_def]
  have hdone : (s.running.filter (isDone w.time)).map (·.id) ⊆
      (s.running.map (renew w.time)).map (·.id) :=
    hids ▸ List.map_subset _ (List.filter_subset_self _)
  obtain ⟨more, h⟩ := removeAll_promotes (d := d) hrenewed (List.append_nil _).symm hdone
    (hs.nodup_running.sublist (List.filter_sublist.map _))
    (w.tellAll (s.running.flatMap (expiryNotes w.time)))
  rw [filter_not_done hs, List.append_nil] at h
  exact ⟨more, h⟩

/-- The schedulers that a device can lead to, whatever it answers and whatever is asked for. -/
inductive Arises (d : Demux δ φ) : Scheduler φ → Prop
  | ofLimit (limit : Nat) : Arises d (ofLimit limit)
  | add (f : FilterSpec) (w : World δ) {s : Scheduler φ} (h : Arises d s) :
    Arises d (add d f s w).2.1
  | install (f : FilterSpec) (w : World δ) {s : Scheduler φ} (h : Arises d s) :
    Arises d (install d f s w).2.1
  | remove (id : Nat) (w : World δ) {s : Scheduler φ} (h : Arises d s) :
    Arises d (remove d id s w).2.1
  | clear (w : World δ) {s : Scheduler φ} (h : Arises d s) : Arises d (clear d s w).1
  | pollOnce {η : Type} (timeout : Nat) (handle : Handler η) (x : η) (w : World δ)
    {s : Scheduler φ} (h : Arises d s) : Arises d (pollOnce d timeout handle x s w).2.2.1

theorem Numbered.retire (hs : Numbered s) (w : World δ) : Numbered (retire d s w).1 :=
  (hs.of_roll (roll_renew w.time s) rfl).fades (removeAll_fades _ _ _)

theorem Numbered.pollOnce (hs : Numbered s) (timeout : Nat) (handle : Handler η) (x : η)
    (w : World δ) : Numbered (pollOnce d timeout handle x s w).2.2.1 := by
  have hr := hs.fades (readied_fades (d := d) s w)
  rw [pollOnce_readied]
  dsimp only
  split
  · exact hr.fades (fades_waiting (d := d) (List.nil_sublist _))
  · split
    · exact hr
    · next ready w₁ hp =>
      have hfixed := fixed_foldl_serve (d := d) handle ⟨(readied d s w).1.running, x, [], w₁⟩ ready
      generalize ready.foldl (serve d handle) ⟨(readied d s w).1.running, x, [], w₁⟩ = p at hfixed ⊢
      obtain ⟨started, queued, ha⟩ := addAll_admits (d := d) p.requests
        { (readied d s w).1 with running := p.running } p.world
      exact ((hr.of_roll (roll_fixed hfixed) rfl).admits ha).retire _

theorem Arises.numbered (h : Arises d s) : Numbered s := by
  induction h with
  | ofLimit limit => exact ⟨List.nodup_nil, by simp [roll, Scheduler.ofLimit]⟩
  | add f w h ih =>
    obtain ⟨started, queued, ha⟩ := add_admits (d := d) f _ w
    exact ih.admits ha
  | install f w h ih =>
    obtain ⟨started, ha⟩ := install_admits (d := d) f _ w
    exact ih.admits ha
  | remove id w h ih => exact ih.fades (remove_fades id _ w)
  | clear w h ih => exact ⟨List.nodup_nil, by simp [roll, Scheduler.clear]⟩
  | pollOnce timeout handle x w h ih => exact ih.pollOnce timeout handle x w

theorem Arises.addAll (h : Arises d s) (fs : List FilterSpec) (w : World δ) :
    Arises d (addAll d fs s w).1 := by
  induction fs generalizing s w with
  | nil => exact h
  | cons f fs ih => exact ih (h.add f w) _

end Bandscan.Scheduler
