import Mathlib.Data.List.Sublists
import Bandscan.Proofs.SchedulerFrame
/-!
The filters of a scheduler with their ids, whatever the device makes of them. `start_outcomes` takes
the starting of a filter apart. Waiting filters get their turn in their order, behind the running
ones (`Promotes`). Filters that are added are numbered in their order (`Admits`), and no other call
brings one in (`Fades`).
-/

namespace Bandscan.Scheduler

variable {δ φ : Type} {d : Demux δ φ} {s s' s'' : Scheduler φ}

/-- The ids and specifications of all filters, in the order in which they get their turn. -/
def roll (s : Scheduler φ) : List (Nat × FilterSpec) :=
  s.running.map (fun f => (f.id, f.spec)) ++ s.waiting

theorem mem_roll {f : RunningFilter φ} (hf : f ∈ s.running) : (f.id, f.spec) ∈ s.roll :=
  List.mem_append_left _ (List.mem_map_of_mem (f := fun f => (f.id, f.spec)) hf)

theorem spec_mem_roll {f : RunningFilter φ} (hf : f ∈ s.running) : f.spec ∈ s.roll.map Prod.snd :=
  List.mem_map_of_mem (f := Prod.snd) (mem_roll hf)

@[simp] theorem id_renew (now : Nat) (f : RunningFilter φ) : (renew now f).id = f.id := by
  unfold renew
  split <;> rfl

@[simp] theorem spec_renew (now : Nat) (f : RunningFilter φ) : (renew now f).spec = f.spec := by
  unfold renew
  split <;> rfl

theorem roll_renew (now : Nat) (s : Scheduler φ) :
    roll { s with running := s.running.map (renew now) } = s.roll := by
  simp [roll, Function.comp_def]

/-- The filter has been started at this time and nothing has been collected yet. -/
structure Fresh (d : Demux δ φ) (now : Nat) (p : Nat × FilterSpec) (f : RunningFilter φ) :
    Prop where
  id : f.id = p.1
  spec : f.spec = p.2
  started : f.started = now
  collector : f.collector = { tableId := p.2.tableId, segmented := p.2.segmented }
  opened : ∃ w, (d.openFilter p.2.pid p.2.tableId w).1 = .ok f.handle

theorem start_outcomes (d : Demux δ φ) (id : Nat) (f : FilterSpec) (s : Scheduler φ) (w : World δ) :
    (∃ e w', start d id f s w = (.error e, s, w')) ∨
    ∃ g w', Fresh d w'.time (id, f) g ∧
      start d id f s w = (.ok (), { s with running := s.running ++ [g] }, w') := by
  unfold start
  split
  · exact .inl ⟨_, _, rfl⟩
  · rcases ho : d.openFilter f.pid f.tableId w with ⟨e | handle, w'⟩
    · exact .inl ⟨e, w', rfl⟩
    · exact .inr ⟨_, _, ⟨rfl, rfl, rfl, rfl, w, congrArg Prod.fst ho⟩, rfl⟩

/-- The filters `more` have been started in the order in which they waited. The others that are gone
have been refused. -/
structure Promotes (d : Demux δ φ) (s s' : Scheduler φ) (more : List (RunningFilter φ)) :
    Prop where
  maxRunning : s'.maxRunning = s.maxRunning
  lastId : s'.lastId = s.lastId
  running : s'.running = s.running ++ more
  waiting : ∃ gone, s.waiting = gone ++ s'.waiting ∧
    (more.map fun f => (f.id, f.spec)).Sublist gone
  fresh : ∀ g ∈ more, ∃ now, Fresh d now (g.id, g.spec) g

theorem Promotes.refl (s : Scheduler φ) : Promotes d s s [] :=
  ⟨rfl, rfl, (List.append_nil _).symm, ⟨[], rfl, List.Sublist.refl _⟩, by simp⟩

theorem Promotes.trans {more more' : List (RunningFilter φ)} (h : Promotes d s s' more)
    (h' : Promotes d s' s'' more') : Promotes d s s'' (more ++ more') where
  maxRunning := h'.maxRunning.trans h.maxRunning
  lastId := h'.lastId.trans h.lastId
  running := by rw [h'.running, h.running, List.append_assoc]
  waiting := by
    obtain ⟨gone, hw, hm⟩ := h.waiting
    obtain ⟨gone', hw', hm'⟩ := h'.waiting
    refine ⟨gone ++ gone', by rw [hw, hw', List.append_assoc], ?_⟩
    rw [List.map_append]
    exact hm.append hm'
  fresh g hg := (List.mem_append.1 hg).elim (h.fresh g) (h'.fresh g)

theorem promoteFrom_promotes (ws : List (Nat × FilterSpec)) (s : Scheduler φ) (w : World δ) :
    ∃ more, Promotes d { s with waiting := ws } (promoteFrom d ws s w).1 more := by
  induction ws generalizing s w with
  | nil => exact ⟨[], .refl _⟩
  | cons p ws ih =>
    obtain ⟨id, f⟩ := p
    unfold promoteFrom
    split
    · exact ⟨[], .refl _⟩
    · rcases start_outcomes d id f s w with ⟨e, w', he⟩ | ⟨g, w', hg, he⟩ <;> rw [he]
      · cases e with
        | exhausted => exact ⟨[], .refl _⟩
        | openFailed | setFilter | overflow | read | poll =>
          have hgone : Promotes d { s with waiting := (id, f) :: ws } { s with waiting := ws } [] :=
            ⟨rfl, rfl, (List.append_nil _).symm, ⟨[(id, f)], rfl, List.nil_sublist _⟩, by simp⟩
          obtain ⟨more, hm⟩ := ih s _
          exact ⟨more, hgone.trans hm⟩
      · have hentry : (g.id, g.spec) = (id, f) := Prod.ext hg.id hg.spec
        have hstarted : Promotes d { s with waiting := (id, f) :: ws }
            { s with running := s.running ++ [g], waiting := ws } [g] :=
          ⟨rfl, rfl, rfl, ⟨[(id, f)], rfl, by simp [hentry]⟩, fun k hk => by
            rw [List.mem_singleton.1 hk]
            exact ⟨_, hentry.symm ▸ hg⟩⟩
        obtain ⟨more, hm⟩ := ih { s with running := s.running ++ [g] } w'
        exact ⟨g :: more, hstarted.trans hm⟩

def numbered : Nat → List FilterSpec → List (Nat × FilterSpec)
  | _, [] => []
  | n, f :: fs => (n + 1, f) :: numbered (n + 1) fs

theorem numbered_append (n : Nat) (fs gs : List FilterSpec) :
    numbered n (fs ++ gs) = numbered n fs ++ numbered (n + fs.length) gs := by
  induction fs generalizing n with
  | nil => rfl
  | cons f fs ih =>
    rw [List.cons_append, numbered, numbered, ih, List.length_cons, Nat.add_right_comm n 1]
    rfl

theorem mem_numbered {n : Nat} {fs : List FilterSpec} {p : Nat × FilterSpec}
    (h : p ∈ numbered n fs) : n < p.1 ∧ p.1 ≤ n + fs.length := by
  induction fs generalizing n with
  | nil => simp [numbered] at h
  | cons f fs ih =>
    rw [List.length_cons]
    rcases List.mem_cons.1 h with rfl | h
    · exact ⟨Nat.lt_succ_self n, by dsimp only; omega⟩
    · have := ih h
      omega

theorem nodup_numbered (n : Nat) (fs : List FilterSpec) :
    ((numbered n fs).map Prod.fst).Nodup := by
  induction fs generalizing n with
  | nil => exact List.nodup_nil
  | cons f fs ih =>
    rw [numbered, List.map_cons, List.nodup_cons]
    refine ⟨fun hin => ?_, ih (n + 1)⟩
    obtain ⟨p, hp, he⟩ := List.mem_map.1 hin
    have := (mem_numbered hp).1
    omega

theorem perm_exchange {α : Type} (as bs cs ds : List α) :
    (as ++ bs ++ (cs ++ ds)).Perm (as ++ cs ++ (bs ++ ds)) := by
  have hmiddle : (bs ++ cs ++ ds).Perm (cs ++ bs ++ ds) := List.perm_append_comm.append_right ds
  simpa only [List.append_assoc] using hmiddle.append_left as

/-- Filters have been added in their order. Some have been started and come last among those that
run, some wait behind all others, and the rest has been refused. -/
structure Admits (d : Demux δ φ) (fs : List FilterSpec) (s s' : Scheduler φ)
    (started : List (RunningFilter φ)) (queued : List (Nat × FilterSpec)) : Prop where
  lastId : s'.lastId = s.lastId + fs.length
  running : s'.running = s.running ++ started
  waiting : s'.waiting = s.waiting ++ queued
  startedOrder : (started.map fun f => (f.id, f.spec)).Sublist (numbered s.lastId fs)
  queuedOrder : queued.Sublist (numbered s.lastId fs)
  apart : ((started.map fun f => (f.id, f.spec)) ++ queued).Subperm (numbered s.lastId fs)
  fresh : ∀ g ∈ started, ∃ now, Fresh d now (g.id, g.spec) g

theorem Admits.refl (s : Scheduler φ) : Admits d [] s s [] [] :=
  ⟨rfl, (List.append_nil _).symm, (List.append_nil _).symm, List.Sublist.refl _,
    List.Sublist.refl _, List.Subperm.refl _, by simp⟩

theorem Admits.trans {fs gs : List FilterSpec} {started started' : List (RunningFilter φ)}
    {queued queued' : List (Nat × FilterSpec)} (h : Admits d fs s s' started queued)
    (h' : Admits d gs s' s'' started' queued') :
    Admits d (fs ++ gs) s s'' (started ++ started') (queued ++ queued') where
  lastId := by rw [h'.lastId, h.lastId, List.length_append, Nat.add_assoc]
  running := by rw [h'.running, h.running, List.append_assoc]
  waiting := by rw [h'.waiting, h.waiting, List.append_assoc]
  startedOrder := by
    rw [numbered_append, ← h.lastId, List.map_append]
    exact h.startedOrder.append h'.startedOrder
  queuedOrder := by
    rw [numbered_append, ← h.lastId]
    exact h.queuedOrder.append h'.queuedOrder
  apart := by
    rw [numbered_append, ← h.lastId, List.map_append]
    exact (perm_exchange _ _ _ _).subperm_right.2 (h.apart.append h'.apart)
  fresh g hg := (List.mem_append.1 hg).elim (h.fresh g) (h'.fresh g)

theorem admits_started {f : FilterSpec} {now : Nat} {g : RunningFilter φ}
    (hg : Fresh d now (s.lastId + 1, f) g) :
    Admits d [f] s { s with lastId := s.lastId + 1, running := s.running ++ [g] } [g] [] := by
  have hentry : (g.id, g.spec) = (s.lastId + 1, f) := Prod.ext hg.id hg.spec
  have hlist : [g].map (fun f => (f.id, f.spec)) = numbered s.lastId [f] := congrArg ([·]) hentry
  refine ⟨rfl, rfl, (List.append_nil _).symm, hlist ▸ List.Sublist.refl _, List.nil_sublist _, ?_,
    fun k hk => ?_⟩
  · rw [List.append_nil, hlist]
  · rw [List.mem_singleton.1 hk]
    exact ⟨now, hentry.symm ▸ hg⟩

theorem admits_refused (f : FilterSpec) (s : Scheduler φ) :
    Admits d [f] s { s with lastId := s.lastId + 1 } [] [] :=
  ⟨rfl, (List.append_nil _).symm, (List.append_nil _).symm, List.nil_sublist _,
    List.nil_sublist _, List.nil_subperm, by simp⟩

theorem add_admits (f : FilterSpec) (s : Scheduler φ) (w : World δ) :
    ∃ started queued, Admits d [f] s (add d f s w).2.1 started queued := by
  unfold add
  dsimp only
  rcases start_outcomes d (s.lastId + 1) f { s with lastId := s.lastId + 1 } w
    with ⟨e, w', he⟩ | ⟨g, w', hg, he⟩ <;> rw [he]
  · cases e with
    | exhausted =>
      exact ⟨[], [(s.lastId + 1, f)], rfl, (List.append_nil _).symm, rfl, List.nil_sublist _,
        List.Sublist.refl _, List.Subperm.refl _, by simp⟩
    | openFailed | setFilter | overflow | read | poll => exact ⟨[], [], admits_refused f s⟩
  · exact ⟨[g], [], admits_started hg⟩

theorem addAll_admits (fs : List FilterSpec) (s : Scheduler φ) (w : World δ) :
    ∃ started queued, Admits d fs s (addAll d fs s w).1 started queued := by
  induction fs generalizing s w with
  | nil => exact ⟨[], [], .refl s⟩
  | cons f fs ih =>
    obtain ⟨started, queued, h⟩ := add_admits (d := d) f s w
    obtain ⟨started', queued', h'⟩ := ih (add d f s w).2.1 (add d f s w).2.2
    exact ⟨_, _, h.trans h'⟩

theorem install_admits (f : FilterSpec) (s : Scheduler φ) (w : World δ) :
    ∃ started, Admits d [f] s (install d f s w).2.1 started [] := by
  unfold install
  dsimp only
  rcases start_outcomes d (s.lastId + 1) f { s with lastId := s.lastId + 1 } w
    with ⟨e, w', he⟩ | ⟨g, w', hg, he⟩ <;> rw [he]
  · exact ⟨[], admits_refused f s⟩
  · exact ⟨[g], admits_started hg⟩

/-- No filter has come in. One that waits may have been started. -/
structure Fades (d : Demux δ φ) (s s' : Scheduler φ) : Prop where
  maxRunning : s'.maxRunning = s.maxRunning
  lastId : s'.lastId = s.lastId
  roll : s'.roll.Sublist s.roll
  waiting : s'.waiting.Sublist s.waiting
  running : ∀ g ∈ s'.running, g ∈ s.running ∨ ∃ p ∈ s.waiting, ∃ now, Fresh d now p g

theorem Fades.refl (s : Scheduler φ) : Fades d s s :=
  ⟨rfl, rfl, List.Sublist.refl _, List.Sublist.refl _, fun _ => .inl⟩

theorem Fades.trans (h : Fades d s s') (h' : Fades d s' s'') : Fades d s s'' where
  maxRunning := h'.maxRunning.trans h.maxRunning
  lastId := h'.lastId.trans h.lastId
  roll := h'.roll.trans h.roll
  waiting := h'.waiting.trans h.waiting
  running g hg := by
    rcases h'.running g hg with hg | ⟨p, hp, hg⟩
    · exact h.running g hg
    · exact .inr ⟨p, h.waiting.subset hp, hg⟩

theorem fades_waiting {ws : List (Nat × FilterSpec)} (h : ws.Sublist s.waiting) :
    Fades d s { s with waiting := ws } :=
  ⟨rfl, rfl, h.append_left _, h, fun _ => .inl⟩

theorem fades_running {fs : List (RunningFilter φ)} (h : fs.Sublist s.running) :
    Fades d s { s with running := fs } :=
  ⟨rfl, rfl, (h.map _).append_right _, List.Sublist.refl _, fun _ hg => .inl (h.subset hg)⟩

theorem roll_started {now : Nat} {p : Nat × FilterSpec} {g : RunningFilter φ}
    (hg : Fresh d now p g) (ws : List (Nat × FilterSpec)) (s : Scheduler φ) :
    roll { s with running := s.running ++ [g], waiting := ws } =
      roll { s with waiting := p :: ws } := by
  have hp : (g.id, g.spec) = p := Prod.ext hg.id hg.spec
  simp [roll, hp]

theorem Promotes.fades {more : List (RunningFilter φ)} (h : Promotes d s s' more) :
    Fades d s s' := by
  obtain ⟨gone, hw, hm⟩ := h.waiting
  refine ⟨h.maxRunning, h.lastId, ?_, hw ▸ List.sublist_append_right _ _, fun g hg => ?_⟩
  · unfold Scheduler.roll
    rw [h.running, hw, List.map_append, List.append_assoc]
    exact (hm.append_right _).append_left _
  · rw [h.running] at hg
    refine (List.mem_append.1 hg).imp_right fun hg => ?_
    have hgone := hm.subset (List.mem_map_of_mem (f := fun f => (f.id, f.spec)) hg)
    exact ⟨_, hw ▸ List.mem_append_left _ hgone, h.fresh g hg⟩

theorem promoteFrom_fades (ws : List (Nat × FilterSpec)) (s : Scheduler φ) (w : World δ) :
    Fades d { s with waiting := ws } (promoteFrom d ws s w).1 := by
  obtain ⟨more, hm⟩ := promoteFrom_promotes (d := d) ws s w
  exact hm.fades

theorem remove_fades (id : Nat) (s : Scheduler φ) (w : World δ) :
    Fades d s (remove d id s w).2.1 := by
  unfold remove
  cases s.running.find? (·.id = id) with
  | none => exact fades_waiting List.eraseP_sublist
  | some f =>
    exact (fades_running List.eraseP_sublist).trans
      (promoteFrom_fades s.waiting { s with running := s.running.eraseP (·.id = id) } _)

theorem removeAll_fades (ids : List Nat) (s : Scheduler φ) (w : World δ) :
    Fades d s (removeAll d ids s w).1 := by
  induction ids generalizing s w with
  | nil => exact .refl s
  | cons id ids ih => exact (remove_fades id s w).trans (ih _ _)

end Bandscan.Scheduler
