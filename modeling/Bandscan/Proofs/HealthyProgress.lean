import Bandscan.Proofs.HealthyDemux
/-!
On a healthy device filters come to their end if time goes on. The time that is left to the filters
for association tables comes first, since only these tables let new filters come in. What waits to
be read comes last: it may grow whenever time passes, but not otherwise.
-/

namespace Bandscan.Scheduler

variable {δ φ η : Type} {d : Demux δ φ} {Good : δ → Prop} {stock : δ → Nat} {interval : Nat}
  {P : FilterSpec → Bool} {s s' : Scheduler φ} {w w' w'' : World δ}

/-- Time has passed, or nothing has come in. -/
def Onward (stock : δ → Nat) (w w' : World δ) : Prop :=
  w.time < w'.time ∨ w.time = w'.time ∧ stock w'.device ≤ stock w.device

/-- Time has passed, or something has been taken out. -/
def Ahead (stock : δ → Nat) (w w' : World δ) : Prop :=
  w.time < w'.time ∨ w.time = w'.time ∧ stock w'.device < stock w.device

theorem Onward.trans (h : Onward stock w w') (h' : Onward stock w' w'') : Onward stock w w'' := by
  unfold Onward at *
  omega

theorem Onward.then (h : Onward stock w w') (h' : Ahead stock w' w'') : Ahead stock w w'' := by
  unfold Onward at h
  unfold Ahead at *
  omega

theorem Ahead.then (h : Ahead stock w w') (h' : Onward stock w' w'') : Ahead stock w w'' := by
  unfold Onward at h'
  unfold Ahead at *
  omega

theorem Ahead.onward (h : Ahead stock w w') : Onward stock w w' := by
  unfold Ahead at h
  unfold Onward
  omega

theorem Onward.time_le (h : Onward stock w w') : w.time ≤ w'.time := by
  unfold Onward at h
  omega

/-- On a healthy device time goes on, or else it delivers less and less. If filters are polled at
the given interval, the poll takes time, or the first filter that is ready can be read. -/
structure Lively (d : Demux δ φ) (Good : δ → Prop) (stock : δ → Nat) (interval : Nat) : Prop
    extends Healthy d Good where
  opening : ∀ pid tableId w, Good w.device → Onward stock w (d.openFilter pid tableId w).2
  reading : ∀ f w, Good w.device → Onward stock w (d.read f w).2
  stopping : ∀ f w, Good w.device → Onward stock w (d.stop f w).2
  closing : ∀ f w, Good w.device → Onward stock w (d.close f w)
  polling : ∀ fs w, Good w.device → Onward stock w (d.poll fs interval w).2
  progress : ∀ fs w, fs ≠ [] → Good w.device → Ahead stock w (d.poll fs interval w).2 ∨
    ∃ i ready f, (d.poll fs interval w).1 = .ok (i :: ready) ∧ fs[i]? = some f ∧
      Ahead stock (d.poll fs interval w).2 (d.read f (d.poll fs interval w).2).2

theorem Lively.onward (h : Lively d Good stock interval) :
    ReadingFrame d fun w w' => Good w.device → Good w'.device ∧ Onward stock w w' where
  refl _ hw := ⟨hw, .inr ⟨rfl, Nat.le_refl _⟩⟩
  trans h h' hw := ⟨(h' (h hw).1).1, (h hw).2.trans (h' (h hw).1).2⟩
  tell _ _ hw := ⟨hw, .inr ⟨rfl, Nat.le_refl _⟩⟩
  openFilter pid tableId w hw := ⟨h.openFilter pid tableId w hw, h.opening pid tableId w hw⟩
  read f w hw := ⟨h.read f w hw, h.reading f w hw⟩
  stop f w hw := ⟨h.stop f w hw, h.stopping f w hw⟩
  close f w hw := ⟨h.close f w hw, h.closing f w hw⟩

/-- How long the filters with `P` may go on, and how many they are. Time does not yet run for one
that waits. -/
def debt (P : FilterSpec → Bool) (now : Nat) (s : Scheduler φ) : Nat :=
  ((s.running.filter fun f => P f.spec).map fun f => f.started + f.spec.timeout - now + 1).sum +
    ((s.waiting.filter fun p => P p.2).map fun p => p.2.timeout + 1).sum

theorem debt_waiting_le (now : Nat) {ws : List (Nat × FilterSpec)} (h : ws.Sublist s.waiting) :
    debt P now { s with waiting := ws } ≤ s.debt P now :=
  Nat.add_le_add_left (((h.filter _).map _).sum_le_sum fun _ _ => Nat.zero_le _) _

theorem debt_running_le (now : Nat) {fs : List (RunningFilter φ)} (h : fs.Sublist s.running) :
    debt P now { s with running := fs } ≤ s.debt P now :=
  Nat.add_le_add_right (((h.filter _).map _).sum_le_sum fun _ _ => Nat.zero_le _) _

theorem debt_started_le {started now : Nat} {p : Nat × FilterSpec} {g : RunningFilter φ}
    (hg : Fresh d started p g) (hn : started ≤ now) (ws : List (Nat × FilterSpec))
    (s : Scheduler φ) :
    debt P now { s with running := s.running ++ [g], waiting := ws } ≤
      debt P now { s with waiting := p :: ws } := by
  have hspec := hg.spec
  have hstart := hg.started
  unfold debt
  simp only [List.filter_append, List.map_append, List.sum_append, List.filter_cons,
    List.filter_nil, hspec]
  cases P p.2 with
  | true =>
    simp only [if_true, List.map_cons, List.map_nil, List.sum_cons, List.sum_nil, hspec, hstart]
    omega
  | false => simp

theorem debt_mono {now later : Nat} (h : now ≤ later) (s : Scheduler φ) :
    s.debt P later ≤ s.debt P now :=
  Nat.add_le_add_right (List.sum_le_sum fun _ _ =>
    Nat.add_le_add_right (Nat.sub_le_sub_left h _) 1) _

theorem debt_lt_of_later {now later : Nat} {g : RunningFilter φ} (hg : g ∈ s.running)
    (hP : P g.spec = true) (h : now < later) (ht : now < g.started + g.spec.timeout) :
    s.debt P later < s.debt P now := by
  refine Nat.add_lt_add_right (List.sum_lt_sum _ _ (fun _ _ =>
    Nat.add_le_add_right (Nat.sub_le_sub_left (Nat.le_of_lt h) _) 1) ⟨g, ?_, ?_⟩) _
  · exact List.mem_filter.2 ⟨hg, hP⟩
  · omega

theorem debt_removed_lt (now : Nat) {fs gs : List (RunningFilter φ)} {g : RunningFilter φ}
    (hr : s.running = fs ++ g :: gs) (hP : P g.spec = true) :
    debt P now { s with running := fs ++ gs } < s.debt P now := by
  unfold debt
  simp only [hr, List.filter_append, List.filter_cons, hP, if_true, List.map_append,
    List.sum_append, List.map_cons, List.sum_cons]
  omega

theorem debt_eq_zero {now : Nat} (h : s.debt P now = 0) {f : RunningFilter φ}
    (hf : f ∈ s.running) : P f.spec = false := by
  by_contra hP
  obtain ⟨fs, gs, hr⟩ := List.append_of_mem hf
  have hlt := debt_removed_lt now hr (Bool.eq_true_of_not_eq_false hP)
  omega

theorem exists_of_debt_pos {now : Nat} (h : 0 < s.debt P now)
    (hw : ∀ p ∈ s.waiting, P p.2 = false) : ∃ g ∈ s.running, P g.spec = true := by
  by_contra hn
  have hr : s.running.filter (fun f => P f.spec) = [] :=
    List.filter_eq_nil_iff.2 fun g hg hP => hn ⟨g, hg, hP⟩
  have hq : s.waiting.filter (fun p => P p.2) = [] :=
    List.filter_eq_nil_iff.2 fun p hp => by simp [hw p hp]
  simp [debt, hr, hq] at h

theorem Lively.promoteFrom_debt_le (h : Lively d Good stock interval)
    (ws : List (Nat × FilterSpec)) (s : Scheduler φ) {now : Nat} (hw : Good w.device)
    (hn : (promoteFrom d ws s w).2.time ≤ now) :
    (promoteFrom d ws s w).1.debt P now ≤ debt P now { s with waiting := ws } := by
  induction ws generalizing s w with
  | nil => exact Nat.le_refl _
  | cons p ws ih =>
    rcases h.promoteFrom_cases p ws s hw with ⟨-, he⟩ | ⟨-, g, w', hg, hw', he⟩
    · rw [he]
    · rw [he] at hn ⊢
      have hle := (h.onward.promoteFrom ws { s with running := s.running ++ [g] } w' hw').2.time_le
      exact Nat.le_trans (ih { s with running := s.running ++ [g] } hw' hn)
        (debt_started_le hg (Nat.le_trans hle hn) ws s)

theorem Lively.remove_debt (h : Lively d Good stock interval) (id : Nat) (s : Scheduler φ)
    {now : Nat} (hw : Good w.device) (hn : (remove d id s w).2.2.time ≤ now) :
    (remove d id s w).2.1.debt P now ≤ s.debt P now ∧
      ∀ f, s.running.find? (·.id = id) = some f → P f.spec = true →
        (remove d id s w).2.1.debt P now < s.debt P now := by
  unfold remove at hn ⊢
  cases hf : s.running.find? (·.id = id) with
  | none => exact ⟨debt_waiting_le now List.eraseP_sublist, by simp⟩
  | some f =>
    rw [hf] at hn
    have hgood := h.frame.halt f w hw
    have hp := h.frame.promoteFrom s.waiting
      { s with running := s.running.eraseP (·.id = id) } _ hgood
    have hle := h.promoteFrom_debt_le (P := P) s.waiting
      { s with running := s.running.eraseP (·.id = id) } hgood
      (Nat.le_trans (h.closing f.handle _ hp).time_le hn)
    refine ⟨Nat.le_trans hle (debt_running_le now List.eraseP_sublist), fun g hg hP => ?_⟩
    obtain rfl := Option.some.inj hg
    obtain ⟨fs, gs, hr, he⟩ := exists_of_find? hf
    dsimp only at hle ⊢
    rw [he] at hle ⊢
    exact Nat.lt_of_le_of_lt hle (debt_removed_lt now hr hP)

theorem Lively.removeAll_debt_le (h : Lively d Good stock interval) (ids : List Nat)
    (s : Scheduler φ) {now : Nat} (hw : Good w.device)
    (hn : (removeAll d ids s w).2.time ≤ now) :
    (removeAll d ids s w).1.debt P now ≤ s.debt P now := by
  induction ids generalizing s w with
  | nil => exact Nat.le_refl _
  | cons id ids ih =>
    have hgood := h.frame.remove id s w hw
    have hle := (h.onward.removeAll ids (remove d id s w).2.1 _ hgood).2.time_le
    exact Nat.le_trans (ih _ hgood hn) (h.remove_debt id s hw (Nat.le_trans hle hn)).1

theorem Healthy.mem_promoteFrom (h : Healthy d Good) (ws : List (Nat × FilterSpec))
    {g : RunningFilter φ} (hg : g ∈ s.running) (hw : Good w.device) :
    g ∈ (promoteFrom d ws s w).1.running := by
  induction ws generalizing s w with
  | nil => exact hg
  | cons p ws ih =>
    rcases h.promoteFrom_cases p ws s hw with ⟨-, he⟩ | ⟨-, f, w', -, hw', he⟩ <;> rw [he]
    · exact hg
    · exact ih (List.mem_append_left _ hg) hw'

theorem Healthy.mem_remove (h : Healthy d Good) {id : Nat} {g : RunningFilter φ}
    (hg : g ∈ s.running) (hid : g.id ≠ id) (hw : Good w.device) :
    g ∈ (remove d id s w).2.1.running := by
  unfold remove
  cases s.running.find? (·.id = id) with
  | none => exact hg
  | some f =>
    exact h.mem_promoteFrom s.waiting (s := { s with running := s.running.eraseP (·.id = id) })
      ((List.mem_eraseP_of_neg (by simpa using hid)).2 hg) (h.frame.halt f w hw)

theorem Healthy.mem_addAll (h : Healthy d Good) (fs : List FilterSpec) {g : RunningFilter φ}
    (hg : g ∈ s.running) (hw : Good w.device) : g ∈ (addAll d fs s w).1.running := by
  induction fs generalizing s w with
  | nil => exact hg
  | cons f fs ih =>
    refine ih ?_ (h.frame.add f s w hw)
    rcases h.add_cases f s hw with ⟨-, note, he⟩ | ⟨-, k, w', -, he⟩ <;> rw [he]
    · exact hg
    · exact List.mem_append_left _ hg

theorem Sound.find?_id (hs : Sound s) {g : RunningFilter φ} (hg : g ∈ s.running) :
    s.running.find? (·.id = g.id) = some g := by
  obtain ⟨fs, gs, hr⟩ := List.append_of_mem hg
  refine List.find?_eq_some_iff_append.2 ⟨by simp, fs, gs, hr, fun f hf => ?_⟩
  have hn := hs.ids
  simp only [roll, hr, List.map_append, List.map_cons, List.map_map, List.append_assoc] at hn
  have hd := (List.nodup_append.1 hn).2.2 f.id (List.mem_map_of_mem (f := fun f => f.id) hf) g.id
    (by simp)
  simpa using hd

theorem Lively.removeAll_debt_lt (h : Lively d Good stock interval) {ids : List Nat}
    {g : RunningFilter φ} {now : Nat} (hs : Sound s) (hg : g ∈ s.running)
    (hP : P g.spec = true) (hid : g.id ∈ ids) (hw : Good w.device)
    (hn : (removeAll d ids s w).2.time ≤ now) :
    (removeAll d ids s w).1.debt P now < s.debt P now := by
  induction ids generalizing s w with
  | nil => simp at hid
  | cons id ids ih =>
    have hgood := h.frame.remove id s w hw
    have hle := (h.onward.removeAll ids (remove d id s w).2.1 _ hgood).2.time_le
    have hstep := h.remove_debt (P := P) id s hw (Nat.le_trans hle hn)
    by_cases he : g.id = id
    · exact Nat.lt_of_le_of_lt (h.removeAll_debt_le ids _ hgood hn)
        (hstep.2 g (he ▸ hs.find?_id hg) hP)
    · have hs' := hs.remove h.toHealthy id hw
      have hid' : g.id ∈ ids := (List.mem_cons.1 hid).resolve_left he
      exact Nat.lt_of_lt_of_le (ih hs' (h.mem_remove hg he hw) hid' hgood hn) hstep.1

theorem Lively.retire_debt_le (h : Lively d Good stock interval) (hs : Sound s)
    (hw : Good w.device) :
    (retire d s w).1.debt P (retire d s w).2.time ≤ s.debt P (retire d s w).2.time := by
  rw [hs.retire_eq]
  exact h.removeAll_debt_le _ s (h.tellAll _ hw) (Nat.le_refl _)

/-- Whatever runs at the end of a pass is removed, or the time that has passed is missing. -/
theorem Lively.retire_debt_lt (h : Lively d Good stock interval) {now : Nat}
    {g : RunningFilter φ} (hs : Sound s) (hg : g ∈ s.running) (hP : P g.spec = true)
    (hw : Good w.device) (hn : now ≤ w.time) (hlt : now < (retire d s w).2.time) :
    (retire d s w).1.debt P (retire d s w).2.time < s.debt P now := by
  cases hd : isDone w.time g with
  | true =>
    have hid : g.id ∈ (s.running.filter (isDone w.time)).map (·.id) :=
      List.mem_map_of_mem (List.mem_filter.2 ⟨hg, hd⟩)
    rw [hs.retire_eq] at hlt ⊢
    exact Nat.lt_of_lt_of_le (h.removeAll_debt_lt hs hg hP hid (h.tellAll _ hw) (Nat.le_refl _))
      (debt_mono (Nat.le_of_lt hlt) s)
  | false =>
    have honce : g.spec.runOnce = true := hs.once_running hg
    have hexp : ¬ g.spec.timeout ≤ w.time - g.started := by
      simp only [isDone, honce, Bool.true_and, Bool.or_eq_false_iff, isExpired] at hd
      simpa using hd.2
    exact Nat.lt_of_le_of_lt (h.retire_debt_le hs hw) (debt_lt_of_later hg hP hlt (by omega))

theorem Healthy.addAll_debt (h : Healthy d Good) {fs : List FilterSpec}
    (hf : ∀ f ∈ fs, P f = false) (now : Nat) (hw : Good w.device) :
    (addAll d fs s w).1.debt P now = s.debt P now := by
  induction fs generalizing s w with
  | nil => rfl
  | cons f fs ih =>
    have hP : P f = false := hf f List.mem_cons_self
    refine (ih (fun g hg => hf g (List.mem_cons_of_mem _ hg)) (h.frame.add f s w hw)).trans ?_
    rcases h.add_cases f s hw with ⟨-, note, he⟩ | ⟨-, g, w', hg, he⟩ <;> rw [he]
    · simp [debt, hP]
    · simp [debt, hg.spec, hP]

theorem debt_fixed {fs : List (RunningFilter φ)} (hf : fs.map fixed = s.running.map fixed)
    (now : Nat) : debt P now { s with running := fs } = s.debt P now := by
  have hsum (fs : List (RunningFilter φ)) :
      ((fs.filter fun f => P f.spec).map fun f => f.started + f.spec.timeout - now + 1).sum =
        (((fs.map fixed).filter fun x => P x.2.1).map fun x =>
          x.2.2.2.1 + x.2.1.timeout - now + 1).sum := by
    rw [List.filter_map, List.map_map]
    rfl
  unfold debt
  rw [hsum fs, hsum s.running, hf]

theorem Lively.pollOnce_ahead (h : Lively d Good stock interval) (handle : Handler η) (x : η)
    (hs : Sound s) (hi : s.isIdle = false) (hw : Good w.device) :
    Ahead stock w (pollOnce d interval handle x s w).2.2.2 := by
  have hne := hs.running_ne_nil hi
  obtain ⟨ready, hready, he⟩ := h.pollOnce_eq interval handle x hne hw
  rw [he]
  have hgood := h.poll (s.running.map (·.handle)) interval w hw
  have hpoll := h.polling (s.running.map (·.handle)) w hw
  have hrest (p : Pass δ φ η) (hp : Good p.world.device) :
      Onward stock p.world (Scheduler.retire d
        (Scheduler.addAll d p.requests { s with running := p.running } p.world).1
        (Scheduler.addAll d p.requests { s with running := p.running } p.world).2).2 :=
    (h.onward.trans (h.onward.addAll p.requests _ p.world) (h.onward.retire _ _) hp).2
  dsimp only
  rcases h.progress (s.running.map (·.handle)) w (by simpa using hne) hw with
    ha | ⟨i, rest, f, hr, hf, ha⟩
  · have hserve := h.onward.foldl_serve handle
      ⟨s.running, x, [], (d.poll (s.running.map (·.handle)) interval w).2⟩ ready hgood
    exact (ha.then hserve.2).then (hrest _ hserve.1)
  · obtain rfl : i :: rest = ready := Except.ok.inj (hr.symm.trans hready)
    rw [List.getElem?_map] at hf
    obtain ⟨g, hg, rfl⟩ := Option.map_eq_some_iff.1 hf
    have hfirst := h.onward.trans
      (h.onward.serve_after handle (i := i) (f := g)
        (p := ⟨s.running, x, [], (d.poll (s.running.map (·.handle)) interval w).2⟩) hg)
      (h.onward.foldl_serve handle _ rest) (h.read g.handle _ hgood)
    exact ((hpoll.then ha).then hfirst.2).then (hrest _ hfirst.1)

/-- Time is only given to filters that come in, and these are of no account. -/
theorem Lively.pollOnce_debt (h : Lively d Good stock interval) {S : Section → Prop}
    (ho : Offers d Good S) {handle : Handler η} {Q : η → Prop} (hh : Obliging handle S Q) {x : η}
    (hx : Q x) (hs : Sound s) (hi : s.isIdle = false) (hw : Good w.device)
    (hP : (∀ f, f.tableId ≠ Pat.tableId → P f = false) ∨
      ∀ f ∈ s.running, f.spec.tableId ≠ Pat.tableId) :
    let r := pollOnce d interval handle x s w
    r.2.2.1.debt P r.2.2.2.time ≤ s.debt P w.time ∧
      (w.time < r.2.2.2.time → (∃ g ∈ s.running, P g.spec = true) →
        r.2.2.1.debt P r.2.2.2.time < s.debt P w.time) := by
  have hne := hs.running_ne_nil hi
  obtain ⟨ready, hready, he⟩ := h.pollOnce_eq interval handle x hne hw
  rw [he]
  dsimp only
  have hgood := h.poll (s.running.map (·.handle)) interval w hw
  have hstart : Served Good Q s.running
      ⟨s.running, x, [], (d.poll (s.running.map (·.handle)) interval w).2⟩ :=
    ⟨hgood, hx, rfl, by simp, fun _ => rfl⟩
  have hp := hstart.foldl h.toHealthy ho hh ready
  have ht := (h.polling (s.running.map (·.handle)) w hw).time_le.trans
    (h.onward.foldl_serve handle
      ⟨s.running, x, [], (d.poll (s.running.map (·.handle)) interval w).2⟩ ready hgood).2.time_le
  generalize ready.foldl (serve d handle)
    ⟨s.running, x, [], (d.poll (s.running.map (·.handle)) interval w).2⟩ = p at hp ht ⊢
  have hreq : ∀ f ∈ p.requests, P f = false := by
    rcases hP with hP | hP
    · exact fun f hf => hP f (hp.late f hf).2
    · have hsilent := hp.silent fun f hf => by
        rw [hs.tables f hf]
        exact hP f hf
      simp [hsilent]
  have ha := (hs.served hp).addAll h.toHealthy hp.late hp.good
  have hg := h.onward.addAll p.requests { s with running := p.running } p.world hp.good
  have hdebt (now : Nat) : (Scheduler.addAll d p.requests { s with running := p.running }
      p.world).1.debt P now = s.debt P now :=
    (h.addAll_debt hreq now hp.good).trans (debt_fixed hp.running now)
  have hlate := ht.trans hg.2.time_le
  have hend := (h.onward.retire (Scheduler.addAll d p.requests { s with running := p.running }
    p.world).1 _ hg.1).2.time_le
  refine ⟨?_, fun hlt hex => ?_⟩
  · exact (h.retire_debt_le ha hg.1).trans
      ((debt_mono (hlate.trans hend) _).trans (hdebt w.time).le)
  · obtain ⟨g, hgm, hgP⟩ := hex
    obtain ⟨k, hk, hfix⟩ := exists_fixed hp.running.symm hgm
    have hkP : P k.spec = true := by
      have hspec : k.spec = g.spec := congrArg (·.2.1) hfix
      rw [hspec]
      exact hgP
    have hkm := h.mem_addAll p.requests (s := { s with running := p.running }) hk hp.good
    exact (h.retire_debt_lt ha hkm hkP hg.1 hlate hlt).trans_le (hdebt w.time).le

def isPat (f : FilterSpec) : Bool := f.tableId = Pat.tableId

/-- What is left: time for association tables, then time for all tables if no association table is
left, then what the device has to deliver. -/
def outlook (stock : δ → Nat) (s : Scheduler φ) (w : World δ) : Nat ×ₗ Nat ×ₗ Nat :=
  toLex (s.debt isPat w.time, toLex
    (if s.debt isPat w.time = 0 then s.debt (fun _ => true) w.time else 0, stock w.device))

theorem Lively.pollOnce_outlook (h : Lively d Good stock interval) {S : Section → Prop}
    (ho : Offers d Good S) {handle : Handler η} {Q : η → Prop} (hh : Obliging handle S Q) {x : η}
    (hx : Q x) (hs : Sound s) (hi : s.isIdle = false) (hw : Good w.device) :
    let r := pollOnce d interval handle x s w
    r.2.2.1.outlook stock r.2.2.2 < s.outlook stock w := by
  intro r
  have hpat : ∀ f : FilterSpec, f.tableId ≠ Pat.tableId → isPat f = false :=
    fun f hf => decide_eq_false hf
  obtain ⟨hle, hlt⟩ := h.pollOnce_debt (P := isPat) ho hh hx hs hi hw (.inl hpat)
  have hahead := h.pollOnce_ahead handle x hs hi hw
  change r.2.2.1.debt isPat r.2.2.2.time ≤ s.debt isPat w.time at hle
  change w.time < r.2.2.2.time → (∃ g ∈ s.running, isPat g.spec = true) →
    r.2.2.1.debt isPat r.2.2.2.time < s.debt isPat w.time at hlt
  change Ahead stock w r.2.2.2 at hahead
  unfold outlook
  rw [Prod.Lex.toLex_lt_toLex, Prod.Lex.toLex_lt_toLex]
  rcases Nat.eq_zero_or_pos (s.debt isPat w.time) with hzero | hpos
  · -- No table that is left asks for filters, so that the time of all of them counts.
    have hzero' : r.2.2.1.debt isPat r.2.2.2.time = 0 := Nat.le_zero.1 (hzero ▸ hle)
    have hno : ∀ f ∈ s.running, f.spec.tableId ≠ Pat.tableId := fun f hf =>
      of_decide_eq_false (debt_eq_zero hzero hf)
    obtain ⟨hall, hall'⟩ := h.pollOnce_debt (P := fun _ => true) ho hh hx hs hi hw (.inr hno)
    change r.2.2.1.debt (fun _ => true) r.2.2.2.time ≤ s.debt (fun _ => true) w.time at hall
    change w.time < r.2.2.2.time → (∃ g ∈ s.running, true = true) →
      r.2.2.1.debt (fun _ => true) r.2.2.2.time < s.debt (fun _ => true) w.time at hall'
    obtain ⟨g, hg⟩ := List.exists_mem_of_ne_nil _ (hs.running_ne_nil hi)
    simp only [hzero, hzero', if_true, Nat.lt_irrefl, false_or, true_and]
    rcases hahead with ht | ⟨-, hq⟩
    · exact .inl (hall' ht ⟨g, hg, rfl⟩)
    · rcases Nat.lt_or_eq_of_le hall with hlt | heq
      · exact .inl hlt
      · exact .inr ⟨heq, hq⟩
  · rcases Nat.lt_or_eq_of_le hle with hless | heq
    · exact .inl hless
    · -- Association tables are left and no time has passed for them.
      have hex := exists_of_debt_pos hpos fun p hp => hpat p.2 (hs.late p hp)
      have hnot : ¬ w.time < r.2.2.2.time := fun ht => Nat.ne_of_lt (hlt ht hex) heq
      have hpos' : r.2.2.1.debt isPat r.2.2.2.time ≠ 0 := heq ▸ Nat.ne_of_gt hpos
      refine .inr ⟨heq, .inr ⟨?_, (hahead.resolve_left hnot).2⟩⟩
      rw [if_neg hpos', if_neg (Nat.ne_of_gt hpos)]

end Bandscan.Scheduler
