import Bandscan.Proofs.FilterRoll
import Bandscan.Proofs.PollProgress
import Bandscan.Table.Pat
/-!
A device is healthy if it opens every filter asked of it and its polls do not fail. A scheduler on
such a device never refuses a filter: one that finds no slot in the pool waits for its turn. The
list of all filters with their ids, `roll`, is then a simple account of what a call does.
-/

namespace Bandscan.Scheduler

variable {δ φ η : Type} {d : Demux δ φ} {Good : δ → Prop} {s s' s'' : Scheduler φ} {w : World δ}

/-- A device in a good state opens every filter, its polls do not fail, and it stays in a good
state. -/
structure Healthy (d : Demux δ φ) (Good : δ → Prop) : Prop where
  opens : ∀ pid tableId w, Good w.device → ∃ f, (d.openFilter pid tableId w).1 = .ok f
  polls : ∀ fs timeout w, Good w.device → ∃ ready, (d.poll fs timeout w).1 = .ok ready
  openFilter : ∀ pid tableId w, Good w.device → Good (d.openFilter pid tableId w).2.device
  poll : ∀ fs timeout w, Good w.device → Good (d.poll fs timeout w).2.device
  read : ∀ f w, Good w.device → Good (d.read f w).2.device
  stop : ∀ f w, Good w.device → Good (d.stop f w).2.device
  close : ∀ f w, Good w.device → Good (d.close f w).device

theorem Healthy.frame (h : Healthy d Good) :
    ReadingFrame d fun w w' => Good w.device → Good w'.device where
  refl _ := id
  trans h h' hw := h' (h hw)
  tell _ _ := id
  openFilter := h.openFilter
  read := h.read
  stop := h.stop
  close := h.close

theorem Healthy.start_cases (h : Healthy d Good) (p : Nat × FilterSpec) (s : Scheduler φ)
    (hw : Good w.device) :
    (s.isFull = true ∧ start d p.1 p.2 s w = (.error .exhausted, s, w)) ∨
    (s.isFull = false ∧ ∃ g w', Fresh d w'.time p g ∧
      start d p.1 p.2 s w = (.ok (), { s with running := s.running ++ [g] }, w')) := by
  unfold start
  cases hf : s.isFull with
  | true => exact .inl ⟨rfl, if_pos rfl⟩
  | false =>
    obtain ⟨handle, ho⟩ := h.opens p.2.pid p.2.tableId w hw
    have hopened : ∃ w, (d.openFilter p.2.pid p.2.tableId w).1 = .ok handle := ⟨w, ho⟩
    rw [if_neg Bool.false_ne_true]
    rcases hr : d.openFilter p.2.pid p.2.tableId w with ⟨r, w'⟩
    rw [hr] at ho
    obtain rfl : r = .ok handle := ho
    exact .inr ⟨rfl, _, _, ⟨rfl, rfl, rfl, rfl, hopened⟩, rfl⟩

theorem Healthy.add_cases (h : Healthy d Good) (f : FilterSpec) (s : Scheduler φ)
    (hw : Good w.device) :
    (s.isFull = true ∧ ∃ note, add d f s w = (.queued (s.lastId + 1), { s with
      lastId := s.lastId + 1, waiting := s.waiting ++ [(s.lastId + 1, f)] }, w.tell note)) ∨
    (s.isFull = false ∧ ∃ g w', Fresh d w'.time (s.lastId + 1, f) g ∧
      add d f s w = (.running (s.lastId + 1), { s with
        lastId := s.lastId + 1, running := s.running ++ [g] }, w')) := by
  rcases h.start_cases (s.lastId + 1, f) { s with lastId := s.lastId + 1 } hw with
    ⟨hf, he⟩ | ⟨hf, g, w', hg, he⟩
  · exact .inl ⟨hf, _, by simp only [add, he]; rfl⟩
  · exact .inr ⟨hf, g, w', hg, by simp only [add, he]⟩

theorem Healthy.install_cases (h : Healthy d Good) (f : FilterSpec) (s : Scheduler φ)
    (hw : Good w.device) :
    (s.isFull = true ∧
      install d f s w = (.error .exhausted, { s with lastId := s.lastId + 1 }, w)) ∨
    (s.isFull = false ∧ ∃ g w', Fresh d w'.time (s.lastId + 1, f) g ∧
      install d f s w = (.ok (s.lastId + 1), { s with
        lastId := s.lastId + 1, running := s.running ++ [g] }, w')) := by
  rcases h.start_cases (s.lastId + 1, f) { s with lastId := s.lastId + 1 } hw with
    ⟨hf, he⟩ | ⟨hf, g, w', hg, he⟩
  · exact .inl ⟨hf, by simp only [install, he]⟩
  · exact .inr ⟨hf, g, w', hg, by simp only [install, he]⟩

theorem Healthy.promoteFrom_cases (h : Healthy d Good) (p : Nat × FilterSpec)
    (ws : List (Nat × FilterSpec)) (s : Scheduler φ) (hw : Good w.device) :
    (s.isFull = true ∧ promoteFrom d (p :: ws) s w = ({ s with waiting := p :: ws }, w)) ∨
    (s.isFull = false ∧ ∃ g w', Fresh d w'.time p g ∧ Good w'.device ∧
      promoteFrom d (p :: ws) s w =
        promoteFrom d ws { s with running := s.running ++ [g] } w') := by
  have hgood := h.frame.start p.1 p.2 s w hw
  rw [promoteFrom]
  rcases h.start_cases p s hw with ⟨hf, he⟩ | ⟨hf, g, w', hg, he⟩
  · exact .inl ⟨hf, if_pos hf⟩
  · rw [he] at hgood
    refine .inr ⟨hf, g, w', hg, hgood, ?_⟩
    rw [if_neg (by simp [hf]), he]

theorem Healthy.roll_promoteFrom (h : Healthy d Good) (ws : List (Nat × FilterSpec))
    (s : Scheduler φ) (hw : Good w.device) :
    (promoteFrom d ws s w).1.roll = roll { s with waiting := ws } := by
  induction ws generalizing s w with
  | nil => rfl
  | cons p ws ih =>
    rcases h.promoteFrom_cases p ws s hw with ⟨-, he⟩ | ⟨-, g, w', hg, hw', he⟩ <;> rw [he]
    exact (ih _ hw').trans (roll_started hg ws s)

def Busy (s : Scheduler φ) : Prop := s.waiting ≠ [] → s.isFull = true

theorem Busy.waiting_eq_nil (hs : Busy s) (hfree : s.isFull = false) : s.waiting = [] := by
  by_contra hw
  exact Bool.false_ne_true (hfree.symm.trans (hs hw))

theorem Healthy.promoteFrom_busy (h : Healthy d Good) (ws : List (Nat × FilterSpec))
    (s : Scheduler φ) (hw : Good w.device) : Busy (promoteFrom d ws s w).1 := by
  induction ws generalizing s w with
  | nil => exact fun hn => absurd rfl hn
  | cons p ws ih =>
    rcases h.promoteFrom_cases p ws s hw with ⟨hf, he⟩ | ⟨-, g, w', -, hw', he⟩ <;> rw [he]
    · exact fun _ => hf
    · exact ih _ hw'

theorem Healthy.remove_busy (h : Healthy d Good) (id : Nat) (hs : Busy s) (hw : Good w.device) :
    Busy (remove d id s w).2.1 := by
  unfold remove
  cases s.running.find? (·.id = id) with
  | none =>
    intro hn
    refine hs fun he => hn ?_
    simp [he]
  | some f =>
    exact h.promoteFrom_busy s.waiting { s with running := s.running.eraseP (·.id = id) }
      (h.frame.halt f w hw)

theorem Healthy.removeAll_busy (h : Healthy d Good) (ids : List Nat) (hs : Busy s)
    (hw : Good w.device) : Busy (removeAll d ids s w).1 := by
  induction ids generalizing s w with
  | nil => exact hs
  | cons id ids ih => exact ih (h.remove_busy id hs hw) (h.frame.remove id s w hw)

/-- The ids tell the filters apart, all of them come to an end, nothing waits beside a free slot,
and no association table is waited for. -/
structure Sound (s : Scheduler φ) : Prop where
  room : 0 < s.maxRunning
  ids : (s.roll.map Prod.fst).Nodup
  issued : ∀ p ∈ s.roll, p.1 ≤ s.lastId
  once : ∀ p ∈ s.roll, Once p.2
  tables : ∀ f ∈ s.running, f.collector.tableId = f.spec.tableId
  late : ∀ p ∈ s.waiting, p.2.tableId ≠ Pat.tableId
  busy : Busy s

theorem Sound.fades (hs : Sound s) (h : Fades d s s') (hb : Busy s') : Sound s' where
  room := h.maxRunning ▸ hs.room
  ids := hs.ids.sublist (h.roll.map _)
  issued p hp := h.lastId ▸ hs.issued p (h.roll.subset hp)
  once p hp := hs.once p (h.roll.subset hp)
  tables g hg := by
    rcases h.running g hg with hg | ⟨p, -, now, hf⟩
    · exact hs.tables g hg
    · rw [hf.collector, hf.spec]
  late p hp := hs.late p (h.waiting.subset hp)
  busy := hb

theorem Sound.running_ne_nil (hs : Sound s) (hi : s.isIdle = false) : s.running ≠ [] := by
  intro hr
  have hf : s.isFull = false := by simp [isFull, hr, Nat.ne_of_gt hs.room]
  simp [isIdle, hr, hs.busy.waiting_eq_nil hf] at hi

theorem Sound.once_running (hs : Sound s) {f : RunningFilter φ} (hf : f ∈ s.running) :
    Once f.spec := hs.once (f.id, f.spec) (mem_roll hf)

theorem Sound.remove (h : Healthy d Good) (id : Nat) (hs : Sound s) (hw : Good w.device) :
    Sound (remove d id s w).2.1 :=
  hs.fades (remove_fades id s w) (h.remove_busy id hs.busy hw)

theorem Sound.removeAll (h : Healthy d Good) (ids : List Nat) (hs : Sound s)
    (hw : Good w.device) : Sound (removeAll d ids s w).1 :=
  hs.fades (removeAll_fades ids s w) (h.removeAll_busy ids hs.busy hw)

theorem Sound.retire_eq (hs : Sound s) (w : World δ) :
    retire d s w = Scheduler.removeAll d ((s.running.filter (isDone w.time)).map (·.id)) s
      (w.tellAll (s.running.flatMap (expiryNotes w.time))) := by
  have hr : s.running.map (renew w.time) = s.running := by
    refine (List.map_congr_left fun f hf => ?_).trans (List.map_id s.running)
    have hf : f.spec.runOnce = true := hs.once_running hf
    simp [renew, hf]
  unfold retire
  dsimp only
  rw [hr]

theorem Healthy.tellAll (h : Healthy d Good) (notes : List Note) (hw : Good w.device) :
    Good (w.tellAll notes).device := h.frame.tellAll notes w hw

theorem Sound.retire (h : Healthy d Good) (hs : Sound s) (hw : Good w.device) :
    Sound (retire d s w).1 := by
  rw [hs.retire_eq]
  exact hs.removeAll h _ (h.tellAll _ hw)

theorem Sound.enrol {f : FilterSpec} (hs : Sound s) (hf : Once f) (hl : s'.lastId = s.lastId + 1)
    (hm : s'.maxRunning = s.maxRunning) (hr : s'.roll = s.roll ++ [(s.lastId + 1, f)])
    (ht : ∀ g ∈ s'.running, g.collector.tableId = g.spec.tableId)
    (hw : ∀ p ∈ s'.waiting, p.2.tableId ≠ Pat.tableId) (hb : Busy s') : Sound s' where
  room := hm ▸ hs.room
  ids := by
    rw [hr, List.map_append, List.nodup_append]
    refine ⟨hs.ids, by simp, fun a ha b hb hab => ?_⟩
    obtain ⟨p, hp, rfl⟩ := List.mem_map.1 ha
    have hb : b = s.lastId + 1 := by simpa using hb
    have hle := hs.issued p hp
    omega
  issued p hp := by
    rw [hr] at hp
    rcases List.mem_append.1 hp with hp | hp
    · exact Nat.le_trans (hs.issued p hp) (hl ▸ Nat.le_succ _)
    · rw [List.mem_singleton.1 hp, hl]
  once p hp := by
    rw [hr] at hp
    rcases List.mem_append.1 hp with hp | hp
    · exact hs.once p hp
    · exact List.mem_singleton.1 hp ▸ hf
  tables := ht
  late := hw
  busy := hb

/-- A filter starts in a free slot. Nothing waits there. -/
theorem roll_startNext {f : FilterSpec} {now : Nat} {g : RunningFilter φ} (hs : Busy s)
    (hg : Fresh d now (s.lastId + 1, f) g) (hfree : s.isFull = false) :
    roll { s with lastId := s.lastId + 1, running := s.running ++ [g] } =
      s.roll ++ [(s.lastId + 1, f)] := by
  have hp : (g.id, g.spec) = (s.lastId + 1, f) := Prod.ext hg.id hg.spec
  simp [roll, hs.waiting_eq_nil hfree, hp]

theorem Healthy.roll_add (h : Healthy d Good) (f : FilterSpec) (hs : Busy s)
    (hw : Good w.device) : (add d f s w).2.1.roll = s.roll ++ [(s.lastId + 1, f)] := by
  rcases h.add_cases f s hw with ⟨-, note, he⟩ | ⟨hfree, g, w', hg, he⟩ <;> rw [he]
  · simp [roll]
  · exact roll_startNext hs hg hfree

theorem Sound.startNext {f : FilterSpec} {now : Nat} {g : RunningFilter φ} (hs : Sound s)
    (hf : Once f) (hg : Fresh d now (s.lastId + 1, f) g) (hfree : s.isFull = false) :
    Sound { s with lastId := s.lastId + 1, running := s.running ++ [g] } := by
  refine hs.enrol hf rfl rfl (roll_startNext hs.busy hg hfree) (fun k hk => ?_) hs.late
    (fun hn => absurd (hs.busy.waiting_eq_nil hfree) hn)
  rcases List.mem_append.1 hk with hk | hk
  · exact hs.tables k hk
  · rw [List.mem_singleton.1 hk, hg.collector, hg.spec]

theorem Sound.add (h : Healthy d Good) {f : FilterSpec} (hs : Sound s) (hf : Once f)
    (hp : f.tableId ≠ Pat.tableId) (hw : Good w.device) : Sound (add d f s w).2.1 := by
  have hroll := h.roll_add f hs.busy hw
  rcases h.add_cases f s hw with ⟨hfull, note, he⟩ | ⟨hfree, g, w', hg, he⟩ <;> rw [he] at hroll ⊢
  · refine hs.enrol hf rfl rfl hroll hs.tables (fun p hm => ?_) (fun _ => hfull)
    rcases List.mem_append.1 hm with hm | hm
    · exact hs.late p hm
    · exact List.mem_singleton.1 hm ▸ hp
  · exact hs.startNext hf hg hfree

theorem Sound.addAll (h : Healthy d Good) {fs : List FilterSpec} (hs : Sound s)
    (hf : ∀ f ∈ fs, Once f ∧ f.tableId ≠ Pat.tableId) (hw : Good w.device) :
    Sound (addAll d fs s w).1 := by
  induction fs generalizing s w with
  | nil => exact hs
  | cons f fs ih =>
    obtain ⟨ho, hp⟩ := hf f List.mem_cons_self
    exact ih (hs.add h ho hp hw) (fun g hg => hf g (List.mem_cons_of_mem _ hg))
      (h.frame.add f s w hw)

theorem Sound.specs_addAll (h : Healthy d Good) {fs : List FilterSpec} (hs : Sound s)
    (hf : ∀ f ∈ fs, Once f ∧ f.tableId ≠ Pat.tableId) (hw : Good w.device) :
    (Scheduler.addAll d fs s w).1.roll.map Prod.snd = s.roll.map Prod.snd ++ fs := by
  induction fs generalizing s w with
  | nil => exact (List.append_nil _).symm
  | cons f fs ih =>
    obtain ⟨ho, hp⟩ := hf f List.mem_cons_self
    have hstep := ih (hs.add h ho hp hw) (fun g hg => hf g (List.mem_cons_of_mem _ hg))
      (h.frame.add f s w hw)
    rw [h.roll_add f hs.busy hw] at hstep
    exact hstep.trans (by simp)

theorem Healthy.running_addAll (h : Healthy d Good) {R : World δ → World δ → Prop}
    (hR : Frame d R) (fs : List FilterSpec) (hw : Good w.device) {g : RunningFilter φ}
    (hg : g ∈ (addAll d fs s w).1.running) :
    g ∈ s.running ∨ ∃ p w', p.2 ∈ fs ∧ R w w' ∧ Fresh d w'.time p g := by
  induction fs generalizing s w with
  | nil => exact .inl hg
  | cons f fs ih =>
    have hstep := hR.add f s w
    rcases ih (h.frame.add f s w hw) hg with hg | ⟨p, w', hp, hw', hf⟩
    · rcases h.add_cases f s hw with ⟨-, note, he⟩ | ⟨-, k, w', hk, he⟩ <;> rw [he] at hg hstep
      · exact .inl hg
      · rcases List.mem_append.1 hg with hg | hg
        · exact .inl hg
        · obtain rfl := List.mem_singleton.1 hg
          exact .inr ⟨_, w', List.mem_cons_self, hstep, hk⟩
    · exact .inr ⟨p, w', List.mem_cons_of_mem _ hp, hR.trans hstep hw', hf⟩

theorem Sound.ofLimit (limit : Nat) : Sound (ofLimit limit : Scheduler φ) where
  room := Nat.lt_of_lt_of_le Nat.one_pos (Nat.le_max_left 1 limit)
  ids := List.nodup_nil
  issued := by simp [roll, Scheduler.ofLimit]
  once := by simp [roll, Scheduler.ofLimit]
  tables := by simp [Scheduler.ofLimit]
  late := by simp [Scheduler.ofLimit]
  busy hn := absurd rfl hn

/-- What a filter keeps while it is read. -/
def fixed (f : RunningFilter φ) : Nat × FilterSpec × φ × Nat × Nat :=
  (f.id, f.spec, f.handle, f.started, f.collector.tableId)

theorem map_fixed_set {fs : List (RunningFilter φ)} {i : Nat} {f f' : RunningFilter φ}
    (hi : fs[i]? = some f) (hf : fixed f' = fixed f) :
    (fs.set i f').map fixed = fs.map fixed := by
  obtain ⟨hlt, he⟩ := List.getElem?_eq_some_iff.1 hi
  have hlt' : i < (fs.map fixed).length := by simpa using hlt
  have hfix : fixed f' = (fs.map fixed)[i] := by rw [List.getElem_map, he]; exact hf
  rw [List.map_set, hfix, List.set_getElem_self]

theorem roll_fixed {fs : List (RunningFilter φ)} (hf : fs.map fixed = s.running.map fixed) :
    roll { s with running := fs } = s.roll := by
  have hm := congrArg (List.map fun x : Nat × FilterSpec × φ × Nat × Nat => (x.1, x.2.1)) hf
  simp only [List.map_map, Function.comp_def, fixed] at hm
  simp only [roll, hm]

def Offers (d : Demux δ φ) (Good : δ → Prop) (S : Section → Prop) : Prop :=
  ∀ f w bytes t, Good w.device → (d.read f w).1 = .ok bytes → Section.parse bytes = .ok t → S t

theorem fixed_collect (f : RunningFilter φ) (w : World δ) :
    fixed (collect d f w).2.1 = fixed f := by
  unfold collect
  rcases readOne d f w with ⟨_ | bytes, w₁⟩
  · rfl
  · dsimp only
    have hcheck : (f.collector.check bytes).2.2.tableId = f.collector.tableId := by
      unfold Collector.check
      split <;> rfl
    rcases hc : f.collector.check bytes with ⟨_ | t, notes, collector⟩ <;> rw [hc] at hcheck
    · exact congrArg (fun n => (f.id, f.spec, f.handle, f.started, n)) hcheck
    · have hrecord : (collector.record t.header).2.tableId = collector.tableId := by
        unfold Collector.record Collector.store
        dsimp only
        split <;> rfl
      dsimp only
      rcases hr : collector.record t.header with ⟨_ | complete, collector'⟩ <;>
        rw [hr] at hrecord <;>
        exact congrArg (fun n => (f.id, f.spec, f.handle, f.started, n)) (hrecord.trans hcheck)

theorem Healthy.offered (h : Healthy d Good) {S : Section → Prop} (ho : Offers d Good S)
    {f : RunningFilter φ} {t : Section} (hw : Good w.device)
    (hc : (collect d f w).1 = some t) : S t ∧ t.header.tableId = f.collector.tableId := by
  have htaken (w₁ : World δ) (hw₁ : Good w₁.device) (bytes : Bytes)
      (ht : (taken f (d.read f.handle w₁)).1 = some bytes) (hp : Section.parse bytes = .ok t) :
      S t := by
    rcases hr : d.read f.handle w₁ with ⟨e | b, w₂⟩
    · simp [hr, taken] at ht
    · obtain rfl : b = bytes := by simpa [hr, taken] using ht
      exact ho f.handle w₁ b t hw₁ (congrArg Prod.fst hr) hp
  have hread (bytes : Bytes) (hb : (readOne d f w).1 = some bytes)
      (hp : Section.parse bytes = .ok t) : S t := by
    unfold readOne at hb
    split at hb
    · next w₁ he =>
      have hw₁ : Good w₁.device := by
        have hg := h.read f.handle w hw
        rwa [he] at hg
      exact htaken (World.tell _ w₁) hw₁ bytes hb hp
    · exact htaken w hw bytes hb hp
  unfold collect at hc
  rcases hr : readOne d f w with ⟨_ | bytes, w₁⟩
  · simp [hr] at hc
  · rw [hr] at hc
    dsimp only at hc
    rcases hk : f.collector.check bytes with ⟨_ | t', notes, collector⟩
    · simp [hk] at hc
    · rw [hk] at hc
      have ht : t' = t := by
        dsimp only at hc
        rcases hrec : collector.record t'.header with ⟨_ | complete, collector'⟩
        · simp [hrec] at hc
        · simpa [hrec] using hc
      subst ht
      obtain ⟨hp, hid⟩ := parse_of_check (congrArg Prod.fst hk)
      exact ⟨hread bytes (by rw [hr]) hp, hid⟩

/-- What a handler does with sections that satisfy `S`: it keeps `P`, it never asks for an
association table, and it asks for something only when it is given one. -/
structure Obliging (handle : Handler η) (S : Section → Prop) (P : η → Prop) : Prop where
  state : ∀ f t x, S t → P x → P (handle f t x).1
  late : ∀ f t x, ∀ r ∈ (handle f t x).2.1, Once r ∧ r.tableId ≠ Pat.tableId
  silent : ∀ f t x, t.header.tableId ≠ Pat.tableId → (handle f t x).2.1 = []

/-- What has become of the filters, the handler and the requests while filters are served. -/
structure Served (Good : δ → Prop) (P : η → Prop) (fs : List (RunningFilter φ))
    (p : Pass δ φ η) : Prop where
  good : Good p.world.device
  state : P p.handler
  running : p.running.map fixed = fs.map fixed
  late : ∀ r ∈ p.requests, Once r ∧ r.tableId ≠ Pat.tableId
  silent : (∀ f ∈ fs, f.collector.tableId ≠ Pat.tableId) → p.requests = []

theorem exists_fixed {fs gs : List (RunningFilter φ)} (h : gs.map fixed = fs.map fixed)
    {g : RunningFilter φ} (hg : g ∈ gs) : ∃ f ∈ fs, fixed f = fixed g :=
  List.mem_map.1 (h ▸ List.mem_map_of_mem hg)

theorem Served.serve (h : Healthy d Good) {S : Section → Prop} (ho : Offers d Good S)
    {handle : Handler η} {P : η → Prop} (hh : Obliging handle S P)
    {fs : List (RunningFilter φ)} {p : Pass δ φ η} (hp : Served Good P fs p) (i : Nat) :
    Served Good P fs (serve d handle p i) := by
  have hgood := h.frame.serve handle p i hp.good
  unfold Scheduler.serve at hgood ⊢
  cases hi : p.running[i]? with
  | none => exact hp
  | some f =>
    rw [hi] at hgood
    have hf : f ∈ p.running := List.mem_of_getElem? hi
    have hc := fixed_collect (d := d) f p.world
    have hoff := fun t => h.offered ho (f := f) (t := t) hp.good
    dsimp only at hgood ⊢
    rcases hr : collect d f p.world with ⟨arrived, f', w'⟩
    rw [hr] at hc hoff hgood
    have hrun : (p.running.set i f').map fixed = fs.map fixed :=
      (map_fixed_set hi hc).trans hp.running
    cases arrived with
    | none => exact ⟨hgood, hp.state, hrun, hp.late, hp.silent⟩
    | some t =>
      obtain ⟨hS, htable⟩ := hoff t rfl
      refine ⟨hgood, hh.state f'.spec t p.handler hS hp.state, hrun, fun r hm => ?_, fun hn => ?_⟩
      · rcases List.mem_append.1 hm with hm | hm
        · exact hp.late r hm
        · exact hh.late f'.spec t p.handler r hm
      · obtain ⟨g, hg, he⟩ := exists_fixed hp.running hf
        have hsame : g.collector.tableId = f.collector.tableId := congrArg (·.2.2.2.2) he
        have hne : t.header.tableId ≠ Pat.tableId := by
          rw [htable, ← hsame]
          exact hn g hg
        exact List.append_eq_nil_iff.2 ⟨hp.silent hn, hh.silent f'.spec t p.handler hne⟩

theorem Served.foldl (h : Healthy d Good) {S : Section → Prop} (ho : Offers d Good S)
    {handle : Handler η} {P : η → Prop} (hh : Obliging handle S P)
    {fs : List (RunningFilter φ)} {p : Pass δ φ η} (hp : Served Good P fs p) (ready : List Nat) :
    Served Good P fs (ready.foldl (Scheduler.serve d handle) p) := by
  induction ready generalizing p with
  | nil => exact hp
  | cons i ready ih => exact ih (hp.serve h ho hh i)

/-- On a healthy device a pass with running filters polls, serves, adds and retires. -/
theorem Healthy.pollOnce_eq (h : Healthy d Good) (timeout : Nat) (handle : Handler η) (x : η)
    (hr : s.running ≠ []) (hw : Good w.device) :
    ∃ ready, (d.poll (s.running.map (·.handle)) timeout w).1 = .ok ready ∧
      pollOnce d timeout handle x s w =
        let p := ready.foldl (serve d handle)
          ⟨s.running, x, [], (d.poll (s.running.map (·.handle)) timeout w).2⟩
        let (s, w) := addAll d p.requests { s with running := p.running } p.world
        let (s, w) := retire d s w
        (.ok (), p.handler, s, w) := by
  have hne : ¬ s.running.isEmpty = true := fun he => hr (List.isEmpty_iff.1 he)
  obtain ⟨ready, hready⟩ := h.polls (s.running.map (·.handle)) timeout w hw
  refine ⟨ready, hready, ?_⟩
  unfold pollOnce
  rw [if_neg hne]
  dsimp only
  rw [if_neg hne]
  cases hp : d.poll (s.running.map (·.handle)) timeout w with
  | mk r w' =>
    rw [hp] at hready
    obtain rfl : r = .ok ready := hready
    rfl

theorem Sound.served {P : η → Prop} {p : Pass δ φ η} (hs : Sound s)
    (hp : Served Good P s.running p) : Sound { s with running := p.running } := by
  have hroll := roll_fixed hp.running
  have hfull : isFull { s with running := p.running } = s.isFull := by
    have hl := congrArg List.length hp.running
    simp only [List.length_map] at hl
    simp only [isFull, hl]
  exact {
    room := hs.room
    ids := hroll ▸ hs.ids
    issued := hroll ▸ hs.issued
    once := hroll ▸ hs.once
    tables := fun g hg => by
      obtain ⟨f, hf, he⟩ := exists_fixed hp.running hg
      have hspec : f.spec = g.spec := congrArg (·.2.1) he
      have htable : f.collector.tableId = g.collector.tableId := congrArg (·.2.2.2.2) he
      rw [← hspec, ← htable]
      exact hs.tables f hf
    late := hs.late
    busy := fun hn => hfull.trans (hs.busy hn) }

structure PassedWell (Good : δ → Prop) (P : η → Prop)
    (r : Except DemuxError Unit × η × Scheduler φ × World δ) : Prop where
  ok : r.1 = .ok ()
  state : P r.2.1
  sound : Sound r.2.2.1
  good : Good r.2.2.2.device

theorem Healthy.pollOnce (h : Healthy d Good) {S : Section → Prop} (ho : Offers d Good S)
    {handle : Handler η} {P : η → Prop} (hh : Obliging handle S P) {x : η} (timeout : Nat)
    (hx : P x) (hs : Sound s) (hi : s.isIdle = false) (hw : Good w.device) :
    PassedWell Good P (pollOnce d timeout handle x s w) := by
  obtain ⟨ready, -, he⟩ := h.pollOnce_eq timeout handle x (hs.running_ne_nil hi) hw
  rw [he]
  dsimp only
  have hstart : Served Good P s.running
      ⟨s.running, x, [], (d.poll (s.running.map (·.handle)) timeout w).2⟩ :=
    ⟨h.poll _ _ w hw, hx, rfl, by simp, fun _ => rfl⟩
  have hp := hstart.foldl h ho hh ready
  generalize ready.foldl (serve d handle)
    ⟨s.running, x, [], (d.poll (s.running.map (·.handle)) timeout w).2⟩ = p at hp ⊢
  have ha := (hs.served hp).addAll h hp.late hp.good
  have hg := h.frame.addAll p.requests { s with running := p.running } p.world hp.good
  exact ⟨rfl, hp.state, ha.retire h hg, h.frame.retire _ _ hg⟩

end Bandscan.Scheduler
