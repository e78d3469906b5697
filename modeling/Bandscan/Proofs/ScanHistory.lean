import Bandscan.Session
import Bandscan.Proofs.FilterNumbers
import Bandscan.Proofs.NetworkTable
/-!
The history of a scan: which transponders it tunes to and which sections it hands to the reader of
tables, in turn. `Course` says what one such event may be and what it does to the network, and
`course_scanNetwork` that the history of every scan, on any devices, is made of such events. What
holds all along a scan is then proved by induction on courses.
-/

namespace Bandscan.Session

variable {δ φ : Type}

inductive Event (φ : Type) where
  /-- The frontend is sent to a transponder. The scheduler and the network are those before. -/
  | tuning (id : Nat) (locked : Bool) (scheduler : Scheduler φ) (network : Network)
  /-- A section that a filter has read is handed to the reader of tables. The network is the one
  before it is read. -/
  | handing (filter : RunningFilter φ) (table : Section) (network : Network)

namespace Event

def isTuning : Event φ → Bool
  | tuning .. => true
  | handing .. => false

def network : Event φ → Network
  | tuning _ _ _ n => n
  | handing _ _ n => n

end Event

section History

variable (d : Demux δ φ) (fe : Frontend δ) (o : ScanOptions)

def handings (p : Scheduler.Pass δ φ (Network × Bool)) (i : Nat) : List (Event φ) :=
  match p.running[i]? with
  | none => []
  | some f =>
    match p.handler, Scheduler.collect d f p.world with
    | (n, false), (some t, f, _) => [.handing f t n]
    | _, _ => []

def passHistory (s : Session φ) (w : World δ) : List (Event φ) :=
  let r := Scheduler.readied d s.scheduler w
  if r.1.running.isEmpty then []
  else
    match d.poll (r.1.running.map (·.handle)) o.pollInterval r.2 with
    | (.error _, _) => []
    | (.ok ready, w) =>
      along (Scheduler.serve d (handler fe o)) (handings d)
        { running := r.1.running, handler := (s.network, false), world := w } ready

def collectHistory : Nat → Session φ → World δ → List (Event φ)
  | 0, _, _ => []
  | budget + 1, s, w =>
    if s.scheduler.isIdle then []
    else
      passHistory d fe o s w ++
        match s.scheduler.pollOnce d o.pollInterval (handler fe o) (s.network, false) w with
        | (.ok (), (network, false), scheduler, w) =>
          if w.interrupted then [] else collectHistory budget { s with network, scheduler } w
        | _ => []

def transponderHistory (budget : Nat) (s : Session φ) (w : World δ) : List (Event φ) :=
  match s.startFilters d o w with
  | (.error _, _, _) => []
  | (.ok (), s, w) => collectHistory d fe o budget s w

def tuningHistory (scheduler : Scheduler φ) : List Nat → Network → World δ → List (Event φ)
  | [], _, _ => []
  | id :: rest, n, w =>
    if w.interrupted then []
    else
      match tuneTo fe o id n w with
      | (true, _, _) => [.tuning id true scheduler n]
      | (false, n', w) => .tuning id false scheduler n :: tuningHistory scheduler rest n' w

def nextHistory (s : Session φ) (w : World δ) : List (Event φ) :=
  tuningHistory fe o s.scheduler s.network.pending s.network w

def pendingHistory (passes : Nat) : Nat → Session φ → World δ → List (Event φ)
  | 0, _, _ => []
  | tunings + 1, s, w =>
    transponderHistory d fe o passes s w ++
      match s.scanTransponder d fe o passes w with
      | (.ok .completed, s, w) =>
        let w := w.tell (.debug s!"{s.network.pending.length} transponders pending")
        nextHistory fe o s w ++
          match s.tuneNext fe o w with
          | (true, s, w) => pendingHistory passes tunings s w
          | (false, _) => []
      | _ => []

def history (budget : Nat) (initial : List InitialList.Entry) (s : Session φ) (w : World δ) :
    List (Event φ) :=
  let s := { s with network := InitialList.load initial s.network }
  let w := w.tellAll (InitialList.loadNotes initial)
  nextHistory fe o s w ++
    match s.tuneNext fe o w with
    | (true, s, w) => pendingHistory d fe o budget budget s w
    | (false, _) => []

end History

theorem cons_split {e e' : Event φ} {es l l' : List (Event φ)} (h : e :: es = l ++ e' :: l') :
    l = [] ∧ e = e' ∧ es = l' ∨ ∃ l₁, l = e :: l₁ ∧ es = l₁ ++ e' :: l' := by
  cases l with
  | nil => exact .inl ⟨rfl, List.cons.inj h⟩
  | cons a l₁ =>
    obtain ⟨rfl, hes⟩ := List.cons.inj h
    exact .inr ⟨l₁, rfl, hes⟩

def TunedTo (id : Nat) (n n' : Network) : Prop :=
  ∃ frequency alternates tuningFailed, n' = ((n.markScanned id).setCurrent id).modify id fun tp =>
    { tp with frequency, alternates, tuningFailed }

/-- Events that lead from one network to another. The frontend is on the transponder of the mark,
and as many filters had been asked for when it was sent there as the mark says. -/
inductive Course (ro : ReadOptions) :
    Option (Nat × Nat) → Network → List (Event φ) → Option (Nat × Nat) → Network → Prop where
  | nil {mark n} : Course ro mark n [] mark n
  /-- The first pending transponder is tuned to while there are no filters. -/
  | tuning {id locked scheduler mark n n₁ es mark' n'} (hi : scheduler.isIdle = true)
    (hp : n.pending.head? = some id) (ht : TunedTo id n n₁)
    (h : Course ro (if locked then some (id, scheduler.lastId) else none) n₁ es mark' n') :
    Course ro mark n (.tuning id locked scheduler n :: es) mark' n'
  /-- Sections of the current transponder are read by filters asked for after it was tuned to. -/
  | handing {f t id floor n es mark' n'} (hc : n.current = some id) (hf : floor < f.id)
    (h : Course ro (some (id, floor)) (n.read ro f.spec.pid t).network es mark' n') :
    Course ro (some (id, floor)) n (.handing f t n :: es) mark' n'

section Courses

variable (d : Demux δ φ) (fe : Frontend δ) (o : ScanOptions) {ro : ReadOptions}
  {mark mark' mark'' : Option (Nat × Nat)} {n n' n'' : Network} {es es' : List (Event φ)}
  {id floor : Nat} {s : Session φ}

theorem Course.append (h : Course ro mark n es mark' n') (h' : Course ro mark' n' es' mark'' n'') :
    Course ro mark n (es ++ es') mark'' n'' := by
  induction h with
  | nil => exact h'
  | tuning hi hp ht _ ih => exact .tuning hi hp ht (ih h')
  | handing hc hf _ ih => exact .handing hc hf (ih h')

theorem course_serve {p : Scheduler.Pass δ φ (Network × Bool)} (i : Nat)
    (hc : p.handler.1.current = some id) (hf : ∀ f ∈ p.running, floor < f.id) :
    let p' := Scheduler.serve d (handler fe o) p i
    p'.handler.1.current = some id ∧
      Course (readOptions fe o) (some (id, floor)) p.handler.1 (handings d p i)
        (some (id, floor)) p'.handler.1 := by
  unfold Scheduler.serve handings
  cases hi : p.running[i]? with
  | none => exact ⟨hc, .nil⟩
  | some f =>
    have hid : (Scheduler.collect d f p.world).2.1.id = f.id :=
      congrArg (·.1) (Scheduler.fixed_collect f p.world)
    have hfi : floor < (Scheduler.collect d f p.world).2.1.id :=
      hid ▸ hf f (List.mem_of_getElem? hi)
    obtain ⟨running, ⟨n, overflow⟩, requests, world⟩ := p
    dsimp only at hfi hc ⊢
    generalize Scheduler.collect d f world = r at hfi ⊢
    obtain ⟨_ | t, f', w⟩ := r
    · cases overflow <;> exact ⟨hc, .nil⟩
    · cases overflow with
      | true => exact ⟨hc, .nil⟩
      | false => exact ⟨(Network.current_read _ _ _ _).trans hc, .handing hc hfi .nil⟩

theorem course_along {p : Scheduler.Pass δ φ (Network × Bool)} (ready : List Nat)
    (hc : p.handler.1.current = some id) (hf : ∀ f ∈ p.running, floor < f.id) :
    let p' := ready.foldl (Scheduler.serve d (handler fe o)) p
    p'.handler.1.current = some id ∧
      Course (readOptions fe o) (some (id, floor)) p.handler.1
        (along (Scheduler.serve d (handler fe o)) (handings d) p ready)
        (some (id, floor)) p'.handler.1 := by
  induction ready generalizing p with
  | nil => exact ⟨hc, .nil⟩
  | cons i ready ih =>
    obtain ⟨hc', hcourse⟩ := course_serve d fe o i hc hf
    -- serving changes what a filter has gathered, never its number
    have hf' : ∀ f ∈ (Scheduler.serve d (handler fe o) p i).running, floor < f.id := by
      intro f hm
      have hids := Scheduler.ids_of_fixed (Scheduler.fixed_serve (d := d) (handler fe o) p i)
      obtain ⟨g, hg, he⟩ := List.mem_map.1 (hids ▸ List.mem_map_of_mem hm)
      exact he ▸ hf g hg
    obtain ⟨hc'', hcourse'⟩ := ih hc' hf'
    exact ⟨hc'', hcourse.append hcourse'⟩

/-- The session is on a transponder: it is current, and all filters were asked for since. -/
structure On (id floor : Nat) (s : Session φ) : Prop where
  current : s.network.current = some id
  above : Scheduler.Above floor s.scheduler

theorem On.pass (h : On id floor s) (w : World δ) :
    let r := s.scheduler.pollOnce d o.pollInterval (handler fe o) (s.network, false) w
    On id floor { s with network := r.2.1.1, scheduler := r.2.2.1 } ∧
      Course (readOptions fe o) (some (id, floor)) s.network (passHistory d fe o s w)
        (some (id, floor)) r.2.1.1 := by
  intro r
  have ha : Scheduler.Above floor r.2.2.1 := h.above.pollOnce ..
  have hr := h.above.readied (d := d) w
  suffices hs : r.2.1.1.current = some id ∧
      Course (readOptions fe o) (some (id, floor)) s.network (passHistory d fe o s w)
        (some (id, floor)) r.2.1.1 from ⟨⟨hs.1, ha⟩, hs.2⟩
  clear ha
  unfold r passHistory
  rw [Scheduler.pollOnce_readied]
  dsimp only
  generalize Scheduler.readied d s.scheduler w = polled at hr ⊢
  by_cases he : polled.1.running.isEmpty = true
  · rw [if_pos he, if_pos he]
    exact ⟨h.current, .nil⟩
  · rw [if_neg he, if_neg he]
    generalize d.poll _ _ _ = answer
    obtain ⟨e | ready, w'⟩ := answer
    · exact ⟨h.current, .nil⟩
    · let p : Scheduler.Pass δ φ (Network × Bool) :=
        { running := polled.1.running, handler := (s.network, false), world := w' }
      exact course_along d fe o (p := p) ready h.current hr.running

theorem On.collect (h : On id floor s) (budget : Nat) (w : World δ) :
    let r := s.collect d fe o budget w
    (r.1 = .ok .completed → r.2.1.scheduler.isIdle = true) ∧
      Course (readOptions fe o) (some (id, floor)) s.network (collectHistory d fe o budget s w)
        (some (id, floor)) r.2.1.network := by
  induction budget generalizing s w with
  | zero =>
    refine ⟨fun hr => ?_, .nil⟩
    show s.scheduler.isIdle = true
    simpa [Session.collect] using hr
  | succ budget ih =>
    unfold Session.collect collectHistory
    by_cases hi : s.scheduler.isIdle = true
    · rw [if_pos hi, if_pos hi]
      exact ⟨fun _ => hi, .nil⟩
    · rw [if_neg hi, if_neg hi]
      obtain ⟨hon, hcourse⟩ := h.pass d fe o w
      generalize s.scheduler.pollOnce d o.pollInterval (handler fe o) (s.network, false) w = r
        at hon hcourse ⊢
      obtain ⟨e | _, ⟨n, overflow⟩, scheduler, w'⟩ := r
      · exact ⟨by simp, by simpa using hcourse⟩
      · dsimp only at hon hcourse ⊢
        cases overflow with
        | true => exact ⟨by simp, by simpa using hcourse⟩
        | false =>
          by_cases hw : w'.interrupted = true
          · simp only [hw, if_true, Bool.false_eq_true, if_false, List.append_nil]
            exact ⟨by simp, hcourse⟩
          · simp only [hw, Bool.false_eq_true, if_false]
            obtain ⟨hidle, hcourse'⟩ := ih hon w'
            exact ⟨hidle, hcourse.append hcourse'⟩

theorem On.startFilters (h : On id floor s) (w : World δ) :
    let s' := (s.startFilters d o w).2.1
    s'.network = s.network ∧ On id floor s' := by
  suffices hs : (s.startFilters d o w).2.1.network = s.network ∧
      Scheduler.Above floor (s.startFilters d o w).2.1.scheduler from
    ⟨hs.1, hs.1 ▸ h.current, hs.2⟩
  unfold Session.startFilters
  split
  · exact ⟨rfl, h.above.addAll _ _⟩
  · have h₁ := h.above.install (d := d) (patFilter o) w
    generalize s.scheduler.install d (patFilter o) w = r at h₁ ⊢
    obtain ⟨e | _, sch, w'⟩ := r
    · exact ⟨rfl, h₁⟩
    · have h₂ := Scheduler.Above.install (d := d) h₁ (sdtFilter o) w'
      dsimp only at h₂ ⊢
      generalize sch.install d (sdtFilter o) w' = r at h₂ ⊢
      obtain ⟨e | _, sch', w''⟩ := r
      · exact ⟨rfl, h₂⟩
      · exact ⟨rfl, Scheduler.Above.addAll h₂ _ _⟩

theorem On.scanTransponder (h : On id floor s) (budget : Nat) (w : World δ) :
    let r := s.scanTransponder d fe o budget w
    (r.1 = .ok .completed → r.2.1.scheduler.isIdle = true) ∧
      Course (readOptions fe o) (some (id, floor)) s.network (transponderHistory d fe o budget s w)
        (some (id, floor)) r.2.1.network := by
  obtain ⟨hn, hon⟩ := h.startFilters d o w
  unfold Session.scanTransponder transponderHistory
  generalize s.startFilters d o w = r at hn hon ⊢
  obtain ⟨e | _, s', w'⟩ := r
  · exact ⟨by simp, hn ▸ .nil⟩
  · rw [← hn]
    exact hon.collect d fe o budget w'

theorem exists_tryFrequencies (tp : Transponder) (untried : List Nat) (w : World δ) :
    ∃ frequency alternates,
      (tryFrequencies fe o tp untried w).1.2 = { tp with frequency, alternates } := by
  induction untried generalizing tp w with
  | nil =>
    refine ⟨tp.frequency, tp.alternates, ?_⟩
    unfold tryFrequencies
    rcases fe.tune tp o.tune w with ⟨_ | _, w'⟩ <;> rfl
  | cons f rest ih =>
    unfold tryFrequencies
    rcases fe.tune tp o.tune w with ⟨_ | _, w'⟩
    · dsimp only
      split
      · obtain ⟨frequency, alternates, h⟩ :=
          ih { tp with frequency := f, alternates := rest.reverse }
            (w'.tell (.info s!"retrying with f={f}"))
        exact ⟨frequency, alternates, h⟩
      · exact ⟨tp.frequency, tp.alternates, rfl⟩
    · exact ⟨tp.frequency, tp.alternates, rfl⟩

theorem tunedTo_tuneTo (id : Nat) (n : Network) (w : World δ) :
    TunedTo id n (tuneTo fe o id n w).2.1 := by
  unfold TunedTo tuneTo
  dsimp only
  generalize (n.markScanned id).setCurrent id = n'
  cases hg : n'.get? id with
  | none =>
    refine ⟨0, [], false, (Network.modify_id id n').symm.trans (Network.modify_congr ?_)⟩
    simp [hg]
  | some tp =>
    have hsome {g : Transponder → Transponder} {frequency alternates tuningFailed}
        (h : g tp = { tp with frequency, alternates, tuningFailed }) :
        n'.modify id g = n'.modify id fun tp => { tp with frequency, alternates, tuningFailed } :=
      Network.modify_congr fun tp' htp' => by
        obtain rfl : tp' = tp := Option.some.inj (htp'.symm.trans hg)
        exact h
    dsimp only
    cases untunable fe tp with
    | some note => exact ⟨tp.frequency, tp.alternates, true, hsome rfl⟩
    | none =>
      obtain ⟨frequency, alternates, h⟩ :=
        exists_tryFrequencies fe o tp tp.alternates.reverse w
      dsimp only
      exact ⟨frequency, alternates, _, hsome (by rw [h])⟩

theorem TunedTo.current (h : TunedTo id n n') : n'.current = some id := by
  obtain ⟨frequency, alternates, tuningFailed, rfl⟩ := h
  rfl

theorem TunedTo.pending {rest : List Nat} (h : TunedTo id n n') (hp : n.pending = id :: rest) :
    n'.pending = rest := by
  obtain ⟨frequency, alternates, tuningFailed, rfl⟩ := h
  simp [Network.modify, Network.setCurrent, Network.markScanned, hp]

variable (ro) in
theorem course_tuneFirst {scheduler : Scheduler φ} (hi : scheduler.isIdle = true) {ids : List Nat}
    (hp : n.pending = ids) (mark : Option (Nat × Nat)) (w : World δ) :
    let r := tuneFirst fe o ids n w
    ∃ mark', Course ro mark n (tuningHistory fe o scheduler ids n w) mark' r.2.1 ∧
      (r.1 = true → ∃ id, mark' = some (id, scheduler.lastId) ∧ r.2.1.current = some id) := by
  induction ids generalizing n w mark with
  | nil => exact ⟨mark, .nil, by simp [tuneFirst]⟩
  | cons id rest ih =>
    have ht := tunedTo_tuneTo fe o id n w
    have hhead : n.pending.head? = some id := by rw [hp]; rfl
    unfold tuneFirst tuningHistory
    split
    · exact ⟨mark, .nil, by simp⟩
    · generalize tuneTo fe o id n w = r at ht ⊢
      obtain ⟨_ | _, n', w'⟩ := r
      · obtain ⟨mark', hcourse, hlocked⟩ := ih (ht.pending hp) none w'
        exact ⟨mark', .tuning hi hhead ht hcourse, hlocked⟩
      · refine ⟨some (id, scheduler.lastId), .tuning hi hhead ht .nil, fun _ => ?_⟩
        exact ⟨id, rfl, ht.current⟩

variable (ro) in
theorem course_tuneNext (hi : s.scheduler.isIdle = true) (mark : Option (Nat × Nat))
    (w : World δ) :
    let r := s.tuneNext fe o w
    ∃ mark', Course ro mark s.network (nextHistory fe o s w) mark' r.2.1.network ∧
      (r.1 = true → ∃ id, mark' = some (id, s.scheduler.lastId) ∧
        On id s.scheduler.lastId r.2.1) := by
  obtain ⟨mark', hcourse, hlocked⟩ := course_tuneFirst fe o ro hi rfl mark w
  refine ⟨mark', hcourse, fun hr => ?_⟩
  obtain ⟨id, hm, hc⟩ := hlocked hr
  exact ⟨id, hm, hc, Scheduler.above_of_isIdle hi⟩

theorem On.scanPending (h : On id floor s) (passes tunings : Nat) (w : World δ) :
    ∃ mark', Course (readOptions fe o) (some (id, floor)) s.network
      (pendingHistory d fe o passes tunings s w) mark'
      (s.scanPending d fe o passes tunings w).2.1.network := by
  -- every turn of the loop is on another transponder, with its own mark
  induction tunings generalizing s w id floor with
  | zero => exact ⟨_, .nil⟩
  | succ tunings ih =>
    obtain ⟨hidle, hcourse⟩ := h.scanTransponder d fe o passes w
    unfold Session.scanPending pendingHistory
    generalize s.scanTransponder d fe o passes w = r at hidle hcourse ⊢
    obtain ⟨e | outcome, s', w'⟩ := r
    · exact ⟨_, by simpa using hcourse⟩
    · cases outcome with
      | interrupted | unfinished => exact ⟨_, by simpa using hcourse⟩
      | completed =>
        dsimp only at hidle hcourse ⊢
        generalize w'.tell _ = v
        obtain ⟨mark', hcourse', hlocked⟩ :=
          course_tuneNext fe o (readOptions fe o) (hidle rfl) (some (id, floor)) v
        generalize s'.tuneNext fe o v = r at hcourse' hlocked ⊢
        obtain ⟨_ | _, s'', v'⟩ := r
        · exact ⟨mark', by simpa using hcourse.append hcourse'⟩
        · obtain ⟨id', rfl, hon⟩ := hlocked rfl
          obtain ⟨mark'', hcourse''⟩ := ih hon v'
          exact ⟨mark'', hcourse.append (hcourse'.append hcourse'')⟩

/-- Every scan that begins without filters takes a course. -/
theorem course_scanNetwork (hi : s.scheduler.isIdle = true) (budget : Nat)
    (initial : List InitialList.Entry) (w : World δ) :
    ∃ mark, Course (readOptions fe o) none (InitialList.load initial s.network)
      (history d fe o budget initial s w) mark
      (s.scanNetwork d fe o budget initial w).2.1.network := by
  unfold Session.scanNetwork history
  dsimp only
  generalize w.tellAll (InitialList.loadNotes initial) = w'
  let s₁ : Session φ := { s with network := InitialList.load initial s.network }
  obtain ⟨mark, hcourse, hlocked⟩ :=
    course_tuneNext fe o (readOptions fe o) (s := s₁) hi none w'
  change ∃ mark, Course (readOptions fe o) none s₁.network _ mark _
  generalize s₁.tuneNext fe o w' = r at hcourse hlocked ⊢
  obtain ⟨_ | _, s', w''⟩ := r
  · refine ⟨mark, ?_⟩
    dsimp only
    split <;> simpa using hcourse
  · obtain ⟨id, rfl, hon⟩ := hlocked rfl
    obtain ⟨mark', hcourse'⟩ := hon.scanPending d fe o budget budget w''
    exact ⟨mark', hcourse.append hcourse'⟩

end Courses

end Bandscan.Session
