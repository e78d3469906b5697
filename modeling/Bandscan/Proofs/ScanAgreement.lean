import Bandscan.Proofs.ScanPoints
import Bandscan.Proofs.SessionSteps
/-!
A scan and the rules for its steps agree. A scan with enough passes and tunings ends as the rules
end, and a scan that has ended has followed them.
-/

namespace Bandscan.Session

variable {δ φ : Type} {g : Setup δ φ} {p q r : Point δ φ} {rs rs' : List Record} {e : End}
  {n : Network}

def Setup.tuneFrom (g : Setup δ φ) (passes tunings : Nat) (ids : List Nat) (s : Session φ)
    (w : World δ) : Except ScanError Outcome × Session φ × World δ :=
  match tuneFirst g.frontend g.options ids s.network w with
  | (true, network, w) =>
    scanPending g.demux g.frontend g.options passes tunings { s with network } w
  | (false, network, w) => (.ok (ended w), { s with network }, w)

def Setup.onward (g : Setup δ φ) (passes tunings : Nat) :
    Except ScanError Outcome × Session φ × World δ → Except ScanError Outcome × Session φ × World δ
  | (.ok .completed, s, w) =>
    if g.roams then
      g.tuneFrom passes tunings s.network.pending s
        (w.tell (.debug s!"{s.network.pending.length} transponders pending"))
    else (.ok .completed, s, w)
  | other => other

/-- The scan from a point on, with `here` passes left for the transponder it is at. -/
def Point.run (g : Setup δ φ) (here passes tunings : Nat) :
    Point δ φ → Except ScanError Outcome × Session φ × World δ
  | tuning ids s w => g.tuneFrom passes tunings ids s w
  | locked s w =>
    if g.roams then scanPending g.demux g.frontend g.options passes tunings s w
    else s.scanTransponder g.demux g.frontend g.options here w
  | collecting s w =>
    g.onward passes tunings (s.collect g.demux g.frontend g.options here w)

def upshot (r : Except ScanError Outcome × Session φ × World δ) :
    Except ScanError Outcome × Network :=
  (r.1, r.2.1.network)

theorem scanPending_onward (hr : g.roams = true) (passes tunings : Nat) (s : Session φ)
    (w : World δ) : scanPending g.demux g.frontend g.options passes (tunings + 1) s w =
      g.onward passes tunings (s.scanTransponder g.demux g.frontend g.options passes w) := by
  rw [scanPending]
  generalize s.scanTransponder g.demux g.frontend g.options passes w = r
  obtain ⟨e | _ | _ | _, s', w'⟩ := r
  · rfl
  · unfold Setup.onward Setup.tuneFrom tuneNext
    dsimp only
    rw [if_pos hr]
    generalize tuneFirst g.frontend g.options s'.network.pending s'.network _ = t
    obtain ⟨_ | _, n, w''⟩ := t <;> rfl
  · rfl
  · rfl

theorem tuneFrom_missed {id : Nat} {ids : List Nat} {s : Session φ} {w w' : World δ} {n : Network}
    (hw : w.interrupted = false)
    (h : tuneTo g.frontend g.options id s.network w = (false, n, w')) (passes tunings : Nat) :
    g.tuneFrom passes tunings (id :: ids) s w =
      g.tuneFrom passes tunings ids { s with network := n } w' := by
  rw [Setup.tuneFrom, tuneFirst, if_neg (by simp [hw]), h]
  rfl

theorem tuneFrom_locks {id : Nat} {ids : List Nat} {s : Session φ} {w w' : World δ} {n : Network}
    (hw : w.interrupted = false)
    (h : tuneTo g.frontend g.options id s.network w = (true, n, w')) (passes tunings : Nat) :
    g.tuneFrom passes tunings (id :: ids) s w =
      scanPending g.demux g.frontend g.options passes tunings { s with network := n } w' := by
  rw [Setup.tuneFrom, tuneFirst, if_neg (by simp [hw]), h]

theorem tuneFrom_interrupted {ids : List Nat} {s : Session φ} {w : World δ}
    (hw : w.interrupted = true) (passes tunings : Nat) :
    g.tuneFrom passes tunings ids s w = (.ok .interrupted, s, w) := by
  cases ids with
  | nil =>
    rw [Setup.tuneFrom, tuneFirst]
    simp [ended, hw]
  | cons id ids =>
    rw [Setup.tuneFrom, tuneFirst, if_pos hw]
    simp [ended, hw]

theorem tuneFrom_nil {s : Session φ} {w : World δ} (hw : w.interrupted = false)
    (passes tunings : Nat) : g.tuneFrom passes tunings [] s w = (.ok .completed, s, w) := by
  rw [Setup.tuneFrom, tuneFirst]
  simp [ended, hw]

/-- A collection with a pass to make, by the pass that takes down. -/
theorem collect_pass {s : Session φ} (hi : s.scheduler.isIdle = false) (budget : Nat)
    (w : World δ) : s.collect g.demux g.frontend g.options (budget + 1) w =
      match g.pass s w with
      | (.error e, ((network, _), _), scheduler, w) =>
        (.error (.demux e), { s with network, scheduler }, w)
      | (.ok (), ((network, true), _), scheduler, w) =>
        (.error .overflow, { s with network, scheduler }, w)
      | (.ok (), ((network, false), _), scheduler, w) =>
        if w.interrupted then
          let r := scheduler.clear g.demux (w.tell (.info "interrupted, stopping section filters"))
          (.ok .interrupted, { s with network, scheduler := r.1 }, r.2)
        else { s with network, scheduler }.collect g.demux g.frontend g.options budget w := by
  have hpass := (Scheduler.pollOnce_recording g.demux (handler g.frontend g.options)
    g.options.pollInterval (s.network, false) s.scheduler w).1
  rw [collect, if_neg (by simp [hi]), hpass]
  unfold Setup.pass
  generalize s.scheduler.pollOnce g.demux _ _ _ _ = r
  obtain ⟨e | _, ⟨⟨n, _ | _⟩, handed⟩, scheduler, w'⟩ := r <;> rfl

/-! ### A scan with enough passes and tunings ends where the rules end -/

/-- From this point on every scan with budgets that are large enough ends so. -/
def Settles (g : Setup δ φ) (p : Point δ φ) (e : End) (n : Network) : Prop :=
  ∃ enough, ∀ here passes tunings, enough ≤ here → enough ≤ passes → enough ≤ tunings →
    upshot (p.run g here passes tunings) = (e.result, n)

theorem scanTransponder_refused {s : Session φ} {w : World δ} {x : DemuxError}
    (h : (s.startFilters g.demux g.options w).1 = .error x) (budget : Nat) :
    (s.scanTransponder g.demux g.frontend g.options budget w).1 = .error (.demux x) ∧
      (s.scanTransponder g.demux g.frontend g.options budget w).2.1.network = s.network := by
  have hsame := network_startFilters g.demux g.options s w
  unfold scanTransponder
  generalize s.startFilters g.demux g.options w = r at h hsame ⊢
  obtain ⟨_, s', w'⟩ := r
  cases h
  exact ⟨rfl, hsame⟩

theorem scanTransponder_starts {s s' : Session φ} {w w' : World δ}
    (h : s.startFilters g.demux g.options w = (.ok (), s', w')) (budget : Nat) :
    s.scanTransponder g.demux g.frontend g.options budget w =
      s'.collect g.demux g.frontend g.options budget w' := by
  rw [scanTransponder, h]

theorem pass_of_poll {s : Session φ} {w w' : World δ} {x : DemuxError}
    (hr : (Scheduler.readied g.demux s.scheduler w).1.running ≠ [])
    (h : g.demux.poll ((Scheduler.readied g.demux s.scheduler w).1.running.map (·.handle))
      g.options.pollInterval (Scheduler.readied g.demux s.scheduler w).2 = (.error x, w')) :
    g.pass s w = (.error x, ((s.network, false), []),
      (Scheduler.readied g.demux s.scheduler w).1, w') := by
  rw [Setup.pass, Scheduler.pollOnce_readied]
  dsimp only
  rw [if_neg (by simpa using hr), h]

theorem onward_of_not_roams (hr : g.roams = false) (passes tunings : Nat)
    (r : Except ScanError Outcome × Session φ × World δ) : g.onward passes tunings r = r := by
  obtain ⟨e | _ | _ | _, s, w⟩ := r <;> simp [Setup.onward, hr]

theorem onward_of_ne {run : Except ScanError Outcome × Session φ × World δ}
    (h : run.1 ≠ .ok .completed) (passes tunings : Nat) : g.onward passes tunings run = run := by
  obtain ⟨e | _ | _ | _, s, w⟩ := run
  · rfl
  · exact absurd rfl h
  · rfl
  · rfl

theorem settles_of_ends (h : Ends g p rs e n) : Settles g p e n := by
  -- every one of these steps is taken with one pass and one tuning left
  refine ⟨1, fun here passes tunings hh _ ht => ?_⟩
  obtain ⟨here, rfl⟩ := Nat.exists_eq_add_of_le' hh
  obtain ⟨tunings, rfl⟩ := Nat.exists_eq_add_of_le' ht
  cases h with
  | @refused s w x h =>
    rw [Point.run]
    split
    · next hr =>
      obtain ⟨hresult, hsame⟩ := scanTransponder_refused h passes
      rw [scanPending_onward hr, onward_of_ne (by simp [hresult])]
      exact Prod.ext hresult hsame
    · obtain ⟨hresult, hsame⟩ := scanTransponder_refused h (here + 1)
      exact Prod.ext hresult hsame
  | pollFails hi hr h =>
    rw [Point.run, collect_pass hi, pass_of_poll hr h]
    rfl
  | interruptedBefore hw =>
    rw [Point.run, tuneFrom_interrupted hw]
    rfl
  | interruptedAfter hi h hw =>
    rw [Point.run, collect_pass hi, h]
    dsimp only
    rw [if_pos hw]
    rfl
  | nonePending hw =>
    rw [Point.run, tuneFrom_nil hw]
    rfl
  | noneElse hr hi =>
    rw [Point.run, onward_of_not_roams hr, collect_idle hi]
    rfl
  | overflows hi h =>
    rw [Point.run, collect_pass hi, h]
    rfl

/-- A step takes at most one pass and one tuning. -/
theorem run_of_goes (h : Goes g p rs q) (here passes tunings : Nat) :
    ∃ here' tunings', min here passes ≤ here' ∧ tunings ≤ tunings' ∧
      p.run g (here + 1) passes (tunings + 1) = q.run g here' passes tunings' := by
  cases h with
  | missed hw h =>
    exact ⟨here, tunings + 1, Nat.min_le_left _ _, Nat.le_succ _, tuneFrom_missed hw h _ _⟩
  | locks hr hw h =>
    refine ⟨here, tunings + 1, Nat.min_le_left _ _, Nat.le_succ _, ?_⟩
    rw [Point.run, Point.run, if_pos hr]
    exact tuneFrom_locks hw h _ _
  | starts h =>
    cases hr : g.roams with
    | true =>
      refine ⟨passes, tunings, Nat.min_le_right _ _, Nat.le_refl _, ?_⟩
      rw [Point.run, Point.run, if_pos hr, scanPending_onward hr, scanTransponder_starts h]
    | false =>
      refine ⟨here + 1, tunings, Nat.le_trans (Nat.min_le_left _ _) (Nat.le_succ _), Nat.le_refl _,
        ?_⟩
      rw [Point.run, Point.run, if_neg (by simp [hr]), onward_of_not_roams hr,
        scanTransponder_starts h]
  | passes hi h hw =>
    refine ⟨here, tunings + 1, Nat.min_le_left _ _, Nat.le_succ _, ?_⟩
    rw [Point.run, Point.run, collect_pass hi, h]
    dsimp only
    rw [if_neg (by simp [hw])]
  | onward hr hi =>
    refine ⟨here, tunings + 1, Nat.min_le_left _ _, Nat.le_succ _, ?_⟩
    rw [Point.run, Point.run, collect_idle hi, Setup.onward, if_pos hr]

theorem settles_of_goes (h : Goes g p rs q) (hs : Settles g q e n) : Settles g p e n := by
  obtain ⟨enough, hrun⟩ := hs
  refine ⟨enough + 1, fun here passes tunings hh hp ht => ?_⟩
  obtain ⟨here, rfl⟩ := Nat.exists_eq_add_of_le' (Nat.le_trans (Nat.le_add_left 1 enough) hh)
  obtain ⟨tunings, rfl⟩ := Nat.exists_eq_add_of_le' (Nat.le_trans (Nat.le_add_left 1 enough) ht)
  obtain ⟨here', tunings', hhere, htunings, hstep⟩ := run_of_goes h here passes tunings
  rw [hstep]
  exact hrun here' passes tunings' (by omega) (by omega) (by omega)

theorem settles_of_reaches (h : Reaches g p rs q) (he : Ends g q rs' e n) : Settles g p e n := by
  induction h with
  | refl => exact settles_of_ends he
  | step hs _ ih => exact settles_of_goes hs (ih he)

/-! ### A scan that has ended has followed the rules -/

def Arrives (g : Setup δ φ) (p : Point δ φ) (r : Except ScanError Outcome × Session φ × World δ) :
    Prop :=
  ∃ rs q rs' e n, Reaches g p rs q ∧ Ends g q rs' e n ∧ upshot r = (e.result, n)

variable {run : Except ScanError Outcome × Session φ × World δ}

theorem Ends.arrives (h : Ends g p rs e n) (hrun : upshot run = (e.result, n)) :
    Arrives g p run := ⟨[], p, rs, e, n, .refl, h, hrun⟩

theorem Arrives.reaches (h : Arrives g q run) (hp : Reaches g p rs q) : Arrives g p run := by
  obtain ⟨rs', r, rs'', e, n, hr, he, hrun⟩ := h
  exact ⟨rs ++ rs', r, rs'', e, n, hp.trans hr, he, hrun⟩

theorem Arrives.goes (h : Arrives g q run) (hp : Goes g p rs q) : Arrives g p run :=
  h.reaches (.step hp .refl)

theorem poll_of_pass {s : Session φ} {w w' : World δ} {x : DemuxError}
    {y : (Network × Bool) × Scheduler.Handed} {scheduler : Scheduler φ}
    (h : g.pass s w = (.error x, y, scheduler, w')) :
    (Scheduler.readied g.demux s.scheduler w).1.running ≠ [] ∧
      g.demux.poll ((Scheduler.readied g.demux s.scheduler w).1.running.map (·.handle))
        g.options.pollInterval (Scheduler.readied g.demux s.scheduler w).2 = (.error x, w') ∧
      y.1.1 = s.network := by
  rw [Setup.pass, Scheduler.pollOnce_readied] at h
  dsimp only at h
  split at h
  · cases h
  · next hr =>
    split at h
    · next heq =>
      cases h
      exact ⟨by simpa using hr, heq, rfl⟩
    · cases h

theorem collect_follows (here : Nat) (s : Session φ) (w : World δ) :
    let r := s.collect g.demux g.frontend g.options here w
    r.1 = .ok .unfinished ∨
      (r.1 = .ok .completed ∧ r.2.1.scheduler.isIdle = true ∧
        ∃ rs, Reaches g (.collecting s w) rs (.collecting r.2.1 r.2.2)) ∨
      r.1 ≠ .ok .completed ∧ Arrives g (.collecting s w) r := by
  induction here generalizing s w with
  | zero =>
    cases hi : s.scheduler.isIdle with
    | true =>
      rw [collect_idle hi]
      exact .inr (.inl ⟨rfl, hi, [], .refl⟩)
    | false => exact .inl (by simp [collect, hi])
  | succ here ih =>
    cases hi : s.scheduler.isIdle with
    | true =>
      rw [collect_idle hi]
      exact .inr (.inl ⟨rfl, hi, [], .refl⟩)
    | false =>
      rw [collect_pass hi]
      rcases hp : g.pass s w with ⟨x | _, ⟨⟨n, overflow⟩, handed⟩, scheduler, w'⟩
      · obtain ⟨hr, hpoll, hn⟩ := poll_of_pass hp
        obtain rfl : n = s.network := hn
        exact .inr (.inr ⟨by simp, (Ends.pollFails hi hr hpoll).arrives rfl⟩)
      · cases overflow with
        | true => exact .inr (.inr ⟨by simp, (Ends.overflows hi hp).arrives rfl⟩)
        | false =>
          dsimp only
          cases hw : w'.interrupted with
          | true =>
            rw [if_pos rfl]
            exact .inr (.inr ⟨by simp, (Ends.interruptedAfter hi hp hw).arrives rfl⟩)
          | false =>
            rw [if_neg Bool.false_ne_true]
            have hgoes : Goes g (.collecting s w) _ _ := .passes hi hp hw
            rcases ih { s with network := n, scheduler } w' with h | ⟨h, hidle, rs, hr⟩ | ⟨h, ha⟩
            · exact .inl h
            · exact .inr (.inl ⟨h, hidle, _, .step hgoes hr⟩)
            · exact .inr (.inr ⟨h, ha.goes hgoes⟩)

theorem arrives_tuneFrom (hr : g.roams = true) {passes tunings : Nat}
    (hlocked : ∀ s w, let r := scanPending g.demux g.frontend g.options passes tunings s w
      r.1 ≠ .ok .unfinished → Arrives g (.locked s w) r) (ids : List Nat) (s : Session φ)
    (w : World δ) (h : (g.tuneFrom passes tunings ids s w).1 ≠ .ok .unfinished) :
    Arrives g (.tuning ids s w) (g.tuneFrom passes tunings ids s w) := by
  induction ids generalizing s w with
  | nil =>
    cases hw : w.interrupted with
    | true => exact (Ends.interruptedBefore hw).arrives (by rw [tuneFrom_interrupted hw]; rfl)
    | false => exact (Ends.nonePending hw).arrives (by rw [tuneFrom_nil hw]; rfl)
  | cons id ids ih =>
    cases hw : w.interrupted with
    | true => exact (Ends.interruptedBefore hw).arrives (by rw [tuneFrom_interrupted hw]; rfl)
    | false =>
      rcases ht : tuneTo g.frontend g.options id s.network w with ⟨_ | _, n, w'⟩
      · rw [tuneFrom_missed hw ht] at h ⊢
        exact (ih _ _ h).goes (.missed hw ht)
      · rw [tuneFrom_locks hw ht] at h ⊢
        exact (hlocked _ _ h).goes (.locks hr hw ht)

theorem arrives_scanPending (hr : g.roams = true) (passes tunings : Nat) (s : Session φ)
    (w : World δ)
    (h : (scanPending g.demux g.frontend g.options passes tunings s w).1 ≠ .ok .unfinished) :
    Arrives g (.locked s w) (scanPending g.demux g.frontend g.options passes tunings s w) := by
  induction tunings generalizing s w with
  | zero => exact absurd rfl h
  | succ tunings ih =>
    rw [scanPending_onward hr] at h ⊢
    rcases hf : s.startFilters g.demux g.options w with ⟨x | _, s', w'⟩
    · have hx : (s.startFilters g.demux g.options w).1 = .error x := by rw [hf]
      obtain ⟨hresult, hsame⟩ := scanTransponder_refused hx passes
      rw [onward_of_ne (by simp [hresult])]
      exact (Ends.refused hx).arrives (Prod.ext hresult hsame)
    · rw [scanTransponder_starts hf] at h ⊢
      refine Arrives.goes ?_ (.starts hf)
      have hfollows := collect_follows (g := g) passes s' w'
      generalize s'.collect g.demux g.frontend g.options passes w' = r at h hfollows ⊢
      obtain hresult | ⟨hresult, hidle, rs, hreach⟩ | ⟨hresult, harrives⟩ := hfollows
      · rw [onward_of_ne (by simp [hresult])] at h
        exact absurd hresult h
      · obtain ⟨_, s'', w''⟩ := r
        cases hresult
        rw [Setup.onward, if_pos hr] at h ⊢
        exact ((arrives_tuneFrom hr ih _ _ _ h).goes (.onward hr hidle)).reaches hreach
      · rw [onward_of_ne hresult]
        exact harrives

theorem arrives_scanTransponder (hr : g.roams = false) (passes : Nat) (s : Session φ)
    (w : World δ)
    (h : (s.scanTransponder g.demux g.frontend g.options passes w).1 ≠ .ok .unfinished) :
    Arrives g (.locked s w) (s.scanTransponder g.demux g.frontend g.options passes w) := by
  rcases hf : s.startFilters g.demux g.options w with ⟨x | _, s', w'⟩
  · have hx : (s.startFilters g.demux g.options w).1 = .error x := by rw [hf]
    obtain ⟨hresult, hsame⟩ := scanTransponder_refused hx passes
    exact (Ends.refused hx).arrives (Prod.ext hresult hsame)
  · rw [scanTransponder_starts hf] at h ⊢
    refine Arrives.goes ?_ (.starts hf)
    obtain hresult | ⟨hresult, hidle, rs, hreach⟩ | ⟨-, harrives⟩ :=
      collect_follows (g := g) passes s' w'
    · exact absurd hresult h
    · exact ((Ends.noneElse hr hidle).arrives (Prod.ext hresult rfl)).reaches hreach
    · exact harrives

/-- Where a scan begins: of a network from a list, or of what the frontend is tuned to. -/
def Point.first (initial : Option (List InitialList.Entry)) (s : Session φ) (w : World δ) :
    Point δ φ :=
  match initial with
  | some entries =>
    let network := InitialList.load entries s.network
    .tuning network.pending { s with network } (w.tellAll (InitialList.loadNotes entries))
  | none => .locked { s with network := s.network.pinCurrent } w

def Setup.scan (g : Setup δ φ) (budget : Nat) (initial : Option (List InitialList.Entry))
    (s : Session φ) (w : World δ) : Except ScanError Outcome × Session φ × World δ :=
  match initial with
  | some entries => s.scanNetwork g.demux g.frontend g.options budget entries w
  | none => s.scanCurrent g.demux g.frontend g.options budget w

theorem upshot_scan {initial : Option (List InitialList.Entry)} (hr : g.roams = initial.isSome)
    (budget : Nat) (s : Session φ) (w : World δ) :
    upshot (g.scan budget initial s w) =
      upshot ((Point.first initial s w).run g budget budget budget) := by
  cases initial with
  | some entries =>
    unfold Setup.scan Point.first Point.run scanNetwork Setup.tuneFrom tuneNext
    dsimp only
    generalize tuneFirst g.frontend g.options _ _ _ = t
    obtain ⟨_ | _, n, w'⟩ := t
    · dsimp only
      unfold ended
      split <;> rfl
    · rfl
  | none =>
    rw [Option.isSome_none] at hr
    unfold Setup.scan Point.first Point.run scanCurrent
    dsimp only
    rw [if_neg (by simp [hr])]

theorem scan_settles {initial : Option (List InitialList.Entry)} (hr : g.roams = initial.isSome)
    {s : Session φ} {w : World δ} (h : Reaches g (.first initial s w) rs q)
    (he : Ends g q rs' e n) :
    ∃ enough, ∀ budget ≥ enough, upshot (g.scan budget initial s w) = (e.result, n) := by
  obtain ⟨enough, hrun⟩ := settles_of_reaches h he
  exact ⟨enough, fun budget hb => (upshot_scan hr budget s w).trans (hrun _ _ _ hb hb hb)⟩

theorem scan_arrives {initial : Option (List InitialList.Entry)} (hr : g.roams = initial.isSome)
    {budget : Nat} {s : Session φ} {w : World δ}
    (h : (g.scan budget initial s w).1 ≠ .ok .unfinished) :
    Arrives g (.first initial s w) (g.scan budget initial s w) := by
  have hsame := upshot_scan hr budget s w
  have hresult : (g.scan budget initial s w).1 =
      ((Point.first initial s w).run g budget budget budget).1 := congrArg (·.1) hsame
  rw [hresult] at h
  suffices harrives : Arrives g (.first initial s w)
      ((Point.first initial s w).run g budget budget budget) by
    obtain ⟨rs, q, rs', e, n, hq, he, hrun⟩ := harrives
    exact ⟨rs, q, rs', e, n, hq, he, hsame.trans hrun⟩
  cases initial with
  | some entries =>
    exact arrives_tuneFrom hr (fun s w => arrives_scanPending hr budget budget s w) _ _ _ h
  | none =>
    rw [Option.isSome_none] at hr
    unfold Point.run Point.first at h ⊢
    dsimp only at h ⊢
    rw [if_neg (by simp [hr])] at h ⊢
    exact arrives_scanTransponder hr budget _ w h

end Bandscan.Session
