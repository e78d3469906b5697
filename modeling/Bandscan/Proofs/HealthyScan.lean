import Bandscan.Config
import Bandscan.Proofs.AcceptingBench
import Bandscan.Proofs.SessionSteps
/-!
The first scan of a session on a healthy device. With a pool of two filters or more nothing that the
device delivers makes it fail. A pool of one filter is a valid setting, but the service table must
start at once and finds the slot taken by the association table.
-/

namespace Bandscan.Session

open Scheduler

variable {δ φ : Type} {d : Demux δ φ} {fe : Frontend δ} {o : ScanOptions} {Good : δ → Prop}
  {s : Session φ} {w : World δ}

theorem map_not_pat : Pmt.tableId ≠ Pat.tableId := by decide

theorem handler_obliging (fe : Frontend δ) (o : ScanOptions) :
    Obliging (handler fe o) (fun t => ¬ t.Overflows) fun x => x.2 = false where
  state := by
    rintro f t ⟨n, overflow⟩ ht rfl
    have he := (Network.read_effects (readOptions fe o) f.pid t n).overflow
    exact Bool.eq_false_iff.2 fun h => ht (he.1 h)
  late := by
    rintro f t ⟨n, overflow⟩ r hr
    unfold handler at hr
    cases overflow with
    | true => simp at hr
    | false =>
      obtain ⟨-, mapPid, rfl⟩ := Network.of_mem_requests hr
      exact ⟨rfl, map_not_pat⟩
  silent := by
    rintro f t ⟨n, overflow⟩ ht
    unfold handler
    cases overflow with
    | true => rfl
    | false =>
      exact List.eq_nil_iff_forall_not_mem.2 fun r hr => ht (Network.of_mem_requests hr).1

/-- A pass that is not the last leads to a session of the same kind. If time goes on there, less is
left. The pass ends the collection only if somebody has asked to stop. -/
theorem collect_step (fe : Frontend δ) (o : ScanOptions) (h : Healthy d Good)
    (ho : Offers d Good fun t => ¬ t.Overflows) (hs : Sound s.scheduler)
    (hi : s.scheduler.isIdle = false) (hw : Good w.device) :
    ∃ (s' : Session φ) (w' : World δ), Sound s'.scheduler ∧ Good w'.device ∧
      (∀ stock, Lively d Good stock o.pollInterval →
        s'.scheduler.outlook stock w' < s.scheduler.outlook stock w) ∧
      ((∃ r, r.1 = .ok .interrupted ∧ ∀ budget, s.collect d fe o (budget + 1) w = r) ∨
        ∀ budget, s.collect d fe o (budget + 1) w = s'.collect d fe o budget w') := by
  have hpass := h.pollOnce ho (handler_obliging fe o) (x := (s.network, false)) o.pollInterval rfl
    hs hi hw
  have hless (stock : δ → Nat) (hl : Lively d Good stock o.pollInterval) :=
    hl.pollOnce_outlook ho (handler_obliging fe o) (x := (s.network, false)) rfl hs hi hw
  dsimp only at hless
  rcases hr : s.scheduler.pollOnce d o.pollInterval (handler fe o) (s.network, false) w
    with ⟨r, ⟨network, overflow⟩, scheduler, w'⟩
  rw [hr] at hpass hless
  obtain rfl : r = .ok () := hpass.ok
  obtain rfl : overflow = false := hpass.state
  refine ⟨{ s with network, scheduler }, w', hpass.sound, hpass.good, hless, ?_⟩
  have hcollect (budget : Nat) : s.collect d fe o (budget + 1) w =
      if w'.interrupted then
        let r := scheduler.clear d (w'.tell (.info "interrupted, stopping section filters"))
        (.ok .interrupted, { s with network, scheduler := r.1 }, r.2)
      else Session.collect d fe o budget { s with network, scheduler } w' := by
    rw [collect, if_neg (by simp [hi]), hr]
    rfl
  cases hint : w'.interrupted with
  | true => exact .inl ⟨_, rfl, fun budget => by rw [hcollect, if_pos hint]⟩
  | false => exact .inr fun budget => by rw [hcollect, if_neg (by simp [hint])]

theorem collect_ok (h : Healthy d Good) (ho : Offers d Good fun t => ¬ t.Overflows)
    (hs : Sound s.scheduler) (hw : Good w.device) (budget : Nat) :
    ∃ x, (s.collect d fe o budget w).1 = .ok x := by
  induction budget generalizing s w with
  | zero => exact ⟨_, rfl⟩
  | succ budget ih =>
    cases hi : s.scheduler.isIdle with
    | true => exact ⟨_, congrArg Prod.fst (collect_idle hi _)⟩
    | false =>
      obtain ⟨s', w', hs', hw', -, ⟨r, hr, he⟩ | he⟩ := collect_step fe o h ho hs hi hw
      · exact ⟨_, by rw [he, hr]⟩
      · rw [he]
        exact ih hs' hw'

theorem collect_over (stock : δ → Nat) (h : Lively d Good stock o.pollInterval)
    (ho : Offers d Good fun t => ¬ t.Overflows) (hs : Sound s.scheduler) (hw : Good w.device) :
    ∃ N, ∀ budget ≥ N, (s.collect d fe o budget w).1 = .ok .completed ∨
      (s.collect d fe o budget w).1 = .ok .interrupted := by
  induction hr : s.scheduler.outlook stock w using WellFoundedLT.induction generalizing s w with
  | ind _ ih =>
    subst hr
    cases hi : s.scheduler.isIdle with
    | true => exact ⟨0, fun budget _ => .inl (congrArg Prod.fst (collect_idle hi budget))⟩
    | false =>
      obtain ⟨s', w', hs', hw', hless, he⟩ := collect_step fe o h.toHealthy ho hs hi hw
      obtain ⟨N, hN⟩ := ih _ (hless stock h) hs' hw' rfl
      refine ⟨N + 1, fun budget hb => ?_⟩
      obtain ⟨b, rfl⟩ := Nat.exists_eq_add_of_le' (Nat.le_trans (Nat.le_add_left 1 N) hb)
      rcases he with ⟨r, hr, he⟩ | he
      · rw [he]
        exact .inr hr
      · rw [he]
        exact hN b (Nat.le_of_succ_le_succ hb)

theorem late_nitFilters (o : ScanOptions) :
    ∀ f ∈ nitFilters o, Once f ∧ f.tableId ≠ Pat.tableId := by
  intro f hf
  simp only [nitFilters, List.mem_append, List.mem_ite_nil_right, List.mem_singleton] at hf
  rcases hf with ⟨-, rfl⟩ | ⟨-, rfl⟩
  · exact ⟨rfl, (by decide : Nit.actualId ≠ Pat.tableId)⟩
  · exact ⟨rfl, (by decide : Nit.otherId ≠ Pat.tableId)⟩

theorem startFilters_frame {R : World δ → World δ → Prop} (h : Frame d R) (o : ScanOptions)
    (s : Session φ) (w : World δ) : R w (s.startFilters d o w).2.2 := by
  unfold startFilters
  split
  · exact h.addAll _ _ w
  · have hpat := h.install (patFilter o) s.scheduler w
    rcases hr : s.scheduler.install d (patFilter o) w with ⟨_ | _, sch, w'⟩ <;> rw [hr] at hpat
    · exact hpat
    · have hsdt := h.trans hpat (h.install (sdtFilter o) sch w')
      dsimp only
      rcases hr' : sch.install d (sdtFilter o) w' with ⟨_ | _, sch', w''⟩ <;> rw [hr'] at hsdt
      · exact hsdt
      · exact h.trans hsdt (h.addAll _ _ w'')

structure Started (d : Demux δ φ) (Good : δ → Prop) (o : ScanOptions) (network : Network)
    (r : Except DemuxError Unit × Session φ × World δ) : Prop where
  ok : r.1 = .ok ()
  network : r.2.1.network = network
  sound : Sound r.2.1.scheduler
  good : Good r.2.2.device
  specs : r.2.1.scheduler.roll.map Prod.snd = [patFilter o, sdtFilter o] ++ nitFilters o
  fresh : ∀ g ∈ r.2.1.scheduler.running, ∃ p now, Fresh d now p g

/-- The filters that must start need two slots. -/
theorem startFilters_first (o : ScanOptions) (h : Healthy d Good) {limit : Nat}
    (hf : s.started = false) (hl : s.scheduler = .ofLimit limit) (hw : Good w.device) :
    (limit ≤ 1 → (s.startFilters d o w).1 = .error .exhausted) ∧
    (1 < limit → Started d Good o s.network (s.startFilters d o w)) := by
  have hfree : (ofLimit limit : Scheduler φ).isFull = false := by simp [isFull, ofLimit]
  have hgood := h.frame.install (patFilter o) (ofLimit limit) w hw
  unfold startFilters
  rw [hf, hl, if_neg Bool.false_ne_true]
  rcases h.install_cases (patFilter o) (ofLimit limit) hw with ⟨hfull, -⟩ | ⟨-, g, w', hg, he⟩
  · exact absurd (hfree.symm.trans hfull) Bool.false_ne_true
  · have hpat : Once (patFilter o) := rfl
    have hsdt : Once (sdtFilter o) := rfl
    have hs := (Sound.ofLimit limit).startNext hpat hg hfree
    have hroll := roll_startNext (Sound.ofLimit limit).busy hg hfree
    rw [he] at hgood ⊢
    have hrunning : ∀ f ∈ (ofLimit limit : Scheduler φ).running ++ [g], f = g := by simp [ofLimit]
    generalize hsch : ({ (ofLimit limit : Scheduler φ) with
      lastId := (ofLimit limit : Scheduler φ).lastId + 1
      running := (ofLimit limit : Scheduler φ).running ++ [g] } : Scheduler φ) = sch
      at hs hgood hroll ⊢
    have hfull : sch.isFull = decide (max 1 limit ≤ 1) := by
      rw [← hsch]
      rfl
    have hfirst : ∀ f ∈ sch.running, f = g := by
      rw [← hsch]
      exact hrunning
    have hgood' := h.frame.install (sdtFilter o) sch w' hgood
    dsimp only
    rcases h.install_cases (sdtFilter o) sch hgood with ⟨hs', he'⟩ | ⟨hs', k, w'', hk, he'⟩
    · rw [he']
      have hle : max 1 limit ≤ 1 := of_decide_eq_true (hfull.symm.trans hs')
      exact ⟨fun _ => rfl, fun hlt => absurd hlt (by omega)⟩
    · have hlt : ¬ max 1 limit ≤ 1 := of_decide_eq_false (hfull.symm.trans hs')
      have htwo := hs.startNext hsdt hk hs'
      have hroll' := roll_startNext hs.busy hk hs'
      rw [he'] at hgood' ⊢
      refine ⟨fun hle => absurd (Nat.max_le.2 ⟨Nat.le_refl 1, hle⟩) hlt, fun _ => ?_⟩
      refine ⟨rfl, rfl, htwo.addAll h (late_nitFilters o) hgood',
        h.frame.addAll (nitFilters o) _ w'' hgood', ?_, fun f hf => ?_⟩
      · refine (htwo.specs_addAll h (late_nitFilters o) hgood').trans ?_
        rw [hroll', hroll]
        simp [roll, ofLimit]
      · rcases h.running_addAll h.frame.toFrame (nitFilters o) hgood' hf with
          hf | ⟨p, w₁, -, -, hfresh⟩
        · rcases List.mem_append.1 hf with hf | hf
          · exact ⟨_, _, hfirst f hf ▸ hg⟩
          · exact ⟨_, _, List.mem_singleton.1 hf ▸ hk⟩
        · exact ⟨p, _, hfresh⟩

end Bandscan.Session

namespace Bandscan.Config

open Scheduler Session Bench

variable {δ φ : Type} {d : Demux δ φ} {Good : δ → Prop}

theorem maxFilters_of_validate {c : Config} (h : c.validate = .ok ()) : c.maxFilters ≠ 0 := by
  intro hz
  unfold validate at h
  simp only [hz, if_true, bind, Except.bind, throw, throwThe, MonadExceptOf.throw] at h
  split at h <;> simp at h

/-- The first scan of a transponder with these settings. The network and the timeouts of a session
can be replaced. -/
def firstScan (c : Config) (d : Demux δ φ) (fe : Frontend δ) (network : Network)
    (timeouts : Timeouts) (budget : Nat) (w : World δ) :
    Except ScanError Outcome × Session φ × World δ :=
  ({ c.session with network } : Session φ).scanTransponder d fe { c.scanOptions with timeouts }
    budget w

/-- Valid settings with more than one filter make no healthy device fail, and if time goes on the
scan comes to its end. With one filter the scan fails on every healthy device. -/
theorem firstScan_of_validate {c : Config} (hc : c.validate = .ok ()) (h : Healthy d Good)
    (ho : Offers d Good fun t => ¬ t.Overflows) (fe : Frontend δ) (network : Network)
    (timeouts : Timeouts) {w : World δ} (hw : Good w.device) :
    (c.maxFilters = 1 → ∀ budget,
      (c.firstScan d fe network timeouts budget w).1 = .error (.demux .exhausted)) ∧
    (c.maxFilters ≠ 1 →
      (∀ budget, ∃ x, (c.firstScan d fe network timeouts budget w).1 = .ok x) ∧
      ∀ stock, Lively d Good stock c.pollInterval → ∃ N, ∀ budget ≥ N,
        (c.firstScan d fe network timeouts budget w).1 = .ok .completed ∨
        (c.firstScan d fe network timeouts budget w).1 = .ok .interrupted) := by
  have hne := maxFilters_of_validate hc
  obtain ⟨hone, hmore⟩ := startFilters_first (s := { c.session with network })
    { c.scanOptions with timeouts } h rfl rfl hw
  unfold firstScan scanTransponder
  rcases hr : startFilters d { c.scanOptions with timeouts } { c.session with network } w with
    ⟨r, s, w'⟩
  rw [hr] at hone hmore
  refine ⟨fun hlimit budget => ?_, fun hlimit => ?_⟩
  · obtain rfl : r = .error .exhausted := hone (Nat.le_of_eq hlimit)
    rfl
  · have hstarted := hmore (by omega)
    obtain rfl : r = .ok () := hstarted.ok
    exact ⟨fun budget => collect_ok h ho hstarted.sound hstarted.good budget,
      fun stock hl => collect_over stock hl ho hstarted.sound hstarted.good⟩

def associationBench : World Bench :=
  { device := { demux := { queue := [.ofSection Pat.pid
      [0x00, 0xB0, 0x0D, 0x00, 0x01, 0xC1, 0x00, 0x00, 0x00, 0x01, 0xE1, 0x00, 0, 0, 0, 0]] } } }

theorem accepting_associationBench : Accepting associationBench.device where
  capacity := rfl
  failingPids := rfl
  inRange := by
    rintro t ⟨q, hq, b, hb, hp⟩ ⟨hnit, -⟩
    obtain rfl := List.mem_singleton.1 hq
    obtain rfl := Arrival.bytes.inj hb
    obtain rfl := Except.ok.inj hp
    revert hnit
    decide

theorem firstScan_of_validate_two_filters :
    let c : Config := { maxFilters := 2 }
    c.validate = .ok () ∧ Accepting associationBench.device ∧ 0 < c.pollInterval ∧
      ∃ N, ∀ budget ≥ N,
        (c.firstScan demuxDevice (frontendDevice .terrestrial) c.network c.timeouts budget
          associationBench).1 = .ok .completed ∨
        (c.firstScan demuxDevice (frontendDevice .terrestrial) c.network c.timeouts budget
          associationBench).1 = .ok .interrupted := by
  intro c
  have hc : c.validate = .ok () := rfl
  have hinterval : 0 < c.pollInterval := by decide
  have h := firstScan_of_validate hc healthy_accepting offers_accepting
    (frontendDevice .terrestrial) c.network c.timeouts accepting_associationBench
  exact ⟨hc, accepting_associationBench, hinterval,
    (h.2 (by decide)).2 stock (lively_accepting hinterval)⟩

/-- A pool of one filter is valid, and the device opens every filter asked of it. -/
theorem firstScan_single_filter :
    let c : Config := { maxFilters := 1 }
    c.validate = .ok () ∧ Healthy demuxDevice Accepting ∧ Accepting associationBench.device ∧
      (c.firstScan demuxDevice (frontendDevice .terrestrial) c.network c.timeouts 9
        associationBench).1 = .error (.demux .exhausted) :=
  ⟨rfl, healthy_accepting, accepting_associationBench, by decide +kernel⟩

end Bandscan.Config
