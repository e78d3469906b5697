import Bandscan.Session
import Bandscan.Proofs.PollProgress
import Bandscan.Proofs.SectionEffects
/-!
What the collection of tables at one transponder comes to, on a bench: it ends after finitely many
passes, and a property of networks that the sections of the multiplex keep is kept.
-/

namespace Bandscan.Session

open Bench Scheduler

variable {fe : Frontend Bench} {o : ScanOptions} {Q : Network → Prop}
  {s : Session MemoryFilter} {w : World Bench}

/-- What a section that waits to be read tells keeps `Q`. -/
def Unharmed (fe : Frontend Bench) (o : ScanOptions) (queue : List Queued) (Q : Network → Prop) :
    Prop :=
  ∀ pid t n, Delivers queue t → Q n → Q (n.read (readOptions fe o) pid t).network

theorem Unharmed.mono {queue queue' : List Queued} (h : Unharmed fe o queue Q)
    (hq : queue'.Sublist queue) : Unharmed fe o queue' Q :=
  fun pid t n ht => h pid t n (ht.mono hq)

theorem handler_respects {queue : List Queued} (h : Unharmed fe o queue Q) :
    Respects (handler fe o) queue (fun x => Q x.1) Once := by
  rintro f t ⟨n, overflow⟩ ht hn
  unfold handler
  cases overflow with
  | true => exact ⟨hn, by simp⟩
  | false => exact ⟨h f.pid t n ht hn, fun r hr => Network.runOnce_of_mem_requests hr⟩

def afterPass (fe : Frontend Bench) (o : ScanOptions) (s : Session MemoryFilter)
    (w : World Bench) : Session MemoryFilter :=
  let r := s.scheduler.pollOnce demuxDevice o.pollInterval (handler fe o) (s.network, false) w
  { s with network := r.2.1.1, scheduler := r.2.2.1 }

def worldAfterPass (fe : Frontend Bench) (o : ScanOptions) (s : Session MemoryFilter)
    (w : World Bench) : World Bench :=
  (s.scheduler.pollOnce demuxDevice o.pollInterval (handler fe o) (s.network, false) w).2.2.2

theorem afterPass_keeps (hQ : Unharmed fe o w.device.demux.queue Q) (hn : Q s.network)
    (hs : Every Once s.scheduler) :
    Q (afterPass fe o s w).network ∧ Every Once (afterPass fe o s w).scheduler ∧
      Later w (worldAfterPass fe o s w) := by
  have hx : (fun x : Network × Bool => Q x.1) (s.network, false) := hn
  have h := pollOnce_passed o.pollInterval (handler_respects hQ) hx hs
  exact ⟨h.handler, h.every, h.later⟩

theorem unharmed_true (queue : List Queued) : Unharmed fe o queue fun _ => True :=
  fun _ _ _ _ _ => trivial

theorem collect_succ (fe : Frontend Bench) (o : ScanOptions) (s : Session MemoryFilter)
    (w : World Bench) (hs : s.scheduler.isIdle = false) (budget : Nat) :
    s.collect demuxDevice fe o (budget + 1) w =
      if (s.scheduler.pollOnce demuxDevice o.pollInterval (handler fe o)
          (s.network, false) w).2.1.2 then
        (.error .overflow, afterPass fe o s w, worldAfterPass fe o s w)
      else if (worldAfterPass fe o s w).interrupted then
        let r := (afterPass fe o s w).scheduler.clear demuxDevice
          ((worldAfterPass fe o s w).tell (.info "interrupted, stopping section filters"))
        (.ok .interrupted, { afterPass fe o s w with scheduler := r.1 }, r.2)
      else (afterPass fe o s w).collect demuxDevice fe o budget (worldAfterPass fe o s w) := by
  have hok := pollOnce_ok o.pollInterval (handler fe o) (s.network, false) s.scheduler w
  rw [collect, if_neg (by simp [hs])]
  unfold afterPass worldAfterPass
  rcases hr : s.scheduler.pollOnce demuxDevice o.pollInterval (handler fe o) (s.network, false) w
    with ⟨r, ⟨n, overflow⟩, scheduler, w'⟩
  rw [hr] at hok
  obtain rfl : r = .ok () := hok
  rfl

theorem collect_cases (fe : Frontend Bench) (o : ScanOptions) (s : Session MemoryFilter)
    (w : World Bench) (hs : s.scheduler.isIdle = false) :
    (∀ budget, s.collect demuxDevice fe o (budget + 1) w =
      (.error .overflow, afterPass fe o s w, worldAfterPass fe o s w)) ∨
    (∃ scheduler w', scheduler.isIdle = true ∧ Instant (worldAfterPass fe o s w) w' ∧
      ∀ budget, s.collect demuxDevice fe o (budget + 1) w =
        (.ok .interrupted, { afterPass fe o s w with scheduler }, w')) ∨
    ∀ budget, s.collect demuxDevice fe o (budget + 1) w =
      (afterPass fe o s w).collect demuxDevice fe o budget (worldAfterPass fe o s w) := by
  have hcollect := collect_succ fe o s w hs
  cases ho : (s.scheduler.pollOnce demuxDevice o.pollInterval (handler fe o)
      (s.network, false) w).2.1.2 with
  | true => exact .inl fun budget => by rw [hcollect, ho, if_pos rfl]
  | false =>
    cases hi : (worldAfterPass fe o s w).interrupted with
    | true =>
      let w' := (worldAfterPass fe o s w).tell (.info "interrupted, stopping section filters")
      refine .inr (.inl ⟨((afterPass fe o s w).scheduler.clear demuxDevice w').1,
        ((afterPass fe o s w).scheduler.clear demuxDevice w').2, rfl,
        (Instant.tell _ _).trans (clear_instant _ w'), fun budget => ?_⟩)
      rw [hcollect, ho, hi, if_neg Bool.false_ne_true, if_pos rfl]
    | false =>
      refine .inr (.inr fun budget => ?_)
      rw [hcollect, ho, hi, if_neg Bool.false_ne_true, if_neg Bool.false_ne_true]

theorem collect_idle {δ φ : Type} {d : Demux δ φ} {fe : Frontend δ} {s : Session φ}
    {w : World δ} (hs : s.scheduler.isIdle = true) (budget : Nat) :
    s.collect d fe o budget w = (.ok .completed, s, w) := by
  cases budget <;> simp [collect, hs]

theorem collect_uninterrupted (hs : Every Once s.scheduler) (hw : w.interrupted = false)
    (budget : Nat) : (s.collect demuxDevice fe o budget w).1 ≠ .ok .interrupted := by
  induction budget generalizing s w with
  | zero =>
    cases hi : s.scheduler.isIdle <;> simp [collect, hi]
  | succ budget ih =>
    cases hi : s.scheduler.isIdle with
    | true => simp [collect_idle hi]
    | false =>
      have hu : Unharmed fe o w.device.demux.queue fun _ => True := unharmed_true _
      obtain ⟨-, hs', hlater⟩ := afterPass_keeps hu trivial hs
      have hw' := hlater.interrupted.trans hw
      rw [collect_succ fe o s w hi, hw', if_neg Bool.false_ne_true]
      split
      · simp
      · exact ih hs' hw'

theorem collect_stable {budget budget' : Nat}
    (h : (s.collect demuxDevice fe o budget w).1 ≠ .ok .unfinished) (hb : budget ≤ budget') :
    s.collect demuxDevice fe o budget' w = s.collect demuxDevice fe o budget w := by
  induction budget generalizing s w budget' with
  | zero =>
    cases hi : s.scheduler.isIdle with
    | true => rw [collect_idle hi, collect_idle hi]
    | false => simp [collect, hi] at h
  | succ budget ih =>
    obtain ⟨b, rfl⟩ := Nat.exists_eq_add_of_le' (Nat.le_trans (Nat.le_add_left 1 budget) hb)
    cases hi : s.scheduler.isIdle with
    | true => rw [collect_idle hi, collect_idle hi]
    | false =>
      rcases collect_cases fe o s w hi with he | ⟨scheduler, w', -, -, he⟩ | he
      · rw [he, he]
      · rw [he, he]
      · rw [he] at h
        rw [he, he]
        exact ih h (Nat.le_of_succ_le_succ hb)

/-- Tables are collected after finitely many passes. -/
theorem collect_ends (hp : 0 < o.pollInterval) (s : Session MemoryFilter) (w : World Bench)
    (hs : Every Once s.scheduler) :
    ∃ N r, r.1 ≠ .ok .unfinished ∧ ∀ budget ≥ N, s.collect demuxDevice fe o budget w = r := by
  induction hr : s.scheduler.rank w using WellFoundedLT.induction generalizing s w with
  | ind _ ih =>
    subst hr
    cases hi : s.scheduler.isIdle with
    | true => exact ⟨0, _, by simp, fun budget _ => collect_idle hi budget⟩
    | false =>
      have hpos {budget : Nat} (hb : budget ≥ 1) : ∃ b, budget = b + 1 :=
        Nat.exists_eq_add_of_le' hb
      rcases collect_cases fe o s w hi with h | ⟨scheduler, w', -, -, h⟩ | h
      · refine ⟨1, (.error .overflow, afterPass fe o s w, worldAfterPass fe o s w), by simp,
          fun budget hb => ?_⟩
        obtain ⟨b, rfl⟩ := hpos hb
        exact h b
      · refine ⟨1, (.ok .interrupted, { afterPass fe o s w with scheduler }, w'), by simp,
          fun budget hb => ?_⟩
        obtain ⟨b, rfl⟩ := hpos hb
        exact h b
      · have hpass : ∃ N r, r.1 ≠ .ok .unfinished ∧ ∀ budget ≥ N,
            (afterPass fe o s w).collect demuxDevice fe o budget (worldAfterPass fe o s w) =
              r := by
          rcases pollOnce_progress (handler fe o) (s.network, false) w hp hs with hidle | hlt
          · exact ⟨0, _, by simp, fun budget _ => collect_idle hidle budget⟩
          · have hu : Unharmed fe o w.device.demux.queue fun _ => True := unharmed_true _
            have hs' := (afterPass_keeps hu trivial hs).2.1
            exact ih _ hlt (afterPass fe o s w) (worldAfterPass fe o s w) hs' rfl
        obtain ⟨N, r, hr, hN⟩ := hpass
        refine ⟨N + 1, r, hr, fun budget hb => ?_⟩
        obtain ⟨b, rfl⟩ := Nat.exists_eq_add_of_le' hb
        exact (h (b + N)).trans (hN (b + N) (Nat.le_add_left N b))

theorem collect_keeps (hQ : Unharmed fe o w.device.demux.queue Q) (hn : Q s.network)
    (hs : Every Once s.scheduler) (budget : Nat) :
    let r := s.collect demuxDevice fe o budget w
    Q r.2.1.network ∧ Every Once r.2.1.scheduler ∧ Later w r.2.2 := by
  induction budget generalizing s w with
  | zero => exact ⟨hn, hs, .refl w⟩
  | succ budget ih =>
    cases hi : s.scheduler.isIdle with
    | true =>
      rw [collect_idle hi]
      exact ⟨hn, hs, .refl w⟩
    | false =>
      obtain ⟨hn', hs', hl⟩ := afterPass_keeps hQ hn hs
      rcases collect_cases fe o s w hi with h | ⟨scheduler, w', hidle, hi', h⟩ | h
      · rw [h]
        exact ⟨hn', hs', hl⟩
      · rw [h]
        exact ⟨hn', every_of_isIdle hidle, hl.trans hi'.later⟩
      · rw [h]
        obtain ⟨hn'', hs'', hl'⟩ := ih (hQ.mono hl.queue) hn' hs'
        exact ⟨hn'', hs'', hl.trans hl'⟩

theorem once_filters (o : ScanOptions) :
    ∀ f ∈ [patFilter o, sdtFilter o] ++ nitFilters o, Once f := by
  intro f hf
  simp only [nitFilters, List.mem_append, List.mem_cons, List.not_mem_nil, or_false,
    List.mem_ite_nil_right] at hf
  rcases hf with (rfl | rfl) | ⟨-, rfl⟩ | ⟨-, rfl⟩
  · rfl
  · rfl
  · rfl
  · rfl

theorem startFilters_keeps (o : ScanOptions) (w : World Bench) (hs : Every Once s.scheduler) :
    let r := s.startFilters demuxDevice o w
    r.2.1.network = s.network ∧ Every Once r.2.1.scheduler ∧ Instant w r.2.2 := by
  have ho := once_filters o
  have hnit : ∀ f ∈ nitFilters o, Once f := fun f hf => ho f (List.mem_append_right _ hf)
  unfold startFilters
  split
  · exact ⟨rfl, hs.addAll ho w, addAll_instant _ _ w⟩
  · have h₁ := hs.install (ho (patFilter o) (by simp)) w
    have w₁ := install_instant (patFilter o) s.scheduler w
    rcases hi₁ : s.scheduler.install demuxDevice (patFilter o) w with ⟨_ | id, sch, w'⟩ <;>
      rw [hi₁] at h₁ w₁
    · exact ⟨rfl, h₁, w₁⟩
    · have h₂ := h₁.install (ho (sdtFilter o) (by simp)) w'
      have w₂ := w₁.trans (install_instant (sdtFilter o) sch w')
      dsimp only
      rcases hi₂ : sch.install demuxDevice (sdtFilter o) w' with ⟨_ | id', sch', w''⟩ <;>
        rw [hi₂] at h₂ w₂
      · exact ⟨rfl, h₂, w₂⟩
      · exact ⟨rfl, h₂.addAll hnit w'', w₂.trans (addAll_instant _ _ w'')⟩

theorem scanTransponder_ends (fe : Frontend Bench) (hp : 0 < o.pollInterval) (w : World Bench)
    (hs : Every Once s.scheduler) :
    ∃ N r, r.1 ≠ .ok .unfinished ∧
      ∀ budget ≥ N, s.scanTransponder demuxDevice fe o budget w = r := by
  obtain ⟨-, hs', -⟩ := startFilters_keeps o w hs
  unfold scanTransponder
  rcases hf : s.startFilters demuxDevice o w with ⟨e | _, s', w'⟩ <;> rw [hf] at hs'
  · exact ⟨0, (.error (.demux e), s', w'), by simp, fun _ _ => rfl⟩
  · exact collect_ends hp s' w' hs'

theorem scanTransponder_stable {budget budget' : Nat}
    (h : (s.scanTransponder demuxDevice fe o budget w).1 ≠ .ok .unfinished)
    (hb : budget ≤ budget') :
    s.scanTransponder demuxDevice fe o budget' w = s.scanTransponder demuxDevice fe o budget w := by
  unfold scanTransponder at h ⊢
  rcases hf : s.startFilters demuxDevice o w with ⟨e | _, s', w'⟩
  · rfl
  · rw [hf] at h
    exact collect_stable h hb

theorem scanTransponder_keeps (hQ : Unharmed fe o w.device.demux.queue Q) (hn : Q s.network)
    (hs : Every Once s.scheduler) (budget : Nat) :
    let r := s.scanTransponder demuxDevice fe o budget w
    Q r.2.1.network ∧ Every Once r.2.1.scheduler ∧ Later w r.2.2 := by
  obtain ⟨hn', hs', hi⟩ := startFilters_keeps o w hs
  unfold scanTransponder
  rcases hf : s.startFilters demuxDevice o w with ⟨e | _, s', w'⟩ <;> rw [hf] at hn' hs' hi
  · exact ⟨hn' ▸ hn, hs', hi.later⟩
  · obtain ⟨hq, he, hl⟩ := collect_keeps (hQ.mono hi.queue) (hn' ▸ hn) hs' budget
    exact ⟨hq, he, hi.later.trans hl⟩

end Bandscan.Session
