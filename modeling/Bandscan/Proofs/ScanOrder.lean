import Bandscan.Config
import Bandscan.Proofs.NetworkScan
import Bandscan.Proofs.ScanHistory
/-!
A scan tries every transponder that is registered, once and in the order of registration: the ones
that have been tried are always the first ones, and the others wait in their order, however many a
network table adds to them. Only an error or an interruption leaves any of them out.
-/

namespace Bandscan

namespace Network

variable {n n' : Network} {k : Nat}

/-- The first `k` transponders have been tried, in the order of their registration; the others are
pending in this order. -/
structure Tried (k : Nat) (n : Network) : Prop where
  le : k ≤ n.nextId
  scanned : n.scanned = List.range k
  pending : n.pending = List.range' k (n.nextId - k)

theorem tried_blank (tolerance : Nat) (inversion : Inversion) :
    Tried 0 { tolerance, inversion } := ⟨Nat.le_refl _, rfl, rfl⟩

theorem Tried.alloc (h : Tried k n) (frequency : Nat) : Tried k (n.alloc frequency) := by
  have hnext : (n.alloc frequency).nextId = n.nextId + 1 := by simp [Network.alloc, nextId]
  refine ⟨?_, h.scanned, ?_⟩
  · rw [hnext]
    exact Nat.le_succ_of_le h.le
  · have hlast : k + 1 * (n.nextId - k) = n.nextId := by
      rw [Nat.one_mul]
      exact Nat.add_sub_of_le h.le
    rw [hnext, Nat.succ_sub h.le, List.range'_concat, hlast, ← h.pending]
    rfl

theorem Tried.modify (h : Tried k n) (id : Nat) (f : Transponder → Transponder) :
    Tried k (n.modify id f) := by
  have hnext : (n.modify id f).nextId = n.nextId := List.length_modify ..
  exact ⟨hnext ▸ h.le, h.scanned, hnext ▸ h.pending⟩

theorem Tried.register (h : Tried k n) (d : Description) : Tried k (n.register d) := by
  unfold Network.register findOrAlloc
  cases n.find? d.frequency with
  | some id => exact h.modify id _
  | none => exact (h.alloc d.frequency).modify n.nextId _

theorem Tried.setChannel (h : Tried k n) (c : LogicalChannel) : Tried k (n.setChannel c) := by
  have hnext : (n.setChannel c).nextId = n.nextId := List.length_mapIdx
  exact ⟨hnext ▸ h.le, h.scanned, hnext ▸ h.pending⟩

theorem Tried.editServices (h : Tried k n) (es : List Edit) : Tried k (n.editServices es) := by
  unfold Network.editServices modifyCurrent
  cases n.current with
  | none => exact h
  | some id => exact h.modify id _

theorem Tried.read (h : Tried k n) (o : ReadOptions) (pid : Nat) (s : Section) :
    Tried k (n.read o pid s).network := by
  rw [(read_effects o pid s n).network]
  refine Tried.editServices ?_ _
  exact readTransponders_rec (fun _ c hn => hn.setChannel c) (fun _ d hn => hn.register d) s h

theorem Tried.load (h : Tried k n) (entries : List InitialList.Entry) :
    Tried k (InitialList.load entries n) := by
  induction entries generalizing n with
  | nil => exact h
  | cons e entries ih => exact ih ((h.alloc e.frequency).modify n.nextId _)

theorem Tried.tunedTo {id : Nat} (h : Tried k n) (hp : n.pending.head? = some id)
    (ht : Session.TunedTo id n n') : id = k ∧ Tried (k + 1) n' := by
  have hlt : 0 < n.nextId - k := by
    refine Nat.pos_of_ne_zero fun hz => ?_
    rw [h.pending, hz] at hp
    simp at hp
  obtain ⟨m, hm⟩ := Nat.exists_eq_add_one_of_ne_zero (Nat.ne_of_gt hlt)
  have hcons : n.pending = k :: List.range' (k + 1) m := by rw [h.pending, hm, List.range'_succ]
  obtain rfl : id = k := by
    rw [hcons] at hp
    exact (Option.some.inj hp).symm
  have hpending := ht.pending hcons
  obtain ⟨frequency, alternates, tuningFailed, rfl⟩ := ht
  refine ⟨rfl, Tried.modify ?_ _ _⟩
  have hnext : ((n.markScanned id).setCurrent id).nextId = n.nextId := by
    simp [setCurrent, markScanned, Network.modify, nextId, hcons]
  refine ⟨?_, ?_, ?_⟩
  · rw [hnext]
    omega
  · simp [setCurrent, markScanned, Network.modify, hcons, h.scanned, List.range_succ]
  · have hrest : n.nextId - (id + 1) = m := by omega
    rw [hnext, hrest]
    exact hpending

end Network

namespace Session

open Network

variable {δ φ : Type} {d : Demux δ φ} {fe : Frontend δ} {o : ScanOptions} {ro : ReadOptions}
  {n n' : Network} {es : List (Event φ)} {s : Session φ}

def tunings (es : List (Event φ)) : List Nat :=
  es.filterMap fun
    | .tuning id .. => some id
    | .handing .. => none

/-- All along a course the transponders that have been tried are the first ones. -/
theorem Course.tried {mark mark' : Option (Nat × Nat)} {k : Nat} (h : Course ro mark n es mark' n')
    (hn : Tried k n) :
    tunings es = List.range' k (tunings es).length ∧ Tried (k + (tunings es).length) n' ∧
      ∀ l e l', es = l ++ e :: l' → Tried (k + (tunings l).length) e.network := by
  induction h generalizing k with
  | nil => exact ⟨rfl, hn, by simp⟩
  | @tuning id locked scheduler mark n n₁ es mark' n' hi hp ht _ ih =>
    obtain ⟨rfl, hn₁⟩ := hn.tunedTo hp ht
    obtain ⟨hids, hend, hall⟩ := ih hn₁
    have hcons (l : List (Event φ)) :
        tunings (.tuning id locked scheduler n :: l) = id :: tunings l := rfl
    have hlen (m : Nat) : id + (m + 1) = id + 1 + m := by omega
    refine ⟨?_, ?_, fun l e l' he => ?_⟩
    · rw [hcons, List.length_cons, List.range'_succ, ← hids]
    · rw [hcons, List.length_cons, hlen]
      exact hend
    · obtain ⟨rfl, rfl, -⟩ | ⟨l₁, rfl, hes⟩ := cons_split he
      · exact hn
      · rw [hcons, List.length_cons, hlen]
        exact hall l₁ e l' hes
  | @handing f t id floor n es mark' n' hc hf _ ih =>
    obtain ⟨hids, hend, hall⟩ := ih (hn.read ro f.spec.pid t)
    refine ⟨hids, hend, fun l e l' he => ?_⟩
    obtain ⟨rfl, rfl, -⟩ | ⟨l₁, rfl, hes⟩ := cons_split he
    · exact hn
    · exact hall l₁ e l' hes

theorem tuneFirst_gives_up (fe : Frontend δ) (o : ScanOptions) {ids : List Nat}
    (hp : n.pending = ids) (w : World δ) :
    let r := tuneFirst fe o ids n w
    r.1 = false → r.2.2.interrupted = true ∨ r.2.1.pending = [] := by
  induction ids generalizing n w with
  | nil => exact fun _ => .inr hp
  | cons id rest ih =>
    have ht := tunedTo_tuneTo fe o id n w
    unfold tuneFirst
    split
    · next hw => exact fun _ => .inl hw
    · generalize tuneTo fe o id n w = r at ht ⊢
      obtain ⟨_ | _, n', w'⟩ := r
      · exact ih (ht.pending hp) w'
      · simp

theorem tuneNext_gives_up (fe : Frontend δ) (o : ScanOptions) (s : Session φ) (w : World δ) :
    let r := s.tuneNext fe o w
    r.1 = false → r.2.2.interrupted = true ∨ r.2.1.network.pending = [] :=
  tuneFirst_gives_up fe o rfl w

theorem scanPending_completed {passes tunings : Nat} {w : World δ}
    (h : (s.scanPending d fe o passes tunings w).1 = .ok .completed) :
    (s.scanPending d fe o passes tunings w).2.1.network.pending = [] := by
  induction tunings generalizing s w with
  | zero => simp [scanPending] at h
  | succ tunings ih =>
    unfold scanPending at h ⊢
    generalize s.scanTransponder d fe o passes w = r at h ⊢
    obtain ⟨e | outcome, s', w'⟩ := r
    · simp at h
    · cases outcome with
      | interrupted | unfinished => simp at h
      | completed =>
        dsimp only at h ⊢
        generalize w'.tell _ = v at h ⊢
        have hup := tuneNext_gives_up fe o s' v
        generalize s'.tuneNext fe o v = r at h hup ⊢
        obtain ⟨_ | _, s'', v'⟩ := r
        · refine (hup rfl).resolve_left fun hv => ?_
          have hv : v'.interrupted = true := hv
          simp [ended, hv] at h
        · exact ih h

theorem scanNetwork_completed {budget : Nat} {initial : List InitialList.Entry} {w : World δ}
    (h : (s.scanNetwork d fe o budget initial w).1 = .ok .completed) :
    (s.scanNetwork d fe o budget initial w).2.1.network.pending = [] := by
  unfold scanNetwork at h ⊢
  dsimp only at h ⊢
  generalize w.tellAll (InitialList.loadNotes initial) = w' at h ⊢
  generalize { s with network := InitialList.load initial s.network } = s₁ at h ⊢
  have hup := tuneNext_gives_up fe o s₁ w'
  generalize s₁.tuneNext fe o w' = r at h hup ⊢
  obtain ⟨_ | _, s', w''⟩ := r
  · dsimp only at h hup ⊢
    by_cases hw : w''.interrupted = true
    · simp [hw] at h
    · rw [if_neg hw] at h ⊢
      exact (hup rfl).resolve_left hw
  · exact scanPending_completed h

/-- A new session tries the transponders `0, 1, 2, …` in this order, each once. At every moment
those that have been tried are `0, …, k - 1` and all others are pending in their order, and none is
pending after a scan that is completed. -/
theorem scanNetwork_inOrder (d : Demux δ φ) (fe : Frontend δ) (o : ScanOptions) (c : Config)
    (budget : Nat) (initial : List InitialList.Entry) (w : World δ) :
    let s : Session φ := c.session
    let h := history d fe o budget initial s w
    let r := s.scanNetwork d fe o budget initial w
    tunings h = List.range (tunings h).length ∧
      (∀ entries, entries <+: initial → Tried 0 (InitialList.load entries s.network)) ∧
      (∀ l e l', h = l ++ e :: l' → Tried (tunings l).length e.network) ∧
      Tried (tunings h).length r.2.1.network ∧
      (r.1 = .ok .completed → r.2.1.network.pending = []) := by
  intro s h r
  have hblank : Tried 0 s.network := tried_blank c.tolerance c.inversion
  obtain ⟨mark, hcourse⟩ :=
    course_scanNetwork d fe o (s := s) rfl budget initial w
  obtain ⟨hids, hend, hall⟩ := hcourse.tried (hblank.load initial)
  simp only [Nat.zero_add] at hend hall
  exact ⟨hids.trans List.range_eq_range'.symm, fun entries _ => hblank.load entries, hall, hend,
    scanNetwork_completed⟩

theorem scanNetwork_inOrder_relisting :
    let r := ({} : Config).session.scanNetwork Bench.demuxDevice (Bench.frontendDevice .terrestrial)
      relistingOptions 10 relistingList relistingBench
    r.1 = .ok .completed ∧
      tunings (history Bench.demuxDevice (Bench.frontendDevice .terrestrial) relistingOptions 10
        relistingList ({} : Config).session relistingBench) = [0, 1, 2, 3] ∧
      r.2.1.network.pending = [] := by
  have hr : (({} : Config).session.scanNetwork Bench.demuxDevice (Bench.frontendDevice .terrestrial)
      relistingOptions 10 relistingList relistingBench).1 = .ok .completed := by
    decide +kernel
  have h := scanNetwork_inOrder Bench.demuxDevice (Bench.frontendDevice .terrestrial)
    relistingOptions {} 10 relistingList relistingBench
  refine ⟨hr, ?_, h.2.2.2.2 hr⟩
  decide +kernel

end Session

end Bandscan
