import Bandscan.Device.Memory
import Bandscan.Proofs.TableOrder
import Bandscan.Session
/-!
Which frequencies the scan tunes to at a transponder, on any frontend, and what this leaves in the
network. The alternates are tried from the last to the first. `Transponder.retuned` says what the
transponder looks like once a number of them have been tried, and `Retried` that each of these
tunings has failed.
-/

namespace Bandscan

def Transponder.marked (tp : Transponder) : Transponder := { tp with scanDone := true }

/-- The transponder once `k` of its alternates have been tried. -/
def Transponder.retuned (tp : Transponder) (k : Nat) : Transponder :=
  { tp with
    frequency := (tp.frequency :: tp.alternates.reverse).getD k 0
    alternates := tp.alternates.take (tp.alternates.length - k) }

theorem getElem?_of_drop {l rest : List Nat} {k f : Nat} (h : l.drop k = f :: rest) :
    l[k]? = some f ∧ l.drop (k + 1) = rest := by
  constructor
  · rw [← List.head?_drop, h]
    rfl
  · rw [← List.drop_drop, h]
    rfl

theorem Transponder.retuned_succ {tp : Transponder} {k f : Nat} {rest : List Nat}
    (h : tp.alternates.reverse.drop k = f :: rest) :
    { tp.retuned k with frequency := f, alternates := rest.reverse } = tp.retuned (k + 1) := by
  obtain ⟨hf, hrest⟩ := getElem?_of_drop h
  rw [List.drop_reverse] at hrest
  simp [retuned, ← hrest, hf]

theorem Transponder.retuned_zero (tp : Transponder) : tp.retuned 0 = tp := by
  simp [retuned]

namespace Network

structure LeftAs (id : Nat) (tp : Transponder) (n n' : Network) : Prop where
  current : n'.current = some id
  scanned : id ∈ n'.scanned
  pending : n'.pending = n.pending.erase id
  transponder : n'.get? id = some tp
  others : ∀ j ≠ id, n'.get? j = n.get? j

theorem get?_markScanned (id : Nat) (n : Network) (j : Nat) :
    (n.markScanned id).get? j = (n.get? j).map fun tp => if id = j then tp.marked else tp := by
  unfold markScanned
  dsimp only
  rw [get?_modify]
  -- which list the id is moved to does not show in the transponders
  by_cases hp : n.pending.contains id = true
  · rw [if_pos hp]
    rfl
  · rw [if_neg hp]
    rfl

theorem leftAs_modify {id : Nat} {n : Network} {tp : Transponder} (hget : n.get? id = some tp)
    (hid : id ∈ n.scanned ++ n.pending) (f : Transponder → Transponder) :
    LeftAs id (f tp.marked) n (((n.markScanned id).setCurrent id).modify id f) := by
  have hget' (j : Nat) : (((n.markScanned id).setCurrent id).modify id f).get? j =
      (n.get? j).map fun tp => if id = j then f tp.marked else tp := by
    rw [get?_modify]
    show Option.map _ ((n.markScanned id).get? j) = _
    rw [get?_markScanned, Option.map_map]
    refine congrArg (Option.map · _) (funext fun tp => ?_)
    by_cases hj : id = j <;> simp [hj]
  refine ⟨rfl, ?_, ?_, ?_, fun j hj => ?_⟩
  · show id ∈ (n.markScanned id).scanned
    unfold markScanned
    by_cases hp : id ∈ n.pending
    · simp [hp, modify]
    · simpa [hp, modify] using hid
  · show (n.markScanned id).pending = _
    unfold markScanned
    by_cases hp : id ∈ n.pending
    · simp [hp, modify]
    · simp [hp, modify, List.erase_of_not_mem hp]
  · simp [hget', hget]
  · rw [hget']
    simp [Ne.symm hj]

end Network

namespace Session

variable {δ : Type} (fe : Frontend δ) (o : ScanOptions)

/-- Tuning to a transponder and to the first `k` of its alternates has failed, and the next
alternate is about to be tried. -/
inductive Retried (tp : Transponder) (w : World δ) : Nat → World δ → Prop where
  | start : Retried tp w 0 w
  | retry {k w' w''} (h : Retried tp w k w')
    (hf : fe.tune (tp.retuned k) o.tune w' = (false, w'')) :
    Retried tp w (k + 1) (w''.tell (.info s!"retrying with f={(tp.retuned (k + 1)).frequency}"))

/-- The induction is on the alternates that are untried after `k` of them. -/
theorem exists_retried_tryFrequencies (tp : Transponder) {k : Nat} (hk : k ≤ tp.alternates.length)
    {w₀ w : World δ} (h : Retried fe o tp w₀ k w) :
    let r := tryFrequencies fe o (tp.retuned k) (tp.alternates.reverse.drop k) w
    ∃ k' ≤ tp.alternates.length, ∃ w', Retried fe o tp w₀ k' w' ∧
      fe.tune (tp.retuned k') o.tune w' = (r.1.1, r.2) ∧ r.1.2 = tp.retuned k' ∧
      (tp.otherFrequency = false → k' = k) ∧
      (tp.otherFrequency = true → r.1.1 = false → k' = tp.alternates.length) := by
  induction hu : tp.alternates.reverse.drop k generalizing k w with
  | nil =>
    have hlen : tp.alternates.length = k := by
      have := List.drop_eq_nil_iff.1 hu
      rw [List.length_reverse] at this
      omega
    unfold tryFrequencies
    rcases ht : fe.tune (tp.retuned k) o.tune w with ⟨_ | _, w'⟩ <;>
      exact ⟨k, hk, w, h, ht, rfl, fun _ => rfl, fun _ _ => hlen.symm⟩
  | cons f rest ih =>
    have hsucc := Transponder.retuned_succ hu
    have hlt : k < tp.alternates.length := by
      have := List.drop_eq_nil_iff.not.1 (hu ▸ List.cons_ne_nil f rest)
      rwa [List.length_reverse, Nat.not_le] at this
    have hother : (tp.retuned k).otherFrequency = tp.otherFrequency := rfl
    unfold tryFrequencies
    rcases ht : fe.tune (tp.retuned k) o.tune w with ⟨_ | _, w'⟩
    · -- no lock: the next alternate is tried, if there may be any
      dsimp only
      rw [hother, hsucc]
      by_cases ho : tp.otherFrequency = true
      · rw [if_pos ho]
        have hretried := Retried.retry h ht
        rw [show (tp.retuned (k + 1)).frequency = f by rw [← hsucc]] at hretried
        obtain ⟨k', hk', w'', hr, htune, hlast, -, hall⟩ :=
          ih hlt hretried (getElem?_of_drop hu).2
        exact ⟨k', hk', w'', hr, htune, hlast, fun hf => absurd ho (by simp [hf]), hall⟩
      · rw [if_neg ho]
        exact ⟨k, hk, w, h, ht, rfl, fun _ => rfl, fun ho' => absurd ho' ho⟩
    · exact ⟨k, hk, w, h, ht, rfl, fun _ => rfl, fun _ hf => absurd hf (by simp)⟩

theorem untunable_eq_none_iff (tp : Transponder) :
    untunable fe tp = none ↔ tp.kind = some fe.kind := by
  unfold untunable
  cases tp.kind with
  | none => simp
  | some k => by_cases hk : k = fe.kind <;> simp [hk]

/-- What tuning to a transponder does. One without parameters for this kind of frontend is passed
over with a remark. At any other the frontend is tuned to its frequency and then to its alternates,
the last one first, if the broadcaster says that there are other frequencies, until there is a lock.
The transponder keeps the frequency of the last tuning and the alternates that are untried. -/
theorem tuneTo_settles {id : Nat} {n : Network} {tp : Transponder} (hget : n.get? id = some tp)
    (hid : id ∈ n.scanned ++ n.pending) (w : World δ) :
    let r := tuneTo fe o id n w
    (tp.kind ≠ some fe.kind → r.1 = false ∧ (∃ note, r.2.2 = w.tell note) ∧
      Network.LeftAs id { tp.marked with tuningFailed := true } n r.2.1) ∧
    (tp.kind = some fe.kind → ∃ k ≤ tp.alternates.length, ∃ w', Retried fe o tp.marked w k w' ∧
      fe.tune (tp.marked.retuned k) o.tune w' = (r.1, r.2.2) ∧
      (tp.otherFrequency = false → k = 0) ∧
      (tp.otherFrequency = true → r.1 = false → k = tp.alternates.length) ∧
      Network.LeftAs id { tp.marked.retuned k with tuningFailed := !r.1 } n r.2.1) := by
  have hmarked : ((n.markScanned id).setCurrent id).get? id = some tp.marked := by
    show (n.markScanned id).get? id = _
    simp [Network.get?_markScanned, hget]
  unfold tuneTo
  dsimp only
  rw [hmarked]
  dsimp only
  constructor
  · intro hkind
    cases hu : untunable fe tp.marked with
    | none => exact absurd ((untunable_eq_none_iff fe _).1 hu) hkind
    | some note =>
      exact ⟨rfl, ⟨note, rfl⟩,
        Network.leftAs_modify hget hid fun tp => { tp with tuningFailed := true }⟩
  · intro hkind
    rw [(untunable_eq_none_iff fe tp.marked).2 hkind]
    dsimp only
    have h := exists_retried_tryFrequencies fe o tp.marked (Nat.zero_le _)
      (Retried.start (w := w))
    rw [Transponder.retuned_zero, List.drop_zero] at h
    obtain ⟨k, hk, w', hr, ht, hlast, hsingle, hall⟩ := h
    refine ⟨k, hk, w', hr, ht, hsingle, hall, ?_⟩
    rw [hlast]
    exact Network.leftAs_modify hget hid fun _ => { tp.marked.retuned k with tuningFailed := _ }

def movedTransponder : Transponder where
  frequency := 506
  alternates := [514, 522]
  delivery := some (.terrestrial {
    bandwidth := .auto, codeRateHigh := .auto, codeRateLow := .auto, constellation := .auto
    mode := .auto, guardInterval := .auto, hierarchy := .auto, otherFrequency := true })

def cableTransponder : Transponder where
  frequency := 346
  delivery := some (.cable { symbolRate := 6900, fec := .none, modulation := .qam64 })

def movedNetwork : Network where
  tolerance := 1
  inversion := .auto
  transponders := [movedTransponder, cableTransponder]
  pending := [0, 1]

/-- Only the alternate that is tried last locks. -/
def movedBench : World Bench where
  device := { frontend := { lockAfter := [(514, 1)] } }

def onePoll : ScanOptions where
  timeouts := { pat := 1, sdt := 1, nit := 1, pmt := 1 }
  pollInterval := 1
  tune := { attempts := 1, lockPolls := 1, lockDelay := 1 }
  readNit := true
  readOtherNits := false
  channelNumbers := false

theorem tuneTo_settles_moved :
    let fe := Bench.frontendDevice .terrestrial
    let r := tuneTo fe onePoll 0 movedNetwork movedBench
    let r' := tuneTo fe onePoll 1 movedNetwork movedBench
    r.1 = true ∧ r.2.2.device.frontend.tuned = [506, 522, 514] ∧
      (∃ k ≤ 2, ∃ w', Retried fe onePoll movedTransponder.marked movedBench k w' ∧
        Network.LeftAs 0 { movedTransponder.marked.retuned k with tuningFailed := !r.1 }
          movedNetwork r.2.1) ∧
      r'.1 = false ∧
      Network.LeftAs 1 { cableTransponder.marked with tuningFailed := true } movedNetwork
        r'.2.1 := by
  intro fe r r'
  have hmoved : movedNetwork.get? 0 = some movedTransponder := rfl
  have hcable : movedNetwork.get? 1 = some cableTransponder := rfl
  obtain ⟨k, hk, w', hr, -, -, -, hs⟩ :=
    (tuneTo_settles fe onePoll hmoved (by decide) movedBench).2 rfl
  obtain ⟨hfalse, -, hs'⟩ := (tuneTo_settles fe onePoll hcable (by decide) movedBench).1 (by decide)
  exact ⟨rfl, rfl, ⟨k, hk, w', hr, hs⟩, hfalse, hs'⟩

end Session

end Bandscan
