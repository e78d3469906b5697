import Bandscan.InitialList
import Bandscan.Proofs.SectionEffects
/-!
The networks that a scan can come to know, whatever it registers, reads and tunes to. A property
of lists of services that entries of tables and channel numbers keep holds of every transponder
of a reachable network.
-/

namespace Bandscan.Network

variable {n : Network} {P : List Service → Prop}

inductive Reachable : Network → Prop where
  | new (tolerance : Nat) (inversion : Inversion) : Reachable { tolerance, inversion }
  | alloc (frequency : Nat) {n : Network} : Reachable n → Reachable (n.alloc frequency)
  | findOrAlloc (frequency : Nat) {n : Network} :
    Reachable n → Reachable (n.findOrAlloc frequency).2
  | pinCurrent {n : Network} : Reachable n → Reachable n.pinCurrent
  | markScanned (id : Nat) {n : Network} : Reachable n → Reachable (n.markScanned id)
  | setCurrent {id : Nat} {n : Network} (h : id < n.nextId) :
    Reachable n → Reachable (n.setCurrent id)
  | load (entries : List InitialList.Entry) {n : Network} :
    Reachable n → Reachable (InitialList.load entries n)
  | read (o : ReadOptions) (pid : Nat) {s : Section} {n : Network} (h : ¬ s.Overflows) :
    Reachable n → Reachable (n.read o pid s).network
  | retune (id frequency : Nat) (alternates : List Nat) (tuningFailed : Bool) {n : Network} :
    Reachable n → Reachable (n.modify id fun tp =>
      { tp with frequency, alternates, tuningFailed })

def Each (P : List Service → Prop) (n : Network) : Prop := ∀ tp ∈ n.transponders, P tp.services

/-- What changes services keeps `P`. -/
structure Stable (P : List Service → Prop) : Prop where
  nil : P []
  edit : ∀ ss e, P ss → P (Edit.apply ss e)
  channel : ∀ ss id channel, P ss →
    P (ss.map fun s => if s.id = id then { s with channel } else s)

/-- What tables say about services, and channel numbers, keep `P`. -/
structure Lasting (P : List Service → Prop) : Prop where
  nil : P []
  edit : ∀ (s : Section), ∀ e ∈ s.edits, ∀ ss, P ss → P (Edit.apply ss e)
  channel : ∀ ss id channel, P ss →
    P (ss.map fun s => if s.id = id then { s with channel } else s)

theorem Stable.lasting (hP : Stable P) : Lasting P where
  nil := hP.nil
  edit _ e _ ss h := hP.edit ss e h
  channel := hP.channel

theorem Lasting.editAll (hP : Lasting P) (s : Section) {ss : List Service} (h : P ss) :
    P (Edit.applyAll s.edits ss) := by
  suffices hs : ∀ es : List Edit, (∀ e ∈ es, e ∈ s.edits) → ∀ ss, P ss → P (Edit.applyAll es ss)
    from hs _ (fun _ he => he) ss h
  intro es hes
  induction es with
  | nil => exact fun _ h => h
  | cons e es ih =>
    rw [List.forall_mem_cons] at hes
    exact fun ss h => ih hes.2 _ (hP.edit s e hes.1 ss h)

theorem Each.modify {f : Transponder → Transponder} (id : Nat)
    (hf : ∀ tp, P tp.services → P (f tp).services) (h : Each P n) : Each P (n.modify id f) := by
  intro tp htp
  obtain ⟨i, hi⟩ := List.mem_iff_getElem?.1 htp
  rw [Network.modify, List.getElem?_modify] at hi
  obtain ⟨tp', htp', rfl⟩ := Option.map_eq_some_iff.1 hi
  have hp := h tp' (List.mem_of_getElem? htp')
  split
  · exact hf tp' hp
  · exact hp

theorem Each.append {tps : List Transponder} {tp : Transponder} (hP : Lasting P)
    (ht : tp.services = []) (h : Each P n) (hn : tps = n.transponders ++ [tp]) :
    ∀ tp ∈ tps, P tp.services := by
  intro tp' htp
  rw [hn] at htp
  rcases List.mem_append.1 htp with htp | htp
  · exact h tp' htp
  · obtain rfl := List.mem_singleton.1 htp
    exact ht ▸ hP.nil

theorem Each.alloc (hP : Lasting P) (frequency : Nat) (h : Each P n) :
    Each P (n.alloc frequency) := Each.append hP rfl h rfl

theorem Each.findOrAlloc (hP : Lasting P) (frequency : Nat) (h : Each P n) :
    Each P (n.findOrAlloc frequency).2 := by
  unfold Network.findOrAlloc
  split
  · exact h
  · exact h.alloc hP frequency

theorem Each.load (hP : Lasting P) (entries : List InitialList.Entry) (h : Each P n) :
    Each P (InitialList.load entries n) := by
  induction entries generalizing n with
  | nil => exact h
  | cons e entries ih => exact ih ((h.alloc hP e.frequency).modify _ fun _ hp => hp)

theorem Each.setChannel (hP : Lasting P) (c : LogicalChannel) (h : Each P n) :
    Each P (n.setChannel c) := by
  intro tp htp
  obtain ⟨i, hi, rfl⟩ := List.mem_mapIdx.1 htp
  have hp := h _ (List.getElem_mem hi)
  split
  · exact hP.channel _ _ _ hp
  · exact hp

theorem Each.readMultiplex (hP : Lasting P) (o : ReadOptions) (networkId : Nat) (m : Multiplex)
    (h : Each P n) : Each P (n.readMultiplex o networkId m) := by
  have hc : Each P (n.readChannels o m) := by
    unfold readChannels
    split
    · generalize m.channels = cs
      induction cs generalizing n with
      | nil => exact h
      | cons c cs ih => exact ih (h.setChannel hP c)
    · exact h
  unfold Network.readMultiplex
  split
  · exact (hc.findOrAlloc hP _).modify _ fun _ hp => hp
  · exact hc

theorem Each.read (hP : Lasting P) (o : ReadOptions) (pid : Nat) (s : Section) (h : Each P n) :
    Each P (n.read o pid s).network := by
  have ht : Each P (n.readTransponders o s) := by
    unfold readTransponders
    split
    · split
      · next t _ =>
        generalize t.multiplexes = ms
        induction ms generalizing n with
        | nil => exact h
        | cons m ms ih => exact ih (h.readMultiplex hP o t.networkId m)
      · exact h
    · exact h
  rw [(read_effects o pid s n).network]
  unfold editServices modifyCurrent
  split
  · exact ht.modify _ fun tp hp => hP.editAll s hp
  · exact ht

theorem Reachable.each_of_lasting (hP : Lasting P) (h : Reachable n) : Each P n := by
  induction h with
  | new tolerance inversion => exact fun tp htp => absurd htp List.not_mem_nil
  | alloc frequency _ ih => exact ih.alloc hP frequency
  | findOrAlloc frequency _ ih => exact ih.findOrAlloc hP frequency
  | pinCurrent _ ih => exact Each.append hP rfl ih rfl
  | markScanned id _ ih =>
    unfold Network.markScanned
    split
    · exact Each.modify id (fun _ hp => hp) ih
    · exact Each.modify id (fun _ hp => hp) ih
  | setCurrent _ _ ih => exact ih
  | load entries _ ih => exact ih.load hP entries
  | read o pid _ _ ih => exact ih.read hP o pid _
  | retune id _ _ _ _ ih => exact ih.modify id fun _ hp => hp

theorem Reachable.each (hP : Stable P) (h : Reachable n) : Each P n :=
  h.each_of_lasting hP.lasting

def Distinct (ss : List Service) : Prop := (ss.map (·.id)).Nodup

theorem stable_distinct : Stable Distinct where
  nil := List.nodup_nil
  edit _ e h := Edit.nodup_apply e h
  channel ss id channel h := by
    have hid : (ss.map fun s => if s.id = id then { s with channel } else s).map (·.id) =
        ss.map (·.id) := by
      rw [List.map_map]
      refine List.map_congr_left fun s _ => ?_
      simp only [Function.comp]
      split <;> rfl
    unfold Distinct
    rwa [hid]

theorem Reachable.distinct_services (h : Reachable n) : Distinct n.currentServices := by
  unfold currentServices
  cases hc : n.current? with
  | none => exact List.nodup_nil
  | some tp =>
    obtain ⟨id, -, hid⟩ := Option.bind_eq_some_iff.1 hc
    exact h.each stable_distinct tp (List.mem_of_getElem? hid)

end Bandscan.Network
