import Bandscan.Proofs.ReachableNetwork
/-!
The lists of a network that can be reached. Each transponder is listed once, as scanned or as
pending, and services are neither listed twice nor longer than a receiver can take them. `Listed` is
about the numbers of transponders alone, so that reading a section comes down to registrations.
-/

namespace Bandscan

namespace Service

variable {id : Nat} {f : Service → Service} {s : Service} {ss : List Service}

theorem mem_modifyIn (h : s ∈ modifyIn id f ss) : s ∈ ss ∨ ∃ t ∈ ss, s = f t := by
  induction ss with
  | nil => simp [modifyIn] at h
  | cons t ss ih =>
    unfold modifyIn at h
    split at h
    · rcases List.mem_cons.1 h with rfl | h
      · exact .inr ⟨t, List.mem_cons_self, rfl⟩
      · exact .inl (List.mem_cons_of_mem t h)
    · rcases List.mem_cons.1 h with rfl | h
      · exact .inl List.mem_cons_self
      · obtain h | ⟨u, hu, rfl⟩ := ih h
        · exact .inl (List.mem_cons_of_mem t h)
        · exact .inr ⟨u, List.mem_cons_of_mem t hu, rfl⟩

theorem mem_updateIn (h : s ∈ updateIn id f ss) :
    s ∈ ss ∨ ∃ t ∈ ({ id } : Service) :: ss, s = f t := by
  induction ss with
  | nil => exact .inr ⟨_, List.mem_cons_self, List.mem_singleton.1 h⟩
  | cons t ss ih =>
    unfold updateIn at h
    split at h
    · rcases List.mem_cons.1 h with rfl | h
      · exact .inr ⟨t, by simp, rfl⟩
      · exact .inl (List.mem_cons_of_mem t h)
    · rcases List.mem_cons.1 h with rfl | h
      · exact .inl List.mem_cons_self
      · obtain h | ⟨u, hu, rfl⟩ := ih h
        · exact .inl (List.mem_cons_of_mem t h)
        · refine .inr ⟨u, ?_, rfl⟩
          rcases List.mem_cons.1 hu with rfl | hu
          · exact List.mem_cons_self
          · exact List.mem_cons_of_mem _ (List.mem_cons_of_mem t hu)

/-- The lists of a service are no longer than a receiver can take them. -/
structure Modest (s : Service) : Prop where
  audio : s.audio.length ≤ maxAudio
  caSystems : s.caSystems.length ≤ maxCaSystems

theorem modest_blank (id : Nat) : Modest { id } := ⟨Nat.zero_le _, Nat.zero_le _⟩

theorem Modest.addStream (h : Modest s) (st : Stream) : Modest (s.addStream st) := by
  unfold Service.addStream
  split
  · split
    · exact ⟨h.audio, h.caSystems⟩
    · exact h
  · unfold pushAudio
    split
    · next hroom =>
      refine ⟨?_, h.caSystems⟩
      rw [List.length_append, List.length_singleton]
      exact of_decide_eq_true hroom
    · exact h
  · exact ⟨h.audio, h.caSystems⟩
  · exact ⟨h.audio, h.caSystems⟩
  · exact ⟨h.audio, h.caSystems⟩
  · exact h

theorem Modest.applyMap (h : Modest s) (m : Pmt) : Modest (s.applyMap m) := by
  have hr : Modest (s.rewound m.clockPid) := ⟨Nat.zero_le _, h.caSystems⟩
  unfold Service.applyMap
  generalize s.rewound m.clockPid = s at hr
  induction m.streams generalizing s with
  | nil => exact hr
  | cons st sts ih => exact ih _ (hr.addStream st)

theorem Modest.describe (h : Modest s) (streamId : Nat) (i : ServiceInfo) :
    Modest (s.describe streamId i) := by
  rw [describe_eq]
  refine ⟨h.audio, ?_⟩
  dsimp only
  split
  · exact h.caSystems
  · exact List.length_take_le _ _

end Service

theorem Edit.forall_apply {P : Service → Prop} {ss : List Service} (e : Edit)
    (hblank : ∀ id, P { id }) (hstep : ∀ s t, P s → e.onService (some s) = some t → P t)
    (h : ∀ s ∈ ss, P s) : ∀ s ∈ apply ss e, P s := by
  have hold (id : Nat) : ∀ s ∈ ({ id } : Service) :: ss, P s :=
    List.forall_mem_cons.2 ⟨hblank id, h⟩
  intro s hs
  cases e with
  | assign | describe =>
    obtain hs | ⟨t, ht, rfl⟩ := Service.mem_updateIn hs
    · exact h s hs
    · exact hstep t _ (hold _ t ht) rfl
  | applyMap =>
    obtain hs | ⟨t, ht, rfl⟩ := Service.mem_modifyIn hs
    · exact h s hs
    · exact hstep t _ (h t ht) rfl

theorem Edit.modest_apply {ss : List Service} (e : Edit) (h : ∀ s ∈ ss, s.Modest) :
    ∀ s ∈ apply ss e, s.Modest := by
  refine e.forall_apply Service.modest_blank (fun s t hs ht => ?_) h
  cases e with
  | assign streamId p =>
    obtain rfl := Option.some.inj ht
    exact ⟨hs.audio, hs.caSystems⟩
  | describe streamId i =>
    obtain rfl := Option.some.inj ht
    exact hs.describe streamId i
  | applyMap m =>
    obtain rfl := Option.some.inj ht
    exact hs.applyMap m

namespace Network

variable {n n' : Network}

theorem stable_modest : Stable fun ss => ∀ s ∈ ss, s.Modest where
  nil := by simp
  edit _ e h := Edit.modest_apply e h
  channel ss id channel h := by
    intro s hs
    obtain ⟨t, ht, rfl⟩ := List.mem_map.1 hs
    split
    · exact ⟨(h t ht).audio, (h t ht).caSystems⟩
    · exact h t ht

/-- Each number below that of the marks is listed once, pending ones in ascending order, and the
scanned ones are those that are marked. -/
structure Listed (scanned pending : List Nat) (marks : List Bool) : Prop where
  once : (scanned ++ pending).Perm (List.range marks.length)
  ascending : pending.Pairwise (· < ·)
  marked : ∀ id, marks[id]? = some true ↔ id ∈ scanned

section Listed

variable {scanned pending : List Nat} {marks : List Bool}

theorem Listed.lt (h : Listed scanned pending marks) {id : Nat} (hid : id ∈ scanned ++ pending) :
    id < marks.length := List.mem_range.1 (h.once.mem_iff.1 hid)

theorem Listed.once_append (h : Listed scanned pending marks) {listed : List Nat} (b : Bool)
    (hl : listed.Perm (scanned ++ pending ++ [marks.length])) :
    listed.Perm (List.range (marks ++ [b]).length) := by
  rw [List.length_append, List.length_singleton, List.range_succ]
  exact hl.trans (h.once.append_right _)

theorem Listed.alloc (h : Listed scanned pending marks) :
    Listed scanned (pending ++ [marks.length]) (marks ++ [false]) where
  once := h.once_append false (List.append_assoc scanned pending _ ▸ List.Perm.refl _)
  ascending := by
    rw [List.pairwise_append]
    refine ⟨h.ascending, List.pairwise_singleton _ _, fun a ha b hb => ?_⟩
    obtain rfl := List.mem_singleton.1 hb
    exact h.lt (List.mem_append_right _ ha)
  marked id := by
    rw [← h.marked, List.getElem?_append]
    split
    · rfl
    · next hid =>
      rw [List.getElem?_eq_none (Nat.le_of_not_lt hid)]
      cases id - marks.length <;> simp

theorem Listed.pin (h : Listed scanned pending marks) :
    Listed (scanned ++ [marks.length]) pending (marks ++ [true]) where
  once := by
    refine h.once_append true ?_
    rw [List.append_assoc, List.append_assoc]
    exact List.perm_append_comm.append_left scanned
  ascending := h.ascending
  marked id := by
    rw [List.mem_append, ← h.marked, List.mem_singleton, List.getElem?_append]
    split
    · next hid => simp [Nat.ne_of_lt hid]
    · next hid =>
      rw [List.getElem?_eq_none (Nat.le_of_not_lt hid), List.getElem?_singleton]
      have hnew : id - marks.length = 0 ↔ id = marks.length := by omega
      simp [hnew]

theorem Listed.mark (h : Listed scanned pending marks) {id : Nat} (hid : id ∈ pending) :
    Listed (scanned ++ [id]) (pending.erase id) (marks.set id true) where
  once := by
    rw [List.length_set, List.append_assoc]
    exact ((List.perm_cons_erase hid).symm.append_left scanned).trans h.once
  ascending := h.ascending.sublist List.erase_sublist
  marked i := by
    have hlt := h.lt (List.mem_append_right scanned hid)
    rw [List.mem_append, ← h.marked, List.mem_singleton, List.getElem?_set]
    by_cases hi : id = i
    · subst hi
      simp [hlt]
    · have hi' : ¬ i = id := fun he => hi he.symm
      simp [hi, hi']

theorem Listed.mark_again (h : Listed scanned pending marks) {id : Nat} (hid : id ∉ pending) :
    Listed scanned pending (marks.set id true) := by
  have hsame : marks.set id true = marks := by
    refine List.ext_getElem? fun i => ?_
    rw [List.getElem?_set]
    by_cases hi : id = i
    · subst hi
      by_cases hlt : id < marks.length
      · have hm : id ∈ scanned ++ pending := h.once.mem_iff.2 (List.mem_range.2 hlt)
        have hs : id ∈ scanned := (List.mem_append.1 hm).resolve_right hid
        rw [if_pos rfl, if_pos hlt, (h.marked id).2 hs]
      · simp [hlt]
    · rw [if_neg hi]
  rwa [hsame]

end Listed

def InOrder (n : Network) : Prop :=
  Listed n.scanned n.pending (n.transponders.map (·.scanDone))

theorem InOrder.modify {f : Transponder → Transponder} (id : Nat)
    (hf : ∀ tp, (f tp).scanDone = tp.scanDone) (h : InOrder n) : InOrder (n.modify id f) := by
  unfold InOrder
  rwa [map_modify id n hf]

theorem InOrder.alloc (frequency : Nat) (h : InOrder n) : InOrder (n.alloc frequency) := by
  have ha := Listed.alloc h
  rw [List.length_map] at ha
  simpa [InOrder, Network.alloc, nextId] using ha

theorem InOrder.findOrAlloc (frequency : Nat) (h : InOrder n) :
    InOrder (n.findOrAlloc frequency).2 := by
  unfold Network.findOrAlloc
  split
  · exact h
  · exact h.alloc frequency

theorem InOrder.pinCurrent (h : InOrder n) : InOrder n.pinCurrent := by
  have ha := Listed.pin h
  rw [List.length_map] at ha
  simpa [InOrder, Network.pinCurrent, nextId] using ha

theorem InOrder.markScanned (id : Nat) (h : InOrder n) : InOrder (n.markScanned id) := by
  have hset (n : Network) : (n.modify id fun tp => { tp with scanDone := true }).transponders.map
      (·.scanDone) = (n.transponders.map (·.scanDone)).set id true :=
    map_modify_to id n fun _ => rfl
  unfold InOrder Network.markScanned
  split
  · next hp =>
    rw [hset]
    exact Listed.mark h (List.contains_iff_mem.1 hp)
  · next hp =>
    rw [hset]
    exact Listed.mark_again h fun hm => hp (List.contains_iff_mem.2 hm)

theorem InOrder.load (entries : List InitialList.Entry) (h : InOrder n) :
    InOrder (InitialList.load entries n) := by
  induction entries generalizing n with
  | nil => exact h
  | cons e entries ih => exact ih ((h.alloc e.frequency).modify _ fun _ => rfl)

theorem InOrder.setChannel (c : LogicalChannel) (h : InOrder n) : InOrder (n.setChannel c) := by
  unfold InOrder
  rwa [map_setChannel c n fun _ _ => rfl]

theorem InOrder.readMultiplex (o : ReadOptions) (networkId : Nat) (m : Multiplex)
    (h : InOrder n) : InOrder (n.readMultiplex o networkId m) := by
  have hc : InOrder (n.readChannels o m) := by
    unfold readChannels
    split
    · generalize m.channels = cs
      induction cs generalizing n with
      | nil => exact h
      | cons c cs ih => exact ih (h.setChannel c)
    · exact h
  unfold Network.readMultiplex
  split
  · exact (hc.findOrAlloc _).modify _ fun _ => rfl
  · exact hc

theorem InOrder.read (o : ReadOptions) (pid : Nat) (s : Section) (h : InOrder n) :
    InOrder (n.read o pid s).network := by
  have ht : InOrder (n.readTransponders o s) := by
    unfold readTransponders
    split
    · split
      · next t _ =>
        generalize t.multiplexes = ms
        induction ms generalizing n with
        | nil => exact h
        | cons m ms ih => exact ih (h.readMultiplex o t.networkId m)
      · exact h
    · exact h
  rw [(read_effects o pid s n).network]
  unfold editServices modifyCurrent
  split
  · exact ht.modify _ fun _ => rfl
  · exact ht

theorem Reachable.inOrder (h : Reachable n) : InOrder n := by
  induction h with
  | new tolerance inversion => exact ⟨List.Perm.refl _, .nil, by simp⟩
  | alloc frequency _ ih => exact ih.alloc frequency
  | findOrAlloc frequency _ ih => exact ih.findOrAlloc frequency
  | pinCurrent _ ih => exact ih.pinCurrent
  | markScanned id _ ih => exact ih.markScanned id
  | setCurrent _ _ ih => exact ih
  | load entries _ ih => exact ih.load entries
  | read o pid _ _ ih => exact ih.read o pid _
  | retune id _ _ _ _ ih => exact ih.modify id fun _ => rfl

structure WellFormed (n : Network) : Prop where
  /-- Every transponder has been scanned or is pending, not both and not twice. -/
  once : (n.scanned ++ n.pending).Perm (List.range n.nextId)
  queued : n.pending.Pairwise (· < ·)
  done : ∀ id tp, n.get? id = some tp → (tp.scanDone = true ↔ id ∈ n.scanned)
  distinct : ∀ tp ∈ n.transponders, (tp.services.map (·.id)).Nodup
  audio : ∀ tp ∈ n.transponders, ∀ s ∈ tp.services, s.audio.length ≤ 32
  caSystems : ∀ tp ∈ n.transponders, ∀ s ∈ tp.services, s.caSystems.length ≤ 16

/-- Whatever is registered, read and tuned to, no transponder is lost or listed twice, and no
service is listed twice or outgrows its bounds. -/
theorem Reachable.wellFormed (h : Reachable n) : WellFormed n where
  once := by
    have hp := h.inOrder.once
    rwa [List.length_map] at hp
  queued := h.inOrder.ascending
  done id tp htp := by
    have hget : n.transponders[id]? = some tp := htp
    have hm := h.inOrder.marked id
    rw [List.getElem?_map, hget] at hm
    simpa using hm
  distinct := h.each stable_distinct
  audio tp htp s hs := (h.each stable_modest tp htp s hs).audio
  caSystems tp htp s hs := (h.each stable_modest tp htp s hs).caSystems

theorem Reachable.readSections (o : ReadOptions) (pid : Nat) {ss : List Section}
    (hs : ∀ s ∈ ss, ¬ s.Overflows) (h : Reachable n) :
    Reachable (ss.foldl (fun n s => (n.read o pid s).network) n) := by
  induction ss generalizing n with
  | nil => exact h
  | cons s ss ih =>
    rw [List.forall_mem_cons] at hs
    exact ih hs.2 (h.read o pid hs.1)

/-! ### A service that is named before it is listed, and whose map has one audio stream too many -/

def crowdedSections : List Section :=
  let section_ (tableId ext : Nat) (payload : Bytes) : Section :=
    { header := { tableId, longForm := true, length := 0, ext }, payload }
  [section_ 0x42 7 [0x00, 0x01, 0xFF, 0x00, 0x01, 0x00, 0x80, 0x02, 0x7F, 0x00],
    section_ 0x00 7 [0x00, 0x01, 0xE1, 0x00],
    section_ 0x02 1 ([0xE1, 0x01, 0xF0, 0x00] ++
      (List.range 33).flatMap fun i => [0x03, 0xE1, UInt8.ofNat i, 0xF0, 0x00])]

def secondOfThree : Network :=
  ((((({ tolerance := 1, inversion := .auto } : Network).alloc 5).alloc 6).alloc 7).markScanned
    1).setCurrent 1

def crowdedNetwork : Network :=
  crowdedSections.foldl (fun n s => (n.read
    { kind := .terrestrial, channelNumbers := false, mapTimeout := 1 } 0 s).network) secondOfThree

theorem Reachable.wellFormed_crowded :
    Reachable crowdedNetwork ∧ crowdedNetwork.scanned = [1] ∧ crowdedNetwork.pending = [0, 2] ∧
      ((crowdedNetwork.get? 1).map fun tp => tp.services.map fun s => (s.id, s.audio.length)) =
        some [(1, 32)] ∧ WellFormed crowdedNetwork := by
  have hnit : ∀ s ∈ crowdedSections, ¬ s.IsNit := by decide
  have h : Reachable secondOfThree :=
    .setCurrent (by decide) (.markScanned 1 (.alloc 7 (.alloc 6 (.alloc 5 (.new 1 .auto)))))
  have hn : Reachable crowdedNetwork := h.readSections _ 0 fun s hs ho => hnit s hs ho.1
  exact ⟨hn, by decide +kernel, by decide +kernel, by decide +kernel, hn.wellFormed⟩

end Network

end Bandscan
