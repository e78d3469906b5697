import Bandscan.Proofs.ChannelOrder
import Bandscan.Proofs.PinnedNetwork
/-!
What a section leaves alone. The tables of services reach the services of the current transponder
only, and take none of them away. A network table describes transponders and registers new ones,
and of what has been found on the known ones it touches at most channel numbers. A section that
tells nothing changes nothing.
-/

namespace Bandscan

namespace Section

def IsOfServices (s : Section) : Prop :=
  s.header.tableId = Pat.tableId ∨ s.header.tableId = Pmt.tableId ∨ s.header.tableId = Sdt.actualId

def Tells (s : Section) : Prop :=
  (s.header.tableId = Pat.tableId ∧ ∃ t, Pat.parse s = .ok t) ∨
  (s.header.tableId = Pmt.tableId ∧ ∃ t, Pmt.parse s = .ok t) ∨
  (s.header.tableId = Sdt.actualId ∧ ∃ t, Sdt.parse s = .ok t) ∨
  (s.IsNit ∧ ∃ t, Nit.parse s = .ok t)

theorem not_isNit_of_isOfServices {s : Section} (h : s.IsOfServices) : ¬ s.IsNit := by
  rcases h with h | h | h
  · exact not_isNit h (by decide)
  · exact not_isNit h (by decide)
  · exact not_isNit h (by decide)

theorem edits_of_not_tells {s : Section} (h : ¬ s.Tells) : s.edits = [] := by
  simp only [Tells, not_or, not_and] at h
  obtain ⟨hpat, hpmt, hsdt, -⟩ := h
  unfold edits
  split
  · next hid =>
    cases ht : Pat.parse s with
    | ok t => exact absurd ⟨t, ht⟩ (hpat hid)
    | error e => rfl
  · split
    · next hid =>
      cases ht : Pmt.parse s with
      | ok t => exact absurd ⟨t, ht⟩ (hpmt hid)
      | error e => rfl
    · split
      · next hid =>
        cases ht : Sdt.parse s with
        | ok t => exact absurd ⟨t, ht⟩ (hsdt hid)
        | error e => rfl
      · rfl

end Section

/-- The table without the multiplexes of other delivery systems and those that it does not say how
to receive. -/
def Nit.ofKind (kind : DeliveryKind) (t : Nit) : Nit :=
  { t with multiplexes := t.multiplexes.filter fun m => m.delivery.any (·.kind = kind) }

namespace Edit

theorem prefix_apply (e : Edit) (ss : List Service) :
    ss.map (·.id) <+: (apply ss e).map (·.id) := by
  have hupdate {id : Nat} {f : Service → Service} (hf : ∀ s, (f s).id = s.id) :
      ss.map (·.id) <+: (Service.updateIn id f ss).map (·.id) := by
    rw [Service.map_id_updateIn hf]
    split
    · exact List.prefix_rfl
    · exact List.prefix_append _ _
  cases e with
  | assign streamId p => exact hupdate (Service.id_assign streamId p)
  | describe streamId i => exact hupdate (Service.id_describe streamId i)
  | applyMap m => exact (Service.map_id_modifyIn (Service.id_applyMap m) ss).symm ▸ List.prefix_rfl

theorem prefix_applyAll (es : List Edit) (ss : List Service) :
    ss.map (·.id) <+: (applyAll es ss).map (·.id) := by
  induction es generalizing ss with
  | nil => exact List.prefix_rfl
  | cons e es ih => exact (prefix_apply e ss).trans (ih (apply ss e))

end Edit

namespace Network

variable {o : ReadOptions} {n n' n'' : Network}

theorem read_of_not_tells {s : Section} (h : ¬ s.Tells) (pid : Nat) :
    (n.read o pid s).network = n := by
  have ht : n.readTransponders o s = n := by
    unfold readTransponders
    split
    · next hs =>
      cases hp : Nit.parse s with
      | ok t => exact absurd (.inr (.inr (.inr ⟨hs, t, hp⟩))) h
      | error e => rfl
    · rfl
  rw [(read_effects o pid s n).network, ht, Section.edits_of_not_tells h, editServices_nil]

theorem editServices_of_current (es : List Edit) {c : Nat} {tp : Transponder}
    (hc : n.current = some c) (hget : n.get? c = some tp) :
    n.editServices es = { n with
      transponders := n.transponders.set c
        { tp with services := Edit.applyAll es tp.services } } := by
  have hmod : n.editServices es =
      n.modify c fun _ => { tp with services := Edit.applyAll es tp.services } := by
    rw [editServices, modifyCurrent, hc]
    refine modify_congr fun tp' htp' => ?_
    obtain rfl := Option.some.inj (hget.symm.trans htp')
    rfl
  have : Inhabited Transponder := ⟨tp⟩
  rw [hmod, modify, List.modify_eq_set]

/-- The second network has all that the first one has. Known transponders may be described anew, and
new ones are pending. -/
structure Enlarged (n n' : Network) : Prop where
  fixture : n'.fixture = n.fixture
  inversion : n'.inversion = n.inversion
  size : n.nextId ≤ n'.nextId
  pending : n'.pending = n.pending ++ List.range' n.nextId (n'.nextId - n.nextId)
  known : ∀ id tp, n.get? id = some tp → ∃ d, n'.get? id = some { tp with toDescription := d }
  new : ∀ id tp, n.nextId ≤ id → n'.get? id = some tp →
    ∃ d, tp = { toDescription := d, inversion := n.inversion }

theorem Enlarged.refl (n : Network) : Enlarged n n where
  fixture := rfl
  inversion := rfl
  size := Nat.le_refl _
  pending := by simp
  known _ tp h := ⟨tp.toDescription, h⟩
  new id tp hid h := absurd (lt_nextId h) (Nat.not_lt.2 hid)

theorem Enlarged.trans (h : Enlarged n n') (h' : Enlarged n' n'') : Enlarged n n'' where
  fixture := h'.fixture.trans h.fixture
  inversion := h'.inversion.trans h.inversion
  size := Nat.le_trans h.size h'.size
  pending := by
    have hadd : n.nextId + (n'.nextId - n.nextId) = n'.nextId := Nat.add_sub_cancel' h.size
    have hsum : n'.nextId - n.nextId + (n''.nextId - n'.nextId) = n''.nextId - n.nextId := by
      have := h.size
      have := h'.size
      omega
    have hrange : List.range' n.nextId (n'.nextId - n.nextId) ++
        List.range' (n.nextId + 1 * (n'.nextId - n.nextId)) (n''.nextId - n'.nextId) =
        List.range' n.nextId (n'.nextId - n.nextId + (n''.nextId - n'.nextId)) :=
      List.range'_append
    rw [Nat.one_mul, hadd, hsum] at hrange
    rw [h'.pending, h.pending, List.append_assoc, hrange]
  known id tp hget := by
    obtain ⟨d, hd⟩ := h.known id tp hget
    obtain ⟨d', hd'⟩ := h'.known id _ hd
    exact ⟨d', hd'⟩
  new id tp hid hget := by
    by_cases hnew : n'.nextId ≤ id
    · obtain ⟨d, rfl⟩ := h'.new id tp hnew hget
      exact ⟨d, by rw [h.inversion]⟩
    · -- registered in the first step, described anew in the second
      obtain ⟨tp', htp'⟩ : ∃ tp', n'.get? id = some tp' :=
        ⟨_, List.getElem?_eq_getElem (Nat.lt_of_not_le hnew)⟩
      obtain ⟨d', hd'⟩ := h'.known id tp' htp'
      obtain ⟨d, rfl⟩ := h.new id tp' hid htp'
      exact ⟨d', Option.some.inj (hget.symm.trans hd')⟩

theorem enlarged_redescribe (id : Nat) (d : Description) (n : Network) :
    Enlarged n (n.modify id (·.redescribe d)) := by
  have hsize : (n.modify id (·.redescribe d)).nextId = n.nextId := List.length_modify ..
  refine ⟨rfl, rfl, Nat.le_of_eq hsize.symm, ?_, fun i tp hget => ?_, fun i tp hi hget => ?_⟩
  · rw [hsize, Nat.sub_self, List.range'_zero, List.append_nil]
    rfl
  · rw [get?_modify, hget, Option.map_some]
    split
    · exact ⟨d, rfl⟩
    · exact ⟨tp.toDescription, rfl⟩
  · exact absurd (hsize ▸ lt_nextId hget) (Nat.not_lt.2 hi)

theorem enlarged_alloc (frequency : Nat) (n : Network) : Enlarged n (n.alloc frequency) := by
  have hsize : (n.alloc frequency).nextId = n.nextId + 1 := by simp [alloc, nextId]
  refine ⟨rfl, rfl, hsize ▸ Nat.le_succ _, ?_, fun i tp hget => ?_, fun i tp hi hget => ?_⟩
  · rw [hsize, Nat.add_sub_cancel_left, List.range'_one]
    rfl
  · rw [get?_alloc, if_neg (Nat.ne_of_lt (lt_nextId hget))]
    exact ⟨tp.toDescription, hget⟩
  · rw [get?_alloc] at hget
    split at hget
    · exact ⟨{ frequency }, (Option.some.inj hget).symm⟩
    · exact absurd (lt_nextId hget) (Nat.not_lt.2 hi)

theorem enlarged_register (d : Description) (n : Network) : Enlarged n (n.register d) := by
  unfold register findOrAlloc
  cases n.find? d.frequency with
  | some id => exact enlarged_redescribe id d n
  | none => exact (enlarged_alloc d.frequency n).trans (enlarged_redescribe _ d _)

theorem enlarged_registerAll (ds : List Description) (n : Network) :
    Enlarged n (n.registerAll ds) := by
  induction ds generalizing n with
  | nil => exact .refl n
  | cons d ds ih => exact (enlarged_register d n).trans (ih (n.register d))

/-- A service is as it was or has another channel number. A number is taken over only if numbers
are wanted, from the list, and for a service on a scanned transponder. -/
def Renumbered (o : ReadOptions) (cs : List LogicalChannel) (scanned : Prop)
    (s s' : Service) : Prop :=
  s' = s ∨ o.channelNumbers = true ∧ scanned ∧
    ∃ c ∈ cs, c.serviceId = s.id ∧ s' = { s with channel := some c.number }

theorem renumbered_foldl {cs cs' : List LogicalChannel} {scanned : Prop} (hs : scanned)
    (hcs : cs = if o.channelNumbers then cs' else []) (s : Service) :
    Renumbered o cs' scanned s (cs.foldl Service.numbered s) := by
  rw [Service.foldl_numbered]
  cases hn : LogicalChannel.numberFor cs s.id with
  | none => exact .inl rfl
  | some number =>
    obtain ⟨c, hfind, rfl⟩ := Option.map_eq_some_iff.1 hn
    have hid : c.serviceId = s.id := by simpa using List.find?_some hfind
    have hmem : c ∈ cs := List.mem_reverse.1 (List.mem_of_find?_eq_some hfind)
    rw [hcs] at hmem
    split at hmem
    · next ho => exact .inr ⟨ho, hs, c, hmem, hid, rfl⟩
    · simp at hmem

structure Charts (o : ReadOptions) (cs : List LogicalChannel) (n n' : Network) : Prop where
  tolerance : n'.tolerance = n.tolerance
  inversion : n'.inversion = n.inversion
  pinned : n'.pinned = n.pinned
  current : n'.current = n.current
  scanned : n'.scanned = n.scanned
  size : n.nextId ≤ n'.nextId
  pending : n'.pending = n.pending ++ List.range' n.nextId (n'.nextId - n.nextId)
  known : ∀ id tp, n.get? id = some tp → ∃ d services,
    n'.get? id = some { tp with toDescription := d, services } ∧
      List.Forall₂ (Renumbered o cs (id ∈ n.scanned)) tp.services services
  /-- A new transponder is blank but for its description. -/
  new : ∀ id tp, n.nextId ≤ id → n'.get? id = some tp →
    ∃ d, tp = { toDescription := d, inversion := n.inversion }

theorem readNit_network (t : Nit) (n : Network) :
    (n.readNit o t).network =
      (n.registerAll ((t.ofKind o.kind).multiplexes.map (description t.networkId))).onScanned
        fun s => (if o.channelNumbers then t.multiplexes.flatMap (·.channels)
          else []).foldl Service.numbered s := by
  rw [readNit, readMultiplexes_eq, registerAll_setChannels, setChannels_eq]
  rfl

theorem charts_readNit (t : Nit) (n : Network) :
    Charts o (t.multiplexes.flatMap (·.channels)) n (n.readNit o t).network := by
  rw [readNit_network]
  have hl := enlarged_registerAll ((t.ofKind o.kind).multiplexes.map (description t.networkId)) n
  generalize n.registerAll _ = n' at hl ⊢
  have hsize (g : Service → Service) : (n'.onScanned g).nextId = n'.nextId := List.length_mapIdx
  obtain ⟨htol, hpin, hsc, hcur⟩ := by simpa [fixture] using hl.fixture
  refine ⟨htol, hl.inversion, hpin, hcur, hsc, (hsize _).symm ▸ hl.size,
    (hsize _).symm ▸ hl.pending, fun id tp hget => ?_, fun id tp hid hget => ?_⟩
  · obtain ⟨d, hd⟩ := hl.known id tp hget
    by_cases hs : id ∈ n'.scanned
    · refine ⟨d, _, by rw [get?_onScanned, hd, Option.map_some,
        if_pos (List.contains_iff_mem.2 hs)]; rfl, ?_⟩
      rw [List.forall₂_map_right_iff, List.forall₂_same]
      exact fun s _ => renumbered_foldl (hsc ▸ hs) rfl s
    · refine ⟨d, tp.services, by rw [get?_onScanned, hd, Option.map_some,
        if_neg (mt List.contains_iff_mem.1 hs)], ?_⟩
      rw [List.forall₂_same]
      exact fun s _ => .inl rfl
  · rw [get?_onScanned] at hget
    obtain ⟨tp', htp', rfl⟩ := Option.map_eq_some_iff.1 hget
    obtain ⟨d, rfl⟩ := hl.new id tp' hid htp'
    refine ⟨d, ?_⟩
    split <;> rfl

theorem description?_readNit (t : Nit) (n : Network) (id : Nat) :
    (n.readNit o t).network.description? id =
      (n.readNit o (t.ofKind o.kind)).network.description? id := by
  have htwice : (t.ofKind o.kind).ofKind o.kind = t.ofKind o.kind := by
    simp [Nit.ofKind, List.filter_filter]
  rw [readNit_network, readNit_network, description?_onScanned, description?_onScanned, htwice]
  rfl

/-- Each table changes what it is about. An association table, a map or a service table changes
nothing but the services of the current transponder, of which none goes away or moves. A network
table describes transponders, appends new ones to the pending ones and sets channel numbers, and
changes nothing else; what it says about multiplexes of other delivery systems describes and
registers none. Any other section, and one that does not decode, changes nothing. -/
theorem read_changes_own (o : ReadOptions) (pid : Nat) (s : Section) (n : Network) :
    let n' := (n.read o pid s).network
    (s.IsOfServices →
      (n.current? = none → n' = n) ∧
      ∀ c tp, n.current = some c → n.get? c = some tp → ∃ services,
        n' = { n with transponders := n.transponders.set c { tp with services } } ∧
          tp.services.map (·.id) <+: services.map (·.id)) ∧
    (∀ t, Nit.parse s = .ok t →
      Charts o (t.multiplexes.flatMap (·.channels)) n n' ∧
      ∀ id, n'.description? id = (n.readNit o (t.ofKind o.kind)).network.description? id) ∧
    (¬ s.Tells → n' = n) := by
  intro n'
  refine ⟨fun hs => ?_, fun t ht => ?_, fun hs => read_of_not_tells hs pid⟩
  · have hn' : n' = n.editServices s.edits :=
      (read_of_not_nit (Section.not_isNit_of_isOfServices hs) pid).1
    refine ⟨fun hc => hn'.trans (editServices_eq_self _ hc), fun c tp hc hget => ?_⟩
    exact ⟨_, hn'.trans (editServices_of_current _ hc hget), Edit.prefix_applyAll _ _⟩
  · have hs : s.IsNit := Nit.isNit_of_parse ht
    have hn' : n' = (n.readNit o t).network := by
      have hn := (read_effects o pid s n).network
      rw [edits_nit hs, editServices_nil, readTransponders, if_pos hs, ht] at hn
      exact hn
    rw [hn']
    exact ⟨charts_readNit t n, description?_readNit t n⟩

/-! ### A network table with a multiplex of its own kind, one of another kind and a channel -/

def terrestrialParameters : TerrestrialParameters where
  bandwidth := .mhz8
  codeRateHigh := .r2_3
  codeRateLow := .r1_2
  constellation := .qam64
  mode := .mode8k
  guardInterval := .g1_32
  hierarchy := .none
  otherFrequency := false

def cableParameters : CableParameters where
  symbolRate := 6900000
  fec := .auto
  modulation := .qam64

def mixedMultiplexes : List Multiplex :=
  [{ streamId := 7, originNetwork := 1, frequency := 522000000,
     delivery := some (.terrestrial terrestrialParameters) },
    { streamId := 8, originNetwork := 1, frequency := 346000000,
      delivery := some (.cable cableParameters) },
    { streamId := 9, originNetwork := 1,
      channels := [{ serviceId := 1, visible := true, number := 8 }] }]

def mixedNit : Section where
  header := { tableId := 0x40, longForm := true, length := 0, ext := 1 }
  payload := [0xF0, 0x00, 0xF0, 0x34,
    0x00, 0x07, 0x00, 0x01, 0xF0, 0x0D,
    0x5A, 0x0B, 0x03, 0x1C, 0x82, 0x40, 0x1F, 0x81, 0x02, 0xFF, 0xFF, 0xFF, 0xFF,
    0x00, 0x08, 0x00, 0x01, 0xF0, 0x0D,
    0x44, 0x0B, 0x03, 0x46, 0x00, 0x00, 0xFF, 0xF2, 0x03, 0x00, 0x69, 0x00, 0x00,
    0x00, 0x09, 0x00, 0x01, 0xF0, 0x06,
    0x83, 0x04, 0x00, 0x01, 0xFC, 0x08]

/-- Only the terrestrial multiplex is registered, and the service that was known gets its number. A
service table of another multiplex changes nothing. -/
theorem read_changes_own_mixed :
    let n := (scannedOnce.read numbering 0 (associations [1, 2])).network
    let n' := (n.read numbering 16 mixedNit).network
    let other : Section := { associations [2, 3] with
      header := { tableId := 0x46, longForm := true, length := 0 } }
    (∃ services, (n.read numbering 0 (associations [2, 3])).network =
        { n with transponders := [{ n.transponders[0] with services }] } ∧
      [1, 2] <+: services.map (·.id)) ∧
    (Charts numbering [⟨1, true, 8⟩] n n' ∧ n'.nextId = 2 ∧ n'.pending = [1] ∧
      (n'.servicesOf 0).map (·.channel) = [some 8, none] ∧
      (n'.description? 1).map (·.frequency) = some 522000000) ∧
    ¬ other.Tells ∧ (n.read numbering 18 other).network = n := by
  intro n n' other
  have hc : n.current = some 0 := by decide +kernel
  have hget : n.get? 0 = some n.transponders[0] := rfl
  have hnit : Nit.parse mixedNit = .ok
      { tableId := 0x40, networkId := 1, version := 0, name := none,
        multiplexes := mixedMultiplexes, truncated := none } := by
    decide +kernel
  have hother : ¬ other.Tells := by
    rintro (⟨h, -⟩ | ⟨h, -⟩ | ⟨h, -⟩ | ⟨h, -⟩) <;> revert h <;> decide
  obtain ⟨services, hservices, hprefix⟩ :=
    ((read_changes_own numbering 0 (associations [2, 3]) n).1 (.inl rfl)).2 0 _ hc hget
  exact ⟨⟨services, hservices, hprefix⟩,
    ⟨((read_changes_own numbering 16 mixedNit n).2.1 _ hnit).1, by decide +kernel,
      by decide +kernel, by decide +kernel, by decide +kernel⟩,
    hother, (read_changes_own numbering 18 other n).2.2 hother⟩

end Network

end Bandscan
