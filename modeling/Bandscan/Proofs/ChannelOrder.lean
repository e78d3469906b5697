import Bandscan.Proofs.ScanSeparation
/-!
A network table sets channel numbers on the services that are there when it arrives and keeps none
for later. Those that an association table brings afterwards go without, so that the order of the
two tables shows exactly on them.
-/

namespace Bandscan

/-- The last number in a list of channels that is for this service. -/
def LogicalChannel.numberFor (cs : List LogicalChannel) (id : Nat) : Option Nat :=
  (cs.reverse.find? (·.serviceId = id)).map (·.number)

theorem LogicalChannel.numberFor_eq_none {cs : List LogicalChannel} {id : Nat} :
    numberFor cs id = none ↔ ∀ c ∈ cs, c.serviceId ≠ id := by
  simp [numberFor]

namespace Service

theorem foldl_numbered (cs : List LogicalChannel) (s : Service) :
    cs.foldl numbered s =
      { s with channel := (LogicalChannel.numberFor cs s.id).or s.channel } := by
  induction cs generalizing s with
  | nil => rfl
  | cons c cs ih =>
    rw [List.foldl_cons, ih, LogicalChannel.numberFor, LogicalChannel.numberFor, List.reverse_cons,
      List.find?_append]
    by_cases hc : c.serviceId = s.id
    · simp [numbered, hc]
    · have hc' : ¬ s.id = c.serviceId := fun h => hc h.symm
      simp [numbered, hc, hc']

theorem id_foldl_numbered (cs : List LogicalChannel) (s : Service) :
    (cs.foldl numbered s).id = s.id := by
  rw [foldl_numbered]

/-- The services that were known keep their numbers, the others lose them. -/
def forget (known : List Nat) (s : Service) : Service :=
  { s with channel := if s.id ∈ known then s.channel else none }

end Service

def Section.listed (s : Section) : List Nat :=
  match Pat.parse s with
  | .ok t => t.programs.map (·.number)
  | .error _ => []

namespace Edit

variable {es : List Edit} {ss : List Service}

theorem isAssign_of_pat {s : Section} (h : s.header.tableId = Pat.tableId) :
    ∀ e ∈ s.edits, e.isAssign := by
  rw [Network.edits_pat h]
  cases Pat.parse s <;> simp [isAssign]

theorem serviceId_edits {s : Section} (h : s.header.tableId = Pat.tableId) :
    s.edits.map serviceId = s.listed := by
  rw [Network.edits_pat h, Section.listed]
  cases Pat.parse s with
  | error e => rfl
  | ok t =>
    rw [List.map_map]
    rfl

theorem mem_ids_assign (streamId : Nat) (p : Program) (j : Nat) :
    j ∈ (apply ss (.assign streamId p)).map (·.id) ↔ j ∈ ss.map (·.id) ∨ j = p.number := by
  rw [apply, Service.map_id_updateIn (Service.id_assign streamId p)]
  split
  · next hm =>
    refine ⟨.inl, fun h => ?_⟩
    obtain h | rfl := h
    · exact h
    · exact hm
  · rw [List.mem_append, List.mem_singleton]

theorem mem_ids_applyAll (ha : ∀ e ∈ es, e.isAssign) (ss : List Service) (j : Nat) :
    j ∈ (applyAll es ss).map (·.id) ↔ j ∈ ss.map (·.id) ∨ j ∈ es.map serviceId := by
  induction es generalizing ss with
  | nil => simp [applyAll]
  | cons e es ih =>
    rw [List.forall_mem_cons] at ha
    cases e with
    | assign streamId p =>
      refine (ih ha.2 _).trans ?_
      rw [mem_ids_assign, List.map_cons, List.mem_cons, or_assoc]
      rfl
    | describe | applyMap => simp [isAssign] at ha

/-- What is done to the services that were there may be done before or after. -/
theorem map_applyAll {e : Service → Service} (ha : ∀ a ∈ es, a.isAssign)
    (hid : ∀ s, (e s).id = s.id)
    (hassign : ∀ streamId p s, e (Service.assign streamId p s) = (e s).assign streamId p)
    (hblank : ∀ j, j ∉ ss.map (·.id) → e { id := j } = { id := j }) :
    (applyAll es ss).map e = applyAll es (ss.map e) := by
  induction es generalizing ss with
  | nil => rfl
  | cons a es ih =>
    rw [List.forall_mem_cons] at ha
    cases a with
    | assign streamId p =>
      have hstep : (apply ss (.assign streamId p)).map e = apply (ss.map e) (.assign streamId p) :=
        Service.map_updateIn hid (hassign streamId p) (hblank p.number)
      have hblank' : ∀ j, j ∉ (apply ss (.assign streamId p)).map (·.id) →
          e { id := j } = { id := j } := by
        intro j hj
        rw [mem_ids_assign, not_or] at hj
        exact hblank j hj.1
      exact (ih ha.2 hblank').trans (congrArg (applyAll es) hstep)
    | describe | applyMap => simp [isAssign] at ha

theorem applyAll_map_numbered (cs : List LogicalChannel) (ha : ∀ e ∈ es, e.isAssign)
    (ss : List Service) :
    applyAll es (ss.map fun s => cs.foldl Service.numbered s) =
      ((applyAll es ss).map fun s => cs.foldl Service.numbered s).map
        (Service.forget (ss.map (·.id))) := by
  have hold : (ss.map fun s => (cs.foldl Service.numbered s).forget (ss.map (·.id))) =
      ss.map fun s => cs.foldl Service.numbered s := by
    apply List.map_congr_left
    intro s hs
    have hin : (cs.foldl Service.numbered s).id ∈ ss.map (·.id) := by
      rw [Service.id_foldl_numbered]
      exact List.mem_map_of_mem hs
    rw [Service.forget, if_pos hin]
  rw [List.map_map, ← hold]
  refine (map_applyAll ha (fun s => ?_) (fun streamId p s => ?_) fun j hj => ?_).symm
  · exact Service.id_foldl_numbered cs s
  · rw [Service.foldl_numbered, Service.foldl_numbered]
    rfl
  · rw [Service.foldl_numbered]
    simp only [Service.forget, if_neg hj]

theorem of_mem_applyAll (ha : ∀ e ∈ es, e.isAssign) {s : Service} (hs : s ∈ applyAll es ss)
    (hn : s.id ∉ ss.map (·.id)) : s.id ∈ es.map serviceId ∧ s.channel = none := by
  constructor
  · have hid := (mem_ids_applyAll ha ss s.id).1 (List.mem_map_of_mem hs)
    exact hid.resolve_left hn
  · have hself : (applyAll es ss).map id =
        (applyAll es ss).map (Service.forget (ss.map (·.id))) := by
      have h := applyAll_map_numbered [] ha ss
      simpa using h
    have hforget := List.map_inj_left.1 hself s hs
    rw [Service.forget, if_neg hn] at hforget
    exact congrArg Service.channel hforget

theorem of_mem_numbered (cs : List LogicalChannel) (ha : ∀ e ∈ es, e.isAssign) {s : Service}
    (hs : s ∈ (applyAll es ss).map fun s => cs.foldl Service.numbered s)
    (hn : s.id ∉ ss.map (·.id)) :
    s.id ∈ es.map serviceId ∧ s.channel = LogicalChannel.numberFor cs s.id := by
  obtain ⟨t, ht, rfl⟩ := List.mem_map.1 hs
  rw [Service.foldl_numbered] at hn ⊢
  obtain ⟨hid, hnone⟩ := of_mem_applyAll ha ht hn
  refine ⟨hid, ?_⟩
  dsimp only
  rw [hnone, Option.or_none]

/-- Forgetting the numbers of what an association table brings shows exactly if there is one. -/
theorem numbers_forget_iff (cs : List LogicalChannel) (ha : ∀ e ∈ es, e.isAssign)
    (ss : List Service) :
    let known := ss.map (·.id)
    let numbered := (applyAll es ss).map fun s => cs.foldl Service.numbered s
    numbered.map (fun s => (s.id, s.channel)) =
        (numbered.map (Service.forget known)).map (fun s => (s.id, s.channel)) ↔
      ∀ c ∈ cs, c.serviceId ∈ es.map serviceId → c.serviceId ∈ known := by
  intro known numbered
  have hmap : (numbered.map (Service.forget known)).map (fun s => (s.id, s.channel)) =
      numbered.map fun s => (s.id, (s.forget known).channel) := by
    rw [List.map_map]
    rfl
  rw [hmap, List.map_inj_left]
  constructor
  · intro hall c hc hl
    by_contra hk
    obtain ⟨t, ht, hid⟩ := List.mem_map.1 ((mem_ids_applyAll ha ss c.serviceId).2 (.inr hl))
    have hm : cs.foldl Service.numbered t ∈ numbered := List.mem_map.2 ⟨t, ht, rfl⟩
    rw [← Service.id_foldl_numbered cs t] at hid
    rw [← hid] at hk
    have hnone := (congrArg Prod.snd (hall _ hm)).trans (if_neg hk)
    rw [(of_mem_numbered cs ha hm hk).2, LogicalChannel.numberFor_eq_none] at hnone
    exact hnone c hc hid.symm
  · intro hall s hm
    by_cases hk : s.id ∈ known
    · exact congrArg (s.id, ·) (if_pos hk).symm
    · obtain ⟨hl, hnumber⟩ := of_mem_numbered cs ha hm hk
      have hnone : s.channel = none := by
        rw [hnumber, LogicalChannel.numberFor_eq_none]
        intro c hc hid
        exact hk (hid ▸ hall c hc (hid ▸ hl))
      exact congrArg (s.id, ·) (hnone.trans (if_neg hk).symm)

end Edit

namespace Network

variable {o : ReadOptions} {n : Network} {id : Nat} {g : Service → Service}

theorem onScanned_self (n : Network) : n.onScanned (fun s => s) = n := by
  have ht : (n.transponders.mapIdx fun i tp =>
      if n.scanned.contains i then tp.onServices (List.map fun s => s) else tp) =
      n.transponders := by
    apply List.ext_getElem?
    intro i
    rw [List.getElem?_mapIdx]
    cases n.transponders[i]? <;> simp [Transponder.onServices]
  exact congrArg (fun tps => { n with transponders := tps }) ht

theorem setChannels_eq (cs : List LogicalChannel) (n : Network) :
    cs.foldl setChannel n = n.onScanned fun s => cs.foldl Service.numbered s := by
  induction cs generalizing n with
  | nil => exact (onScanned_self n).symm
  | cons c cs ih =>
    rw [List.foldl_cons, ih, setChannel_eq, onScanned_onScanned]
    rfl

theorem servicesOf_onScanned (hs : id ∈ n.scanned) :
    (n.onScanned g).servicesOf id = (n.servicesOf id).map g := by
  have hin : n.scanned.contains id = true := List.contains_iff_mem.2 hs
  unfold servicesOf
  rw [get?_onScanned]
  cases n.get? id with
  | none => rfl
  | some tp =>
    rw [Option.map_some, if_pos hin]
    rfl

theorem servicesOf_modify_map (g : Service → Service) (id : Nat) (n : Network) :
    (n.modify id (·.onServices (List.map g))).servicesOf id = (n.servicesOf id).map g := by
  unfold servicesOf
  rw [get?_modify]
  cases n.get? id with
  | none => rfl
  | some tp =>
    rw [Option.map_some, if_pos rfl]
    rfl

theorem read_pat (pid : Nat) {s : Section} (hs : s.header.tableId = Pat.tableId) (n : Network) :
    (n.read o pid s).network = n.editServices s.edits :=
  (read_of_not_nit (Section.not_isNit hs (by decide)) pid).1

theorem read_nit (pid : Nat) {s : Section} (hs : s.IsNit) (n : Network) :
    (n.read o pid s).network = (n.registerAll (descriptions o.kind s)).onScanned
      fun t => (channels o s).foldl Service.numbered t := by
  rw [(read_effects o pid s n).network, edits_nit hs, editServices_nil, readTransponders_split,
    registerAll_setChannels, setChannels_eq]

theorem editServices_onScanned (cs : List LogicalChannel) {es : List Edit}
    (ha : ∀ e ∈ es, e.isAssign) (hc : n.current = some id) (hs : id ∈ n.scanned) :
    (n.onScanned fun s => cs.foldl Service.numbered s).editServices es =
      ((n.editServices es).onScanned fun s => cs.foldl Service.numbered s).modify id
        (·.onServices (List.map (Service.forget ((n.servicesOf id).map (·.id))))) := by
  unfold editServices modifyCurrent onScanned modify servicesOf get?
  simp only [hc]
  congr 1
  apply List.ext_getElem?
  intro i
  simp only [List.getElem?_modify, List.getElem?_mapIdx]
  by_cases hi : id = i
  · subst hi
    have hin : n.scanned.contains id = true := List.contains_iff_mem.2 hs
    cases n.transponders[id]? with
    | none => rfl
    | some tp =>
      simp only [hin, Option.map_some, Option.getD_some, if_true]
      exact congrArg (fun ss => some { tp with services := ss })
        (Edit.applyAll_map_numbered cs ha tp.services)
  · simp only [hi, if_false]
    cases n.transponders[i]? <;> rfl

section Orders

variable {p q : Section}

theorem scanned_registerAll (ds : List Description) (n : Network) :
    (n.registerAll ds).scanned = n.scanned := congrArg (·.2.2.1) (fixture_registerAll ds n)

theorem current_registerAll (ds : List Description) (n : Network) :
    (n.registerAll ds).current = n.current := congrArg (·.2.2.2) (fixture_registerAll ds n)

theorem read_pat_nit (hp : p.header.tableId = Pat.tableId) (hq : q.IsNit) (hn : n.HasCurrent)
    (i j : Nat) : ((n.read o i p).network.read o j q).network =
      ((n.registerAll (descriptions o.kind q)).editServices p.edits).onScanned
        fun s => (channels o q).foldl Service.numbered s := by
  rw [read_pat i hp, read_nit j hq, registerAll_editServices _ _ hn]

theorem read_nit_pat (hp : p.header.tableId = Pat.tableId) (hq : q.IsNit)
    (hc : n.current = some id) (hs : id ∈ n.scanned) (hid : id < n.nextId) (i j : Nat) :
    ((n.read o j q).network.read o i p).network =
      ((n.read o i p).network.read o j q).network.modify id
        (·.onServices (List.map (Service.forget ((n.servicesOf id).map (·.id))))) := by
  rw [read_pat_nit hp hq ⟨id, hc, hid⟩, read_nit j hq, read_pat i hp,
    editServices_onScanned _ (Edit.isAssign_of_pat hp) ((current_registerAll _ n).trans hc)
      ((scanned_registerAll _ n).symm ▸ hs), servicesOf_registerAll]

theorem servicesOf_read_pat_nit (hp : p.header.tableId = Pat.tableId) (hq : q.IsNit)
    (hc : n.current = some id) (hs : id ∈ n.scanned) (hid : id < n.nextId) (i j : Nat) :
    ((n.read o i p).network.read o j q).network.servicesOf id =
      (Edit.applyAll p.edits (n.servicesOf id)).map
        fun s => (channels o q).foldl Service.numbered s := by
  rw [read_nit j hq, servicesOf_onScanned, servicesOf_registerAll, read_pat i hp,
    servicesOf_editServices _ id hc hid, if_pos hc]
  rw [scanned_registerAll, scanned_read]
  exact hs

/-- The order of an association table and a network table shows on nothing but the services that
the first brings: they have the numbers that the second lists for them if it comes last, and none
otherwise. -/
theorem channels_order_iff (o : ReadOptions) (hp : p.header.tableId = Pat.tableId) (hq : q.IsNit)
    (hc : n.current = some id) (hid : id < n.nextId) (hs : id ∈ n.scanned) (i j : Nat) :
    let patFirst := ((n.read o i p).network.read o j q).network
    let nitFirst := ((n.read o j q).network.read o i p).network
    let known := (n.servicesOf id).map (·.id)
    nitFirst = patFirst.modify id (·.onServices (List.map (Service.forget known))) ∧
    (∀ s ∈ patFirst.servicesOf id, s.id ∉ known →
      s.id ∈ p.listed ∧ s.channel = LogicalChannel.numberFor (channels o q) s.id) ∧
    (∀ s ∈ nitFirst.servicesOf id, s.id ∉ known → s.channel = none) ∧
    ((patFirst.servicesOf id).map (fun s => (s.id, s.channel)) =
        (nitFirst.servicesOf id).map (fun s => (s.id, s.channel)) ↔
      ∀ c ∈ channels o q, c.serviceId ∈ p.listed → c.serviceId ∈ known) := by
  intro patFirst nitFirst known
  have ha := Edit.isAssign_of_pat hp
  have hnit : nitFirst = patFirst.modify id (·.onServices (List.map (Service.forget known))) :=
    read_nit_pat hp hq hc hs hid i j
  have hservices : patFirst.servicesOf id = (Edit.applyAll p.edits (n.servicesOf id)).map
      fun s => (channels o q).foldl Service.numbered s :=
    servicesOf_read_pat_nit hp hq hc hs hid i j
  rw [hnit, servicesOf_modify_map, hservices, ← Edit.serviceId_edits hp]
  refine ⟨rfl, fun s hm hk => ?_, fun s hm hk => ?_, ?_⟩
  · exact Edit.of_mem_numbered (channels o q) ha hm hk
  · obtain ⟨t, -, rfl⟩ := List.mem_map.1 hm
    exact if_neg hk
  · exact Edit.numbers_forget_iff (channels o q) ha (n.servicesOf id)

end Orders

/-! ### A number for a service that comes first or last -/

def numbering : ReadOptions := { kind := .terrestrial, channelNumbers := true, mapTimeout := 1 }

def scannedOnce : Network :=
  let blank : Network := { tolerance := 1000, inversion := .auto }
  ((blank.alloc 506000000).markScanned 0).setCurrent 0

def associations (numbers : List UInt8) : Section :=
  { header := { tableId := 0x00, longForm := true, length := 0, ext := 7 }
    payload := numbers.flatMap fun i => [0x00, i, 0xE1, i] }

/-- Service 1 has number 8. -/
def numbers : Section :=
  { header := { tableId := 0x40, longForm := true, length := 0, ext := 1 }
    payload := [0xF0, 0x00, 0xF0, 0x0C, 0x00, 0x07, 0x00, 0x01, 0xF0, 0x06,
      0x83, 0x04, 0x00, 0x01, 0xFC, 0x08] }

theorem channels_order_iff_known :
    let n := (scannedOnce.read numbering 0 (associations [1])).network
    (associations [1, 2]).header.tableId = Pat.tableId ∧ numbers.IsNit ∧
      n.current = some 0 ∧ 0 < n.nextId ∧ 0 ∈ n.scanned ∧
      (((n.read numbering 0 (associations [1, 2])).network.read numbering 16
        numbers).network.servicesOf 0).map (fun s => (s.id, s.channel)) = [(1, some 8), (2, none)] ∧
      (((n.read numbering 16 numbers).network.read numbering 0
        (associations [1, 2])).network.servicesOf 0).map (fun s => (s.id, s.channel)) =
        [(1, some 8), (2, none)] := by
  intro n
  have hp : (associations [1, 2]).header.tableId = Pat.tableId := rfl
  have hq : numbers.IsNit := by decide
  have hc : n.current = some 0 := by decide +kernel
  have hid : 0 < n.nextId := by decide +kernel
  have hs : 0 ∈ n.scanned := by decide +kernel
  have hsame := (channels_order_iff numbering hp hq hc hid hs 0 16).2.2.2.2 (by decide +kernel)
  have hfirst : (((n.read numbering 0 (associations [1, 2])).network.read numbering 16
      numbers).network.servicesOf 0).map (fun s => (s.id, s.channel)) =
      [(1, some 8), (2, none)] := by decide +kernel
  exact ⟨hp, hq, hc, hid, hs, hfirst, hsame.symm.trans hfirst⟩

/-- The service of the association table has the number if the network table comes last only. -/
theorem channel_lost :
    let patFirst := ((scannedOnce.read numbering 0 (associations [1])).network.read numbering 16
      numbers).network
    let nitFirst := ((scannedOnce.read numbering 16 numbers).network.read numbering 0
      (associations [1])).network
    numbering.channelNumbers = true ∧ (associations [1]).header.tableId = Pat.tableId ∧
      numbers.IsNit ∧ scannedOnce.current = some 0 ∧ 0 ∈ scannedOnce.scanned ∧
      (patFirst.servicesOf 0).map (fun s => (s.id, s.channel)) = [(1, some 8)] ∧
      (nitFirst.servicesOf 0).map (fun s => (s.id, s.channel)) = [(1, none)] := by
  decide +kernel

end Network

end Bandscan
