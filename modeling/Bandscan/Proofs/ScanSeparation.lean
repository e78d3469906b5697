import Bandscan.Proofs.NetworkRegistry
import Bandscan.Proofs.Redelivery
import Bandscan.Proofs.ScanOrder
/-!
What a scan finds on a transponder has been read there. No filter outlasts the scan of a
transponder, so that every section is read by a filter that was asked for after the frontend was
sent to the current transponder, and the services of a transponder are what the sections make of
them that were read while it was current. Only channel numbers come from anywhere: a network table
sets them on all scanned transponders.
-/

namespace Bandscan

namespace Service

def unnumbered (s : Service) : Service := { s with channel := none }

@[simp] theorem id_unnumbered (s : Service) : s.unnumbered.id = s.id := rfl

theorem map_updateIn {id : Nat} {f e : Service → Service} (hid : ∀ s, (e s).id = s.id)
    (hf : ∀ s, e (f s) = f (e s)) {ss : List Service}
    (hblank : id ∉ ss.map (·.id) → e { id } = { id }) :
    (updateIn id f ss).map e = updateIn id f (ss.map e) := by
  induction ss with
  | nil => simp [updateIn, hf, hblank]
  | cons s ss ih =>
    by_cases hs : s.id = id
    · simp [updateIn, hs, hid, hf]
    · have hs' : ¬ id = s.id := fun h => hs h.symm
      simp [updateIn, hs, hid, ih fun hm => hblank (by simpa [hs'] using hm)]

theorem map_modifyIn {id : Nat} {f e : Service → Service} (hid : ∀ s, (e s).id = s.id)
    (hf : ∀ s, e (f s) = f (e s)) (ss : List Service) :
    (modifyIn id f ss).map e = modifyIn id f (ss.map e) := by
  induction ss with
  | nil => rfl
  | cons s ss ih =>
    by_cases hs : s.id = id
    · simp [modifyIn, hs, hid, hf]
    · simp [modifyIn, hs, hid, ih]

theorem unnumbered_assign (streamId : Nat) (p : Program) (s : Service) :
    (s.assign streamId p).unnumbered = s.unnumbered.assign streamId p := rfl

theorem unnumbered_describe (streamId : Nat) (i : ServiceInfo) (s : Service) :
    (s.describe streamId i).unnumbered = s.unnumbered.describe streamId i := by
  rw [describe_eq, describe_eq]
  rfl

theorem unnumbered_applyMap (m : Pmt) (s : Service) :
    (s.applyMap m).unnumbered = s.unnumbered.applyMap m := by
  unfold applyMap
  rw [foldl_addStream, foldl_addStream]
  rfl

end Service

/-- A view of services commutes with the entries of tables. -/
def Edit.Blind (e : Service → Service) : Prop :=
  ∀ ss edit, (Edit.apply ss edit).map e = Edit.apply (ss.map e) edit

namespace Edit

theorem Blind.applyAll {e : Service → Service} (h : Blind e) (es : List Edit) (ss : List Service) :
    (applyAll es ss).map e = applyAll es (ss.map e) := by
  induction es generalizing ss with
  | nil => rfl
  | cons edit es ih => exact (ih _).trans (congrArg (Edit.applyAll es) (h ss edit))

theorem blind_id : Blind id := fun ss edit => by rw [List.map_id, List.map_id]

theorem blind_unnumbered : Blind Service.unnumbered := by
  intro ss edit
  cases edit with
  | assign streamId p =>
    exact Service.map_updateIn Service.id_unnumbered (Service.unnumbered_assign streamId p)
      fun _ => rfl
  | describe streamId i =>
    exact Service.map_updateIn Service.id_unnumbered (Service.unnumbered_describe streamId i)
      fun _ => rfl
  | applyMap m =>
    exact Service.map_modifyIn Service.id_unnumbered (Service.unnumbered_applyMap m) ss

end Edit

namespace Network

variable {n n' : Network} {ro : ReadOptions} {e : Service → Service}

def servicesOf (n : Network) (id : Nat) : List Service := ((n.get? id).map (·.services)).getD []

theorem servicesOf_modify {f : Transponder → Transponder} (id : Nat) (n : Network)
    (hf : ∀ tp, (f tp).services = tp.services) : (n.modify id f).servicesOf = n.servicesOf := by
  funext i
  unfold servicesOf
  rw [get?_modify, Option.map_map]
  congr 2
  funext tp
  by_cases hi : id = i <;> simp [hi, hf]

theorem servicesOf_alloc (frequency : Nat) (n : Network) :
    (n.alloc frequency).servicesOf = n.servicesOf := by
  funext i
  unfold servicesOf
  rw [get?_alloc]
  split
  · next hi =>
    have hnone : n.get? i = none := List.getElem?_eq_none (Nat.le_of_eq hi.symm)
    rw [hnone]
    rfl
  · rfl

theorem servicesOf_load (entries : List InitialList.Entry) (n : Network) :
    (InitialList.load entries n).servicesOf = n.servicesOf := by
  induction entries generalizing n with
  | nil => rfl
  | cons entry entries ih =>
    refine (ih _).trans ((servicesOf_modify _ _ ?_).trans (servicesOf_alloc _ n))
    exact fun _ => rfl

theorem servicesOf_register (d : Description) (n : Network) :
    (n.register d).servicesOf = n.servicesOf := by
  have hmodify (id : Nat) (n : Network) :
      (n.modify id (·.redescribe d)).servicesOf = n.servicesOf :=
    servicesOf_modify id n fun _ => rfl
  unfold register findOrAlloc
  cases n.find? d.frequency with
  | some id => exact hmodify id n
  | none => exact (hmodify _ _).trans (servicesOf_alloc _ n)

theorem servicesOf_registerAll (ds : List Description) (n : Network) :
    (n.registerAll ds).servicesOf = n.servicesOf := by
  induction ds generalizing n with
  | nil => rfl
  | cons d ds ih => exact (ih _).trans (servicesOf_register d n)

theorem servicesOf_setChannels {cs : List LogicalChannel}
    (hcs : ∀ c ∈ cs, ∀ s, e (s.numbered c) = e s) (id : Nat) (n : Network) :
    ((cs.foldl setChannel n).servicesOf id).map e = (n.servicesOf id).map e := by
  induction cs generalizing n with
  | nil => rfl
  | cons c cs ih =>
    rw [List.forall_mem_cons] at hcs
    refine (ih hcs.2 _).trans ?_
    unfold servicesOf
    rw [setChannel_eq, get?_onScanned]
    cases n.get? id with
    | none => rfl
    | some tp =>
      by_cases hs : n.scanned.contains id = true
      · rw [Option.map_some, if_pos hs]
        simp [Transponder.onServices, hcs.1]
      · rw [Option.map_some, if_neg hs]

theorem servicesOf_editServices (es : List Edit) {i : Nat} (id : Nat) (hc : n.current = some i)
    (hi : i < n.nextId) : (n.editServices es).servicesOf id =
      Edit.applyAll (if n.current = some id then es else []) (n.servicesOf id) := by
  unfold editServices modifyCurrent servicesOf
  rw [hc]
  dsimp only
  rw [get?_modify]
  by_cases hid : i = id
  · subst hid
    have hget : n.get? i = some n.transponders[i] := List.getElem?_eq_getElem hi
    simp [hget, Transponder.onServices]
  · cases n.get? id <;> simp [hid, Edit.applyAll]

theorem current_readTransponders (ro : ReadOptions) (s : Section) (n : Network) :
    (n.readTransponders ro s).current = n.current :=
  congrArg (·.2.2.2) (fixture_readTransponders ro s n)

theorem nextId_readTransponders_le (ro : ReadOptions) (s : Section) (n : Network) :
    n.nextId ≤ (n.readTransponders ro s).nextId := by
  refine readTransponders_rec (P := fun n' => n.nextId ≤ n'.nextId) (fun n' c hn => ?_)
    (fun n' d hn => ?_) s (Nat.le_refl _)
  · have hc : (n'.setChannel c).nextId = n'.nextId := List.length_mapIdx
    exact hc ▸ hn
  · exact Nat.le_trans hn (length_register_le d n')

theorem nextId_read_le (ro : ReadOptions) (pid : Nat) (s : Section) (n : Network) :
    n.nextId ≤ (n.read ro pid s).network.nextId := by
  rw [(read_effects ro pid s n).network]
  refine Nat.le_trans (nextId_readTransponders_le ro s n) ?_
  unfold editServices modifyCurrent
  split
  · exact Nat.le_of_eq (List.length_modify ..).symm
  · exact Nat.le_refl _

theorem servicesOf_read (pid : Nat) (s : Section) (he : Edit.Blind e)
    (hn : ro.channelNumbers = true → ∀ s c, e (s.numbered c) = e s) {i : Nat}
    (hc : n.current = some i) (hi : i < n.nextId) (id : Nat) :
    ((n.read ro pid s).network.servicesOf id).map e =
      Edit.applyAll (if n.current = some id then s.edits else []) ((n.servicesOf id).map e) := by
  have hcs : ∀ c ∈ channels ro s, ∀ s, e (s.numbered c) = e s := by
    intro c hm s
    refine hn ?_ s c
    unfold channels at hm
    split at hm
    · next h => exact h.1
    · simp at hm
  have hcur := current_readTransponders ro s n
  rw [(read_effects ro pid s n).network, servicesOf_editServices _ id (hcur.trans hc)
    (Nat.lt_of_lt_of_le hi (nextId_readTransponders_le ro s n)), hcur, he.applyAll,
    readTransponders_split, servicesOf_registerAll, servicesOf_setChannels hcs]

end Network

namespace Session

open Network

variable {δ φ : Type} {d : Demux δ φ} {fe : Frontend δ} {o : ScanOptions} {ro : ReadOptions}
  {mark mark' : Option (Nat × Nat)} {n n' : Network} {es : List (Event φ)} {s : Session φ}
  {e : Service → Service}

theorem TunedTo.servicesOf {id : Nat} (h : TunedTo id n n') : n'.servicesOf = n.servicesOf := by
  obtain ⟨frequency, alternates, tuningFailed, rfl⟩ := h
  have hmark : (n.markScanned id).servicesOf = n.servicesOf := by
    unfold Network.markScanned
    split
    · refine servicesOf_modify id _ ?_
      exact fun _ => rfl
    · refine servicesOf_modify id _ ?_
      exact fun _ => rfl
  refine (servicesOf_modify id _ ?_).trans hmark
  exact fun _ => rfl

theorem TunedTo.inOrder {id : Nat} (h : TunedTo id n n') (hn : n.InOrder) : n'.InOrder := by
  obtain ⟨frequency, alternates, tuningFailed, rfl⟩ := h
  have hcur : ((n.markScanned id).setCurrent id).InOrder := hn.markScanned id
  exact hcur.modify id fun _ => rfl

theorem TunedTo.nextId {id : Nat} (h : TunedTo id n n') : n'.nextId = n.nextId := by
  obtain ⟨frequency, alternates, tuningFailed, rfl⟩ := h
  unfold Network.nextId Network.markScanned
  split <;> simp [Network.modify, Network.setCurrent]

def editsOn (id : Nat) : Event φ → List Edit
  | .tuning .. => []
  | .handing _ t n => if n.current = some id then t.edits else []

theorem Course.services (h : Course ro mark n es mark' n') (hn : n.InOrder)
    (hm : ∀ id floor, mark = some (id, floor) → id < n.nextId) (he : Edit.Blind e)
    (hcs : ro.channelNumbers = true → ∀ s c, e (s.numbered c) = e s) (id : Nat) :
    (n'.servicesOf id).map e =
      Edit.applyAll (es.flatMap (editsOn id)) ((n.servicesOf id).map e) := by
  -- edits reach the current transponder only if it exists: the mark always is that of a listed one
  induction h with
  | nil => rfl
  | @tuning i locked scheduler mark n n₁ es mark' n' hi hp ht _ ih =>
    have hlt : i < n.nextId := by
      have hl := Listed.lt hn (List.mem_append_right _ (List.mem_of_mem_head? hp))
      rwa [List.length_map] at hl
    have hm₁ : ∀ id floor,
        (if locked then some (i, scheduler.lastId) else none) = some (id, floor) →
          id < n₁.nextId := by
      intro id floor hid
      split at hid
      · obtain ⟨rfl, -⟩ := Prod.mk.inj (Option.some.inj hid)
        exact ht.nextId ▸ hlt
      · simp at hid
    rw [ih (ht.inOrder hn) hm₁, ht.servicesOf]
    rfl
  | @handing f t i floor n es mark' n' hc hf _ ih =>
    have hlt := hm i floor rfl
    have hm₁ : ∀ id floor', some (i, floor) = some (id, floor') →
        id < (n.read ro f.spec.pid t).network.nextId := by
      intro id floor' hid
      obtain ⟨rfl, -⟩ := Prod.mk.inj (Option.some.inj hid)
      exact Nat.lt_of_lt_of_le hlt (nextId_read_le ro f.spec.pid t n)
    rw [ih (hn.read ro f.spec.pid t) hm₁, servicesOf_read f.spec.pid t he hcs hc hlt id,
      List.flatMap_cons, Edit.applyAll, Edit.applyAll, Edit.applyAll, List.foldl_append]
    rfl

theorem Course.idle (h : Course ro mark n es mark' n') {id : Nat} {locked : Bool}
    {scheduler : Scheduler φ} {m : Network} (hm : .tuning id locked scheduler m ∈ es) :
    scheduler.isIdle = true := by
  induction h with
  | nil => simp at hm
  | tuning hi _ _ _ ih =>
    rcases List.mem_cons.1 hm with he | hm
    · cases he
      exact hi
    · exact ih hm
  | handing _ _ _ ih =>
    rcases List.mem_cons.1 hm with he | hm
    · cases he
    · exact ih hm

/-- In these events the frontend was sent to a transponder last and has stayed there, locked, and
this many filters had been asked for when it was sent. -/
def LastTuned (id floor : Nat) (es : List (Event φ)) : Prop :=
  ∃ es₁ scheduler n es₂, es = es₁ ++ .tuning id true scheduler n :: es₂ ∧
    scheduler.lastId = floor ∧ ∀ e ∈ es₂, e.isTuning = false

theorem LastTuned.cons {id floor : Nat} (h : LastTuned id floor es) (event : Event φ) :
    LastTuned id floor (event :: es) := by
  obtain ⟨es₁, scheduler, n, es₂, rfl, hl, hes⟩ := h
  exact ⟨event :: es₁, scheduler, n, es₂, rfl, hl, hes⟩

theorem Course.handed (h : Course ro mark n es mark' n') {es₁ es₂ : List (Event φ)}
    {f : RunningFilter φ} {t : Section} {m : Network} (hes : es = es₁ ++ .handing f t m :: es₂) :
    ∃ id floor, m.current = some id ∧ floor < f.id ∧
      (LastTuned id floor es₁ ∨ mark = some (id, floor) ∧ ∀ e ∈ es₁, e.isTuning = false) := by
  -- the last tuning before is one of these events, or else the one that has left the mark
  induction h generalizing es₁ with
  | nil => simp at hes
  | @tuning i locked scheduler mark n n₁ es mark' n' hi hp ht _ ih =>
    obtain ⟨-, he, -⟩ | ⟨es₁, rfl, he⟩ := cons_split hes
    · cases he
    · obtain ⟨id, floor, hc, hf, hlast | ⟨hmark, hno⟩⟩ := ih he
      · exact ⟨id, floor, hc, hf, .inl (hlast.cons _)⟩
      · split at hmark
        · next hl =>
          obtain ⟨rfl, rfl⟩ := Prod.mk.inj (Option.some.inj hmark)
          subst hl
          exact ⟨i, _, hc, hf, .inl ⟨[], scheduler, n, es₁, rfl, rfl, hno⟩⟩
        · simp at hmark
  | @handing g u i floor n es mark' n' hc hf _ ih =>
    obtain ⟨rfl, he, -⟩ | ⟨es₁, rfl, he⟩ := cons_split hes
    · cases he
      exact ⟨i, floor, hc, hf, .inr ⟨rfl, by simp⟩⟩
    · obtain ⟨id, floor', hc', hf', hlast | ⟨hmark, hno⟩⟩ := ih he
      · exact ⟨id, floor', hc', hf', .inl (hlast.cons _)⟩
      · exact ⟨id, floor', hc', hf', .inr ⟨hmark, List.forall_mem_cons.2 ⟨rfl, hno⟩⟩⟩

/-- Multiplexes do not mix. Whenever the frontend is sent to a transponder there are no filters; a
section is read by a filter that was asked for after the frontend was last sent to a transponder,
which is the current one; and the services of a transponder are what the sections read on it have
made of them, their channel numbers apart. -/
theorem scanNetwork_separate (d : Demux δ φ) (fe : Frontend δ) (o : ScanOptions) {s : Session φ}
    (hi : s.scheduler.isIdle = true) (hn : s.network.Reachable) (budget : Nat)
    (initial : List InitialList.Entry) (w : World δ) :
    let h := history d fe o budget initial s w
    let n := (s.scanNetwork d fe o budget initial w).2.1.network
    (∀ id locked scheduler m, .tuning id locked scheduler m ∈ h → scheduler.isIdle = true) ∧
    (∀ es₁ f t m es₂, h = es₁ ++ .handing f t m :: es₂ →
      ∃ id floor, m.current = some id ∧ LastTuned id floor es₁ ∧ floor < f.id) ∧
    (∀ id, (n.servicesOf id).map Service.unnumbered =
      Edit.applyAll (h.flatMap (editsOn id)) ((s.network.servicesOf id).map Service.unnumbered)) ∧
    (o.channelNumbers = false → ∀ id,
      n.servicesOf id = Edit.applyAll (h.flatMap (editsOn id)) (s.network.servicesOf id)) := by
  intro h n
  obtain ⟨mark, hcourse⟩ := course_scanNetwork d fe o hi budget initial w
  have horder := hn.inOrder.load initial
  have hload := servicesOf_load initial s.network
  refine ⟨fun id locked scheduler m hm => hcourse.idle hm, ?_, fun id => ?_, fun ho id => ?_⟩
  · intro es₁ f t m es₂ hes
    obtain ⟨id, floor, hc, hf, hlast | ⟨hmark, -⟩⟩ := hcourse.handed hes
    · exact ⟨id, floor, hc, hlast, hf⟩
    · simp at hmark
  · rw [← hload]
    exact hcourse.services horder (by simp) Edit.blind_unnumbered (fun _ _ _ => rfl) id
  · have hsame := hcourse.services horder (by simp) Edit.blind_id
      (fun hon => absurd (ho.symm.trans hon) Bool.false_ne_true) id
    rwa [List.map_id, List.map_id, hload] at hsame

/-! ### A channel number from elsewhere

The first multiplex lists a service, the second, if it sends its table, a channel number for it. -/

def serviceTable : Bytes :=
  [0x00, 0xB0, 0x0D, 0x00, 0x07, 0xC1, 0x00, 0x00, 0x00, 0x01, 0xE1, 0x00, 0x00, 0x00, 0x00, 0x00]

def numberTable : Bytes :=
  [0x40, 0xF0, 0x19, 0x00, 0x01, 0xC1, 0x00, 0x00, 0xF0, 0x00, 0xF0, 0x0C, 0x00, 0x07, 0x00, 0x01,
    0xF0, 0x06, 0x83, 0x04, 0x00, 0x01, 0xFC, 0x08, 0x00, 0x00, 0x00, 0x00]

def pairBench (second : List (Nat × Bytes)) : World Bench where
  device := {
    demux := { multiplexes := [(506000000, [(Pat.pid, serviceTable)]), (514000000, second)] }
    frontend := { lockAfter := [(506000000, 1), (514000000, 1)] } }

def pairList : List InitialList.Entry :=
  relistingList.flatMap fun e => [e, { e with frequency := 514000000 }]

def numberingOptions : ScanOptions := { relistingOptions with channelNumbers := true }

def pairScan (s : Session MemoryFilter) (w : World Bench) :
    Except ScanError Outcome × Session MemoryFilter × World Bench :=
  s.scanNetwork Bench.demuxDevice (Bench.frontendDevice .terrestrial) numberingOptions 10 pairList w

def pairHistory (s : Session MemoryFilter) (w : World Bench) : List (Event MemoryFilter) :=
  history Bench.demuxDevice (Bench.frontendDevice .terrestrial) numberingOptions 10 pairList s w

theorem scanNetwork_separate_numbered :
    let s : Session MemoryFilter := ({} : Config).session
    let w := pairBench [(Nit.pid, numberTable)]
    s.scheduler.isIdle = true ∧ s.network.Reachable ∧
      ((pairScan s w).2.1.network.servicesOf 0).map (fun s => (s.id, s.mapPid)) = [(1, 0x100)] ∧
      ((pairScan s w).2.1.network.servicesOf 0).map Service.unnumbered =
        Edit.applyAll ((pairHistory s w).flatMap (editsOn 0))
          ((s.network.servicesOf 0).map Service.unnumbered) := by
  have hi : (({} : Config).session : Session MemoryFilter).scheduler.isIdle = true := rfl
  have hn : (({} : Config).session : Session MemoryFilter).network.Reachable := .new _ _
  have hservices := (scanNetwork_separate Bench.demuxDevice (Bench.frontendDevice .terrestrial)
    numberingOptions hi hn 10 pairList (pairBench [(Nit.pid, numberTable)])).2.2.1 0
  refine ⟨hi, hn, ?_, hservices⟩
  decide +kernel

def sectionsOn (id : Nat) : Event φ → List Section
  | .tuning .. => []
  | .handing _ t n => if n.current = some id then [t] else []

def hasFilters : Event φ → Bool
  | .tuning _ _ scheduler _ => !scheduler.isIdle
  | .handing .. => false

/-- The same sections are read on the first transponder, and yet its service is another one if the
second multiplex sends its table. And filters that a failed scan has left behind are still there
when the session is used once more. -/
theorem channel_from_elsewhere :
    let s : Session MemoryFilter := ({} : Config).session
    let silent := pairBench []
    let telling := pairBench [(Nit.pid, numberTable)]
    let failing := (pairBench []).withDevice fun b => { b with demux := b.demux.failPid Sdt.pid }
    (pairHistory s silent).flatMap (sectionsOn 0) = (pairHistory s telling).flatMap (sectionsOn 0) ∧
      ((pairScan s silent).2.1.network.servicesOf 0).map (·.channel) = [none] ∧
      ((pairScan s telling).2.1.network.servicesOf 0).map (·.channel) = [some 8] ∧
      (pairHistory (pairScan s failing).2.1 (pairScan s failing).2.2).any hasFilters = true := by
  decide +kernel

end Session

end Bandscan
