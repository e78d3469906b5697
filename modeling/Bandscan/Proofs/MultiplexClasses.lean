import Mathlib.Logic.Equiv.Basic
import Mathlib.Data.Fintype.Card
import Bandscan.Proofs.FrequencySeparation
/-!
Closeness that sorts the listed frequencies into multiplexes makes the order of network tables
irrelevant: a transponder stands for each multiplex, described by the last entry for it, whichever
transponders have been scanned in between. `Charted` is what each registration keeps.
-/

namespace Bandscan.Network

variable {tolerance : Nat} {o : ReadOptions} {n n' : Network} {ds ds' : List Description}
  {d e : Description} {id : Nat}

def descriptionList (n : Network) : List Description := n.transponders.map (·.toDescription)

def entriesAt (tolerance frequency : Nat) (ds : List Description) : List Description :=
  ds.filter fun d => Near tolerance d.frequency frequency

/-- Each transponder stands for a multiplex of its own and has the description of its last entry. -/
structure Charted (tolerance : Nat) (ds : List Description) (n : Network) : Prop where
  within : n.tolerance = tolerance
  enrolled : n.Enrolled
  separate : n.Separate
  latest : ∀ (id : Nat) d, n.descriptionList[id]? = some d →
    (entriesAt tolerance d.frequency ds).getLast? = some d
  known : ∀ d ∈ ds, ∃ id < n.nextId, Near tolerance (n.frequencyOf id) d.frequency

theorem Sorted.mono {listed listed' : List Nat} (hs : Sorted tolerance listed)
    (h : ∀ f ∈ listed', f ∈ listed) : Sorted tolerance listed' :=
  fun a ha b hb c hc => hs a (h a ha) b (h b hb) c (h c hc)

theorem nextId_eq (n : Network) : n.nextId = n.descriptionList.length := (List.length_map _).symm

theorem frequencies_eq (n : Network) : n.frequencies = n.descriptionList.map (·.frequency) := by
  rw [frequencies, descriptionList, List.map_map]
  rfl

theorem frequencyOf_of_description (h : n.descriptionList[id]? = some d) :
    n.frequencyOf id = d.frequency := by
  rw [frequencyOf, frequencies_eq, List.getElem?_map, h]
  rfl

theorem exists_description (h : id < n.nextId) : ∃ d, n.descriptionList[id]? = some d := by
  have hlt : id < n.descriptionList.length := by rwa [descriptionList, List.length_map]
  exact ⟨_, List.getElem?_eq_getElem hlt⟩

theorem Enrolled.mem_iff (h : Enrolled n) : id ∈ n.scanned ++ n.pending ↔ id < n.nextId := by
  have hm := h.inOrder.once.mem_iff (a := id)
  rwa [List.length_map, List.mem_range] at hm

theorem mem_entriesAt {frequency : Nat} :
    e ∈ entriesAt tolerance frequency ds ↔ e ∈ ds ∧ Near tolerance e.frequency frequency := by
  simp [entriesAt]

theorem entriesAt_concat_of_near {frequency : Nat} (h : Near tolerance e.frequency frequency) :
    (entriesAt tolerance frequency (ds ++ [e])).getLast? = some e := by
  simp [entriesAt, h]

theorem entriesAt_concat_of_far {frequency : Nat} (h : ¬ Near tolerance e.frequency frequency) :
    entriesAt tolerance frequency (ds ++ [e]) = entriesAt tolerance frequency ds := by
  simp [entriesAt, h]

theorem Charted.mem (h : Charted tolerance ds n) (hid : n.descriptionList[id]? = some d) :
    d ∈ ds := (mem_entriesAt.1 (List.mem_of_getLast? (h.latest id d hid))).1

theorem Charted.frequencyOf_mem (h : Charted tolerance ds n) (hid : id < n.nextId) :
    n.frequencyOf id ∈ ds.map (·.frequency) := by
  obtain ⟨d, hd⟩ := exists_description hid
  rw [frequencyOf_of_description hd]
  exact List.mem_map_of_mem (h.mem hd)

theorem descriptionList_modify (id : Nat) (d : Description) (n : Network) :
    (n.modify id (·.redescribe d)).descriptionList = n.descriptionList.set id d :=
  map_modify_to id n fun _ => rfl

theorem descriptionList_register (h : Enrolled n) (d : Description) :
    (∃ id < n.nextId, Near n.tolerance (n.frequencyOf id) d.frequency ∧
      (n.register d).descriptionList = n.descriptionList.set id d) ∨
    ((∀ id < n.nextId, ¬ Near n.tolerance (n.frequencyOf id) d.frequency) ∧
      (n.register d).descriptionList = n.descriptionList ++ [d]) := by
  unfold Network.register findOrAlloc
  cases hf : n.find? d.frequency with
  | some id =>
    obtain ⟨hid, hnear⟩ := near_of_find? h.unpinned h.lt hf
    exact .inl ⟨id, h.mem_iff.1 hid, hnear, descriptionList_modify id d n⟩
  | none =>
    have hfar := far_of_find? h.unpinned h.lt hf
    refine .inr ⟨fun id hid => hfar id (h.mem_iff.2 hid), ?_⟩
    have hnew : (n.alloc d.frequency).descriptionList =
        n.descriptionList ++ [{ frequency := d.frequency }] := by
      simp [descriptionList, Network.alloc]
    have hlen : n.nextId = n.descriptionList.length := (List.length_map _).symm
    dsimp only
    rw [descriptionList_modify, hnew, hlen]
    simp

theorem Enrolled.register (h : Enrolled n) (d : Description) : Enrolled (n.register d) where
  unpinned := (congrArg (·.2.1) (fixture_register d n)).trans h.unpinned
  inOrder := (h.inOrder.findOrAlloc d.frequency).modify _ fun _ => rfl

section Register

variable (h : Charted tolerance ds n) (hsort : Sorted tolerance ((ds ++ [d]).map (·.frequency)))

include h

theorem Charted.within_listed : Within ((ds ++ [d]).map (·.frequency)) n := by
  intro id hid
  have hm := h.frequencyOf_mem (h.enrolled.mem_iff.1 hid)
  rw [List.map_append]
  exact List.mem_append_left _ hm

include hsort

theorem Charted.not_between : ¬ n.Between d.frequency := by
  apply Network.not_between _ h.separate (h.within_listed (d := d)) (by simp)
  rwa [h.within]

theorem Charted.latest_move {i : Nat} (hid : id < n.nextId)
    (hnear : Near tolerance (n.frequencyOf id) d.frequency)
    (ht : 0 < tolerance) (he : (n.descriptionList.set id d)[i]? = some e) :
    (entriesAt tolerance e.frequency (ds ++ [d])).getLast? = some e := by
  rw [List.getElem?_set] at he
  split at he
  · rw [if_pos (nextId_eq n ▸ hid)] at he
    obtain rfl := Option.some.inj he
    exact entriesAt_concat_of_near (by simpa [Near] using ht)
  · next hne =>
    have hi : i < n.nextId := by
      rw [nextId_eq]
      exact (List.getElem?_eq_some_iff.1 he).1
    rw [entriesAt_concat_of_far]
    · exact h.latest i e he
    · intro hd
      apply h.not_between hsort
      have hother := frequencyOf_of_description he
      refine ⟨id, h.enrolled.mem_iff.2 hid, i, h.enrolled.mem_iff.2 hi, hne, ?_, ?_⟩
      · rwa [h.within]
      · rw [h.within, hother]
        exact hd.symm

theorem Charted.known_move (hid : id < n.nextId)
    (hnear : Near tolerance (n.frequencyOf id) d.frequency)
    (hn : n'.descriptionList = n.descriptionList.set id d) (he : e ∈ ds) :
    ∃ i < n'.nextId, Near tolerance (n'.frequencyOf i) e.frequency := by
  have hf : n'.frequencies = n.frequencies.set id d.frequency := by
    rw [frequencies_eq, hn, List.map_set, frequencies_eq]
  have hlt : id < n.frequencies.length := by
    rw [frequencies_eq, List.length_map]
    exact nextId_eq n ▸ hid
  obtain ⟨i, hi, hie⟩ := h.known e he
  refine ⟨i, by rwa [nextId_eq, hn, List.length_set, ← nextId_eq], ?_⟩
  rw [frequencyOf_of_set hlt hf]
  split
  · next hsame =>
    subst hsame
    have hold := h.within_listed (d := d) i (h.enrolled.mem_iff.2 hi)
    have hlisted : e.frequency ∈ (ds ++ [d]).map (·.frequency) :=
      List.mem_map_of_mem (List.mem_append_left _ he)
    exact hsort _ (by simp) _ hold _ hlisted hnear.symm hie
  · exact hie

end Register

theorem Charted.latest_new (h : Charted tolerance ds n) (ht : 0 < tolerance)
    (hfar : ∀ id < n.nextId, ¬ Near n.tolerance (n.frequencyOf id) d.frequency) {i : Nat}
    (he : (n.descriptionList ++ [d])[i]? = some e) :
    (entriesAt tolerance e.frequency (ds ++ [d])).getLast? = some e := by
  rw [List.getElem?_append] at he
  split at he
  · next hi =>
    rw [← nextId_eq] at hi
    have hd := hfar i hi
    rw [h.within, frequencyOf_of_description he] at hd
    rw [entriesAt_concat_of_far fun hn => hd hn.symm]
    exact h.latest i e he
  · obtain rfl := List.mem_singleton.1 (List.mem_of_getElem? he)
    exact entriesAt_concat_of_near (by simpa [Near] using ht)

theorem Charted.known_new (h : Charted tolerance ds n)
    (hn : n'.descriptionList = n.descriptionList ++ [d]) (he : e ∈ ds) :
    ∃ i < n'.nextId, Near tolerance (n'.frequencyOf i) e.frequency := by
  have hf : n'.frequencies = n.frequencies ++ [d.frequency] := by
    rw [frequencies_eq, hn, List.map_append, frequencies_eq]
    rfl
  obtain ⟨i, hi, hie⟩ := h.known e he
  have hlt : i < n.frequencies.length := by
    rw [frequencies_eq, List.length_map]
    exact nextId_eq n ▸ hi
  refine ⟨i, ?_, ?_⟩
  · rw [nextId_eq, hn, List.length_append, ← nextId_eq]
    exact Nat.lt_add_right _ hi
  · rwa [frequencyOf_of_append hf, if_neg (Nat.ne_of_lt hlt)]

theorem known_self (ht : 0 < tolerance) (h : n.descriptionList[id]? = some d) :
    ∃ i < n.nextId, Near tolerance (n.frequencyOf i) d.frequency := by
  refine ⟨id, ?_, ?_⟩
  · rw [nextId_eq]
    exact (List.getElem?_eq_some_iff.1 h).1
  · rw [frequencyOf_of_description h]
    simpa [Near] using ht

theorem Charted.register (ht : 0 < tolerance) (h : Charted tolerance ds n)
    (hsort : Sorted tolerance ((ds ++ [d]).map (·.frequency))) :
    Charted tolerance (ds ++ [d]) (n.register d) := by
  have htol := (congrArg (·.1) (fixture_register d n)).trans h.within
  have hsep := (separate_register h.enrolled h.separate d).2 (h.not_between hsort)
  obtain ⟨id, hid, hnear, hset⟩ | ⟨hfar, hnew⟩ := descriptionList_register h.enrolled d
  · rw [h.within] at hnear
    have hd : (n.register d).descriptionList[id]? = some d := by
      rw [hset, List.getElem?_set_self (nextId_eq n ▸ hid)]
    refine ⟨htol, h.enrolled.register d, hsep, fun i e he => ?_, fun e he => ?_⟩
    · exact h.latest_move hsort hid hnear ht (hset ▸ he)
    · obtain he | he := List.mem_append.1 he
      · exact h.known_move hsort hid hnear hset he
      · obtain rfl := List.mem_singleton.1 he
        exact known_self ht hd
  · have hd : (n.register d).descriptionList[n.descriptionList.length]? = some d := by
      rw [hnew, List.getElem?_concat_length]
    refine ⟨htol, h.enrolled.register d, hsep, fun i e he => ?_, fun e he => ?_⟩
    · exact h.latest_new ht hfar (hnew ▸ he)
    · obtain he | he := List.mem_append.1 he
      · exact h.known_new hnew he
      · obtain rfl := List.mem_singleton.1 he
        exact known_self ht hd

theorem Charted.registerAll (ht : 0 < tolerance) (h : Charted tolerance ds n)
    (hsort : Sorted tolerance ((ds ++ ds').map (·.frequency))) :
    Charted tolerance (ds ++ ds') (n.registerAll ds') := by
  induction ds' generalizing ds n with
  | nil => rwa [List.append_nil]
  | cons d ds' ih =>
    have hsplit : ds ++ d :: ds' = ds ++ [d] ++ ds' := by simp
    rw [hsplit] at hsort ⊢
    refine ih (h.register ht (hsort.mono fun f hf => ?_)) hsort
    rw [List.map_append]
    exact List.mem_append_left _ hf

def Happening.described (o : ReadOptions) : Happening → List Description
  | .table _ s => descriptions o.kind s
  | .scanned _ => []

theorem Charted.congr (h : Charted tolerance ds n) (hp : SamePlaces n n') (he : n'.Enrolled)
    (hd : n'.descriptionList = n.descriptionList) : Charted tolerance ds n' where
  within := hp.tolerance.trans h.within
  enrolled := he
  separate := hp.separate.2 h.separate
  latest := hd ▸ h.latest
  known := by
    rw [hp.frequencyOf, nextId_eq, hd, ← nextId_eq]
    exact h.known

theorem Charted.setChannel (h : Charted tolerance ds n) (c : LogicalChannel) :
    Charted tolerance ds (n.setChannel c) := by
  have hd : (n.setChannel c).descriptionList = n.descriptionList :=
    map_setChannel c n fun _ _ => rfl
  have he : (n.setChannel c).Enrolled := ⟨h.enrolled.unpinned, h.enrolled.inOrder.setChannel c⟩
  exact h.congr (.of_outline (outline_setChannel c)) he hd

theorem Charted.markScanned (o : ReadOptions) (h : Charted tolerance ds n) (id : Nat) :
    Charted tolerance ds (n.markScanned id) := by
  have hd : (n.markScanned id).descriptionList = n.descriptionList := by
    unfold Network.markScanned
    split
    · exact map_modify id _ fun _ => rfl
    · exact map_modify id _ fun _ => rfl
  exact h.congr (samePlaces_markScanned id n) (h.enrolled.step o (.mark id)) hd

theorem Charted.happen (ht : 0 < tolerance) (h : Charted tolerance ds n) {a : Happening}
    (ha : ∀ pid s, a = .table pid s → s.IsNit)
    (hsort : Sorted tolerance ((ds ++ a.described o).map (·.frequency))) :
    Charted tolerance (ds ++ a.described o) (n.happen o a) := by
  cases a with
  | table pid s =>
    have hnit := ha pid s rfl
    rw [Network.happen, (read_effects o pid s n).network, edits_nit hnit, editServices_nil,
      readTransponders_split]
    refine Charted.registerAll ht ?_ hsort
    exact List.foldlRecOn _ _ h fun n hn c _ => hn.setChannel c
  | scanned id =>
    rw [Happening.described, List.append_nil]
    exact h.markScanned o id

theorem Charted.history (ht : 0 < tolerance) (h : Charted tolerance ds n) {hs : List Happening}
    (hn : ∀ pid s, .table pid s ∈ hs → s.IsNit)
    (hsort : Sorted tolerance ((ds ++ hs.flatMap (Happening.described o)).map (·.frequency))) :
    Charted tolerance (ds ++ hs.flatMap (Happening.described o))
      (hs.foldl (Network.happen o) n) := by
  induction hs generalizing ds n with
  | nil => rwa [List.flatMap_nil, List.append_nil]
  | cons a hs ih =>
    rw [List.flatMap_cons, ← List.append_assoc] at hsort ⊢
    have ha := h.happen (o := o) (a := a) ht (fun pid s he => hn pid s (he ▸ List.mem_cons_self))
      (hsort.mono fun f hf => ?_)
    · exact ih ha (fun pid s hm => hn pid s (List.mem_cons_of_mem a hm)) hsort
    · rw [List.map_append]
      exact List.mem_append_left _ hf

section Chart

variable (h : Charted tolerance ds n) (hsort : Sorted tolerance (ds.map (·.frequency)))

include h hsort

end Chart

end Bandscan.Network
