import Mathlib.Data.List.Nodup
import Mathlib.Data.List.Perm.Subperm
import Bandscan.InitialList
import Bandscan.Proofs.SectionEffects
/-!
A network recognises the multiplexes that a scan has visited. If closeness is transitive among the
frequencies that are listed anywhere, then nothing that is registered comes close to a frequency
that was visited or to one that is pending, however the tables move transponders about.
-/

namespace Bandscan.Network

variable {tolerance : Nat} {listed visited : List Nat} {n n' : Network}

def Near (tolerance a b : Nat) : Prop := (a - b) + (b - a) < tolerance

instance (tolerance a b : Nat) : Decidable (Near tolerance a b) :=
  inferInstanceAs (Decidable (_ < _))

theorem Near.symm {a b : Nat} (h : Near tolerance a b) : Near tolerance b a := by
  unfold Near at h ⊢
  omega

def frequencies (n : Network) : List Nat := n.transponders.map (·.frequency)

def frequencyOf (n : Network) (id : Nat) : Nat := n.frequencies[id]?.getD 0

/-- All that a scan decides by. -/
def outline (n : Network) : Nat × Bool × List Nat × List Nat × List Nat :=
  (n.tolerance, n.pinned, n.scanned, n.pending, n.frequencies)

/-- Closeness sorts the listed frequencies into multiplexes. -/
def Sorted (tolerance : Nat) (listed : List Nat) : Prop :=
  ∀ a ∈ listed, ∀ b ∈ listed, ∀ c ∈ listed,
    Near tolerance a b → Near tolerance b c → Near tolerance a c

/-- A frequency that stands for another one, as far as listed frequencies tell. -/
structure Alike (tolerance : Nat) (listed : List Nat) (f f' : Nat) : Prop where
  mem_listed : f' ∈ listed
  near_iff : ∀ g ∈ listed, (Near tolerance g f' ↔ Near tolerance g f)

theorem Alike.refl {f : Nat} (hf : f ∈ listed) : Alike tolerance listed f f :=
  ⟨hf, fun _ _ => Iff.rfl⟩

theorem Alike.near_of {f f' g g' : Nat} (hf : Alike tolerance listed f f')
    (hg : Alike tolerance listed g g') (hl : g ∈ listed) (h : Near tolerance f' g') :
    Near tolerance f g := by
  have hfg : Near tolerance f' g := (hg.near_iff f' hf.mem_listed).1 h
  exact ((hf.near_iff g hl).1 hfg.symm).symm

theorem Sorted.alike {f f' : Nat} (hs : Sorted tolerance listed) (hf : f ∈ listed)
    (hf' : f' ∈ listed) (h : Near tolerance f f') : Alike tolerance listed f f' :=
  ⟨hf', fun g hg =>
    ⟨fun hg' => hs g hg f' hf' f hf hg' h.symm, fun hg' => hs g hg f hf f' hf' hg' h⟩⟩

structure Orderly (tolerance : Nat) (listed visited : List Nat) (n : Network) : Prop where
  within : n.tolerance = tolerance
  unpinned : n.pinned = false
  registered : ∀ id ∈ n.scanned ++ n.pending, id < n.frequencies.length
  distinct : (n.scanned ++ n.pending).Nodup
  pendingListed : ∀ id ∈ n.pending, n.frequencyOf id ∈ listed
  pendingApart : n.pending.Pairwise fun i j =>
    ¬ Near tolerance (n.frequencyOf i) (n.frequencyOf j)
  visitedListed : ∀ f ∈ visited, f ∈ listed
  visitedApart : visited.Pairwise fun f g => ¬ Near tolerance f g
  known : ∀ f ∈ visited, ∃ id ∈ n.scanned,
    n.frequencyOf id ∈ listed ∧ Near tolerance f (n.frequencyOf id)
  unvisited : ∀ f ∈ visited, ∀ id ∈ n.pending, ¬ Near tolerance f (n.frequencyOf id)

theorem Orderly.congr (h : Orderly tolerance listed visited n) (ho : n'.outline = n.outline) :
    Orderly tolerance listed visited n' := by
  simp only [outline, Prod.mk.injEq] at ho
  obtain ⟨ht, hp, hs, hq, hf⟩ := ho
  have hfreq : n'.frequencyOf = n.frequencyOf := funext fun id => by rw [frequencyOf, hf]; rfl
  obtain ⟨h₁, h₂, h₃, h₄, h₅, h₆, h₇, h₈, h₉, h₁₀⟩ := h
  rw [← ht] at h₁
  rw [← hp] at h₂
  rw [← hs, ← hq, ← hf] at h₃
  rw [← hs, ← hq] at h₄
  rw [← hq, ← hfreq] at h₅ h₆ h₁₀
  rw [← hs, ← hfreq] at h₉
  exact ⟨h₁, h₂, h₃, h₄, h₅, h₆, h₇, h₈, h₉, h₁₀⟩

theorem Orderly.length_visited_le (ht : 0 < tolerance) (h : Orderly tolerance listed visited n) :
    visited.length ≤ listed.length := by
  have hn : visited.Nodup := h.visitedApart.imp fun {a b} hab => by
    rintro rfl
    exact hab (by simpa [Near] using ht)
  exact (List.subperm_of_subset hn h.visitedListed).length_le

/-- A visit leaves one listed frequency less. -/
theorem Orderly.unvisited_lt {frequency : Nat} (ht : 0 < tolerance)
    (h : Orderly tolerance listed (visited ++ [frequency]) n) :
    listed.length - (visited ++ [frequency]).length < listed.length - visited.length := by
  have hle := h.length_visited_le ht
  rw [List.length_append, List.length_singleton] at hle ⊢
  omega

theorem frequencies_modify {f : Transponder → Transponder} (id : Nat)
    (hf : ∀ tp, (f tp).frequency = tp.frequency) : (n.modify id f).frequencies = n.frequencies :=
  map_modify id n hf

theorem frequencies_modify_to {f : Transponder → Transponder} {frequency : Nat} (id : Nat)
    (hf : ∀ tp, (f tp).frequency = frequency) :
    (n.modify id f).frequencies = n.frequencies.set id frequency := map_modify_to id n hf

@[simp] theorem set_frequencyOf (n : Network) (id : Nat) :
    n.frequencies.set id (n.frequencyOf id) = n.frequencies := by
  by_cases hid : id < n.frequencies.length
  · simp [frequencyOf, hid]
  · exact List.set_eq_of_length_le (Nat.le_of_not_lt hid)

theorem frequencyOf_of_set {id frequency : Nat} (hid : id < n.frequencies.length)
    (hn : n'.frequencies = n.frequencies.set id frequency) (j : Nat) :
    n'.frequencyOf j = if j = id then frequency else n.frequencyOf j := by
  unfold frequencyOf
  rw [hn, List.getElem?_set]
  by_cases hj : j = id
  · simp [hj, hid]
  · have hj' : ¬ id = j := fun h => hj h.symm
    simp [hj, hj']

theorem frequencyOf_of_append {frequency : Nat} (hn : n'.frequencies = n.frequencies ++ [frequency])
    (j : Nat) :
    n'.frequencyOf j = if j = n.frequencies.length then frequency else n.frequencyOf j := by
  unfold frequencyOf
  rw [hn, List.getElem?_append]
  by_cases hl : j < n.frequencies.length
  · simp [hl, Nat.ne_of_lt hl]
  · by_cases hj : j = n.frequencies.length
    · simp [hj]
    · have hnew : [frequency][j - n.frequencies.length]? = none :=
        List.getElem?_eq_none (by rw [List.length_singleton]; omega)
      have hold : n.frequencies[j]? = none := List.getElem?_eq_none (by omega)
      rw [if_neg hl, if_neg hj, hnew, hold]

theorem any_near {id : Nat} (hid : id < n.frequencies.length) (frequency : Nat) :
    (n.get? id).any (fun tp => n.near tp.frequency frequency) = true ↔
      Near n.tolerance (n.frequencyOf id) frequency := by
  have hlt : id < n.transponders.length := by simpa [frequencies] using hid
  simp [get?, hlt, near, Near, frequencyOf, frequencies]

theorem near_of_find? (hp : n.pinned = false)
    (hr : ∀ id ∈ n.scanned ++ n.pending, id < n.frequencies.length) {frequency id : Nat}
    (hf : n.find? frequency = some id) :
    id ∈ n.scanned ++ n.pending ∧ Near n.tolerance (n.frequencyOf id) frequency := by
  unfold find? at hf
  rw [hp, if_neg Bool.false_ne_true] at hf
  have hm := List.mem_of_find?_eq_some hf
  have hn := List.find?_some hf
  exact ⟨hm, (any_near (hr id hm) frequency).1 hn⟩

theorem far_of_find? (hp : n.pinned = false)
    (hr : ∀ id ∈ n.scanned ++ n.pending, id < n.frequencies.length) {frequency : Nat}
    (hf : n.find? frequency = none) :
    ∀ id ∈ n.scanned ++ n.pending, ¬ Near n.tolerance (n.frequencyOf id) frequency := by
  intro id hm hn
  unfold find? at hf
  rw [hp, if_neg Bool.false_ne_true] at hf
  have hno := List.find?_eq_none.1 hf id hm
  exact hno ((any_near (hr id hm) frequency).2 hn)

/-- Once a network has left some pending transponders for scanned ones, and has moved others within
their multiplexes, it is as orderly as before. -/
theorem Orderly.transfer (h : Orderly tolerance listed visited n)
    (ht : n'.tolerance = n.tolerance) (hp : n'.pinned = n.pinned)
    (hreg : ∀ id ∈ n'.scanned ++ n'.pending, id < n'.frequencies.length)
    (hdist : (n'.scanned ++ n'.pending).Nodup) (hscan : n.scanned ⊆ n'.scanned)
    (hpend : n'.pending.Sublist n.pending)
    (halike : ∀ j ∈ n.scanned ++ n'.pending, n.frequencyOf j ∈ listed →
      Alike tolerance listed (n.frequencyOf j) (n'.frequencyOf j)) :
    Orderly tolerance listed visited n' := by
  have hold {j : Nat} (hj : j ∈ n'.pending) : n.frequencyOf j ∈ listed :=
    h.pendingListed j (hpend.subset hj)
  have hpair {j : Nat} (hj : j ∈ n'.pending) :
      Alike tolerance listed (n.frequencyOf j) (n'.frequencyOf j) :=
    halike j (List.mem_append_right _ hj) (hold hj)
  exact {
    within := ht.trans h.within
    unpinned := hp.trans h.unpinned
    registered := hreg
    distinct := hdist
    pendingListed := fun j hj => (hpair hj).mem_listed
    pendingApart := (h.pendingApart.sublist hpend).imp_of_mem fun hi hj hij hnear =>
      hij ((hpair hi).near_of (hpair hj) (hold hj) hnear)
    visitedListed := h.visitedListed
    visitedApart := h.visitedApart
    known := fun f hf => by
      obtain ⟨j, hj, hjl, hjn⟩ := h.known f hf
      have ha := halike j (List.mem_append_left _ hj) hjl
      exact ⟨j, hscan hj, ha.mem_listed, (ha.near_iff f (h.visitedListed f hf)).2 hjn⟩
    unvisited := fun f hf j hj hfj => h.unvisited f hf j (hpend.subset hj)
      (((hpair hj).near_iff f (h.visitedListed f hf)).1 hfj) }

theorem Orderly.enqueue (h : Orderly tolerance listed visited n) {id : Nat}
    (hreg : id < n.frequencies.length) (hdist : id ∉ n.scanned ++ n.pending)
    (hl : n.frequencyOf id ∈ listed)
    (hpend : ∀ j ∈ n.pending, ¬ Near tolerance (n.frequencyOf j) (n.frequencyOf id))
    (hvis : ∀ f ∈ visited, ¬ Near tolerance f (n.frequencyOf id)) :
    Orderly tolerance listed visited { n with pending := n.pending ++ [id] } := by
  have hmem {j : Nat} (hj : j ∈ n.pending ++ [id]) : j ∈ n.pending ∨ j = id := by simpa using hj
  exact { h with
    registered := fun j hj => by
      rw [← List.append_assoc] at hj
      rcases List.mem_append.1 hj with hj | hj
      · exact h.registered j hj
      · exact List.mem_singleton.1 hj ▸ hreg
    distinct := by
      rw [← List.append_assoc]
      exact List.concat_eq_append ▸ h.distinct.concat hdist
    pendingListed := fun j hj => by
      rcases hmem hj with hj | rfl
      · exact h.pendingListed j hj
      · exact hl
    pendingApart := by
      rw [List.pairwise_append]
      refine ⟨h.pendingApart, List.pairwise_singleton _ _, fun i hi j hj => ?_⟩
      obtain rfl := List.mem_singleton.1 hj
      exact hpend i hi
    unvisited := fun f hf j hj => by
      rcases hmem hj with hj | rfl
      · exact h.unvisited f hf j hj
      · exact hvis f hf }

theorem Orderly.move (hs : Sorted tolerance listed) (h : Orderly tolerance listed visited n)
    {id frequency : Nat} (hl : frequency ∈ listed) (hid : id ∈ n.scanned ++ n.pending)
    (hnear : Near tolerance (n.frequencyOf id) frequency)
    (hn : n'.outline = (n.tolerance, n.pinned, n.scanned, n.pending,
      n.frequencies.set id frequency)) :
    Orderly tolerance listed visited n' := by
  simp only [outline, Prod.mk.injEq] at hn
  obtain ⟨ht, hp, hsc, hpe, hf⟩ := hn
  have hreg : ∀ j ∈ n'.scanned ++ n'.pending, j < n'.frequencies.length := by
    rw [hsc, hpe, hf, List.length_set]
    exact h.registered
  have hdist : (n'.scanned ++ n'.pending).Nodup := by
    rw [hsc, hpe]
    exact h.distinct
  refine h.transfer ht hp hreg hdist (fun _ hj => hsc ▸ hj) (hpe ▸ .refl _)
    fun j _ hj => ?_
  rw [frequencyOf_of_set (h.registered id hid) hf]
  split
  · next he =>
    subst he
    exact hs.alike hj hl hnear
  · exact .refl hj

theorem Orderly.far_of_visited (hs : Sorted tolerance listed)
    (h : Orderly tolerance listed visited n) {frequency : Nat} (hl : frequency ∈ listed)
    (hfar : ∀ id ∈ n.scanned ++ n.pending, ¬ Near tolerance (n.frequencyOf id) frequency) :
    ∀ f ∈ visited, ¬ Near tolerance f frequency := by
  intro f hf hnear
  -- The transponder near the visited frequency would have been found.
  obtain ⟨id, hid, hidl, hidn⟩ := h.known f hf
  exact hfar id (List.mem_append_left _ hid)
    (hs _ hidl f (h.visitedListed f hf) _ hl hidn.symm hnear)

theorem Orderly.alloc (hs : Sorted tolerance listed) (h : Orderly tolerance listed visited n)
    {frequency : Nat} (hl : frequency ∈ listed)
    (hfar : ∀ id ∈ n.scanned ++ n.pending, ¬ Near tolerance (n.frequencyOf id) frequency)
    (hn : n'.outline = (n.tolerance, n.pinned, n.scanned, n.pending ++ [n.frequencies.length],
      n.frequencies ++ [frequency])) :
    Orderly tolerance listed visited n' := by
  simp only [outline, Prod.mk.injEq] at hn
  obtain ⟨ht, hp, hsc, hpe, hf⟩ := hn
  have hfreq := frequencyOf_of_append hf
  have hold {j : Nat} (hj : j ∈ n.scanned ++ n.pending) : n'.frequencyOf j = n.frequencyOf j := by
    rw [hfreq, if_neg (Nat.ne_of_lt (h.registered j hj))]
  have hnew : n'.frequencyOf n.frequencies.length = frequency := by rw [hfreq, if_pos rfl]
  have hlen : n'.frequencies.length = n.frequencies.length + 1 := by simp [hf]
  have hfresh : n.frequencies.length ∉ n.scanned ++ n.pending := fun hmem =>
    Nat.lt_irrefl _ (h.registered _ hmem)
  -- first the frequency is registered, then the transponder is pending
  let m : Network := { n' with pending := n.pending }
  have hscanned : m.scanned = n.scanned := hsc
  have hregistered : Orderly tolerance listed visited m := by
    refine h.transfer ht hp ?_ ?_ (fun _ hj => hsc ▸ hj) (.refl _) fun j hj hjl => ?_
    · rw [hscanned]
      exact fun j hj => hlen ▸ Nat.lt_succ_of_lt (h.registered j hj)
    · rw [hscanned]
      exact h.distinct
    · rw [show m.frequencyOf j = n.frequencyOf j from hold hj]
      exact .refl hjl
  have hlast : n.frequencies.length < m.frequencies.length := hlen ▸ Nat.lt_succ_self _
  have hqueued := hregistered.enqueue hlast (by rwa [hscanned]) (hnew ▸ hl)
    (fun j hj => hnew ▸ hold (List.mem_append_right _ hj) ▸ hfar j (List.mem_append_right _ hj))
    (hnew ▸ h.far_of_visited hs hl hfar)
  exact hqueued.congr (by rw [outline, hpe]; rfl)

/-- What is registered moves a transponder that is near, or stands on its own if there is none. -/
theorem outline_register (hp : n.pinned = false)
    (hr : ∀ id ∈ n.scanned ++ n.pending, id < n.frequencies.length) (d : Description) :
    (∃ id ∈ n.scanned ++ n.pending, Near n.tolerance (n.frequencyOf id) d.frequency ∧
      (n.register d).outline = (n.tolerance, n.pinned, n.scanned, n.pending,
        n.frequencies.set id d.frequency)) ∨
    ((∀ id ∈ n.scanned ++ n.pending, ¬ Near n.tolerance (n.frequencyOf id) d.frequency) ∧
      (n.register d).outline = (n.tolerance, n.pinned, n.scanned,
        n.pending ++ [n.frequencies.length], n.frequencies ++ [d.frequency])) := by
  have hto (n : Network) (id : Nat) :
      (n.modify id (·.redescribe d)).frequencies = n.frequencies.set id d.frequency :=
    frequencies_modify_to id fun _ => rfl
  unfold Network.register findOrAlloc
  cases hf : n.find? d.frequency with
  | some id =>
    obtain ⟨hid, hnear⟩ := near_of_find? hp hr hf
    refine .inl ⟨id, hid, hnear, ?_⟩
    rw [← hto]
    rfl
  | none =>
    have hlen : n.nextId = n.frequencies.length := by simp [nextId, frequencies]
    have ha : (n.alloc d.frequency).frequencies = n.frequencies ++ [d.frequency] := by
      simp [Network.alloc, frequencies]
    have hsame : (n.frequencies ++ [d.frequency]).set n.frequencies.length d.frequency =
        n.frequencies ++ [d.frequency] := by simp
    refine .inr ⟨far_of_find? hp hr hf, ?_⟩
    unfold outline
    rw [hto, ha, hlen, hsame, ← hlen]
    rfl

theorem Orderly.register (hs : Sorted tolerance listed) (h : Orderly tolerance listed visited n)
    {d : Description} (hl : d.frequency ∈ listed) :
    Orderly tolerance listed visited (n.register d) := by
  obtain ⟨id, hid, hnear, ho⟩ | ⟨hfar, ho⟩ := outline_register h.unpinned h.registered d
  · rw [h.within] at hnear
    exact h.move hs hl hid hnear ho
  · rw [h.within] at hfar
    exact h.alloc hs hl hfar ho

theorem outline_modify {f : Transponder → Transponder} (id : Nat)
    (hf : ∀ tp, (f tp).frequency = tp.frequency) : (n.modify id f).outline = n.outline := by
  unfold outline
  rw [frequencies_modify id hf]
  rfl

theorem outline_setChannel (c : LogicalChannel) : (n.setChannel c).outline = n.outline := by
  have hf : (n.setChannel c).frequencies = n.frequencies := map_setChannel c n fun _ _ => rfl
  unfold outline
  rw [hf]
  rfl

theorem outline_readChannels (o : ReadOptions) (m : Multiplex) :
    (n.readChannels o m).outline = n.outline := by
  unfold readChannels
  split
  · generalize m.channels = cs
    induction cs generalizing n with
    | nil => rfl
    | cons c cs ih => exact ih.trans (outline_setChannel c)
  · rfl

theorem outline_editServices (es : List Edit) : (n.editServices es).outline = n.outline := by
  unfold editServices modifyCurrent
  cases n.current with
  | none => rfl
  | some id => exact outline_modify id fun _ => rfl

theorem Orderly.read (hs : Sorted tolerance listed) (h : Orderly tolerance listed visited n)
    (o : ReadOptions) (pid : Nat) {s : Section}
    (hl : ∀ d ∈ descriptions o.kind s, d.frequency ∈ listed) :
    Orderly tolerance listed visited (n.read o pid s).network := by
  rw [(read_effects o pid s n).network]
  refine Orderly.congr ?_ (outline_editServices _)
  unfold readTransponders
  unfold descriptions at hl
  by_cases hn : s.IsNit
  · rw [if_pos hn] at hl ⊢
    cases hp : Nit.parse s with
    | error e => exact h
    | ok t =>
      rw [hp] at hl
      dsimp only at hl ⊢
      generalize t.multiplexes = ms at hl
      induction ms generalizing n with
      | nil => exact h
      | cons m ms ih =>
        have hc := h.congr (outline_readChannels o m)
        have hm : Orderly tolerance listed visited (n.readMultiplex o t.networkId m) := by
          unfold readMultiplex
          by_cases hw : m.delivery.any (·.kind = o.kind) = true
          · rw [if_pos hw]
            refine hc.register hs (hl (description t.networkId m) ?_)
            exact List.mem_map_of_mem (List.mem_filter.2 ⟨List.mem_cons_self, hw⟩)
          · rw [if_neg hw]
            exact hc
        refine ih hm fun d hd => hl d ?_
        obtain ⟨m', hm', rfl⟩ := List.mem_map.1 hd
        obtain ⟨hmem, hw⟩ := List.mem_filter.1 hm'
        exact List.mem_map_of_mem (List.mem_filter.2 ⟨List.mem_cons_of_mem _ hmem, hw⟩)
  · rw [if_neg hn]
    exact h

theorem orderly_load (hs : Sorted tolerance listed) (inversion : Inversion)
    {entries : List InitialList.Entry} (hl : ∀ e ∈ entries, e.frequency ∈ listed)
    (ha : (entries.map (·.frequency)).Pairwise fun f g => ¬ Near tolerance f g) :
    Orderly tolerance listed [] (InitialList.load entries { tolerance, inversion }) := by
  have hnew : Orderly tolerance listed [] { tolerance, inversion } := by
    constructor <;> simp
  suffices hload : ∀ n : Network, Orderly tolerance listed [] n →
      (∀ id ∈ n.scanned ++ n.pending, ∀ e ∈ entries,
        ¬ Near tolerance (n.frequencyOf id) e.frequency) →
      Orderly tolerance listed [] (InitialList.load entries n) from
    hload _ hnew (by simp)
  induction entries with
  | nil => exact fun n h _ => h
  | cons e entries ih =>
    intro n h hfar
    rw [List.map_cons, List.pairwise_cons] at ha
    have hlen : n.nextId = n.frequencies.length := by simp [nextId, frequencies]
    have hf : (InitialList.loadEntry n e).frequencies = n.frequencies ++ [e.frequency] := by
      have hm := frequencies_modify (n := n.alloc e.frequency)
        (f := fun tp => { tp with delivery := some e.delivery }) n.nextId fun _ => rfl
      refine hm.trans ?_
      simp [Network.alloc, frequencies]
    have ho : (InitialList.loadEntry n e).outline = (n.tolerance, n.pinned, n.scanned,
        n.pending ++ [n.frequencies.length], n.frequencies ++ [e.frequency]) := by
      unfold outline
      rw [hf, ← hlen]
      rfl
    have he := h.alloc hs (hl e List.mem_cons_self) (fun id hid => hfar id hid e List.mem_cons_self)
      ho
    refine ih (fun e he => hl e (List.mem_cons_of_mem _ he)) ha.2 _ he fun id hid e' he' => ?_
    have hid : id ∈ n.scanned ++ (n.pending ++ [n.frequencies.length]) := hlen ▸ hid
    rw [frequencyOf_of_append hf]
    rw [← List.append_assoc] at hid
    rcases List.mem_append.1 hid with hid | hid
    · rw [if_neg (Nat.ne_of_lt (h.registered id hid))]
      exact hfar id hid e' (List.mem_cons_of_mem _ he')
    · rw [if_pos (List.mem_singleton.1 hid)]
      exact ha.1 _ (List.mem_map_of_mem he')

/-- A scanned transponder counts as visited if nothing visited and nothing pending is near it. -/
theorem Orderly.count (ht : 0 < tolerance) (h : Orderly tolerance listed visited n) {id : Nat}
    (hid : id ∈ n.scanned) (hl : n.frequencyOf id ∈ listed)
    (hv : ∀ f ∈ visited, ¬ Near tolerance f (n.frequencyOf id))
    (hp : ∀ j ∈ n.pending, ¬ Near tolerance (n.frequencyOf id) (n.frequencyOf j)) :
    Orderly tolerance listed (visited ++ [n.frequencyOf id]) n := by
  have hself : Near tolerance (n.frequencyOf id) (n.frequencyOf id) := by simpa [Near] using ht
  have hmem {f : Nat} (hf : f ∈ visited ++ [n.frequencyOf id]) :
      f ∈ visited ∨ f = n.frequencyOf id := by simpa using hf
  exact { h with
    visitedListed := fun f hf => by
      rcases hmem hf with hf | rfl
      · exact h.visitedListed f hf
      · exact hl
    visitedApart := by
      rw [List.pairwise_append]
      refine ⟨h.visitedApart, List.pairwise_singleton _ _, fun f hf g hg => ?_⟩
      obtain rfl := List.mem_singleton.1 hg
      exact hv f hf
    known := fun f hf => by
      rcases hmem hf with hf | rfl
      · exact h.known f hf
      · exact ⟨id, hid, hl, hself⟩
    unvisited := fun f hf => by
      rcases hmem hf with hf | rfl
      · exact h.unvisited f hf
      · exact hp }

/-- The first pending transponder is tried. It may end up on any frequency, but if it stays on its
own, then that is one more that was visited. -/
theorem Orderly.visit (ht : 0 < tolerance) (h : Orderly tolerance listed visited n)
    {id frequency : Nat} {rest : List Nat} (hp : n.pending = id :: rest)
    (hn : n'.outline = (n.tolerance, n.pinned, n.scanned ++ [id], rest,
      n.frequencies.set id frequency)) :
    Orderly tolerance listed visited n' ∧
      (frequency = n.frequencyOf id → Orderly tolerance listed (visited ++ [frequency]) n') := by
  simp only [outline, Prod.mk.injEq] at hn
  obtain ⟨htol, hpin, hsc, hpe, hf⟩ := hn
  have hidp : id ∈ n.pending := hp ▸ List.mem_cons_self
  have hfreq := frequencyOf_of_set (h.registered id (List.mem_append_right _ hidp)) hf
  have hdist : (n.scanned ++ id :: rest).Nodup := hp ▸ h.distinct
  have hids : n'.scanned ++ n'.pending = n.scanned ++ n.pending := by
    rw [hsc, hpe, hp, List.append_assoc, List.singleton_append]
  have hother {j : Nat} (hj : j ∈ n.scanned ++ n'.pending) :
      n'.frequencyOf j = n.frequencyOf j := by
    have hne : j ≠ id := by
      rintro rfl
      exact (List.nodup_middle.1 hdist).notMem (hpe ▸ hj)
    rw [hfreq, if_neg hne]
  have hold : Orderly tolerance listed visited n' := by
    refine h.transfer htol hpin ?_ (hids ▸ h.distinct) ?_ ?_ fun j hj hjl => ?_
    · rw [hids, hf, List.length_set]
      exact h.registered
    · exact hsc ▸ List.subset_append_left _ _
    · rw [hpe, hp]
      exact List.sublist_cons_self _ _
    · rw [hother hj]
      exact .refl hjl
  refine ⟨hold, fun hsame => ?_⟩
  subst hsame
  have hnew : n'.frequencyOf id = n.frequencyOf id := by rw [hfreq, if_pos rfl]
  have hapart := h.pendingApart
  rw [hp, List.pairwise_cons] at hapart
  have hcount := hold.count ht (hsc ▸ List.mem_append_right _ List.mem_cons_self)
    (hnew ▸ h.pendingListed id hidp) (fun f hf => hnew ▸ h.unvisited f hf id hidp) fun j hj => by
      rw [hnew, hother (List.mem_append_right _ hj)]
      exact hapart.1 j (hpe ▸ hj)
  rwa [hnew] at hcount

end Bandscan.Network
