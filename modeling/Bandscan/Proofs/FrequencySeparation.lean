import Bandscan.Proofs.NetworkRegistry
import Bandscan.Proofs.NetworkTable
import Bandscan.Proofs.VisitedMultiplexes
/-!
Transponders are told apart by their frequencies, and one that is described anew moves to the
frequency of its description. An entry between two transponders, near to both, takes one of them
along and leaves it next to the other. Nothing else brings transponders close to each other.
-/

namespace Bandscan.Network

variable {o : ReadOptions} {n n' : Network} {frequency : Nat}

def Separate (n : Network) : Prop :=
  ∀ i ∈ n.scanned ++ n.pending, ∀ j ∈ n.scanned ++ n.pending, i ≠ j →
    ¬ Near n.tolerance (n.frequencyOf i) (n.frequencyOf j)

instance (n : Network) : Decidable n.Separate := inferInstanceAs (Decidable (∀ i ∈ _, _))

/-- A frequency that two transponders are near to. -/
def Between (n : Network) (frequency : Nat) : Prop :=
  ∃ i ∈ n.scanned ++ n.pending, ∃ j ∈ n.scanned ++ n.pending, i ≠ j ∧
    Near n.tolerance (n.frequencyOf i) frequency ∧ Near n.tolerance (n.frequencyOf j) frequency

/-- What separation is about. -/
structure SamePlaces (n n' : Network) : Prop where
  tolerance : n'.tolerance = n.tolerance
  listed : ∀ id, id ∈ n'.scanned ++ n'.pending ↔ id ∈ n.scanned ++ n.pending
  frequencyOf : n'.frequencyOf = n.frequencyOf

theorem SamePlaces.of_outline (h : n'.outline = n.outline) : SamePlaces n n' := by
  simp only [outline, Prod.mk.injEq] at h
  obtain ⟨ht, -, hs, hp, hf⟩ := h
  refine ⟨ht, fun id => by rw [hs, hp], ?_⟩
  funext id
  rw [Network.frequencyOf, hf, Network.frequencyOf]

theorem SamePlaces.separate (h : SamePlaces n n') : n'.Separate ↔ n.Separate := by
  unfold Separate
  simp only [h.tolerance, h.listed, h.frequencyOf]

theorem SamePlaces.between (h : SamePlaces n n') : n'.Between frequency ↔ n.Between frequency := by
  unfold Between
  simp only [h.tolerance, h.listed, h.frequencyOf]

/-- Transponders that are registered by their numbers, on a network that is not pinned. -/
structure Enrolled (n : Network) : Prop where
  unpinned : n.pinned = false
  inOrder : n.InOrder

theorem Enrolled.lt (h : Enrolled n) :
    ∀ id ∈ n.scanned ++ n.pending, id < n.frequencies.length := by
  intro id hid
  have hr := h.inOrder.once.mem_iff.1 hid
  simpa [frequencies] using hr

theorem separate_move (hs : n.Separate) {id : Nat} (hid : id ∈ n.scanned ++ n.pending)
    (hlt : id < n.frequencies.length) (hnear : Near n.tolerance (n.frequencyOf id) frequency)
    (ho : n'.outline = (n.tolerance, n.pinned, n.scanned, n.pending,
      n.frequencies.set id frequency)) : n'.Separate ↔ ¬ n.Between frequency := by
  simp only [outline, Prod.mk.injEq] at ho
  obtain ⟨ht, -, hsc, hpe, hf⟩ := ho
  have hfreq := frequencyOf_of_set hlt hf
  have hself : n'.frequencyOf id = frequency := by rw [hfreq, if_pos rfl]
  have hother {j : Nat} (hj : j ≠ id) : n'.frequencyOf j = n.frequencyOf j := by
    rw [hfreq, if_neg hj]
  unfold Separate
  rw [ht, hsc, hpe]
  constructor
  · rintro hsep ⟨i, hi, j, hj, hij, hni, hnj⟩
    -- one of the two is not the transponder that moves
    by_cases he : i = id
    · subst he
      apply hsep j hj i hi (Ne.symm hij)
      rw [hself, hother (Ne.symm hij)]
      exact hnj
    · apply hsep i hi id hid he
      rw [hself, hother he]
      exact hni
  · intro hb i hi j hj hij hnew
    by_cases hei : i = id
    · subst hei
      rw [hself, hother (Ne.symm hij)] at hnew
      exact hb ⟨i, hi, j, hj, hij, hnear, hnew.symm⟩
    by_cases hej : j = id
    · subst hej
      rw [hself, hother hij] at hnew
      exact hb ⟨i, hi, j, hj, hij, hnew, hnear⟩
    · rw [hother hei, hother hej] at hnew
      exact hs i hi j hj hij hnew

theorem separate_alloc (hs : n.Separate)
    (hr : ∀ id ∈ n.scanned ++ n.pending, id < n.frequencies.length)
    (hfar : ∀ id ∈ n.scanned ++ n.pending, ¬ Near n.tolerance (n.frequencyOf id) frequency)
    (ho : n'.outline = (n.tolerance, n.pinned, n.scanned, n.pending ++ [n.frequencies.length],
      n.frequencies ++ [frequency])) : n'.Separate := by
  simp only [outline, Prod.mk.injEq] at ho
  obtain ⟨ht, -, hsc, hpe, hf⟩ := ho
  have hfreq := frequencyOf_of_append hf
  have hnew : n'.frequencyOf n.frequencies.length = frequency := by rw [hfreq, if_pos rfl]
  have hold {j : Nat} (hj : j ∈ n.scanned ++ n.pending) : n'.frequencyOf j = n.frequencyOf j := by
    rw [hfreq, if_neg (Nat.ne_of_lt (hr j hj))]
  unfold Separate
  rw [ht, hsc, hpe, ← List.append_assoc]
  intro i hi j hj hij hnear
  rw [List.mem_append, List.mem_singleton] at hi hj
  obtain hi | rfl := hi
  · obtain hj | rfl := hj
    · rw [hold hi, hold hj] at hnear
      exact hs i hi j hj hij hnear
    · rw [hold hi, hnew] at hnear
      exact hfar i hi hnear
  · obtain hj | rfl := hj
    · rw [hold hj, hnew] at hnear
      exact hfar j hj hnear.symm
    · exact hij rfl

theorem separate_register (h : Enrolled n) (hs : n.Separate) (d : Description) :
    (n.register d).Separate ↔ ¬ n.Between d.frequency := by
  obtain ⟨id, hid, hnear, ho⟩ | ⟨hfar, ho⟩ := outline_register h.unpinned h.lt d
  · exact separate_move hs hid (h.lt id hid) hnear ho
  · refine iff_of_true (separate_alloc hs h.lt hfar ho) ?_
    rintro ⟨i, hi, -, -, -, hni, -⟩
    exact hfar i hi hni

/-- A multiplex of a network table is read, or a transponder has been scanned. -/
inductive Step where
  | entry (networkId : Nat) (m : Multiplex)
  | mark (id : Nat)

def Step.listed (o : ReadOptions) : Step → List Nat
  | .entry _ m => if m.delivery.any (·.kind = o.kind) then [m.frequency] else []
  | .mark _ => []

def step (o : ReadOptions) (n : Network) : Step → Network
  | .entry networkId m => n.readMultiplex o networkId m
  | .mark id => n.markScanned id

def run (o : ReadOptions) (l : List Step) (n : Network) : Network := l.foldl (step o) n

theorem samePlaces_readChannels (o : ReadOptions) (m : Multiplex) (n : Network) :
    SamePlaces n (n.readChannels o m) := .of_outline (outline_readChannels o m)

theorem samePlaces_markScanned (id : Nat) (n : Network) : SamePlaces n (n.markScanned id) := by
  have hf (n : Network) :
      (n.modify id fun tp => { tp with scanDone := true }).frequencies = n.frequencies :=
    frequencies_modify id fun _ => rfl
  unfold markScanned
  split
  · next hp =>
    refine ⟨rfl, fun j => ?_, ?_⟩
    · have hid : id ∈ n.pending := List.contains_iff_mem.1 hp
      have hperm := (List.perm_cons_erase hid).mem_iff (a := j)
      simp only [modify, List.append_assoc, List.mem_append, hperm, List.mem_cons,
        List.not_mem_nil, or_false]
    · funext j
      rw [frequencyOf, hf]
      rfl
  · refine .of_outline ?_
    exact outline_modify id fun _ => rfl

theorem Enrolled.readChannels (h : Enrolled n) (o : ReadOptions) (m : Multiplex) :
    Enrolled (n.readChannels o m) where
  unpinned := (congrArg (·.2.1) (outline_readChannels o m)).trans h.unpinned
  inOrder := by
    rw [readChannels_eq]
    exact List.foldlRecOn _ _ h.inOrder fun n hn c _ => hn.setChannel c

theorem Enrolled.step (h : Enrolled n) (o : ReadOptions) (e : Step) : Enrolled (n.step o e) := by
  cases e with
  | entry networkId m =>
    refine ⟨?_, h.inOrder.readMultiplex o networkId m⟩
    have hp := (h.readChannels o m).unpinned
    dsimp only [Network.step, readMultiplex]
    split
    · exact (congrArg (·.2.1) (fixture_register _ _)).trans hp
    · exact hp
  | mark id =>
    refine ⟨?_, h.inOrder.markScanned id⟩
    have hp := h.unpinned
    dsimp only [Network.step, markScanned]
    split
    · exact hp
    · exact hp

/-- A step keeps the transponders apart unless its entry is between two of them. -/
theorem separate_step (h : Enrolled n) (hs : n.Separate) (e : Step) :
    (n.step o e).Separate ↔ ∀ f ∈ e.listed o, ¬ n.Between f := by
  cases e with
  | mark id =>
    refine iff_of_true ((samePlaces_markScanned id n).separate.2 hs) ?_
    intro f hf
    exact absurd hf List.not_mem_nil
  | entry networkId m =>
    have hp := samePlaces_readChannels o m n
    have hc := hp.separate.2 hs
    dsimp only [step, readMultiplex, Step.listed]
    by_cases hm : m.delivery.any (·.kind = o.kind) = true
    · rw [if_pos hm, if_pos hm, List.forall_mem_singleton]
      exact (separate_register (h.readChannels o m) hc (description networkId m)).trans
        (not_congr hp.between)
    · rw [if_neg hm, if_neg hm]
      refine iff_of_true hc ?_
      intro f hf
      exact absurd hf List.not_mem_nil

section Prefixes

variable {a : Step} {l : List Step}

theorem forall_prefix_cons {P : List Step → Prop} :
    (∀ p, p <+: a :: l → P p) ↔ P [] ∧ ∀ p, p <+: l → P (a :: p) := by
  constructor
  · intro h
    refine ⟨h [] List.nil_prefix, fun p hp => ?_⟩
    exact h (a :: p) (List.cons_prefix_cons.2 ⟨rfl, hp⟩)
  · rintro ⟨hnil, hcons⟩ p hp
    cases p with
    | nil => exact hnil
    | cons b p =>
      obtain ⟨rfl, hp'⟩ := List.cons_prefix_cons.1 hp
      exact hcons p hp'

theorem forall_moment_cons {P : List Step → Step → Prop} :
    (∀ p e, p ++ [e] <+: a :: l → P p e) ↔ P [] a ∧ ∀ p e, p ++ [e] <+: l → P (a :: p) e := by
  constructor
  · intro h
    refine ⟨h [] a (List.cons_prefix_cons.2 ⟨rfl, List.nil_prefix⟩), fun p e hp => ?_⟩
    exact h (a :: p) e (List.cons_prefix_cons.2 ⟨rfl, hp⟩)
  · rintro ⟨hnil, hcons⟩ p e hp
    cases p with
    | nil =>
      obtain ⟨rfl, -⟩ := List.cons_prefix_cons.1 hp
      exact hnil
    | cons b p =>
      obtain ⟨rfl, hp'⟩ := List.cons_prefix_cons.1 hp
      exact hcons p e hp'

/-- The transponders stay apart as long as no entry is between two of them. -/
theorem separate_run_iff (h : Enrolled n) (hs : n.Separate) (l : List Step) :
    (∀ p, p <+: l → (run o p n).Separate) ↔
      ∀ p e, p ++ [e] <+: l → ∀ f ∈ e.listed o, ¬ (run o p n).Between f := by
  induction l generalizing n with
  | nil =>
    refine iff_of_true (fun p hp => ?_) fun p e hp => ?_
    · rw [List.prefix_nil.1 hp]
      exact hs
    · simp at hp
  | cons a l ih =>
    have hstep := separate_step (o := o) h hs a
    rw [forall_prefix_cons, forall_moment_cons]
    constructor
    · rintro ⟨-, hall⟩
      have hb := hall [] List.nil_prefix
      exact ⟨hstep.1 hb, (ih (h.step o a) hb).1 hall⟩
    · rintro ⟨ha, hall⟩
      exact ⟨hs, (ih (h.step o a) (hstep.2 ha)).2 hall⟩

end Prefixes

variable {listed : List Nat}

def Within (listed : List Nat) (n : Network) : Prop :=
  ∀ id ∈ n.scanned ++ n.pending, n.frequencyOf id ∈ listed

theorem SamePlaces.within (h : SamePlaces n n') : Within listed n' ↔ Within listed n := by
  unfold Within
  simp only [h.listed, h.frequencyOf]

theorem within_register (h : Enrolled n) (hw : Within listed n) {d : Description}
    (hd : d.frequency ∈ listed) : Within listed (n.register d) := by
  obtain ⟨id, hid, -, ho⟩ | ⟨-, ho⟩ := outline_register h.unpinned h.lt d
  · simp only [outline, Prod.mk.injEq] at ho
    obtain ⟨-, -, hsc, hpe, hf⟩ := ho
    intro j hj
    rw [hsc, hpe] at hj
    rw [frequencyOf_of_set (h.lt id hid) hf]
    split
    · exact hd
    · exact hw j hj
  · simp only [outline, Prod.mk.injEq] at ho
    obtain ⟨-, -, hsc, hpe, hf⟩ := ho
    intro j hj
    rw [hsc, hpe, ← List.append_assoc, List.mem_append, List.mem_singleton] at hj
    rw [frequencyOf_of_append hf]
    split
    · exact hd
    · next hne => exact hw j (hj.resolve_right hne)

theorem within_step (h : Enrolled n) (hw : Within listed n) {e : Step}
    (he : ∀ f ∈ e.listed o, f ∈ listed) : Within listed (n.step o e) := by
  cases e with
  | mark id => exact (samePlaces_markScanned id n).within.2 hw
  | entry networkId m =>
    have hc := (samePlaces_readChannels o m n).within.2 hw
    dsimp only [step, readMultiplex, Step.listed] at he ⊢
    by_cases hm : m.delivery.any (·.kind = o.kind) = true
    · rw [if_pos hm, List.forall_mem_singleton] at he
      rw [if_pos hm]
      exact within_register (h.readChannels o m) hc he
    · rw [if_neg hm]
      exact hc

theorem not_between (hsort : Sorted n.tolerance listed) (hs : n.Separate) (hw : Within listed n)
    (hf : frequency ∈ listed) : ¬ n.Between frequency := by
  rintro ⟨i, hi, j, hj, hij, hni, hnj⟩
  exact hs i hi j hj hij (hsort _ (hw i hi) _ hf _ (hw j hj) hni hnj.symm)

theorem tolerance_step (o : ReadOptions) (e : Step) (n : Network) :
    (n.step o e).tolerance = n.tolerance := by
  cases e with
  | mark id => exact (samePlaces_markScanned id n).tolerance
  | entry networkId m =>
    have hc := (samePlaces_readChannels o m n).tolerance
    dsimp only [step, readMultiplex]
    split
    · exact (congrArg (·.1) (fixture_register _ _)).trans hc
    · exact hc

theorem separate_run_of_sorted (hsort : Sorted n.tolerance listed) (h : Enrolled n)
    (hs : n.Separate) (hw : Within listed n) {l : List Step}
    (hl : ∀ e ∈ l, ∀ f ∈ e.listed o, f ∈ listed) : ∀ p, p <+: l → (run o p n).Separate := by
  induction l generalizing n with
  | nil =>
    intro p hp
    rw [List.prefix_nil.1 hp]
    exact hs
  | cons e l ih =>
    rw [List.forall_mem_cons] at hl
    have he := (separate_step h hs e).2 fun f hf => not_between hsort hs hw (hl.1 f hf)
    rw [← tolerance_step o e n] at hsort
    exact forall_prefix_cons.2 ⟨hs, ih hsort (h.step o e) he (within_step h hw hl.1) hl.2⟩

inductive Happening where
  | table (pid : Nat) (s : Section)
  | scanned (id : Nat)

def happen (o : ReadOptions) (n : Network) : Happening → Network
  | .table pid s => (n.read o pid s).network
  | .scanned id => n.markScanned id

def Happening.steps : Happening → List Step
  | .table _ s =>
    match Nit.parse s with
    | .ok t => t.multiplexes.map (.entry t.networkId)
    | .error _ => []
  | .scanned id => [.mark id]

theorem happen_table (o : ReadOptions) (pid : Nat) {s : Section} (hs : s.IsNit) (n : Network) :
    n.happen o (.table pid s) = run o (Happening.table pid s).steps n := by
  rw [happen, (read_effects o pid s n).network, edits_nit hs, editServices_nil, readTransponders,
    if_pos hs, run, Happening.steps]
  cases Nit.parse s with
  | error e => rfl
  | ok t =>
    dsimp only
    rw [List.foldl_map]
    rfl

theorem foldl_happen (o : ReadOptions) {hs : List Happening}
    (hn : ∀ pid s, .table pid s ∈ hs → s.IsNit) (n : Network) :
    hs.foldl (happen o) n = run o (hs.flatMap Happening.steps) n := by
  induction hs generalizing n with
  | nil => rfl
  | cons a hs ih =>
    have hstep : n.happen o a = run o a.steps n := by
      cases a with
      | table pid s => exact happen_table o pid (hn pid s List.mem_cons_self) n
      | scanned id => rfl
    rw [List.foldl_cons, ih fun pid s hm => hn pid s (List.mem_cons_of_mem _ hm), hstep,
      List.flatMap_cons, run, run, run, List.foldl_append]

/-- Whatever network tables arrive while transponders are scanned, the transponders stay the
tolerance apart as long as no entry is between two of them, and no longer. None ever is if
closeness sorts the frequencies that are listed into multiplexes. -/
theorem separate_iff (tolerance : Nat) (inversion : Inversion) (o : ReadOptions)
    {hs : List Happening} (hn : ∀ pid s, .table pid s ∈ hs → s.IsNit) :
    let blank : Network := { tolerance, inversion }
    let steps := hs.flatMap Happening.steps
    hs.foldl (happen o) blank = run o steps blank ∧
    ((∀ p, p <+: steps → (run o p blank).Separate) ↔
      ∀ p e, p ++ [e] <+: steps → ∀ f ∈ e.listed o, ¬ (run o p blank).Between f) ∧
    (Sorted tolerance (steps.flatMap (Step.listed o)) →
      ∀ p, p <+: steps → (run o p blank).Separate) := by
  intro blank steps
  have hblank : blank.Enrolled := ⟨rfl, Reachable.inOrder (.new tolerance inversion)⟩
  have hsep : blank.Separate := fun i hi => absurd hi List.not_mem_nil
  have hwithin : Within (steps.flatMap (Step.listed o)) blank :=
    fun id hid => absurd hid List.not_mem_nil
  refine ⟨foldl_happen o hn blank, separate_run_iff hblank hsep steps, fun hsort => ?_⟩
  apply separate_run_of_sorted hsort hblank hsep hwithin
  intro e he f hf
  exact List.mem_flatMap.2 ⟨e, he, hf⟩

/-! ### Entries that drift, and one between two transponders -/

def receiving : ReadOptions := { kind := .terrestrial, channelNumbers := false, mapTimeout := 1 }

/-- A network table with a terrestrial multiplex for each of the coded frequencies. -/
def multiplexTable (frequencies : List (UInt8 × UInt8)) : Section :=
  { header := { tableId := 0x40, longForm := true, length := 0, ext := 1 }
    payload := [0xF0, 0x00, 0xF0, UInt8.ofNat (19 * frequencies.length)] ++
      frequencies.flatMap fun (high, low) =>
        [0x00, 0x01, 0x00, 0x01, 0xF0, 0x0D, 0x5A, 0x0B, 0x03, 0x04, high, low,
          0x1F, 0x81, 0x02, 0xFF, 0xFF, 0xFF, 0xFF] }

/-- The multiplex at 506 MHz drifts by 1500 Hz towards another one, which is 5000 Hz away. -/
def drifting : List Happening :=
  [.table 16 (multiplexTable [(0x18, 0x40), (0x1A, 0x34)]), .scanned 0,
    .table 16 (multiplexTable [(0x18, 0xD6)])]

theorem separate_iff_drifting :
    (∀ pid s, Happening.table pid s ∈ drifting → s.IsNit) ∧
      (drifting.foldl (happen receiving) { tolerance := 2000, inversion := .auto }).frequencies =
        [506001500, 506005000] ∧
      ∀ p, p <+: drifting.flatMap Happening.steps →
        (run receiving p { tolerance := 2000, inversion := .auto }).Separate := by
  have hn : ∀ pid s, Happening.table pid s ∈ drifting → s.IsNit := by
    intro pid s hm
    simp only [drifting, List.mem_cons, Happening.table.injEq, List.not_mem_nil, or_false,
      reduceCtorEq, false_or] at hm
    obtain ⟨-, rfl⟩ | ⟨-, rfl⟩ := hm
    · exact .inl rfl
    · exact .inl rfl
  have hsort : Sorted 2000
      ((drifting.flatMap Happening.steps).flatMap (Step.listed receiving)) := by
    unfold Sorted
    decide +kernel
  refine ⟨hn, by decide +kernel, ?_⟩
  exact (separate_iff 2000 .auto receiving hn).2.2 hsort

/-- The third entry is near the first two, which are 3000 Hz apart, and takes one of them along. -/
theorem not_separate_between :
    let s := multiplexTable [(0x18, 0x40), (0x19, 0x6C), (0x18, 0xD6)]
    let n := (Network.read receiving 16 s { tolerance := 2000, inversion := .auto }).network
    s.IsNit ∧ n.pending = [0, 1] ∧ n.frequencies = [506001500, 506003000] ∧ ¬ n.Separate := by
  decide +kernel

end Bandscan.Network
