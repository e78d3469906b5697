import Mathlib.Data.Finset.Lattice.Fold
import Mathlib.Order.Lattice.Nat
import Bandscan.Kernel.FilterNode
import Bandscan.Proofs.SchedulerFrame
/-!
A demux node can be open only so many times, and a filter keeps its slot until its descriptor is
closed. A filter that is removed is closed after the waiting filters have had their turn, so that
its own slot is not among those that they can get, and is left idle unless there is one to spare.
-/

namespace Bandscan

/-- The node can be open `slots` times: `opened` are its descriptors, and while there are so many,
opening it once more fails, for one reason or another. Filters are never refused. -/
structure Kernel.Bounded {κ : Type} (k : Kernel κ) (path : String) (slots : Nat)
    (opened : κ → Finset Nat) : Prop where
  grants : ∀ w, (opened w.device).card < slots → ∃ fd w',
    k.call (.openNode path true true) w = (.ok fd, w') ∧ fd ∉ opened w.device ∧
      opened w'.device = insert fd (opened w.device)
  refuses : ∀ w, slots ≤ (opened w.device).card → ∃ e w',
    k.call (.openNode path true true) w = (.error e, w') ∧
      (e = Errno.tooManyOpen ∨ e = Errno.tooManyOpenInSystem ∨ e = Errno.busy) ∧
      opened w'.device = opened w.device
  accepts : ∀ fd pid pattern timeout flags w, fd ∈ opened w.device → ∃ w',
    k.call (.setFilter fd pid pattern timeout flags) w = (.ok (), w') ∧
      opened w'.device = opened w.device
  stops : ∀ fd w, opened (k.call (.stopFilter fd) w).2.device = opened w.device
  closes : ∀ fd w, opened (k.call (.close fd) w).2.device = (opened w.device).erase fd

def Kernel.ofSlots (slots : Nat) : Kernel (Finset Nat) where
  call c := match c with
    | .openNode .. => fun w =>
      let fd := w.device.sup id + 1
      if w.device.card < slots then (.ok fd, w.withDevice (insert fd))
      else (.error Errno.tooManyOpen, w)
    | .close fd => fun w => (.ok (), w.withDevice (·.erase fd))
    | .poll fds _ => fun w => (.ok (fds.map fun _ => 0), w)
    | .read .. => fun w => (.error Errno.again, w)
    | .getInfo _ => fun w => (.ok {}, w)
    | .readStatus _ => fun w => (.ok 0, w)
    | .setTone .. | .setVoltage .. | .setFrontend .. | .setFilter .. | .stopFilter _ =>
      fun w => (.ok (), w)

theorem Kernel.ofSlots_bounded (path : String) (slots : Nat) :
    (ofSlots slots).Bounded path slots id where
  grants w h := by
    refine ⟨w.device.sup id + 1, w.withDevice (insert (w.device.sup id + 1)), ?_, ?_, rfl⟩
    · exact if_pos h
    · intro hm
      exact absurd (Finset.le_sup (f := id) hm) (Nat.not_succ_le_self _)
  refuses w h := ⟨Errno.tooManyOpen, w, if_neg (Nat.not_lt.2 h), .inl rfl, rfl⟩
  accepts _ _ _ _ _ w _ := ⟨w, rfl, rfl⟩
  stops _ _ := rfl
  closes _ _ := rfl

namespace Scheduler

variable {κ : Type} {k : Kernel κ} {path : String} {slots : Nat} {opened : κ → Finset Nat}
  {held : Finset Nat} {s : Scheduler FilterNode} {w : World κ}

def descriptors (s : Scheduler FilterNode) : List Nat := s.running.map (·.handle.fd)

/-- The open descriptors are those of the running filters, one for each, and those that are held
for filters on their way out. -/
structure Holding (opened : κ → Finset Nat) (held : Finset Nat) (s : Scheduler FilterNode)
    (w : World κ) : Prop where
  nodup : s.descriptors.Nodup
  apart : ∀ fd ∈ s.descriptors, fd ∉ held
  opened_eq : opened w.device = held ∪ s.descriptors.toFinset

/-- How many filters can run while some descriptors are held. -/
def seats (slots : Nat) (held : Finset Nat) (s : Scheduler FilterNode) : Nat :=
  min (slots - held.card) s.maxRunning

theorem Holding.card (h : Holding opened held s w) :
    (opened w.device).card = held.card + s.running.length := by
  have hd : Disjoint held s.descriptors.toFinset := by
    apply Finset.disjoint_right.2
    intro fd hfd
    exact h.apart fd (List.mem_toFinset.1 hfd)
  rw [h.opened_eq, Finset.card_union_of_disjoint hd, List.toFinset_card_of_nodup h.nodup]
  exact congrArg (held.card + ·) (List.length_map _)

theorem Holding.world {w' : World κ} (h : Holding opened held s w)
    (hw : opened w'.device = opened w.device) : Holding opened held s w' :=
  ⟨h.nodup, h.apart, hw.trans h.opened_eq⟩

theorem Holding.congr {s' : Scheduler FilterNode} (h : Holding opened held s w)
    (hr : s'.running = s.running) : Holding opened held s' w := by
  have hds : s'.descriptors = s.descriptors := by rw [descriptors, hr, descriptors]
  exact ⟨hds ▸ h.nodup, hds ▸ h.apart, hds ▸ h.opened_eq⟩

theorem Holding.started {w' : World κ} {g : RunningFilter FilterNode}
    (h : Holding opened held s w) (hnew : g.handle.fd ∉ opened w.device)
    (hw : opened w'.device = insert g.handle.fd (opened w.device)) :
    Holding opened held { s with running := s.running ++ [g] } w' := by
  have hds : descriptors { s with running := s.running ++ [g] } =
      s.descriptors ++ [g.handle.fd] := by simp [descriptors]
  rw [h.opened_eq, Finset.notMem_union, List.mem_toFinset] at hnew
  refine ⟨?_, ?_, ?_⟩
  · rw [hds, ← List.concat_eq_append]
    exact h.nodup.concat hnew.2
  · intro fd hfd
    rw [hds, List.mem_append, List.mem_singleton] at hfd
    obtain hfd | rfl := hfd
    · exact h.apart fd hfd
    · exact hnew.1
  · rw [hw, h.opened_eq, hds]
    ext fd
    simp only [Finset.mem_insert, Finset.mem_union, List.mem_toFinset, List.mem_append,
      List.mem_singleton]
    tauto

theorem openFilter_full (hk : k.Bounded path slots opened) (pid tableId : Nat)
    (hw : slots ≤ (opened w.device).card) : ∃ w',
    FilterNode.openFilter k path pid tableId w = (.error .exhausted, w') ∧
      opened w'.device = opened w.device := by
  obtain ⟨e, w', he, hr, ho⟩ := hk.refuses w hw
  refine ⟨w', ?_, ho⟩
  rw [FilterNode.openFilter, he]
  dsimp only
  rw [FilterNode.openError, if_pos hr]

theorem openFilter_free (hk : k.Bounded path slots opened) (pid tableId : Nat)
    (hw : (opened w.device).card < slots) : ∃ fd w',
    FilterNode.openFilter k path pid tableId w = (.ok ⟨fd, pid⟩, w') ∧ fd ∉ opened w.device ∧
      opened w'.device = insert fd (opened w.device) := by
  obtain ⟨fd, w₁, he, hnew, ho⟩ := hk.grants w hw
  have hmem : fd ∈ opened w₁.device := ho ▸ Finset.mem_insert_self fd _
  obtain ⟨w₂, hf, ho₂⟩ := hk.accepts fd pid (FilterNode.pattern tableId) 0 FilterNode.flags
    (w₁.tell (.trace ("start filter pid " ++ Hex.word pid ++ " table_id " ++ Hex.octet tableId)))
    hmem
  refine ⟨fd, w₂, ?_, hnew, ho₂.trans ho⟩
  rw [FilterNode.openFilter, he]
  dsimp only
  rw [hf]

theorem start_seated (hk : k.Bounded path slots opened) (h : Holding opened held s w) (id : Nat)
    (f : FilterSpec) :
    (seats slots held s ≤ s.running.length ∧ ∃ w',
      start (FilterNode.demux k path) id f s w = (.error .exhausted, s, w') ∧
        Holding opened held s w') ∨
    (s.running.length < seats slots held s ∧ ∃ g w', g.id = id ∧
      start (FilterNode.demux k path) id f s w =
        (.ok (), { s with running := s.running ++ [g] }, w') ∧
        Holding opened held { s with running := s.running ++ [g] } w') := by
  have hc := h.card
  by_cases hfull : s.isFull = true
  · left
    have hle : s.maxRunning ≤ s.running.length := of_decide_eq_true hfull
    refine ⟨?_, w, ?_, h⟩
    · exact Nat.le_trans (Nat.min_le_right _ _) hle
    · rw [start, if_pos hfull]
  · have hlt : s.running.length < s.maxRunning := by
      apply Nat.lt_of_not_le
      intro hle
      exact hfull (decide_eq_true hle)
    by_cases hroom : (opened w.device).card < slots
    · right
      obtain ⟨fd, w', ho, hnew, hop⟩ := openFilter_free hk f.pid f.tableId hroom
      refine ⟨?_, ⟨id, f, ⟨fd, f.pid⟩,
        { tableId := f.tableId, segmented := f.segmented }, w'.time⟩,
        w'.tell (.debug ("start filter " ++ f.label)), rfl, ?_, ?_⟩
      · rw [seats]
        omega
      · rw [start, if_neg hfull]
        dsimp only [FilterNode.demux]
        rw [ho]
      · exact h.started hnew hop
    · left
      obtain ⟨w', ho, hop⟩ := openFilter_full hk f.pid f.tableId (Nat.le_of_not_lt hroom)
      refine ⟨?_, w', ?_, h.world hop⟩
      · rw [seats]
        omega
      · rw [start, if_neg hfull]
        dsimp only [FilterNode.demux]
        rw [ho]

theorem add_seated (hk : k.Bounded path slots opened) (h : Holding opened ∅ s w) (f : FilterSpec) :
    (seats slots ∅ s ≤ s.running.length ∧ ∃ w',
      (add (FilterNode.demux k path) f s w).2 = ({ s with
        lastId := s.lastId + 1, waiting := s.waiting ++ [(s.lastId + 1, f)] }, w') ∧
        Holding opened ∅ s w') ∨
    (s.running.length < seats slots ∅ s ∧ ∃ g w', g.id = s.lastId + 1 ∧
      (add (FilterNode.demux k path) f s w).2 = ({ s with
        lastId := s.lastId + 1, running := s.running ++ [g] }, w') ∧
        Holding opened ∅ { s with running := s.running ++ [g] } w') := by
  have hn : Holding opened ∅ { s with lastId := s.lastId + 1 } w :=
    h.congr rfl
  obtain ⟨hs, w', he, hw⟩ | ⟨hs, g, w', hg, he, hw⟩ := start_seated hk hn (s.lastId + 1) f
  · refine .inl ⟨hs, w'.tell (.trace ("queue filter " ++ f.label)), ?_, ?_⟩
    · simp only [add, he]
    · exact Holding.congr (hw.world rfl) rfl
  · refine .inr ⟨hs, g, w', hg, ?_, ?_⟩
    · simp only [add, he]
    · exact hw.congr rfl

/-- Filters that waited, `count` of them, have taken the seats there are. Nobody is dropped, and who
still waits has found none. -/
structure Promoted (slots : Nat) (opened : κ → Finset Nat) (held : Finset Nat)
    (s : Scheduler FilterNode) (count : Nat) (p : Scheduler FilterNode × World κ) : Prop where
  holding : Holding opened held p.1 p.2
  limited : p.1.maxRunning = s.maxRunning
  size : p.1.running.length + p.1.waiting.length = s.running.length + count
  busy : p.1.waiting ≠ [] → seats slots held s ≤ p.1.running.length
  room : s.running.length ≤ seats slots held s → p.1.running.length ≤ seats slots held s

theorem Promoted.stay (h : Holding opened held s w) (hs : seats slots held s ≤ s.running.length)
    (ws : List (Nat × FilterSpec)) :
    Promoted slots opened held s ws.length ({ s with waiting := ws }, w) where
  holding := h.congr rfl
  limited := rfl
  size := rfl
  busy _ := hs
  room := id

theorem Promoted.started {g : RunningFilter FilterNode} {count : Nat}
    {p : Scheduler FilterNode × World κ} (hs : s.running.length < seats slots held s)
    (h : Promoted slots opened held { s with running := s.running ++ [g] } count p) :
    Promoted slots opened held s (count + 1) p := by
  have hlen : (s.running ++ [g]).length = s.running.length + 1 := by simp
  refine ⟨h.holding, h.limited, ?_, h.busy, fun _ => ?_⟩
  · rw [h.size, hlen]
    omega
  · apply h.room
    rw [hlen]
    exact hs

theorem promoteFrom_seated (hk : k.Bounded path slots opened) (ws : List (Nat × FilterSpec))
    (h : Holding opened held s w) :
    Promoted slots opened held s ws.length
      (promoteFrom (FilterNode.demux k path) ws s w) := by
  induction ws generalizing s w with
  | nil => exact ⟨h.congr rfl, rfl, rfl, fun hw => absurd rfl hw, id⟩
  | cons p ws ih =>
    obtain ⟨hs, w', he, hw⟩ | ⟨hs, g, w', -, he, hw⟩ := start_seated hk h p.1 p.2
    · by_cases hfull : s.isFull = true
      · rw [promoteFrom, if_pos hfull]
        exact .stay h hs (p :: ws)
      · rw [promoteFrom, if_neg hfull, he]
        exact .stay hw hs (p :: ws)
    · have hfree : ¬ s.isFull = true := by
        intro hfull
        have hle : s.maxRunning ≤ s.running.length := of_decide_eq_true hfull
        have hseat : seats slots held s ≤ s.maxRunning := Nat.min_le_right _ _
        omega
      rw [promoteFrom, if_neg hfree, he]
      exact (ih hw).started hs

theorem opened_halt (hk : k.Bounded path slots opened) (f : RunningFilter FilterNode)
    (w : World κ) : opened (halt (FilterNode.demux k path) f w).device = opened w.device := by
  have hs := hk.stops f.handle.fd (w.tell (.debug ("stop filter pid " ++ Hex.word f.handle.pid)))
  unfold halt
  dsimp only [FilterNode.demux, FilterNode.stop]
  generalize k.call (.stopFilter f.handle.fd)
    (w.tell (.debug ("stop filter pid " ++ Hex.word f.handle.pid))) = r at hs
  obtain ⟨_ | _, w'⟩ := r
  · exact hs
  · exact hs

theorem Holding.leave {f : RunningFilter FilterNode} {fs gs : List (RunningFilter FilterNode)}
    (h : Holding opened ∅ s w) (hr : s.running = fs ++ f :: gs) :
    Holding opened {f.handle.fd} { s with running := fs ++ gs } w := by
  have hds : s.descriptors.Perm (f.handle.fd :: descriptors { s with running := fs ++ gs }) := by
    rw [descriptors, hr, descriptors, List.map_append, List.map_append, List.map_cons]
    exact List.perm_middle
  have hn := hds.nodup_iff.1 h.nodup
  rw [List.nodup_cons] at hn
  refine ⟨hn.2, ?_, ?_⟩
  · intro fd hfd he
    rw [Finset.mem_singleton.1 he] at hfd
    exact hn.1 hfd
  · rw [h.opened_eq, Finset.empty_union, List.toFinset_eq_of_perm _ _ hds, List.toFinset_cons]
    rfl

theorem Holding.closed {fd : Nat} {w' : World κ} (h : Holding opened {fd} s w)
    (hw : opened w'.device = (opened w.device).erase fd) : Holding opened ∅ s w' := by
  refine ⟨h.nodup, fun _ _ => Finset.notMem_empty _, ?_⟩
  have hout : fd ∉ s.descriptors.toFinset := by
    intro hm
    exact h.apart fd (List.mem_toFinset.1 hm) (Finset.mem_singleton_self fd)
  rw [hw, h.opened_eq, Finset.empty_union, ← Finset.insert_eq, Finset.erase_insert hout]

/-- The waiting filters take their seats while the one that is removed still has its own. -/
theorem remove_seated (hk : k.Bounded path slots opened) (h : Holding opened ∅ s w) {id : Nat}
    (hid : id ∈ s.running.map (·.id)) (hroom : s.running.length ≤ min slots s.maxRunning) :
    let r := (remove (FilterNode.demux k path) id s w).2
    Holding opened ∅ r.1 r.2 ∧ r.1.maxRunning = s.maxRunning ∧
      r.1.running.length + r.1.waiting.length + 1 = s.running.length + s.waiting.length ∧
      (r.1.waiting ≠ [] → min (slots - 1) s.maxRunning ≤ r.1.running.length) ∧
      r.1.running.length ≤ min (slots - 1) s.maxRunning := by
  obtain ⟨g, hg, rfl⟩ := List.mem_map.1 hid
  have hfound : (s.running.find? (·.id = g.id)).isSome :=
    List.find?_isSome.2 ⟨g, hg, decide_eq_true rfl⟩
  obtain ⟨f, hf⟩ := Option.isSome_iff_exists.1 hfound
  obtain ⟨fs, gs, hr, he⟩ := exists_of_find? hf
  have hlen : s.running.length = (fs ++ gs).length + 1 := by
    rw [hr, List.length_append, List.length_append, List.length_cons]
    omega
  have hleave := (h.leave hr).world (opened_halt hk f w)
  obtain ⟨hh, hm, hsize, hbusy, hseat⟩ := promoteFrom_seated hk s.waiting hleave
  have hseats : seats slots {f.handle.fd} { s with running := fs ++ gs } =
      min (slots - 1) s.maxRunning := by rw [seats, Finset.card_singleton]
  rw [hseats] at hbusy hseat
  rw [remove, hf, he]
  refine ⟨hh.closed (hk.closes f.handle.fd _), hm, ?_, hbusy, hseat ?_⟩
  · rw [hlen]
    dsimp only [promote] at hsize ⊢
    omega
  · dsimp only
    omega

theorem remove_absent (d : Demux κ FilterNode) {id : Nat} (hid : id ∉ s.running.map (·.id)) :
    (remove d id s w).2 = ({ s with waiting := s.waiting.eraseP (·.1 = id) }, w) := by
  have hf : s.running.find? (·.id = id) = none := by
    apply List.find?_eq_none.2
    intro f hf he
    exact hid (List.mem_map.2 ⟨f, hf, of_decide_eq_true he⟩)
  rw [remove, hf]

inductive Change where
  | add (f : FilterSpec)
  | remove (id : Nat)

variable {δ φ : Type}

def change (d : Demux δ φ) (p : Scheduler φ × World δ) : Change → Scheduler φ × World δ
  | .add f => (add d f p.1 p.2).2
  | .remove id => (remove d id p.1 p.2).2

def changeAll (d : Demux δ φ) (cs : List Change) (p : Scheduler φ × World δ) :
    Scheduler φ × World δ := cs.foldl (change d) p

theorem changeAll_concat (d : Demux δ φ) (cs : List Change) (c : Change)
    (p : Scheduler φ × World δ) :
    changeAll d (cs ++ [c]) p = change d (changeAll d cs p) c := by
  simp [changeAll]

def Saturated (n : Nat) (s : Scheduler φ) : Prop := s.waiting = [] ∨ s.running.length = n

instance (n : Nat) (s : Scheduler φ) : Decidable (Saturated n s) :=
  inferInstanceAs (Decidable (_ ∨ _))

/-- What holds after every change: no descriptor is leaked, and at most one slot is idle while a
filter waits. -/
structure Seated (slots limit : Nat) (opened : κ → Finset Nat)
    (p : Scheduler FilterNode × World κ) : Prop where
  holding : Holding opened ∅ p.1 p.2
  limited : p.1.maxRunning = max 1 limit
  room : p.1.running.length ≤ min slots (max 1 limit)
  busy : p.1.waiting ≠ [] → min (slots - 1) (max 1 limit) ≤ p.1.running.length

section Changes

variable {limit : Nat} {p : Scheduler FilterNode × World κ}

theorem Seated.ofLimit (hw : opened w.device = ∅) :
    Seated slots limit opened (Scheduler.ofLimit limit, w) where
  holding := ⟨List.nodup_nil, fun _ _ => Finset.notMem_empty _, hw⟩
  limited := rfl
  room := Nat.zero_le _
  busy hn := absurd rfl hn

theorem Seated.add (hk : k.Bounded path slots opened) (h : Seated slots limit opened p)
    (f : FilterSpec) :
    let p' := change (FilterNode.demux k path) p (.add f)
    Seated slots limit opened p' ∧ Saturated (min slots (max 1 limit)) p'.1 ∧
      p'.1.running.length + p'.1.waiting.length = p.1.running.length + p.1.waiting.length + 1 ∧
      p.1.running.map (·.id) <+: p'.1.running.map (·.id) := by
  have hroom := h.room
  have hseats : seats slots ∅ p.1 = min slots (max 1 limit) := by
    rw [seats, h.limited, Finset.card_empty, Nat.sub_zero]
  obtain ⟨hs, w', he, hw⟩ | ⟨hs, g, w', -, he, hw⟩ := add_seated hk h.holding f
  · rw [change, he]
    rw [hseats] at hs
    refine ⟨⟨hw.congr rfl, h.limited, hroom, fun _ => ?_⟩,
      .inr (Nat.le_antisymm hroom hs), ?_, List.prefix_rfl⟩
    · dsimp only
      omega
    · simp only [List.length_append, List.length_singleton]
      omega
  · rw [change, he]
    rw [hseats] at hs
    have hlen : (p.1.running ++ [g]).length = p.1.running.length + 1 := by simp
    refine ⟨⟨hw.congr rfl, h.limited, ?_, fun hn => ?_⟩, ?_, ?_, ?_⟩
    · exact hlen ▸ hs
    · exact Nat.le_trans (h.busy hn) (hlen ▸ Nat.le_succ _)
    · -- a filter that comes while others wait takes the slot that was idle
      by_cases hn : p.1.waiting = []
      · exact .inl hn
      · right
        have hb := h.busy hn
        rw [hlen]
        omega
    · dsimp only
      rw [hlen]
      omega
    · rw [List.map_append]
      exact List.prefix_append _ _

theorem Seated.remove (hk : k.Bounded path slots opened) (h : Seated slots limit opened p)
    {id : Nat} (hid : id ∈ p.1.running.map (·.id)) :
    let p' := change (FilterNode.demux k path) p (.remove id)
    Seated slots limit opened p' ∧ Saturated (min (slots - 1) (max 1 limit)) p'.1 ∧
      p'.1.running.length ≤ slots - 1 ∧
      p'.1.running.length + p'.1.waiting.length + 1 =
        p.1.running.length + p.1.waiting.length := by
  have hroom : p.1.running.length ≤ min slots p.1.maxRunning := h.limited ▸ h.room
  obtain ⟨hh, hm, hsize, hbusy, hle⟩ := remove_seated hk h.holding hid hroom
  rw [h.limited] at hbusy hle hm
  refine ⟨⟨hh, hm, ?_, hbusy⟩, ?_, Nat.le_trans hle (Nat.min_le_left _ _), hsize⟩
  · dsimp only [change]
    omega
  · by_cases hn : (Scheduler.remove (FilterNode.demux k path) id p.1 p.2).2.1.waiting = []
    · exact .inl hn
    · exact .inr (Nat.le_antisymm hle (hbusy hn))

theorem Seated.forget (h : Seated slots limit opened p) (d : Demux κ FilterNode) {id : Nat}
    (hid : id ∉ p.1.running.map (·.id)) :
    Seated slots limit opened (change d p (.remove id)) ∧
      (change d p (.remove id)).1.running = p.1.running := by
  rw [change, remove_absent d hid]
  refine ⟨⟨h.holding.congr rfl, h.limited, h.room, ?_⟩, rfl⟩
  intro hn
  apply h.busy
  intro hnil
  exact hn (by rw [hnil]; rfl)

theorem Seated.change (hk : k.Bounded path slots opened) (h : Seated slots limit opened p)
    (c : Change) : Seated slots limit opened (change (FilterNode.demux k path) p c) := by
  cases c with
  | add f => exact (h.add hk f).1
  | remove id =>
    by_cases hid : id ∈ p.1.running.map (·.id)
    · exact (h.remove hk hid).1
    · exact (h.forget (FilterNode.demux k path) hid).1

theorem Seated.changeAll (hk : k.Bounded path slots opened) (h : Seated slots limit opened p)
    (cs : List Change) : Seated slots limit opened (changeAll (FilterNode.demux k path) cs p) := by
  induction cs generalizing p with
  | nil => exact h
  | cons c cs ih => exact ih (h.change hk c)

theorem running_addMany (hk : k.Bounded path slots opened) (hs : 0 < slots) (limit : Nat)
    (hw : opened w.device = ∅) (f : FilterSpec) (n : Nat) :
    let p := Scheduler.changeAll (FilterNode.demux k path) (List.replicate (n + 1) (.add f))
      (Scheduler.ofLimit limit, w)
    1 ∈ p.1.running.map (·.id) ∧ p.1.running.length + p.1.waiting.length = n + 1 := by
  have hfresh : Seated slots limit opened (Scheduler.ofLimit limit, w) := .ofLimit hw
  induction n with
  | zero =>
    have hseats : 0 < seats slots ∅ (Scheduler.ofLimit limit : Scheduler FilterNode) := by
      rw [seats, Finset.card_empty]
      exact Nat.lt_min.2 ⟨hs, Nat.lt_of_lt_of_le Nat.zero_lt_one (Nat.le_max_left 1 limit)⟩
    refine ⟨?_, (hfresh.add hk f).2.2.1⟩
    obtain ⟨hle, -⟩ | ⟨-, g, w', hg, he, -⟩ := add_seated hk hfresh.holding f
    · exact absurd hseats (Nat.not_lt.2 hle)
    · have hone : (Scheduler.changeAll (FilterNode.demux k path) (List.replicate 1 (.add f))
          (Scheduler.ofLimit limit, w)).1.running = [g] := congrArg (·.1.running) he
      rw [hone]
      exact List.mem_singleton.2 hg.symm
  | succ n ih =>
    obtain ⟨hid, hsize⟩ := ih
    obtain ⟨-, -, hsize', hpre⟩ :=
      (hfresh.changeAll hk (List.replicate (n + 1) (.add f))).add hk f
    rw [List.replicate_succ', changeAll_concat]
    refine ⟨hpre.subset hid, ?_⟩
    rw [hsize', hsize]

theorem Seated.saturated (h : Seated slots limit opened p) (hlt : max 1 limit < slots) :
    Saturated (min slots (max 1 limit)) p.1 := by
  have hroom := h.room
  by_cases hn : p.1.waiting = []
  · exact .inl hn
  · right
    have hb := h.busy hn
    omega

/-- Without a slot to spare, one filter too many is added, and then the first of them is removed. -/
theorem exists_idle (hk : k.Bounded path slots opened) (hs : 0 < slots) (limit : Nat)
    (hw : opened w.device = ∅) (hle : slots ≤ max 1 limit) :
    ∃ cs, ¬ Saturated (min slots (max 1 limit))
      (Scheduler.changeAll (FilterNode.demux k path) cs (Scheduler.ofLimit limit, w)).1 := by
  obtain ⟨hid, hsize⟩ := running_addMany hk hs limit hw (.once 0 0 0) slots
  have hfresh : Seated slots limit opened (Scheduler.ofLimit limit, w) := .ofLimit hw
  obtain ⟨-, -, hrun, hsize'⟩ :=
    (hfresh.changeAll hk (List.replicate (slots + 1) (.add (.once 0 0 0)))).remove hk hid
  refine ⟨List.replicate (slots + 1) (.add (.once 0 0 0)) ++ [.remove 1], ?_⟩
  rw [changeAll_concat]
  rintro (hnil | hlen)
  · rw [hnil, List.length_nil] at hsize'
    omega
  · omega

end Changes

/-- After a filter has been added no slot is idle, after one was removed one is, if the node has no
more slots than the scheduler wants. So no slot is ever idle exactly if the node has a slot to
spare. -/
theorem saturated_iff (hk : k.Bounded path slots opened) (hs : 0 < slots) (limit : Nat)
    (hw : opened w.device = ∅) :
    let after (cs : List Change) :=
      changeAll (FilterNode.demux k path) cs (Scheduler.ofLimit limit, w)
    (∀ cs, (opened (after cs).2.device).card = (after cs).1.running.length) ∧
    (∀ cs f, Saturated (min slots (max 1 limit)) (after (cs ++ [.add f])).1) ∧
    (∀ cs id, id ∈ (after cs).1.running.map (·.id) →
      Saturated (min (slots - 1) (max 1 limit)) (after (cs ++ [.remove id])).1) ∧
    (∀ cs id, id ∉ (after cs).1.running.map (·.id) →
      (after (cs ++ [.remove id])).1.running = (after cs).1.running) ∧
    ((∀ cs, Saturated (min slots (max 1 limit)) (after cs).1) ↔ max 1 limit < slots) := by
  intro after
  have hafter (cs : List Change) : Seated slots limit opened (after cs) :=
    (Seated.ofLimit hw).changeAll hk cs
  refine ⟨fun cs => ?_, fun cs f => ?_, fun cs id hid => ?_, fun cs id hid => ?_, ?_, ?_⟩
  · have hc := (hafter cs).holding.card
    rwa [Finset.card_empty, Nat.zero_add] at hc
  · dsimp only [after]
    rw [changeAll_concat]
    exact ((hafter cs).add hk f).2.1
  · dsimp only [after]
    rw [changeAll_concat]
    exact ((hafter cs).remove hk hid).2.1
  · dsimp only [after]
    rw [changeAll_concat]
    exact ((hafter cs).forget (FilterNode.demux k path) hid).2
  · intro hall
    by_contra hle
    obtain ⟨cs, hcs⟩ := exists_idle hk hs limit hw (Nat.le_of_not_lt hle)
    exact hcs (hall cs)
  · intro hlt cs
    exact (hafter cs).saturated hlt

theorem saturated_iff_two_slots :
    (Kernel.ofSlots 2).Bounded "/dev/dvb/adapter0/demux0" 2 id ∧
    (∃ cs, ¬ Saturated 2 (changeAll (FilterNode.demux (Kernel.ofSlots 2) "/dev/dvb/adapter0/demux0")
      cs (Scheduler.ofLimit 32, { device := ∅ })).1) ∧
    ∀ cs, Saturated 1 (changeAll (FilterNode.demux (Kernel.ofSlots 2) "/dev/dvb/adapter0/demux0")
      cs (Scheduler.ofLimit 1, { device := ∅ })).1 := by
  have hk := Kernel.ofSlots_bounded "/dev/dvb/adapter0/demux0" 2
  obtain ⟨-, -, -, -, hmany, -⟩ := saturated_iff hk Nat.zero_lt_two 32 (w := { device := ∅ }) rfl
  obtain ⟨-, -, -, -, -, hone⟩ := saturated_iff hk Nat.zero_lt_two 1 (w := { device := ∅ }) rfl
  refine ⟨hk, not_forall.1 fun hall => ?_, hone (by decide)⟩
  exact absurd (hmany hall) (by decide)

/-- Three filters for two slots: the third does not run once the first is gone. -/
theorem not_saturated_remove :
    let p := changeAll (FilterNode.demux (Kernel.ofSlots 2) "/dev/dvb/adapter0/demux0")
      [.add (.once 0 0 5000000), .add (.once 17 66 5000000), .add (.once 256 2 5000000), .remove 1]
      (Scheduler.ofLimit 32, { device := ∅ })
    p.1.running.map (·.id) = [2] ∧ p.1.waiting.map (·.1) = [3] ∧ p.2.device.card = 1 ∧
      ¬ Saturated (min 2 (max 1 32)) p.1 := by
  intro p
  decide +kernel

end Scheduler

end Bandscan
