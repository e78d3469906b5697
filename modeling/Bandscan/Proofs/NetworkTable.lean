import Bandscan.Proofs.SectionEffects
/-!
What a network table does: the channel numbers of its multiplexes are set on the services of the
scanned transponders, and its multiplexes are registered. Neither has a say in the other, so that
all channel numbers may be set first.
-/

namespace Bandscan

def Service.numbered (s : Service) (c : LogicalChannel) : Service :=
  { s with channel := if s.id = c.serviceId then some c.number else s.channel }

namespace Network

variable {o : ReadOptions}

def registerAll (ds : List Description) (n : Network) : Network :=
  ds.foldl (fun n d => n.register d) n

def onScanned (g : Service → Service) (n : Network) : Network :=
  { n with transponders := n.transponders.mapIdx fun i tp =>
      if n.scanned.contains i then tp.onServices (List.map g) else tp }

theorem setChannel_eq (n : Network) (c : LogicalChannel) :
    n.setChannel c = n.onScanned (·.numbered c) := by
  have hs (s : Service) : (if s.id = c.serviceId then { s with channel := some c.number } else s) =
      s.numbered c := by
    unfold Service.numbered
    by_cases hc : s.id = c.serviceId <;> simp [hc]
  unfold setChannel modifyScanned
  simp only [hs]
  rfl

theorem get?_onScanned (g : Service → Service) (n : Network) (i : Nat) :
    (n.onScanned g).get? i =
      (n.get? i).map fun tp => if n.scanned.contains i then tp.onServices (List.map g) else tp :=
  List.getElem?_mapIdx

theorem onScanned_onScanned (g h : Service → Service) (n : Network) :
    (n.onScanned g).onScanned h = n.onScanned fun s => h (g s) := by
  unfold onScanned
  simp only [List.mapIdx_mapIdx]
  congr 2
  funext i tp
  by_cases hi : n.scanned.contains i = true
  · rw [Function.comp, if_pos hi, if_pos hi, if_pos hi]
    simp [Transponder.onServices]
  · rw [Function.comp, if_neg hi, if_neg hi, if_neg hi]

theorem onScanned_redescribe (g : Service → Service) (id : Nat) (d : Description) (n : Network) :
    (n.onScanned g).modify id (·.redescribe d) = (n.modify id (·.redescribe d)).onScanned g := by
  unfold onScanned modify
  congr 1
  refine List.ext_getElem? fun i => ?_
  rw [List.getElem?_modify, List.getElem?_mapIdx, List.getElem?_mapIdx, List.getElem?_modify]
  cases n.transponders[i]? with
  | none => rfl
  | some tp =>
    by_cases hid : id = i <;> by_cases hi : n.scanned.contains i = true <;>
      simp only [Option.map_some, hid, hi, if_true, if_false, Bool.false_eq_true] <;> rfl

theorem get?_alloc (frequency : Nat) (n : Network) (i : Nat) :
    (n.alloc frequency).get? i =
      if i = n.nextId then some { frequency, inversion := n.inversion } else n.get? i := by
  unfold get? alloc nextId
  rw [List.getElem?_append]
  by_cases hi : i < n.transponders.length
  · rw [if_pos hi, if_neg (Nat.ne_of_lt hi)]
  · rw [if_neg hi]
    split
    · next h => simp [h]
    · next h =>
      rw [List.getElem?_eq_none (by rw [List.length_singleton]; omega),
        List.getElem?_eq_none (Nat.le_of_not_lt hi)]

theorem onScanned_alloc (g : Service → Service) (frequency : Nat) (n : Network) :
    (n.onScanned g).alloc frequency = (n.alloc frequency).onScanned g := by
  have hblank (tp : Transponder) (h : tp.services = []) :
      (if n.scanned.contains n.transponders.length then tp.onServices (List.map g)
        else tp) = tp := by
    split
    · unfold Transponder.onServices
      rw [h, List.map_nil, ← h]
    · rfl
  unfold onScanned alloc nextId
  rw [List.mapIdx_concat, List.length_mapIdx, hblank]
  rfl

theorem onScanned_register (g : Service → Service) (d : Description) (n : Network) :
    (n.onScanned g).register d = (n.register d).onScanned g := by
  have hfind : (n.onScanned g).find? d.frequency = n.find? d.frequency := by
    unfold find?
    simp only [get?_onScanned, Option.any_map]
    have hnear (tp : Transponder) (i : Nat) :
        (n.onScanned g).near (if n.scanned.contains i then tp.onServices (List.map g)
          else tp).frequency d.frequency = n.near tp.frequency d.frequency := by
      split <;> rfl
    simp only [hnear]
    rfl
  unfold register findOrAlloc
  rw [hfind]
  cases n.find? d.frequency with
  | some id => exact onScanned_redescribe g id d n
  | none =>
    dsimp only
    rw [onScanned_alloc, ← onScanned_redescribe]
    congr 1
    exact List.length_mapIdx

theorem registerAll_setChannels (cs : List LogicalChannel) (ds : List Description) (n : Network) :
    registerAll ds (cs.foldl setChannel n) = cs.foldl setChannel (registerAll ds n) := by
  have hone (c : LogicalChannel) (n : Network) :
      registerAll ds (n.setChannel c) = (registerAll ds n).setChannel c := by
    induction ds generalizing n with
    | nil => rfl
    | cons d ds ih =>
      have hd : (n.setChannel c).register d = (n.register d).setChannel c := by
        rw [setChannel_eq, setChannel_eq, onScanned_register]
      exact (congrArg (registerAll ds) hd).trans (ih (n.register d))
  induction cs generalizing n with
  | nil => rfl
  | cons c cs ih => rw [List.foldl_cons, ih, hone, List.foldl_cons]

def channels (o : ReadOptions) (s : Section) : List LogicalChannel :=
  if o.channelNumbers ∧ s.IsNit then
    match Nit.parse s with
    | .ok t => t.multiplexes.flatMap (·.channels)
    | .error _ => []
  else []

theorem readChannels_eq (m : Multiplex) (n : Network) :
    n.readChannels o m = (if o.channelNumbers then m.channels else []).foldl setChannel n := by
  unfold readChannels
  split
  · rfl
  · rfl

/-- Channel numbers are set first, transponders are registered afterwards. -/
theorem readMultiplexes_eq (networkId : Nat) (ms : List Multiplex) (n : Network) :
    ms.foldl (readMultiplex o networkId) n =
      registerAll
        ((ms.filter fun m => m.delivery.any (·.kind = o.kind)).map (description networkId))
        ((if o.channelNumbers then ms.flatMap (·.channels) else []).foldl setChannel n) := by
  induction ms generalizing n with
  | nil =>
    cases o.channelNumbers <;> rfl
  | cons m ms ih =>
    have hsplit : (if o.channelNumbers then (m :: ms).flatMap (·.channels) else []) =
        (if o.channelNumbers then m.channels else []) ++
          (if o.channelNumbers then ms.flatMap (·.channels) else []) := by
      split
      · rfl
      · rfl
    rw [List.foldl_cons, ih, hsplit, List.foldl_append, ← readChannels_eq, readMultiplex,
      List.filter_cons]
    split
    · exact congrArg (registerAll _) (registerAll_setChannels _ [description networkId m] _).symm
    · rfl

theorem readTransponders_split (s : Section) (n : Network) :
    n.readTransponders o s =
      registerAll (descriptions o.kind s) ((channels o s).foldl setChannel n) := by
  unfold readTransponders descriptions channels
  by_cases hs : s.IsNit
  · rw [if_pos hs, if_pos hs]
    cases Nit.parse s with
    | error e => cases o.channelNumbers <;> simp [hs, registerAll]
    | ok t => simpa [hs] using readMultiplexes_eq t.networkId t.multiplexes n
  · simp [hs, registerAll]

/-- What numbering services and registering a multiplex keep is kept by every section, as far as it
is about transponders. -/
theorem readTransponders_rec {P : Network → Prop} (hchannel : ∀ n c, P n → P (n.setChannel c))
    (hregister : ∀ n d, P n → P (n.register d)) (s : Section) {n : Network} (h : P n) :
    P (n.readTransponders o s) := by
  rw [readTransponders_split]
  have hn : P ((channels o s).foldl setChannel n) :=
    List.foldlRecOn _ _ h fun n hn c _ => hchannel n c hn
  exact List.foldlRecOn _ _ hn fun n hn d _ => hregister n d hn

def fixture (n : Network) : Nat × Bool × List Nat × Option Nat :=
  (n.tolerance, n.pinned, n.scanned, n.current)

theorem fixture_register (d : Description) (n : Network) : (n.register d).fixture = n.fixture := by
  unfold register findOrAlloc
  cases n.find? d.frequency <;> rfl

theorem fixture_registerAll (ds : List Description) (n : Network) :
    (n.registerAll ds).fixture = n.fixture := by
  induction ds generalizing n with
  | nil => rfl
  | cons d ds ih => exact (ih (n.register d)).trans (fixture_register d n)

theorem fixture_setChannels (cs : List LogicalChannel) (n : Network) :
    (cs.foldl setChannel n).fixture = n.fixture := by
  induction cs generalizing n with
  | nil => rfl
  | cons c cs ih => exact ih (n.setChannel c)

theorem fixture_readTransponders (o : ReadOptions) (s : Section) (n : Network) :
    (n.readTransponders o s).fixture = n.fixture := by
  rw [readTransponders_split, fixture_registerAll, fixture_setChannels]

theorem fixture_editServices (es : List Edit) (n : Network) :
    (n.editServices es).fixture = n.fixture := by
  unfold editServices modifyCurrent
  cases n.current <;> rfl

/-- Sections neither move a transponder to the scanned ones nor make another one current. -/
theorem fixture_read (o : ReadOptions) (pid : Nat) (s : Section) (n : Network) :
    (n.read o pid s).network.fixture = n.fixture := by
  rw [(read_effects o pid s n).network, fixture_editServices, fixture_readTransponders]

theorem pinned_read (o : ReadOptions) (pid : Nat) (s : Section) (n : Network) :
    (n.read o pid s).network.pinned = n.pinned := congrArg (·.2.1) (fixture_read o pid s n)

theorem scanned_read (o : ReadOptions) (pid : Nat) (s : Section) (n : Network) :
    (n.read o pid s).network.scanned = n.scanned := congrArg (·.2.2.1) (fixture_read o pid s n)

theorem current_read (o : ReadOptions) (pid : Nat) (s : Section) (n : Network) :
    (n.read o pid s).network.current = n.current := congrArg (·.2.2.2) (fixture_read o pid s n)

end Network

end Bandscan
