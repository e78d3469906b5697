import Bandscan.Proofs.ChannelOrder
import Bandscan.Proofs.LeftOver
import Bandscan.Proofs.MapRequests
/-!
A scan of the current transponder only. Every lookup of a frequency finds the transponder that the
network is pinned to, so that each listed multiplex describes it anew and the last one stays. The
stream that the association table is of has no part in it.
-/

namespace Bandscan.Network

variable {o : ReadOptions} {n : Network} {c : Nat}

structure PinnedTo (c : Nat) (n : Network) : Prop where
  pinned : n.pinned = true
  first : n.scanned.head? = some c

def description? (n : Network) (id : Nat) : Option Description := (n.get? id).map (·.toDescription)

/-- As long as nothing has been scanned, the blank transponder is the one that is found. -/
theorem pinnedTo_pinCurrent (hs : n.scanned = []) :
    n.pinCurrent.PinnedTo n.nextId ∧ n.pinCurrent.current = some n.nextId ∧
      n.pinCurrent.description? n.nextId = some { frequency := 0 } := by
  have hfirst : n.pinCurrent.scanned = [n.nextId] := by rw [pinCurrent, hs, List.nil_append]
  refine ⟨⟨rfl, by rw [hfirst, List.head?_cons]⟩, rfl, ?_⟩
  rw [description?, get?, pinCurrent, nextId, List.getElem?_concat_length]
  rfl

theorem PinnedTo.read (h : n.PinnedTo c) (pid : Nat) (s : Section) :
    (n.read o pid s).network.PinnedTo c :=
  ⟨(pinned_read o pid s n).trans h.pinned, scanned_read o pid s n ▸ h.first⟩

theorem description?_modify_redescribe (d : Description) (n : Network) :
    (n.modify c (·.redescribe d)).description? c = (n.description? c).map fun _ => d := by
  rw [description?, description?, get?_modify]
  cases n.get? c with
  | none => rfl
  | some tp =>
    rw [Option.map_some, if_pos rfl]
    rfl

theorem description?_onScanned (g : Service → Service) (n : Network) (id : Nat) :
    (n.onScanned g).description? id = n.description? id := by
  rw [description?, description?, get?_onScanned, Option.map_map]
  refine congrArg (Option.map · (n.get? id)) (funext fun tp => ?_)
  rw [Function.comp_apply]
  split <;> rfl

theorem description?_editServices (es : List Edit) (n : Network) (id : Nat) :
    (n.editServices es).description? id = n.description? id := by
  rw [editServices, modifyCurrent]
  cases n.current with
  | none => rfl
  | some i =>
    rw [description?, description?, get?_modify, Option.map_map]
    refine congrArg (Option.map · (n.get? id)) (funext fun tp => ?_)
    rw [Function.comp_apply]
    split <;> rfl

theorem PinnedTo.description?_registerAll (h : n.PinnedTo c) (ds : List Description) :
    (n.registerAll ds).description? c = (n.description? c).map (ds.getLast?.getD ·) := by
  obtain ⟨rest, hs⟩ := List.head?_eq_some_iff.1 h.first
  rw [registerAll_pinned h.pinned hs]
  clear h hs
  induction ds generalizing n with
  | nil => exact (congrFun Option.map_id _).symm
  | cons d ds ih =>
    rw [List.foldl_cons, ih, description?_modify_redescribe, Option.map_map, List.getLast?_cons]
    rfl

theorem PinnedTo.description?_read (h : n.PinnedTo c) (pid : Nat) (s : Section) :
    (n.read o pid s).network.description? c =
      (n.description? c).map ((descriptions o.kind s).getLast?.getD ·) := by
  rw [(read_effects o pid s n).network, description?_editServices, readTransponders_split,
    registerAll_setChannels, setChannels_eq, description?_onScanned, h.description?_registerAll]

theorem PinnedTo.description?_afterSections (h : n.PinnedTo c) (l : List (Nat × Section)) :
    (n.afterSections o l).description? c =
      (n.description? c).map
        ((l.flatMap fun r => descriptions o.kind r.2).getLast?.getD ·) := by
  induction l generalizing n with
  | nil => exact (congrFun Option.map_id _).symm
  | cons r l ih =>
    refine (ih (h.read r.1 r.2)).trans ?_
    rw [h.description?_read, Option.map_map, List.flatMap_cons, List.getLast?_append]
    refine congrArg (Option.map · (n.description? c)) (funext fun d => ?_)
    cases (l.flatMap fun r => descriptions o.kind r.2).getLast? <;> rfl

variable {pat nit : Section} {t : Nit} {d : Description}

theorem descriptions_of_parse (kind : DeliveryKind) (h : Nit.parse nit = .ok t) :
    descriptions kind nit =
      (t.multiplexes.filter fun m => m.delivery.any (·.kind = kind)).map
        (description t.networkId) := by
  rw [descriptions, if_pos (Nit.isNit_of_parse h), h]

theorem PinnedTo.described_last (hn : n.PinnedTo c) (hd : n.description? c = some d)
    (hpat : pat.header.tableId = Pat.tableId) (hnit : Nit.parse nit = .ok t) (i j : Nat) :
    let ours := t.multiplexes.filter fun m => m.delivery.any (·.kind = o.kind)
    ∀ l ∈ [[(i, pat), (j, nit)], [(j, nit), (i, pat)]],
      (n.afterSections o l).description? c =
        some ((ours.getLast?.map (description t.networkId)).getD d) := by
  intro ours l hl
  have hnone : descriptions o.kind pat = [] := if_neg (Section.not_isNit hpat (by decide))
  have hours : descriptions o.kind nit = ours.map (description t.networkId) :=
    descriptions_of_parse o.kind hnit
  rw [hn.description?_afterSections]
  obtain rfl | rfl := List.mem_pair.1 hl
  · simp [hnone, hours, hd]
  · simp [hnone, hours, hd]

/-- In either order the last multiplex of the kind describes the pinned transponder. So if one
multiplex only is of the stream that the association table is of, the transponder gets its
description exactly if that multiplex comes last. -/
theorem pinned_described_iff (o : ReadOptions) (hn : n.PinnedTo c) (hd : n.description? c = some d)
    (hpat : pat.header.tableId = Pat.tableId) (hnit : Nit.parse nit = .ok t) (i j : Nat) :
    let ours := t.multiplexes.filter fun m => m.delivery.any (·.kind = o.kind)
    let patFirst := ((n.read o i pat).network.read o j nit).network
    let nitFirst := ((n.read o j nit).network.read o i pat).network
    ∀ after ∈ [patFirst, nitFirst],
      after.description? c = some ((ours.getLast?.map (description t.networkId)).getD d) ∧
      ∀ m, ours.filter (·.streamId = pat.header.ext) = [m] →
        ((∃ e, after.description? c = some e ∧ e.streamId = pat.header.ext ∧
            e.frequency = m.frequency ∧ e.delivery = m.delivery) ↔ ours.getLast? = some m) := by
  intro ours patFirst nitFirst after hafter
  have hlast : after.description? c =
      some ((ours.getLast?.map (description t.networkId)).getD d) := by
    have horders := hn.described_last (o := o) hd hpat hnit i j
    obtain rfl | rfl := List.mem_pair.1 hafter
    · exact horders [(i, pat), (j, nit)] List.mem_cons_self
    · exact horders [(j, nit), (i, pat)] (List.mem_cons_of_mem _ List.mem_cons_self)
  refine ⟨hlast, fun m hm => ?_⟩
  have hmem (m' : Multiplex) : m' ∈ ours ∧ m'.streamId = pat.header.ext ↔ m' = m := by
    have h : m' ∈ ours.filter (·.streamId = pat.header.ext) ↔ m' = m := by
      rw [hm, List.mem_singleton]
    rwa [List.mem_filter, decide_eq_true_eq] at h
  obtain ⟨hin, hstream⟩ := (hmem m).2 rfl
  constructor
  · rintro ⟨e, he, hid, -, -⟩
    cases hg : ours.getLast? with
    | none => exact absurd hin (List.getLast?_eq_none_iff.1 hg ▸ List.not_mem_nil)
    | some last =>
      -- the last one is of the same stream, and there is no other
      rw [hlast, hg] at he
      obtain rfl := Option.some.inj he
      exact congrArg some ((hmem last).1 ⟨List.mem_of_getLast? hg, hid⟩)
  · intro hg
    rw [hg] at hlast
    exact ⟨_, hlast, hstream, rfl, rfl⟩

/-! ### Two streams, of which the second stays -/

def pinnedOnce : Network := Network.pinCurrent { tolerance := 2000, inversion := .auto }

def streamAt (streamId frequency : Nat) : Multiplex where
  streamId := streamId
  originNetwork := 1
  frequency := frequency
  delivery := some (.terrestrial {
    bandwidth := .mhz8
    codeRateHigh := .r2_3
    codeRateLow := .r1_2
    constellation := .qam64
    mode := .mode8k
    guardInterval := .g1_32
    hierarchy := .none
    otherFrequency := false })

/-- A network table with two streams, at frequencies in tens of hertz. -/
def streamListing (e₁ e₂ : UInt8 × Bytes) : Section where
  header := { tableId := 0x40, longForm := true, length := 0, ext := 1 }
  payload := [0xF0, 0x00, 0xF0, 0x26] ++ [e₁, e₂].flatMap fun e =>
    [0x00, e.1, 0x00, 0x01, 0xF0, 0x0D, 0x5A, 0x0B] ++ e.2 ++
      [0x1F, 0x81, 0x02, 0xFF, 0xFF, 0xFF, 0xFF]

def ownLast : Section :=
  streamListing (8, [0x03, 0x10, 0x4D, 0x40]) (7, [0x03, 0x04, 0x18, 0x40])

def ownFirst : Section :=
  streamListing (7, [0x03, 0x04, 0x18, 0x40]) (8, [0x03, 0x10, 0x4D, 0x40])

theorem pinned_described_iff_last :
    let own := streamAt 7 506000000
    pinnedOnce.PinnedTo 0 ∧ pinnedOnce.description? 0 = some { frequency := 0 } ∧
      (associations [1]).header.tableId = Pat.tableId ∧
      Nit.parse ownLast = .ok ⟨0x40, 1, 0, none, [streamAt 8 514000000, own], none⟩ ∧
      ∀ after ∈ [
          ((pinnedOnce.read mapOptions 0 (associations [1])).network.read mapOptions 16
            ownLast).network,
          ((pinnedOnce.read mapOptions 16 ownLast).network.read mapOptions 0
            (associations [1])).network],
        after.description? 0 = some (description 1 own) := by
  intro own
  obtain ⟨hn, -, hd⟩ := pinnedTo_pinCurrent (n := { tolerance := 2000, inversion := .auto }) rfl
  have ht : Nit.parse ownLast = .ok ⟨0x40, 1, 0, none, [streamAt 8 514000000, own], none⟩ := by
    decide +kernel
  exact ⟨hn, hd, rfl, ht, fun after h =>
    (pinned_described_iff mapOptions hn hd rfl ht 0 16 after h).1⟩

/-- One entry only is of stream 7, and the transponder is described as the other. -/
theorem pinned_described_elsewhere :
    let own := streamAt 7 506000000
    let other := streamAt 8 514000000
    pinnedOnce.PinnedTo 0 ∧ (associations [1]).header.ext = 7 ∧
      Nit.parse ownFirst = .ok ⟨0x40, 1, 0, none, [own, other], none⟩ ∧
      ([own, other].filter fun m =>
        m.delivery.any (·.kind = mapOptions.kind) && m.streamId = 7) = [own] ∧
      ∀ after ∈ [
          ((pinnedOnce.read mapOptions 0 (associations [1])).network.read mapOptions 16
            ownFirst).network,
          ((pinnedOnce.read mapOptions 16 ownFirst).network.read mapOptions 0
            (associations [1])).network],
        (after.description? 0).map (fun d => (d.streamId, d.frequency)) = some (8, 514000000) := by
  exact ⟨⟨rfl, rfl⟩, rfl, by decide +kernel, rfl, by decide +kernel⟩

end Bandscan.Network
