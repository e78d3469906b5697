import Bandscan.Proofs.NetworkTable
import Bandscan.Proofs.ReachableNetwork
/-!
The order in which tables arrive does not matter. What network tables say about transponders and
what the other tables say about services are read side by side, and the edits of services may be
sorted by table.
-/

namespace Bandscan.Network

variable {o : ReadOptions} {n : Network}

def HasCurrent (n : Network) : Prop := ∃ id, n.current = some id ∧ id < n.transponders.length

theorem hasCurrent_of_isSome (h : n.current?.isSome) : n.HasCurrent := by
  obtain ⟨tp, htp⟩ := Option.isSome_iff_exists.1 h
  obtain ⟨id, hid, hget⟩ := Option.bind_eq_some_iff.1 htp
  exact ⟨id, hid, (List.getElem?_eq_some_iff.1 hget).1⟩

theorem HasCurrent.isSome (h : n.HasCurrent) : n.current?.isSome := by
  obtain ⟨id, hid, hlt⟩ := h
  simp [current?, hid, get?, hlt]

theorem lt_nextId {id : Nat} {tp : Transponder} (h : n.get? id = some tp) : id < n.nextId :=
  (List.getElem?_eq_some_iff.1 h).1

theorem get?_modify (id : Nat) (f : Transponder → Transponder) (n : Network) (i : Nat) :
    (n.modify id f).get? i = (n.get? i).map fun tp => if id = i then f tp else tp :=
  List.getElem?_modify f id n.transponders i

theorem find?_modify {f : Transponder → Transponder} (hf : ∀ tp, (f tp).frequency = tp.frequency)
    (id frequency : Nat) (n : Network) : (n.modify id f).find? frequency = n.find? frequency := by
  have hget (i : Nat) : ((n.modify id f).get? i).any (fun tp => n.near tp.frequency frequency) =
      (n.get? i).any (fun tp => n.near tp.frequency frequency) := by
    rw [get?_modify]
    cases n.get? i with
    | none => rfl
    | some tp =>
      by_cases hi : id = i
      · simp [hi, hf]
      · simp [hi]
  have hnear (a b : Nat) : (n.modify id f).near a b = n.near a b := rfl
  unfold find?
  simp only [hnear, hget]
  rfl

theorem alloc_modify (f : Transponder → Transponder) {id : Nat} (h : id < n.transponders.length)
    (frequency : Nat) : (n.modify id f).alloc frequency = (n.alloc frequency).modify id f := by
  have ht (tp : Transponder) :
      (n.transponders.modify id f) ++ [tp] = (n.transponders ++ [tp]).modify id f := by
    refine List.ext_getElem? fun i => ?_
    rw [List.getElem?_modify, List.getElem?_append, List.getElem?_append, List.length_modify]
    by_cases hi : i < n.transponders.length
    · rw [if_pos hi, if_pos hi, List.getElem?_modify]
    · have hne : id ≠ i := by omega
      simp [hi, hne]
  unfold alloc modify nextId
  simp only [List.length_modify, ht]

theorem register_modify (g : List Service → List Service) {id : Nat}
    (h : id < n.transponders.length) (d : Description) :
    (n.modify id (·.onServices g)).register d = (n.register d).modify id (·.onServices g) := by
  have hcomm (n : Network) (i : Nat) :
      (n.modify id (·.onServices g)).modify i (·.redescribe d) =
        (n.modify i (·.redescribe d)).modify id (·.onServices g) := by
    unfold modify
    by_cases hi : id = i
    · subst hi
      simp only [List.modify_modify_eq]
      rfl
    · simp only [List.modify_modify_ne _ _ n.transponders hi]
  have hf (tp : Transponder) : (tp.onServices g).frequency = tp.frequency := rfl
  unfold register findOrAlloc
  rw [find?_modify hf]
  cases n.find? d.frequency with
  | some i => exact hcomm n i
  | none =>
    have hid : (n.modify id (·.onServices g)).nextId = n.nextId := List.length_modify ..
    dsimp only
    rw [alloc_modify _ h, hid, hcomm]

theorem current_register (d : Description) (n : Network) : (n.register d).current = n.current := by
  unfold register findOrAlloc
  cases n.find? d.frequency <;> rfl

theorem services_register (d : Description) {i : Nat} (h : i < n.transponders.length) :
    ((n.register d).get? i).map (·.services) = (n.get? i).map (·.services) := by
  have hmodify (n : Network) (id : Nat) :
      ((n.modify id (·.redescribe d)).get? i).map (·.services) = (n.get? i).map (·.services) := by
    rw [get?_modify, Option.map_map]
    refine congrArg (fun g => Option.map g (n.get? i)) (funext fun tp => ?_)
    by_cases hi : id = i
    · simp [hi, Transponder.redescribe]
    · simp [hi]
  unfold register findOrAlloc
  cases n.find? d.frequency with
  | some id => exact hmodify n id
  | none =>
    refine (hmodify (n.alloc d.frequency) n.nextId).trans ?_
    rw [get?, alloc, List.getElem?_append_left h]
    rfl

theorem length_register_le (d : Description) (n : Network) :
    n.transponders.length ≤ (n.register d).transponders.length := by
  unfold register findOrAlloc
  cases n.find? d.frequency <;> simp [modify, alloc]

theorem HasCurrent.register (d : Description) (h : n.HasCurrent) :
    (n.register d).HasCurrent ∧ (n.register d).currentServices = n.currentServices := by
  obtain ⟨id, hid, hlt⟩ := h
  have hc : (n.register d).current = some id := (current_register d n).trans hid
  refine ⟨⟨id, hc, Nat.lt_of_lt_of_le hlt (length_register_le d n)⟩, ?_⟩
  unfold currentServices current?
  rw [hc, hid]
  exact congrArg (·.getD []) (services_register d hlt)

theorem HasCurrent.registerAll (ds : List Description) (h : n.HasCurrent) :
    (n.registerAll ds).HasCurrent ∧ (n.registerAll ds).currentServices = n.currentServices := by
  induction ds generalizing n with
  | nil => exact ⟨h, rfl⟩
  | cons d ds ih =>
    obtain ⟨hc, hs⟩ := h.register d
    exact ⟨(ih hc).1, (ih hc).2.trans hs⟩

theorem HasCurrent.editServices (es : List Edit) (h : n.HasCurrent) :
    (n.editServices es).HasCurrent ∧
      (n.editServices es).currentServices = Edit.applyAll es n.currentServices := by
  obtain ⟨id, hid, hlt⟩ := h
  have he : n.editServices es = n.modify id (·.onServices (Edit.applyAll es)) := by
    simp only [Network.editServices, modifyCurrent, hid]
  rw [he]
  refine ⟨⟨id, hid, by simpa [modify] using hlt⟩, ?_⟩
  have hc : (n.modify id (·.onServices (Edit.applyAll es))).current? =
      (n.get? id).map (·.onServices (Edit.applyAll es)) := by
    have hm : (n.modify id (·.onServices (Edit.applyAll es))).current = some id := hid
    rw [current?, hm, Option.bind_some, get?_modify]
    simp
  have hg : n.get? id = some n.transponders[id] := List.getElem?_eq_getElem hlt
  rw [currentServices, currentServices, hc, current?, hid, Option.bind_some, hg]
  rfl

theorem registerAll_editServices (ds : List Description) (es : List Edit) (h : n.HasCurrent) :
    (n.editServices es).registerAll ds = (n.registerAll ds).editServices es := by
  induction ds generalizing n with
  | nil => rfl
  | cons d ds ih =>
    have hd : (n.editServices es).register d = (n.register d).editServices es := by
      obtain ⟨id, hid, hlt⟩ := h
      have hr : (n.register d).current = some id := (current_register d n).trans hid
      simp only [Network.editServices, modifyCurrent, hid, hr]
      exact register_modify (Edit.applyAll es) hlt d
    have ih := ih (h.register d).1
    rw [← hd] at ih
    exact ih

theorem editServices_append (es es' : List Edit) (n : Network) :
    (n.editServices es).editServices es' = n.editServices (es ++ es') := by
  unfold editServices modifyCurrent
  cases hc : n.current with
  | none => simp [hc]
  | some id =>
    simp only [modify, hc, List.modify_modify_eq]
    congr 2
    funext tp
    simp [Transponder.onServices, Edit.applyAll]

theorem modifyCurrent_editServices (es : List Edit) (ss : List Service) (n : Network) :
    (n.editServices es).modifyCurrent (·.onServices fun _ => ss) =
      n.modifyCurrent (·.onServices fun _ => ss) := by
  unfold editServices modifyCurrent
  cases hc : n.current with
  | none => simp [hc]
  | some id =>
    simp only [modify, hc, List.modify_modify_eq]
    rfl

theorem editServices_eq_set (es : List Edit) (n : Network) :
    n.editServices es =
      n.modifyCurrent (·.onServices fun _ => Edit.applyAll es n.currentServices) := by
  refine modifyCurrent_congr fun tp htp => ?_
  rw [currentServices, htp]
  rfl

theorem readTransponders_eq (ho : o.channelNumbers = false) (s : Section) (n : Network) :
    n.readTransponders o s = n.registerAll (descriptions o.kind s) := by
  have hno : channels o s = [] := if_neg fun h => by simp [ho] at h
  rw [readTransponders_split, hno]
  rfl

/-- Reads sections in turn and collects the filters that they ask for. There is no result if a
section ends the program. -/
def readAll (o : ReadOptions) : List (Nat × Section) → Network →
    Option (Network × List FilterSpec)
  | [], n => some (n, [])
  | (pid, s) :: l, n =>
    let r := n.read o pid s
    if r.overflow then none
    else (readAll o l r.network).map fun (n, requests) => (n, r.requests ++ requests)

theorem readAll_eq_none {l : List (Nat × Section)} (h : ∃ r ∈ l, r.2.Overflows) :
    readAll o l n = none := by
  induction l generalizing n with
  | nil => simp at h
  | cons r l ih =>
    obtain ⟨pid, s⟩ := r
    rw [readAll]
    by_cases hs : (n.read o pid s).overflow = true
    · simp [hs]
    · have hl : ∃ r ∈ l, r.2.Overflows := by
        obtain ⟨r, hr, ho⟩ := h
        rcases List.mem_cons.1 hr with rfl | hr
        · exact absurd ((read_effects o pid s n).overflow.2 ho) hs
        · exact ⟨r, hr, ho⟩
      simp [hs, ih hl]

/-- Transponders are registered first, services are edited afterwards. -/
theorem readAll_eq_some (ho : o.channelNumbers = false) {l : List (Nat × Section)}
    (hl : ∀ r ∈ l, ¬ r.2.Overflows) (hn : n.HasCurrent) :
    readAll o l n = some
      ((n.registerAll (l.flatMap fun r => descriptions o.kind r.2)).editServices
          (l.flatMap fun r => r.2.edits),
        along Edit.apply (Edit.requests o.mapTimeout) n.currentServices
          (l.flatMap fun r => r.2.edits)) := by
  induction l generalizing n with
  | nil => exact congrArg (fun n => some (n, [])) (editServices_nil n).symm
  | cons r l ih =>
    obtain ⟨pid, s⟩ := r
    have he := read_effects o pid s n
    have hs : ¬ (n.read o pid s).overflow = true := fun h =>
      hl _ List.mem_cons_self (he.overflow.1 h)
    have hnet : (n.read o pid s).network =
        (n.registerAll (descriptions o.kind s)).editServices s.edits := by
      rw [he.network, readTransponders_eq ho]
    obtain ⟨hr, hrs⟩ := hn.registerAll (descriptions o.kind s)
    obtain ⟨hc, hcs⟩ := hr.editServices s.edits
    rw [← hnet] at hc hcs
    have ih := ih (fun r hr => hl r (List.mem_cons_of_mem _ hr)) hc
    have hfinal (ds : List Description) (es : List Edit) :
        ((n.read o pid s).network.registerAll ds).editServices es =
          (n.registerAll (descriptions o.kind s ++ ds)).editServices (s.edits ++ es) := by
      rw [hnet, registerAll_editServices _ _ hr, editServices_append]
      simp [registerAll]
    rw [readAll]
    simp only [hs, ih, Option.map_some, List.flatMap_cons]
    rw [hfinal, he.requests hn.isSome, along_append, hcs, hrs]
    rfl

inductive TableKind where
  | pat | pmt | nit | sdt
  deriving DecidableEq

def kindOf (s : Section) : Option TableKind :=
  if s.header.tableId = Pat.tableId then some .pat
  else if s.header.tableId = Pmt.tableId then some .pmt
  else if s.IsNit then some .nit
  else if s.header.tableId = Sdt.actualId then some .sdt
  else none

def editKind : Edit → TableKind
  | .assign .. => .pat
  | .describe .. => .sdt
  | .applyMap _ => .pmt

theorem isAssign_eq : Edit.isAssign = fun e => decide (editKind e = .pat) := by
  funext e
  cases e <;> rfl

theorem isDescribe_eq : Edit.isDescribe = fun e => decide (editKind e = .sdt) := by
  funext e
  cases e <;> rfl

theorem isMap_eq : Edit.isMap = fun e => decide (editKind e = .pmt) := by
  funext e
  cases e <;> rfl

theorem kindOf_pat {s : Section} : kindOf s = some .pat ↔ s.header.tableId = Pat.tableId := by
  unfold kindOf
  split
  · next h => simp [h]
  · next h =>
    simp only [h, iff_false]
    split <;> (try split) <;> (try split) <;> simp

theorem kindOf_nit {s : Section} : kindOf s = some .nit ↔ s.IsNit := by
  unfold kindOf
  constructor
  · intro h
    by_cases hn : s.IsNit
    · exact hn
    · simp only [hn, if_false] at h
      split at h <;> (try split at h) <;> (try split at h) <;> simp at h
  · rintro (h | h) <;> simp [Section.IsNit, h, Pat.tableId, Pmt.tableId, Nit.actualId, Nit.otherId]

theorem streamId_of_pat {s : Section} {t : Pat} (h : Pat.parse s = .ok t) :
    t.streamId = s.header.ext := by
  unfold Pat.parse at h
  cases he : s.expectTable Pat.tableId with
  | error e => simp [he, bind, Except.bind] at h
  | ok _ =>
    by_cases hl : s.payload.length % 4 = 0
    · simp [he, hl, bind, Except.bind, pure, Except.pure] at h
      rw [← h]
    · simp [he, hl, bind, Except.bind, throw, throwThe, MonadExceptOf.throw] at h

theorem program_of_pmt {s : Section} {t : Pmt} (h : Pmt.parse s = .ok t) :
    t.program = s.header.ext := by
  unfold Pmt.parse at h
  cases he : s.expectTable Pmt.tableId with
  | error e => simp [he, bind, Except.bind] at h
  | ok _ =>
    simp only [he, bind, Except.bind, pure, Except.pure, throw, throwThe,
      MonadExceptOf.throw] at h
    split at h
    · split at h
      · simp at h
      · obtain rfl := Except.ok.inj h
        rfl
    · simp at h

theorem streamId_of_sdt {s : Section} {t : Sdt} (h : Sdt.parse s = .ok t) :
    t.streamId = s.header.ext := by
  unfold Sdt.parse at h
  cases he : Sdt.expect s with
  | error e => simp [he, bind, Except.bind] at h
  | ok _ =>
    simp only [he, bind, Except.bind, pure, Except.pure, throw, throwThe,
      MonadExceptOf.throw] at h
    split at h
    · obtain rfl := Except.ok.inj h
      rfl
    · simp at h

theorem mem_edits {s : Section} {e : Edit} (h : e ∈ s.edits) :
    (kindOf s = some .pat ∧ ∃ t, Pat.parse s = .ok t ∧
      ∃ p ∈ t.programs, e = .assign s.header.ext p) ∨
    (kindOf s = some .pmt ∧ ∃ t, Pmt.parse s = .ok t ∧ e = .applyMap t) ∨
    (kindOf s = some .sdt ∧ ∃ t, Sdt.parse s = .ok t ∧
      ∃ i ∈ t.services, e = .describe s.header.ext i) := by
  by_cases hpat : s.header.tableId = Pat.tableId
  · rw [edits_pat hpat] at h
    cases hp : Pat.parse s with
    | error e => simp [hp] at h
    | ok t =>
      rw [hp] at h
      obtain ⟨p, hm, rfl⟩ := List.mem_map.1 h
      exact .inl ⟨if_pos hpat, t, rfl, p, hm, by rw [streamId_of_pat hp]⟩
  by_cases hpmt : s.header.tableId = Pmt.tableId
  · rw [edits_pmt hpmt] at h
    cases hp : Pmt.parse s with
    | error e => simp [hp] at h
    | ok t =>
      rw [hp] at h
      exact .inr (.inl ⟨(if_neg hpat).trans (if_pos hpmt), t, rfl, List.mem_singleton.1 h⟩)
  by_cases hsdt : s.header.tableId = Sdt.actualId
  · have hn : ¬ s.IsNit := Section.not_isNit hsdt (by decide)
    rw [edits_sdt hsdt] at h
    cases hp : Sdt.parse s with
    | error e => simp [hp] at h
    | ok t =>
      rw [hp] at h
      obtain ⟨i, hm, rfl⟩ := List.mem_map.1 h
      have hk : kindOf s = some .sdt :=
        (if_neg hpat).trans ((if_neg hpmt).trans ((if_neg hn).trans (if_pos hsdt)))
      exact .inr (.inr ⟨hk, t, rfl, i, hm, by rw [streamId_of_sdt hp]⟩)
  · simp [Section.edits, hpat, hpmt, hsdt] at h

theorem kindOf_of_mem_edits {s : Section} {e : Edit} (h : e ∈ s.edits) :
    kindOf s = some (editKind e) := by
  obtain ⟨hk, t, -, p, -, rfl⟩ | ⟨hk, t, -, rfl⟩ | ⟨hk, t, -, i, -, rfl⟩ := mem_edits h
  · exact hk
  · exact hk
  · exact hk

theorem filter_edits (k : TableKind) (l : List (Nat × Section)) :
    (l.flatMap fun r => r.2.edits).filter (editKind · = k) =
      (l.filter fun r => kindOf r.2 = some k).flatMap fun r => r.2.edits := by
  induction l with
  | nil => rfl
  | cons r l ih =>
    rw [List.flatMap_cons, List.filter_append, ih]
    by_cases hr : kindOf r.2 = some k
    · have hall : r.2.edits.filter (editKind · = k) = r.2.edits := by
        rw [List.filter_eq_self]
        intro e he
        have := kindOf_of_mem_edits he
        simpa [hr, eq_comm] using this
      rw [hall, List.filter_cons, if_pos (by simpa using hr), List.flatMap_cons]
    · have hno : r.2.edits.filter (editKind · = k) = [] := by
        rw [List.filter_eq_nil_iff]
        intro e he hk
        exact hr (of_decide_eq_true hk ▸ kindOf_of_mem_edits he)
      rw [hno, List.nil_append, List.filter_cons, if_neg (by simpa using hr)]

theorem flatMap_descriptions (kind : DeliveryKind) (l : List (Nat × Section)) :
    (l.flatMap fun r => descriptions kind r.2) =
      (l.filter fun r => kindOf r.2 = some .nit).flatMap fun r => descriptions kind r.2 := by
  induction l with
  | nil => rfl
  | cons r l ih =>
    rw [List.flatMap_cons, List.filter_cons, ih]
    by_cases hr : r.2.IsNit
    · rw [if_pos (by simpa using kindOf_nit.2 hr), List.flatMap_cons]
    · have hno : descriptions kind r.2 = [] := if_neg hr
      rw [if_neg (by simpa using fun h => hr (kindOf_nit.1 h)), hno, List.nil_append]

/-- The list takes its sections from one stream for each table, every stream in its own order, and
maps come after all association tables. -/
structure Interleaves (streams : TableKind → List (Nat × Section)) (l : List (Nat × Section)) :
    Prop where
  only : ∀ r ∈ l, (kindOf r.2).isSome
  inOrder : ∀ k, (l.filter fun r => kindOf r.2 = some k) = streams k
  mapsLast : l.Pairwise fun r r' => kindOf r.2 = some .pmt → kindOf r'.2 ≠ some .pat

/-- The streams come from one transport stream, and every map is for a program of an association
table or for a service that the current transponder has already. -/
structure Coherent (streams : TableKind → List (Nat × Section)) (n : Network) : Prop where
  oneStream : ∃ streamId, ∀ r ∈ streams .pat ++ streams .sdt, r.2.header.ext = streamId
  known : ∀ r ∈ streams .pmt,
    (∃ r' ∈ streams .pat, ∃ t, Pat.parse r'.2 = .ok t ∧
      ∃ p ∈ t.programs, p.number = r.2.header.ext) ∨
    ∃ s ∈ n.currentServices, s.id = r.2.header.ext

def Reordered (n n' : Network) : Prop :=
  ∃ ss, n.currentServices.Perm ss ∧ n' = n.modifyCurrent (·.onServices fun _ => ss)

variable {streams : TableKind → List (Nat × Section)} {l l' : List (Nat × Section)}

theorem Interleaves.mem (h : Interleaves streams l) {r : Nat × Section} {k : TableKind} :
    r ∈ streams k ↔ r ∈ l ∧ kindOf r.2 = some k := by
  rw [← h.inOrder k, List.mem_filter, decide_eq_true_iff]

theorem Interleaves.overflows (h : Interleaves streams l) :
    (∃ r ∈ l, r.2.Overflows) ↔ ∃ r ∈ streams .nit, r.2.Overflows := by
  constructor
  · rintro ⟨r, hr, ho⟩
    exact ⟨r, h.mem.2 ⟨hr, kindOf_nit.2 ho.1⟩, ho⟩
  · rintro ⟨r, hr, ho⟩
    exact ⟨r, (h.mem.1 hr).1, ho⟩

theorem Interleaves.actAll_eq (h : Interleaves streams l) (hs : Coherent streams n) (j : Nat) :
    Edit.actAll j (l.flatMap fun r => r.2.edits) (n.currentServices.find? (·.id = j)) =
      Edit.actAll j ((streams .pmt).flatMap fun r => r.2.edits)
        (Edit.actAll j ((streams .sdt).flatMap fun r => r.2.edits)
          (Edit.actAll j ((streams .pat).flatMap fun r => r.2.edits)
            (n.currentServices.find? (·.id = j)))) := by
  obtain ⟨streamId, hid⟩ := hs.oneStream
  have hstream : ∀ e ∈ l.flatMap fun r => r.2.edits, e.OfStream streamId := by
    intro e he
    obtain ⟨r, hr, he⟩ := List.mem_flatMap.1 he
    obtain ⟨hk, t, -, p, -, rfl⟩ | ⟨hk, t, -, rfl⟩ | ⟨hk, t, -, i, -, rfl⟩ := mem_edits he
    · exact hid r (List.mem_append_left _ (h.mem.2 ⟨hr, hk⟩))
    · trivial
    · exact hid r (List.mem_append_right _ (h.mem.2 ⟨hr, hk⟩))
  have hlast : (l.flatMap fun r => r.2.edits).Pairwise fun a b => a.isMap → ¬ b.isAssign := by
    have hkinds {r r' : Nat × Section} (hrr : kindOf r.2 = some .pmt → kindOf r'.2 ≠ some .pat) :
        ∀ a ∈ r.2.edits, ∀ b ∈ r'.2.edits, a.isMap → ¬ b.isAssign := by
      intro a ha b hb hm hn
      have hka := kindOf_of_mem_edits ha
      have hkb := kindOf_of_mem_edits hb
      cases a <;> cases b <;> simp [Edit.isMap, Edit.isAssign] at hm hn
      exact hrr hka hkb
    refine List.pairwise_flatMap.2 ⟨fun r _ => ?_, h.mapsLast.imp hkinds⟩
    refine List.pairwise_of_forall_mem_list ?_
    exact hkinds fun hk hk' => by simp [hk] at hk'
  have hknown : (∃ e ∈ l.flatMap fun r => r.2.edits, e.isMap ∧ e.serviceId = j) →
      (n.currentServices.find? (·.id = j)).isSome ∨
        ∃ e ∈ l.flatMap fun r => r.2.edits, e.isAssign ∧ e.serviceId = j := by
    rintro ⟨e, he, hm, hj⟩
    obtain ⟨r, hr, he⟩ := List.mem_flatMap.1 he
    obtain ⟨-, t, -, p, -, rfl⟩ | ⟨hk, t, ht, rfl⟩ | ⟨-, t, -, i, -, rfl⟩ := mem_edits he
    · simp [Edit.isMap] at hm
    · have hext : r.2.header.ext = j := (program_of_pmt ht).symm.trans hj
      rcases hs.known r (h.mem.2 ⟨hr, hk⟩) with ⟨r', hr', t', ht', p, hp, hpn⟩ | ⟨s, hs, hsid⟩
      · obtain ⟨hr', hk'⟩ := h.mem.1 hr'
        have he' : Edit.assign t'.streamId p ∈ r'.2.edits := by
          rw [edits_pat (kindOf_pat.1 hk'), ht']
          exact List.mem_map_of_mem hp
        exact .inr ⟨_, List.mem_flatMap.2 ⟨r', hr', he'⟩, rfl, hpn.trans hext⟩
      · refine .inl (List.find?_isSome.2 ⟨s, hs, ?_⟩)
        simpa using hsid.trans hext
    · simp [Edit.isMap] at hm
  have hsorted := Edit.actAll_sorted j hstream hlast hknown
  rw [isAssign_eq, isDescribe_eq, isMap_eq, filter_edits, filter_edits, filter_edits, h.inOrder,
    h.inOrder, h.inOrder] at hsorted
  exact hsorted

/-- However the tables interleave, the network is the same up to the order of services, and the
same maps are asked for in the same order. -/
theorem readAll_interleaving (ho : o.channelNumbers = false) (hn : Reachable n)
    (hc : n.current?.isSome) (hs : Coherent streams n) (h : Interleaves streams l)
    (h' : Interleaves streams l') :
    Option.Rel (fun r r' => Reordered r.1 r'.1 ∧ r.2 = r'.2) (readAll o l n) (readAll o l' n) := by
  by_cases hf : ∃ r ∈ streams .nit, r.2.Overflows
  · rw [readAll_eq_none (h.overflows.2 hf), readAll_eq_none (h'.overflows.2 hf)]
    exact .none
  have hl : ∀ r ∈ l, ¬ r.2.Overflows := fun r hr hro => hf (h.overflows.1 ⟨r, hr, hro⟩)
  have hl' : ∀ r ∈ l', ¬ r.2.Overflows := fun r hr hro => hf (h'.overflows.1 ⟨r, hr, hro⟩)
  have hcur := hasCurrent_of_isSome hc
  rw [readAll_eq_some ho hl hcur, readAll_eq_some ho hl' hcur, flatMap_descriptions o.kind l,
    flatMap_descriptions o.kind l', h.inOrder, h'.inOrder]
  obtain ⟨hr, hrs⟩ := hcur.registerAll ((streams .nit).flatMap fun r => descriptions o.kind r.2)
  generalize n.registerAll ((streams .nit).flatMap fun r => descriptions o.kind r.2) = m at hr hrs
  have hperm : (Edit.applyAll (l.flatMap fun r => r.2.edits) n.currentServices).Perm
      (Edit.applyAll (l'.flatMap fun r => r.2.edits) n.currentServices) := by
    refine Service.perm_of_find? (Edit.nodup_applyAll _ hn.distinct_services)
      (Edit.nodup_applyAll _ hn.distinct_services) fun j => ?_
    rw [Edit.find?_applyAll, Edit.find?_applyAll, h.actAll_eq hs, h'.actAll_eq hs]
  refine .some ⟨⟨_, (hr.editServices _).2 ▸ hrs ▸ hperm, ?_⟩, ?_⟩
  · rw [modifyCurrent_editServices, ← hrs]
    exact editServices_eq_set _ m
  · dsimp only
    rw [Edit.requests_assigns, Edit.requests_assigns _ (l'.flatMap _), isAssign_eq, filter_edits,
      filter_edits, h.inOrder, h'.inOrder]

theorem readAll_interleaving_four_sections :
    let section_ (tableId ext : Nat) (payload : Bytes) : Nat × Section :=
      (0, { header := { tableId, longForm := true, length := 0, ext }, payload })
    let pat := section_ 0x00 7 [0x00, 0x01, 0xE1, 0x00]
    let sdt := section_ 0x42 7 [0x00, 0x01, 0xFF, 0x00, 0x01, 0x00, 0x80, 0x02, 0x7F, 0x00]
    let nit := section_ 0x40 9 [0xF0, 0x00, 0xF0, 0x00]
    let pmt := section_ 0x02 1 [0xE1, 0x01, 0xF0, 0x00]
    let o : ReadOptions := { kind := .terrestrial, channelNumbers := false, mapTimeout := 1 }
    let n : Network := (({ tolerance := 1, inversion := .auto } : Network).alloc 0).setCurrent 0
    Option.Rel (fun r r' => Reordered r.1 r'.1 ∧ r.2 = r'.2)
      (readAll o [pat, sdt, nit, pmt] n) (readAll o [nit, sdt, pat, pmt] n) := by
  intro section_ pat sdt nit pmt o n
  let streams (k : TableKind) := [pat, sdt, nit, pmt].filter fun r => kindOf r.2 = some k
  have hn : Reachable n := .setCurrent (by decide) (.alloc 0 (.new 1 .auto))
  have hs : Coherent streams n := {
    oneStream := ⟨7, by decide⟩
    known := by
      have hpmt : ∀ r ∈ streams .pmt, r = pmt := by decide
      intro r hr
      obtain rfl := hpmt r hr
      have hpat : Pat.parse pat.2 = .ok ⟨7, 0, [⟨1, 0x100⟩], none⟩ := by
        unfold pat section_
        decide +kernel
      exact .inl ⟨pat, by decide, _, hpat, ⟨1, 0x100⟩, by decide, rfl⟩ }
  have h : Interleaves streams [pat, sdt, nit, pmt] := ⟨by decide, fun _ => rfl, by decide⟩
  have h' : Interleaves streams [nit, sdt, pat, pmt] :=
    ⟨by decide, fun k => by cases k <;> decide, by decide⟩
  exact readAll_interleaving rfl hn (by decide) hs h h'

end Bandscan.Network
