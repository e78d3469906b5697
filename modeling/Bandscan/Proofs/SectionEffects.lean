import Bandscan.Network.Reading
import Bandscan.Proofs.ServiceEdits
/-!
A section does two things to a network: a network table registers and describes transponders, and
any other table edits the services of the current transponder. `read_effects`
says so for every section, so that `Network.read` has to be taken apart only here.
-/

namespace Bandscan

namespace Section

def IsNit (s : Section) : Prop := s.header.tableId = Nit.actualId ∨ s.header.tableId = Nit.otherId

instance (s : Section) : Decidable s.IsNit := inferInstanceAs (Decidable (_ ∨ _))

theorem not_isNit {s : Section} {id : Nat} (h : s.header.tableId = id)
    (hid : id ≠ Nit.actualId ∧ id ≠ Nit.otherId) : ¬ s.IsNit := by
  rw [IsNit, h]
  exact not_or.2 hid

def edits (s : Section) : List Edit :=
  if s.header.tableId = Pat.tableId then
    match Pat.parse s with
    | .ok t => t.programs.map (.assign t.streamId)
    | .error _ => []
  else if s.header.tableId = Pmt.tableId then
    match Pmt.parse s with
    | .ok t => [.applyMap t]
    | .error _ => []
  else if s.header.tableId = Sdt.actualId then
    match Sdt.parse s with
    | .ok t => t.services.map (.describe t.streamId)
    | .error _ => []
  else []

def Overflows (s : Section) : Prop := s.IsNit ∧ Nit.parse s = .error .overflow

end Section

def Transponder.onServices (g : List Service → List Service) (tp : Transponder) : Transponder :=
  { tp with services := g tp.services }

namespace Network

variable (o : ReadOptions)

def readTransponders (s : Section) (n : Network) : Network :=
  if s.IsNit then
    match Nit.parse s with
    | .ok t => t.multiplexes.foldl (readMultiplex o t.networkId) n
    | .error _ => n
  else n

def descriptions (kind : DeliveryKind) (s : Section) : List Description :=
  if s.IsNit then
    match Nit.parse s with
    | .ok t =>
      (t.multiplexes.filter fun m => m.delivery.any (·.kind = kind)).map (description t.networkId)
    | .error _ => []
  else []

def editServices (es : List Edit) (n : Network) : Network :=
  n.modifyCurrent (·.onServices (Edit.applyAll es))

def currentServices (n : Network) : List Service := (n.current?.map (·.services)).getD []

theorem modify_id (i : Nat) (n : Network) : n.modify i id = n :=
  congrArg (fun transponders => { n with transponders }) (List.modify_id i n.transponders)

theorem map_modify {α : Type} {f : Transponder → Transponder} {g : Transponder → α} (id : Nat)
    (n : Network) (hf : ∀ tp, g (f tp) = g tp) :
    (n.modify id f).transponders.map g = n.transponders.map g := by
  refine List.ext_getElem? fun i => ?_
  unfold modify
  rw [List.getElem?_map, List.getElem?_map, List.getElem?_modify]
  cases n.transponders[i]? with
  | none => rfl
  | some tp =>
    by_cases hi : id = i
    · simp [hi, hf]
    · simp [hi]

theorem map_modify_to {α : Type} {f : Transponder → Transponder} {g : Transponder → α} {a : α}
    (id : Nat) (n : Network) (hf : ∀ tp, g (f tp) = a) :
    (n.modify id f).transponders.map g = (n.transponders.map g).set id a := by
  refine List.ext_getElem? fun i => ?_
  unfold modify
  rw [List.getElem?_map, List.getElem?_modify, List.getElem?_set, List.getElem?_map]
  by_cases hi : id = i
  · subst hi
    by_cases hl : id < n.transponders.length
    · simp [hl, hf]
    · simp [hl]
  · simp [hi]

theorem map_setChannel {α : Type} {g : Transponder → α} (c : LogicalChannel) (n : Network)
    (hg : ∀ (tp : Transponder) ss, g { tp with services := ss } = g tp) :
    (n.setChannel c).transponders.map g = n.transponders.map g := by
  refine List.ext_getElem? fun i => ?_
  unfold setChannel modifyScanned
  rw [List.getElem?_map, List.getElem?_map, List.getElem?_mapIdx]
  cases n.transponders[i]? with
  | none => rfl
  | some tp =>
    simp only [Option.map_some]
    split
    · rw [hg]
    · rfl

theorem modify_congr {id : Nat} {f g : Transponder → Transponder} {n : Network}
    (h : ∀ tp, n.get? id = some tp → f tp = g tp) : n.modify id f = n.modify id g := by
  unfold modify
  congr 1
  refine List.ext_getElem? fun i => ?_
  rw [List.getElem?_modify, List.getElem?_modify]
  by_cases hi : id = i
  · subst hi
    cases hg : n.transponders[id]? with
    | none => rfl
    | some tp => simp [h tp hg]
  · simp [hi]

theorem modifyCurrent_congr {f g : Transponder → Transponder} {n : Network}
    (h : ∀ tp, n.current? = some tp → f tp = g tp) : n.modifyCurrent f = n.modifyCurrent g := by
  unfold modifyCurrent
  cases hc : n.current with
  | none => rfl
  | some id => exact modify_congr fun tp htp => h tp (by simpa [current?, hc] using htp)

theorem modifyCurrent_eq_self {f : Transponder → Transponder} {n : Network}
    (h : ∀ tp, n.current? = some tp → f tp = tp) : n.modifyCurrent f = n := by
  rw [modifyCurrent_congr (g := id) h]
  unfold modifyCurrent
  cases n.current with
  | none => rfl
  | some i => exact modify_id i n

theorem editServices_nil (n : Network) : n.editServices [] = n :=
  modifyCurrent_eq_self fun _ _ => rfl

theorem editServices_eq_self {n : Network} (es : List Edit) (h : n.current? = none) :
    n.editServices es = n :=
  modifyCurrent_eq_self fun tp htp => by simp [h] at htp

theorem foldl_assign (streamId : Nat) (ps : List Program) (tp : Transponder) :
    ps.foldl (Transponder.assign streamId) tp =
      tp.onServices (Edit.applyAll (ps.map (.assign streamId))) := by
  induction ps generalizing tp with
  | nil => rfl
  | cons p ps ih => exact ih _

theorem foldl_describe (streamId : Nat) (is : List ServiceInfo) (tp : Transponder) :
    is.foldl (Transponder.describe streamId) tp =
      tp.onServices (Edit.applyAll (is.map (.describe streamId))) := by
  induction is generalizing tp with
  | nil => rfl
  | cons i is ih => exact ih _

theorem along_mapRequest (streamId timeout : Nat) (ps : List Program) (tp : Transponder) :
    along (Transponder.assign streamId) (Transponder.mapRequest timeout) tp ps =
      along Edit.apply (Edit.requests timeout) tp.services (ps.map (.assign streamId)) := by
  induction ps generalizing tp with
  | nil => rfl
  | cons p ps ih => exact congrArg (Transponder.mapRequest timeout tp p ++ ·) (ih _)

theorem modifyIn_of_find?_eq_none {id : Nat} {f : Service → Service} {ss : List Service}
    (h : ss.find? (·.id = id) = none) : Service.modifyIn id f ss = ss := by
  induction ss with
  | nil => rfl
  | cons s ss ih =>
    rw [List.find?_cons] at h
    split at h
    · simp at h
    · next hs =>
      have hs : ¬ s.id = id := by simpa using hs
      rw [Service.modifyIn, if_neg hs, ih h]

theorem readPat_network (t : Pat) (n : Network) :
    (n.readPat o t).network = n.editServices (t.programs.map (.assign t.streamId)) := by
  unfold readPat
  cases hc : n.current? with
  | none => exact (editServices_eq_self _ hc).symm
  | some tp => exact modifyCurrent_congr fun tp _ => foldl_assign t.streamId t.programs tp

theorem readPat_requests (t : Pat) {n : Network} (hc : n.current?.isSome) :
    (n.readPat o t).requests = along Edit.apply (Edit.requests o.mapTimeout) n.currentServices
      (t.programs.map (.assign t.streamId)) := by
  obtain ⟨tp, hc⟩ := Option.isSome_iff_exists.1 hc
  unfold readPat currentServices
  rw [hc]
  exact along_mapRequest t.streamId o.mapTimeout t.programs tp

theorem readPat_unasked (t : Pat) {n : Network} (hc : n.current? = none) :
    (n.readPat o t).requests = [] := by
  unfold readPat
  rw [hc]

theorem readPat_overflow (t : Pat) (n : Network) : (n.readPat o t).overflow = false := by
  unfold readPat
  cases n.current? <;> rfl

theorem readPmt_network (t : Pmt) (n : Network) :
    (n.readPmt t).network = n.editServices [.applyMap t] := by
  unfold readPmt
  cases hs : n.current?.bind (·.service? t.program) with
  | some s => rfl
  | none =>
    refine (modifyCurrent_eq_self fun tp htp => ?_).symm
    have hf : tp.services.find? (·.id = t.program) = none := by
      rw [htp] at hs
      exact hs
    have he : Edit.applyAll [.applyMap t] tp.services = tp.services :=
      modifyIn_of_find?_eq_none hf
    rw [Transponder.onServices, he]

theorem readPmt_rest (t : Pmt) (n : Network) :
    (n.readPmt t).requests = [] ∧ (n.readPmt t).overflow = false := by
  unfold readPmt
  cases n.current?.bind (·.service? t.program) <;> exact ⟨rfl, rfl⟩

theorem readSdt_network (t : Sdt) (n : Network) :
    (n.readSdt t).network = n.editServices (t.services.map (.describe t.streamId)) := by
  unfold readSdt
  cases hc : n.current with
  | none => exact (editServices_eq_self _ (by simp [current?, hc])).symm
  | some id => exact modifyCurrent_congr fun tp _ => foldl_describe t.streamId t.services tp

theorem readSdt_rest (t : Sdt) (n : Network) :
    (n.readSdt t).requests = [] ∧ (n.readSdt t).overflow = false := by
  unfold readSdt
  cases n.current <;> exact ⟨rfl, rfl⟩

theorem parse_pat_ne_overflow (s : Section) : Pat.parse s ≠ .error .overflow := by
  unfold Pat.parse Section.expectTable Section.expect
  split
  · by_cases hl : s.payload.length % 4 = 0 <;>
      simp [hl, bind, Except.bind, Except.mapError, pure, Except.pure, throw, throwThe,
        MonadExceptOf.throw]
  · simp [bind, Except.bind, Except.mapError]

theorem parse_pmt_ne_overflow (s : Section) : Pmt.parse s ≠ .error .overflow := by
  unfold Pmt.parse Section.expectTable Section.expect
  split
  · simp only [bind, Except.bind, Except.mapError, pure, Except.pure, throw, throwThe,
      MonadExceptOf.throw]
    split
    · split <;> simp
    · simp
  · simp [bind, Except.bind, Except.mapError]

theorem parse_sdt_ne_overflow (s : Section) : Sdt.parse s ≠ .error .overflow := by
  unfold Sdt.parse
  cases he : Sdt.expect s with
  | ok _ =>
    simp only [bind, Except.bind, pure, Except.pure, throw, throwThe, MonadExceptOf.throw]
    split <;> simp
  | error e =>
    have hne : e ≠ .overflow := by
      rintro rfl
      unfold Sdt.expect Section.expectTable Section.expect at he
      split at he
      · simp at he
      · split at he <;> simp [Except.mapError] at he
    simp [bind, Except.bind, hne]

/-- The parts of what a section does: to transponders and services, what it asks for, and whether
it ends the program. -/
structure Effects (s : Section) (n : Network) (r : Reading) : Prop where
  network : r.network = (n.readTransponders o s).editServices s.edits
  requests : n.current?.isSome →
    r.requests = along Edit.apply (Edit.requests o.mapTimeout) n.currentServices s.edits
  unasked : n.current? = none → r.requests = []
  overflow : r.overflow = true ↔ s.Overflows

variable {o} {s : Section} {n : Network}

theorem decoded_effects {α : Type} {r : Except TableError α} (pid : Nat) (remarks : List Note)
    {f : α → Reading} (hok : ∀ a, r = .ok a → Effects o s n (f a))
    (herr : ∀ e, r = .error e → n.readTransponders o s = n ∧ s.edits = [])
    (ho : r = .error .overflow ↔ s.Overflows) : Effects o s n (decoded pid s n remarks f r) := by
  cases r with
  | ok a =>
    have h := hok a rfl
    exact ⟨h.network, h.requests, h.unasked, h.overflow⟩
  | error e =>
    obtain ⟨ht, he⟩ := herr e rfl
    have hn : n = (n.readTransponders o s).editServices s.edits := by
      rw [ht, he, editServices_nil]
    cases e with
    | overflow => exact ⟨hn, fun _ => he ▸ rfl, fun _ => rfl, by simp [decoded, ← ho]⟩
    | foreign | inconsistent => exact ⟨hn, fun _ => he ▸ rfl, fun _ => rfl, by simp [decoded, ← ho]⟩

theorem readTransponders_of_not_nit (hs : ¬ s.IsNit) : n.readTransponders o s = n := if_neg hs

theorem edits_pat (h : s.header.tableId = Pat.tableId) : s.edits = match Pat.parse s with
    | .ok t => t.programs.map (.assign t.streamId)
    | .error _ => [] := if_pos h

theorem edits_pmt (h : s.header.tableId = Pmt.tableId) : s.edits = match Pmt.parse s with
    | .ok t => [.applyMap t]
    | .error _ => [] := by
  have hpat : ¬ s.header.tableId = Pat.tableId := by rw [h]; decide
  exact (if_neg hpat).trans (if_pos h)

theorem edits_sdt (h : s.header.tableId = Sdt.actualId) : s.edits = match Sdt.parse s with
    | .ok t => t.services.map (.describe t.streamId)
    | .error _ => [] := by
  have hpat : ¬ s.header.tableId = Pat.tableId := by rw [h]; decide
  have hpmt : ¬ s.header.tableId = Pmt.tableId := by rw [h]; decide
  exact (if_neg hpat).trans ((if_neg hpmt).trans (if_pos h))

theorem edits_nit (h : s.IsNit) : s.edits = [] := by
  have hne (id : Nat) (hid : id ≠ Nit.actualId ∧ id ≠ Nit.otherId) : ¬ s.header.tableId = id :=
    fun heq => Section.not_isNit heq hid h
  have hpat := hne Pat.tableId (by decide)
  have hpmt := hne Pmt.tableId (by decide)
  have hsdt := hne Sdt.actualId (by decide)
  exact (if_neg hpat).trans ((if_neg hpmt).trans (if_neg hsdt))

theorem pat_effects (pid : Nat) (h : s.header.tableId = Pat.tableId) :
    Effects o s n (decoded pid s n [] (readPat o · n) (Pat.parse s)) := by
  have hn : ¬ s.IsNit := Section.not_isNit h (by decide)
  have ht := readTransponders_of_not_nit (o := o) (n := n) hn
  have ho : ¬ s.Overflows := fun h => hn h.1
  refine decoded_effects pid [] (fun t hp => ?_) (fun e hp => ⟨ht, by rw [edits_pat h, hp]⟩)
    (iff_of_false (parse_pat_ne_overflow s) ho)
  have he : s.edits = t.programs.map (.assign t.streamId) := by rw [edits_pat h, hp]
  exact {
    network := by rw [ht, he, readPat_network]
    requests := fun hc => by rw [he, readPat_requests o t hc]
    unasked := readPat_unasked o t
    overflow := by simp [readPat_overflow, ho] }

theorem pmt_effects (pid : Nat) (h : s.header.tableId = Pmt.tableId) :
    Effects o s n (decoded pid s n [] (readPmt · n) (Pmt.parse s)) := by
  have hn : ¬ s.IsNit := Section.not_isNit h (by decide)
  have ht := readTransponders_of_not_nit (o := o) (n := n) hn
  have ho : ¬ s.Overflows := fun h => hn h.1
  refine decoded_effects pid [] (fun t hp => ?_) (fun e hp => ⟨ht, by rw [edits_pmt h, hp]⟩)
    (iff_of_false (parse_pmt_ne_overflow s) ho)
  have he : s.edits = [.applyMap t] := by rw [edits_pmt h, hp]
  exact {
    network := by rw [ht, he, readPmt_network]
    requests := fun _ => by rw [he, (readPmt_rest t n).1]; rfl
    unasked := fun _ => (readPmt_rest t n).1
    overflow := by simp [readPmt_rest, ho] }

theorem sdt_effects (pid : Nat) (h : s.header.tableId = Sdt.actualId) :
    Effects o s n (decoded pid s n (Sdt.remarks s) (readSdt · n) (Sdt.parse s)) := by
  have hn : ¬ s.IsNit := Section.not_isNit h (by decide)
  have ht := readTransponders_of_not_nit (o := o) (n := n) hn
  have ho : ¬ s.Overflows := fun h => hn h.1
  refine decoded_effects pid _ (fun t hp => ?_) (fun e hp => ⟨ht, by rw [edits_sdt h, hp]⟩)
    (iff_of_false (parse_sdt_ne_overflow s) ho)
  have he : s.edits = t.services.map (.describe t.streamId) := by rw [edits_sdt h, hp]
  exact {
    network := by rw [ht, he, readSdt_network]
    requests := fun _ => by
      have hno : (t.services.map (Edit.describe t.streamId)).filter Edit.isAssign = [] := by
        rw [List.filter_eq_nil_iff]
        simp [Edit.isAssign]
      rw [he, Edit.requests_assigns, hno, (readSdt_rest t n).1]
      rfl
    unasked := fun _ => (readSdt_rest t n).1
    overflow := by simp [readSdt_rest, ho] }

theorem nit_effects (pid : Nat) (h : s.IsNit) :
    Effects o s n (decoded pid s n (Nit.remarks s) (readNit o · n) (Nit.parse s)) := by
  have he := edits_nit h
  refine decoded_effects pid _ (fun t hp => ?_) (fun e hp => ⟨?_, he⟩)
    ⟨fun hp => ⟨h, hp⟩, fun ho => ho.2⟩
  · exact {
      network := by
        rw [he, editServices_nil, readTransponders, if_pos h, hp]
        rfl
      requests := fun _ => he ▸ rfl
      unasked := fun _ => rfl
      overflow := by simp [readNit, Section.Overflows, hp] }
  · rw [readTransponders, if_pos h, hp]

theorem read_effects (o : ReadOptions) (pid : Nat) (s : Section) (n : Network) :
    Effects o s n (n.read o pid s) := by
  unfold read
  by_cases hpat : s.header.tableId = Pat.tableId
  · rw [if_pos hpat]
    exact pat_effects pid hpat
  by_cases hpmt : s.header.tableId = Pmt.tableId
  · rw [if_neg hpat, if_pos hpmt]
    exact pmt_effects pid hpmt
  rw [if_neg hpat, if_neg hpmt]
  by_cases hnit : s.header.tableId = Nit.actualId ∨ s.header.tableId = Nit.otherId
  · rw [if_pos hnit]
    exact nit_effects pid hnit
  by_cases hsdt : s.header.tableId = Sdt.actualId
  · rw [if_neg hnit, if_pos hsdt]
    exact sdt_effects pid hsdt
  rw [if_neg hnit, if_neg hsdt]
  have ht : n.readTransponders o s = n := if_neg hnit
  have he : s.edits = [] := (if_neg hpat).trans ((if_neg hpmt).trans (if_neg hsdt))
  exact {
    network := by rw [ht, he, editServices_nil]
    requests := fun _ => he ▸ rfl
    unasked := fun _ => rfl
    overflow := by simp [Section.Overflows, Section.IsNit, hnit] }

theorem read_of_not_nit (hs : ¬ s.IsNit) (pid : Nat) :
    (n.read o pid s).network = n.editServices s.edits ∧ (n.read o pid s).overflow = false := by
  have he := read_effects o pid s n
  have hn := he.network
  rw [readTransponders_of_not_nit hs] at hn
  exact ⟨hn, Bool.eq_false_iff.2 fun h => hs (he.overflow.1 h).1⟩

theorem tableId_of_assign_mem {streamId : Nat} {p : Program} (h : .assign streamId p ∈ s.edits) :
    s.header.tableId = Pat.tableId := by
  by_contra hpat
  unfold Section.edits at h
  rw [if_neg hpat] at h
  split at h
  · split at h <;> simp at h
  · split at h
    · split at h <;> simp at h
    · simp at h

theorem of_mem_requests {pid : Nat} {f : FilterSpec} (h : f ∈ (n.read o pid s).requests) :
    s.header.tableId = Pat.tableId ∧ ∃ mapPid, f = .once mapPid Pmt.tableId o.mapTimeout := by
  have he := read_effects o pid s n
  cases hc : n.current? with
  | none => simp [he.unasked hc] at h
  | some tp =>
    rw [he.requests (by rw [hc]; rfl)] at h
    obtain ⟨ss, e, hm, hf⟩ := mem_along h
    cases e with
    | assign t p =>
      simp only [Edit.requests] at hf
      split at hf
      · exact ⟨tableId_of_assign_mem hm, p.pid, List.mem_singleton.1 hf⟩
      · simp at hf
    | describe | applyMap => simp [Edit.requests] at hf

theorem runOnce_of_mem_requests {pid : Nat} {f : FilterSpec}
    (h : f ∈ (n.read o pid s).requests) : f.runOnce = true := by
  obtain ⟨-, mapPid, rfl⟩ := of_mem_requests h
  rfl

end Network

end Bandscan
