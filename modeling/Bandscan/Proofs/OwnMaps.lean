import Bandscan.Proofs.TableOrder
/-!
What an association table and maps make of one service. If no two programs have the same number, the
filters asked for can be counted program by program, and a service is assigned once and then takes
over its own maps, one after the other.
-/

namespace Bandscan

namespace Edit

theorem act_of_ne {e : Edit} {j : Nat} (h : e.serviceId ≠ j) (x : Option Service) : act j x e = x :=
  if_neg h

/-- Distinct programs have no say in each other's requests. -/
theorem requests_of_distinct (timeout streamId : Nat) {ps : List Program}
    (hn : (ps.map (·.number)).Nodup) (ss : List Service) :
    along apply (requests timeout) ss (ps.map (.assign streamId)) =
      ps.flatMap fun p => requests timeout ss (.assign streamId p) := by
  induction ps generalizing ss with
  | nil => rfl
  | cons p ps ih =>
    rw [List.map_cons, List.nodup_cons] at hn
    rw [List.map_cons, along, ih hn.2, List.flatMap_cons]
    refine congrArg _ (List.flatMap_congr fun q hq => ?_)
    have hne : p.number ≠ q.number := fun he => hn.1 (he ▸ List.mem_map_of_mem hq)
    have hsame : (apply ss (.assign streamId p)).find? (·.id = q.number) =
        ss.find? (·.id = q.number) := by
      rw [find?_apply]
      exact act_of_ne (e := .assign streamId p) hne _
    simp only [requests, hsame]

theorem actAll_assign {streamId : Nat} {ps : List Program} (hn : (ps.map (·.number)).Nodup)
    {p : Program} (hp : p ∈ ps) (x : Option Service) :
    actAll p.number (ps.map (.assign streamId)) x =
      some ((x.getD { id := p.number }).assign streamId p) := by
  have hothers (qs : List Program) (hq : p.number ∉ qs.map (·.number)) (x : Option Service) :
      actAll p.number (qs.map (.assign streamId)) x = x := by
    induction qs with
    | nil => rfl
    | cons q qs ih =>
      rw [List.map_cons, List.mem_cons, not_or] at hq
      have hq' := act_of_ne (e := .assign streamId q) (Ne.symm hq.1) x
      rw [List.map_cons, actAll, List.foldl_cons, hq']
      exact ih hq.2
  obtain ⟨qs, rs, rfl⟩ := List.append_of_mem hp
  rw [List.map_append, List.nodup_append] at hn
  have hqs : p.number ∉ qs.map (·.number) := fun hm =>
    hn.2.2 p.number hm p.number (by simp) rfl
  have hrs : p.number ∉ rs.map (·.number) := (List.nodup_cons.1 hn.2.1).1
  have hone : act p.number x (.assign streamId p) =
      some ((x.getD { id := p.number }).assign streamId p) := if_pos rfl
  calc actAll p.number ((qs ++ p :: rs).map (.assign streamId)) x
      = actAll p.number (rs.map (.assign streamId)) (act p.number
          (actAll p.number (qs.map (.assign streamId)) x) (.assign streamId p)) := by
        simp [actAll]
    _ = act p.number x (.assign streamId p) := by rw [hothers qs hqs, hothers rs hrs]
    _ = some ((x.getD { id := p.number }).assign streamId p) := hone

end Edit

def Program.ownMaps (p : Program) (sections : List Section) : List Pmt :=
  (sections.filterMap fun s => (Pmt.parse s).toOption).filter (·.program = p.number)

namespace Program

variable {p : Program}

theorem ownMaps_cons_of_error {s : Section} {e : TableError} (h : Pmt.parse s = .error e)
    (sections : List Section) : p.ownMaps (s :: sections) = p.ownMaps sections := by
  simp [ownMaps, h, Except.toOption]

theorem ownMaps_cons_of_ok {s : Section} {m : Pmt} (h : Pmt.parse s = .ok m)
    (sections : List Section) : p.ownMaps (s :: sections) =
      if m.program = p.number then m :: p.ownMaps sections else p.ownMaps sections := by
  by_cases hm : m.program = p.number <;> simp [ownMaps, h, hm, Except.toOption]

theorem ownMaps_filter {α : Type} {P : α → Bool} (f : α → Section) {l : List α}
    (h : ∀ a ∈ l, ∀ m, Pmt.parse (f a) = .ok m → m.program = p.number → P a = true) :
    p.ownMaps ((l.filter P).map f) = p.ownMaps (l.map f) := by
  induction l with
  | nil => rfl
  | cons a l ih =>
    have ih := ih fun b hb => h b (List.mem_cons_of_mem _ hb)
    have ha := h a List.mem_cons_self
    cases hm : Pmt.parse (f a) with
    | error e =>
      rw [List.map_cons, ownMaps_cons_of_error hm, ← ih]
      cases hP : P a with
      | true => rw [List.filter_cons_of_pos hP, List.map_cons, ownMaps_cons_of_error hm]
      | false => rw [List.filter_cons_of_neg (by simp [hP])]
    | ok m =>
      rw [List.map_cons, ownMaps_cons_of_ok hm, ← ih]
      cases hP : P a with
      | true => rw [List.filter_cons_of_pos hP, List.map_cons, ownMaps_cons_of_ok hm]
      | false =>
        have hne : m.program ≠ p.number := fun he => by simp [ha m hm he] at hP
        rw [List.filter_cons_of_neg (by simp [hP]), if_neg hne]

theorem actAll_ownMaps {sections : List Section}
    (h : ∀ s ∈ sections, s.header.tableId = Pmt.tableId) (x : Service) :
    Edit.actAll p.number (sections.flatMap Section.edits) (some x) =
      some ((p.ownMaps sections).foldl (fun x m => x.applyMap m) x) := by
  induction sections generalizing x with
  | nil => rfl
  | cons s sections ih =>
    have ih := ih fun s' hs => h s' (List.mem_cons_of_mem _ hs)
    have hedits := Network.edits_pmt (h s List.mem_cons_self)
    rw [List.flatMap_cons, Edit.actAll, List.foldl_append]
    cases hm : Pmt.parse s with
    | error e =>
      rw [hedits, hm, ownMaps_cons_of_error hm]
      exact ih x
    | ok m =>
      rw [hedits, hm, ownMaps_cons_of_ok hm, List.foldl_cons, List.foldl_nil]
      by_cases hp : m.program = p.number
      · have hact : Edit.act p.number (some x) (.applyMap m) = some (x.applyMap m) := if_pos hp
        rw [hact, if_pos hp, List.foldl_cons]
        exact ih (x.applyMap m)
      · rw [Edit.act_of_ne (e := .applyMap m) hp, if_neg hp]
        exact ih x

end Program

namespace Service

theorem clockPid_addStream (s : Service) (st : Stream) :
    (s.addStream st).clockPid = s.clockPid := by
  unfold addStream pushAudio
  split <;> (try split) <;> rfl

theorem clockPid_applyMap (m : Pmt) (s : Service) : (s.applyMap m).clockPid = m.clockPid := by
  suffices h : ∀ (sts : List Stream) (s : Service),
      (sts.foldl addStream s).clockPid = s.clockPid from h m.streams _
  intro sts
  induction sts with
  | nil => exact fun s => rfl
  | cons st sts ih => exact fun s => (ih _).trans (clockPid_addStream s st)

theorem clockPid_foldl_applyMap (ms : List Pmt) (s : Service) :
    (ms.foldl (fun s m => s.applyMap m) s).clockPid =
      (ms.getLast?.map (·.clockPid)).getD s.clockPid := by
  rcases List.eq_nil_or_concat ms with rfl | ⟨ms, m, rfl⟩
  · rfl
  · simp [clockPid_applyMap]

end Service

namespace Network

/-- How many maps an association table asks for on a pid: one for each of its programs there that
none has been asked for yet. -/
def mapsAsked (n : Network) (t : Pat) (pid : Nat) : Nat :=
  t.programs.countP fun p => p.pid = pid &&
    !((n.currentServices.find? (·.id = p.number)).any (·.mapRequested))

theorem countP_requests (timeout streamId : Nat) (ss : List Service) {ps : List Program}
    (h : ∀ p ∈ ps, p.pid ≠ 0) (pid : Nat) :
    (ps.flatMap fun p => Edit.requests timeout ss (.assign streamId p)).countP
        (fun f => (f.pid, f.tableId) = (pid, Pmt.tableId)) =
      ps.countP fun p => p.pid = pid && !((ss.find? (·.id = p.number)).any (·.mapRequested)) := by
  induction ps with
  | nil => rfl
  | cons p ps ih =>
    have hp := h p List.mem_cons_self
    rw [List.flatMap_cons, List.countP_append, ih fun q hq => h q (List.mem_cons_of_mem _ hq),
      List.countP_cons, Nat.add_comm]
    refine congrArg _ ?_
    by_cases hr : (ss.find? (·.id = p.number)).any (·.mapRequested) = true
    · simp [Edit.requests, hr]
    · by_cases hpid : p.pid = pid
      · subst hpid
        simp [Edit.requests, hr, hp, FilterSpec.once]
      · simp [Edit.requests, hr, hp, hpid, FilterSpec.once]

theorem countP_readPat {o : ReadOptions} {n : Network} {t : Pat}
    (hc : n.current?.isSome) (hn : (t.programs.map (·.number)).Nodup)
    (hp : ∀ p ∈ t.programs, p.pid ≠ 0) (pid : Nat) :
    (n.readPat o t).requests.countP (fun f => (f.pid, f.tableId) = (pid, Pmt.tableId)) =
      n.mapsAsked t pid := by
  rw [readPat_requests o t hc, Edit.requests_of_distinct _ _ hn]
  exact countP_requests _ _ _ hp pid

end Network

end Bandscan
