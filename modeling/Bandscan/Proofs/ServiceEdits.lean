import Mathlib.Data.List.Nodup
import Bandscan.Filter.Spec
import Bandscan.Network.Service
/-!
What a table does to the services of a transponder, entry by entry. Edits act on each service by
itself: `find?_applyAll` reduces a list of edits to what it does to a single, perhaps missing,
service, and there edits of different tables commute.
-/

namespace Bandscan

inductive Edit where
  | assign (streamId : Nat) (p : Program)
  | describe (streamId : Nat) (i : ServiceInfo)
  | applyMap (m : Pmt)

namespace Edit

def isAssign : Edit → Bool
  | .assign .. => true
  | _ => false

def isDescribe : Edit → Bool
  | .describe .. => true
  | _ => false

def isMap : Edit → Bool
  | .applyMap _ => true
  | _ => false

def serviceId : Edit → Nat
  | .assign _ p => p.number
  | .describe _ i => i.serviceId
  | .applyMap m => m.program

def apply (ss : List Service) : Edit → List Service
  | .assign streamId p => Service.updateIn p.number (Service.assign streamId p) ss
  | .describe streamId i => Service.updateIn i.serviceId (Service.describe streamId i) ss
  | .applyMap m => Service.modifyIn m.program (Service.applyMap m) ss

def applyAll (es : List Edit) (ss : List Service) : List Service := es.foldl apply ss

/-- What the edit makes of the service it is for. Only a map needs one to be there. -/
def onService (x : Option Service) : Edit → Option Service
  | .assign streamId p => some (Service.assign streamId p (x.getD { id := p.number }))
  | .describe streamId i => some (Service.describe streamId i (x.getD { id := i.serviceId }))
  | .applyMap m => x.map (Service.applyMap m)

def act (id : Nat) (x : Option Service) (e : Edit) : Option Service :=
  if e.serviceId = id then e.onService x else x

def actAll (id : Nat) (es : List Edit) (x : Option Service) : Option Service := es.foldl (act id) x

end Edit

namespace Service

@[simp] theorem id_assign (streamId : Nat) (p : Program) (s : Service) :
    (s.assign streamId p).id = s.id := rfl

theorem describe_eq (streamId : Nat) (i : ServiceInfo) (s : Service) :
    s.describe streamId i = { s with
      streamId
      running := i.running
      scrambled := i.scrambled
      serviceType := (i.description.map (·.serviceType)).getD s.serviceType
      provider := (i.description.map (·.provider)).getD s.provider
      name := (i.description.map (·.name)).getD s.name
      caSystems :=
        if i.caSystems = [] then s.caSystems else i.caSystems.take maxCaSystems } := by
  unfold describe
  cases i.description <;> by_cases hc : i.caSystems = [] <;> simp [hc, setCaSystems]

@[simp] theorem id_describe (streamId : Nat) (i : ServiceInfo) (s : Service) :
    (s.describe streamId i).id = s.id := by
  rw [describe_eq]

theorem addStream_id (s : Service) (st : Stream) : (s.addStream st).id = s.id := by
  unfold addStream pushAudio
  split <;> (try split) <;> rfl

@[simp] theorem id_applyMap (m : Pmt) (s : Service) : (s.applyMap m).id = s.id := by
  suffices h : ∀ (sts : List Stream) (s : Service), (sts.foldl addStream s).id = s.id from
    h m.streams _
  intro sts
  induction sts with
  | nil => exact fun s => rfl
  | cons st sts ih => exact fun s => (ih _).trans (addStream_id s st)

variable {id : Nat} {f : Service → Service}

theorem find?_modifyIn (hf : ∀ s, (f s).id = s.id) (j : Nat) (ss : List Service) :
    (modifyIn id f ss).find? (·.id = j) =
      if id = j then (ss.find? (·.id = j)).map f else ss.find? (·.id = j) := by
  induction ss with
  | nil => simp [modifyIn]
  | cons s ss ih =>
    unfold modifyIn
    by_cases hs : s.id = id
    · by_cases hj : id = j
      · simp [hs, hj, hf]
      · simp [hs, hj, hf]
    · by_cases hj : s.id = j
      · subst hj
        have hne : ¬ id = s.id := fun h => hs h.symm
        simp [hs, hne]
      · simp [hs, hj, ih]

theorem find?_updateIn (hf : ∀ s, (f s).id = s.id) (j : Nat) (ss : List Service) :
    (updateIn id f ss).find? (·.id = j) =
      if id = j then some (f ((ss.find? (·.id = j)).getD { id })) else ss.find? (·.id = j) := by
  induction ss with
  | nil =>
    by_cases hj : id = j
    · simp [updateIn, hf, hj]
    · simp [updateIn, hf, hj]
  | cons s ss ih =>
    unfold updateIn
    by_cases hs : s.id = id
    · by_cases hj : id = j
      · simp [hs, hj, hf]
      · simp [hs, hj, hf]
    · by_cases hj : s.id = j
      · subst hj
        have hne : ¬ id = s.id := fun h => hs h.symm
        simp [hs, hne]
      · simp [hs, hj, ih]

theorem map_id_modifyIn (hf : ∀ s, (f s).id = s.id) (ss : List Service) :
    (modifyIn id f ss).map (·.id) = ss.map (·.id) := by
  induction ss with
  | nil => rfl
  | cons s ss ih =>
    unfold modifyIn
    split
    · simp [hf]
    · simp [ih]

theorem map_id_updateIn (hf : ∀ s, (f s).id = s.id) (ss : List Service) :
    (updateIn id f ss).map (·.id) =
      if id ∈ ss.map (·.id) then ss.map (·.id) else ss.map (·.id) ++ [id] := by
  induction ss with
  | nil => simp [updateIn, hf]
  | cons s ss ih =>
    unfold updateIn
    by_cases hs : s.id = id
    · simp [hs, hf]
    · have hs' : ¬ id = s.id := fun h => hs h.symm
      by_cases hm : id ∈ ss.map (·.id)
      · rw [if_neg hs, List.map_cons, List.map_cons, ih, if_pos hm,
          if_pos (List.mem_cons_of_mem _ hm)]
      · rw [if_neg hs, List.map_cons, List.map_cons, ih, if_neg hm,
          if_neg (by simpa [hs'] using hm)]
        rfl

theorem nodup_updateIn (hf : ∀ s, (f s).id = s.id) {ss : List Service}
    (h : (ss.map (·.id)).Nodup) : ((updateIn id f ss).map (·.id)).Nodup := by
  rw [map_id_updateIn hf]
  split
  · exact h
  · next hm =>
    rw [List.nodup_append]
    refine ⟨h, by simp, fun a ha b hb => ?_⟩
    obtain rfl := List.mem_singleton.1 hb
    exact fun he => hm (he ▸ ha)

/-- Lists of services with distinct ids are determined, up to their order, by what is found under
each id. -/
theorem perm_of_find? {ss ts : List Service} (hs : (ss.map (·.id)).Nodup)
    (ht : (ts.map (·.id)).Nodup) (h : ∀ j, ss.find? (·.id = j) = ts.find? (·.id = j)) :
    ss.Perm ts := by
  have hmem {ss : List Service} (hs : (ss.map (·.id)).Nodup) (s : Service) :
      s ∈ ss ↔ ss.find? (·.id = s.id) = some s := by
    refine ⟨fun hm => ?_, List.mem_of_find?_eq_some⟩
    induction ss with
    | nil => simp at hm
    | cons t ss ih =>
      rw [List.map_cons, List.nodup_cons] at hs
      rcases List.mem_cons.1 hm with rfl | hm
      · simp
      · have hne : ¬ t.id = s.id := fun he => hs.1 (he ▸ List.mem_map_of_mem hm)
        simp [hne, ih hs.2 hm]
  refine (List.perm_ext_iff_of_nodup hs.of_map ht.of_map).2 fun s => ?_
  rw [hmem hs, hmem ht, h]

end Service

namespace Edit

theorem find?_apply (e : Edit) (j : Nat) (ss : List Service) :
    (apply ss e).find? (·.id = j) = act j (ss.find? (·.id = j)) e := by
  cases e with
  | assign streamId p => exact Service.find?_updateIn (Service.id_assign streamId p) j ss
  | describe streamId i => exact Service.find?_updateIn (Service.id_describe streamId i) j ss
  | applyMap m => exact Service.find?_modifyIn (Service.id_applyMap m) j ss

theorem find?_applyAll (es : List Edit) (j : Nat) (ss : List Service) :
    (applyAll es ss).find? (·.id = j) = actAll j es (ss.find? (·.id = j)) := by
  induction es generalizing ss with
  | nil => rfl
  | cons e es ih =>
    have h := ih (apply ss e)
    rwa [find?_apply] at h

theorem nodup_apply (e : Edit) {ss : List Service} (h : (ss.map (·.id)).Nodup) :
    ((apply ss e).map (·.id)).Nodup := by
  cases e with
  | assign streamId p => exact Service.nodup_updateIn (Service.id_assign streamId p) h
  | describe streamId i => exact Service.nodup_updateIn (Service.id_describe streamId i) h
  | applyMap m => exact Service.map_id_modifyIn (Service.id_applyMap m) ss ▸ h

theorem nodup_applyAll (es : List Edit) {ss : List Service} (h : (ss.map (·.id)).Nodup) :
    ((applyAll es ss).map (·.id)).Nodup := by
  induction es generalizing ss with
  | nil => exact h
  | cons e es ih => exact ih (nodup_apply e h)

theorem describe_assign (streamId : Nat) (p : Program) (i : ServiceInfo) (s : Service) :
    (s.assign streamId p).describe streamId i = (s.describe streamId i).assign streamId p := by
  rw [Service.describe_eq, Service.describe_eq]
  rfl

theorem describe_addStream (streamId : Nat) (i : ServiceInfo) (s : Service) (st : Stream) :
    (s.addStream st).describe streamId i = (s.describe streamId i).addStream st := by
  rw [Service.describe_eq, Service.describe_eq]
  unfold Service.addStream
  cases st.kind with
  | video => dsimp only; split <;> rfl
  | audio language => unfold Service.pushAudio Service.hasRoom; dsimp only; split <;> rfl
  | teletext | subtitling | ac3 | other => rfl

theorem describe_applyMap (streamId : Nat) (i : ServiceInfo) (m : Pmt) (s : Service) :
    (s.applyMap m).describe streamId i = (s.describe streamId i).applyMap m := by
  suffices h : ∀ (sts : List Stream) (s : Service),
      (sts.foldl Service.addStream s).describe streamId i =
        sts.foldl Service.addStream (s.describe streamId i) by
    have hr : (s.rewound m.clockPid).describe streamId i =
        (s.describe streamId i).rewound m.clockPid := by
      rw [Service.describe_eq, Service.describe_eq]
      rfl
    rw [Service.applyMap, h, hr]
    rfl
  intro sts
  induction sts with
  | nil => exact fun s => rfl
  | cons st sts ih =>
    intro s
    rw [List.foldl_cons, List.foldl_cons, ih, describe_addStream]

theorem act_describe_assign (j streamId : Nat) (p : Program) (i : ServiceInfo)
    (x : Option Service) :
    act j (act j x (.assign streamId p)) (.describe streamId i) =
      act j (act j x (.describe streamId i)) (.assign streamId p) := by
  unfold act serviceId
  by_cases hp : p.number = j <;> by_cases hi : i.serviceId = j <;>
    simp [hp, hi, onService, describe_assign]

/-- Descriptions commute with a map, unless the map is for a service that is missing. -/
theorem act_describe_applyMap (j streamId : Nat) (i : ServiceInfo) (m : Pmt)
    {x : Option Service} (hx : m.program = j → x.isSome) :
    act j (act j x (.applyMap m)) (.describe streamId i) =
      act j (act j x (.describe streamId i)) (.applyMap m) := by
  unfold act serviceId
  by_cases hm : m.program = j
  · obtain ⟨s, rfl⟩ := Option.isSome_iff_exists.1 (hx hm)
    by_cases hi : i.serviceId = j <;> simp [hm, hi, onService, describe_applyMap]
  · by_cases hi : i.serviceId = j <;> simp [hm, hi]

theorem isSome_act (j : Nat) {x : Option Service} (e : Edit) (h : x.isSome) :
    (act j x e).isSome := by
  obtain ⟨s, rfl⟩ := Option.isSome_iff_exists.1 h
  unfold act
  split
  · cases e <;> rfl
  · rfl

/-- The edit comes from a table of this transport stream, if it is one that names a stream. -/
def OfStream (streamId : Nat) : Edit → Prop
  | .assign t _ | .describe t _ => t = streamId
  | .applyMap _ => True

theorem actAll_assigns (j streamId : Nat) (i : ServiceInfo) {es : List Edit}
    (ha : ∀ e ∈ es, e.isAssign) (hs : ∀ e ∈ es, e.OfStream streamId) (x : Option Service) :
    actAll j es (act j x (.describe streamId i)) =
      act j (actAll j es x) (.describe streamId i) := by
  induction es generalizing x with
  | nil => rfl
  | cons e es ih =>
    have ih := ih (fun e h => ha e (List.mem_cons_of_mem _ h))
      (fun e h => hs e (List.mem_cons_of_mem _ h)) (act j x e)
    cases e with
    | assign t p =>
      obtain rfl : t = streamId := hs _ List.mem_cons_self
      rwa [act_describe_assign] at ih
    | describe | applyMap => simp [isAssign] at ha

theorem actAll_describes (j : Nat) (m : Pmt) {es : List Edit} (hd : ∀ e ∈ es, e.isDescribe)
    {x : Option Service} (hx : m.program = j → x.isSome) :
    actAll j es (act j x (.applyMap m)) = act j (actAll j es x) (.applyMap m) := by
  induction es generalizing x with
  | nil => rfl
  | cons e es ih =>
    have ih := ih (fun e h => hd e (List.mem_cons_of_mem _ h)) (fun h => isSome_act j e (hx h))
    cases e with
    | describe t i => rwa [← act_describe_applyMap j t i m hx] at ih
    | assign | applyMap => simp [isDescribe] at hd

/-- Edits of one stream may be sorted by table, unless a map comes before an entry of the
association table or is for a service that is missing. -/
theorem actAll_sorted (j : Nat) {streamId : Nat} {es : List Edit} {x : Option Service}
    (hs : ∀ e ∈ es, e.OfStream streamId) (hl : es.Pairwise fun a b => a.isMap → ¬ b.isAssign)
    (hk : (∃ e ∈ es, e.isMap ∧ e.serviceId = j) →
      x.isSome ∨ ∃ e ∈ es, e.isAssign ∧ e.serviceId = j) :
    actAll j es x = actAll j (es.filter isMap)
      (actAll j (es.filter isDescribe) (actAll j (es.filter isAssign) x)) := by
  induction es generalizing x with
  | nil => rfl
  | cons e es ih =>
    rw [List.pairwise_cons] at hl
    have hs' : ∀ e ∈ es, e.OfStream streamId := fun e h => hs e (List.mem_cons_of_mem _ h)
    have hk' : (∃ e ∈ es, e.isMap ∧ e.serviceId = j) →
        (act j x e).isSome ∨ ∃ e ∈ es, e.isAssign ∧ e.serviceId = j := by
      rintro ⟨m, hm, hmj⟩
      rcases hk ⟨m, List.mem_cons_of_mem _ hm, hmj⟩ with hx | ⟨a, ha, haj⟩
      · exact .inl (isSome_act j e hx)
      · rcases List.mem_cons.1 ha with rfl | ha
        · refine .inl ?_
          cases a with
          | assign t p => simp [act, haj.2, onService]
          | describe | applyMap => simp [isAssign] at haj
        · exact .inr ⟨a, ha, haj⟩
    have h := ih hs' hl.2 hk'
    cases e with
    | assign t p => exact h
    | describe t i =>
      obtain rfl : t = streamId := hs _ List.mem_cons_self
      rw [actAll_assigns j t i (fun e h => (List.mem_filter.1 h).2)
        (fun e h => hs' e (List.mem_filter.1 h).1)] at h
      exact h
    | applyMap m =>
      have hno : es.filter isAssign = [] :=
        List.filter_eq_nil_iff.2 fun a ha => hl.1 a ha rfl
      have hx : m.program = j → x.isSome := by
        intro hj
        rcases hk ⟨_, List.mem_cons_self, rfl, hj⟩ with hx | ⟨a, ha, haj⟩
        · exact hx
        · rcases List.mem_cons.1 ha with rfl | ha
          · simp [isAssign] at haj
          · exact absurd haj.1 (hl.1 a ha rfl)
      have hds : ∀ e ∈ es.filter isDescribe, e.isDescribe := fun e h => (List.mem_filter.1 h).2
      have hd := actAll_describes j m hds hx
      rw [hno] at h
      have hno' : (Edit.applyMap m :: es).filter isAssign = [] := hno
      rw [hno']
      exact h.trans (congrArg _ hd)

def requests (timeout : Nat) (ss : List Service) : Edit → List FilterSpec
  | .assign _ p =>
    if p.pid ≠ 0 ∧ !((ss.find? (·.id = p.number)).any (·.mapRequested)) then
      [.once p.pid Pmt.tableId timeout]
    else []
  | _ => []

def asksFor (j : Nat) : Edit → Bool
  | .assign _ p => p.number = j && p.pid ≠ 0
  | _ => false

theorem requested_applyMap (m : Pmt) (s : Service) :
    (s.applyMap m).mapRequested = s.mapRequested := by
  suffices h : ∀ (sts : List Stream) (s : Service),
      (sts.foldl Service.addStream s).mapRequested = s.mapRequested from h m.streams _
  intro sts
  induction sts with
  | nil => exact fun s => rfl
  | cons st sts ih =>
    intro s
    refine (ih _).trans ?_
    unfold Service.addStream Service.pushAudio
    split <;> (try split) <;> rfl

theorem requested_act (j : Nat) (x : Option Service) (e : Edit) :
    (act j x e).any (·.mapRequested) = (x.any (·.mapRequested) || e.asksFor j) := by
  unfold act
  by_cases he : e.serviceId = j
  · rw [if_pos he]
    cases e with
    | assign t p =>
      have hp : p.number = j := he
      cases x <;> simp [onService, Service.assign, asksFor, hp]
    | describe t i => cases x <;> simp [onService, Service.describe_eq, asksFor]
    | applyMap m => cases x <;> simp [onService, requested_applyMap, asksFor]
  · rw [if_neg he]
    cases e with
    | assign t p =>
      have hp : ¬ p.number = j := he
      simp [asksFor, hp]
    | describe | applyMap => simp [asksFor]

theorem requests_congr (timeout : Nat) (es : List Edit) {ss ts : List Service}
    (h : ∀ j, (ss.find? (·.id = j)).any (·.mapRequested) =
      (ts.find? (·.id = j)).any (·.mapRequested)) :
    along apply (requests timeout) ss es = along apply (requests timeout) ts es := by
  induction es generalizing ss ts with
  | nil => rfl
  | cons e es ih =>
    have he : requests timeout ss e = requests timeout ts e := by
      cases e with
      | assign t p => simp only [requests, h]
      | describe | applyMap => rfl
    have hes := @ih (apply ss e) (apply ts e) fun j => by
      rw [find?_apply, find?_apply, requested_act, requested_act, h]
    rw [along, along, he, hes]

/-- Only the association table asks for maps, and nothing else has a say in it. -/
theorem requests_assigns (timeout : Nat) (es : List Edit) (ss : List Service) :
    along apply (requests timeout) ss es =
      along apply (requests timeout) ss (es.filter isAssign) := by
  induction es generalizing ss with
  | nil => rfl
  | cons e es ih =>
    cases e with
    | assign t p => exact congrArg (requests timeout ss (.assign t p) ++ ·) (ih _)
    | describe | applyMap =>
      refine (ih _).trans (requests_congr timeout _ fun j => ?_)
      rw [find?_apply, requested_act]
      simp [asksFor]

end Edit

end Bandscan
