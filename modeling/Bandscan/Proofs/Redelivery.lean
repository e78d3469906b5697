import Bandscan.Proofs.TableOrder
/-!
A section that is delivered once more changes nothing. Entries of tables overwrite what earlier
entries have written, so that going through a list of them once more comes to the same; and a
multiplex that has been registered is found again where it was registered.
-/

namespace Bandscan

section Overwriting

variable {σ α : Type} {act : σ → α → σ}

/-- Whoever acts last is not impressed by having acted before. -/
structure Overwrites (act : σ → α → σ) : Prop where
  again : ∀ s a, act (act s a) a = act s a
  later : ∀ s a b, act (act (act s a) b) a = act (act s b) a

theorem Overwrites.foldl_absorb (h : Overwrites act) (s : σ) (a : α) (as : List α) :
    act (as.foldl act (act s a)) a = act (as.foldl act s) a := by
  induction as generalizing s with
  | nil => exact h.again s a
  | cons b as ih =>
    calc act (as.foldl act (act (act s a) b)) a
        = act (as.foldl act (act (act (act s a) b) a)) a := (ih _).symm
      _ = act (as.foldl act (act (act s b) a)) a := by rw [h.later]
      _ = act (as.foldl act (act s b)) a := ih _

theorem Overwrites.foldl_act (h : Overwrites act) (s : σ) {a : α} {as : List α} (ha : a ∈ as) :
    as.foldl act (act s a) = as.foldl act s := by
  obtain ⟨l, r, rfl⟩ := List.append_of_mem ha
  simp only [List.foldl_append, List.foldl_cons, h.foldl_absorb]

theorem Overwrites.foldl_foldl (h : Overwrites act) (s : σ) (as : List α) :
    as.foldl act (as.foldl act s) = as.foldl act s := by
  suffices hsub : ∀ bs : List α, bs ⊆ as → ∀ s, as.foldl act (bs.foldl act s) = as.foldl act s from
    hsub as (List.Subset.refl as) s
  intro bs
  -- each act of the first round is undone by its own occurrence in the second
  induction bs with
  | nil => exact fun _ s => rfl
  | cons b bs ih =>
    intro hsub s
    rw [List.cons_subset] at hsub
    exact (ih hsub.2 (act s b)).trans (h.foldl_act s hsub.1)

end Overwriting

namespace Service

variable {α : Type} {key : α → Nat} {f : α → Service → Service}

def updateAll (key : α → Nat) (f : α → Service → Service) (as : List α) (ss : List Service) :
    List Service := as.foldl (fun ss a => updateIn (key a) (f a) ss) ss

/-- The entries for the first service act on it, the others act on the rest. -/
theorem updateAll_cons (hf : ∀ a s, (f a s).id = s.id) (as : List α) (s : Service)
    (ss : List Service) :
    updateAll key f as (s :: ss) =
      (as.filter (key · = s.id)).foldl (fun s a => f a s) s ::
        updateAll key f (as.filter (key · ≠ s.id)) ss := by
  unfold updateAll
  induction as generalizing s ss with
  | nil => rfl
  | cons a as ih =>
    rw [List.foldl_cons]
    by_cases ha : key a = s.id
    · have hs : updateIn (key a) (f a) (s :: ss) = f a s :: ss := by simp [updateIn, ha]
      rw [hs, ih, hf]
      simp [ha]
    · have hs : updateIn (key a) (f a) (s :: ss) = s :: updateIn (key a) (f a) ss := by
        simp [updateIn, Ne.symm ha]
      rw [hs, ih]
      simp [ha]

theorem id_foldl (hf : ∀ a s, (f a s).id = s.id) (as : List α) (s : Service) :
    (as.foldl (fun s a => f a s) s).id = s.id := by
  induction as generalizing s with
  | nil => rfl
  | cons a as ih => exact (ih _).trans (hf a s)

theorem updateAll_twice_cons (hf : ∀ a s, (f a s).id = s.id)
    (ho : Overwrites fun s a => f a s) (as : List α) (s : Service) {ss : List Service}
    (ih : let others := as.filter (key · ≠ s.id)
      updateAll key f others (updateAll key f others ss) = updateAll key f others ss) :
    updateAll key f as (updateAll key f as (s :: ss)) = updateAll key f as (s :: ss) := by
  rw [updateAll_cons hf, updateAll_cons hf, id_foldl hf, ho.foldl_foldl, ih]

/-- An entry for a service that is missing creates it, and from then on it is there. -/
theorem updateAll_twice_nil (hf : ∀ a s, (f a s).id = s.id) (ho : Overwrites fun s a => f a s)
    (as : List α) : updateAll key f as (updateAll key f as []) = updateAll key f as [] := by
  -- the first entry creates its service; what is not meant for it are fewer entries, on no service
  induction hn : as.length using Nat.strongRecOn generalizing as with
  | _ n ih =>
    subst hn
    cases as with
    | nil => rfl
    | cons a as =>
      have hid : (f a { id := key a }).id = key a := hf a _
      have hfirst (ss : List Service) :
          updateAll key f (a :: as) (f a { id := key a } :: ss) =
            updateAll key f as (f a { id := key a } :: ss) := by
        unfold updateAll
        rw [List.foldl_cons, updateIn, if_pos hid, ho.again]
      have hothers : (as.filter (key · ≠ key a)).length < (a :: as).length :=
        Nat.lt_succ_of_le (List.length_filter_le _ _)
      have hcreate : updateAll key f (a :: as) [] =
          updateAll key f (a :: as) [f a { id := key a }] := (hfirst []).symm
      rw [hcreate]
      refine updateAll_twice_cons hf ho (a :: as) _ ?_
      rw [hid]
      have hskip : (a :: as).filter (key · ≠ key a) = as.filter (key · ≠ key a) := by simp
      rw [hskip]
      exact ih _ hothers _ rfl

theorem updateAll_twice (hf : ∀ a s, (f a s).id = s.id) (ho : Overwrites fun s a => f a s)
    (as : List α) (ss : List Service) :
    updateAll key f as (updateAll key f as ss) = updateAll key f as ss := by
  induction ss generalizing as with
  | nil => exact updateAll_twice_nil hf ho as
  | cons s ss ih => exact updateAll_twice_cons hf ho as s (ih _)

theorem overwrites_assign (streamId : Nat) :
    Overwrites fun (s : Service) p => s.assign streamId p where
  again s p := by simp [assign]
  later s p q := by simp [assign, Bool.or_right_comm]

theorem overwrites_describe (streamId : Nat) :
    Overwrites fun (s : Service) i => s.describe streamId i where
  again s i := by
    simp only [describe_eq]
    cases i.description <;> by_cases hc : i.caSystems = [] <;> simp [hc]
  later s i j := by
    simp only [describe_eq]
    cases i.description <;> cases j.description <;> by_cases hi : i.caSystems = [] <;> simp [hi]

def firstVideo (v : Nat) (st : Stream) : Nat := if st.kind = .video ∧ v = 0 then st.pid else v

def lastOfKind (kind : StreamKind) (v : Nat) (st : Stream) : Nat :=
  if st.kind = kind then st.pid else v

def withAudio (as : List AudioStream) (st : Stream) : List AudioStream :=
  match st.kind with
  | .audio language => if as.length < maxAudio then as ++ [⟨st.pid, language⟩] else as
  | _ => as

/-- Each kind of stream has a field of its own. -/
theorem foldl_addStream (sts : List Stream) (s : Service) :
    sts.foldl addStream s = { s with
      videoPid := sts.foldl firstVideo s.videoPid
      audio := sts.foldl withAudio s.audio
      teletextPid := sts.foldl (lastOfKind .teletext) s.teletextPid
      subtitlingPid := sts.foldl (lastOfKind .subtitling) s.subtitlingPid
      ac3Pid := sts.foldl (lastOfKind .ac3) s.ac3Pid } := by
  induction sts generalizing s with
  | nil => rfl
  | cons st sts ih =>
    have hstep : s.addStream st = { s with
        videoPid := firstVideo s.videoPid st
        audio := withAudio s.audio st
        teletextPid := lastOfKind .teletext s.teletextPid st
        subtitlingPid := lastOfKind .subtitling s.subtitlingPid st
        ac3Pid := lastOfKind .ac3 s.ac3Pid st } := by
      unfold addStream firstVideo withAudio lastOfKind
      cases hk : st.kind with
      | video => by_cases hv : s.videoPid = 0 <;> simp [hv]
      | audio language =>
        unfold pushAudio hasRoom
        by_cases hr : s.audio.length < maxAudio <;> simp [hr]
      | teletext | subtitling | ac3 | other => simp
    rw [List.foldl_cons, ih, hstep]
    rfl

theorem overwrites_lastOfKind (kind : StreamKind) : Overwrites (lastOfKind kind) where
  again v st := by
    unfold lastOfKind
    split <;> rfl
  later v a b := by
    unfold lastOfKind
    by_cases ha : a.kind = kind <;> simp [ha]

theorem foldl_firstVideo {v : Nat} (hv : v ≠ 0) (sts : List Stream) :
    sts.foldl firstVideo v = v := by
  induction sts with
  | nil => rfl
  | cons st sts ih =>
    have hst : firstVideo v st = v := if_neg fun h => hv h.2
    rw [List.foldl_cons, hst, ih]

/-- Once there is a video stream it stays, and if there is none now there was none before. -/
theorem foldl_firstVideo_twice (v : Nat) (sts : List Stream) :
    sts.foldl firstVideo (sts.foldl firstVideo v) = sts.foldl firstVideo v := by
  by_cases hz : sts.foldl firstVideo v = 0
  · have hv : v = 0 := by
      by_contra hv
      exact hv (foldl_firstVideo hv sts ▸ hz)
    rw [hz, ← hv, hz, hv]
  · exact foldl_firstVideo hz sts

theorem applyMap_applyMap (m : Pmt) (s : Service) : (s.applyMap m).applyMap m = s.applyMap m := by
  unfold applyMap rewound
  simp only [foldl_addStream, foldl_firstVideo_twice, (overwrites_lastOfKind _).foldl_foldl]

theorem modifyIn_modifyIn {id : Nat} {g : Service → Service} (hid : ∀ s, (g s).id = s.id)
    (hg : ∀ s, g (g s) = g s) (ss : List Service) :
    modifyIn id g (modifyIn id g ss) = modifyIn id g ss := by
  induction ss with
  | nil => rfl
  | cons s ss ih =>
    by_cases hs : s.id = id
    · simp [modifyIn, hs, hid, hg]
    · simp [modifyIn, hs, ih]

end Service

theorem Service.overwrites_numbered : Overwrites Service.numbered where
  again s c := by
    unfold numbered
    by_cases hc : s.id = c.serviceId <;> simp [hc]
  later s a b := by
    unfold numbered
    by_cases ha : s.id = a.serviceId <;> simp [ha]

namespace Network

variable {o : ReadOptions} {n : Network} {s : Section}

theorem overwrites_setChannel : Overwrites setChannel where
  again n c := by
    simp only [setChannel_eq, onScanned_onScanned, Service.overwrites_numbered.again]
  later n a b := by
    simp only [setChannel_eq, onScanned_onScanned, Service.overwrites_numbered.later]

/-- A pinned network has the transponder that it is pinned to. -/
def Anchored (n : Network) : Prop := n.pinned = true → n.scanned ≠ []

theorem overwrites_redescribe (id : Nat) :
    Overwrites fun (n : Network) d => n.modify id (·.redescribe d) where
  again n d := by
    simp only [modify, List.modify_modify_eq]
    rfl
  later n d e := by
    simp only [modify, List.modify_modify_eq]
    rfl

theorem registerAll_pinned {id : Nat} {rest : List Nat} (hp : n.pinned = true)
    (hs : n.scanned = id :: rest) (ds : List Description) :
    n.registerAll ds = ds.foldl (fun n d => n.modify id (·.redescribe d)) n := by
  induction ds generalizing n with
  | nil => rfl
  | cons d ds ih =>
    have hd : n.register d = n.modify id (·.redescribe d) := by
      unfold register findOrAlloc find?
      rw [if_pos hp, hs]
      rfl
    refine (congrArg (registerAll ds) hd).trans (ih ?_ ?_)
    · exact hp
    · exact hs

/-- What the transponder looked for is like, if it is the one that `d` describes. -/
def Settled (d : Description) (n : Network) : Prop :=
  ∃ id tp, n.find? d.frequency = some id ∧ n.get? id = some tp ∧ tp.toDescription = d

theorem Settled.register_eq {d : Description} (h : Settled d n) : n.register d = n := by
  obtain ⟨id, tp, hf, hg, hd⟩ := h
  have hsame : n.modify id (·.redescribe d) = n.modify id fun tp => tp := by
    refine modify_congr fun tp' htp' => ?_
    obtain rfl : tp' = tp := Option.some.inj (htp'.symm.trans hg)
    rw [Transponder.redescribe, ← hd]
  unfold register findOrAlloc
  rw [hf]
  exact hsame.trans (modify_id id n)

theorem registerAll_eq_self {ds : List Description} (h : ∀ d ∈ ds, Settled d n) :
    n.registerAll ds = n := by
  induction ds with
  | nil => rfl
  | cons d ds ih =>
    rw [List.forall_mem_cons] at h
    exact (congrArg (registerAll ds) h.1.register_eq).trans (ih h.2)

theorem find?_of_find? {p q : Nat → Bool} {l l' : List Nat} {x : Nat} (h : l.find? p = some x)
    (hx : q x = true) (hq : ∀ y, q y = true → p y = true ∨ y = x) :
    (l ++ l').find? q = some x := by
  induction l with
  | nil => simp at h
  | cons y l ih =>
    rw [List.cons_append, List.find?_cons]
    rw [List.find?_cons] at h
    cases hy : q y with
    | true =>
      cases hp : p y with
      | true =>
        rw [hp] at h
        exact h
      | false =>
        rcases hq y hy with hp' | rfl
        · simp [hp] at hp'
        · rfl
    | false =>
      cases hp : p y with
      | true =>
        rw [hp] at h
        obtain rfl := Option.some.inj h
        simp [hx] at hy
      | false =>
        rw [hp] at h
        exact ih h

def isNear (n : Network) (frequency id : Nat) : Bool :=
  (n.get? id).any fun tp => n.near tp.frequency frequency

/-- What registering does on a network that is not pinned: one transponder, looked up or new, gets
the description. -/
structure Registered (d : Description) (n n' : Network) (id : Nat) : Prop where
  there : ∃ tp, n'.get? id = some tp ∧ tp.toDescription = d
  others : ∀ i, i ≠ id → n'.get? i = n.get? i
  listed : n.find? d.frequency = some id ∧ n'.scanned ++ n'.pending = n.scanned ++ n.pending ∨
    n.find? d.frequency = none ∧ n.get? id = none ∧
      n'.scanned ++ n'.pending = n.scanned ++ n.pending ++ [id]

theorem find?_unpinned (hp : n.pinned = false) (frequency : Nat) :
    n.find? frequency = (n.scanned ++ n.pending).find? (n.isNear frequency) := by
  unfold find?
  rw [hp, if_neg Bool.false_ne_true]
  rfl

theorem exists_registered (hp : n.pinned = false) (d : Description) :
    ∃ id, Registered d n (n.register d) id := by
  have hset (n : Network) (id : Nat) {tp : Transponder} (htp : n.get? id = some tp) :
      (∃ tp, (n.modify id (·.redescribe d)).get? id = some tp ∧ tp.toDescription = d) ∧
        ∀ i, i ≠ id → (n.modify id (·.redescribe d)).get? i = n.get? i := by
    refine ⟨⟨tp.redescribe d, ?_, rfl⟩, fun i hi => ?_⟩
    · rw [get?_modify, htp]
      simp
    · rw [get?_modify]
      simp [Ne.symm hi]
  unfold register findOrAlloc
  cases hf : n.find? d.frequency with
  | some id =>
    have hnear : n.isNear d.frequency id = true := by
      rw [find?_unpinned hp] at hf
      exact List.find?_some hf
    obtain ⟨tp, htp, -⟩ := (Option.any_eq_true _ _).1 hnear
    obtain ⟨hthere, hothers⟩ := hset n id htp
    exact ⟨id, hthere, hothers, .inl ⟨hf, rfl⟩⟩
  | none =>
    have hnew := get?_alloc d.frequency n n.nextId
    rw [if_pos rfl] at hnew
    obtain ⟨hthere, hothers⟩ := hset (n.alloc d.frequency) n.nextId hnew
    have hold (i : Nat) (hi : i ≠ n.nextId) : (n.alloc d.frequency).get? i = n.get? i := by
      rw [get?_alloc, if_neg hi]
    have hnone : n.get? n.nextId = none := List.getElem?_eq_none (Nat.le_refl _)
    exact ⟨n.nextId, hthere, fun i hi => (hothers i hi).trans (hold i hi),
      .inr ⟨hf, hnone, (List.append_assoc ..).symm⟩⟩

theorem near_comm (n : Network) (a b : Nat) : n.near a b = n.near b a := by
  unfold near
  rw [Nat.add_comm]

theorem near_self (ht : 0 < n.tolerance) (a : Nat) : n.near a a = true := by
  simpa [near] using ht

theorem tolerance_register (d : Description) (n : Network) :
    (n.register d).tolerance = n.tolerance := congrArg Prod.fst (fixture_register d n)

theorem pinned_register (d : Description) (n : Network) : (n.register d).pinned = n.pinned :=
  congrArg (·.2.1) (fixture_register d n)

theorem near_register (d : Description) (n : Network) (a b : Nat) :
    (n.register d).near a b = n.near a b := by
  unfold near
  rw [tolerance_register]

theorem Registered.isNear {d : Description} {id : Nat} (h : Registered d n (n.register d) id)
    (frequency i : Nat) : (n.register d).isNear frequency i =
      if i = id then n.near d.frequency frequency else n.isNear frequency i := by
  obtain ⟨tp, htp, hd⟩ := h.there
  unfold Network.isNear
  simp only [near_register]
  split
  · next hi => rw [hi, htp, Option.any_some, ← hd]
  · next hi => rw [h.others i hi]

theorem Registered.find?_eq {d : Description} {id frequency x : Nat}
    (h : Registered d n (n.register d) id) (hp : n.pinned = false)
    (hf : n.find? frequency = some x) (hx : (n.register d).isNear frequency x = true)
    (hothers : ∀ i, (n.register d).isNear frequency i = true →
      n.isNear frequency i = true ∨ i = x) : (n.register d).find? frequency = some x := by
  rw [find?_unpinned hp] at hf
  rw [find?_unpinned ((pinned_register d n).trans hp)]
  rcases h.listed with ⟨-, hl⟩ | ⟨-, -, hl⟩
  · rw [hl, ← List.append_nil (n.scanned ++ n.pending)]
    exact find?_of_find? hf hx hothers
  · rw [hl]
    exact find?_of_find? hf hx hothers

theorem settled_register (ht : 0 < n.tolerance) (hp : n.pinned = false) (d : Description) :
    Settled d (n.register d) := by
  obtain ⟨id, h⟩ := exists_registered hp d
  obtain ⟨tp, htp, hd⟩ := h.there
  refine ⟨id, tp, ?_, htp, hd⟩
  have hid : (n.register d).isNear d.frequency id = true := by
    rw [h.isNear, if_pos rfl, near_self ht]
  have hothers (i : Nat) (hi : (n.register d).isNear d.frequency i = true) :
      n.isNear d.frequency i = true ∨ i = id := by
    rw [h.isNear] at hi
    split at hi
    · next he => exact .inr he
    · exact .inl hi
  rcases h.listed with ⟨hf, -⟩ | ⟨hf, -, hl⟩
  · exact h.find?_eq hp hf hid hothers
  · -- nobody listed was near, unless the new number was listed already
    rw [find?_unpinned hp] at hf
    rw [find?_unpinned ((pinned_register d n).trans hp), hl]
    have hnew : id ∈ n.scanned ++ n.pending ++ [id] := by simp
    obtain ⟨i, hi⟩ := Option.isSome_iff_exists.1 (List.find?_isSome.2 ⟨id, hnew, hid⟩)
    rw [hi]
    rcases hothers i (List.find?_some hi) with hn | rfl
    · have hm := List.mem_of_find?_eq_some hi
      rcases List.mem_append.1 hm with hm | hm
      · exact absurd hn (List.find?_eq_none.1 hf i hm)
      · rw [List.mem_singleton.1 hm]
    · rfl

theorem Settled.register {d e : Description} (h : Settled d n) (hp : n.pinned = false)
    (hfar : n.near d.frequency e.frequency = false) : Settled d (n.register e) := by
  obtain ⟨id, tp, hf, hg, hd⟩ := h
  obtain ⟨i, hr⟩ := exists_registered hp e
  -- the transponder that `d` describes is on its frequency, too far away to be that of `e`
  have hd' : tp.frequency = d.frequency := by rw [← hd]
  have hne : id ≠ i := by
    rintro rfl
    rcases hr.listed with ⟨hf', -⟩ | ⟨-, hnone, -⟩
    · rw [find?_unpinned hp] at hf'
      have hnear : n.isNear e.frequency id = true := List.find?_some hf'
      rw [Network.isNear, hg, Option.any_some, hd', hfar] at hnear
      simp at hnear
    · simp [hnone] at hg
  refine ⟨id, tp, ?_, (hr.others id hne).trans hg, hd⟩
  have hid : (n.register e).isNear d.frequency id = true := by
    rw [find?_unpinned hp] at hf
    rw [hr.isNear, if_neg hne]
    exact List.find?_some hf
  have hothers (j : Nat) (hj : (n.register e).isNear d.frequency j = true) :
      n.isNear d.frequency j = true ∨ j = id := by
    rw [hr.isNear] at hj
    split at hj
    · rw [near_comm, hfar] at hj
      simp at hj
    · exact .inl hj
  exact hr.find?_eq hp hf hid hothers

/-- No two of the descriptions are of one multiplex. -/
def Apart (n : Network) (ds : List Description) : Prop :=
  ds.Pairwise fun d e => n.near d.frequency e.frequency = false

theorem Settled.registerAll {d : Description} {ds : List Description} (h : Settled d n)
    (hp : n.pinned = false) (hfar : ∀ e ∈ ds, n.near d.frequency e.frequency = false) :
    Settled d (n.registerAll ds) := by
  induction ds generalizing n with
  | nil => exact h
  | cons e ds ih =>
    rw [List.forall_mem_cons] at hfar
    refine ih (h.register hp hfar.1) ((pinned_register e n).trans hp) fun e' he' => ?_
    rw [near_register]
    exact hfar.2 e' he'

theorem settled_registerAll (ht : 0 < n.tolerance) (hp : n.pinned = false)
    {ds : List Description} (ha : Apart n ds) : ∀ d ∈ ds, Settled d (n.registerAll ds) := by
  induction ds generalizing n with
  | nil => simp
  | cons e ds ih =>
    rw [Apart, List.pairwise_cons] at ha
    have hp' := (pinned_register e n).trans hp
    have ht' : 0 < (n.register e).tolerance := (tolerance_register e n).symm ▸ ht
    have ha' : Apart (n.register e) ds := by
      unfold Apart
      simpa only [near_register] using ha.2
    refine List.forall_mem_cons.2 ⟨?_, ih ht' hp' ha'⟩
    refine (settled_register ht hp e).registerAll hp' fun d hd => ?_
    rw [near_register]
    exact ha.1 d hd

theorem registerAll_registerAll (ht : 0 < n.tolerance) (hn : n.Anchored) {ds : List Description}
    (ha : n.pinned = false → Apart n ds) :
    (n.registerAll ds).registerAll ds = n.registerAll ds := by
  cases hp : n.pinned with
  | false => exact registerAll_eq_self (settled_registerAll ht hp (ha hp))
  | true =>
    obtain ⟨id, rest, hs⟩ := List.exists_cons_of_ne_nil (hn hp)
    have hf := fixture_registerAll ds n
    simp only [fixture, Prod.mk.injEq] at hf
    obtain ⟨-, hp', hs', -⟩ := hf
    rw [registerAll_pinned (hp'.trans hp) (hs'.trans hs), registerAll_pinned hp hs,
      (overwrites_redescribe id).foldl_foldl]

theorem readTransponders_readTransponders (ht : 0 < n.tolerance) (hn : n.Anchored)
    (ha : n.pinned = false → Apart n (descriptions o.kind s)) :
    (n.readTransponders o s).readTransponders o s = n.readTransponders o s := by
  have hf := fixture_setChannels (channels o s) n
  simp only [fixture, Prod.mk.injEq] at hf
  obtain ⟨ht', hp', hs', -⟩ := hf
  rw [readTransponders_split, readTransponders_split, ← registerAll_setChannels,
    overwrites_setChannel.foldl_foldl]
  refine registerAll_registerAll ?_ ?_ ?_
  · exact ht'.symm ▸ ht
  · unfold Anchored
    rwa [hp', hs']
  · intro hp
    have hpair := ha (hp'.symm.trans hp)
    unfold Apart near at hpair ⊢
    rwa [ht']

end Network

namespace Edit

theorem applyAll_edits (s : Section) (ss : List Service) :
    applyAll s.edits (applyAll s.edits ss) = applyAll s.edits ss := by
  by_cases hpat : s.header.tableId = Pat.tableId
  · rw [Network.edits_pat hpat]
    cases Pat.parse s with
    | error e => rfl
    | ok t =>
      have hall (ss : List Service) : applyAll (t.programs.map (.assign t.streamId)) ss =
          Service.updateAll (·.number) (Service.assign t.streamId) t.programs ss := List.foldl_map
      simp only [hall]
      exact Service.updateAll_twice (Service.id_assign t.streamId)
        (Service.overwrites_assign t.streamId) t.programs ss
  by_cases hpmt : s.header.tableId = Pmt.tableId
  · rw [Network.edits_pmt hpmt]
    cases Pmt.parse s with
    | error e => rfl
    | ok t =>
      exact Service.modifyIn_modifyIn (Service.id_applyMap t) (Service.applyMap_applyMap t) ss
  by_cases hsdt : s.header.tableId = Sdt.actualId
  · rw [Network.edits_sdt hsdt]
    cases Sdt.parse s with
    | error e => rfl
    | ok t =>
      have hall (ss : List Service) : applyAll (t.services.map (.describe t.streamId)) ss =
          Service.updateAll (·.serviceId) (Service.describe t.streamId) t.services ss :=
        List.foldl_map
      simp only [hall]
      exact Service.updateAll_twice (Service.id_describe t.streamId)
        (Service.overwrites_describe t.streamId) t.services ss
  · have hno : s.edits = [] := by simp [Section.edits, hpat, hpmt, hsdt]
    rw [hno]
    rfl

theorem requested_actAll (j : Nat) (es : List Edit) (x : Option Service) :
    (actAll j es x).any (·.mapRequested) = (x.any (·.mapRequested) || es.any (·.asksFor j)) := by
  induction es generalizing x with
  | nil => simp [actAll]
  | cons e es ih =>
    have h := ih (act j x e)
    rw [requested_act, Bool.or_assoc] at h
    exact h

theorem requests_eq_nil (timeout : Nat) {es : List Edit} {ss : List Service}
    (h : ∀ e ∈ es, ∀ j, e.asksFor j → (ss.find? (·.id = j)).any (·.mapRequested)) :
    along apply (requests timeout) ss es = [] := by
  induction es generalizing ss with
  | nil => rfl
  | cons e es ih =>
    rw [List.forall_mem_cons] at h
    have he : requests timeout ss e = [] := by
      cases e with
      | assign streamId p =>
        refine if_neg fun hp => ?_
        have hasked := h.1 p.number (by simp [asksFor, hp.1])
        simp [hasked] at hp
      | describe | applyMap => rfl
    rw [along, he, List.nil_append]
    refine ih fun e' he' j hj => ?_
    rw [find?_apply, requested_act, h.2 e' he' j hj, Bool.true_or]

end Edit

namespace Network

variable {n : Network}

theorem editServices_editServices (s : Section) (n : Network) :
    (n.editServices s.edits).editServices s.edits = n.editServices s.edits := by
  have hall (ss : List Service) :
      Edit.applyAll (s.edits ++ s.edits) ss = Edit.applyAll s.edits ss := by
    rw [Edit.applyAll, List.foldl_append]
    exact Edit.applyAll_edits s ss
  rw [editServices_append]
  exact modifyCurrent_congr fun tp _ => by
    rw [Transponder.onServices, Transponder.onServices, hall]

theorem requests_editServices (timeout : Nat) (es : List Edit) (h : n.HasCurrent) :
    along Edit.apply (Edit.requests timeout) (n.editServices es).currentServices es = [] := by
  refine Edit.requests_eq_nil timeout fun e he j hj => ?_
  rw [(h.editServices es).2, Edit.find?_applyAll, Edit.requested_actAll]
  exact Bool.or_eq_true_iff.2 (.inr (List.any_eq_true.2 ⟨e, he, hj⟩))

/-- Handling a section twice in a row leaves the network as handling it once does, and the second
time no filter is asked for. -/
theorem read_read (o : ReadOptions) (pid : Nat) (s : Section) (ht : 0 < n.tolerance)
    (hn : n.Anchored) (ha : n.pinned = false → Apart n (descriptions o.kind s)) :
    let once := (n.read o pid s).network
    (once.read o pid s).network = once ∧ (once.read o pid s).requests = [] := by
  intro once
  have honce : once = (n.readTransponders o s).editServices s.edits :=
    (read_effects o pid s n).network
  have htwice := read_effects o pid s once
  by_cases hs : s.IsNit
  · -- a network table edits no services
    have he := edits_nit hs
    rw [he, editServices_nil] at honce
    refine ⟨?_, ?_⟩
    · rw [htwice.network, he, editServices_nil, honce]
      exact readTransponders_readTransponders ht hn ha
    · cases hc : once.current? with
      | none => exact htwice.unasked hc
      | some tp => rw [htwice.requests (by rw [hc]; rfl), he]; rfl
  · -- any other table does nothing else
    rw [readTransponders_of_not_nit hs] at honce
    refine ⟨?_, ?_⟩
    · rw [htwice.network, readTransponders_of_not_nit hs, honce]
      exact editServices_editServices s n
    · cases hc : once.current? with
      | none => exact htwice.unasked hc
      | some tp =>
        have hcur : n.HasCurrent := by
          refine hasCurrent_of_isSome ?_
          by_contra hno
          have hsame := editServices_eq_self s.edits (Option.not_isSome_iff_eq_none.1 hno)
          rw [honce, hsame] at hc
          simp [hc] at hno
        rw [htwice.requests (by rw [hc]; rfl), honce]
        exact requests_editServices o.mapTimeout s.edits hcur

theorem Reachable.anchored (h : Reachable n) : n.Anchored := by
  induction h with
  | new tolerance inversion => simp [Anchored]
  | alloc frequency _ ih => exact ih
  | findOrAlloc frequency _ ih =>
    unfold Network.findOrAlloc
    split
    · exact ih
    · exact ih
  | pinCurrent _ _ => simp [Anchored, Network.pinCurrent]
  | markScanned id _ ih =>
    unfold Network.markScanned
    split
    · simp [Anchored, modify]
    · exact ih
  | setCurrent _ _ ih => exact ih
  | load entries _ ih =>
    have hload (n : Network) : (InitialList.load entries n).pinned = n.pinned ∧
        (InitialList.load entries n).scanned = n.scanned := by
      induction entries generalizing n with
      | nil => exact ⟨rfl, rfl⟩
      | cons e entries ih => exact ih (InitialList.loadEntry n e)
    unfold Anchored
    rwa [(hload _).1, (hload _).2]
  | @read o pid s n _ _ ih =>
    rwa [Anchored, pinned_read, scanned_read]
  | retune id _ _ _ _ ih => exact ih

/-! ### A multiplex that moves a little, and a service that is given two channel numbers -/

def listedOnce : Network :=
  let pat : Section :=
    { header := { tableId := 0x00, longForm := true, length := 0, ext := 7 }
      payload := [0x00, 0x01, 0xE1, 0x00] }
  let blank : Network := { tolerance := 1000, inversion := .auto }
  (((blank.alloc 514000500).markScanned 0).setCurrent 0).read
    { kind := .terrestrial, channelNumbers := true, mapTimeout := 1 } 0 pat |>.network

def renumbering : Section :=
  { header := { tableId := 0x40, longForm := true, length := 0, ext := 9 }
    payload := [0xF0, 0x00, 0xF0, 0x30] ++
      [0x00, 0x07, 0x00, 0x01, 0xF0, 0x17] ++
      [0x5A, 0x0B, 0x03, 0x10, 0x4D, 0x40, 0x1F, 0x81, 0x03, 0xFF, 0xFF, 0xFF, 0xFF] ++
      [0x83, 0x08, 0x00, 0x01, 0xFC, 0x07, 0x00, 0x01, 0xFC, 0x08] ++
      [0x00, 0x08, 0x00, 0x01, 0xF0, 0x0D] ++
      [0x5A, 0x0B, 0x03, 0x1C, 0x82, 0x40, 0x1F, 0x81, 0x03, 0xFF, 0xFF, 0xFF, 0xFF] }

theorem read_read_renumbering :
    let o : ReadOptions := { kind := .terrestrial, channelNumbers := true, mapTimeout := 1 }
    let once := (listedOnce.read o 16 renumbering).network
    once.transponders.map (fun tp => (tp.frequency, tp.services.map (·.channel))) =
        [(514000000, [some 8]), (522000000, [])] ∧
      listedOnce ≠ once ∧ (once.read o 16 renumbering).network = once ∧
      (once.read o 16 renumbering).requests = [] := by
  intro o once
  have hn : Reachable listedOnce :=
    .read _ _ (fun h => absurd h.1 (by decide))
      (.setCurrent (by decide) (.markScanned 0 (.alloc 514000500 (.new 1000 .auto))))
  have hapart : listedOnce.pinned = false → Apart listedOnce (descriptions o.kind renumbering) :=
    fun _ => by
      unfold Apart
      decide +kernel
  exact ⟨by decide +kernel, by decide +kernel,
    read_read o 16 renumbering (by decide +kernel) hn.anchored hapart⟩

end Network

end Bandscan
