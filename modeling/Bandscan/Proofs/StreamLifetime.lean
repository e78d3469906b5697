import Bandscan.Proofs.MapRequests
import Bandscan.Proofs.StreamAssignment
/-!
How long the streams of a service last. Each map lists the audio streams anew. The other pids stay
until a stream of their kind takes their place, and that of the video stream stays for good, so
that a service may keep pids that its latest map does not name.
-/

namespace Bandscan

def Pmt.pids (kind : Stream → Bool) (t : Pmt) : List Nat := (t.streams.filter kind).map (·.pid)

def Section.map? (id : Nat) (s : Section) : Option Pmt :=
  if s.header.tableId = Pmt.tableId then (Pmt.parse s).toOption.filter (·.program = id) else none

/-- The streams of a service. A pid of 0 stands for no stream. -/
structure StreamPids where
  video : Nat
  teletext : Nat
  subtitling : Nat
  ac3 : Nat
  audio : List AudioStream

namespace StreamPids

def renew (x : StreamPids) (t : Pmt) : StreamPids where
  video := if x.video ≠ 0 then x.video else ((t.pids Stream.isVideo).find? (· ≠ 0)).getD 0
  teletext := (t.pids Stream.isTeletext).getLast?.getD x.teletext
  subtitling := (t.pids Stream.isSubtitling).getLast?.getD x.subtitling
  ac3 := (t.pids Stream.isAc3).getLast?.getD x.ac3
  audio := ((t.streams.filter Stream.isAudio).map fun st => ⟨st.pid, st.language⟩).take
    Service.maxAudio

/-- Every pid but those of audio streams is named by the map as that of a stream of its kind. -/
structure NamedIn (t : Pmt) (x : StreamPids) : Prop where
  video : x.video ≠ 0 → x.video ∈ t.pids Stream.isVideo
  teletext : x.teletext ≠ 0 → x.teletext ∈ t.pids Stream.isTeletext
  subtitling : x.subtitling ≠ 0 → x.subtitling ∈ t.pids Stream.isSubtitling
  ac3 : x.ac3 ≠ 0 → x.ac3 ∈ t.pids Stream.isAc3

end StreamPids

def Service.streams (s : Service) : StreamPids where
  video := s.videoPid
  teletext := s.teletextPid
  subtitling := s.subtitlingPid
  ac3 := s.ac3Pid
  audio := s.audio

theorem Service.streams_applyMap (m : Pmt) (s : Service) :
    (s.applyMap m).streams = s.streams.renew m := by
  rw [applyMap_eq, withStreams]
  simp only [streams, StreamPids.renew, Pmt.pids, List.getLast?_map]
  rfl

theorem Service.streams_describe (streamId : Nat) (i : ServiceInfo) (s : Service) :
    (s.describe streamId i).streams = s.streams := by
  rw [describe_eq]
  rfl

namespace Edit

def renew (id : Nat) (x : StreamPids) : Edit → StreamPids
  | .applyMap m => if m.program = id then x.renew m else x
  | _ => x

theorem exists_act (id : Nat) (s : Service) (e : Edit) :
    ∃ s', act id (some s) e = some s' ∧ s'.streams = e.renew id s.streams := by
  unfold act
  by_cases hid : e.serviceId = id
  · rw [if_pos hid]
    cases e with
    | assign streamId p => exact ⟨_, rfl, rfl⟩
    | describe streamId i => exact ⟨_, rfl, Service.streams_describe streamId i s⟩
    | applyMap m =>
      refine ⟨_, rfl, (Service.streams_applyMap m s).trans ?_⟩
      exact (if_pos hid).symm
  · rw [if_neg hid]
    refine ⟨s, rfl, ?_⟩
    cases e with
    | assign | describe => rfl
    | applyMap m => exact (if_neg hid).symm

theorem exists_actAll (id : Nat) (es : List Edit) (s : Service) :
    ∃ s', actAll id es (some s) = some s' ∧ s'.streams = es.foldl (renew id) s.streams := by
  induction es generalizing s with
  | nil => exact ⟨s, rfl, rfl⟩
  | cons e es ih =>
    obtain ⟨s₁, hs₁, he⟩ := exists_act id s e
    obtain ⟨s', hs', hes⟩ := ih s₁
    refine ⟨s', ?_, ?_⟩
    · rw [actAll, List.foldl_cons, hs₁]
      exact hs'
    · rw [hes, he, List.foldl_cons]

theorem foldl_renew_of_not_map (id : Nat) {es : List Edit} (h : ∀ e ∈ es, e.isMap = false)
    (x : StreamPids) : es.foldl (renew id) x = x := by
  induction es with
  | nil => rfl
  | cons e es ih =>
    rw [List.forall_mem_cons] at h
    have hstep : e.renew id x = x := by
      cases e with
      | assign | describe => rfl
      | applyMap m => simp [isMap] at h
    rw [List.foldl_cons, hstep, ih h.2]

theorem foldl_renew_edits (id : Nat) (s : Section) (x : StreamPids) :
    s.edits.foldl (renew id) x = ((s.map? id).map x.renew).getD x := by
  by_cases hs : s.header.tableId = Pmt.tableId
  · rw [Network.edits_pmt hs, Section.map?, if_pos hs]
    cases Pmt.parse s with
    | error e => rfl
    | ok t => by_cases ht : t.program = id <;> simp [renew, ht, Except.toOption, Option.filter]
  · rw [Section.map?, if_neg hs]
    refine foldl_renew_of_not_map id (fun e he => ?_) x
    by_contra hmap
    cases e with
    | assign | describe => simp [isMap] at hmap
    | applyMap m =>
      unfold Section.edits at he
      rw [if_neg hs] at he
      split at he
      · split at he <;> simp at he
      · split at he
        · split at he <;> simp at he
        · simp at he

end Edit

namespace Network

variable {o : ReadOptions} {n : Network} {c id : Nat} {sv : Service}

def service? (n : Network) (c id : Nat) : Option Service := (n.servicesOf c).find? (·.id = id)

theorem lt_nextId_of_service? (h : n.service? c id = some sv) : c < n.nextId := by
  cases hget : n.get? c with
  | none => simp [service?, servicesOf, hget] at h
  | some tp => exact lt_nextId hget

theorem streams_read (hc : n.current = some c) (hsv : n.service? c id = some sv) (pid : Nat)
    (s : Section) :
    ∃ sv', (n.read o pid s).network.service? c id = some sv' ∧
      sv'.streams = ((s.map? id).map sv.streams.renew).getD sv.streams := by
  -- a network table may set channel numbers, which are looked away from
  have hview (ss : List Service) : (ss.map Service.unnumbered).find? (·.id = id) =
      (ss.find? (·.id = id)).map Service.unnumbered := List.find?_map
  have hread : ((n.read o pid s).network.servicesOf c).map Service.unnumbered =
      Edit.applyAll (if n.current = some c then s.edits else [])
        ((n.servicesOf c).map Service.unnumbered) :=
    servicesOf_read pid s Edit.blind_unnumbered (fun _ _ _ => rfl) hc (lt_nextId_of_service? hsv) c
  rw [if_pos hc] at hread
  have hfind := congrArg (List.find? (·.id = id)) hread
  rw [hview, Edit.find?_applyAll, hview, ← service?, ← service?, hsv, Option.map_some] at hfind
  obtain ⟨sv₁, hact, hstreams⟩ := Edit.exists_actAll id s.edits sv.unnumbered
  rw [hact] at hfind
  obtain ⟨sv', hsv', rfl⟩ := Option.map_eq_some_iff.1 hfind
  exact ⟨sv', hsv', hstreams.trans (Edit.foldl_renew_edits id s sv.streams)⟩

theorem streams_afterSections (hc : n.current = some c) (hsv : n.service? c id = some sv)
    (l : List (Nat × Section)) :
    ∃ sv', (n.afterSections o l).service? c id = some sv' ∧
      sv'.streams = (l.filterMap (·.2.map? id)).foldl StreamPids.renew sv.streams := by
  induction l generalizing n sv with
  | nil => exact ⟨sv, hsv, rfl⟩
  | cons r l ih =>
    obtain ⟨sv₁, hsv₁, hr⟩ := streams_read (o := o) hc hsv r.1 r.2
    obtain ⟨sv', hsv', hl⟩ := ih ((current_read o r.1 r.2 n).trans hc) hsv₁
    refine ⟨sv', hsv', hl.trans ?_⟩
    rw [hr, List.filterMap_cons]
    cases r.2.map? id <;> rfl

end Network

namespace StreamPids

variable {ms : List Pmt} {t : Pmt} {x : StreamPids}

theorem find?_getD_cons (v : Nat) (l : List Nat) :
    ((v :: l).find? (· ≠ 0)).getD 0 = if v ≠ 0 then v else (l.find? (· ≠ 0)).getD 0 := by
  by_cases hv : v = 0 <;> simp [hv]

/-- The first video stream that is ever named stays. -/
theorem video_foldl (ms : List Pmt) (x : StreamPids) :
    (ms.foldl renew x).video =
      ((x.video :: ms.flatMap (·.pids Stream.isVideo)).find? (· ≠ 0)).getD 0 := by
  induction ms generalizing x with
  | nil => by_cases hv : x.video = 0 <;> simp [hv]
  | cons m ms ih =>
    rw [List.foldl_cons, ih, find?_getD_cons, find?_getD_cons, List.flatMap_cons,
      List.find?_append]
    by_cases hv : x.video = 0
    · have hstep : (x.renew m).video = ((m.pids Stream.isVideo).find? (· ≠ 0)).getD 0 :=
        if_neg (not_not.2 hv)
      rw [hstep, if_neg (not_not.2 hv)]
      cases hm : (m.pids Stream.isVideo).find? (· ≠ 0) with
      | none => rw [Option.getD_none, if_neg (not_not.2 rfl), Option.none_or]
      | some v =>
        have hne : v ≠ 0 := by simpa using List.find?_some hm
        rw [Option.getD_some, if_pos hne, Option.some_or, Option.getD_some]
    · have hstep : (x.renew m).video = x.video := if_pos hv
      rw [hstep, if_pos hv, if_pos hv]

theorem last_foldl {field : StreamPids → Nat} {kind : Stream → Bool}
    (hfield : ∀ x t, field (renew x t) = (t.pids kind).getLast?.getD (field x)) (ms : List Pmt)
    (x : StreamPids) :
    field (ms.foldl renew x) = (ms.flatMap (·.pids kind)).getLast?.getD (field x) := by
  induction ms generalizing x with
  | nil => rfl
  | cons m ms ih =>
    rw [List.foldl_cons, ih, hfield, List.flatMap_cons, List.getLast?_append]
    cases (ms.flatMap (·.pids kind)).getLast? <;> rfl

theorem video_named_iff : let v := (((ms ++ [t]).foldl renew x).video)
    (v ≠ 0 → v ∈ t.pids Stream.isVideo) ↔
      ∀ v, (x.video :: (ms ++ [t]).flatMap (·.pids Stream.isVideo)).find? (· ≠ 0) = some v →
        v ∈ t.pids Stream.isVideo := by
  dsimp only
  rw [video_foldl]
  cases hf : (x.video :: (ms ++ [t]).flatMap (·.pids Stream.isVideo)).find? (· ≠ 0) with
  | none => simp
  | some v =>
    have hne : v ≠ 0 := by simpa using List.find?_some hf
    simp [hne]

theorem last_named_iff {field : StreamPids → Nat} {kind : Stream → Bool}
    (hfield : ∀ x t, field (renew x t) = (t.pids kind).getLast?.getD (field x)) :
    (field ((ms ++ [t]).foldl renew x) ≠ 0 → field ((ms ++ [t]).foldl renew x) ∈ t.pids kind) ↔
      t.pids kind ≠ [] ∨ (ms.flatMap (·.pids kind)).getLast?.getD (field x) = 0 := by
  rw [List.foldl_append, List.foldl_cons, List.foldl_nil, hfield, ← last_foldl hfield]
  cases hl : (t.pids kind).getLast? with
  | none =>
    rw [List.getLast?_eq_none_iff] at hl
    simp [hl]
  | some v =>
    have hmem : v ∈ t.pids kind := List.mem_of_getLast? hl
    have hne : t.pids kind ≠ [] := List.ne_nil_of_mem hmem
    simp [hmem, hne]

end StreamPids

namespace Network

variable {n : Network} {c id : Nat} {sv : Service}

/-- After any sections, the last map of a service among them has listed its audio streams anew. Its
video stream is the first that was ever named, and its other streams are the last of their kinds
that were named. All of them are named in the last map if and only if that map names the first
video stream still and has a stream of every other kind of which there was one. -/
theorem streams_named_iff (o : ReadOptions) (hc : n.current = some c)
    (hsv : n.service? c id = some sv) {l : List (Nat × Section)} {ms : List Pmt} {t : Pmt}
    (hl : l.filterMap (·.2.map? id) = ms ++ [t]) :
    ∃ sv', (n.afterSections o l).service? c id = some sv' ∧
      sv'.audio = ((t.streams.filter (·.isAudio)).map fun st => ⟨st.pid, st.language⟩).take
        Service.maxAudio ∧
      sv'.videoPid = ((sv.videoPid :: (ms ++ [t]).flatMap (·.pids Stream.isVideo)).find?
        (· ≠ 0)).getD 0 ∧
      sv'.teletextPid = ((ms ++ [t]).flatMap (·.pids Stream.isTeletext)).getLast?.getD
        sv.teletextPid ∧
      sv'.subtitlingPid = ((ms ++ [t]).flatMap (·.pids Stream.isSubtitling)).getLast?.getD
        sv.subtitlingPid ∧
      sv'.ac3Pid = ((ms ++ [t]).flatMap (·.pids Stream.isAc3)).getLast?.getD sv.ac3Pid ∧
      (sv'.streams.NamedIn t ↔
        (∀ v, (sv.videoPid :: (ms ++ [t]).flatMap (·.pids Stream.isVideo)).find? (· ≠ 0) = some v →
          v ∈ t.pids Stream.isVideo) ∧
        (t.pids Stream.isTeletext ≠ [] ∨
          (ms.flatMap (·.pids Stream.isTeletext)).getLast?.getD sv.teletextPid = 0) ∧
        (t.pids Stream.isSubtitling ≠ [] ∨
          (ms.flatMap (·.pids Stream.isSubtitling)).getLast?.getD sv.subtitlingPid = 0) ∧
        (t.pids Stream.isAc3 ≠ [] ∨
          (ms.flatMap (·.pids Stream.isAc3)).getLast?.getD sv.ac3Pid = 0)) := by
  obtain ⟨sv', hsv', hstreams⟩ := streams_afterSections (o := o) hc hsv l
  rw [hl] at hstreams
  have hteletext : ∀ x t, (StreamPids.renew x t).teletext =
      (t.pids Stream.isTeletext).getLast?.getD x.teletext := fun _ _ => rfl
  have hsubtitling : ∀ x t, (StreamPids.renew x t).subtitling =
      (t.pids Stream.isSubtitling).getLast?.getD x.subtitling := fun _ _ => rfl
  have hac3 : ∀ x t, (StreamPids.renew x t).ac3 =
      (t.pids Stream.isAc3).getLast?.getD x.ac3 := fun _ _ => rfl
  have hnamed : sv'.streams.NamedIn t ↔ _ ∧ _ ∧ _ ∧ _ :=
    ⟨fun h => ⟨h.video, h.teletext, h.subtitling, h.ac3⟩, fun h => ⟨h.1, h.2.1, h.2.2.1, h.2.2.2⟩⟩
  refine ⟨sv', hsv', ?_, ?_, ?_, ?_, ?_, ?_⟩
  · refine (congrArg StreamPids.audio hstreams).trans ?_
    rw [List.foldl_append]
    rfl
  · exact (congrArg StreamPids.video hstreams).trans (StreamPids.video_foldl _ _)
  · exact (congrArg StreamPids.teletext hstreams).trans (StreamPids.last_foldl hteletext _ _)
  · exact (congrArg StreamPids.subtitling hstreams).trans (StreamPids.last_foldl hsubtitling _ _)
  · exact (congrArg StreamPids.ac3 hstreams).trans (StreamPids.last_foldl hac3 _ _)
  · rw [hnamed, hstreams]
    exact and_congr StreamPids.video_named_iff
      (and_congr (StreamPids.last_named_iff hteletext)
        (and_congr (StreamPids.last_named_iff hsubtitling) (StreamPids.last_named_iff hac3)))

/-! ### Maps that name the video stream still, and one that names nothing -/

def withOneService : Network where
  tolerance := 1000
  inversion := .auto
  transponders := [{ frequency := 506000000, services := [{ id := 1, mapPid := 0x20 }] }]
  scanned := [0]
  current := some 0

def mapOfOne (version : Nat) (streams : Bytes) : Nat × Section :=
  (0x20, {
    header := { tableId := Pmt.tableId, longForm := true, length := 0, ext := 1, version }
    payload := [0xE0, 0x21, 0xF0, 0x00] ++ streams })

def fullMap : Nat × Section :=
  mapOfOne 0 [0x02, 0xE1, 0x01, 0xF0, 0x00, 0x03, 0xE1, 0x02, 0xF0, 0x00,
    0x06, 0xE1, 0x03, 0xF0, 0x03, 0x56, 0x01, 0x00, 0x06, 0xE1, 0x04, 0xF0, 0x03, 0x59, 0x01, 0x00,
    0x06, 0xE1, 0x05, 0xF0, 0x03, 0x6A, 0x01, 0x00]

/-- The next version lists another video stream before that one, and the other kinds elsewhere. -/
def movedMap : Nat × Section :=
  mapOfOne 1 [0x02, 0xE1, 0x11, 0xF0, 0x00, 0x02, 0xE1, 0x01, 0xF0, 0x00,
    0x06, 0xE1, 0x13, 0xF0, 0x03, 0x56, 0x01, 0x00, 0x06, 0xE1, 0x14, 0xF0, 0x03, 0x59, 0x01, 0x00,
    0x06, 0xE1, 0x15, 0xF0, 0x03, 0x6A, 0x01, 0x00]

def readMap (version : Nat) (streams : List Stream) : Pmt :=
  { program := 1, version, clockPid := 0x21, streams, truncated := none }

def fullPmt : Pmt :=
  readMap 0 [⟨0x02, 0x101, []⟩, ⟨0x03, 0x102, []⟩, ⟨0x06, 0x103, [0x56, 0x01, 0x00]⟩,
    ⟨0x06, 0x104, [0x59, 0x01, 0x00]⟩, ⟨0x06, 0x105, [0x6A, 0x01, 0x00]⟩]

def movedPmt : Pmt :=
  readMap 1 [⟨0x02, 0x111, []⟩, ⟨0x02, 0x101, []⟩, ⟨0x06, 0x113, [0x56, 0x01, 0x00]⟩,
    ⟨0x06, 0x114, [0x59, 0x01, 0x00]⟩, ⟨0x06, 0x115, [0x6A, 0x01, 0x00]⟩]

theorem streams_named_iff_moved :
    withOneService.current = some 0 ∧
      [fullMap, movedMap].filterMap (·.2.map? 1) = [fullPmt] ++ [movedPmt] ∧
      ∃ sv', (withOneService.afterSections mapOptions [fullMap, movedMap]).service? 0 1 = some sv' ∧
        (sv'.audio, sv'.videoPid, sv'.teletextPid) = ([], 0x101, 0x113) ∧
        (sv'.subtitlingPid, sv'.ac3Pid) = (0x114, 0x115) ∧ sv'.streams.NamedIn movedPmt := by
  have hsv : withOneService.service? 0 1 = some { id := 1, mapPid := 0x20 } := by decide +kernel
  have hl : [fullMap, movedMap].filterMap (·.2.map? 1) = [fullPmt] ++ [movedPmt] := by
    decide +kernel
  obtain ⟨sv', hsv', haudio, hvideo, htext, hsub, hac3, hnamed⟩ :=
    streams_named_iff mapOptions rfl hsv hl
  have hfirst : (0 :: ([fullPmt] ++ [movedPmt]).flatMap (·.pids Stream.isVideo)).find? (· ≠ 0) =
      some 0x101 := by decide +kernel
  refine ⟨rfl, hl, sv', hsv', ?_, ?_, hnamed.2 ⟨fun v hv => ?_, ?_, ?_, ?_⟩⟩
  · rw [haudio, hvideo, htext]
    decide +kernel
  · rw [hsub, hac3]
    decide +kernel
  · obtain rfl := Option.some.inj (hfirst.symm.trans hv)
    decide +kernel
  · exact .inl (by decide +kernel)
  · exact .inl (by decide +kernel)
  · exact .inl (by decide +kernel)

def bareMap : Nat × Section := mapOfOne 1 []

/-- When the next version names no stream, only the audio stream is gone. -/
theorem streams_outlive_map :
    (bareMap.2.map? 1).map (·.streams) = some [] ∧
      ((withOneService.afterSections mapOptions [fullMap, bareMap]).service? 0 1).map (fun sv =>
        (sv.videoPid, sv.teletextPid, sv.subtitlingPid, sv.ac3Pid, sv.audio)) =
        some (0x101, 0x103, 0x104, 0x105, []) := by
  decide +kernel

end Network

end Bandscan
