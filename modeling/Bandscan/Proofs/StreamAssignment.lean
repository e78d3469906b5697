import Bandscan.Proofs.DescriptorLoop
import Bandscan.Proofs.Redelivery
/-!
What a map makes of a service. Each kind of stream is merged in a way of its own: audio streams are
listed anew, of video streams the first stays, and of teletext, subtitles and AC-3 the last counts.
Private data is told by its descriptors, in whatever order they come.
-/

namespace Bandscan

def StreamKind.anyLanguage : StreamKind → StreamKind
  | .audio _ => .audio none
  | kind => kind

namespace Stream

/-- A descriptor with this tag comes before the first structural error. -/
def carries (tag : Nat) (st : Stream) : Bool := (Descriptor.all st.descriptors).any (·.tag = tag)

def isVideo (st : Stream) : Bool := st.streamType = 0x01 || st.streamType = 0x02

def isAudio (st : Stream) : Bool := st.streamType = 0x03 || st.streamType = 0x04

def isTeletext (st : Stream) : Bool := st.streamType = 0x06 && st.carries Descriptor.teletextTag

def isSubtitling (st : Stream) : Bool :=
  st.streamType = 0x06 && !st.carries Descriptor.teletextTag && st.carries Descriptor.subtitlingTag

def isAc3 (st : Stream) : Bool :=
  st.streamType = 0x06 && !st.carries Descriptor.teletextTag &&
    !st.carries Descriptor.subtitlingTag && st.carries Descriptor.ac3Tag

/-- The three letters of the first language descriptor, if it is long enough to be one. -/
def language (st : Stream) : Option String :=
  ((Descriptor.all st.descriptors).find? (·.tag = Descriptor.iso639Tag)).bind fun d =>
    if 4 ≤ d.data.length then some (Text.latin1 (d.data.take 3)) else none

theorem has_eq (tag : Nat) (st : Stream) : Descriptor.has st.descriptors tag = st.carries tag := by
  rw [Bool.eq_iff_iff]
  simp [Descriptor.has, Descriptor.find?, carries]

theorem language_eq (st : Stream) :
    (Descriptor.find? st.descriptors Descriptor.iso639Tag).bind (fun data =>
      match Descriptor.language data with
      | .ok (language, _) => some language
      | .error _ => none) = st.language := by
  have hone (data : Bytes) :
      (match Descriptor.language data with
        | .ok (language, _) => some language
        | .error _ => none) =
      if 4 ≤ data.length then some (Text.latin1 (data.take 3)) else none := by
    match data with
    | [] | [_] | [_, _] | [_, _, _] => rfl
    | a :: b :: c :: d :: rest => simp [Descriptor.language]
  rw [Descriptor.find?, Option.bind_map]
  exact congrArg _ (funext fun d : Descriptor => hone d.data)

/-- Private data is told by its descriptors, teletext before subtitles before AC-3. -/
theorem kind_eq (st : Stream) :
    st.kind = if st.isVideo then .video else if st.isAudio then .audio st.language
      else if st.isTeletext then .teletext else if st.isSubtitling then .subtitling
      else if st.isAc3 then .ac3 else .other := by
  rw [← language_eq]
  unfold kind
  split
  · next h => simp [isVideo, h]
  · next h => simp [isVideo, h]
  · next h =>
    simp only [isVideo, isAudio, h]
    rfl
  · next h =>
    simp only [isVideo, isAudio, h]
    rfl
  · next h =>
    rw [has_eq, has_eq, has_eq]
    simp only [isVideo, isAudio, isTeletext, isSubtitling, isAc3, h]
    cases st.carries Descriptor.teletextTag <;> cases st.carries Descriptor.subtitlingTag <;>
      cases st.carries Descriptor.ac3Tag <;> rfl
  · next h₁ h₂ h₃ h₄ h₆ =>
    grind [isVideo, isAudio, isTeletext, isSubtitling, isAc3]

variable (st : Stream)

theorem kind_eq_video : st.kind = .video ↔ st.isVideo = true := by
  grind [kind_eq]

theorem kind_eq_audio {language : Option String} :
    st.kind = .audio language ↔ st.isAudio ∧ language = st.language := by
  grind [kind_eq, isVideo, isAudio]

theorem kind_eq_teletext : st.kind = .teletext ↔ st.isTeletext = true := by
  grind [kind_eq, isVideo, isAudio, isTeletext]

theorem kind_eq_subtitling : st.kind = .subtitling ↔ st.isSubtitling = true := by
  grind [kind_eq, isVideo, isAudio, isTeletext, isSubtitling]

theorem kind_eq_ac3 : st.kind = .ac3 ↔ st.isAc3 = true := by
  grind [kind_eq, isVideo, isAudio, isTeletext, isSubtitling, isAc3]

theorem anyLanguage_kind : st.kind.anyLanguage =
    if st.isVideo then .video else if st.isAudio then .audio none
      else if st.isTeletext then .teletext else if st.isSubtitling then .subtitling
      else if st.isAc3 then .ac3 else .other := by
  rw [kind_eq, apply_ite StreamKind.anyLanguage, apply_ite StreamKind.anyLanguage]
  repeat' split
  all_goals rfl

theorem anyLanguage_kind_perm (streamType pid : Nat) {ds ds' : List Descriptor}
    (hds : ∀ d ∈ ds, Descriptor.Codable d) (hp : ds.Perm ds') :
    (kind ⟨streamType, pid, Descriptor.encode ds⟩).anyLanguage =
      (kind ⟨streamType, pid, Descriptor.encode ds'⟩).anyLanguage := by
  have hall {ds : List Descriptor} (hds : ∀ d ∈ ds, Descriptor.Codable d) :
      Descriptor.all (Descriptor.encode ds) = ds := by
    have h := Descriptor.walk_encode_append hds []
    rw [List.append_nil] at h
    rw [Descriptor.all, h, Descriptor.walk, List.append_nil]
  have hds' : ∀ d ∈ ds', Descriptor.Codable d := fun d hd => hds d (hp.mem_iff.2 hd)
  have hcarries (tag : Nat) : carries tag ⟨streamType, pid, Descriptor.encode ds⟩ =
      carries tag ⟨streamType, pid, Descriptor.encode ds'⟩ := by
    rw [carries, carries, hall hds, hall hds']
    exact hp.any_eq
  have hteletext : isTeletext ⟨streamType, pid, Descriptor.encode ds⟩ =
      isTeletext ⟨streamType, pid, Descriptor.encode ds'⟩ := by
    simp only [isTeletext, hcarries]
  have hsubtitling : isSubtitling ⟨streamType, pid, Descriptor.encode ds⟩ =
      isSubtitling ⟨streamType, pid, Descriptor.encode ds'⟩ := by
    simp only [isSubtitling, hcarries]
  have hac3 : isAc3 ⟨streamType, pid, Descriptor.encode ds⟩ =
      isAc3 ⟨streamType, pid, Descriptor.encode ds'⟩ := by
    simp only [isAc3, hcarries]
  rw [anyLanguage_kind, anyLanguage_kind, hteletext, hsubtitling, hac3]
  rfl

end Stream

namespace Service

def withStreams (m : Pmt) (s : Service) : Service :=
  { s with
    clockPid := m.clockPid
    videoPid :=
      if s.videoPid ≠ 0 then s.videoPid
      else (((m.streams.filter (·.isVideo)).map (·.pid)).find? (· ≠ 0)).getD 0
    audio := ((m.streams.filter (·.isAudio)).map fun st => ⟨st.pid, st.language⟩).take maxAudio
    teletextPid := ((m.streams.filter (·.isTeletext)).getLast?.map (·.pid)).getD s.teletextPid
    subtitlingPid :=
      ((m.streams.filter (·.isSubtitling)).getLast?.map (·.pid)).getD s.subtitlingPid
    ac3Pid := ((m.streams.filter (·.isAc3)).getLast?.map (·.pid)).getD s.ac3Pid }

theorem foldl_lastOfKind {kind : StreamKind} {p : Stream → Bool}
    (hp : ∀ st : Stream, st.kind = kind ↔ p st = true) (v : Nat) (sts : List Stream) :
    sts.foldl (lastOfKind kind) v = ((sts.filter p).getLast?.map (·.pid)).getD v := by
  induction sts generalizing v with
  | nil => rfl
  | cons st sts ih =>
    rw [List.foldl_cons, ih, lastOfKind, List.filter_cons]
    by_cases h : p st = true
    · rw [if_pos ((hp st).2 h), if_pos h, List.getLast?_cons]
      cases (sts.filter p).getLast? <;> rfl
    · rw [if_neg fun hk => h ((hp st).1 hk), if_neg h]

/-- A video stream with pid 0 is none, and the next one takes its place. -/
theorem foldl_firstVideo_zero (sts : List Stream) :
    sts.foldl firstVideo 0 =
      (((sts.filter (·.isVideo)).map (·.pid)).find? (· ≠ 0)).getD 0 := by
  induction sts with
  | nil => rfl
  | cons st sts ih =>
    rw [List.foldl_cons, List.filter_cons]
    by_cases h : st.isVideo = true
    · have hstep : firstVideo 0 st = st.pid := if_pos ⟨st.kind_eq_video.2 h, rfl⟩
      rw [hstep, if_pos h, List.map_cons, List.find?_cons]
      by_cases hz : st.pid = 0
      · simp [hz, ih]
      · simp [hz, foldl_firstVideo hz]
    · have hstep : firstVideo 0 st = 0 := if_neg fun hk => h (st.kind_eq_video.1 hk.1)
      rw [hstep, if_neg h, ih]

theorem foldl_withAudio {as : List AudioStream} (has : as.length ≤ maxAudio) (sts : List Stream) :
    sts.foldl withAudio as =
      (as ++ (sts.filter Stream.isAudio).map fun st => AudioStream.mk st.pid st.language).take
        maxAudio := by
  induction sts generalizing as with
  | nil => simp [List.take_of_length_le has]
  | cons st sts ih =>
    rw [List.foldl_cons, List.filter_cons]
    by_cases h : st.isAudio = true
    · have hkind : st.kind = .audio st.language := st.kind_eq_audio.2 ⟨h, rfl⟩
      rw [if_pos h, List.map_cons]
      by_cases hroom : as.length < maxAudio
      · have hstep : withAudio as st = as ++ [⟨st.pid, st.language⟩] := by
          rw [withAudio, hkind]
          exact if_pos hroom
        have hlen : (as ++ [(⟨st.pid, st.language⟩ : AudioStream)]).length ≤ maxAudio := by
          rw [List.length_append, List.length_singleton]
          exact hroom
        rw [hstep, ih hlen, List.append_assoc, List.singleton_append]
      · -- the list is full and stays as it is
        have hfull : as.length = maxAudio := Nat.le_antisymm has (Nat.le_of_not_lt hroom)
        have hstep : withAudio as st = as := by
          rw [withAudio, hkind]
          exact if_neg hroom
        rw [hstep, ih has, ← hfull, List.take_left, List.take_left]
    · have hstep : withAudio as st = as := by
        unfold withAudio
        split
        · next language hk => exact absurd (st.kind_eq_audio.1 hk).1 h
        · rfl
      rw [if_neg h, hstep, ih has]

theorem applyMap_eq (m : Pmt) (s : Service) : s.applyMap m = s.withStreams m := by
  have hvideo : m.streams.foldl firstVideo s.videoPid =
      if s.videoPid ≠ 0 then s.videoPid
      else (((m.streams.filter (·.isVideo)).map (·.pid)).find? (· ≠ 0)).getD 0 := by
    by_cases hz : s.videoPid = 0
    · rw [if_neg (not_not.2 hz), hz, foldl_firstVideo_zero]
    · rw [if_pos hz, foldl_firstVideo hz]
  have haudio := @foldl_withAudio [] (Nat.zero_le maxAudio) m.streams
  rw [List.nil_append] at haudio
  rw [applyMap, foldl_addStream]
  simp only [rewound, hvideo, haudio, foldl_lastOfKind Stream.kind_eq_teletext,
    foldl_lastOfKind Stream.kind_eq_subtitling, foldl_lastOfKind Stream.kind_eq_ac3]
  rfl

theorem modifyIn_of_find? {id : Nat} {ss : List Service} {s : Service} (f : Service → Service)
    (h : ss.find? (·.id = id) = some s) :
    ∃ before after, ss = before ++ s :: after ∧ (∀ t ∈ before, t.id ≠ id) ∧
      modifyIn id f ss = before ++ f s :: after := by
  induction ss with
  | nil => simp at h
  | cons t ss ih =>
    rw [List.find?_cons] at h
    by_cases ht : t.id = id
    · simp only [ht, decide_true] at h
      obtain rfl := Option.some.inj h
      exact ⟨[], ss, rfl, by simp, if_pos ht⟩
    · simp only [ht, decide_false] at h
      obtain ⟨before, after, rfl, hbefore, hmodify⟩ := ih h
      refine ⟨t :: before, after, rfl, List.forall_mem_cons.2 ⟨ht, hbefore⟩, ?_⟩
      rw [modifyIn, if_neg ht, hmodify]
      rfl

end Service

namespace Network

/-- A map changes the service that it is for, and of it the streams, as `withStreams` says. If there
is no such service, or if it is no map, nothing changes. In what order the descriptors of a stream
come makes no difference to its kind. -/
theorem read_map_exact (o : ReadOptions) (pid : Nat) {s : Section}
    (hs : s.header.tableId = Pmt.tableId) (n : Network) :
    (∀ t c tp sv, Pmt.parse s = .ok t → n.current = some c → n.get? c = some tp →
      tp.service? t.program = some sv →
      ∃ before after, tp.services = before ++ sv :: after ∧ (∀ x ∈ before, x.id ≠ t.program) ∧
        (n.read o pid s).network = { n with
          transponders := n.transponders.set c
            { tp with services := before ++ sv.withStreams t :: after } }) ∧
    ((∀ t tp, Pmt.parse s = .ok t → n.current? = some tp → tp.service? t.program = none) →
      (n.read o pid s).network = n) ∧
    ∀ streamType pid ds ds', (∀ d ∈ ds, Descriptor.Codable d) → ds.Perm ds' →
      (Stream.kind ⟨streamType, pid, Descriptor.encode ds⟩).anyLanguage =
        (Stream.kind ⟨streamType, pid, Descriptor.encode ds'⟩).anyLanguage := by
  have hread := (read_of_not_nit (o := o) (n := n) (Section.not_isNit hs (by decide)) pid).1
  refine ⟨fun t c tp sv ht hc hget hsv => ?_, fun hnone => ?_,
    fun streamType pid ds ds' => Stream.anyLanguage_kind_perm streamType pid⟩
  · obtain ⟨before, after, hsplit, hbefore, hmodify⟩ :=
      Service.modifyIn_of_find? (Service.applyMap t) hsv
    refine ⟨before, after, hsplit, hbefore, ?_⟩
    have hedit : Edit.applyAll s.edits tp.services = before ++ sv.withStreams t :: after := by
      rw [edits_pmt hs, ht, ← Service.applyMap_eq, ← hmodify]
      rfl
    have hmod : n.editServices s.edits =
        n.modify c fun _ => { tp with services := before ++ sv.withStreams t :: after } := by
      rw [editServices, modifyCurrent, hc]
      refine modify_congr fun tp' htp' => ?_
      obtain rfl := Option.some.inj (hget.symm.trans htp')
      rw [Transponder.onServices, hedit]
    have : Inhabited Transponder := ⟨tp⟩
    rw [hread, hmod, modify, List.modify_eq_set]
  · rw [hread]
    refine modifyCurrent_eq_self fun tp htp => ?_
    have hedit : Edit.applyAll s.edits tp.services = tp.services := by
      rw [edits_pmt hs]
      cases ht : Pmt.parse s with
      | error e => rfl
      | ok t => exact modifyIn_of_find?_eq_none (hnone t tp ht htp)
    rw [Transponder.onServices, hedit]

/-! ### Streams of every kind for a service that has some -/

/-- Private data that carries subtitles and teletext is teletext. -/
def mixedStreams : Pmt where
  program := 5
  version := 0
  clockPid := 0x101
  streams := [
    ⟨0x02, 0, []⟩, ⟨0x04, 0x110, [0x0A, 0x04, 0x64, 0x65, 0x75, 0x00]⟩, ⟨0x01, 0x101, []⟩,
    ⟨0x03, 0x111, [0x0A, 0x02, 0x64, 0x65]⟩, ⟨0x02, 0x102, []⟩,
    ⟨0x06, 0x120, [0x59, 0x01, 0x00, 0x56, 0x01, 0x00]⟩, ⟨0x06, 0x130, [0x6A, 0x01, 0x00]⟩,
    ⟨0x06, 0x131, [0x6A, 0x01, 0x00]⟩, ⟨0x1B, 0x103, []⟩]
  truncated := none

def mixedMap : Section where
  header := { tableId := Pmt.tableId, longForm := true, length := 0, ext := 5 }
  payload := [0xE1, 0x01, 0xF0, 0x00] ++ mixedStreams.streams.flatMap fun st =>
    [UInt8.ofNat st.streamType, 0xE0 ||| UInt8.ofNat (st.pid / 256), UInt8.ofNat st.pid,
      0xF0, UInt8.ofNat st.descriptors.length] ++ st.descriptors

def staleService : Service :=
  { id := 5, clockPid := 0x200, teletextPid := 0x220, subtitlingPid := 0x230,
    audio := [⟨0x210, none⟩], mapRequested := true }

/-- The second transponder is current, and the service in question comes second. -/
def staleNetwork : Network where
  tolerance := 1000
  inversion := .auto
  transponders := [{ frequency := 498000000, services := [{ id := 5 }] },
    { frequency := 506000000, services := [{ id := 4 }, staleService, { id := 6 }] }]
  current := some 1

theorem read_map_exact_mixed :
    let o : ReadOptions := { kind := .terrestrial, channelNumbers := false, mapTimeout := 5 }
    mixedMap.header.tableId = Pmt.tableId ∧ Pmt.parse mixedMap = .ok mixedStreams ∧
      staleService.withStreams mixedStreams =
        { staleService with
          clockPid := 0x101
          videoPid := 0x101
          audio := [⟨0x110, some "deu"⟩, ⟨0x111, none⟩]
          teletextPid := 0x120
          ac3Pid := 0x131 } ∧
      ∃ before after, [{ id := 4 }, staleService, { id := 6 }] = before ++ staleService :: after ∧
        (∀ x ∈ before, x.id ≠ 5) ∧
        (staleNetwork.read o 0x20 mixedMap).network = { staleNetwork with
          transponders := staleNetwork.transponders.set 1
            { frequency := 506000000
              services := before ++ staleService.withStreams mixedStreams :: after } } := by
  intro o
  have hmap : Pmt.parse mixedMap = .ok mixedStreams := by decide +kernel
  exact ⟨rfl, hmap, by decide +kernel,
    (read_map_exact o 0x20 rfl staleNetwork).1 mixedStreams 1 _ staleService hmap rfl rfl
      (by decide +kernel)⟩

end Network

end Bandscan
