import Mathlib.Algebra.BigOperators.Group.List.Basic
import Bandscan.Proofs.LeftOver
import Bandscan.Proofs.ListedFields
import Bandscan.Proofs.NetworkRegistry
/-!
How many lines a list of pids has. Names lose their control codes where they are decoded, languages
do not. So a line feed in the language of an audio stream divides the line of its service, and no
other text that is broadcast can.
-/

namespace Bandscan

namespace Text

def lineFeeds (t : String) : Nat := t.toList.count '\n'

@[simp]
theorem lineFeeds_append (t u : String) : lineFeeds (t ++ u) = lineFeeds t + lineFeeds u := by
  simp [lineFeeds]

theorem lineFeeds_join (ts : List String) :
    lineFeeds (String.join ts) = (ts.map lineFeeds).sum := by
  induction ts with
  | nil => rfl
  | cons t ts ih => rw [String.join_cons, lineFeeds_append, ih, List.map_cons, List.sum_cons]

theorem lineFeeds_eq_zero_iff {t : String} : lineFeeds t = 0 ↔ '\n' ∉ t.toList :=
  List.count_eq_zero

@[simp]
theorem lineFeeds_lower (width k : Nat) : lineFeeds (Hex.lower width k) = 0 :=
  lineFeeds_eq_zero_iff.2 (plain_lower width k).2

@[simp]
theorem lineFeeds_word (k : Nat) : lineFeeds (Hex.word k) = 0 := by
  rw [Hex.word, lineFeeds_append, lineFeeds_lower]
  decide

theorem lineFeeds_column {t : String} (h : '\n' ∉ t.toList) (width : Nat) :
    lineFeeds (column width t) = 0 := by
  rw [lineFeeds_eq_zero_iff, column, String.toList_ofList, List.mem_append, not_or]
  exact ⟨fun hmem => h (List.mem_of_mem_take hmem), fun hmem => by
    simpa using List.eq_of_mem_replicate hmem⟩

theorem cut_latin1 (a b c : UInt8) : cut 3 (latin1 [a, b, c]) = latin1 [a, b, c] := by
  simp [cut, latin1]

end Text

open Text

def Descriptor.Language (l : String) : Prop := ∃ a b c, l = latin1 [a, b, c]

theorem Descriptor.language_of_ok {data : Bytes} {l : String} {audioType : Nat}
    (h : language data = .ok (l, audioType)) : Language l := by
  unfold language at h
  split at h
  · next a b c t rest =>
    obtain ⟨rfl, -⟩ := Prod.mk.inj (Except.ok.inj h)
    exact ⟨a, b, c, rfl⟩
  · cases h

/-- The description of a service is what one of its descriptors says. -/
def ServiceInfo.Described (i : ServiceInfo) : Prop :=
  ∀ d, i.description = some d → ∃ data, Descriptor.service data = .ok d

theorem ServiceInfo.Described.apply {i : ServiceInfo} (h : i.Described) (d : Descriptor) :
    (i.apply d).Described := by
  unfold ServiceInfo.apply effect
  split
  · cases hd : Descriptor.service d.data with
    | error e => exact h
    | ok name =>
      intro d' hd'
      obtain rfl := Option.some.inj hd'
      exact ⟨d.data, hd⟩
  · split <;> exact h

theorem Sdt.Entry.described_decode (e : Entry) : e.decode.Described := by
  suffices h : ∀ (ds : List Descriptor) (i : ServiceInfo), i.Described →
      (ds.foldl ServiceInfo.apply i).Described from
    h _ _ fun d hd => by cases hd
  intro ds
  induction ds with
  | nil => exact fun i hi => hi
  | cons d ds ih => exact fun i hi => ih _ (hi.apply d)

theorem Sdt.described_of_parse {s : Section} {t : Sdt} (h : parse s = .ok t) :
    ∀ i ∈ t.services, i.Described := by
  intro i hi
  rw [(loop_of_parse h).1] at hi
  obtain ⟨e, -, rfl⟩ := List.mem_map.1 hi
  exact e.described_decode

theorem Section.parse_of_describe {s : Section} {streamId : Nat} {i : ServiceInfo}
    (h : Edit.describe streamId i ∈ s.edits) : ∃ t, Sdt.parse s = .ok t ∧ i ∈ t.services := by
  unfold edits at h
  split at h
  · split at h <;> simp at h
  · split at h
    · split at h <;> simp at h
    · split at h
      · split at h
        · next t ht =>
          obtain ⟨j, hj, he⟩ := List.mem_map.1 h
          obtain ⟨-, rfl⟩ := Edit.describe.inj he
          exact ⟨t, ht, hj⟩
        · cases h
      · cases h

theorem Stream.language_of_kind {st : Stream} {l : String} (h : st.kind = .audio (some l)) :
    Descriptor.Language l := by
  unfold kind at h
  split at h
  case h_1 | h_2 | h_6 => cases h
  case h_3 | h_4 =>
    obtain ⟨data, -, hdata⟩ := Option.bind_eq_some_iff.1 (StreamKind.audio.inj h)
    split at hdata
    · next language audioType hok =>
      obtain rfl := Option.some.inj hdata
      exact Descriptor.language_of_ok hok
    · cases hdata
  case h_5 =>
    repeat' split at h
    all_goals cases h

namespace Service

/-- The texts of a service are from descriptors, unless they are absent. -/
structure Broadcast (s : Service) : Prop where
  announced : s.Announced
  languages : ∀ a ∈ s.audio, ∀ l, a.language = some l → Descriptor.Language l

theorem broadcast_blank (id : Nat) : Broadcast { id } :=
  ⟨⟨.inl rfl, .inl rfl⟩, fun _ ha => absurd ha List.not_mem_nil⟩

variable {s : Service}

theorem Broadcast.of_eq {t : Service} (h : s.Broadcast) (hname : t.name = s.name)
    (hprovider : t.provider = s.provider) (haudio : t.audio = s.audio) : t.Broadcast :=
  ⟨⟨hname ▸ h.announced.name, hprovider ▸ h.announced.provider⟩, haudio ▸ h.languages⟩

theorem Broadcast.addStream (h : s.Broadcast) (st : Stream) : (s.addStream st).Broadcast := by
  unfold Service.addStream
  split
  · split
    · exact h.of_eq rfl rfl rfl
    · exact h
  · next language hk =>
    unfold pushAudio
    split
    · refine ⟨⟨h.announced.name, h.announced.provider⟩, fun a ha l hl => ?_⟩
      obtain ha | ha := List.mem_append.1 ha
      · exact h.languages a ha l hl
      · obtain rfl := List.mem_singleton.1 ha
        exact Stream.language_of_kind (hk.trans (congrArg _ hl))
    · exact h
  · exact h.of_eq rfl rfl rfl
  · exact h.of_eq rfl rfl rfl
  · exact h.of_eq rfl rfl rfl
  · exact h

theorem Broadcast.applyMap (h : s.Broadcast) (m : Pmt) : (s.applyMap m).Broadcast := by
  have hr : (s.rewound m.clockPid).Broadcast :=
    ⟨⟨h.announced.name, h.announced.provider⟩, fun _ ha => absurd ha List.not_mem_nil⟩
  unfold Service.applyMap
  generalize s.rewound m.clockPid = s at hr
  induction m.streams generalizing s with
  | nil => exact hr
  | cons st sts ih => exact ih _ (hr.addStream st)

theorem Broadcast.describe (h : s.Broadcast) (streamId : Nat) {i : ServiceInfo}
    (hi : i.Described) : (s.describe streamId i).Broadcast := by
  rw [describe_eq]
  refine ⟨?_, h.languages⟩
  cases hd : i.description with
  | none => exact ⟨h.announced.name, h.announced.provider⟩
  | some d =>
    obtain ⟨data, hdata⟩ := hi d hd
    exact ⟨.inr ⟨data, d, hdata, .inl rfl⟩, .inr ⟨data, d, hdata, .inr rfl⟩⟩

end Service

theorem Edit.broadcast_apply {ss : List Service} {section_ : Section} {e : Edit}
    (he : e ∈ section_.edits) (h : ∀ s ∈ ss, s.Broadcast) : ∀ s ∈ apply ss e, s.Broadcast := by
  refine e.forall_apply Service.broadcast_blank (fun s t hs ht => ?_) h
  cases e with
  | assign streamId p =>
    obtain rfl := Option.some.inj ht
    exact hs.of_eq rfl rfl rfl
  | describe streamId i =>
    obtain rfl := Option.some.inj ht
    obtain ⟨table, htable, hi⟩ := Section.parse_of_describe he
    exact hs.describe streamId (Sdt.described_of_parse htable i hi)
  | applyMap m =>
    obtain rfl := Option.some.inj ht
    exact hs.applyMap m

-- Not `Stable`: an edit could give any name, but one from a table gives a decoded one.
theorem Network.lasting_broadcast : Lasting fun ss => ∀ s ∈ ss, s.Broadcast where
  nil := by simp
  edit _ _ he _ h := Edit.broadcast_apply he h
  channel ss id channel h := by
    intro s hs
    obtain ⟨t, ht, rfl⟩ := List.mem_map.1 hs
    split
    · exact (h t ht).of_eq rfl rfl rfl
    · exact h t ht

theorem Network.Reachable.broadcast {n : Network} (h : n.Reachable) :
    ∀ e ∈ n.listed, e.2.Broadcast := by
  intro e he
  obtain ⟨tp, htp, he⟩ := List.mem_flatMap.1 he
  obtain ⟨s, hs, rfl⟩ := List.mem_map.1 he
  obtain ⟨id, -, hid⟩ := List.mem_filterMap.1 htp
  exact h.each_of_lasting lasting_broadcast tp (List.mem_of_getElem? hid) s hs

namespace ChannelList

theorem lineFeeds_pidsClock (s : Service) : lineFeeds (pidsClock s) = 0 := by
  unfold pidsClock
  split
  · decide
  · split
    · decide
    · split <;> simp +decide

theorem lineFeeds_pidsAudio (s : Service) (a : AudioStream) :
    lineFeeds (pidsAudio s a) = lineFeeds (cut 3 (a.language.getD "")) := by
  have hsigns : lineFeeds " " = 0 ∧ lineFeeds " (" = 0 ∧ lineFeeds ")" = 0 := by decide
  unfold pidsAudio
  cases a.language with
  | some l => simp [hsigns]
  | none => by_cases h : s.audio.length = 1 <;> simp +decide [h]

theorem lineFeeds_pidsExtra {label : String} (h : lineFeeds label = 0) (pid : Nat) :
    lineFeeds (pidsExtra label pid) = 0 := by
  unfold pidsExtra
  split <;> simp +decide [h]

theorem lineFeeds_pidsLine {s : Service} (hname : '\n' ∉ s.nameText.toList) :
    lineFeeds (pidsLine s) =
      (s.audio.map fun a => lineFeeds (cut 3 (a.language.getD ""))).sum + 1 := by
  have haudio : lineFeeds (String.join (s.audio.map (pidsAudio s))) =
      (s.audio.map fun a => lineFeeds (cut 3 (a.language.getD ""))).sum := by
    simp only [lineFeeds_join, List.map_map, Function.comp_def, lineFeeds_pidsAudio]
  have hvideo : lineFeeds (if s.videoPid ≠ 0 then "V " ++ Hex.word s.videoPid else "        ") =
      0 := by
    split <;> simp +decide
  have hlabel : lineFeeds (if s.audio.isEmpty then "" else " A") = 0 := by
    split <;> decide
  have hsigns : lineFeeds " (" = 0 ∧ lineFeeds ") " = 0 ∧ lineFeeds ": " = 0 ∧
      lineFeeds "\n" = 1 := by decide
  have htt : lineFeeds (pidsExtra "TT" s.teletextPid) = 0 := lineFeeds_pidsExtra (by decide) _
  have hac3 : lineFeeds (pidsExtra "AC3" s.ac3Pid) = 0 := lineFeeds_pidsExtra (by decide) _
  have hsub : lineFeeds (pidsExtra "SUB" s.subtitlingPid) = 0 := lineFeeds_pidsExtra (by decide) _
  unfold pidsLine
  simp only [lineFeeds_append, lineFeeds_column hname, lineFeeds_word, lineFeeds_lower,
    lineFeeds_pidsClock, hvideo, hlabel, haudio, hsigns, htt, hac3, hsub]
  omega

def languageFeeds (s : Service) : Nat :=
  (s.audio.map fun a => lineFeeds (a.language.getD "")).sum

theorem languageFeeds_eq_zero_iff {s : Service} :
    languageFeeds s = 0 ↔ ∀ a ∈ s.audio, ∀ l, a.language = some l → '\n' ∉ l.toList := by
  have hlanguage (a : AudioStream) : lineFeeds (a.language.getD "") = 0 ↔
      ∀ l, a.language = some l → '\n' ∉ l.toList := by
    rw [lineFeeds_eq_zero_iff]
    cases a.language <;> simp
  simp only [languageFeeds, List.sum_eq_zero_iff_forall_eq_nat, List.forall_mem_map, hlanguage]

theorem lineFeeds_pidsLine_prepareNames {s : Service} (h : s.Broadcast) :
    lineFeeds (pidsLine s.prepareNames) = languageFeeds s + 1 := by
  rw [lineFeeds_pidsLine (Service.plain_nameText_prepareNames h.announced).2]
  refine congrArg (List.sum · + 1) (List.map_congr_left fun a ha => ?_)
  cases hl : a.language with
  | none => rfl
  | some l =>
    obtain ⟨b₁, b₂, b₃, rfl⟩ := h.languages a ha l hl
    rw [Option.getD_some, cut_latin1]

end ChannelList

namespace Network

theorem text_dump_pids {o : ListOptions} (ho : o.format = .pids) (n : Network) :
    (n.dump o).1.text =
      String.join ((n.chosen o).map fun e => ChannelList.pidsLine e.2.prepareNames) := by
  have hlines : (n.dump o).1.text =
      String.join ((n.prepareNames.chosen o).map fun e => ChannelList.line o e.1 e.2) := rfl
  rw [hlines, chosen_prepareNames, List.map_map]
  simp only [Function.comp_def, ChannelList.line, ho]

theorem lineFeeds_dump {o : ListOptions} (ho : o.format = .pids) {n : Network}
    (hn : ∀ e ∈ n.listed, e.2.Broadcast) :
    lineFeeds (n.dump o).1.text =
      (n.dump o).1.written + ((n.chosen o).map fun e => ChannelList.languageFeeds e.2).sum := by
  have hlines : (n.chosen o).map (fun e => lineFeeds (ChannelList.pidsLine e.2.prepareNames)) =
      (n.chosen o).map fun e => 1 + ChannelList.languageFeeds e.2 := by
    refine List.map_congr_left fun e he => ?_
    have hb := hn e (List.mem_of_mem_filter he)
    rw [ChannelList.lineFeeds_pidsLine_prepareNames hb, Nat.add_comm]
  rw [text_dump_pids ho, lineFeeds_join, List.map_map, Function.comp_def, hlines, List.sum_map_add,
    written_dump]
  simp

/-- A list of pids has a line for each service, and one more for each line feed in the language of
one of its audio streams. Languages are the only texts that can hold one, and are of three bytes. -/
theorem Reachable.lineFeeds_dump_pids {n : Network} (h : n.Reachable) {o : ListOptions}
    (ho : o.format = .pids) :
    lineFeeds (n.dump o).1.text =
        (n.dump o).1.written + ((n.chosen o).map fun e => ChannelList.languageFeeds e.2).sum ∧
      (lineFeeds (n.dump o).1.text = (n.dump o).1.written ↔
        ∀ e ∈ n.chosen o, ∀ a ∈ e.2.audio, ∀ l, a.language = some l → '\n' ∉ l.toList) ∧
      ∀ e ∈ n.chosen o, ∀ a ∈ e.2.audio, ∀ l, a.language = some l → Descriptor.Language l := by
  have hcount := lineFeeds_dump ho h.broadcast
  refine ⟨hcount, ?_, fun e he => (h.broadcast e (List.mem_of_mem_filter he)).languages⟩
  have hsum : ((n.chosen o).map fun e => ChannelList.languageFeeds e.2).sum = 0 ↔
      ∀ e ∈ n.chosen o, ∀ a ∈ e.2.audio, ∀ l, a.language = some l → '\n' ∉ l.toList := by
    simp only [List.sum_eq_zero_iff_forall_eq_nat, List.forall_mem_map,
      ChannelList.languageFeeds_eq_zero_iff]
  rw [← hsum]
  omega

/-! ### A radio station whose language begins with a line feed -/

def radioSections : List Section :=
  [{ header := { tableId := 0x00, longForm := true, length := 13, ext := 7 }
     payload := [0x00, 0x01, 0xE1, 0x00] },
   { header := { tableId := 0x02, longForm := true, length := 24, ext := 1 }
     payload := [0xE0, 0x21, 0xF0, 0x00, 0x03, 0xE1, 0x01, 0xF0, 0x06, 0x0A, 0x04, 0x0A, 0x61, 0x62,
       0x00] }]

def tunedNetwork : Network :=
  (({ tolerance := 2000, inversion := .auto } : Network).alloc 506000000).setCurrent 0

def radioNetwork : Network :=
  (radioSections.foldl (fun n s => (n.read
    { kind := .terrestrial, channelNumbers := false, mapTimeout := 1 } 0 s).network)
    tunedNetwork).markScanned 0

def pidsOptions : ListOptions := { format := .pids }

theorem reachable_radioNetwork : Reachable radioNetwork := by
  have hnit : ∀ s ∈ radioSections, ¬ s.IsNit := by decide
  have h : Reachable tunedNetwork := .setCurrent (by decide) (.alloc 506000000 (.new 2000 .auto))
  exact .markScanned 0 (h.readSections _ 0 fun s hs ho => hnit s hs ho.1)

theorem Reachable.lineFeeds_dump_pids_radio :
    pidsOptions.format = .pids ∧ Reachable radioNetwork ∧
      lineFeeds (radioNetwork.dump pidsOptions).1.text =
        (radioNetwork.dump pidsOptions).1.written + 1 := by
  refine ⟨rfl, reachable_radioNetwork, ?_⟩
  have hfeeds : ((radioNetwork.chosen pidsOptions).map fun e =>
      ChannelList.languageFeeds e.2).sum = 1 := by decide +kernel
  rw [(reachable_radioNetwork.lineFeeds_dump_pids rfl).1, hfeeds]

theorem divided_line :
    Reachable radioNetwork ∧ pidsOptions.format = .pids ∧
      (radioNetwork.dump pidsOptions).1.written = 1 ∧
      lineFeeds (radioNetwork.dump pidsOptions).1.text = 2 :=
  ⟨reachable_radioNetwork, rfl, by decide +kernel, by decide +kernel⟩

end Network

end Bandscan
