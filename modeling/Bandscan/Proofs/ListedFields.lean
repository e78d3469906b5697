import Bandscan.ChannelList
import Bandscan.Proofs.TextDecoding
/-!
What a reader makes of a zap or VDR list. Line feeds end its lines and colons divide them, so that
neither may come from a broadcast name: line feeds are dropped where a descriptor is decoded,
colons where the names are prepared.
-/

namespace Bandscan

namespace Text

def ended (ts : List String) : String := String.join (ts.map (· ++ "\n"))

/-- The encoded form of a text holds every byte of each of its characters. -/
theorem mem_bytes_of_fromUTF8? {bytes : List UInt8} {t : String} {c : Char} {b : UInt8}
    (h : String.fromUTF8? bytes.toByteArray = some t) (hc : c ∈ t.toList)
    (hb : b ∈ String.utf8EncodeChar c) : b ∈ bytes := by
  rw [fromUTF8?_eq_some_iff.1 h, utf8_eq]
  exact List.mem_flatMap.mpr ⟨c, hc, hb⟩

theorem lineFeed_notMem_printable (bytes : List UInt8) : 10 ∉ printable bytes := by
  intro h
  have kept := (List.mem_filter.mp h).2
  revert kept
  decide

theorem lineFeed_notMem_ofPrintable {bytes : List UInt8} (h : 10 ∉ bytes) :
    '\n' ∉ (ofPrintable bytes).toList := by
  intro hmem
  unfold ofPrintable at hmem
  cases hutf : String.fromUTF8? bytes.toByteArray with
  | some t =>
    rw [hutf, Option.getD_some] at hmem
    exact h (mem_bytes_of_fromUTF8? hutf hmem (by decide))
  | none =>
    rw [hutf, Option.getD_none, latin1, String.toList_ofList] at hmem
    obtain ⟨b, hb, hchar⟩ := List.mem_map.mp hmem
    have hcode := toNat_ofNat b
    rw [hchar] at hcode
    have hten : b = 10 := UInt8.toNat_inj.mp hcode.symm
    exact h (hten ▸ hb)

theorem lineFeed_notMem_decodeName {bytes : List UInt8} {t : String}
    (h : decodeName bytes = some t) : '\n' ∉ t.toList := by
  simp only [decodeName] at h
  split at h
  · cases h
  · rw [← Option.some.inj h]
    exact lineFeed_notMem_ofPrintable (lineFeed_notMem_printable bytes)

/-- Free of the characters that divide a list into lines and lines into fields. -/
def Plain (t : String) : Prop := ':' ∉ t.toList ∧ '\n' ∉ t.toList

instance (t : String) : Decidable (Plain t) := inferInstanceAs (Decidable (_ ∧ _))

@[simp]
theorem plain_append (a b : String) : Plain (a ++ b) ↔ Plain a ∧ Plain b := by
  simp only [Plain, String.toList_append, List.mem_append, not_or, and_and_and_comm]

theorem isAlphanum_of_mem_toDigits {base n : Nat} (hone : 1 < base) (hbase : base ≤ 16) {c : Char}
    (hc : c ∈ Nat.toDigits base n) : c.isAlphanum := by
  have digit : ∀ d < 16, (Nat.digitChar d).isAlphanum := by decide
  induction n using Nat.strongRecOn with
  | ind n ih =>
    rw [Nat.toDigits_eq_if hone] at hc
    split at hc
    case isTrue hn =>
      rw [List.mem_singleton.mp hc]
      exact digit n (by omega)
    case isFalse hn =>
      obtain hc | hc := List.mem_append.mp hc
      · exact ih (n / base) (Nat.div_lt_self (by omega) hone) hc
      · rw [List.mem_singleton.mp hc]
        exact digit _ (Nat.lt_of_lt_of_le (Nat.mod_lt n (by omega)) hbase)

theorem plain_of_isAlphanum {t : String} (h : ∀ c ∈ t.toList, c.isAlphanum) : Plain t :=
  ⟨fun hc => absurd (h _ hc) (by decide), fun hc => absurd (h _ hc) (by decide)⟩

theorem plain_lower (width k : Nat) : Plain (Hex.lower width k) := by
  refine plain_of_isAlphanum fun c hc => ?_
  rw [Hex.lower, String.toList_ofList, Hex.digits] at hc
  obtain hc | hc := List.mem_append.mp hc
  · rw [List.eq_of_mem_replicate hc]
    decide
  · exact isAlphanum_of_mem_toDigits (by decide) (by decide) hc

theorem plain_replace_colon {t : String} (h : '\n' ∉ t.toList) : Plain (replace ':' ' ' t) := by
  simp only [Plain, replace, String.toList_ofList, List.mem_map, not_exists, not_and]
  refine ⟨fun c _ hc => ?_, fun c hc hnl => ?_⟩
  · split at hc <;> simp_all
  · split at hnl <;> simp_all

theorem replace_replace_colon (t : String) :
    replace ':' ' ' (replace ':' ' ' t) = replace ':' ' ' t := by
  simp only [replace, String.toList_ofList, List.map_map]
  congr 1
  refine List.map_congr_left fun c _ => ?_
  by_cases hc : c = ':' <;> simp [hc]

end Text

open Text

def Descriptor.Announced (name : Option String) : Prop :=
  name = none ∨ ∃ data d, service data = .ok d ∧ (name = d.name ∨ name = d.provider)

theorem Descriptor.names_of_service {data : Bytes} {d : ServiceName} (h : service data = .ok d) :
    ∃ provider name, d.provider = decodeName provider ∧ d.name = decodeName name := by
  unfold service at h
  split at h
  case h_2 => cases h
  split at h
  case h_2 => cases h
  dsimp only at h
  split at h
  case isTrue => cases h
  rw [← Except.ok.inj h]
  exact ⟨_, _, rfl, rfl⟩

theorem Descriptor.Announced.lineFeed_notMem {t : String} (h : Announced (some t)) :
    '\n' ∉ t.toList := by
  obtain h | ⟨data, d, hd, h⟩ := h
  · cases h
  obtain ⟨provider, name, hprovider, hname⟩ := names_of_service hd
  obtain h | h := h
  · exact lineFeed_notMem_decodeName (hname.symm.trans h.symm)
  · exact lineFeed_notMem_decodeName (hprovider.symm.trans h.symm)

namespace Service

structure Announced (s : Service) : Prop where
  name : Descriptor.Announced s.name
  provider : Descriptor.Announced s.provider

theorem plain_nameText_prepareNames {s : Service} (h : s.Announced) :
    Plain s.prepareNames.nameText := by
  refine plain_replace_colon ?_
  cases hname : s.name with
  | some t => exact (hname ▸ h.name).lineFeed_notMem
  | none =>
    have hplain : Plain ("[" ++ Hex.lower 4 s.id ++ "]") := by
      rw [plain_append, plain_append]
      exact ⟨⟨by decide, plain_lower 4 s.id⟩, by decide⟩
    exact hplain.2

theorem prepareNames_prepareNames (s : Service) : s.prepareNames.prepareNames = s.prepareNames := by
  simp [prepareNames, replace_replace_colon, Option.map_map, Function.comp_def]

end Service

namespace ChannelList

def fields (o : ListOptions) (tp : Transponder) (s : Service) : List String :=
  match o.format with
  | .zap => [s.nameText] ++ zapTuning o.satellite tp
      ++ [toString s.videoPid, toString s.firstAudioPid, toString s.id]
  | .vdr => vdrFields o tp s
  | .pids => []

variable (o : ListOptions) (tp : Transponder)

@[simp]
theorem plain_letter (p : Polarisation) : Plain p.letter := by cases p <;> decide

@[simp]
theorem plain_codeRate (r : CodeRate) : Plain r.name := by cases r <;> decide

@[simp]
theorem plain_modulation (m : Modulation) : Plain m.name := by cases m <;> decide

@[simp]
theorem plain_bandwidth (b : Bandwidth) : Plain b.name := by cases b <;> decide

@[simp]
theorem plain_mode (m : TransmissionMode) : Plain m.name := by cases m <;> decide

@[simp]
theorem plain_guardInterval (g : GuardInterval) : Plain g.name := by cases g <;> decide

@[simp]
theorem plain_hierarchy (h : Hierarchy) : Plain h.name := by cases h <;> decide

@[simp]
theorem plain_inversion (i : Inversion) : Plain i.name := by cases i <;> decide

end ChannelList

def Transponder.prepareNames (tp : Transponder) : Transponder :=
  { tp with services := tp.services.map Service.prepareNames }

theorem Transponder.prepareNames_prepareNames (tp : Transponder) :
    tp.prepareNames.prepareNames = tp.prepareNames := by
  simp [prepareNames, Service.prepareNames_prepareNames]

namespace Network

theorem prepareNames_eq (n : Network) :
    n.prepareNames = { n with
      transponders := n.transponders.mapIdx fun i tp =>
        if n.scanned.contains i then tp.prepareNames else tp } := rfl

theorem scannedTransponders_prepareNames (n : Network) :
    n.prepareNames.scannedTransponders = n.scannedTransponders.map Transponder.prepareNames := by
  rw [scannedTransponders, scannedTransponders, List.map_filterMap]
  refine List.filterMap_congr fun id hid => ?_
  have hscanned : n.scanned.contains id := List.contains_iff_mem.mpr hid
  simp only [get?, prepareNames_eq, List.getElem?_mapIdx, hscanned, if_true]

theorem listed_prepareNames (n : Network) :
    n.prepareNames.listed = n.listed.map fun e => (e.1.prepareNames, e.2.prepareNames) := by
  rw [listed, listed, scannedTransponders_prepareNames, List.flatMap_map, List.map_flatMap]
  refine List.flatMap_congr fun tp _ => ?_
  simp [Transponder.prepareNames]

theorem prepareNames_prepareNames (n : Network) :
    n.prepareNames.prepareNames = n.prepareNames := by
  simp only [prepareNames_eq, List.mapIdx_mapIdx]
  congr 1
  refine List.mapIdx_eq_mapIdx_iff.mpr fun i hi => ?_
  by_cases hscanned : n.scanned.contains i
  · simp only [Function.comp, hscanned, if_true, Transponder.prepareNames_prepareNames]
  · simp only [Function.comp, hscanned, if_false, Bool.false_eq_true]

def chosen (o : ListOptions) (n : Network) : List (Transponder × Service) :=
  n.listed.filter fun e => e.2.isSelected o.select o.caSelect

theorem chosen_prepareNames (o : ListOptions) (n : Network) :
    n.prepareNames.chosen o = (n.chosen o).map fun e => (e.1.prepareNames, e.2.prepareNames) := by
  rw [chosen, listed_prepareNames, List.filter_map]
  rfl

theorem written_dump (o : ListOptions) (n : Network) :
    (n.dump o).1.written = (n.chosen o).length := by
  have hlines : (n.dump o).1.written
      = ((n.prepareNames.chosen o).map fun e => ChannelList.line o e.1 e.2).length := rfl
  rw [hlines, List.length_map, chosen_prepareNames, List.length_map]

end Network

end Bandscan
