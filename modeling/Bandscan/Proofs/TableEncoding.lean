import Bandscan.Proofs.CodedNumbers
import Bandscan.Proofs.EntryLoop
/-!
Network and service tables read what has been written. Of the descriptors of an entry, up to the
first structural error, the last complete delivery counts, the first frequency list that is not
empty and the last complete service name, while channels and CA systems add up.
-/

namespace Bandscan

namespace Descriptor

def delivery? (d : Descriptor) : Option (Nat × Delivery) :=
  if d.tag = satelliteTag then (satellite d.data).toOption.map fun (f, p) => (f, .satellite p)
  else if d.tag = cableTag then (cable d.data).toOption.map fun (f, p) => (f, .cable p)
  else if d.tag = terrestrialTag then
    (terrestrial d.data).toOption.map fun (f, p) => (f, .terrestrial p)
  else none

def channels (d : Descriptor) : List LogicalChannel :=
  if d.tag = logicalChannelTag then logicalChannels d.data else []

def caIds (d : Descriptor) : List Nat :=
  if d.tag = caIdentifierTag then caSystems d.data else []

theorem isSome_delivery? (d : Descriptor) : d.delivery?.isSome = true ↔ d.IsDelivery := by
  unfold delivery? IsDelivery
  split
  · next ht =>
    by_cases hl : 11 ≤ d.data.length
    · obtain ⟨p, hp, -⟩ := satellite_of_length hl
      simp [hp, ht, hl, Except.toOption]
    · simp [satellite_of_short hl, ht, hl, Except.toOption, satelliteTag, terrestrialTag]
  · next hs =>
    split
    · next ht =>
      by_cases hl : 11 ≤ d.data.length
      · obtain ⟨p, hp, -⟩ := cable_of_length hl
        simp [hp, ht, hl, Except.toOption]
      · simp [cable_of_short hl, ht, hl, Except.toOption, cableTag, terrestrialTag]
    · next hc =>
      split
      · next ht =>
        by_cases hl : 7 ≤ d.data.length
        · obtain ⟨p, hp⟩ := terrestrial_of_length hl
          simp [hp, ht, hl, Except.toOption]
        · simp [terrestrial_of_short hl, hs, hc, hl, Except.toOption]
      · next ht => simp [hs, hc, ht]

def providerLength (d : Descriptor) : Nat := (d.data.getD 1 0).toNat

def nameLength (d : Descriptor) : Nat := (d.data.getD (2 + d.providerLength) 0).toNat

def IsService (d : Descriptor) : Prop :=
  d.tag = serviceTag ∧ 3 + d.providerLength + d.nameLength ≤ d.data.length

instance (d : Descriptor) : Decidable d.IsService := inferInstanceAs (Decidable (_ ∧ _))

def serviceName (d : Descriptor) : ServiceName where
  serviceType := (d.data.getD 0 0).toNat
  provider := Text.decodeName ((d.data.drop 2).take d.providerLength)
  name := Text.decodeName ((d.data.drop (3 + d.providerLength)).take d.nameLength)

theorem service_eq (d : Descriptor) :
    service d.data =
      if 3 + d.providerLength + d.nameLength ≤ d.data.length then .ok d.serviceName
      else .error (.tooShort serviceTag d.data.length) := by
  match hd : d.data with
  | [] => simp [service]
  | [serviceType] => simp [service]; omega
  | serviceType :: p :: rest =>
    have hp : d.providerLength = p.toNat := by simp [providerLength, hd]
    have hn : d.nameLength = (rest.getD p.toNat 0).toNat := by
      simp [nameLength, hp, hd, Nat.add_comm 2]
    have hname : d.serviceName = {
        serviceType := serviceType.toNat
        provider := Text.decodeName (rest.take p.toNat)
        name := Text.decodeName ((rest.drop (p.toNat + 1)).take (rest.getD p.toNat 0).toNat) } := by
      simp [serviceName, hp, hn, hd, Nat.add_comm 3]
    rw [hname, hp, hn, service]
    match ht : rest.drop p.toNat with
    | [] =>
      have hle := List.drop_eq_nil_iff.1 ht
      rw [if_neg (by simp only [List.length_cons]; omega)]
    | n :: tail =>
      have hget : rest.getD p.toNat 0 = n := by
        rw [List.getD_eq_getElem?_getD, ← List.head?_drop, ht]
        rfl
      have htail : rest.drop (p.toNat + 1) = tail := by rw [← List.tail_drop, ht, List.tail_cons]
      have hlen : rest.length = p.toNat + 1 + tail.length := by
        have := congrArg List.length ht
        simp only [List.length_drop, List.length_cons] at this
        omega
      have hiff : tail.length < n.toNat ↔
          ¬ 3 + p.toNat + n.toNat ≤ (serviceType :: p :: rest).length := by
        simp only [List.length_cons, hlen]
        omega
      rw [hget, htail]
      simp only [hiff, ite_not]

end Descriptor

namespace Multiplex

open Descriptor

def lastTuning (ds : List Descriptor) : Option (Nat × Delivery) :=
  (lastDelivery ds).bind delivery?

def told (ds : List Descriptor) (m : Multiplex) : Multiplex :=
  { m with
    frequency := ((lastTuning ds).map (·.1)).getD 0
    delivery := (lastTuning ds).map (·.2)
    alternates := (firstAlternates ds).map (· % Word.limit32)
    channels := ds.flatMap (·.channels) }

theorem apply_eq (m : Multiplex) (d : Descriptor) :
    m.apply d = { m with
      frequency := (d.delivery?.map (·.1)).getD m.frequency
      delivery := (d.delivery?.map (·.2)).or m.delivery
      alternates :=
        if m.alternates = [] then d.codedAlternates.map (· % Word.limit32) else m.alternates
      channels := m.channels ++ d.channels } := by
  rw [← alternates_apply]
  unfold apply effect delivery? Descriptor.channels
  dsimp only
  split
  · next ht =>
    cases satellite d.data <;>
      simp [ht, satelliteTag, logicalChannelTag, Except.map, Except.mapError, Except.toOption,
          tuned]
  · split
    · next ht =>
      cases cable d.data <;>
        simp [ht, cableTag, logicalChannelTag, Except.map, Except.mapError, Except.toOption, tuned]
    · split
      · next ht =>
        cases terrestrial d.data <;>
          simp [ht, terrestrialTag, logicalChannelTag, Except.map, Except.mapError,
            Except.toOption, tuned]
      · split
        · next ht =>
          cases frequencyList d.data <;>
            simp [ht.1, frequencyListTag, logicalChannelTag, Except.map, Except.mapError,
              Except.toOption]
        · split
          · next ht => simp [Except.toOption]
          · next ht => simp [Except.toOption]

theorem lastTuning_concat (ds : List Descriptor) (d : Descriptor) :
    lastTuning (ds ++ [d]) = d.delivery?.or (lastTuning ds) := by
  unfold lastTuning
  rw [lastDelivery_concat]
  by_cases hd : d.IsDelivery
  · obtain ⟨p, hp⟩ := Option.isSome_iff_exists.1 ((isSome_delivery? d).2 hd)
    simp [hd, hp]
  · have hp : d.delivery? = none := by
      simpa using mt (isSome_delivery? d).1 hd
    simp [hd, hp]

theorem told_concat (ds : List Descriptor) (d : Descriptor) (m : Multiplex) :
    told (ds ++ [d]) m = (told ds m).apply d := by
  rw [apply_eq]
  simp only [told, lastTuning_concat, firstAlternates_concat, List.flatMap_append,
    List.flatMap_singleton]
  congr 1
  · cases d.delivery? <;> rfl
  · cases d.delivery? <;> rfl
  · by_cases hn : firstAlternates ds = [] <;> simp [hn]

theorem decode_eq (e : Nit.Entry) :
    e.decode = told (Descriptor.all e.descriptors) e.blank := by
  unfold Nit.Entry.decode
  -- the descriptor that has been read last decides, so the list grows at its end
  induction Descriptor.all e.descriptors using List.reverseRecOn with
  | nil => rfl
  | append_singleton ds d ih => rw [List.foldl_append, ih, told_concat]; rfl

end Multiplex

namespace ServiceInfo

open Descriptor

def lastService (ds : List Descriptor) : Option Descriptor :=
  (ds.filter fun d => d.IsService).getLast?

def told (ds : List Descriptor) (s : ServiceInfo) : ServiceInfo :=
  { s with
    description := (lastService ds).map serviceName
    caSystems := ds.flatMap (·.caIds) }

theorem apply_eq (s : ServiceInfo) (d : Descriptor) :
    s.apply d = { s with
      description := if d.IsService then some d.serviceName else s.description
      caSystems := s.caSystems ++ d.caIds } := by
  unfold apply effect IsService caIds
  rw [service_eq]
  split
  · next ht =>
    by_cases hl : 3 + d.providerLength + d.nameLength ≤ d.data.length
    · simp [ht, hl, serviceTag, caIdentifierTag, Except.toOption]
    · simp [ht, hl, serviceTag, caIdentifierTag, Except.toOption]
  · next hs =>
    split
    · simp [hs, Except.toOption]
    · simp [hs, Except.toOption]

theorem told_concat (ds : List Descriptor) (d : Descriptor) (s : ServiceInfo) :
    told (ds ++ [d]) s = (told ds s).apply d := by
  rw [apply_eq]
  unfold told lastService
  rw [List.filter_append, List.flatMap_append, List.flatMap_singleton]
  by_cases hd : d.IsService <;> simp [hd]

theorem decode_eq (e : Sdt.Entry) :
    e.decode = told (Descriptor.all e.descriptors) e.blank := by
  unfold Sdt.Entry.decode
  induction Descriptor.all e.descriptors using List.reverseRecOn with
  | nil => rfl
  | append_singleton ds d ih => rw [List.foldl_append, ih, told_concat]; rfl

end ServiceInfo

namespace Nit

def CodedEntry.multiplex (c : CodedEntry) : Multiplex :=
  Multiplex.told (Descriptor.all c.descriptors) {
    streamId := c.streamId
    originNetwork := c.originNetwork
    descriptorError := (Descriptor.walk c.descriptors).2 }

theorem CodedEntry.decode_content (c : CodedEntry) : c.content.decode = c.multiplex :=
  Multiplex.decode_eq c.content

/-- All that a payload codes. The length of the entry loop may be any number. -/
structure Layout where
  upper : Fin 16
  network : Bytes
  loopLength : Fin 65536
  entries : List CodedEntry
  fits : network.length < 4096

namespace Layout

variable (l : Layout)

def encode : Bytes :=
  Word.code16 (4096 * l.upper + l.network.length) ++ (l.network ++ (Word.code16 l.loopLength ++
    l.entries.flatMap CodedEntry.encode))

def content (h : Header) : Nit where
  tableId := h.tableId
  networkId := h.ext
  version := h.version
  name := networkName l.network
  multiplexes := l.entries.map (·.multiplex)
  truncated := none

theorem split_encode (networkId : Nat) :
    split networkId l.encode = .ok (l.network, l.entries.flatMap CodedEntry.encode) := by
  have hroom : ¬ (l.network ++ (Word.code16 l.loopLength ++
      l.entries.flatMap CodedEntry.encode)).length < l.network.length + 2 := by
    simp [Word.code16]
  have hdrop (bytes : Bytes) : (l.network ++ (Word.code16 l.loopLength ++ bytes)).drop
      (l.network.length + 2) = bytes := by
    rw [← List.drop_drop, List.drop_left]
    rfl
  rw [encode, Word.code16, List.cons_append, List.cons_append, List.nil_append, split,
    Word.length_ofNat l.upper.isLt l.fits, if_neg hroom, List.take_left, hdrop]

theorem parse_encode (h : Header) (hn : Section.IsNit ⟨h, l.encode⟩)
    (hx : ∀ c ∈ l.entries, ∀ d ∈ Descriptor.all c.descriptors, ¬ Excessive d) :
    Nit.parse ⟨h, l.encode⟩ = .ok (l.content h) := by
  have hread := entryLoop.read_entries (by decide) l.entries
  have hfits : ¬ (l.entries.map CodedEntry.content).any (·.overflows) = true := by
    simp only [List.any_map, List.any_eq_true, Function.comp_apply, overflows_iff]
    rintro ⟨c, hc, d, hd, he⟩
    exact hx c hc d hd he
  rw [parse_of_isNit hn, l.split_encode]
  dsimp only
  rw [hread, if_neg hfits, List.map_map]
  simp only [Function.comp_def, CodedEntry.decode_content]
  rfl

end Layout

end Nit

def Section.IsSdt (s : Section) : Prop :=
  s.header.tableId = Sdt.actualId ∨ s.header.tableId = Sdt.otherId

namespace Sdt

theorem expect_of_isSdt {s : Section} (h : s.IsSdt) : expect s = .ok () := by
  unfold expect
  split
  · rfl
  · next hother =>
    have hactual : s.header.tableId = actualId := h.resolve_right hother
    rw [Section.expectTable_eq, if_pos hactual]

def CodedEntry.service (c : CodedEntry) : ServiceInfo :=
  ServiceInfo.told (Descriptor.all c.descriptors) {
    serviceId := c.serviceId
    schedule := c.schedule
    presentFollowing := c.presentFollowing
    running := .ofBits c.running
    scrambled := c.scrambled
    descriptorError := (Descriptor.walk c.descriptors).2 }

/-- The flags and the four bits before the length are coded in bytes they share with others. -/
theorem CodedEntry.blank_content (c : CodedEntry) : c.content.blank = {
    serviceId := c.serviceId
    schedule := c.schedule
    presentFollowing := c.presentFollowing
    running := .ofBits c.running
    scrambled := c.scrambled
    descriptorError := (Descriptor.walk c.descriptors).2 } := by
  have hfits := c.fits
  have hstatus : c.content.status = 32 * c.running + 16 * c.scrambled.toNat +
      c.descriptors.length / 256 := by
    simp only [content, status]
    omega
  have hschedule : c.content.flags.testBit 1 = c.schedule := by
    rw [Nat.testBit_eq_decide_div_mod_eq]
    cases h : c.schedule <;> cases hp : c.presentFollowing <;>
      simp [content, flags, h, hp] <;> omega
  have hpresent : c.content.flags.testBit 0 = c.presentFollowing := by
    rw [Nat.testBit_eq_decide_div_mod_eq]
    cases h : c.presentFollowing <;> simp [content, flags, h] <;> omega
  have hrunning : c.content.status / 32 = c.running := by
    have := Bool.toNat_le c.scrambled
    omega
  have hscrambled : c.content.status.testBit 4 = c.scrambled := by
    rw [Nat.testBit_eq_decide_div_mod_eq, hstatus]
    cases c.scrambled <;> simp <;> omega
  rw [Entry.blank, hschedule, hpresent, hrunning, hscrambled]
  rfl

theorem CodedEntry.decode_content (c : CodedEntry) : c.content.decode = c.service := by
  rw [ServiceInfo.decode_eq, c.blank_content]
  rfl

structure Layout where
  originNetwork : Fin 65536
  reserved : UInt8
  entries : List CodedEntry

namespace Layout

variable (l : Layout)

def encode : Bytes :=
  Word.code16 l.originNetwork ++ l.reserved :: l.entries.flatMap CodedEntry.encode

def content (h : Header) : Sdt where
  streamId := h.ext
  originNetwork := l.originNetwork
  version := h.version
  services := l.entries.map (·.service)
  truncated := none

theorem parse_encode (h : Header) (hs : Section.IsSdt ⟨h, l.encode⟩) :
    Sdt.parse ⟨h, l.encode⟩ = .ok (l.content h) := by
  have hread := entryLoop.read_entries (by decide) l.entries
  unfold parse
  rw [expect_of_isSdt hs]
  simp only [encode, Word.code16, List.cons_append, List.nil_append]
  change Except.ok _ = _
  rw [hread, List.map_map, Word.w16_ofNat l.originNetwork.isLt]
  simp only [Function.comp_def, CodedEntry.decode_content]
  rfl

end Layout

end Sdt

/-- A short delivery, a whole one, an unknown tag, an empty frequency list, two that are not empty,
two lists of channels, another delivery, and bytes that are not a descriptor. -/
def crowdedNetwork : Nit.Layout where
  upper := 15
  network := [0x40, 0x03, 0x42, 0x53, 0x31]
  loopLength := 65535
  entries := [{
    streamId := 0x0401
    originNetwork := 0x233A
    upper := 5
    descriptors := [
      0x5A, 0x02, 0x02, 0xD0,
      0x44, 0x0B, 0x03, 0x46, 0x00, 0x00, 0xFF, 0xF2, 0x03, 0x00, 0x69, 0x00, 0x03,
      0x7F, 0x01, 0x20,
      0x62, 0x01, 0x03,
      0x62, 0x05, 0x03, 0x03, 0x10, 0x4D, 0x40,
      0x62, 0x05, 0x03, 0x02, 0xD0, 0x41, 0x40,
      0x83, 0x04, 0x00, 0x01, 0xFC, 0x01,
      0x83, 0x04, 0x00, 0x02, 0x7C, 0x02,
      0x5A, 0x0B, 0x02, 0xD0, 0x41, 0x40, 0x1F, 0x81, 0x02, 0xFF, 0xFF, 0xFF, 0xFF,
      0x44, 0x02, 0x03, 0x46,
      0x43, 0x00]
    fits := by decide }, {
    streamId := 0x0402
    originNetwork := 0x233A
    upper := 0
    descriptors := []
    fits := by decide }]
  fits := by decide

end Bandscan
