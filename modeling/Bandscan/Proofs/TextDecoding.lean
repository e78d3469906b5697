import Mathlib.Data.List.Basic
import Bandscan.Descriptor.Service
/-!
Text that is sent in UTF-8. Control codes are dropped byte by byte and before the encoding is looked
at, and the bytes that continue a character in UTF-8 may look like them. A text without such a byte
comes back as it was sent. Of all others only those come back that have no letter outside ASCII
but Ã: what is left of it is its own Latin-1 code.
-/

namespace Bandscan

namespace Text

def utf8 (s : String) : Bytes := s.toByteArray.data.toList

theorem utf8_eq (s : String) : utf8 s = s.toList.flatMap String.utf8EncodeChar := by
  rw [utf8, ← String.utf8Encode_toList, List.utf8Encode, List.toList_data_toByteArray]

theorem fromUTF8?_eq_some_iff {bytes : Bytes} {t : String} :
    String.fromUTF8? bytes.toByteArray = some t ↔ bytes = utf8 t := by
  constructor
  · intro h
    unfold String.fromUTF8? at h
    split at h
    · obtain rfl := Option.some.inj h
      exact List.toList_data_toByteArray.symm
    · cases h
  · rintro rfl
    have hbytes : (utf8 t).toByteArray = t.toByteArray := by
      rw [utf8_eq, ← String.utf8Encode_toList, List.utf8Encode]
    unfold String.fromUTF8?
    rw [hbytes, dif_pos t.isValidUTF8]
    rfl

theorem isControl_eq_false_iff {b : UInt8} :
    isControl b = false ↔ 0x20 ≤ b.toNat ∧ (b.toNat < 0x80 ∨ 0x9F < b.toNat) := by
  simp only [isControl, Bool.or_eq_false_iff, Bool.and_eq_false_iff, decide_eq_false_iff_not,
    UInt8.lt_iff_toNat_lt, UInt8.le_iff_toNat_le]
  show ¬ b.toNat < 32 ∧ (¬ 128 ≤ b.toNat ∨ ¬ b.toNat ≤ 159) ↔ _
  omega

theorem toNat_ofNat (b : UInt8) : (Char.ofNat b.toNat).toNat = b.toNat := by
  have hvalid : b.toNat.isValidChar := .inl (by have := b.toNat_lt; omega)
  rw [Char.ofNat, dif_pos hvalid]
  rfl

theorem encodeChar_of_lt {c : Char} (h : c.toNat < 0x80) :
    String.utf8EncodeChar c = [UInt8.ofNat c.toNat] :=
  if_pos (Nat.le_of_lt_succ h)

/-- A letter outside ASCII has a first byte from 0xC0 on and ends in one that continues it. If the
first is the Latin-1 code of the letter, it is Ã. -/
theorem encodeChar_of_le {c : Char} (h : 0x80 ≤ c.toNat) :
    ∃ lead mid, String.utf8EncodeChar c =
        UInt8.ofNat lead :: (mid ++ [UInt8.ofNat (c.toNat % 64 + 0x80)]) ∧
      0xC0 ≤ lead ∧ lead < 0x100 ∧ (lead = c.toNat → c = 'Ã') := by
  have hchar {lead : Nat} (hlead : lead = c.toNat → c.toNat = 0xC3) (he : lead = c.toNat) :
      c = 'Ã' := Char.toNat_inj.1 (hlead he)
  have hascii : ¬ c.val.toNat ≤ 0x7F := Nat.not_le.2 h
  unfold String.utf8EncodeChar
  rw [if_neg hascii]
  split
  · next h₂ =>
    refine ⟨c.toNat / 64 % 0x20 + 0xC0, [], rfl, by omega, by omega, hchar fun he => ?_⟩
    have : c.toNat ≤ 0x7FF := h₂
    omega
  split
  · next h₂ h₃ =>
    have : ¬ c.toNat ≤ 0x7FF := h₂
    exact ⟨c.toNat / 4096 % 0x10 + 0xE0, [_], rfl, by omega, by omega, hchar fun he => by omega⟩
  · next h₂ h₃ =>
    have : ¬ c.toNat ≤ 0x7FF := h₂
    exact ⟨c.toNat / 262144 % 0x08 + 0xF0, [_, _], rfl, by omega, by omega,
      hchar fun he => by omega⟩

theorem exists_continuation {c : Char} (h : 0x80 ≤ c.toNat) :
    ∃ b ∈ String.utf8EncodeChar c, 0x80 ≤ b.toNat ∧ b.toNat < 0xC0 := by
  obtain ⟨lead, mid, he, -⟩ := encodeChar_of_le h
  refine ⟨UInt8.ofNat (c.toNat % 64 + 0x80), by simp [he], ?_⟩
  rw [UInt8.toNat_ofNat']
  omega

/-- A printable letter of ASCII, or Ã: its Latin-1 code is all that is left of it. -/
theorem printable_encodeChar {c : Char} (h : 0x20 ≤ c.toNat ∧ c.toNat < 0x80 ∨ c = 'Ã') :
    printable (String.utf8EncodeChar c) = [UInt8.ofNat c.toNat] := by
  obtain ⟨hlow, hhigh⟩ | rfl := h
  · have hkept : isControl (UInt8.ofNat c.toNat) = false := by
      rw [isControl_eq_false_iff, UInt8.toNat_ofNat']
      omega
    rw [encodeChar_of_lt hhigh]
    simp [printable, hkept]
  · decide

/-- The first byte of a character is not dropped, and the others are none if it is the Latin-1 code
of the character. -/
theorem exists_printable_encodeChar {c : Char} (h : 0x20 ≤ c.toNat) :
    ∃ lead more, printable (String.utf8EncodeChar c) = lead :: more ∧
      (Char.ofNat lead.toNat = c → c.toNat < 0x80 ∨ c = 'Ã') := by
  obtain hascii | hmore := Nat.lt_or_ge c.toNat 0x80
  · exact ⟨_, [], printable_encodeChar (.inl ⟨h, hascii⟩), fun _ => .inl hascii⟩
  · obtain ⟨lead, mid, he, hlow, hhigh, hchar⟩ := encodeChar_of_le hmore
    have hlead : (UInt8.ofNat lead).toNat = lead := UInt8.toNat_ofNat_of_lt' hhigh
    have hkept : isControl (UInt8.ofNat lead) = false := by
      rw [isControl_eq_false_iff, hlead]
      omega
    refine ⟨UInt8.ofNat lead, printable (mid ++ [UInt8.ofNat (c.toNat % 64 + 0x80)]), ?_,
      fun hc => .inr (hchar ?_)⟩
    · rw [he]
      simp [printable, hkept]
    · rw [← hc, toNat_ofNat, hlead]

/-- No byte of the character looks like a control code: neither the character does nor any six
of its bits that UTF-8 puts into a byte of their own. -/
def Intact (c : Char) : Prop :=
  0x20 ≤ c.toNat ∧ (c.toNat < 0x80 ∨ 0x20 ≤ c.toNat % 64 ∧
    (c.toNat < 0x800 ∨ 0x20 ≤ c.toNat / 64 % 64) ∧
    (c.toNat < 0x10000 ∨ 0x20 ≤ c.toNat / 4096 % 64))

instance (c : Char) : Decidable (Intact c) := inferInstanceAs (Decidable (_ ∧ _))

theorem forall_encodeChar_iff {c : Char} :
    (∀ b ∈ String.utf8EncodeChar c, isControl b = false) ↔ Intact c := by
  have hval : c.val.toNat = c.toNat := rfl
  have hmax : c.toNat < 0x110000 := by
    obtain h | ⟨-, h⟩ := c.valid <;> omega
  rw [Intact, String.utf8EncodeChar, hval]
  split_ifs <;>
    simp only [List.forall_mem_cons, List.not_mem_nil, false_imp_iff, implies_true, and_true,
      isControl_eq_false_iff, UInt8.toNat_ofNat'] <;>
    omega

theorem printable_flatMap (cs : List Char) :
    printable (cs.flatMap String.utf8EncodeChar) =
      cs.flatMap fun c => printable (String.utf8EncodeChar c) :=
  List.filter_flatMap

theorem length_le_printable {cs : List Char} (h : ∀ c ∈ cs, 0x20 ≤ c.toNat) :
    cs.length ≤ (printable (cs.flatMap String.utf8EncodeChar)).length := by
  induction cs with
  | nil => exact Nat.zero_le _
  | cons c cs ih =>
    obtain ⟨hc, hcs⟩ := List.forall_mem_cons.1 h
    obtain ⟨lead, more, he, -⟩ := exists_printable_encodeChar hc
    have := ih hcs
    rw [printable_flatMap] at this ⊢
    rw [List.flatMap_cons, he, List.length_append, List.length_cons, List.length_cons]
    omega

theorem latin_of_map_printable {cs : List Char} (h : ∀ c ∈ cs, 0x20 ≤ c.toNat)
    (hcs : (printable (cs.flatMap String.utf8EncodeChar)).map (fun b => Char.ofNat b.toNat) = cs) :
    ∀ c ∈ cs, c.toNat < 0x80 ∨ c = 'Ã' := by
  induction cs with
  | nil => simp
  | cons c cs ih =>
    obtain ⟨hc, hrest⟩ := List.forall_mem_cons.1 h
    obtain ⟨lead, more, he, hlead⟩ := exists_printable_encodeChar hc
    rw [printable_flatMap, List.flatMap_cons, he, List.cons_append, List.map_cons, List.map_append,
      ← printable_flatMap] at hcs
    obtain ⟨hfirst, htail⟩ := List.cons.inj hcs
    have hmore : more = [] := by
      have hlength := congrArg List.length htail
      have := length_le_printable hrest
      rw [List.length_append, List.length_map, List.length_map] at hlength
      exact List.eq_nil_of_length_eq_zero (by omega)
    rw [hmore, List.map_nil, List.nil_append] at htail
    exact List.forall_mem_cons.2 ⟨hlead hfirst, ih hrest htail⟩

/-- Nothing of the text is dropped, or what is left of it is the text in Latin-1. -/
def Survives (s : String) : Prop :=
  (∀ c ∈ s.toList, Intact c) ∨
    ∀ c ∈ s.toList, 0x20 ≤ c.toNat ∧ c.toNat < 0x80 ∨ c = 'Ã'

instance (s : String) : Decidable (Survives s) :=
  @instDecidableOr _ _ (List.decidableBAll _ _) (List.decidableBAll _ _)

theorem printable_utf8_eq_self {s : String} :
    printable (utf8 s) = utf8 s ↔ ∀ c ∈ s.toList, Intact c := by
  rw [printable, List.filter_eq_self, utf8_eq]
  simp only [List.mem_flatMap, Bool.not_eq_true', ← forall_encodeChar_iff]
  exact ⟨fun h c hc b hb => h b ⟨c, hc, hb⟩, fun h b ⟨c, hc, hb⟩ => h c hc b hb⟩

theorem decode_of_intact {s : String} (h : ∀ c ∈ s.toList, Intact c) : decode (utf8 s) = s := by
  rw [decode, printable_utf8_eq_self.2 h, ofPrintable, fromUTF8?_eq_some_iff.2 rfl]
  rfl

theorem ascii_of_utf8 {t : String} (h : ∀ b ∈ utf8 t, b.toNat < 0x80 ∨ 0xC0 ≤ b.toNat) :
    ∀ b ∈ utf8 t, b.toNat < 0x80 := by
  intro b hb
  rw [utf8_eq] at h hb
  obtain ⟨c, hc, hbc⟩ := List.mem_flatMap.1 hb
  obtain hascii | hmore := Nat.lt_or_ge c.toNat 0x80
  · rw [encodeChar_of_lt hascii, List.mem_singleton] at hbc
    rw [hbc, UInt8.toNat_ofNat']
    omega
  · obtain ⟨b', hb', hlow, hhigh⟩ := exists_continuation hmore
    have := h b' (List.mem_flatMap.2 ⟨c, hc, hb'⟩)
    omega

theorem latin1_codes {cs : List Char} (h : ∀ c ∈ cs, c.toNat < 0x100) :
    latin1 (cs.map fun c => UInt8.ofNat c.toNat) = String.ofList cs := by
  have hid : ∀ c ∈ cs,
      ((fun b : UInt8 => Char.ofNat b.toNat) ∘ fun c => UInt8.ofNat c.toNat) c = id c := by
    intro c hc
    have hcode : (UInt8.ofNat c.toNat).toNat = c.toNat := UInt8.toNat_ofNat_of_lt' (h c hc)
    rw [Function.comp_apply, hcode, Char.ofNat_toNat]
    rfl
  rw [latin1, List.map_map, List.map_congr_left hid, List.map_id]

theorem decode_of_latin {s : String}
    (h : ∀ c ∈ s.toList, 0x20 ≤ c.toNat ∧ c.toNat < 0x80 ∨ c = 'Ã') : decode (utf8 s) = s := by
  have hkept : printable (utf8 s) = s.toList.map fun c => UInt8.ofNat c.toNat := by
    rw [utf8_eq, printable_flatMap, List.map_eq_flatMap]
    exact List.flatMap_congr fun c hc => printable_encodeChar (h c hc)
  have hcode : ∀ c ∈ s.toList, (UInt8.ofNat c.toNat).toNat = c.toNat ∧
      (c.toNat < 0x80 ∨ c.toNat = 0xC3) := by
    intro c hc
    obtain ⟨-, hlt⟩ | rfl := h c hc
    · exact ⟨by rw [UInt8.toNat_ofNat']; omega, .inl hlt⟩
    · exact ⟨rfl, .inr rfl⟩
  rw [decode, ofPrintable]
  cases hutf : String.fromUTF8? (printable (utf8 s)).toByteArray with
  | none =>
    have hbyte : ∀ c ∈ s.toList, c.toNat < 0x100 := by
      intro c hc
      have := (hcode c hc).2
      omega
    rw [Option.getD_none, hkept, latin1_codes hbyte, String.ofList_toList]
  | some t =>
    -- then nothing was dropped, because all is in ASCII
    have ht := fromUTF8?_eq_some_iff.1 hutf
    have hbytes : ∀ b ∈ utf8 t, b.toNat < 0x80 ∨ 0xC0 ≤ b.toNat := by
      rw [← ht, hkept, List.forall_mem_map]
      intro c hc
      have := hcode c hc
      omega
    have hascii := ascii_of_utf8 hbytes
    rw [← ht, hkept, List.forall_mem_map] at hascii
    have hsame : utf8 s = printable (utf8 s) := by
      rw [hkept, utf8_eq, List.map_eq_flatMap]
      refine List.flatMap_congr fun c hc => encodeChar_of_lt ?_
      rw [← (hcode c hc).1]
      exact hascii c hc
    rw [← hutf, ← hsame, fromUTF8?_eq_some_iff.2 rfl]
    rfl

theorem decode_utf8_eq_self {s : String} : decode (utf8 s) = s ↔ Survives s := by
  constructor
  · intro h
    rw [decode, ofPrintable] at h
    cases hutf : String.fromUTF8? (printable (utf8 s)).toByteArray with
    | some t =>
      rw [hutf, Option.getD_some] at h
      exact .inl (printable_utf8_eq_self.1 ((fromUTF8?_eq_some_iff.1 hutf).trans (congrArg utf8 h)))
    | none =>
      rw [hutf, Option.getD_none, latin1] at h
      have hcs := congrArg String.toList h
      rw [String.toList_ofList] at hcs
      have hlow : ∀ c ∈ s.toList, 0x20 ≤ c.toNat := by
        rw [← hcs, List.forall_mem_map]
        intro b hb
        have hkept := (List.mem_filter.1 hb).2
        rw [Bool.not_eq_true', isControl_eq_false_iff] at hkept
        rw [toNat_ofNat]
        exact hkept.1
      rw [utf8_eq] at hcs
      exact .inr fun c hc => (latin_of_map_printable hlow hcs c hc).imp_left fun hlt =>
        ⟨hlow c hc, hlt⟩
  · rintro (h | h)
    · exact decode_of_intact h
    · exact decode_of_latin h

def nonempty (s : String) : Option String := if s = "" then none else some s

theorem decodeName_utf8_eq {s : String} : decodeName (utf8 s) = nonempty s ↔ Survives s := by
  have hempty : ofPrintable [] = "" := by decide +kernel
  by_cases hs : s = ""
  · rw [hs]
    decide +kernel
  rw [nonempty, if_neg hs, ← decode_utf8_eq_self, decode, decodeName]
  by_cases hkept : printable (utf8 s) = []
  · simp [hkept, hempty, Ne.symm hs]
  · simp [hkept]

end Text

namespace Descriptor

open Text

def counted (name : Bytes) : Bytes := UInt8.ofNat name.length :: name

theorem service_counted (serviceType : UInt8) {provider name : Bytes}
    (hp : provider.length ≤ 255) (hn : name.length ≤ 255) (rest : Bytes) :
    service (serviceType :: (counted provider ++ (counted name ++ rest))) =
      .ok ⟨serviceType.toNat, decodeName provider, decodeName name⟩ := by
  have hlength {bytes : Bytes} (h : bytes.length ≤ 255) :
      (UInt8.ofNat bytes.length).toNat = bytes.length := by
    rw [UInt8.toNat_ofNat']
    omega
  simp [service, counted, hlength hp, hlength hn]

end Descriptor

namespace Text

/-- A text comes back from UTF-8 if and only if no byte of its characters looks like a control code
or it is made of printable ASCII and Ã. The same holds of a text that is the provider or the name
of a service, whatever the other is. -/
theorem decode_utf8_iff (s : String) :
    (decode (utf8 s) = s ↔ Survives s) ∧
    ∀ (serviceType : UInt8) (provider name rest : Bytes),
      provider.length ≤ 255 → name.length ≤ 255 →
      ∃ d, Descriptor.service
          (serviceType :: (Descriptor.counted provider ++ (Descriptor.counted name ++ rest))) =
            .ok d ∧
        (provider = utf8 s → (d.provider = nonempty s ↔ Survives s)) ∧
        (name = utf8 s → (d.name = nonempty s ↔ Survives s)) := by
  refine ⟨decode_utf8_eq_self, fun serviceType provider name rest hp hn =>
    ⟨_, Descriptor.service_counted serviceType hp hn rest, ?_, ?_⟩⟩
  · rintro rfl
    exact decodeName_utf8_eq
  · rintro rfl
    exact decodeName_utf8_eq

theorem decode_utf8_iff_umlauts :
    Survives "Söhne" ∧ decode (utf8 "Söhne") = "Söhne" ∧
      ∃ d, Descriptor.service (1 :: (Descriptor.counted (utf8 "Élan") ++
          (Descriptor.counted (utf8 "Söhne") ++ []))) = .ok d ∧ d.name = some "Söhne" := by
  have hs : Survives "Söhne" := by decide +kernel
  obtain ⟨hdecode, hservice⟩ := decode_utf8_iff "Söhne"
  obtain ⟨d, hd, -, hname⟩ := hservice 1 (utf8 "Élan") (utf8 "Söhne") [] (by decide +kernel)
    (by decide +kernel)
  exact ⟨hs, hdecode.2 hs, d, hd, (hname rfl).2 hs⟩

/-- The second byte of É looks like a control code, and its first byte is Ã. -/
theorem decode_utf8_accent : utf8 "É" = [0xC3, 0x89] ∧ decode (utf8 "É") = "Ã" := by
  decide +kernel

end Text

end Bandscan
