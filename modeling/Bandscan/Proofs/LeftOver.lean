import Bandscan.Proofs.TableEncoding
/-!
What is left over behind the last entry of a network or service table. As many bytes as the header
of an entry has are read and reported. Fewer of them are lost: nothing tells them from a loop that
ends with its last entry.
-/

namespace Bandscan

section Loop

variable {α β γ ε : Type} {encode : α → Bytes} {content : α → β} {silent : Nat}
  {read : Bytes → List β × Option ε} {bytes tail : Bytes} {as : List α}

/-- The bytes are the encodings of the entries, one behind the other, and nothing else. -/
def Consumed (encode : α → Bytes) (told : α → γ) (bytes : Bytes) (entries : List γ) : Prop :=
  ∃ cs : List α, cs.flatMap encode = bytes ∧ cs.map told = entries

theorem division_short (h : ∀ a, bytes.length < (encode a).length) :
    Division encode bytes [] bytes := by
  refine ⟨rfl, fun a rest he => ?_⟩
  have hlen := h a
  rw [← he, List.length_append] at hlen
  omega

namespace EntryLoop

variable (h : EntryLoop encode content silent read)

include h

theorem consumed_iff (hd : Division encode bytes as tail) (told : α → γ) :
    Consumed encode told bytes (as.map told) ↔ tail = [] := by
  rw [h.tail_eq_nil_iff hd]
  constructor
  · rintro ⟨cs, hcs, -⟩
    exact ⟨cs, hcs⟩
  · intro hall
    obtain rfl := (h.tail_eq_nil_iff hd).2 hall
    exact ⟨as, (List.append_nil _).symm.trans hd.whole, rfl⟩

theorem consumed_of_silence_iff (hd : Division encode bytes as tail) (told : α → γ) :
    ((read bytes).2 = none → Consumed encode told bytes (as.map told)) ↔
      tail = [] ∨ silent ≤ tail.length := by
  rw [(h.read_division hd).2, h.consumed_iff hd, imp_iff_not_or, Nat.not_lt, or_comm]

end EntryLoop

end Loop

namespace Nit

def loop (payload : Bytes) : Bytes := payload.drop (4 + Word.lengthAt 0 payload)

theorem loop_of_split {networkId : Nat} {payload network rest : Bytes}
    (h : split networkId payload = .ok (network, rest)) : rest = loop payload := by
  unfold split at h
  split at h
  · next l₁ l₀ bytes =>
    dsimp only at h
    split at h
    · cases h
    · obtain ⟨-, rfl⟩ := Prod.mk.inj (Except.ok.inj h)
      have hlength : Word.lengthAt 0 (l₁ :: l₀ :: bytes) = Word.length l₁ l₀ := rfl
      have hdrop : 4 + Word.length l₁ l₀ = Word.length l₁ l₀ + 2 + 1 + 1 := by omega
      rw [loop, hlength, hdrop, List.drop_succ_cons, List.drop_succ_cons]
  · cases h

theorem isNit_of_parse {s : Section} {t : Nit} (h : Nit.parse s = .ok t) : s.IsNit := by
  by_contra hn
  obtain ⟨hactual, hother⟩ := not_or.1 hn
  rw [parse, expect, if_neg hother, Section.expectTable_eq, if_neg hactual] at h
  cases h

theorem loop_of_parse {s : Section} {t : Nit} (h : Nit.parse s = .ok t) :
    t.multiplexes = (entries (loop s.payload)).1.map (·.decode) ∧
      t.truncated = (entries (loop s.payload)).2 := by
  rw [parse_of_isNit (isNit_of_parse h)] at h
  split at h
  · cases h
  · next network rest hs =>
    obtain rfl := loop_of_split hs
    split at h
    · cases h
    · obtain rfl := Except.ok.inj h
      exact ⟨rfl, rfl⟩

theorem division_of_parse {s : Section} {t : Nit} {cs : List CodedEntry} {tail : Bytes}
    (h : Nit.parse s = .ok t) (hd : Division CodedEntry.encode (loop s.payload) cs tail) :
    t.multiplexes = cs.map (·.multiplex) ∧ (t.truncated = none ↔ tail.length < 6) := by
  obtain ⟨hentries, htruncated⟩ := loop_of_parse h
  obtain ⟨hread, hreport⟩ := entryLoop.read_division hd
  rw [hentries, hread, htruncated, List.map_map]
  exact ⟨List.map_congr_left fun c _ => c.decode_content, hreport⟩

end Nit

namespace Sdt

def loop (payload : Bytes) : Bytes := payload.drop 3

theorem loop_of_parse {s : Section} {t : Sdt} (h : Sdt.parse s = .ok t) :
    t.services = (entries (loop s.payload)).1.map (·.decode) ∧
      t.truncated = (entries (loop s.payload)).2 := by
  unfold parse at h
  cases he : expect s with
  | error e => simp [he, bind, Except.bind] at h
  | ok u =>
    simp only [he, bind, Except.bind, pure, Except.pure, throw, throwThe,
      MonadExceptOf.throw] at h
    split at h
    · next n₁ n₀ reserved bytes hp =>
      obtain rfl := Except.ok.inj h
      rw [hp]
      exact ⟨rfl, rfl⟩
    · cases h

theorem division_of_parse {s : Section} {t : Sdt} {cs : List CodedEntry} {tail : Bytes}
    (h : Sdt.parse s = .ok t) (hd : Division CodedEntry.encode (loop s.payload) cs tail) :
    t.services = cs.map (·.service) ∧ (t.truncated = none ↔ tail.length < 5) := by
  obtain ⟨hentries, htruncated⟩ := loop_of_parse h
  obtain ⟨hread, hreport⟩ := entryLoop.read_division hd
  rw [hentries, hread, htruncated, List.map_map]
  exact ⟨List.map_congr_left fun c _ => c.decode_content, hreport⟩

end Sdt

/-- The loop of a network or service table that has been decoded is divided into the entries of the
table and what does not begin with another one. The bytes left over are reported if they are as
many as the header of an entry has, and if they are fewer nothing tells of them. -/
theorem leftOver_reported_iff (s : Section) :
    (∀ t, Nit.parse s = .ok t →
      ∃ cs tail, Division Nit.CodedEntry.encode (Nit.loop s.payload) cs tail ∧
        t.multiplexes = cs.map (·.multiplex) ∧ (t.truncated = none ↔ tail.length < 6) ∧
        ((t.truncated = none →
            Consumed Nit.CodedEntry.encode (·.multiplex) (Nit.loop s.payload) t.multiplexes) ↔
          tail = [] ∨ 6 ≤ tail.length)) ∧
    ∀ t, Sdt.parse s = .ok t →
      ∃ cs tail, Division Sdt.CodedEntry.encode (Sdt.loop s.payload) cs tail ∧
        t.services = cs.map (·.service) ∧ (t.truncated = none ↔ tail.length < 5) ∧
        ((t.truncated = none →
            Consumed Sdt.CodedEntry.encode (·.service) (Sdt.loop s.payload) t.services) ↔
          tail = [] ∨ 5 ≤ tail.length) := by
  refine ⟨fun t h => ?_, fun t h => ?_⟩
  · obtain ⟨cs, tail, hd⟩ := Nit.entryLoop.exists_division (Nit.loop s.payload)
    obtain ⟨hentries, hreport⟩ := Nit.division_of_parse h hd
    refine ⟨cs, tail, hd, hentries, hreport, ?_⟩
    rw [(Nit.loop_of_parse h).2, hentries]
    exact Nit.entryLoop.consumed_of_silence_iff hd _
  · obtain ⟨cs, tail, hd⟩ := Sdt.entryLoop.exists_division (Sdt.loop s.payload)
    obtain ⟨hentries, hreport⟩ := Sdt.division_of_parse h hd
    refine ⟨cs, tail, hd, hentries, hreport, ?_⟩
    rw [(Sdt.loop_of_parse h).2, hentries]
    exact Sdt.entryLoop.consumed_of_silence_iff hd _

/-! ### Six bytes and five, two bytes and four -/

/-- An entry without descriptors, and the header of one whose descriptors are missing. -/
def overrunNetwork : Section where
  header := { tableId := Nit.otherId, longForm := true, length := 25 }
  payload := [0xF0, 0x00, 0xF0, 0x0C, 0x00, 0x01, 0x23, 0x3A, 0xF0, 0x00, 0x00, 0x02, 0x23, 0x3A,
    0xF0, 0x01]

def cutServices : Section where
  header := { tableId := Sdt.otherId, longForm := true, length := 22 }
  payload := [0x23, 0x3A, 0xFF, 0x00, 0x01, 0xFC, 0x80, 0x03, 0x53, 0x01, 0x05, 0x00, 0x02]

theorem leftOver_reported_iff_overrun :
    (∃ t, Nit.parse overrunNetwork = .ok t ∧ t.truncated = some (.streamDescriptors 2 1) ∧
      ∃ cs tail, Division Nit.CodedEntry.encode (Nit.loop overrunNetwork.payload) cs tail ∧
        t.multiplexes = cs.map (·.multiplex) ∧ 6 ≤ tail.length) ∧
    ∃ t, Sdt.parse cutServices = .ok t ∧ t.truncated = none ∧
      ∃ cs tail, Division Sdt.CodedEntry.encode (Sdt.loop cutServices.payload) cs tail ∧
        t.services = cs.map (·.service) ∧ tail.length < 5 := by
  have hn : (Nit.parse overrunNetwork).toOption.map (·.truncated) =
      some (some (.streamDescriptors 2 1)) := by decide +kernel
  have hs : (Sdt.parse cutServices).toOption.map (·.truncated) = some none := by decide +kernel
  refine ⟨?_, ?_⟩
  · cases h : Nit.parse overrunNetwork with
    | error e => simp [h, Except.toOption] at hn
    | ok t =>
      have ht : t.truncated = some (.streamDescriptors 2 1) := by
        simpa [h, Except.toOption] using hn
      obtain ⟨cs, tail, hd, hentries, hreport, -⟩ := (leftOver_reported_iff _).1 t h
      exact ⟨t, rfl, ht, cs, tail, hd, hentries, by simpa [ht] using hreport⟩
  · cases h : Sdt.parse cutServices with
    | error e => simp [h, Except.toOption] at hs
    | ok t =>
      have ht : t.truncated = none := by simpa [h, Except.toOption] using hs
      obtain ⟨cs, tail, hd, hentries, hreport, -⟩ := (leftOver_reported_iff _).2 t h
      exact ⟨t, rfl, ht, cs, tail, hd, hentries, hreport.1 ht⟩

def raggedNetworkBytes : Bytes :=
  [0x40, 0xF0, 0x12, 0x00, 0x01, 0xC1, 0x00, 0x00, 0xF0, 0x00, 0xF0, 0x05, 0x01, 0x02, 0x03, 0x04,
    0x05, 0x00, 0x00, 0x00, 0x00]

def raggedNetwork : Section := (Section.parse raggedNetworkBytes).toOption.getD default

def raggedServicesBytes : Bytes :=
  [0x42, 0xF0, 0x10, 0x00, 0x01, 0xC1, 0x00, 0x00, 0x23, 0x3A, 0xFF, 0x01, 0x02, 0x03, 0x04, 0x00,
    0x00, 0x00, 0x00]

def raggedServices : Section := (Section.parse raggedServicesBytes).toOption.getD default

theorem leftOver_lost :
    (Section.parse raggedNetworkBytes = .ok raggedNetwork ∧
      ∃ t, Nit.parse raggedNetwork = .ok t ∧ t.truncated = none ∧
        ¬ Consumed Nit.CodedEntry.encode (·.multiplex) (Nit.loop raggedNetwork.payload)
          t.multiplexes) ∧
    Section.parse raggedServicesBytes = .ok raggedServices ∧
      ∃ t, Sdt.parse raggedServices = .ok t ∧ t.truncated = none ∧
        ¬ Consumed Sdt.CodedEntry.encode (·.service) (Sdt.loop raggedServices.payload)
          t.services := by
  have hnetwork : Nit.loop raggedNetwork.payload = [1, 2, 3, 4, 5] := by decide
  have hservices : Sdt.loop raggedServices.payload = [1, 2, 3, 4] := by decide
  have hn : Nit.parse raggedNetwork = .ok ⟨64, 1, 0, none, [], none⟩ := by decide +kernel
  have hs : Sdt.parse raggedServices = .ok ⟨1, 9018, 0, [], none⟩ := by decide +kernel
  refine ⟨⟨rfl, _, hn, rfl, ?_⟩, rfl, _, hs, rfl, ?_⟩
  · rw [hnetwork]
    exact fun hc => nomatch (Nit.entryLoop.consumed_iff (division_short fun c => by
      rw [c.length_encode]; exact Nat.le_add_left _ _) _).1 hc
  · rw [hservices]
    exact fun hc => nomatch (Sdt.entryLoop.consumed_iff (division_short fun c => by
      rw [c.length_encode]; exact Nat.le_add_left _ _) _).1 hc

end Bandscan
