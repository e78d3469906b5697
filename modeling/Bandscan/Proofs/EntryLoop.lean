import Mathlib.Data.List.GetD
import Bandscan.Table.Nit
import Bandscan.Table.Pmt
import Bandscan.Table.Sdt
/-!
The loops of the tables. Their entries stand one behind the other, each behind a header that tells
how many bytes follow. The loops of network, service and program map tables are read alike, but for
what they make of bytes at the end that are not an entry.
-/

namespace Bandscan

section Loop

variable {α β ε : Type} {encode : α → Bytes} {content : α → β} {silent : Nat}
  {read : Bytes → List β × Option ε}

/-- `read` reads a loop of entries that are written by `encode`. It ends in front of bytes that are
not an entry, and reports them unless they are fewer than `silent`. -/
structure EntryLoop (encode : α → Bytes) (content : α → β) (silent : Nat)
    (read : Bytes → List β × Option ε) : Prop where
  entry : ∀ a rest, read (encode a ++ rest) = (content a :: (read rest).1, (read rest).2)
  ending : ∀ bytes, (∃ a rest, encode a ++ rest = bytes) ∨
    (read bytes).1 = [] ∧ ((read bytes).2 = none ↔ bytes.length < silent)
  size : ∀ {a b}, content a = content b → (encode a).length = (encode b).length

/-- The entries and the bytes behind them, which do not begin with another one. -/
structure Division (encode : α → Bytes) (bytes : Bytes) (entries : List α) (tail : Bytes) :
    Prop where
  whole : entries.flatMap encode ++ tail = bytes
  maximal : ∀ a rest, encode a ++ rest ≠ tail

namespace EntryLoop

variable (h : EntryLoop encode content silent read)

include h

theorem encode_ne_nil (a : α) : encode a ≠ [] := by
  intro he
  have hr := h.entry a []
  rw [he, List.nil_append] at hr
  have hl := congrArg (·.1.length) hr
  simp at hl

theorem read_flatMap (as : List α) (rest : Bytes) :
    read (as.flatMap encode ++ rest) = (as.map content ++ (read rest).1, (read rest).2) := by
  induction as with
  | nil => rfl
  | cons a as ih =>
    rw [List.flatMap_cons, List.append_assoc, h.entry, ih]
    rfl

theorem exists_division (bytes : Bytes) : ∃ as tail, Division encode bytes as tail := by
  -- every entry takes away from the length
  induction hn : bytes.length using Nat.strongRecOn generalizing bytes with
  | ind n ih =>
    obtain ⟨a, rest, rfl⟩ | ⟨hnil, -⟩ := h.ending bytes
    · have hlt : rest.length < n := by
        have := List.length_pos_iff.2 (h.encode_ne_nil a)
        rw [← hn, List.length_append]
        omega
      obtain ⟨as, tail, hd⟩ := ih rest.length hlt rest rfl
      refine ⟨a :: as, tail, ?_, hd.maximal⟩
      rw [List.flatMap_cons, List.append_assoc, hd.whole]
    · refine ⟨[], bytes, rfl, ?_⟩
      rintro a rest rfl
      simp [h.entry] at hnil

theorem read_division {bytes tail : Bytes} {as : List α} (hd : Division encode bytes as tail) :
    (read bytes).1 = as.map content ∧ ((read bytes).2 = none ↔ tail.length < silent) := by
  obtain ⟨a, rest, he⟩ | ⟨hnil, hreport⟩ := h.ending tail
  · exact absurd he (hd.maximal a rest)
  · rw [← hd.whole, h.read_flatMap, hnil, List.append_nil]
    exact ⟨rfl, hreport⟩

theorem division_flatMap (as : List α) : Division encode (as.flatMap encode) as [] :=
  ⟨List.append_nil _, fun a _ he => h.encode_ne_nil a (List.append_eq_nil_iff.1 he).1⟩

theorem read_entries (hs : 0 < silent) (as : List α) :
    read (as.flatMap encode) = (as.map content, none) := by
  obtain ⟨hread, hreport⟩ := h.read_division (h.division_flatMap as)
  exact Prod.ext hread (hreport.2 hs)

theorem length_flatMap {as bs : List α} (hc : as.map content = bs.map content) :
    (as.flatMap encode).length = (bs.flatMap encode).length := by
  induction as generalizing bs with
  | nil =>
    obtain rfl := List.map_eq_nil_iff.1 hc.symm
    rfl
  | cons a as ih =>
    obtain ⟨b, bs, rfl, hb, hbs⟩ := List.map_eq_cons_iff.1 hc.symm
    rw [List.flatMap_cons, List.flatMap_cons, List.length_append, List.length_append,
      h.size hb.symm, ih hbs.symm]

theorem tail_eq_nil_iff {bytes tail : Bytes} {as : List α} (hd : Division encode bytes as tail) :
    tail = [] ↔ ∃ bs : List α, bs.flatMap encode = bytes := by
  constructor
  · rintro rfl
    exact ⟨as, (List.append_nil _).symm.trans hd.whole⟩
  · rintro ⟨bs, rfl⟩
    have hsame := (h.read_division hd).1.symm.trans (h.read_division (h.division_flatMap bs)).1
    have hwhole := congrArg List.length hd.whole
    rw [List.length_append, h.length_flatMap hsame] at hwhole
    exact List.eq_nil_of_length_eq_zero (by omega)

/-- Entries at the beginning are read, so that no longer list of them could be. -/
theorem prefix_read {bytes : Bytes} {as : List α} (hp : as.flatMap encode <+: bytes) :
    as.map content <+: (read bytes).1 := by
  obtain ⟨rest, rfl⟩ := hp
  rw [h.read_flatMap]
  exact List.prefix_append _ _

theorem prefix_append (bytes more : Bytes) : (read bytes).1 <+: (read (bytes ++ more)).1 := by
  obtain ⟨as, tail, hd⟩ := h.exists_division bytes
  rw [(h.read_division hd).1]
  refine h.prefix_read ?_
  rw [← hd.whole, List.append_assoc]
  exact List.prefix_append _ _

end EntryLoop

end Loop

def Word.w16At (i : Nat) (bytes : Bytes) : Nat := w16 (bytes.getD i 0) (bytes.getD (i + 1) 0)

def Word.lengthAt (i : Nat) (bytes : Bytes) : Nat := w16At i bytes % 4096

def Word.pidAt (i : Nat) (bytes : Bytes) : Nat := w16At i bytes % 8192

theorem Word.w16At_append {i : Nat} {bytes : Bytes} (h : i + 2 ≤ bytes.length) (more : Bytes) :
    w16At i (bytes ++ more) = w16At i bytes := by
  unfold w16At
  rw [List.getD_append _ _ _ _ (by omega), List.getD_append _ _ _ _ (by omega)]

theorem Word.length_ofNat {upper n : Nat} (hu : upper < 16) (h : n < 4096) :
    Word.length (UInt8.ofNat ((4096 * upper + n) / 256)) (UInt8.ofNat (4096 * upper + n)) = n := by
  rw [Word.length, Word.w16_ofNat (by omega)]
  omega

theorem Word.pid_ofNat {upper n : Nat} (hu : upper < 8) (h : n < 8192) :
    Word.pid (UInt8.ofNat ((8192 * upper + n) / 256)) (UInt8.ofNat (8192 * upper + n)) = n := by
  rw [Word.pid, Word.w16_ofNat (by omega)]
  omega

theorem Word.code16_length (a b : UInt8) :
    Word.code16 (4096 * (Word.w16 a b / 4096) + Word.length a b) = [a, b] := by
  rw [Word.length, Nat.div_add_mod, Word.code16_w16]

theorem Word.code16_pid (a b : UInt8) :
    Word.code16 (8192 * (Word.w16 a b / 8192) + Word.pid a b) = [a, b] := by
  rw [Word.pid, Nat.div_add_mod, Word.code16_w16]

theorem Word.length_lt (a b : UInt8) : Word.length a b < 4096 := Nat.mod_lt _ (by decide)

namespace Nit

/-- An entry as it is coded. `upper` are reserved bits. -/
structure CodedEntry where
  streamId : Fin 65536
  originNetwork : Fin 65536
  upper : Fin 16
  descriptors : Bytes
  fits : descriptors.length < 4096

namespace CodedEntry

def encode (c : CodedEntry) : Bytes :=
  Word.code16 c.streamId ++ Word.code16 c.originNetwork ++
    Word.code16 (4096 * c.upper + c.descriptors.length) ++ c.descriptors

def content (c : CodedEntry) : Entry := ⟨c.streamId, c.originNetwork, c.descriptors⟩

theorem length_encode (c : CodedEntry) : c.encode.length = c.content.descriptors.length + 6 := rfl

end CodedEntry

theorem entries_encode (c : CodedEntry) (rest : Bytes) :
    entries (c.encode ++ rest) = (c.content :: (entries rest).1, (entries rest).2) := by
  simp only [CodedEntry.encode, Word.code16, List.cons_append, List.nil_append]
  rw [entries, Word.length_ofNat c.upper.isLt c.fits, if_neg (by simp), List.take_left,
    List.drop_left, Word.w16_ofNat c.streamId.isLt, Word.w16_ofNat c.originNetwork.isLt]
  rfl

theorem exists_entry {t₁ t₀ n₁ n₀ l₁ l₀ : UInt8} {rest : Bytes}
    (h : Word.length l₁ l₀ ≤ rest.length) :
    ∃ (c : CodedEntry) (tail : Bytes),
      c.encode ++ tail = t₁ :: t₀ :: n₁ :: n₀ :: l₁ :: l₀ :: rest := by
  have hw := Word.w16_lt l₁ l₀
  have hlen := List.length_take_of_le h
  refine ⟨{
    streamId := ⟨Word.w16 t₁ t₀, Word.w16_lt t₁ t₀⟩
    originNetwork := ⟨Word.w16 n₁ n₀, Word.w16_lt n₁ n₀⟩
    upper := ⟨Word.w16 l₁ l₀ / 4096, by omega⟩
    descriptors := rest.take (Word.length l₁ l₀)
    fits := by rw [hlen]; exact Word.length_lt l₁ l₀ }, rest.drop (Word.length l₁ l₀), ?_⟩
  simp only [CodedEntry.encode, hlen, Word.code16_w16, Word.code16_length, List.take_append_drop,
    List.cons_append, List.nil_append]

/-- Fewer than six bytes at the end are passed over. -/
theorem entryLoop : EntryLoop CodedEntry.encode CodedEntry.content 6 entries where
  entry := entries_encode
  ending bytes := by
    match bytes with
    | [] | [_] | [_, _] | [_, _, _] | [_, _, _, _] | [_, _, _, _, _] =>
      exact .inr (by simp [entries])
    | t₁ :: t₀ :: n₁ :: n₀ :: l₁ :: l₀ :: rest =>
      by_cases hlong : Word.length l₁ l₀ > rest.length
      · refine .inr ?_
        rw [entries, if_pos hlong]
        simp
      · exact .inl (exists_entry (Nat.le_of_not_lt hlong))
  size hc := by rw [CodedEntry.length_encode, CodedEntry.length_encode, hc]

end Nit

namespace Sdt

structure CodedEntry where
  serviceId : Fin 65536
  reserved : Fin 64
  schedule : Bool
  presentFollowing : Bool
  running : Fin 8
  scrambled : Bool
  descriptors : Bytes
  nonempty : descriptors ≠ []
  fits : descriptors.length < 4096

namespace CodedEntry

variable (c : CodedEntry)

def flags : Nat := 4 * c.reserved + 2 * c.schedule.toNat + c.presentFollowing.toNat

def status : Nat := 2 * c.running + c.scrambled.toNat

def encode : Bytes :=
  Word.code16 c.serviceId ++ UInt8.ofNat c.flags ::
    Word.code16 (4096 * c.status + c.descriptors.length) ++ c.descriptors

def content : Entry where
  serviceId := c.serviceId
  flags := c.flags
  status := 16 * c.status + c.descriptors.length / 256
  descriptors := c.descriptors

theorem length_encode : c.encode.length = c.content.descriptors.length + 5 := rfl

theorem flags_lt : c.flags < 256 := by
  have hr := c.reserved.isLt
  have hs := Bool.toNat_le c.schedule
  have hp := Bool.toNat_le c.presentFollowing
  unfold flags
  omega

theorem status_lt : c.status < 16 := by
  have hr := c.running.isLt
  have hs := Bool.toNat_le c.scrambled
  unfold status
  omega

theorem statusByte :
    (UInt8.ofNat ((4096 * c.status + c.descriptors.length) / 256)).toNat =
      16 * c.status + c.descriptors.length / 256 := by
  have hs := c.status_lt
  have hf := c.fits
  rw [UInt8.toNat_ofNat']
  omega

end CodedEntry

theorem entries_encode (c : CodedEntry) (rest : Bytes) :
    entries (c.encode ++ rest) = (c.content :: (entries rest).1, (entries rest).2) := by
  have hne : c.descriptors.length ≠ 0 := fun h => c.nonempty (List.eq_nil_of_length_eq_zero h)
  simp only [CodedEntry.encode, Word.code16, List.cons_append, List.nil_append]
  rw [entries, Word.length_ofNat c.status_lt c.fits, if_neg (by simp [hne]), List.take_left,
    List.drop_left, Word.w16_ofNat c.serviceId.isLt, UInt8.toNat_ofNat_of_lt' c.flags_lt,
    c.statusByte]
  rfl

theorem bits_eq (b : UInt8) :
    4 * (b.toNat / 4) + 2 * (b.toNat.testBit 1).toNat + (b.toNat.testBit 0).toNat = b.toNat := by
  rw [Nat.toNat_testBit, Nat.toNat_testBit]
  omega

theorem status_eq (status l₀ : UInt8) :
    2 * (status.toNat / 32) + (status.toNat.testBit 4).toNat = Word.w16 status l₀ / 4096 := by
  have hs := status.toNat_lt
  have hl := l₀.toNat_lt
  rw [Nat.toNat_testBit, Word.w16]
  omega

theorem exists_entry {i₁ i₀ flags status l₀ : UInt8} {rest : Bytes}
    (hpos : Word.length status l₀ ≠ 0) (h : Word.length status l₀ ≤ rest.length) :
    ∃ (c : CodedEntry) (tail : Bytes),
      c.encode ++ tail = i₁ :: i₀ :: flags :: status :: l₀ :: rest := by
  have hf := flags.toNat_lt
  have hs := status.toNat_lt
  have hlen := List.length_take_of_le h
  refine ⟨{
    serviceId := ⟨Word.w16 i₁ i₀, Word.w16_lt i₁ i₀⟩
    reserved := ⟨flags.toNat / 4, by omega⟩
    schedule := flags.toNat.testBit 1
    presentFollowing := flags.toNat.testBit 0
    running := ⟨status.toNat / 32, by omega⟩
    scrambled := status.toNat.testBit 4
    descriptors := rest.take (Word.length status l₀)
    nonempty := fun hn => hpos (by rw [← hlen, hn]; rfl)
    fits := by rw [hlen]; exact Word.length_lt status l₀ }, rest.drop (Word.length status l₀), ?_⟩
  simp only [CodedEntry.encode, CodedEntry.flags, CodedEntry.status, hlen, bits_eq,
    status_eq status l₀, Word.code16_w16, Word.code16_length, UInt8.ofNat_toNat,
    List.take_append_drop, List.cons_append, List.nil_append]

/-- Fewer than five bytes at the end are passed over. -/
theorem entryLoop : EntryLoop CodedEntry.encode CodedEntry.content 5 entries where
  entry := entries_encode
  ending bytes := by
    match bytes with
    | [] | [_] | [_, _] | [_, _, _] | [_, _, _, _] => exact .inr (by simp [entries])
    | i₁ :: i₀ :: flags :: status :: l₀ :: rest =>
      by_cases hbad : Word.length status l₀ = 0 ∨ Word.length status l₀ > rest.length
      · refine .inr ?_
        rw [entries, if_pos hbad]
        simp
      · rw [not_or] at hbad
        exact .inl (exists_entry hbad.1 (Nat.le_of_not_lt hbad.2))
  size hc := by rw [CodedEntry.length_encode, CodedEntry.length_encode, hc]

end Sdt

namespace Pmt

/-- A stream as it is coded. `upper` and `lower` are reserved bits. -/
structure CodedStream where
  streamType : UInt8
  upper : Fin 8
  pid : Fin 8192
  lower : Fin 16
  descriptors : Bytes
  fits : descriptors.length < 4096

namespace CodedStream

variable (c : CodedStream)

def encode : Bytes :=
  c.streamType :: Word.code16 (8192 * c.upper + c.pid) ++
    Word.code16 (4096 * c.lower + c.descriptors.length) ++ c.descriptors

def content : Stream := ⟨c.streamType.toNat, c.pid, c.descriptors⟩

theorem length_encode : c.encode.length = c.content.descriptors.length + 5 := rfl

end CodedStream

theorem streamLoop_encode (c : CodedStream) (rest : Bytes) :
    streamLoop (c.encode ++ rest) = (c.content :: (streamLoop rest).1, (streamLoop rest).2) := by
  simp only [CodedStream.encode, Word.code16, List.cons_append, List.nil_append]
  rw [streamLoop, Word.length_ofNat c.lower.isLt c.fits, if_neg (by simp), List.take_left,
    List.drop_left, Word.pid_ofNat c.upper.isLt c.pid.isLt]
  rfl

theorem exists_stream {t p₁ p₀ l₁ l₀ : UInt8} {rest : Bytes}
    (h : Word.length l₁ l₀ ≤ rest.length) :
    ∃ (c : CodedStream) (tail : Bytes), c.encode ++ tail = t :: p₁ :: p₀ :: l₁ :: l₀ :: rest := by
  have hp := Word.w16_lt p₁ p₀
  have hl := Word.w16_lt l₁ l₀
  have hlen := List.length_take_of_le h
  refine ⟨{
    streamType := t
    upper := ⟨Word.w16 p₁ p₀ / 8192, by omega⟩
    pid := ⟨Word.pid p₁ p₀, Nat.mod_lt _ (by decide)⟩
    lower := ⟨Word.w16 l₁ l₀ / 4096, by omega⟩
    descriptors := rest.take (Word.length l₁ l₀)
    fits := by rw [hlen]; exact Word.length_lt l₁ l₀ }, rest.drop (Word.length l₁ l₀), ?_⟩
  simp only [CodedStream.encode, hlen, Word.code16_pid, Word.code16_length, List.take_append_drop,
    List.cons_append, List.nil_append]

/-- Every byte at the end that is not part of a stream is reported. -/
theorem entryLoop : EntryLoop CodedStream.encode CodedStream.content 1 streamLoop where
  entry := streamLoop_encode
  ending bytes := by
    match bytes with
    | [] | [_] | [_, _] | [_, _, _] | [_, _, _, _] => exact .inr (by simp [streamLoop])
    | t :: p₁ :: p₀ :: l₁ :: l₀ :: rest =>
      by_cases hlong : Word.length l₁ l₀ > rest.length
      · refine .inr ?_
        rw [streamLoop, if_pos hlong]
        simp
      · exact .inl (exists_stream (Nat.le_of_not_lt hlong))
  size hc := by rw [CodedStream.length_encode, CodedStream.length_encode, hc]

end Pmt

end Bandscan
