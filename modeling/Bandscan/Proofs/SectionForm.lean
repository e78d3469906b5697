import Bandscan.Section
/-!
The two forms of a section. Reading a section asks only for bytes that are there, and what it
accepts in the long form is exactly what `LongForm.encode` writes, whatever the reserved bits and
the checksum are.
-/

namespace Bandscan.Section

variable {bytes body : Bytes} {s : Section} {id l₁ l₀ : UInt8}

def declared (bytes : Bytes) : Nat :=
  256 * ((bytes.getD 1 0).toNat % 16) + (bytes.getD 2 0).toNat

def isLong (bytes : Bytes) : Bool := (bytes.getD 1 0).toNat.testBit 7

structure Formed (bytes : Bytes) : Prop where
  header : 3 ≤ bytes.length
  length : bytes.length = 3 + declared bytes
  room : isLong bytes = false ∨ 9 ≤ declared bytes

def slice? (start stop : Nat) (bytes : Bytes) : Option Bytes :=
  if start ≤ stop ∧ stop ≤ bytes.length then some ((bytes.take stop).drop start) else none

/-- Reads a section by the positions of its fields, and gives up at a byte that is not there. -/
def readAt? (bytes : Bytes) : Option (Except SectionError Section) :=
  if bytes.length < lengthEnd then some (.error (.tooShort bytes.length))
  else do
    let id ← bytes[0]?
    let l₁ ← bytes[1]?
    let l₀ ← bytes[2]?
    let length := Word.length l₁ l₀
    if bytes.length ≠ lengthEnd + length then some (.error (.lengthMismatch length bytes.length))
    else if Word.bit 7 l₁ = false then do
      let payload ← slice? lengthEnd bytes.length bytes
      some (.ok { header := { tableId := id.toNat, longForm := false, length }, payload })
    else if length < longOverhead then some (.error (.noExtendedHeader length))
    else do
      let e₁ ← bytes[3]?
      let e₀ ← bytes[4]?
      let flags ← bytes[5]?
      let number ← bytes[6]?
      let last ← bytes[7]?
      let payload ← slice? 8 (bytes.length - 4) bytes
      some (.ok {
        header := {
          tableId := id.toNat, longForm := true, length
          ext := Word.w16 e₁ e₀
          version := flags.toNat / 2 % 32
          currentNext := Word.bit 0 flags
          number := number.toNat
          last := last.toNat }
        payload })

theorem declared_cons : declared (id :: l₁ :: l₀ :: body) = Word.length l₁ l₀ := by
  have := l₁.toNat_lt
  have := l₀.toNat_lt
  simp only [declared, List.getD_cons_succ, List.getD_cons_zero, Word.length, Word.w16]
  omega

theorem isLong_cons : isLong (id :: l₁ :: l₀ :: body) = Word.bit 7 l₁ := rfl

theorem formed_cons : Formed (id :: l₁ :: l₀ :: body) ↔
    body.length = Word.length l₁ l₀ ∧ (Word.bit 7 l₁ = false ∨ 9 ≤ Word.length l₁ l₀) := by
  have hlength : (id :: l₁ :: l₀ :: body).length = 3 + body.length := by
    rw [Nat.add_comm]
    rfl
  constructor
  · rintro ⟨-, hl, hr⟩
    rw [declared_cons] at hl hr
    exact ⟨Nat.add_left_cancel (hlength.symm.trans hl), hr⟩
  · rintro ⟨hl, hr⟩
    refine ⟨by omega, ?_, ?_⟩
    · rw [hlength, declared_cons, hl]
    · rwa [declared_cons]

theorem exists_three (h : 3 ≤ bytes.length) :
    ∃ id l₁ l₀ body, bytes = id :: l₁ :: l₀ :: body := by
  match bytes, h with
  | id :: l₁ :: l₀ :: body, _ => exact ⟨id, l₁, l₀, body, rfl⟩

theorem exists_five (h : 9 ≤ body.length) :
    ∃ e₁ e₀ flags number last rest, body = e₁ :: e₀ :: flags :: number :: last :: rest := by
  match body, h with
  | e₁ :: e₀ :: flags :: number :: last :: rest, _ => exact ⟨e₁, e₀, flags, number, last, rest, rfl⟩

theorem parse_mismatch (hl : body.length ≠ Word.length l₁ l₀) :
    parse (id :: l₁ :: l₀ :: body) =
      .error (.lengthMismatch (Word.length l₁ l₀) (body.length + lengthEnd)) := if_pos hl

theorem parse_short (hl : body.length = Word.length l₁ l₀) (hform : Word.bit 7 l₁ = false) :
    parse (id :: l₁ :: l₀ :: body) =
      .ok ⟨{ tableId := id.toNat, longForm := false, length := Word.length l₁ l₀ }, body⟩ := by
  rw [parse, if_neg (not_not_intro hl), hform]
  rfl

theorem parse_cramped (hl : body.length = Word.length l₁ l₀) (hform : Word.bit 7 l₁ = true)
    (hroom : Word.length l₁ l₀ < longOverhead) :
    parse (id :: l₁ :: l₀ :: body) = .error (.noExtendedHeader (Word.length l₁ l₀)) := by
  rw [parse, if_neg (not_not_intro hl), if_pos hform]
  unfold parseLong
  split
  · exact if_pos hroom
  · rfl

section Long

variable {e₁ e₀ flags number last : UInt8} {rest : Bytes}

theorem length_sub_checksum (h : 4 ≤ rest.length) :
    (id :: l₁ :: l₀ :: e₁ :: e₀ :: flags :: number :: last :: rest).length - 4 =
      rest.length - 4 + 8 := by
  simp only [List.length_cons]
  omega

theorem parse_long (hl : rest.length + 5 = Word.length l₁ l₀) (hform : Word.bit 7 l₁ = true)
    (hroom : ¬ Word.length l₁ l₀ < longOverhead) :
    parse (id :: l₁ :: l₀ :: e₁ :: e₀ :: flags :: number :: last :: rest) = .ok {
      header := {
        tableId := id.toNat, longForm := true, length := Word.length l₁ l₀
        ext := Word.w16 e₁ e₀
        version := flags.toNat / 2 % 32
        currentNext := Word.bit 0 flags
        number := number.toNat
        last := last.toNat }
      payload := rest.take (rest.length - 4) } := by
  have hlen : (e₁ :: e₀ :: flags :: number :: last :: rest).length = Word.length l₁ l₀ := hl
  rw [parse, if_neg (not_not_intro hlen), if_pos hform, parseLong, if_neg hroom]

end Long

theorem parse_of_lt (h : bytes.length < lengthEnd) :
    parse bytes = .error (.tooShort bytes.length) := by
  match bytes, h with
  | [], _ | [_], _ | [_, _], _ => rfl

/-- A section has the length that it declares, and room for the header and the checksum if it is of
the long form. -/
theorem parse_cases (bytes : Bytes) :
    ((∃ e, parse bytes = .error e) ∧ ¬ Formed bytes) ∨
    (∃ id l₁ l₀ body, bytes = id :: l₁ :: l₀ :: body ∧ body.length = Word.length l₁ l₀ ∧
      Word.bit 7 l₁ = false) ∨
    ∃ id l₁ l₀ e₁ e₀ flags number last rest,
      bytes = id :: l₁ :: l₀ :: e₁ :: e₀ :: flags :: number :: last :: rest ∧
      rest.length + 5 = Word.length l₁ l₀ ∧ Word.bit 7 l₁ = true ∧
      ¬ Word.length l₁ l₀ < longOverhead := by
  by_cases hthree : bytes.length < lengthEnd
  · exact .inl ⟨⟨_, parse_of_lt hthree⟩, fun h => Nat.not_lt.2 h.header hthree⟩
  obtain ⟨id, l₁, l₀, body, rfl⟩ := exists_three (Nat.le_of_not_lt hthree)
  by_cases hl : body.length = Word.length l₁ l₀
  case neg => exact .inl ⟨⟨_, parse_mismatch hl⟩, fun h => hl (formed_cons.1 h).1⟩
  cases hform : Word.bit 7 l₁ with
  | false => exact .inr (.inl ⟨id, l₁, l₀, body, rfl, hl, hform⟩)
  | true =>
    by_cases hroom : Word.length l₁ l₀ < longOverhead
    · refine .inl ⟨⟨_, parse_cramped hl hform hroom⟩, fun h => ?_⟩
      obtain h | h := (formed_cons.1 h).2
      · exact absurd (hform.symm.trans h) (by decide)
      · exact Nat.not_lt.2 h hroom
    · have hnine : 9 ≤ Word.length l₁ l₀ := Nat.le_of_not_lt hroom
      obtain ⟨e₁, e₀, flags, number, last, rest, rfl⟩ := exists_five (hl ▸ hnine)
      exact .inr (.inr ⟨id, l₁, l₀, e₁, e₀, flags, number, last, rest, rfl, hl, hform, hroom⟩)

theorem slice?_of_le {start stop : Nat} (h : start ≤ stop) (hstop : stop ≤ bytes.length) :
    slice? start stop bytes = some ((bytes.take stop).drop start) := if_pos ⟨h, hstop⟩

/-- A section is long enough for all that is read of it. -/
theorem readAt?_eq (bytes : Bytes) : readAt? bytes = some (parse bytes) := by
  match bytes with
  | [] | [_] | [_, _] => rfl
  | id :: l₁ :: l₀ :: body =>
    have hlen : (id :: l₁ :: l₀ :: body).length = body.length + lengthEnd := rfl
    have hshort : ¬ (id :: l₁ :: l₀ :: body).length < lengthEnd := by omega
    have hmismatch : (id :: l₁ :: l₀ :: body).length ≠ lengthEnd + Word.length l₁ l₀ ↔
        body.length ≠ Word.length l₁ l₀ := by omega
    unfold readAt?
    simp only [hshort, if_false, List.getElem?_cons_zero, List.getElem?_cons_succ,
      Option.bind_eq_bind, Option.bind_some, hmismatch]
    by_cases hl : body.length = Word.length l₁ l₀
    case neg => rw [if_pos hl, parse_mismatch hl, hlen]
    rw [if_neg (not_not_intro hl)]
    cases hform : Word.bit 7 l₁ with
    | false =>
      have hall : slice? lengthEnd (id :: l₁ :: l₀ :: body).length (id :: l₁ :: l₀ :: body) =
          some body := by
        rw [slice?_of_le (by omega) (Nat.le_refl _), List.take_length]
        rfl
      rw [if_pos rfl, hall, Option.bind_some, parse_short hl hform]
    | true =>
      rw [if_neg Bool.noConfusion]
      by_cases hroom : Word.length l₁ l₀ < longOverhead
      · rw [if_pos hroom, parse_cramped hl hform hroom]
      have hnine : 9 ≤ Word.length l₁ l₀ := Nat.le_of_not_lt hroom
      obtain ⟨e₁, e₀, flags, number, last, rest, rfl⟩ := exists_five (hl ▸ hnine)
      have hrest : 4 ≤ rest.length := by
        simp only [List.length_cons] at hl
        omega
      have hpayload : slice? 8 (rest.length - 4 + 8)
          (id :: l₁ :: l₀ :: e₁ :: e₀ :: flags :: number :: last :: rest) =
            some (rest.take (rest.length - 4)) :=
        slice?_of_le (Nat.le_add_left _ _) (by simp only [List.length_cons]; omega)
      rw [if_neg hroom, length_sub_checksum hrest, hpayload, parse_long hl hform hroom]
      rfl

theorem exists_parse_iff : (∃ s, parse bytes = .ok s) ↔ Formed bytes := by
  obtain ⟨⟨e, he⟩, hno⟩ | ⟨id, l₁, l₀, body, rfl, hl, hform⟩ |
    ⟨id, l₁, l₀, e₁, e₀, flags, number, last, rest, rfl, hl, hform, hroom⟩ := parse_cases bytes
  · refine iff_of_false ?_ hno
    rintro ⟨s, hs⟩
    nomatch he.symm.trans hs
  · exact iff_of_true ⟨_, parse_short hl hform⟩ (formed_cons.2 ⟨hl, .inl hform⟩)
  · refine iff_of_true ⟨_, parse_long hl hform hroom⟩ (formed_cons.2 ⟨hl, .inr ?_⟩)
    exact Nat.le_of_not_lt hroom

theorem payload_of_parse (h : parse bytes = .ok s) :
    s.size = bytes.length ∧
      s.payload =
        if isLong bytes then (bytes.take (bytes.length - 4)).drop 8 else bytes.drop 3 := by
  obtain ⟨⟨e, he⟩, -⟩ | ⟨id, l₁, l₀, body, rfl, hl, hform⟩ |
    ⟨id, l₁, l₀, e₁, e₀, flags, number, last, rest, rfl, hl, hform, hroom⟩ := parse_cases bytes
  · nomatch he.symm.trans h
  · rw [parse_short hl hform] at h
    obtain rfl := Except.ok.inj h
    rw [isLong_cons, hform, size, ← hl]
    exact ⟨Nat.add_comm _ _, rfl⟩
  · rw [parse_long hl hform hroom] at h
    obtain rfl := Except.ok.inj h
    have hrest : 4 ≤ rest.length := by
      unfold longOverhead at hroom
      omega
    rw [isLong_cons, hform, if_pos rfl, length_sub_checksum hrest, size, ← hl]
    exact ⟨Nat.add_comm _ _, rfl⟩

/-- All that the long form codes. `upper` and `lower` are reserved bits. -/
structure LongForm where
  tableId : UInt8
  upper : Fin 8
  ext : Fin 65536
  lower : Fin 4
  version : Fin 32
  currentNext : Bool
  number : UInt8
  last : UInt8
  payload : Bytes
  checksum : Bytes
  fits : payload.length ≤ 4086
  checksum_length : checksum.length = 4

namespace LongForm

variable (l : LongForm)

def length : Nat := l.payload.length + 9

def encode : Bytes :=
  l.tableId :: UInt8.ofNat (128 + 16 * l.upper + l.length / 256) :: UInt8.ofNat l.length ::
    UInt8.ofNat (l.ext / 256) :: UInt8.ofNat l.ext ::
    UInt8.ofNat (64 * l.lower + 2 * l.version + l.currentNext.toNat) :: l.number :: l.last ::
    (l.payload ++ l.checksum)

def content : Section where
  header := {
    tableId := l.tableId.toNat, longForm := true, length := l.length, ext := l.ext
    version := l.version, currentNext := l.currentNext, number := l.number.toNat
    last := l.last.toNat }
  payload := l.payload

theorem length_lt : l.length < 4096 := by
  have := l.fits
  unfold length
  omega

theorem wordLength_encode (reserved : Fin 8) {n : Nat} (h : n < 4096) :
    Word.length (UInt8.ofNat (128 + 16 * reserved + n / 256)) (UInt8.ofNat n) = n := by
  have hr := reserved.isLt
  simp only [Word.length, Word.w16, UInt8.toNat_ofNat']
  omega

theorem bit_encode (reserved : Fin 8) {n : Nat} (h : n < 4096) :
    Word.bit 7 (UInt8.ofNat (128 + 16 * reserved + n / 256)) = true := by
  have hr := reserved.isLt
  simp only [Word.bit, UInt8.toNat_ofNat', Nat.testBit_eq_decide_div_mod_eq, decide_eq_true_eq]
  omega

theorem version_encode :
    (UInt8.ofNat (64 * l.lower + 2 * l.version + l.currentNext.toNat)).toNat / 2 % 32 =
      l.version := by
  have hl := l.lower.isLt
  have hv := l.version.isLt
  have hc := Bool.toNat_le l.currentNext
  simp only [UInt8.toNat_ofNat']
  omega

theorem currentNext_encode :
    Word.bit 0 (UInt8.ofNat (64 * l.lower + 2 * l.version + l.currentNext.toNat)) =
      l.currentNext := by
  have hl := l.lower.isLt
  have hv := l.version.isLt
  simp only [Word.bit, UInt8.toNat_ofNat', Nat.testBit_eq_decide_div_mod_eq]
  cases l.currentNext
  · simp only [Bool.toNat_false, decide_eq_false_iff_not]
    omega
  · simp only [Bool.toNat_true, decide_eq_true_eq]
    omega

theorem parse_encode : parse l.encode = .ok l.content := by
  have hword := wordLength_encode l.upper l.length_lt
  have hlen : (l.payload ++ l.checksum).length = l.payload.length + 4 := by
    rw [List.length_append, l.checksum_length]
  have hl : (l.payload ++ l.checksum).length + 5 = l.length := by rw [hlen]; rfl
  have hroom : ¬ Word.length (UInt8.ofNat (128 + 16 * l.upper + l.length / 256))
      (UInt8.ofNat l.length) < longOverhead := by
    rw [hword]
    exact Nat.not_lt.2 (Nat.le_add_left _ _)
  have hpayload : (l.payload ++ l.checksum).take ((l.payload ++ l.checksum).length - 4) =
      l.payload := by
    rw [hlen, Nat.add_sub_cancel, List.take_left]
  rw [encode, parse_long (hl.trans hword.symm) (bit_encode l.upper l.length_lt) hroom, hword,
    hpayload, Word.w16_ofNat l.ext.isLt, version_encode, currentNext_encode]
  rfl

end LongForm

section Decoded

variable {flags : UInt8}

theorem ofNat_high (h : Word.bit 7 l₁ = true) :
    UInt8.ofNat (128 + 16 * (l₁.toNat / 16 % 8) + Word.length l₁ l₀ / 256) = l₁ := by
  have hb := l₁.toNat_lt
  have hb₀ := l₀.toNat_lt
  have hbit : l₁.toNat / 2 ^ 7 % 2 = 1 := by
    rw [← Nat.toNat_testBit]
    exact congrArg Bool.toNat h
  apply UInt8.toNat_inj.1
  simp only [UInt8.toNat_ofNat', Word.length, Word.w16]
  omega

theorem ofNat_low : UInt8.ofNat (Word.length l₁ l₀) = l₀ := by
  have hb₀ := l₀.toNat_lt
  apply UInt8.toNat_inj.1
  simp only [UInt8.toNat_ofNat', Word.length, Word.w16]
  omega

theorem ofNat_flags :
    UInt8.ofNat (64 * (flags.toNat / 64) + 2 * (flags.toNat / 2 % 32) +
      (Word.bit 0 flags).toNat) = flags := by
  have hf := flags.toNat_lt
  apply UInt8.toNat_inj.1
  simp only [UInt8.toNat_ofNat', Word.bit, Nat.toNat_testBit]
  omega

end Decoded

theorem exists_encode (h : parse bytes = .ok s) (hlong : s.header.longForm = true) :
    ∃ l : LongForm, l.encode = bytes ∧ l.content = s := by
  obtain ⟨⟨e, he⟩, -⟩ | ⟨id, l₁, l₀, body, rfl, hl, hform⟩ |
    ⟨id, l₁, l₀, e₁, e₀, flags, number, last, rest, rfl, hl, hform, hroom⟩ := parse_cases bytes
  · nomatch he.symm.trans h
  · rw [parse_short hl hform] at h
    obtain rfl := Except.ok.inj h
    nomatch hlong
  · have hf := flags.toNat_lt
    have hw : Word.length l₁ l₀ < 4096 := Nat.mod_lt _ (by decide)
    unfold longOverhead at hroom
    let l : LongForm := {
      tableId := id
      upper := ⟨l₁.toNat / 16 % 8, by omega⟩
      ext := ⟨Word.w16 e₁ e₀, Word.w16_lt e₁ e₀⟩
      lower := ⟨flags.toNat / 64, by omega⟩
      version := ⟨flags.toNat / 2 % 32, by omega⟩
      currentNext := Word.bit 0 flags
      number, last
      payload := rest.take (rest.length - 4)
      checksum := rest.drop (rest.length - 4)
      fits := by rw [List.length_take]; omega
      checksum_length := by rw [List.length_drop]; omega }
    have hlength : l.length = Word.length l₁ l₀ := by
      simp only [LongForm.length, l, List.length_take]
      omega
    refine ⟨l, ?_, ?_⟩
    · rw [LongForm.encode, hlength]
      dsimp only [l]
      rw [ofNat_high hform, ofNat_low, (Word.ofNat_w16 e₁ e₀).1, (Word.ofNat_w16 e₁ e₀).2,
        ofNat_flags, List.take_append_drop]
    · rw [parse_long hl hform hroom] at h
      rw [← Except.ok.inj h, LongForm.content, hlength]

theorem parseExpecting_of_parse (h : parse bytes = .ok s) (tableId : Nat) :
    parseExpecting bytes tableId =
      if s.header.tableId = tableId then .ok s
      else .error (.tableMismatch tableId s.header.tableId) := by
  have hexpect : parseExpecting bytes tableId = (s.expect tableId >>= fun _ => .ok s) := by
    rw [parseExpecting, h]
    rfl
  rw [hexpect, expect]
  split
  · rfl
  · rfl

/-- Reading never asks for a byte that is not there, and accepts the byte strings that have the
form of a section. In the long form it undoes the encoding, whatever the reserved bits and the
checksum are, and accepts nothing else. -/
theorem parse_exact :
    (∀ bytes, readAt? bytes = some (parse bytes) ∧
      ((∃ s, parse bytes = .ok s) ↔
        3 ≤ bytes.length ∧ bytes.length = 3 + declared bytes ∧
          (isLong bytes = false ∨ 9 ≤ declared bytes)) ∧
      ∀ s, parse bytes = .ok s →
        s.size = bytes.length ∧
        s.payload = (if isLong bytes then (bytes.take (bytes.length - 4)).drop 8
          else bytes.drop 3) ∧
        (s.header.longForm = true → ∃ l : LongForm, l.encode = bytes ∧ l.content = s)) ∧
    ∀ l : LongForm, parse l.encode = .ok l.content ∧
      ∀ tableId, parseExpecting l.encode tableId =
        if l.tableId.toNat = tableId then .ok l.content
        else .error (.tableMismatch tableId l.tableId.toNat) := by
  refine ⟨fun bytes => ⟨readAt?_eq bytes, ?_, fun s hs => ?_⟩, fun l => ?_⟩
  · rw [exists_parse_iff]
    exact ⟨fun h => ⟨h.header, h.length, h.room⟩, fun h => ⟨h.1, h.2.1, h.2.2⟩⟩
  · obtain ⟨hsize, hpayload⟩ := payload_of_parse hs
    exact ⟨hsize, hpayload, exists_encode hs⟩
  · exact ⟨l.parse_encode, parseExpecting_of_parse l.parse_encode⟩

/-- A long form with all reserved bits set, and a short form of the same length. -/
theorem parse_exact_reserved :
    parse [0x42, 0xF0, 0x0B, 0x12, 0x34, 0xC7, 0x01, 0x02, 0xAA, 0xBB, 0xDE, 0xAD, 0xBE, 0xEF] =
      .ok ⟨{ tableId := 0x42, longForm := true, length := 11, ext := 0x1234, version := 3
             currentNext := true, number := 1, last := 2 }, [0xAA, 0xBB]⟩ ∧
    ∃ s, parse [0x70, 0x70, 0x02, 0xAA, 0xBB] = .ok s := by
  let l : LongForm := {
    tableId := 0x42, upper := 7, ext := 0x1234, lower := 3, version := 3, currentNext := true
    number := 1, last := 2, payload := [0xAA, 0xBB], checksum := [0xDE, 0xAD, 0xBE, 0xEF]
    fits := by decide, checksum_length := rfl }
  have hbytes : l.encode = [0x42, 0xF0, 0x0B, 0x12, 0x34, 0xC7, 0x01, 0x02, 0xAA, 0xBB,
      0xDE, 0xAD, 0xBE, 0xEF] := by decide
  have hlong := (parse_exact.2 l).1
  rw [hbytes] at hlong
  have hshort := (parse_exact.1 [0x70, 0x70, 0x02, 0xAA, 0xBB]).2.1
  exact ⟨hlong, hshort.2 ⟨by decide, by decide, .inl (by decide)⟩⟩

end Bandscan.Section
