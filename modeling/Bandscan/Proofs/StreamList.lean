import Bandscan.Proofs.EntryLoop
import Bandscan.Proofs.SectionForm
/-!
The streams of a program map table. What a section tells is fixed by the positions of its bytes: the
pid of the clock, the length of the program info, and behind it as many streams as are complete. The
decoder asks only for bytes that are there.
-/

namespace Bandscan.Pmt

def loop (payload : Bytes) : Bytes := payload.drop (4 + Word.lengthAt 2 payload)

def table (s : Section) : Pmt where
  program := s.header.ext
  version := s.header.version
  clockPid := Word.pidAt 0 s.payload
  streams := (streamLoop (loop s.payload)).1
  truncated := (streamLoop (loop s.payload)).2

theorem parse_eq {s : Section} (hid : s.header.tableId = tableId) :
    parse s =
      if s.payload.length < 4 then .error (.inconsistent (.noClockPid s.payload.length))
      else if s.payload.length < 4 + Word.lengthAt 2 s.payload then
        .error (.inconsistent (.programInfo (Word.lengthAt 2 s.payload)))
      else .ok (table s) := by
  unfold parse
  rw [Section.expectTable_eq, if_pos hid]
  match hp : s.payload with
  | [] | [_] | [_, _] | [_, _, _] => rfl
  | p₁ :: p₀ :: l₁ :: l₀ :: rest =>
    have hlength : Word.lengthAt 2 (p₁ :: p₀ :: l₁ :: l₀ :: rest) = Word.length l₁ l₀ := rfl
    have hpid : Word.pidAt 0 (p₁ :: p₀ :: l₁ :: l₀ :: rest) = Word.pid p₁ p₀ := rfl
    have hloop : loop (p₁ :: p₀ :: l₁ :: l₀ :: rest) = rest.drop (Word.length l₁ l₀) := by
      rw [loop, hlength, Nat.add_comm]
      rfl
    have hiff : (p₁ :: p₀ :: l₁ :: l₀ :: rest).length < 4 + Word.length l₁ l₀ ↔
        Word.length l₁ l₀ > rest.length := by
      simp only [List.length_cons]
      omega
    have hroom : ¬ (p₁ :: p₀ :: l₁ :: l₀ :: rest).length < 4 := by simp
    rw [if_neg hroom, hlength, table, hp, hpid, hloop]
    by_cases hlong : Word.length l₁ l₀ > rest.length
    · rw [if_pos (hiff.2 hlong)]
      simp [hlong, bind, Except.bind, throw, throwThe, MonadExceptOf.throw]
    · rw [if_neg (mt hiff.1 hlong)]
      simp [hlong, bind, Except.bind, pure, Except.pure]

structure Formed (payload : Bytes) : Prop where
  header : 4 ≤ payload.length
  info : 4 + Word.lengthAt 2 payload ≤ payload.length

theorem parse_of_formed {s : Section} (hid : s.header.tableId = tableId)
    (h : Formed s.payload) : parse s = .ok (table s) := by
  rw [parse_eq hid, if_neg (Nat.not_lt.2 h.header), if_neg (Nat.not_lt.2 h.info)]

theorem exists_error_iff {s : Section} (hid : s.header.tableId = tableId) :
    (∃ e, parse s = .error e) ↔
      s.payload.length < 4 ∨ s.payload.length < 4 + Word.lengthAt 2 s.payload := by
  rw [parse_eq hid]
  split
  · next h => simp [h]
  · next h =>
    split
    · next hi => simp [hi]
    · next hi => simp [h, hi]

theorem formed_of_parse {s : Section} {t : Pmt} (hid : s.header.tableId = tableId)
    (h : parse s = .ok t) : Formed s.payload ∧ t = table s := by
  rw [parse_eq hid] at h
  split at h
  · cases h
  · next hheader =>
    split at h
    · cases h
    · next hinfo =>
      exact ⟨⟨Nat.le_of_not_lt hheader, Nat.le_of_not_lt hinfo⟩, (Except.ok.inj h).symm⟩

theorem Formed.lengthAt_append {payload : Bytes} (h : Formed payload) (more : Bytes) :
    Word.lengthAt 2 (payload ++ more) = Word.lengthAt 2 payload :=
  congrArg (· % 4096) (Word.w16At_append h.header more)

theorem Formed.append {payload : Bytes} (h : Formed payload) (more : Bytes) :
    Formed (payload ++ more) := by
  have hheader := h.header
  have hinfo := h.info
  refine ⟨?_, ?_⟩
  · rw [List.length_append]
    omega
  · rw [h.lengthAt_append, List.length_append]
    omega

theorem Formed.loop_append {payload : Bytes} (h : Formed payload) (more : Bytes) :
    loop (payload ++ more) = loop payload ++ more := by
  rw [loop, loop, h.lengthAt_append, List.drop_append_of_le_length h.info]

theorem parse_append {s : Section} {t : Pmt} (hid : s.header.tableId = tableId)
    (h : parse s = .ok t) (more : Bytes) :
    ∃ t', parse { s with payload := s.payload ++ more } = .ok t' ∧ t'.program = t.program ∧
      t'.version = t.version ∧ t'.clockPid = t.clockPid ∧ t.streams <+: t'.streams := by
  obtain ⟨hf, rfl⟩ := formed_of_parse hid h
  have hclock : Word.pidAt 0 (s.payload ++ more) = Word.pidAt 0 s.payload :=
    congrArg (· % 8192) (Word.w16At_append (Nat.le_trans (by decide) hf.header) more)
  refine ⟨_, parse_of_formed hid (hf.append more), rfl, rfl, hclock, ?_⟩
  dsimp only [table]
  rw [hf.loop_append]
  exact entryLoop.prefix_append _ more

/-- The streams from an offset on, read by the positions of their fields. Gives up at a byte that is
not there. -/
def streamsAt? (bytes : Bytes) (offset : Nat) : Option (List Stream × Option Inconsistency) :=
  if offset < bytes.length then
    if bytes.length < offset + 5 then some ([], some (.streamTail (bytes.length - offset)))
    else do
      let t ← bytes[offset]?
      let p₁ ← bytes[offset + 1]?
      let p₀ ← bytes[offset + 2]?
      let l₁ ← bytes[offset + 3]?
      let l₀ ← bytes[offset + 4]?
      let stop := offset + 5 + Word.length l₁ l₀
      if bytes.length < stop then
        some ([], some (.streamInfo (Word.length l₁ l₀) (Word.pid p₁ p₀)))
      else do
        let descriptors ← Section.slice? (offset + 5) stop bytes
        let (streams, truncated) ← streamsAt? bytes stop
        some (⟨t.toNat, Word.pid p₁ p₀, descriptors⟩ :: streams, truncated)
  else some ([], none)
  termination_by bytes.length - offset

def readAt? (s : Section) : Option (Except TableError Pmt) :=
  match s.expectTable tableId with
  | .error e => some (.error e)
  | .ok () =>
    if s.payload.length < 4 then
      some (.error (.inconsistent (.noClockPid s.payload.length)))
    else do
      let p₁ ← s.payload[0]?
      let p₀ ← s.payload[1]?
      let l₁ ← s.payload[2]?
      let l₀ ← s.payload[3]?
      let start := 4 + Word.length l₁ l₀
      if s.payload.length < start then
        some (.error (.inconsistent (.programInfo (Word.length l₁ l₀))))
      else do
        let (streams, truncated) ← streamsAt? s.payload start
        some (.ok {
          program := s.header.ext
          version := s.header.version
          clockPid := Word.pid p₁ p₀
          streams, truncated })

theorem streamsAt?_eq (bytes : Bytes) (offset : Nat) :
    streamsAt? bytes offset = some (streamLoop (bytes.drop offset)) := by
  -- every stream moves the offset on
  induction hn : bytes.length - offset using Nat.strongRecOn generalizing offset with
  | ind n ih =>
    have hlen : (bytes.drop offset).length = bytes.length - offset := List.length_drop
    have hget (i : Nat) : bytes[offset + i]? = (bytes.drop offset)[i]? := List.getElem?_drop.symm
    rw [streamsAt?]
    match hd : bytes.drop offset with
    | [] =>
      have hend : ¬ offset < bytes.length := Nat.not_lt.2 (List.drop_eq_nil_iff.1 hd)
      rw [if_neg hend, streamLoop]
    | [_] | [_, _] | [_, _, _] | [_, _, _, _] =>
      rw [hd] at hlen
      simp only [List.length_cons, List.length_nil] at hlen
      rw [if_pos (by omega), if_pos (by omega), ← hlen]
      simp [streamLoop]
    | t :: p₁ :: p₀ :: l₁ :: l₀ :: rest =>
      rw [hd] at hlen
      simp only [hd] at hget
      simp only [List.length_cons] at hlen
      have ht : bytes[offset]? = some t := hget 0
      have hrest : bytes.drop (offset + 5) = rest := by rw [← List.drop_drop, hd]; rfl
      have hstop : bytes.drop (offset + 5 + Word.length l₁ l₀) = rest.drop (Word.length l₁ l₀) := by
        rw [← List.drop_drop, hrest]
      rw [if_pos (by omega), if_neg (by omega), ht, hget 1, hget 2, hget 3, hget 4]
      simp only [List.getElem?_cons_succ, List.getElem?_cons_zero, Option.bind_eq_bind,
        Option.bind_some]
      rw [streamLoop]
      by_cases hlong : Word.length l₁ l₀ > rest.length
      · rw [if_pos hlong, if_pos (by omega)]
      · have hslice : Section.slice? (offset + 5) (offset + 5 + Word.length l₁ l₀) bytes =
            some (rest.take (Word.length l₁ l₀)) := by
          rw [Section.slice?_of_le (Nat.le_add_right _ _) (by omega), List.drop_take, hrest,
            Nat.add_sub_cancel_left]
        rw [if_neg hlong, if_neg (by omega), hslice, ih _ (by omega) _ rfl, hstop]
        rfl

theorem readAt?_eq (s : Section) : readAt? s = some (parse s) := by
  unfold readAt?
  by_cases hid : s.header.tableId = tableId
  · have hget {i : Nat} (h : i < s.payload.length) :
        s.payload[i]? = some (s.payload.getD i 0) := by
      rw [List.getElem?_eq_getElem h, List.getD_eq_getElem _ _ h]
    have hlength : Word.length (s.payload.getD 2 0) (s.payload.getD 3 0) =
        Word.lengthAt 2 s.payload := rfl
    rw [Section.expectTable_eq, if_pos hid, parse_eq hid]
    dsimp only
    by_cases hshort : s.payload.length < 4
    · rw [if_pos hshort, if_pos hshort]
    · rw [if_neg hshort, if_neg hshort, hget (by omega), hget (by omega), hget (by omega),
        hget (by omega)]
      simp only [Option.bind_eq_bind, Option.bind_some, hlength, streamsAt?_eq]
      split <;> rfl
  · rw [Section.expectTable_eq, if_neg hid, parse, Section.expectTable_eq, if_neg hid]
    rfl

/-- All that a payload codes. `upper` and `lower` are reserved bits. -/
structure Layout where
  upper : Fin 8
  clockPid : Fin 8192
  lower : Fin 16
  info : Bytes
  streams : List CodedStream
  fits : info.length < 4096

namespace Layout

variable (l : Layout)

def encode : Bytes :=
  Word.code16 (8192 * l.upper + l.clockPid) ++ Word.code16 (4096 * l.lower + l.info.length) ++
    (l.info ++ l.streams.flatMap CodedStream.encode)

def content (h : Header) : Pmt where
  program := h.ext
  version := h.version
  clockPid := l.clockPid
  streams := l.streams.map CodedStream.content
  truncated := none

theorem parse_encode {h : Header} (hid : h.tableId = tableId) :
    parse ⟨h, l.encode⟩ = .ok (l.content h) := by
  have hclock : Word.pidAt 0 l.encode = l.clockPid := Word.pid_ofNat l.upper.isLt l.clockPid.isLt
  have hlength : Word.lengthAt 2 l.encode = l.info.length := Word.length_ofNat l.lower.isLt l.fits
  have hloop : loop l.encode = l.streams.flatMap CodedStream.encode := by
    rw [loop, hlength, ← List.drop_drop]
    exact List.drop_left
  have hlen : l.encode.length =
      4 + (l.info.length + (l.streams.flatMap CodedStream.encode).length) := by
    simp only [encode, List.length_append]
    rfl
  have hformed : Formed l.encode := ⟨by omega, by omega⟩
  rw [parse_of_formed hid hformed, table, hclock, hloop, entryLoop.read_entries (by decide)]
  rfl

end Layout

/-- A program map table decodes if and only if its program info is complete. Its streams are those
that are complete, no list of streams that is there is longer, and nothing is truncated if and only
if they end with the last byte. Further bytes only add streams, and what has been written is read
without asking for a byte that is not there. -/
theorem parse_streams (s : Section) (hid : s.header.tableId = tableId) :
    readAt? s = some (parse s) ∧
    ((∃ e, parse s = .error e) ↔
      s.payload.length < 4 ∨ s.payload.length < 4 + Word.lengthAt 2 s.payload) ∧
    (∀ t, parse s = .ok t →
      t.program = s.header.ext ∧ t.version = s.header.version ∧
      t.clockPid = Word.pidAt 0 s.payload ∧
      (∃ cs tail, Division CodedStream.encode (loop s.payload) cs tail ∧
        t.streams = cs.map CodedStream.content ∧ (t.truncated = none ↔ tail = [])) ∧
      (∀ cs : List CodedStream, cs.flatMap CodedStream.encode <+: loop s.payload →
        cs.map CodedStream.content <+: t.streams) ∧
      ∀ more, ∃ t', parse { s with payload := s.payload ++ more } = .ok t' ∧
        t'.program = t.program ∧ t'.version = t.version ∧ t'.clockPid = t.clockPid ∧
        t.streams <+: t'.streams) ∧
    ∀ l : Layout, parse ⟨s.header, l.encode⟩ = .ok (l.content s.header) := by
  refine ⟨readAt?_eq s, exists_error_iff hid, fun t ht => ?_, fun l => l.parse_encode hid⟩
  obtain ⟨hf, rfl⟩ := formed_of_parse hid ht
  obtain ⟨cs, tail, hd⟩ := entryLoop.exists_division (loop s.payload)
  obtain ⟨hread, hreport⟩ := entryLoop.read_division hd
  rw [Nat.lt_one_iff, List.length_eq_zero_iff] at hreport
  exact ⟨rfl, rfl, rfl, ⟨cs, tail, hd, hread, hreport⟩, fun _ hp => entryLoop.prefix_read hp,
    parse_append hid ht⟩

/-! ### A stream that is cut off -/

def twoStreams : Layout where
  upper := Fin.last 7
  clockPid := 0x100
  lower := Fin.last 15
  info := [0x09, 0x01, 0x20]
  streams := [{
    streamType := 2
    upper := Fin.last 7
    pid := 0x100
    lower := Fin.last 15
    descriptors := [0x52, 0x01, 0x01]
    fits := by decide }, {
    streamType := 6
    upper := ⟨0, by decide⟩
    pid := 0x101
    lower := ⟨0, by decide⟩
    descriptors := [0x59, 0x01, 0x00]
    fits := by decide }]
  fits := by decide

/-- The second of the streams, but for its last byte. -/
def cutStreams : Section where
  header := { tableId := tableId, longForm := true, length := 31 }
  payload := twoStreams.encode.dropLast

theorem parse_streams_cut :
    (∃ t, parse cutStreams = .ok t ∧ t.streams = [⟨2, 0x100, [0x52, 0x01, 0x01]⟩] ∧
      t.truncated = some (.streamInfo 3 0x101) ∧
      ∃ t', parse ⟨cutStreams.header, twoStreams.encode⟩ = .ok t' ∧
        t'.streams = [⟨2, 0x100, [0x52, 0x01, 0x01]⟩, ⟨6, 0x101, [0x59, 0x01, 0x00]⟩] ∧
        t'.truncated = none ∧ t.streams <+: t'.streams) ∧
    ∃ e, parse { cutStreams with payload := twoStreams.encode.take 6 } = .error e := by
  obtain ⟨-, -, hsection, hlayout⟩ := parse_streams cutStreams rfl
  have hcut : parse cutStreams = .ok (table cutStreams) :=
    parse_of_formed rfl ⟨by decide, by decide⟩
  have hwhole := hlayout twoStreams
  obtain ⟨t', ht', -, -, -, hprefix⟩ := (hsection _ hcut).2.2.2.2.2 [0x00]
  have hlast : cutStreams.payload ++ [0x00] = twoStreams.encode := by decide
  rw [hlast, hwhole] at ht'
  obtain rfl := Except.ok.inj ht'
  refine ⟨⟨_, hcut, by decide +kernel, by decide +kernel, _, hwhole, rfl, rfl, hprefix⟩, ?_⟩
  exact (parse_streams { cutStreams with payload := twoStreams.encode.take 6 } rfl).2.1.2
    (by decide)

end Bandscan.Pmt
