import Bandscan.Descriptor
/-!
A descriptor loop read one descriptor at a time. The calls of `Cursor.next` give the descriptors of
the walk and then its error, if it has one, and nothing from there on. What has been read is the
part of the loop that can be written again, so that the walk undoes `Descriptor.encode`.
-/

namespace Bandscan.Descriptor

variable {loop rest : Bytes} {d : Descriptor} {ds : List Descriptor} {tag k : Nat}

abbrev Item := Except DescriptorError Descriptor

/-- How far a loop has been read. Nothing is read after an error. -/
structure Cursor where
  loop : Bytes
  offset : Nat := 0
  failed : Bool := false

def Cursor.next (c : Cursor) : Option Item × Cursor :=
  let fail (e : DescriptorError) : Option Item × Cursor :=
    (some (.error e), { c with failed := true })
  if c.failed then (none, c)
  else match c.loop.drop c.offset with
    | [] => (none, c)
    | [tag] => fail (.overrun tag.toNat 0 0)
    | tag :: len :: rest =>
      if len = 0 then fail (.zeroLength tag.toNat)
      else if rest.length < len.toNat then fail (.overrun tag.toNat len.toNat rest.length)
      else (some (.ok ⟨tag.toNat, rest.take len.toNat⟩),
        { c with offset := c.offset + 2 + len.toNat })

def Cursor.advance : Nat → Cursor → Cursor
  | 0, c => c
  | k + 1, c => advance k c.next.2

/-- What the call number `k`, counted from 0, gives. -/
def item? (loop : Bytes) (k : Nat) : Option Item := (Cursor.advance k { loop }).next.1

def items (loop : Bytes) : List Item :=
  (walk loop).1.map .ok ++ (walk loop).2.toList.map .error

theorem walk_cons (tag : UInt8) {len : UInt8} (hlen : len ≠ 0) (h : len.toNat ≤ rest.length) :
    walk (tag :: len :: rest) =
      (⟨tag.toNat, rest.take len.toNat⟩ :: (walk (rest.drop len.toNat)).1,
        (walk (rest.drop len.toNat)).2) := by
  rw [walk, if_neg hlen, if_neg (Nat.not_lt.2 h)]

def Cursor.remaining (c : Cursor) : List Item :=
  if c.failed then [] else items (c.loop.drop c.offset)

theorem items_nil : items [] = [] := by
  simp [items, walk]

theorem items_dangling (tag : UInt8) : items [tag] = [.error (.overrun tag.toNat 0 0)] := by
  simp [items, walk]

theorem items_zero (tag : UInt8) (rest : Bytes) :
    items (tag :: 0 :: rest) = [.error (.zeroLength tag.toNat)] := by
  simp [items, walk]

theorem items_overrun (tag : UInt8) {len : UInt8} (hlen : len ≠ 0) (h : rest.length < len.toNat) :
    items (tag :: len :: rest) = [.error (.overrun tag.toNat len.toNat rest.length)] := by
  simp [items, walk, hlen, h]

theorem items_cons (tag : UInt8) {len : UInt8} (hlen : len ≠ 0) (h : len.toNat ≤ rest.length) :
    items (tag :: len :: rest) =
      .ok ⟨tag.toNat, rest.take len.toNat⟩ :: items (rest.drop len.toNat) := by
  rw [items, walk_cons tag hlen h]
  rfl

theorem Cursor.next_eq (c : Cursor) :
    c.next.1 = c.remaining.head? ∧ c.next.2.remaining = c.remaining.tail := by
  unfold next remaining
  by_cases hf : c.failed = true
  · simp [hf]
  simp only [hf, Bool.false_eq_true, if_false]
  have hdrop : ∀ m, c.loop.drop (c.offset + m) = (c.loop.drop c.offset).drop m :=
    fun m => List.drop_drop.symm
  split
  · next h => simp [hf, h, items_nil]
  · next tag h => simp [h, items_dangling]
  · next tag len rest h =>
    rw [h]
    split
    · next hlen => simp [hlen, items_zero]
    split
    · next hlen hlong => simp [items_overrun tag hlen hlong]
    · next hlen hlong =>
      rw [items_cons tag hlen (Nat.le_of_not_lt hlong)]
      simp [Nat.add_assoc, hdrop, h, Nat.add_comm 2]

theorem Cursor.remaining_advance (k : Nat) (c : Cursor) :
    (c.advance k).remaining = c.remaining.drop k := by
  induction k generalizing c with
  | zero => rfl
  | succ k ih => rw [advance, ih, c.next_eq.2, List.drop_tail]

theorem item?_eq (loop : Bytes) (k : Nat) : item? loop k = (items loop)[k]? := by
  have hstart : Cursor.remaining { loop } = items loop := rfl
  rw [item?, (Cursor.next_eq _).1, Cursor.remaining_advance, hstart, List.head?_drop]

structure Codable (d : Descriptor) : Prop where
  tag : d.tag < 256
  nonempty : 1 ≤ d.data.length
  short : d.data.length ≤ 255

theorem encode_cons (d : Descriptor) (ds : List Descriptor) :
    encode (d :: ds) =
      UInt8.ofNat d.tag :: UInt8.ofNat d.data.length :: (d.data ++ encode ds) := rfl

theorem walk_encode_append (hds : ∀ d ∈ ds, Codable d) (rest : Bytes) :
    walk (encode ds ++ rest) = (ds ++ (walk rest).1, (walk rest).2) := by
  induction ds with
  | nil => rfl
  | cons d ds ih =>
    rw [List.forall_mem_cons] at hds
    obtain ⟨hd, hds⟩ := hds
    have htag : (UInt8.ofNat d.tag).toNat = d.tag := UInt8.toNat_ofNat_of_lt' hd.tag
    have hlen : (UInt8.ofNat d.data.length).toNat = d.data.length :=
      UInt8.toNat_ofNat_of_lt' (Nat.lt_succ_of_le hd.short)
    have hne : UInt8.ofNat d.data.length ≠ 0 := by
      intro h
      have hz : d.data.length = 0 := by rw [← hlen, h]; rfl
      have := hd.nonempty
      omega
    have hle : (UInt8.ofNat d.data.length).toNat ≤ (d.data ++ (encode ds ++ rest)).length := by
      rw [hlen, List.length_append]
      exact Nat.le_add_right _ _
    have hsplit : encode (d :: ds) ++ rest =
        UInt8.ofNat d.tag :: UInt8.ofNat d.data.length :: (d.data ++ (encode ds ++ rest)) := by
      rw [encode_cons, List.cons_append, List.cons_append, List.append_assoc]
    rw [hsplit, walk_cons _ hne hle, hlen, htag, List.take_left, List.drop_left, ih hds]
    rfl

/-- The walk ends where no further descriptor can be read: at the end, or in front of an error. -/
theorem encode_walk_append (loop : Bytes) :
    ∃ rest, encode (walk loop).1 ++ rest = loop ∧ ((walk loop).2 = none ↔ rest = []) := by
  fun_induction walk loop with
  | case1 => exact ⟨[], rfl, by simp⟩
  | case2 tag => exact ⟨[tag], rfl, by simp⟩
  | case3 tag rest => exact ⟨tag :: 0 :: rest, rfl, by simp⟩
  | case4 tag len rest hlen hlong => exact ⟨tag :: len :: rest, rfl, by simp⟩
  | case5 tag len rest hlen hlong ds e he ih =>
    obtain ⟨tail, htail, hnone⟩ := ih
    rw [he] at htail hnone
    have hcut : (rest.take len.toNat).length = len.toNat :=
      List.length_take_of_le (Nat.le_of_not_lt hlong)
    refine ⟨tail, ?_, hnone⟩
    rw [encode_cons, hcut, UInt8.ofNat_toNat, UInt8.ofNat_toNat, List.cons_append, List.cons_append,
      List.append_assoc, htail, List.take_append_drop]

theorem item?_eq_ok : item? loop k = some (.ok d) ↔ (walk loop).1[k]? = some d := by
  rw [item?_eq, items, List.getElem?_append]
  split
  · next h =>
    rw [List.length_map] at h
    simp [h]
  · next h =>
    rw [List.length_map, Nat.not_lt] at h
    rw [List.getElem?_eq_none h, List.length_map]
    cases (walk loop).2 <;> simp [List.getElem?_singleton]

theorem find?_eq_some_iff {data : Bytes} :
    find? loop tag = some data ↔ ∃ k, item? loop k = some (.ok ⟨tag, data⟩) ∧
      ∀ j < k, ∃ d, item? loop j = some (.ok d) ∧ d.tag ≠ tag := by
  unfold find? all
  simp only [item?_eq_ok, Option.map_eq_some_iff, List.find?_eq_some_iff_getElem]
  constructor
  · rintro ⟨d, ⟨ht, k, hk, rfl, hbefore⟩, rfl⟩
    refine ⟨k, ?_, fun j hj => ⟨_, List.getElem?_eq_getElem (Nat.lt_trans hj hk), ?_⟩⟩
    · have ht : (walk loop).1[k].tag = tag := of_decide_eq_true ht
      rw [List.getElem?_eq_getElem hk, ← ht]
    · simpa using hbefore j hj
  · rintro ⟨k, hk, hbefore⟩
    obtain ⟨hlt, hget⟩ := List.getElem?_eq_some_iff.1 hk
    refine ⟨⟨tag, data⟩, ⟨by simp, k, hlt, hget, fun j hj => ?_⟩, rfl⟩
    obtain ⟨d, hd, hne⟩ := hbefore j hj
    rw [List.getElem?_eq_getElem (Nat.lt_trans hj hlt)] at hd
    obtain rfl := Option.some.inj hd
    simpa using hne

theorem find?_eq_none_iff :
    find? loop tag = none ↔ ∀ k d, item? loop k = some (.ok d) → d.tag ≠ tag := by
  unfold find? all
  simp only [item?_eq_ok, Option.map_eq_none_iff, List.find?_eq_none]
  constructor
  · intro h k d hk
    simpa using h d (List.mem_of_getElem? hk)
  · intro h d hd
    obtain ⟨k, hk⟩ := List.mem_iff_getElem?.1 hd
    simpa using h k d hk

theorem item?_length (loop : Bytes) : item? loop (all loop).length = (walk loop).2.map .error := by
  have hle : ((all loop).map (Except.ok (ε := DescriptorError))).length ≤ (all loop).length :=
    Nat.le_of_eq (List.length_map _)
  rw [item?_eq, items, ← all, List.getElem?_append_right hle, List.length_map, Nat.sub_self]
  cases (walk loop).2 <;> rfl

theorem item?_eq_none (h : (all loop).length < k) : item? loop k = none := by
  rw [item?_eq]
  apply List.getElem?_eq_none
  have hone : (walk loop).2.toList.length ≤ 1 := by cases (walk loop).2 <;> simp
  rw [items, List.length_append, List.length_map, List.length_map]
  unfold all at h
  omega

/-- The calls on a loop give its descriptors, then an error unless all of it has been read, and
then nothing for ever. What has been read is what the descriptors are written as, descriptors that
were written are read, and a search finds the first descriptor with its tag. -/
theorem walk_exact (loop : Bytes) :
    (∀ k d, item? loop k = some (.ok d) ↔ (all loop)[k]? = some d) ∧
    item? loop (all loop).length = (walk loop).2.map .error ∧
    (∀ k, (all loop).length < k → item? loop k = none) ∧
    encode (all loop) <+: loop ∧
    ((walk loop).2 = none ↔ encode (all loop) = loop) ∧
    (∀ ds rest, (∀ d ∈ ds, Codable d) → encode ds ++ rest = loop → all loop = ds ++ all rest) ∧
    (∀ tag data, find? loop tag = some data ↔ ∃ k, item? loop k = some (.ok ⟨tag, data⟩) ∧
      ∀ j < k, ∃ d, item? loop j = some (.ok d) ∧ d.tag ≠ tag) ∧
    ∀ tag, find? loop tag = none ↔ ∀ k d, item? loop k = some (.ok d) → d.tag ≠ tag := by
  obtain ⟨rest, hrest, hnone⟩ := encode_walk_append loop
  have hwhole : rest = [] ↔ encode (all loop) = loop := by
    constructor
    · rintro rfl
      rwa [List.append_nil] at hrest
    · intro he
      exact List.append_right_eq_self.1 (hrest.trans he.symm)
  refine ⟨fun k d => item?_eq_ok, item?_length loop, fun k => item?_eq_none, ⟨rest, hrest⟩,
    hnone.trans hwhole, ?_, fun tag data => find?_eq_some_iff, fun tag => find?_eq_none_iff⟩
  rintro ds rest hds rfl
  rw [all, walk_encode_append hds]
  rfl

theorem walk_exact_overrun :
    let ds : List Descriptor := [⟨0x48, [0xAA, 0xBB]⟩, ⟨0x40, [0xCC]⟩]
    let loop : Bytes := encode ds ++ [0x0A, 0x04, 0x65]
    (∀ d ∈ ds, Codable d) ∧ all loop = ds ∧
      item? loop 2 = some (.error (.overrun 0x0A 4 1)) ∧ item? loop 3 = none ∧
      find? loop 0x40 = some [0xCC] ∧ find? loop 0x0A = none := by
  intro ds loop
  have hds : ∀ d ∈ ds, Codable d := by
    intro d hd
    simp only [ds, List.mem_cons, List.not_mem_nil, or_false] at hd
    obtain rfl | rfl := hd
    · exact ⟨by decide, by decide, by decide⟩
    · exact ⟨by decide, by decide, by decide⟩
  have hend : walk [0x0A, 0x04, 0x65] = ([], some (.overrun 0x0A 4 1)) := by
    rw [walk]
    rfl
  have hwalk : walk loop = (ds, some (.overrun 0x0A 4 1)) := by
    rw [walk_encode_append hds, hend, List.append_nil]
  obtain ⟨-, hlast, hnothing, -, -, hread, -, -⟩ := walk_exact loop
  have hall : all loop = ds := by
    rw [hread ds [0x0A, 0x04, 0x65] hds rfl, all, hend, List.append_nil]
  rw [hall, hwalk] at hlast
  rw [hall] at hnothing
  refine ⟨hds, hall, hlast, hnothing 3 (by decide), ?_, ?_⟩
  · rw [find?, hall]
    rfl
  · rw [find?, hall]
    rfl

end Bandscan.Descriptor
