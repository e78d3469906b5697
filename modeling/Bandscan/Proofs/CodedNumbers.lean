import Mathlib.Data.List.Induction
import Mathlib.Data.Nat.Digits.Defs
import Bandscan.Proofs.SectionEffects
/-!
The numbers of a network table. Each is coded as a count of units, in decimal or in binary digits,
and means that count times the unit as a natural number. The decoder keeps 32 bits: decimal fields
of satellites are never too large for them, one of a cable multiplex that is ends the program, and a
binary one loses what lies beyond.
-/

namespace Bandscan

namespace Word

/-- Two digits a byte, the most significant first. Noise may have digits above 9. -/
def digits (bytes : Bytes) : List Nat := bytes.flatMap fun b => [b.toNat / 16, b.toNat % 16]

def decimal (ds : List Nat) : Nat := Nat.ofDigits 10 ds.reverse

def binary (bytes : Bytes) : Nat := Nat.ofDigits 256 (bytes.reverse.map (·.toNat))

theorem decimal_concat (ds : List Nat) (x : Nat) : decimal (ds ++ [x]) = x + 10 * decimal ds := by
  simp [decimal, Nat.ofDigits_cons]

theorem digits_concat (bytes : Bytes) (b : UInt8) :
    digits (bytes ++ [b]) = digits bytes ++ [b.toNat / 16] ++ [b.toNat % 16] := by
  simp [digits]

theorem bcd_eq (bytes : Bytes) : bcd bytes = decimal (digits bytes) % limit32 := by
  -- the fold has the last byte outermost, and reduction modulo 2 ^ 32 passes through both its steps
  induction bytes using List.reverseRecOn with
  | nil => rfl
  | append_singleton bytes b ih =>
    unfold bcd at ih ⊢
    rw [List.foldl_append, ih, digits_concat, decimal_concat, decimal_concat]
    simp only [List.foldl_cons, List.foldl_nil, limit32]
    omega

theorem decimal_le {ds : List Nat} (h : ∀ x ∈ ds, x ≤ 15) :
    9 * decimal ds + 15 ≤ 15 * 10 ^ ds.length := by
  induction ds using List.reverseRecOn with
  | nil => decide
  | append_singleton ds x ih =>
    rw [List.forall_mem_append] at h
    have ih := ih h.1
    have hx : x ≤ 15 := h.2 x List.mem_cons_self
    rw [decimal_concat, List.length_append, List.length_singleton, pow_succ]
    omega

theorem digit_le {bytes : Bytes} {x : Nat} (h : x ∈ digits bytes) : x ≤ 15 := by
  obtain ⟨b, -, hx⟩ := List.mem_flatMap.1 h
  have hb := b.toNat_lt
  simp only [List.mem_cons, List.not_mem_nil, or_false] at hx
  omega

theorem length_digits (bytes : Bytes) : (digits bytes).length = 2 * bytes.length := by
  induction bytes with
  | nil => rfl
  | cons b bytes ih =>
    have h : (digits (b :: bytes)).length = 2 + (digits bytes).length := by simp [digits]; omega
    rw [h, ih, List.length_cons]
    omega

theorem decimal_digits_le {bytes : Bytes} (h : bytes.length = 4) :
    decimal (digits bytes) ≤ 166666665 := by
  have hd := decimal_le fun x (hx : x ∈ digits bytes) => digit_le hx
  rw [length_digits, h] at hd
  omega

theorem bcd_four {bytes : Bytes} (h : bytes.length = 4) : bcd bytes = decimal (digits bytes) := by
  have hd := decimal_digits_le h
  rw [bcd_eq, Nat.mod_eq_of_lt]
  unfold limit32
  omega

theorem w32_eq (a b c d : UInt8) : w32 a b c d = binary [a, b, c, d] := by
  simp only [w32, w16, binary, List.reverse_cons, List.reverse_nil, List.nil_append,
    List.cons_append, List.map_cons, List.map_nil, Nat.ofDigits_cons, Nat.ofDigits_nil]
  omega

end Word

def Delivery.symbolRate : Delivery → Option Nat
  | satellite p => some p.symbolRate
  | cable p => some p.symbolRate
  | terrestrial _ => none

namespace Descriptor

def IsDelivery (d : Descriptor) : Prop :=
  (d.tag = satelliteTag ∨ d.tag = cableTag) ∧ 11 ≤ d.data.length ∨
    d.tag = terrestrialTag ∧ 7 ≤ d.data.length

instance (d : Descriptor) : Decidable d.IsDelivery := inferInstanceAs (Decidable (_ ∨ _))

/-- Satellites count in 10 kHz, cable in 100 Hz, terrestrial multiplexes in 10 Hz. -/
def codedFrequency (d : Descriptor) : Nat :=
  if d.tag = satelliteTag then 10 * Word.decimal (Word.digits (d.data.take 4))
  else if d.tag = cableTag then 100 * Word.decimal (Word.digits (d.data.take 4))
  else 10 * Word.binary (d.data.take 4)

/-- Eight digits in units of 10 symbols a second, the last of them 0: its place holds the code
rate. -/
def codedSymbolRate (d : Descriptor) : Option Nat :=
  if d.tag = terrestrialTag then none
  else some (10 * Word.decimal ((Word.digits ((d.data.drop 7).take 4)).take 7 ++ [0]))

def system (d : Descriptor) : DeliveryKind :=
  if d.tag = satelliteTag then .satellite
  else if d.tag = cableTag then .cable
  else .terrestrial

def codedAlternates (d : Descriptor) : List Nat :=
  match d.data with
  | coding :: list =>
    if d.tag = frequencyListTag ∧ coding.toNat % 4 = 3 then
      (Word.quads list).map fun (a, b, c, d) => 10 * Word.binary [a, b, c, d]
    else []
  | [] => []

theorem exists_eleven {l : Bytes} (h : 11 ≤ l.length) :
    ∃ a b c d e f g i j k m rest,
      l = a :: b :: c :: d :: e :: f :: g :: i :: j :: k :: m :: rest := by
  rcases l with _ | ⟨a, _ | ⟨b, _ | ⟨c, _ | ⟨d, _ | ⟨e, _ | ⟨f, _ | ⟨g, _ | ⟨i, _ | ⟨j, _ | ⟨k, _ |
    ⟨m, rest⟩⟩⟩⟩⟩⟩⟩⟩⟩⟩⟩
  case cons.cons.cons.cons.cons.cons.cons.cons.cons.cons.cons =>
    exact ⟨a, b, c, d, e, f, g, i, j, k, m, rest, rfl⟩
  all_goals simp at h

theorem exists_seven {l : Bytes} (h : 7 ≤ l.length) :
    ∃ a b c d e f g rest, l = a :: b :: c :: d :: e :: f :: g :: rest := by
  rcases l with _ | ⟨a, _ | ⟨b, _ | ⟨c, _ | ⟨d, _ | ⟨e, _ | ⟨f, _ | ⟨g, rest⟩⟩⟩⟩⟩⟩⟩
  case cons.cons.cons.cons.cons.cons.cons => exact ⟨a, b, c, d, e, f, g, rest, rfl⟩
  all_goals simp at h

theorem symbolRate_eq (a b c d : UInt8) :
    symbolRate a b c d = 10 * Word.decimal ((Word.digits [a, b, c, d]).take 7 ++ [0]) := by
  have hd := d.toNat_lt
  have hdigits : Word.digits [a, b, c, UInt8.ofNat (d.toNat / 16 * 16)] =
      (Word.digits [a, b, c, d]).take 7 ++ [0] := by
    simp [Word.digits]
    omega
  rw [symbolRate, Word.bcd_four rfl, hdigits]

theorem tensOfHertz_eq (a b c d : UInt8) :
    tensOfHertz a b c d = 10 * Word.binary [a, b, c, d] % Word.limit32 := by
  rw [tensOfHertz, Word.w32_eq]

theorem satellite_of_length {data : Bytes} (h : 11 ≤ data.length) :
    ∃ p, satellite data = .ok (10 * Word.decimal (Word.digits (data.take 4)), p) ∧
      p.symbolRate = 10 * Word.decimal ((Word.digits ((data.drop 7).take 4)).take 7 ++ [0]) := by
  obtain ⟨f₃, f₂, f₁, f₀, o₁, o₀, flags, s₃, s₂, s₁, s₀, rest, rfl⟩ := exists_eleven h
  exact ⟨_, by rw [satellite, Word.bcd_four rfl]; rfl, symbolRate_eq s₃ s₂ s₁ s₀⟩

theorem cable_of_length {data : Bytes} (h : 11 ≤ data.length) :
    ∃ p, cable data = .ok (100 * Word.decimal (Word.digits (data.take 4)), p) ∧
      p.symbolRate = 10 * Word.decimal ((Word.digits ((data.drop 7).take 4)).take 7 ++ [0]) := by
  obtain ⟨f₃, f₂, f₁, f₀, o₁, o₀, modulation, s₃, s₂, s₁, s₀, rest, rfl⟩ := exists_eleven h
  exact ⟨_, by rw [cable, Word.bcd_four rfl]; rfl, symbolRate_eq s₃ s₂ s₁ s₀⟩

theorem terrestrial_of_length {data : Bytes} (h : 7 ≤ data.length) :
    ∃ p, terrestrial data = .ok (10 * Word.binary (data.take 4) % Word.limit32, p) := by
  obtain ⟨f₃, f₂, f₁, f₀, band, high, low, rest, rfl⟩ := exists_seven h
  exact ⟨_, by rw [terrestrial, tensOfHertz_eq]; rfl⟩

theorem satellite_of_short {data : Bytes} (h : ¬ 11 ≤ data.length) :
    satellite data = .error (.tooShort satelliteTag data.length) := by
  unfold satellite
  split
  · simp at h
  · rfl

theorem cable_of_short {data : Bytes} (h : ¬ 11 ≤ data.length) :
    cable data = .error (.tooShort cableTag data.length) := by
  unfold cable
  split
  · simp at h
  · rfl

theorem terrestrial_of_short {data : Bytes} (h : ¬ 7 ≤ data.length) :
    terrestrial data = .error (.tooShort terrestrialTag data.length) := by
  unfold terrestrial
  split
  · simp at h
  · rfl

end Descriptor

namespace Multiplex

open Descriptor

variable {m : Multiplex} {d : Descriptor} {ds : List Descriptor}

/-- The frequency that is kept of a delivery descriptor: for terrestrial ones, 32 bits of it. -/
def keptFrequency (d : Descriptor) : Nat :=
  if d.tag = terrestrialTag then d.codedFrequency % Word.limit32 else d.codedFrequency

theorem apply_satellite {frequency : Nat} {p : SatelliteParameters} (ht : d.tag = satelliteTag)
    (hp : satellite d.data = .ok (frequency, p)) (m : Multiplex) :
    m.apply d = m.tuned frequency (.satellite p) := by
  unfold apply effect
  rw [if_pos ht, hp]
  rfl

theorem apply_cable {frequency : Nat} {p : CableParameters} (ht : d.tag = cableTag)
    (hp : cable d.data = .ok (frequency, p)) (m : Multiplex) :
    m.apply d = m.tuned frequency (.cable p) := by
  unfold apply effect
  rw [if_neg (by rw [ht]; decide), if_pos ht, hp]
  rfl

theorem apply_terrestrial {frequency : Nat} {p : TerrestrialParameters}
    (ht : d.tag = terrestrialTag) (hp : terrestrial d.data = .ok (frequency, p)) (m : Multiplex) :
    m.apply d = m.tuned frequency (.terrestrial p) := by
  unfold apply effect
  rw [if_neg (by rw [ht]; decide), if_neg (by rw [ht]; decide), if_pos ht, hp]
  rfl

theorem apply_delivery (h : d.IsDelivery) (m : Multiplex) :
    ∃ p : Delivery, m.apply d = m.tuned (keptFrequency d) p ∧ p.kind = d.system ∧
      p.symbolRate = d.codedSymbolRate := by
  rcases h with ⟨ht | ht, hl⟩ | ⟨ht, hl⟩
  · obtain ⟨p, hp, hs⟩ := satellite_of_length hl
    refine ⟨.satellite p, ?_, ?_, ?_⟩
    · rw [apply_satellite ht hp]
      simp [keptFrequency, codedFrequency, ht, satelliteTag, terrestrialTag]
    · simp [Delivery.kind, system, ht]
    · simp [Delivery.symbolRate, codedSymbolRate, ht, hs, satelliteTag, terrestrialTag]
  · obtain ⟨p, hp, hs⟩ := cable_of_length hl
    refine ⟨.cable p, ?_, ?_, ?_⟩
    · rw [apply_cable ht hp]
      simp [keptFrequency, codedFrequency, ht, satelliteTag, cableTag, terrestrialTag]
    · simp [Delivery.kind, system, ht, satelliteTag, cableTag]
    · simp [Delivery.symbolRate, codedSymbolRate, ht, hs, cableTag, terrestrialTag]
  · obtain ⟨p, hp⟩ := terrestrial_of_length hl
    refine ⟨.terrestrial p, ?_, ?_, ?_⟩
    · rw [apply_terrestrial ht hp]
      simp [keptFrequency, codedFrequency, ht, satelliteTag, cableTag, terrestrialTag]
    · simp [Delivery.kind, system, ht, satelliteTag, cableTag, terrestrialTag]
    · simp [Delivery.symbolRate, codedSymbolRate, ht]

theorem apply_not_delivery (h : ¬ d.IsDelivery) (m : Multiplex) :
    (m.apply d).frequency = m.frequency ∧ (m.apply d).delivery = m.delivery := by
  unfold apply effect
  dsimp only
  split
  · next ht =>
    rw [satellite_of_short fun hl => h (.inl ⟨.inl ht, hl⟩)]
    exact ⟨rfl, rfl⟩
  · split
    · next ht =>
      rw [cable_of_short fun hl => h (.inl ⟨.inr ht, hl⟩)]
      exact ⟨rfl, rfl⟩
    · split
      · next ht =>
        rw [terrestrial_of_short fun hl => h (.inr ⟨ht, hl⟩)]
        exact ⟨rfl, rfl⟩
      · split
        · rcases frequencyList d.data with _ | _ <;> exact ⟨rfl, rfl⟩
        · split <;> exact ⟨rfl, rfl⟩

theorem alternates_apply_list (ht : d.tag = frequencyListTag) (ha : m.alternates = []) :
    (m.apply d).alternates = d.codedAlternates.map (· % Word.limit32) := by
  have hm : m.apply d = ((frequencyList d.data).map fun list =>
      { m with alternates := list.2 }).toOption.getD m := by
    unfold apply effect
    rw [if_neg (by rw [ht]; decide), if_neg (by rw [ht]; decide), if_neg (by rw [ht]; decide),
      if_pos ⟨ht, ha⟩]
    rcases frequencyList d.data with _ | _ <;> rfl
  rw [hm]
  unfold codedAlternates frequencyList
  cases d.data with
  | nil => simp [Except.map, Except.toOption, ha]
  | cons coding list =>
    by_cases hc : coding.toNat % 4 = 3
    · simp [hc, ht, Except.map, Except.toOption, Function.comp_def, tensOfHertz_eq]
    · simp [hc, Except.map, Except.toOption]

theorem alternates_apply_other (h : ¬ (d.tag = frequencyListTag ∧ m.alternates = [])) :
    (m.apply d).alternates = m.alternates := by
  unfold apply effect
  dsimp only
  split
  · rcases satellite d.data with _ | _ <;> rfl
  · split
    · rcases cable d.data with _ | _ <;> rfl
    · split
      · rcases terrestrial d.data with _ | _ <;> rfl
      · split <;> rfl

theorem alternates_apply (m : Multiplex) (d : Descriptor) :
    (m.apply d).alternates =
      if m.alternates = [] then d.codedAlternates.map (· % Word.limit32) else m.alternates := by
  by_cases ha : m.alternates = []
  · rw [if_pos ha]
    by_cases ht : d.tag = frequencyListTag
    · exact alternates_apply_list ht ha
    · have hc : d.codedAlternates = [] := by
        unfold codedAlternates
        split <;> simp [ht]
      rw [alternates_apply_other fun h => ht h.1, hc, ha]
      rfl
  · rw [if_neg ha, alternates_apply_other fun h => ha h.2]

/-- The delivery descriptor that counts: a later one replaces an earlier one. -/
def lastDelivery (ds : List Descriptor) : Option Descriptor :=
  (ds.filter fun d => d.IsDelivery).getLast?

/-- The alternate frequencies that count: those of the first list that is not empty. -/
def firstAlternates (ds : List Descriptor) : List Nat :=
  ((ds.map codedAlternates).find? (· ≠ [])).getD []

/-- The numbers of the multiplex are those that the descriptors code. Without a delivery descriptor
there is no frequency. Only a terrestrial frequency is kept modulo 2 ^ 32. -/
structure Carries (ds : List Descriptor) (m : Multiplex) : Prop where
  frequency : m.frequency = ((lastDelivery ds).map keptFrequency).getD 0
  system : m.delivery.map Delivery.kind = (lastDelivery ds).map system
  symbolRate : m.delivery.bind Delivery.symbolRate = (lastDelivery ds).bind codedSymbolRate
  alternates : m.alternates = (firstAlternates ds).map (· % Word.limit32)

theorem lastDelivery_concat (ds : List Descriptor) (d : Descriptor) :
    lastDelivery (ds ++ [d]) = if d.IsDelivery then some d else lastDelivery ds := by
  unfold lastDelivery
  rw [List.filter_append]
  by_cases hd : d.IsDelivery <;> simp [hd]

theorem firstAlternates_concat (ds : List Descriptor) (d : Descriptor) :
    firstAlternates (ds ++ [d]) =
      if firstAlternates ds = [] then d.codedAlternates else firstAlternates ds := by
  unfold firstAlternates
  rw [List.map_append, List.find?_append]
  cases hf : (ds.map codedAlternates).find? (· ≠ []) with
  | none =>
    by_cases hd : d.codedAlternates = [] <;> simp [hd]
  | some fs =>
    have hfs : fs ≠ [] := by simpa using List.find?_some hf
    simp [hfs]

theorem Carries.apply (h : Carries ds m) (d : Descriptor) : Carries (ds ++ [d]) (m.apply d) := by
  have halt : (m.apply d).alternates = (firstAlternates (ds ++ [d])).map (· % Word.limit32) := by
    rw [alternates_apply, firstAlternates_concat, h.alternates]
    by_cases hd : firstAlternates ds = [] <;> simp [hd]
  by_cases hd : d.IsDelivery
  · obtain ⟨p, hp, hk, hs⟩ := apply_delivery hd m
    have hl : lastDelivery (ds ++ [d]) = some d := by rw [lastDelivery_concat, if_pos hd]
    refine ⟨?_, ?_, ?_, halt⟩
    · rw [hp, hl]
      rfl
    · rw [hp, hl]
      exact congrArg some hk
    · rw [hp, hl]
      exact hs
  · obtain ⟨hf, hp⟩ := apply_not_delivery hd m
    have hl : lastDelivery (ds ++ [d]) = lastDelivery ds := by rw [lastDelivery_concat, if_neg hd]
    refine ⟨?_, ?_, ?_, halt⟩
    · rw [hf, hl, h.frequency]
    · rw [hp, hl, h.system]
    · rw [hp, hl, h.symbolRate]

theorem carries_decode (e : Nit.Entry) : Carries (Descriptor.all e.descriptors) e.decode := by
  unfold Nit.Entry.decode
  -- the descriptor that has been read last decides, so the list grows at its end
  induction Descriptor.all e.descriptors using List.reverseRecOn with
  | nil => exact ⟨rfl, rfl, rfl, rfl⟩
  | append_singleton ds d ih =>
    rw [List.foldl_append]
    exact ih.apply d

end Multiplex

theorem Descriptor.data_within {loop : Bytes} {d : Descriptor} (h : d ∈ Descriptor.all loop) :
    d.data <:+: loop := by
  unfold Descriptor.all at h
  fun_induction Descriptor.walk loop with
  | case1 | case2 | case3 | case4 => simp at h
  | case5 tag len rest hz hl ds e hw ih =>
    have hrest : rest <:+: tag :: len :: rest := (List.suffix_append [tag, len] rest).isInfix
    rcases List.mem_cons.1 h with rfl | h
    · exact (List.take_prefix len.toNat rest).isInfix.trans hrest
    · rw [hw] at ih
      exact ((ih h).trans (List.drop_suffix len.toNat rest).isInfix).trans hrest

namespace Nit

theorem descriptors_within {loop : Bytes} {e : Entry} (h : e ∈ (entries loop).1) :
    e.descriptors <:+: loop := by
  fun_induction entries loop with
  | case1 | case3 => simp at h
  | case2 t₁ t₀ n₁ n₀ l₁ l₀ rest declared streamId hl es err he ih =>
    have hrest : rest <:+: t₁ :: t₀ :: n₁ :: n₀ :: l₁ :: l₀ :: rest :=
      (List.suffix_append [t₁, t₀, n₁, n₀, l₁, l₀] rest).isInfix
    rcases List.mem_cons.1 h with rfl | h
    · exact (List.take_prefix declared rest).isInfix.trans hrest
    · rw [he] at ih
      exact ((ih h).trans (List.drop_suffix declared rest).isInfix).trans hrest

theorem loop_within {networkId : Nat} {payload network loop : Bytes}
    (h : split networkId payload = .ok (network, loop)) : loop <:+: payload := by
  unfold split at h
  split at h
  · next l₁ l₀ rest =>
    dsimp only at h
    split at h
    · simp at h
    · simp only [Except.ok.injEq, Prod.mk.injEq] at h
      rw [← h.2]
      exact (List.drop_suffix _ rest).isInfix.trans (List.suffix_append [l₁, l₀] rest).isInfix
  · simp at h

end Nit

theorem Section.payload_within {bytes : Bytes} {s : Section} (h : Section.parse bytes = .ok s) :
    s.payload <:+: bytes := by
  unfold parse at h
  split at h
  · next id l₁ l₀ body =>
    have hbody : body <:+: id :: l₁ :: l₀ :: body :=
      (List.suffix_append [id, l₁, l₀] body).isInfix
    refine List.IsInfix.trans ?_ hbody
    dsimp only at h
    split at h
    · simp at h
    · split at h
      · unfold parseLong at h
        split at h
        · next e₁ e₀ flags number last rest _ =>
          split at h
          · simp at h
          · obtain rfl := Except.ok.inj h
            exact (List.take_prefix _ rest).isInfix.trans
              (List.suffix_append [e₁, e₀, flags, number, last] rest).isInfix
        · simp at h
      · obtain rfl := Except.ok.inj h
        exact List.infix_rfl
  · simp at h

namespace Nit

def listings (s : Section) : List (List Descriptor) :=
  match split s.header.ext s.payload with
  | .ok (_, loop) => (entries loop).1.map fun e => Descriptor.all e.descriptors
  | .error _ => []

def Excessive (d : Descriptor) : Prop :=
  d.tag = Descriptor.cableTag ∧ d.IsDelivery ∧ Word.limit32 ≤ d.codedFrequency

theorem overflows_iff (e : Entry) :
    e.overflows = true ↔ ∃ d ∈ Descriptor.all e.descriptors, Excessive d := by
  unfold Entry.overflows
  rw [List.any_eq_true]
  refine exists_congr fun d => and_congr_right fun _ => ?_
  rw [Bool.and_eq_true, decide_eq_true_iff]
  refine and_congr_right fun ht => ?_
  have hd : d.IsDelivery ↔ 11 ≤ d.data.length := by
    simp [Descriptor.IsDelivery, ht, Descriptor.cableTag, Descriptor.terrestrialTag]
  have hf : d.codedFrequency = 100 * Word.decimal (Word.digits (d.data.take 4)) := by
    simp [Descriptor.codedFrequency, ht, Descriptor.cableTag, Descriptor.satelliteTag]
  unfold Descriptor.cableOverflows
  by_cases hl : 11 ≤ d.data.length
  · obtain ⟨p, hp, -⟩ := Descriptor.cable_of_length hl
    simp [hp, hd, hl, hf]
  · simp [Descriptor.cable_of_short hl, hd, hl]

theorem expect_of_isNit {s : Section} (h : s.IsNit) : expect s = .ok () := by
  unfold expect
  split
  · rfl
  · next hother =>
    have hactual : s.header.tableId = actualId := h.resolve_right hother
    rw [Section.expectTable_eq, if_pos hactual]

theorem parse_of_isNit {s : Section} (h : s.IsNit) :
    Nit.parse s = match split s.header.ext s.payload with
      | .error e => .error (.inconsistent e)
      | .ok (network, loop) =>
        if (entries loop).1.any (·.overflows) then .error .overflow
        else .ok {
          tableId := s.header.tableId
          networkId := s.header.ext
          version := s.header.version
          name := networkName network
          multiplexes := (entries loop).1.map (·.decode)
          truncated := (entries loop).2 } := by
  unfold parse
  rw [expect_of_isNit h]
  cases split s.header.ext s.payload with
  | error e => rfl
  | ok r => rfl

structure Fits (m : Multiplex) : Prop where
  frequency : m.frequency < Word.limit32
  symbolRate : ∀ r ∈ m.delivery.bind Delivery.symbolRate, r < Word.limit32
  alternates : ∀ f ∈ m.alternates, f < Word.limit32

theorem codedSymbolRate_lt {d : Descriptor} {r : Nat} (h : d.IsDelivery)
    (hr : r ∈ d.codedSymbolRate) : r < Word.limit32 := by
  unfold Descriptor.codedSymbolRate at hr
  split at hr
  · simp at hr
  · next ht =>
    have hl : 11 ≤ d.data.length := by
      rcases h with ⟨-, hl⟩ | ⟨ht', -⟩
      · exact hl
      · exact absurd ht' ht
    obtain rfl := Option.some.inj hr
    have hlen : ((Word.digits ((d.data.drop 7).take 4)).take 7 ++ [0]).length = 8 := by
      simp [Word.length_digits]
      omega
    have hdigit : ∀ x ∈ (Word.digits ((d.data.drop 7).take 4)).take 7 ++ [0], x ≤ 15 := by
      rw [List.forall_mem_append]
      exact ⟨fun x hx => Word.digit_le (List.mem_of_mem_take hx), by simp⟩
    have hd := Word.decimal_le hdigit
    rw [hlen] at hd
    unfold Word.limit32
    omega

theorem keptFrequency_lt {d : Descriptor} (h : d.IsDelivery) (hx : ¬ Excessive d) :
    Multiplex.keptFrequency d < Word.limit32 := by
  unfold Multiplex.keptFrequency
  split
  · exact Nat.mod_lt _ (by decide)
  · next ht =>
    obtain ⟨hc, hl⟩ := h.resolve_right fun h => ht h.1
    rcases hc with hc | hc
    · have hfour : (d.data.take 4).length = 4 := by
        rw [List.length_take]
        omega
      have hd := Word.decimal_digits_le hfour
      unfold Descriptor.codedFrequency Word.limit32
      rw [if_pos hc]
      omega
    · exact Nat.lt_of_not_le fun hle => hx ⟨hc, h, hle⟩

theorem fits_of_carries {ds : List Descriptor} {m : Multiplex} (h : Multiplex.Carries ds m)
    (hx : ∀ d ∈ ds, ¬ Excessive d) : Fits m where
  frequency := by
    rw [h.frequency]
    cases hl : Multiplex.lastDelivery ds with
    | none => decide
    | some d =>
      obtain ⟨hm, hd⟩ := List.mem_filter.1 (List.mem_of_getLast? hl)
      exact keptFrequency_lt (of_decide_eq_true hd) (hx d hm)
  symbolRate r hr := by
    rw [h.symbolRate] at hr
    obtain ⟨d, hl, hr⟩ := Option.bind_eq_some_iff.1 hr
    obtain ⟨-, hd⟩ := List.mem_filter.1 (List.mem_of_getLast? hl)
    exact codedSymbolRate_lt (of_decide_eq_true hd) hr
  alternates f hf := by
    rw [h.alternates] at hf
    obtain ⟨g, -, rfl⟩ := List.mem_map.1 hf
    exact Nat.mod_lt g (by decide)

/-- A network table decodes unless a cable frequency is too large for 32 bits. Everything that is
decoded lies within the section, and all numbers fit 32 bits and are what is coded, but of a
terrestrial frequency the lower 32 bits only. -/
theorem parse_numbers {bytes : Bytes} {s : Section} (h : Section.parse bytes = .ok s)
    (hn : s.IsNit) :
    (∀ ds ∈ listings s, ∀ d ∈ ds, d.data <:+: bytes) ∧
    (Nit.parse s = .error .overflow ↔ ∃ ds ∈ listings s, ∃ d ∈ ds, Excessive d) ∧
    ∀ t, Nit.parse s = .ok t →
      List.Forall₂ Multiplex.Carries (listings s) t.multiplexes ∧ ∀ m ∈ t.multiplexes, Fits m := by
  have hp := Section.payload_within h
  rw [parse_of_isNit hn]
  unfold listings
  cases hs : split s.header.ext s.payload with
  | error e => simp
  | ok r =>
    obtain ⟨network, loop⟩ := r
    dsimp only
    have hover : (entries loop).1.any (·.overflows) = true ↔
        ∃ ds ∈ (entries loop).1.map fun e => Descriptor.all e.descriptors, ∃ d ∈ ds,
          Excessive d := by
      simp [List.any_eq_true, overflows_iff]
    refine ⟨fun ds hds d hd => ?_, ?_, fun t ht => ?_⟩
    · obtain ⟨e, he, rfl⟩ := List.mem_map.1 hds
      exact (((Descriptor.data_within hd).trans (descriptors_within he)).trans
        (loop_within hs)).trans hp
    · rw [← hover]
      split <;> simp [*]
    · split at ht
      · simp at ht
      · next ho =>
        obtain rfl := Except.ok.inj ht
        refine ⟨?_, fun m hm => ?_⟩
        · rw [List.forall₂_map_left_iff, List.forall₂_map_right_iff, List.forall₂_same]
          exact fun e _ => Multiplex.carries_decode e
        · obtain ⟨e, he, rfl⟩ := List.mem_map.1 hm
          refine fits_of_carries (Multiplex.carries_decode e) fun d hd hx => ho ?_
          exact hover.2 ⟨_, List.mem_map_of_mem he, d, hd, hx⟩

/-- A terrestrial multiplex on a frequency beyond 32 bits, listed as its own alternate as well, and
a satellite one whose digits are all 15. -/
def wrappedBytes : Bytes :=
  [0x41, 0xF0, 0x3E, 0x00, 0x01, 0xC1, 0x00, 0x00, 0xF0, 0x00, 0xF0, 0x31, 0x00, 0x01, 0x00, 0x01,
    0xF0, 0x18, 0x5A, 0x0B, 0x19, 0x99, 0x99, 0x9A, 0x1F, 0x81, 0x02, 0xFF, 0xFF, 0xFF, 0xFF,
    0x62, 0x09, 0x03, 0x19, 0x99, 0x99, 0x9A, 0x03, 0x10, 0x4D, 0x40, 0x00, 0x02, 0x00, 0x01,
    0xF0, 0x0D, 0x43, 0x0B, 0xFF, 0xFF, 0xFF, 0xFF, 0x01, 0x92, 0x22, 0xFF, 0xFF, 0xFF, 0xFF,
    0x00, 0x00, 0x00, 0x00]

def wrappedSection : Section := (Section.parse wrappedBytes).toOption.getD default

theorem parse_numbers_wrapped :
    Section.parse wrappedBytes = .ok wrappedSection ∧ wrappedSection.IsNit ∧
      ∃ t, Nit.parse wrappedSection = .ok t ∧
        t.multiplexes.map (fun m => (m.frequency, m.alternates)) =
          [(4, [4, 514000000]), (1666666650, [])] ∧
        List.Forall₂ Multiplex.Carries (listings wrappedSection) t.multiplexes ∧
        ∀ m ∈ t.multiplexes, Fits m := by
  have hs : Section.parse wrappedBytes = .ok wrappedSection := rfl
  have hn : wrappedSection.IsNit := .inr rfl
  have ht : ((Nit.parse wrappedSection).toOption.map fun t =>
      t.multiplexes.map fun m => (m.frequency, m.alternates)) =
        some [(4, [4, 514000000]), (1666666650, [])] := by decide +kernel
  cases hp : Nit.parse wrappedSection with
  | error e => simp [hp, Except.toOption] at ht
  | ok t =>
    rw [hp] at ht
    exact ⟨hs, hn, t, rfl, Option.some.inj ht, (parse_numbers hs hn).2.2 t hp⟩

/-- The cable frequency 42949673 in units of 100 Hz. -/
def excessiveBytes : Bytes :=
  [0x40, 0xF0, 0x20, 0x00, 0x01, 0xC1, 0x00, 0x00, 0xF0, 0x00, 0xF0, 0x13, 0x00, 0x01, 0x00, 0x01,
    0xF0, 0x0D, 0x44, 0x0B, 0x42, 0x94, 0x96, 0x73, 0xFF, 0xF2, 0x03, 0x00, 0x69, 0x00, 0x00,
    0x00, 0x00, 0x00, 0x00]

def excessiveSection : Section := (Section.parse excessiveBytes).toOption.getD default

/-- Eight decimal digits can end the program, and a terrestrial frequency of 4294967300 Hz is taken
for 4 Hz. -/
theorem parse_excessive :
    Section.parse excessiveBytes = .ok excessiveSection ∧
      excessiveSection.header.tableId = actualId ∧
      Nit.parse excessiveSection = .error .overflow ∧
      Section.parse wrappedBytes = .ok wrappedSection ∧
      wrappedSection.header.tableId = otherId ∧
      ((listings wrappedSection).map fun ds =>
        (Multiplex.lastDelivery ds).map Descriptor.codedFrequency) =
          [some 4294967300, some 1666666650] ∧
      (Nit.parse wrappedSection).toOption.map (fun t => t.multiplexes.map (·.frequency)) =
        some [4, 1666666650] := by
  refine ⟨rfl, rfl, ?_, rfl, rfl, ?_, ?_⟩ <;> decide +kernel

end Nit

end Bandscan
