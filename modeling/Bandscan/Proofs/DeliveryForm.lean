import Bandscan.Proofs.CodedNumbers
/-!
The three forms of a delivery descriptor. `encode` writes each field in its place, whatever the bits
between the fields are and whatever follows them, and the decoders get `content` back: every
description that has a code is the content of some form.
-/

namespace Bandscan

namespace Word

variable {ds : List Nat}

def pack : List Nat → Bytes
  | a :: b :: ds => UInt8.ofNat (16 * a + b) :: pack ds
  | _ => []

def decimals : Nat → Nat → List Nat
  | 0, _ => []
  | width + 1, n => decimals width (n / 10) ++ [n % 10]

def code32 (n : Nat) : Bytes := code16 (n / 65536) ++ code16 (n % 65536)

theorem digits_pack (hd : ∀ d ∈ ds, d < 16) (even : ds.length % 2 = 0) : digits (pack ds) = ds := by
  fun_induction pack ds with
  | case1 a b ds ih =>
    rw [List.forall_mem_cons, List.forall_mem_cons] at hd
    obtain ⟨ha, hb, hds⟩ := hd
    have hrest := ih hds (by simp only [List.length_cons] at even; omega)
    have hbyte : (UInt8.ofNat (16 * a + b)).toNat = 16 * a + b := by
      rw [UInt8.toNat_ofNat']
      omega
    have hhigh : (16 * a + b) / 16 = a := by omega
    have hlow : (16 * a + b) % 16 = b := by omega
    unfold digits at hrest ⊢
    rw [List.flatMap_cons, hrest, hbyte, hhigh, hlow]
    rfl
  | case2 ds hds =>
    match ds, even with
    | [], _ => rfl
    | a :: b :: ds, _ => exact absurd rfl (hds a b ds)

theorem bcd_pack (hd : ∀ d ∈ ds, d < 10) (even : ds.length % 2 = 0)
    (fits : decimal ds < limit32) : bcd (pack ds) = decimal ds := by
  rw [bcd_eq, digits_pack (fun d h => Nat.lt_trans (hd d h) (by decide)) even,
    Nat.mod_eq_of_lt fits]

@[simp]
theorem length_decimals (width n : Nat) : (decimals width n).length = width := by
  induction width generalizing n with
  | zero => rfl
  | succ width ih => rw [decimals, List.length_append, ih, List.length_singleton]

theorem decimals_lt {width n d : Nat} (h : d ∈ decimals width n) : d < 10 := by
  induction width generalizing n with
  | zero => simp [decimals] at h
  | succ width ih =>
    obtain h | h := List.mem_append.1 h
    · exact ih h
    · rw [List.mem_singleton.1 h]
      exact Nat.mod_lt n (by decide)

theorem decimal_decimals {width n : Nat} (h : n < 10 ^ width) : decimal (decimals width n) = n := by
  induction width generalizing n with
  | zero =>
    obtain rfl : n = 0 := by simpa using h
    rfl
  | succ width ih =>
    have hn : n / 10 < 10 ^ width := Nat.div_lt_of_lt_mul (by rwa [Nat.pow_succ'] at h)
    rw [decimals, decimal_concat, ih hn]
    exact Nat.mod_add_div n 10

theorem bcd_pack_decimals {width n : Nat} (even : width % 2 = 0) (h : n < 10 ^ width)
    (fits : n < limit32) : bcd (pack (decimals width n)) = n := by
  have hn := decimal_decimals h
  rw [bcd_pack (fun _ => decimals_lt) (by simpa using even) (by rwa [hn]), hn]

theorem exists_packed_eight {n : Nat} (h : n < 100000000) :
    ∃ a b c d, pack (decimals 8 n) = [a, b, c, d] ∧ bcd [a, b, c, d] = n := by
  have hbcd : bcd (pack (decimals 8 n)) = n :=
    bcd_pack_decimals rfl h (Nat.lt_trans h (by decide))
  exact ⟨_, _, _, _, rfl, hbcd⟩

theorem exists_packed_four {n : Nat} (h : n < 10000) :
    ∃ a b, pack (decimals 4 n) = [a, b] ∧ bcd [a, b] = n := by
  have hbcd : bcd (pack (decimals 4 n)) = n :=
    bcd_pack_decimals rfl h (Nat.lt_trans h (by decide))
  exact ⟨_, _, rfl, hbcd⟩

theorem exists_code32 {n : Nat} (h : n < limit32) :
    ∃ a b c d, code32 n = [a, b, c, d] ∧ w32 a b c d = n := by
  have hhigh : n / 65536 < 65536 := Nat.div_lt_of_lt_mul (by simpa [limit32] using h)
  have hlow : n % 65536 < 65536 := Nat.mod_lt n (by decide)
  refine ⟨_, _, _, _, rfl, ?_⟩
  rw [w32, w16_ofNat hhigh, w16_ofNat hlow]
  exact Nat.div_add_mod n 65536

end Word

/-- A decoder that takes the lowest bits for a position in a table. -/
structure Tabulated {α : Type} {k : Nat} (decode : Nat → α) (table : Vector α k) : Prop where
  lowest : ∀ bits, decode (bits % k) = decode bits
  listed : ∀ code : Fin k, decode code = table[code]

theorem Tabulated.eq {α : Type} {k : Nat} {decode : Nat → α} {table : Vector α k}
    (h : Tabulated decode table) {bits : Nat} {code : Fin k} (hb : bits % k = code) :
    decode bits = table[code] := by
  rw [← h.lowest, hb, h.listed]

def Listed {α : Type} {k : Nat} (table : Vector α k) (a : α) : Prop :=
  ∃ code : Fin k, table[code] = a

namespace CodeRate

def innerTable : Vector CodeRate 8 := #v[auto, r1_2, r2_3, r3_4, r5_6, r7_8, none, none]

def terrestrialTable : Vector CodeRate 8 := #v[r1_2, r2_3, r3_4, r5_6, r7_8, auto, auto, auto]

theorem tabulated_inner : Tabulated ofInnerBits innerTable :=
  ⟨fun _ => by simp only [ofInnerBits, Nat.mod_mod], by decide⟩

theorem tabulated_terrestrial : Tabulated ofTerrestrialBits terrestrialTable :=
  ⟨fun _ => by simp only [ofTerrestrialBits, Nat.mod_mod], by decide⟩

end CodeRate

namespace Modulation

def cableTable : Vector Modulation 16 :=
  #v[auto, qam16, qam32, qam64, qam128, qam256, auto, auto, auto, auto, auto, auto, auto, auto,
    auto, auto]

def constellationTable : Vector Modulation 4 := #v[qpsk, qam16, qam64, auto]

theorem tabulated_cable : Tabulated ofCableBits cableTable :=
  ⟨fun _ => by simp only [ofCableBits, Nat.mod_mod], by decide⟩

theorem tabulated_constellation : Tabulated ofConstellationBits constellationTable :=
  ⟨fun _ => by simp only [ofConstellationBits, Nat.mod_mod], by decide⟩

end Modulation

def Polarisation.table : Vector Polarisation 4 :=
  #v[horizontal, vertical, circularLeft, circularRight]

theorem Polarisation.listed (p : Polarisation) : Listed table p := by
  unfold Listed
  cases p <;> decide

theorem Polarisation.tabulated : Tabulated ofBits table :=
  ⟨fun _ => by simp only [ofBits, Nat.mod_mod], by decide⟩

def Bandwidth.table : Vector Bandwidth 4 := #v[mhz8, mhz7, mhz6, auto]

theorem Bandwidth.listed (b : Bandwidth) : Listed table b := by
  unfold Listed
  cases b <;> decide

theorem Bandwidth.tabulated : Tabulated ofBits table :=
  ⟨fun _ => by simp only [ofBits, Nat.mod_mod], by decide⟩

def GuardInterval.table : Vector GuardInterval 4 := #v[g1_32, g1_16, g1_8, g1_4]

theorem GuardInterval.tabulated : Tabulated ofBits table :=
  ⟨fun _ => by simp only [ofBits, Nat.mod_mod], by decide⟩

def Hierarchy.table : Vector Hierarchy 4 := #v[none, h1, h2, h4]

theorem Hierarchy.tabulated : Tabulated ofBits table :=
  ⟨fun _ => by simp only [ofBits, Nat.mod_mod], by decide⟩

namespace Descriptor

open Word

theorem nibble_lt (spare : Bool) (fec : Fin 8) : 8 * spare.toNat + fec < 16 := by
  have hs := Bool.toNat_le spare
  omega

/-- Symbol rate and code rate share the last byte: seven digits, a bit that is not looked at, and
the code. -/
theorem exists_packed_rate {m x : Nat} (hm : m < 10000000) (hx : x < 16) :
    ∃ a b c d, pack (decimals 7 m ++ [x]) = [a, b, c, d] ∧ symbolRate a b c d = 100 * m ∧
      d.toNat % 16 = x := by
  obtain ⟨a, b, c, d, hp⟩ : ∃ a b c d, pack (decimals 7 m ++ [x]) = [a, b, c, d] :=
    ⟨_, _, _, _, rfl⟩
  have hdigits : digits [a, b, c, d] = decimals 7 m ++ [x] := by
    rw [← hp]
    refine digits_pack (fun y hy => ?_) (by simp)
    obtain hy | hy := List.mem_append.1 hy
    · exact Nat.lt_trans (decimals_lt hy) (by decide)
    · rwa [List.mem_singleton.1 hy]
  refine ⟨a, b, c, d, hp, ?_, ?_⟩
  · rw [symbolRate_eq, hdigits, List.take_left' (length_decimals 7 m), decimal_concat,
      decimal_decimals hm]
    omega
  · have hlast := congrArg List.getLast? hdigits
    simpa [digits] using hlast

/-- All that a satellite descriptor codes, in units of 10 kHz, tenths of a degree and 100 symbols a
second. What `flags` and `spare` hold is not looked at. -/
structure SatelliteForm where
  frequency : Fin 100000000
  orbitalPosition : Fin 10000
  east : Bool
  polarisation : Fin 4
  flags : Fin 32
  symbolRate : Fin 10000000
  spare : Bool
  fec : Fin 8

namespace SatelliteForm

variable (f : SatelliteForm)

def encode : Bytes :=
  pack (decimals 8 f.frequency) ++ pack (decimals 4 f.orbitalPosition)
    ++ [UInt8.ofNat (128 * f.east.toNat + 32 * f.polarisation + f.flags)]
    ++ pack (decimals 7 f.symbolRate ++ [8 * f.spare.toNat + f.fec])

def content : Nat × SatelliteParameters :=
  (10 * f.frequency, {
    symbolRate := 100 * f.symbolRate
    fec := CodeRate.innerTable[f.fec]
    polarisation := Polarisation.table[f.polarisation]
    orbitalPosition := f.orbitalPosition
    east := f.east })

theorem polarisation_encode :
    (UInt8.ofNat (128 * f.east.toNat + 32 * f.polarisation + f.flags)).toNat / 32 % 4 =
      f.polarisation := by
  have he := Bool.toNat_le f.east
  have hp := f.polarisation.isLt
  have hflags := f.flags.isLt
  rw [UInt8.toNat_ofNat']
  omega

theorem east_encode :
    bit 7 (UInt8.ofNat (128 * f.east.toNat + 32 * f.polarisation + f.flags)) = f.east := by
  have hp := f.polarisation.isLt
  have hflags := f.flags.isLt
  simp only [bit, UInt8.toNat_ofNat', Nat.testBit_eq_decide_div_mod_eq]
  cases f.east
  · simp only [Bool.toNat_false, decide_eq_false_iff_not]
    omega
  · simp only [Bool.toNat_true, decide_eq_true_eq]
    omega

structure Codable (x : Nat × SatelliteParameters) : Prop where
  frequency : ∃ n < 100000000, x.1 = 10 * n
  orbitalPosition : x.2.orbitalPosition < 10000
  symbolRate : ∃ m < 10000000, x.2.symbolRate = 100 * m
  fec : Listed CodeRate.innerTable x.2.fec

theorem exists_content {x : Nat × SatelliteParameters} (h : Codable x) (flags : Fin 32)
    (spare : Bool) : ∃ f : SatelliteForm, f.content = x ∧ f.flags = flags ∧ f.spare = spare := by
  obtain ⟨frequency, rate, fec, polarisation, position, east⟩ := x
  obtain ⟨⟨n, hn, rfl⟩, hposition, ⟨m, hm, rfl⟩, ⟨code, rfl⟩⟩ := h
  obtain ⟨p, rfl⟩ := Polarisation.listed polarisation
  exact ⟨⟨⟨n, hn⟩, ⟨position, hposition⟩, east, p, flags, ⟨m, hm⟩, spare, code⟩, rfl, rfl, rfl⟩

theorem satellite_encode (rest : Bytes) : satellite (f.encode ++ rest) = .ok f.content := by
  obtain ⟨f₃, f₂, f₁, f₀, hf, hfrequency⟩ := exists_packed_eight f.frequency.isLt
  obtain ⟨o₁, o₀, ho, hposition⟩ := exists_packed_four f.orbitalPosition.isLt
  obtain ⟨s₃, s₂, s₁, s₀, hs, hrate, hcode⟩ :=
    exists_packed_rate f.symbolRate.isLt (nibble_lt f.spare f.fec)
  have hfec : CodeRate.ofInnerBits s₀.toNat = CodeRate.innerTable[f.fec] :=
    CodeRate.tabulated_inner.eq (by omega)
  rw [encode, hf, ho, hs]
  simp only [List.cons_append, List.nil_append]
  rw [satellite, hfrequency, hposition, hrate, hfec, east_encode,
    Polarisation.tabulated.eq f.polarisation_encode]
  rfl

end SatelliteForm

/-- All that a cable descriptor codes, in units of 100 Hz and 100 symbols a second, as far as 32
bits can hold the frequency. The outer code and the upper bits are not looked at. -/
structure CableForm where
  frequency : Fin 42949673
  outer : Fin 65536
  upper : Fin 16
  modulation : Fin 16
  symbolRate : Fin 10000000
  spare : Bool
  fec : Fin 8

namespace CableForm

variable (f : CableForm)

def encode : Bytes :=
  pack (decimals 8 f.frequency) ++ code16 f.outer
    ++ [UInt8.ofNat (16 * f.upper + f.modulation)]
    ++ pack (decimals 7 f.symbolRate ++ [8 * f.spare.toNat + f.fec])

def content : Nat × CableParameters :=
  (100 * f.frequency, {
    symbolRate := 100 * f.symbolRate
    fec := CodeRate.innerTable[f.fec]
    modulation := Modulation.cableTable[f.modulation] })

theorem modulation_encode :
    (UInt8.ofNat (16 * f.upper + f.modulation)).toNat % 16 = f.modulation := by
  have hu := f.upper.isLt
  have hm := f.modulation.isLt
  rw [UInt8.toNat_ofNat']
  omega

structure Codable (x : Nat × CableParameters) : Prop where
  frequency : ∃ n, 100 * n < limit32 ∧ x.1 = 100 * n
  symbolRate : ∃ m < 10000000, x.2.symbolRate = 100 * m
  fec : Listed CodeRate.innerTable x.2.fec
  modulation : Listed Modulation.cableTable x.2.modulation

theorem exists_content {x : Nat × CableParameters} (h : Codable x) (outer : Fin 65536)
    (upper : Fin 16) (spare : Bool) :
    ∃ f : CableForm, f.content = x ∧ f.outer = outer ∧ f.upper = upper ∧ f.spare = spare := by
  obtain ⟨frequency, rate, fec, modulation⟩ := x
  obtain ⟨⟨n, hn, rfl⟩, ⟨m, hm, rfl⟩, ⟨code, rfl⟩, ⟨q, rfl⟩⟩ := h
  have hn : n < 42949673 := by
    unfold limit32 at hn
    omega
  exact ⟨⟨⟨n, hn⟩, outer, upper, q, ⟨m, hm⟩, spare, code⟩, rfl, rfl, rfl, rfl⟩

theorem cable_encode (rest : Bytes) : cable (f.encode ++ rest) = .ok f.content := by
  obtain ⟨f₃, f₂, f₁, f₀, hf, hfrequency⟩ :=
    exists_packed_eight (Nat.lt_trans f.frequency.isLt (by decide))
  obtain ⟨s₃, s₂, s₁, s₀, hs, hrate, hcode⟩ :=
    exists_packed_rate f.symbolRate.isLt (nibble_lt f.spare f.fec)
  have hfec : CodeRate.ofInnerBits s₀.toNat = CodeRate.innerTable[f.fec] :=
    CodeRate.tabulated_inner.eq (by omega)
  rw [encode, hf, hs, code16]
  simp only [List.cons_append, List.nil_append]
  rw [cable, hfrequency, hrate, hfec, Modulation.tabulated_cable.eq f.modulation_encode]
  rfl

theorem cableOverflows_encode (rest : Bytes) : cableOverflows (f.encode ++ rest) = false := by
  have hf : 100 * f.frequency.val < limit32 := by
    have := f.frequency.isLt
    unfold limit32
    omega
  rw [cableOverflows, cable_encode]
  exact decide_eq_false (Nat.not_le.2 hf)

end CableForm

/-- All that a terrestrial descriptor codes, in units of 10 Hz, as far as 32 bits can hold the
frequency. Reserved bits, the priority, the interleaver and the upper bit of the mode are not looked
at. -/
structure TerrestrialForm where
  frequency : Fin 429496730
  upper : Bool
  bandwidth : Fin 4
  lower : Fin 32
  constellation : Fin 4
  interleaver : Bool
  hierarchy : Fin 4
  rateHigh : Fin 8
  rateLow : Fin 8
  guardInterval : Fin 4
  spare : Bool
  mode8k : Bool
  otherFrequency : Bool

namespace TerrestrialForm

variable (f : TerrestrialForm)

def band : UInt8 := UInt8.ofNat (128 * f.upper.toNat + 32 * f.bandwidth + f.lower)

def high : UInt8 :=
  UInt8.ofNat (64 * f.constellation + 32 * f.interleaver.toNat + 8 * f.hierarchy + f.rateHigh)

def low : UInt8 :=
  UInt8.ofNat (32 * f.rateLow + 8 * f.guardInterval + 4 * f.spare.toNat + 2 * f.mode8k.toNat
    + f.otherFrequency.toNat)

def encode : Bytes := code32 f.frequency ++ [f.band, f.high, f.low]

def content : Nat × TerrestrialParameters :=
  (10 * f.frequency, {
    bandwidth := Bandwidth.table[f.bandwidth]
    codeRateHigh := CodeRate.terrestrialTable[f.rateHigh]
    codeRateLow := CodeRate.terrestrialTable[f.rateLow]
    constellation := Modulation.constellationTable[f.constellation]
    mode := if f.mode8k then .mode8k else .mode2k
    guardInterval := GuardInterval.table[f.guardInterval]
    hierarchy := Hierarchy.table[f.hierarchy]
    otherFrequency := f.otherFrequency })

theorem bandwidth_encode : f.band.toNat / 32 % 4 = f.bandwidth := by
  have hu := Bool.toNat_le f.upper
  have hb := f.bandwidth.isLt
  have hl := f.lower.isLt
  rw [band, UInt8.toNat_ofNat']
  omega

theorem high_encode :
    f.high.toNat / 64 % 4 = f.constellation ∧ f.high.toNat / 8 % 4 = f.hierarchy ∧
      f.high.toNat % 8 = f.rateHigh := by
  have hc := f.constellation.isLt
  have hi := Bool.toNat_le f.interleaver
  have hh := f.hierarchy.isLt
  have hr := f.rateHigh.isLt
  rw [high, UInt8.toNat_ofNat']
  omega

theorem low_encode :
    f.low.toNat / 32 % 8 = f.rateLow ∧ f.low.toNat / 8 % 4 = f.guardInterval ∧
      f.low.toNat / 2 % 2 = f.mode8k.toNat ∧ f.low.toNat % 2 = f.otherFrequency.toNat := by
  have hr := f.rateLow.isLt
  have hg := f.guardInterval.isLt
  have hs := Bool.toNat_le f.spare
  have hm := Bool.toNat_le f.mode8k
  have ho := Bool.toNat_le f.otherFrequency
  rw [low, UInt8.toNat_ofNat']
  omega

theorem flags_encode : bit 1 f.low = f.mode8k ∧ bit 0 f.low = f.otherFrequency := by
  obtain ⟨-, -, hm, ho⟩ := f.low_encode
  have hone (b : Bool) : decide (b.toNat = 1) = b := by cases b <;> rfl
  simp only [bit, Nat.testBit_eq_decide_div_mod_eq, Nat.pow_one, Nat.pow_zero, Nat.div_one, hm, ho,
    hone, and_self]

structure Codable (x : Nat × TerrestrialParameters) : Prop where
  frequency : ∃ n, 10 * n < limit32 ∧ x.1 = 10 * n
  codeRateHigh : Listed CodeRate.terrestrialTable x.2.codeRateHigh
  codeRateLow : Listed CodeRate.terrestrialTable x.2.codeRateLow
  constellation : Listed Modulation.constellationTable x.2.constellation
  mode : x.2.mode ≠ .auto
  guardInterval : Listed GuardInterval.table x.2.guardInterval
  hierarchy : Listed Hierarchy.table x.2.hierarchy

theorem exists_content {x : Nat × TerrestrialParameters} (h : Codable x) (upper : Bool)
    (lower : Fin 32) (interleaver spare : Bool) :
    ∃ f : TerrestrialForm, f.content = x ∧ f.upper = upper ∧ f.lower = lower ∧
      f.interleaver = interleaver ∧ f.spare = spare := by
  obtain ⟨frequency, bandwidth, rateHigh, rateLow, constellation, mode, guard, hierarchy, other⟩ :=
    x
  obtain ⟨⟨n, hn, rfl⟩, ⟨high, rfl⟩, ⟨low, rfl⟩, ⟨c, rfl⟩, hmode, ⟨g, rfl⟩, ⟨i, rfl⟩⟩ := h
  obtain ⟨b, rfl⟩ := Bandwidth.listed bandwidth
  have hn : n < 429496730 := by
    unfold limit32 at hn
    omega
  cases mode with
  | mode2k =>
    exact ⟨⟨⟨n, hn⟩, upper, b, lower, c, interleaver, i, high, low, g, spare, false, other⟩,
      rfl, rfl, rfl, rfl, rfl⟩
  | mode8k =>
    exact ⟨⟨⟨n, hn⟩, upper, b, lower, c, interleaver, i, high, low, g, spare, true, other⟩,
      rfl, rfl, rfl, rfl, rfl⟩
  | auto => exact absurd rfl hmode

theorem terrestrial_encode (rest : Bytes) :
    terrestrial (f.encode ++ rest) = .ok f.content := by
  have hlimit : 10 * f.frequency.val < limit32 := by
    have hf := f.frequency.isLt
    unfold limit32
    omega
  obtain ⟨f₃, f₂, f₁, f₀, hf, hfrequency⟩ :=
    exists_code32 (n := f.frequency) (by omega)
  obtain ⟨hconstellation, hhierarchy, hrateHigh⟩ := f.high_encode
  obtain ⟨hrateLow, hguard, -⟩ := f.low_encode
  obtain ⟨hmode, hother⟩ := f.flags_encode
  rw [encode, hf]
  simp only [List.cons_append, List.nil_append]
  rw [terrestrial, tensOfHertz, hfrequency, Nat.mod_eq_of_lt hlimit, hmode, hother,
    Bandwidth.tabulated.eq f.bandwidth_encode, CodeRate.tabulated_terrestrial.eq hrateHigh,
    CodeRate.tabulated_terrestrial.eq hrateLow,
    Modulation.tabulated_constellation.eq hconstellation, GuardInterval.tabulated.eq hguard,
    Hierarchy.tabulated.eq hhierarchy]
  rfl

end TerrestrialForm

/-- Every description that has a code is the content of a form with any choice of the bits that are
not looked at, and the decoders get the content of every form back, whatever follows the fields.
Data without all of the fields is too short. An even number of decimal digits codes the number that
they denote. -/
theorem deliveries_decode_encode :
    (∀ x, SatelliteForm.Codable x → ∀ flags spare,
      ∃ f : SatelliteForm, f.content = x ∧ f.flags = flags ∧ f.spare = spare) ∧
    (∀ (f : SatelliteForm) (rest : Bytes), satellite (f.encode ++ rest) = .ok f.content) ∧
    (∀ x, CableForm.Codable x → ∀ outer upper spare,
      ∃ f : CableForm, f.content = x ∧ f.outer = outer ∧ f.upper = upper ∧ f.spare = spare) ∧
    (∀ (f : CableForm) (rest : Bytes), cable (f.encode ++ rest) = .ok f.content ∧
      cableOverflows (f.encode ++ rest) = false) ∧
    (∀ x, TerrestrialForm.Codable x → ∀ upper lower interleaver spare,
      ∃ f : TerrestrialForm, f.content = x ∧ f.upper = upper ∧ f.lower = lower ∧
        f.interleaver = interleaver ∧ f.spare = spare) ∧
    (∀ (f : TerrestrialForm) (rest : Bytes), terrestrial (f.encode ++ rest) = .ok f.content) ∧
    (∀ data : Bytes, data.length < 11 →
      satellite data = .error (.tooShort satelliteTag data.length) ∧
      cable data = .error (.tooShort cableTag data.length)) ∧
    (∀ data : Bytes, data.length < 7 →
      terrestrial data = .error (.tooShort terrestrialTag data.length)) ∧
    ∀ ds : List Nat, (∀ d ∈ ds, d < 10) → ds.length % 2 = 0 → decimal ds < limit32 →
      bcd (pack ds) = decimal ds :=
  ⟨fun _ h => SatelliteForm.exists_content h, SatelliteForm.satellite_encode,
    fun _ h => CableForm.exists_content h,
    fun f rest => ⟨f.cable_encode rest, f.cableOverflows_encode rest⟩,
    fun _ h => TerrestrialForm.exists_content h, TerrestrialForm.terrestrial_encode,
    fun _ h => ⟨satellite_of_short (Nat.not_le.2 h), cable_of_short (Nat.not_le.2 h)⟩,
    fun _ h => terrestrial_of_short (Nat.not_le.2 h), fun _ => bcd_pack⟩

def noisyForm : SatelliteForm where
  frequency := 1177800
  orbitalPosition := 192
  east := true
  polarisation := 1
  flags := 31
  symbolRate := 275000
  spare := true
  fec := Fin.last 7

def noisyContent : Nat × SatelliteParameters :=
  (11778000, {
    symbolRate := 27500000, fec := .none, polarisation := .vertical, orbitalPosition := 192
    east := true })

theorem deliveries_decode_encode_noisy :
    let short : Bytes := [0x01, 0x17, 0x78, 0x00, 0x01, 0x92, 0xBF, 0x02, 0x75, 0x00]
    let ds : List Nat := [4, 2, 9, 4, 9, 6, 7, 2, 9, 5]
    SatelliteForm.Codable noisyContent ∧
      (∃ f : SatelliteForm, f.content = noisyContent ∧ f.flags = 31 ∧ f.spare = true) ∧
      noisyForm.encode = short ++ [0x0F] ∧
      satellite (noisyForm.encode ++ [0xFF]) = .ok noisyContent ∧
      short.length < 11 ∧ satellite short = .error (.tooShort satelliteTag 10) ∧
      (∀ d ∈ ds, d < 10) ∧ decimal ds < limit32 ∧ bcd (pack ds) = decimal ds := by
  intro short ds
  have hx : SatelliteForm.Codable noisyContent :=
    ⟨⟨1177800, by decide, rfl⟩, by decide, ⟨275000, by decide, rfl⟩, ⟨7, rfl⟩⟩
  have hds : (∀ d ∈ ds, d < 10) ∧ decimal ds < limit32 := by decide
  obtain ⟨hcodable, hdecode, -, -, -, -, hshort, -, hbcd⟩ := deliveries_decode_encode
  exact ⟨hx, hcodable _ hx 31 true, by decide, hdecode noisyForm [0xFF], by decide,
    (hshort short (by decide)).1, hds.1, hds.2, hbcd ds hds.1 (by decide) hds.2⟩

end Descriptor

end Bandscan
