import Bandscan.Tuning
import Bandscan.Proofs.Fallible
import Bandscan.Proofs.WrittenWords
/-!
The frequencies of a converter. Those that pass the check are read back as they are written, and an
intermediate frequency is worked out from them without reaching the limit of 32 bits.
-/

namespace Bandscan.Lnb

variable {l : Lnb}

structure InRange (l : Lnb) : Prop where
  low : l.low ≤ 4294967
  high : l.high ≤ 4294967
  switch : l.switch ≤ 4294967

theorem check_eq_ok_iff : l.check = .ok () ↔ l.InRange := by
  have hfind : [l.low, l.high, l.switch].find? (· > maxMHz) = none ↔ l.InRange := by
    simp only [List.find?_eq_none, List.forall_mem_cons, decide_eq_true_eq, gt_iff_lt, not_lt,
      List.not_mem_nil, false_implies, implies_true, and_true]
    exact ⟨fun ⟨hl, hh, hs⟩ => ⟨hl, hh, hs⟩, fun ⟨hl, hh, hs⟩ => ⟨hl, hh, hs⟩⟩
  rw [← hfind, check]
  split
  case h_1 v hv => simp [hv]
  case h_2 hv => simp [hv]

theorem check_of_parse {text : String} (h : parse text = .ok l) : l.check = .ok () := by
  simp only [parse, bind_eq_ok] at h
  obtain ⟨fs, -, h⟩ := h
  split at h
  · simp at h
  · simp only [bind_eq_ok, pure_eq_ok] at h
    obtain ⟨_, hcheck, rfl⟩ := h
    exact hcheck

/-- Decimal numbers with commas between them. -/
def listing (vs : List Nat) : String := ",".intercalate (vs.map toString)

theorem splitAt_listing {vs : List Nat} (hne : vs ≠ []) :
    Text.splitAt ',' (listing vs).toList = vs.map (Nat.toDigits 10) := by
  have hpieces : (vs.map toString).map String.toList = vs.map (Nat.toDigits 10) := by
    rw [List.map_map]
    exact List.map_congr_left fun v _ => Nat.toList_repr
  rw [listing, String.toList_intercalate, hpieces]
  apply Text.splitAt_intercalate (by simpa using hne)
  intro cs hcs hcomma
  obtain ⟨v, -, rfl⟩ := List.mem_map.1 hcs
  exact absurd (Nat.isDigit_of_mem_toDigits (by decide) (by decide) hcomma) (by decide)

theorem parseFrequency_toDigits {v : Nat} (h : v ≤ maxMHz) :
    parseFrequency (Nat.toDigits 10 v) = .ok v := by
  have hdigits : ∀ c ∈ Nat.toDigits 10 v, Text.isBlank c = false := fun c hc =>
    Text.isBlank_of_isDigit (Nat.isDigit_of_mem_toDigits (by decide) (by decide) hc)
  have hlimit : v < Numeral.limit32 := Nat.lt_of_le_of_lt h (by decide)
  rw [parseFrequency, Text.trim_of_forall hdigits,
    Numeral.parse_of_writes (Numeral.writes_toDigits v) hlimit]
  rfl

theorem parse_listing (h : l.InRange) : parse (listing [l.low, l.high, l.switch]) = .ok l := by
  have hvalues : Text.splitAt ',' (listing [l.low, l.high, l.switch]).toList = _ :=
    splitAt_listing (by simp)
  have hcheck := check_eq_ok_iff.2 h
  simp [parse, hvalues, parseFrequency_toDigits h.low, parseFrequency_toDigits h.high,
    parseFrequency_toDigits h.switch, hcheck]

def IsHigh (l : Lnb) (frequency : Nat) : Prop :=
  l.high ≠ 0 ∧ l.switch ≠ 0 ∧ 1000 * l.switch ≤ frequency

instance (l : Lnb) (frequency : Nat) : Decidable (l.IsHigh frequency) :=
  inferInstanceAs (Decidable (_ ∧ _))

/-- The oscillator that a frequency in kHz is received with, in MHz. -/
def oscillator (l : Lnb) (frequency : Nat) : Nat :=
  if l.IsHigh frequency then l.high else l.low

theorem inKHz_of_le {mhz : Nat} (h : mhz ≤ maxMHz) : inKHz mhz = 1000 * mhz := by
  apply Nat.min_eq_left
  unfold maxMHz at h
  unfold maxKHz
  omega

theorem isHighBand_eq (h : l.InRange) (frequency : Nat) :
    l.isHighBand frequency = decide (l.IsHigh frequency) := by
  rw [isHighBand, inKHz_of_le h.switch, Bool.eq_iff_iff]
  simp only [Bool.and_eq_true, decide_eq_true_eq]
  exact ⟨fun ⟨⟨hs, hh⟩, hf⟩ => ⟨hh, hs, hf⟩, fun ⟨hh, hs, hf⟩ => ⟨⟨hs, hh⟩, hf⟩⟩

theorem intermediate_eq (h : l.InRange) (frequency : Nat) :
    l.intermediate frequency =
      (((frequency : Int) - 1000 * l.oscillator frequency).natAbs,
        decide (l.IsHigh frequency)) := by
  have hoscillator : inKHz (if l.isHighBand frequency then l.high else l.low) =
      1000 * l.oscillator frequency := by
    simp only [isHighBand_eq h, decide_eq_true_eq, oscillator]
    split
    case isTrue => exact inKHz_of_le h.high
    case isFalse => exact inKHz_of_le h.low
  rw [intermediate, hoscillator, isHighBand_eq h, Prod.mk.injEq]
  refine ⟨?_, rfl⟩
  omega

end Bandscan.Lnb
