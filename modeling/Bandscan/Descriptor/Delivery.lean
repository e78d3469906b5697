import Bandscan.Descriptor
import Bandscan.Delivery.Parameters
/-!
Delivery descriptors: where and how a multiplex is sent. Frequencies are in kHz for satellites
and in Hz otherwise. Each decoder answers `tooShort` for data without all of its fields and
ignores what follows them.
-/

namespace Bandscan.Descriptor

/-- Seven digits in units of 100 symbols a second; the eighth nibble holds the code rate. -/
def symbolRate (a b c d : UInt8) : Nat :=
  10 * Word.bcd [a, b, c, UInt8.ofNat (d.toNat / 16 * 16)]

def satellite : Bytes → Except DescriptorError (Nat × SatelliteParameters)
  | f₃ :: f₂ :: f₁ :: f₀ :: o₁ :: o₀ :: flags :: s₃ :: s₂ :: s₁ :: s₀ :: _ =>
    .ok (10 * Word.bcd [f₃, f₂, f₁, f₀], {
      symbolRate := symbolRate s₃ s₂ s₁ s₀
      fec := .ofInnerBits s₀.toNat
      polarisation := .ofBits (flags.toNat / 32)
      orbitalPosition := Word.bcd [o₁, o₀]
      east := Word.bit 7 flags })
  | short => .error (.tooShort satelliteTag short.length)

/-- The frequency is not bounded by 32 bits: see `cableOverflows`. -/
def cable : Bytes → Except DescriptorError (Nat × CableParameters)
  | f₃ :: f₂ :: f₁ :: f₀ :: _ :: _ :: modulation :: s₃ :: s₂ :: s₁ :: s₀ :: _ =>
    .ok (100 * Word.bcd [f₃, f₂, f₁, f₀], {
      symbolRate := symbolRate s₃ s₂ s₁ s₀
      fec := .ofInnerBits s₀.toNat
      modulation := .ofCableBits modulation.toNat })
  | short => .error (.tooShort cableTag short.length)

def cableOverflows (data : Bytes) : Bool :=
  match cable data with
  | .ok (frequency, _) => Word.limit32 ≤ frequency
  | .error _ => false

/-- A coded frequency in units of 10 Hz, kept modulo 2 ^ 32. -/
def tensOfHertz (a b c d : UInt8) : Nat := 10 * Word.w32 a b c d % Word.limit32

def terrestrial : Bytes → Except DescriptorError (Nat × TerrestrialParameters)
  | f₃ :: f₂ :: f₁ :: f₀ :: band :: high :: low :: _ =>
    .ok (tensOfHertz f₃ f₂ f₁ f₀, {
      bandwidth := .ofBits (band.toNat / 32)
      codeRateHigh := .ofTerrestrialBits high.toNat
      codeRateLow := .ofTerrestrialBits (low.toNat / 32)
      constellation := .ofConstellationBits (high.toNat / 64)
      mode := if Word.bit 1 low then .mode8k else .mode2k
      guardInterval := .ofBits (low.toNat / 8)
      hierarchy := .ofBits (high.toNat / 8)
      otherFrequency := Word.bit 0 low })
  | short => .error (.tooShort terrestrialTag short.length)

/-- The coding type of a frequency list, and the alternate frequencies of a terrestrial one. -/
def frequencyList : Bytes → Except DescriptorError (Nat × List Nat)
  | coding :: list =>
    if coding.toNat % 4 = 3 then
      .ok (3, (Word.quads list).map fun (a, b, c, d) => tensOfHertz a b c d)
    else .ok (coding.toNat % 4, [])
  | [] => .error (.tooShort frequencyListTag 0)

end Bandscan.Descriptor
