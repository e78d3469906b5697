import Bandscan.Device.Interface
import Bandscan.Text.Blank
import Bandscan.Text.Numeral

namespace Bandscan

/-- The oscillators of a low noise block converter, in MHz. With `high` and `switch` not 0, the
high oscillator serves frequencies from `switch` on. -/
structure Lnb where
  low : Nat
  high : Nat := 0
  switch : Nat := 0
  deriving DecidableEq, Repr

namespace Lnb

inductive Error where
  | frequency (value : String) (e : Numeral.Error)
  | tooMany (text : String)
  | tooHigh (value : Nat)
  deriving DecidableEq, Repr

/-- Every frequency must fit 32 bits when converted to kHz. -/
def maxMHz : Nat := 4294967

def Error.message : Error → String
  | frequency value e => s!"invalid LNB frequency '{value}': {e.message}"
  | tooMany text => s!"too many values in LNB specification '{text}'"
  | tooHigh value => s!"LNB frequency {value} MHz is above {maxMHz} MHz"

def universal : Lnb := { low := 9750, high := 10600, switch := 11700 }

def check (l : Lnb) : Except Error Unit :=
  match [l.low, l.high, l.switch].find? (· > maxMHz) with
  | some v => .error (.tooHigh v)
  | none => .ok ()

def parseFrequency (value : List Char) : Except Error Nat :=
  (Numeral.parse Numeral.limit32 (Text.trim value)).mapError (.frequency (String.ofList value))

/-- Reads `low`, `low,high` or `low,high,switch`. Values beyond the third are not looked at. -/
def parse (text : String) : Except Error Lnb := do
  let values := Text.splitAt ',' text.toList
  let fs ← (values.take 3).mapM parseFrequency
  if values.length > 3 then throw (.tooMany text)
  let l : Lnb := { low := fs.getD 0 0, high := fs.getD 1 0, switch := fs.getD 2 0 }
  l.check
  return l

def maxKHz : Nat := 4294967295

def inKHz (mhz : Nat) : Nat := min (1000 * mhz) maxKHz

def isHighBand (l : Lnb) (frequency : Nat) : Bool :=
  l.switch ≠ 0 && l.high ≠ 0 && inKHz l.switch ≤ frequency

/-- The intermediate frequency of a satellite frequency, both in kHz, and whether it lies in the
high band. -/
def intermediate (l : Lnb) (frequency : Nat) : Nat × Bool :=
  let oscillator := inKHz (if l.isHighBand frequency then l.high else l.low)
  ((frequency - oscillator) + (oscillator - frequency), l.isHighBand frequency)

end Lnb

/-- How hard to try to tune. The delay before each look at the lock is in microseconds. -/
structure TuneOptions where
  attempts : Nat := 2
  lockPolls : Nat := 10
  lockDelay : Nat := 200000
  deriving DecidableEq, Repr

namespace Frontend

variable {δ : Type}

def awaitLock (fe : Frontend δ) (frequency attempt delay : Nat) : Nat → World δ → Bool × World δ
  | 0, w => (false, w)
  | polls + 1, w =>
    match fe.hasLock (w.sleep delay) with
    | (.ok true, w) => (true, w.tell (.debug s!"{frequency}: lock after attempt {attempt}"))
    | (.ok false, w) => fe.awaitLock frequency attempt delay polls w
    | (.error e, w) => (false, w.tell (.warn s!"{frequency}: {e.message}"))

/-- One attempt after another. An error of the device is a failed attempt. -/
def attempt (fe : Frontend δ) (tp : Transponder) (o : TuneOptions) (number : Nat) :
    Nat → World δ → Bool × World δ
  | 0, w => (false, w)
  | left + 1, w =>
    match fe.set tp (w.tell (.info s!"tuning to {tp.frequency}")) with
    | (.error e, w) =>
      fe.attempt tp o (number + 1) left (w.tell (.warn s!"{tp.frequency}: {e.message}"))
    | (.ok (), w) =>
      match fe.awaitLock tp.frequency number o.lockDelay o.lockPolls w with
      | (true, w) => (true, w)
      | (false, w) =>
        fe.attempt tp o (number + 1) left (w.tell (.warn ">>> tuning failed!!!"))

def tune (fe : Frontend δ) (tp : Transponder) (o : TuneOptions) (w : World δ) : Bool × World δ :=
  fe.attempt tp o 1 (max 1 o.attempts) w

end Frontend

end Bandscan
