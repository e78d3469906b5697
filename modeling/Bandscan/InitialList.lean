import Bandscan.Text.Blank
import Bandscan.Text.Numeral
import Bandscan.Network.Basic
/-!
The list of multiplexes that a scan starts from, one on a line:

    S 12551500 V 22000000 5/6
    C 346000000 6900000 NONE QAM64
    T 506000000 8MHz 2/3 NONE QAM64 8k 1/32 NONE

A `#` starts a comment. Fields beyond the last one that is needed are not looked at. A line that
cannot be read is reported and left out.
-/

namespace Bandscan.InitialList

inductive LineError where
  | unknownSystem (word : String)
  | missing (field : String)
  | number (field value : String)
  | token (e : UnknownToken)
  deriving DecidableEq, Repr

def LineError.message : LineError → String
  | unknownSystem word => s!"unknown delivery system '{word}'"
  | missing field => s!"missing {field}"
  | number field value => s!"invalid {field} '{value}'"
  | token e => e.message

structure Entry where
  frequency : Nat
  delivery : Delivery
  deriving DecidableEq, Repr

structure Cursor where
  fields : List String
  notes : List Note := []

/-- Reads fields from left to right. Remarks survive an error. -/
abbrev FieldReader := ExceptT LineError (StateM Cursor)

namespace FieldReader

def next (field : String) : FieldReader String := do
  match (← get).fields with
  | [] => throw (.missing field)
  | w :: ws =>
    modify fun c => { c with fields := ws }
    return w

def number (field : String) : FieldReader Nat := do
  let value ← next field
  match Numeral.parse Numeral.limit32 value.toList with
  | .ok n => return n
  | .error _ => throw (.number field value)

/-- A word that stands for no value is reported and taken for `auto`. -/
def token {α : Type} (field : String) (parse : String → Except UnknownToken α) (auto : α) :
    FieldReader α := do
  match parse (← next field) with
  | .ok a => return a
  | .error e =>
    modify fun c => { c with notes := c.notes ++ [.error (e.message ++ ", using AUTO")] }
    return auto

def codeRate (field : String) : FieldReader CodeRate := token field CodeRate.parse .auto

def modulation (field : String) : FieldReader Modulation := token field Modulation.parse .auto

end FieldReader

open FieldReader

def satellite : FieldReader Entry := do
  let frequency ← number "frequency"
  match Polarisation.parse (← next "polarisation") with
  | .error e => throw (.token e)
  | .ok polarisation =>
    let symbolRate ← number "symbol rate"
    let fec ← codeRate "fec"
    return {
      frequency
      delivery := .satellite
        { symbolRate, fec, polarisation, orbitalPosition := 0, east := false } }

def cable : FieldReader Entry := do
  let frequency ← number "frequency"
  let symbolRate ← number "symbol rate"
  let fec ← codeRate "fec"
  let m ← modulation "modulation"
  return { frequency, delivery := .cable { symbolRate, fec, modulation := m } }

def terrestrial : FieldReader Entry := do
  let frequency ← number "frequency"
  let bandwidth ← token "bandwidth" Bandwidth.parse .auto
  let codeRateHigh ← codeRate "fec HP"
  let codeRateLow ← codeRate "fec LP"
  let constellation ← modulation "constellation"
  let mode ← token "transmission mode" TransmissionMode.parse .auto
  let guardInterval ← token "guard interval" GuardInterval.parse .auto
  let hierarchy ← token "hierarchy" Hierarchy.parse .auto
  return { frequency,
           delivery := .terrestrial { bandwidth, codeRateHigh, codeRateLow, constellation, mode,
                                      guardInterval, hierarchy, otherFrequency := false } }

def fieldsOf (line : List Char) : List String :=
  (Text.words (line.takeWhile (· ≠ '#'))).map String.ofList

def readLine (line : List Char) : Except LineError (Option Entry) × List Note :=
  match fieldsOf line with
  | [] => (.ok none, [])
  | system :: fields =>
    let reader : FieldReader Entry :=
      if system = "S" then satellite
      else if system = "C" then cable
      else if system = "T" then terrestrial
      else throw (.unknownSystem system)
    let (r, cursor) := reader.run.run { fields }
    (r.map some, cursor.notes)

def readLines : List (List Char × Nat) → List Entry × List Note
  | [] => ([], [])
  | (line, i) :: rest =>
    let (r, notes) := readLine line
    let (entries, more) := readLines rest
    match r with
    | .ok e => (e.toList ++ entries, notes ++ more)
    | .error e =>
      let told := Note.warn (s!"cannot parse line {i + 1}: " ++ e.message ++ " ('"
        ++ String.ofList (Text.trim line) ++ "')")
      (entries, notes ++ told :: more)

def read (text : String) : List Entry × List Note := readLines (Text.lines text.toList).zipIdx

def loadEntry (n : Network) (e : Entry) : Network :=
  (n.alloc e.frequency).modify n.nextId fun tp => { tp with delivery := some e.delivery }

def load (entries : List Entry) (n : Network) : Network := entries.foldl loadEntry n

def loadNotes (entries : List Entry) : List Note :=
  entries.map fun e => .debug s!"initial transponder {e.frequency} {e.delivery.kind.name}"

end Bandscan.InitialList
