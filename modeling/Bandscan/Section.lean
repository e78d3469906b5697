import Bandscan.Word
import Bandscan.Text.Hex
/-!
A section is the unit in which tables are broadcast. One read of a section filter delivers
exactly one section, so a byte string is a section only if its declared length is its length.
-/

namespace Bandscan

inductive SectionError where
  | tooShort (size : Nat)
  | lengthMismatch (declared size : Nat)
  | noExtendedHeader (declared : Nat)
  | tableMismatch (expected actual : Nat)
  deriving DecidableEq, Repr

def SectionError.message : SectionError → String
  | tooShort size => s!"Section too short: {size} bytes"
  | lengthMismatch declared size =>
    s!"Section length mismatch: header declares {declared} + 3 bytes, got {size}"
  | noExtendedHeader declared => s!"Section length {declared} too small for extended header"
  | tableMismatch expected actual =>
    "Unexpected table id: expected " ++ Hex.octetUpper expected ++ ", got "
      ++ Hex.octetUpper actual

/-- The fields before the payload. In the short form only the first three are coded. -/
structure Header where
  tableId : Nat
  longForm : Bool
  length : Nat
  ext : Nat := 0
  version : Nat := 0
  currentNext : Bool := true
  number : Nat := 0
  last : Nat := 0
  deriving DecidableEq, Repr, Inhabited

structure Section where
  header : Header
  payload : Bytes
  deriving DecidableEq, Repr, Inhabited

namespace Section

def lengthEnd : Nat := 3

/-- The least length of the long form: five more header bytes and a four-byte checksum. -/
def longOverhead : Nat := 9

def parseLong (tableId declared : Nat) : Bytes → Except SectionError Section
  | e₁ :: e₀ :: flags :: number :: last :: body =>
    if declared < longOverhead then .error (.noExtendedHeader declared)
    else .ok {
      header := {
        tableId, longForm := true, length := declared
        ext := Word.w16 e₁ e₀
        version := flags.toNat / 2 % 32
        currentNext := Word.bit 0 flags
        number := number.toNat
        last := last.toNat }
      payload := body.take (body.length - 4) }
  | _ => .error (.noExtendedHeader declared)

/-- Reads one section. The checksum of the long form is not part of the payload and not checked. -/
def parse : Bytes → Except SectionError Section
  | id :: l₁ :: l₀ :: body =>
    let declared := Word.length l₁ l₀
    if body.length ≠ declared then .error (.lengthMismatch declared (body.length + lengthEnd))
    else if Word.bit 7 l₁ then parseLong id.toNat declared body
    else .ok { header := { tableId := id.toNat, longForm := false, length := declared },
               payload := body }
  | short => .error (.tooShort short.length)

def expect (s : Section) (tableId : Nat) : Except SectionError Unit :=
  if s.header.tableId = tableId then .ok () else .error (.tableMismatch tableId s.header.tableId)

def parseExpecting (bytes : Bytes) (tableId : Nat) : Except SectionError Section := do
  let s ← parse bytes
  s.expect tableId
  return s

def size (s : Section) : Nat := lengthEnd + s.header.length

end Section

end Bandscan
