/-!
Text fields of broadcast descriptors. A field carries neither its encoding nor a terminator:
control codes are dropped first, and what is left is read as UTF-8 if it is valid UTF-8 and
as Latin-1 otherwise.
-/

namespace Bandscan.Text

/-- C0 and C1 control codes. Dropping them also drops a leading character table selector. -/
def isControl (b : UInt8) : Bool := b < 0x20 || (0x80 ≤ b && b ≤ 0x9F)

def printable (bytes : List UInt8) : List UInt8 := bytes.filter (!isControl ·)

def latin1 (bytes : List UInt8) : String :=
  String.ofList (bytes.map fun b => Char.ofNat b.toNat)

def ofPrintable (bytes : List UInt8) : String :=
  (String.fromUTF8? bytes.toByteArray).getD (latin1 bytes)

def decode (bytes : List UInt8) : String := ofPrintable (printable bytes)

/-- A name, which is absent when nothing printable is left of it. -/
def decodeName (bytes : List UInt8) : Option String :=
  let kept := printable bytes
  if kept.isEmpty then none else some (ofPrintable kept)

end Bandscan.Text
