namespace Bandscan.Hex

def digits (width n : Nat) : List Char :=
  let ds := Nat.toDigits 16 n
  List.replicate (width - ds.length) '0' ++ ds

def lower (width n : Nat) : String := String.ofList (digits width n)

def upper (width n : Nat) : String := String.ofList ((digits width n).map Char.toUpper)

/-- `0x` and at least four digits, the way identifiers are shown. -/
def word (n : Nat) : String := "0x" ++ lower 4 n

def octet (n : Nat) : String := "0x" ++ lower 2 n

def octetUpper (n : Nat) : String := "0x" ++ upper 2 n

def ofBytes (bytes : List UInt8) : String :=
  String.ofList (bytes.flatMap fun b => digits 2 b.toNat)

def digit? (c : Char) : Option Nat :=
  if '0' ≤ c ∧ c ≤ '9' then some (c.toNat - '0'.toNat)
  else if 'a' ≤ c ∧ c ≤ 'f' then some (c.toNat - 'a'.toNat + 10)
  else if 'A' ≤ c ∧ c ≤ 'F' then some (c.toNat - 'A'.toNat + 10)
  else none

/-- Reads pairs of digits, up to the first pair that is not one. -/
def toBytes : List Char → List UInt8
  | h :: l :: rest =>
    match digit? h, digit? l with
    | some h, some l => UInt8.ofNat (16 * h + l) :: toBytes rest
    | _, _ => []
  | _ => []

end Bandscan.Hex
