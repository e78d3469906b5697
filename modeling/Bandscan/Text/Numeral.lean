/-!
Unsigned numerals with an upper limit: an optional plus sign and digits. The first thing wrong,
read from the left, is the error.
-/

namespace Bandscan.Numeral

inductive Error where
  | empty | invalidDigit | tooLarge
  deriving DecidableEq, Repr

def Error.message : Error → String
  | empty => "cannot parse integer from empty string"
  | invalidDigit => "invalid digit found in string"
  | tooLarge => "number too large to fit in target type"

/-- The value of a digit in bases up to 36, letters of either case being digits from 10 on. -/
def digit? (base : Nat) (c : Char) : Option Nat :=
  let value? : Option Nat :=
    if '0' ≤ c ∧ c ≤ '9' then some (c.toNat - '0'.toNat)
    else if 'a' ≤ c ∧ c ≤ 'z' then some (c.toNat - 'a'.toNat + 10)
    else if 'A' ≤ c ∧ c ≤ 'Z' then some (c.toNat - 'A'.toNat + 10)
    else none
  value?.filter (· < base)

/-- Digits after a value already read. Values stay below the limit. -/
def digits (base limit : Nat) (value : Nat) : List Char → Except Error Nat
  | [] => .ok value
  | c :: cs =>
    match digit? base c with
    | none => .error .invalidDigit
    | some d =>
      if base * value + d < limit then digits base limit (base * value + d) cs
      else .error .tooLarge

def parseBase (base limit : Nat) : List Char → Except Error Nat
  | [] => .error .empty
  | ['+'] => .error .invalidDigit
  | '+' :: cs => digits base limit 0 cs
  | cs => digits base limit 0 cs

def limit8 : Nat := 256
def limit16 : Nat := 65536
def limit32 : Nat := 4294967296
def limit64 : Nat := 18446744073709551616

def parse (limit : Nat) (cs : List Char) : Except Error Nat := parseBase 10 limit cs

end Bandscan.Numeral
