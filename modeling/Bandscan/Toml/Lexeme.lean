import Bandscan.Toml.Node
import Bandscan.Text.Numeral
/-!
The smallest pieces of a TOML text: keys, strings, numbers, dates. Each reader takes a piece from
the front of the text and answers it with the rest, or nothing if there is no such piece.
-/

namespace Bandscan.Toml

abbrev Lexer (α : Type) := List Char → Option (α × List Char)

def isSpace (c : Char) : Bool := c = ' ' || c = '\t'

def skipSpace (cs : List Char) : List Char := cs.dropWhile isSpace

def newline? : List Char → Option (List Char)
  | '\n' :: r => some r
  | '\r' :: '\n' :: r => some r
  | _ => none

/-- Characters of comments and strings: no control codes but the tab. -/
def isPlain (c : Char) : Bool := c = '\t' || (' ' ≤ c && c ≠ '\x7f')

def skipComment (cs : List Char) : List Char :=
  match cs with
  | '#' :: r => r.dropWhile isPlain
  | _ => cs

def lineEnd (cs : List Char) : Option (List Char) :=
  match skipComment (skipSpace cs) with
  | [] => some []
  | rest => newline? rest

def hexValue (digits : List Char) : Option Nat :=
  (digits.mapM (Numeral.digit? 16)).map (·.foldl (fun n d => 16 * n + d) 0)

def scalar? (digits : List Char) : Option Char :=
  (hexValue digits).bind fun n => if h : n.isValidChar then some (Char.ofNatAux n h) else none

def escape : Lexer Char
  | 'b' :: r => some ('\x08', r)
  | 't' :: r => some ('\t', r)
  | 'n' :: r => some ('\n', r)
  | 'f' :: r => some ('\x0c', r)
  | 'r' :: r => some ('\r', r)
  | '"' :: r => some ('"', r)
  | '\\' :: r => some ('\\', r)
  | 'u' :: r => if r.length < 4 then none else (scalar? (r.take 4)).map fun c => (c, r.drop 4)
  | 'U' :: r => if r.length < 8 then none else (scalar? (r.take 8)).map fun c => (c, r.drop 8)
  | _ => none

def basicString : Nat → Lexer (List Char)
  | 0, _ => none
  | fuel + 1, cs =>
    match cs with
    | '"' :: r => some ([], r)
    | '\\' :: r =>
      match escape r with
      | some (c, r) => (basicString fuel r).map fun (s, r) => (c :: s, r)
      | none => none
    | c :: r => if isPlain c then (basicString fuel r).map fun (s, r) => (c :: s, r) else none
    | [] => none

def literalString : Lexer (List Char)
  | '\'' :: r => some ([], r)
  | c :: r => if isPlain c then (literalString r).map fun (s, r) => (c :: s, r) else none
  | [] => none

/-- The closing quotes of a string over several lines. Two more quotes may belong to the string. -/
def closing (quote : Char) (cs : List Char) : Option (List Char × List Char) :=
  match cs with
  | a :: b :: c :: r =>
    if a = quote ∧ b = quote ∧ c = quote then
      let more := (r.takeWhile (· = quote)).length
      some (List.replicate (min 2 more) quote, r.drop (min 2 more))
    else none
  | _ => none

def skipLines : List Char → List Char
  | ' ' :: r | '\t' :: r | '\n' :: r | '\r' :: '\n' :: r => skipLines r
  | cs => cs

/-- A line that ends in a backslash goes on at the next character that is not blank. -/
def continued (cs : List Char) : Option (List Char) := (newline? (skipSpace cs)).map skipLines

/-- A string over several lines behind its first quotes. Only double quotes admit escapes. -/
def longString (quote : Char) : Nat → Lexer (List Char)
  | 0, _ => none
  | fuel + 1, cs =>
    match closing quote cs with
    | some (s, r) => some (s, r)
    | none =>
      match newline? cs with
      | some r => (longString quote fuel r).map fun (s, r) => ('\n' :: s, r)
      | none =>
        match cs with
        | [] => none
        | c :: r =>
          if quote = '"' ∧ c = '\\' then
            match continued r with
            | some r => longString quote fuel r
            | none =>
              match escape r with
              | some (c, r) => (longString quote fuel r).map fun (s, r) => (c :: s, r)
              | none => none
          else if isPlain c then (longString quote fuel r).map fun (s, r) => (c :: s, r)
          else none

def string (cs : List Char) : Option (String × List Char) :=
  let body : Option (List Char × List Char) :=
    match cs with
    | '"' :: '"' :: '"' :: r => longString '"' (r.length + 1) ((newline? r).getD r)
    | '\'' :: '\'' :: '\'' :: r => longString '\'' (r.length + 1) ((newline? r).getD r)
    | '"' :: r => basicString (r.length + 1) r
    | '\'' :: r => literalString r
    | _ => none
  body.map fun (s, r) => (String.ofList s, r)

def isBare (c : Char) : Bool := c.isAlphanum || c = '-' || c = '_'

def simpleKey (cs : List Char) : Option (String × List Char) :=
  match cs with
  | '"' :: r => (basicString (r.length + 1) r).map fun (s, r) => (String.ofList s, r)
  | '\'' :: r => (literalString r).map fun (s, r) => (String.ofList s, r)
  | cs =>
    let word := cs.takeWhile isBare
    if word.isEmpty then none else some (String.ofList word, cs.dropWhile isBare)

def dottedKey : Nat → Lexer (List String)
  | 0, _ => none
  | fuel + 1, cs =>
    match simpleKey (skipSpace cs) with
    | none => none
    | some (k, r) =>
      match skipSpace r with
      | '.' :: r => (dottedKey fuel r).map fun (ks, r) => (k :: ks, r)
      | r => some ([k], r)

/-- Arrays and inline tables nest less deep than this, and dotted keys have fewer parts. -/
def maxDepth : Nat := 80

def key (cs : List Char) : Option ((List String × String) × List Char) :=
  match dottedKey (cs.length + 1) cs with
  | some (ks, r) =>
    if ks.length < maxDepth then (ks.getLast?).map fun k => ((ks.dropLast, k), r) else none
  | none => none

def digitsTail (base : Nat) : Lexer (List Char)
  | '_' :: c :: r =>
    if (Numeral.digit? base c).isSome then (digitsTail base r).map fun (s, r) => (c :: s, r)
    else none
  | ['_'] => none
  | c :: r =>
    if (Numeral.digit? base c).isSome then (digitsTail base r).map fun (s, r) => (c :: s, r)
    else some ([], c :: r)
  | [] => some ([], [])

def digits (base : Nat) : Lexer (List Char)
  | c :: r =>
    if (Numeral.digit? base c).isSome then (digitsTail base r).map fun (s, r) => (c :: s, r)
    else none
  | [] => none

def sign : List Char → Bool × List Char
  | '+' :: r => (false, r)
  | '-' :: r => (true, r)
  | r => (false, r)

def decimal (cs : List Char) : Option ((Bool × List Char) × List Char) :=
  let (negative, r) := sign cs
  match r with
  | '0' :: r => some ((negative, ['0']), r)
  | r => (digits 10 r).map fun (s, r) => ((negative, s), r)

def natOf (base : Nat) (digits : List Char) : Nat :=
  (digits.filterMap (Numeral.digit? base)).foldl (fun n d => base * n + d) 0

/-- Integers have 64 bits, one of which is the sign. -/
def maxMagnitude : Nat := 9223372036854775808

def integer? (negative : Bool) (n : Nat) : Option Node :=
  if negative then if n ≤ maxMagnitude then some (.int (-(n : Int))) else none
  else if n < maxMagnitude then some (.int n) else none

def based (base : Nat) (cs : List Char) : Option (Node × List Char) :=
  match digits base cs with
  | some (s, r) => (integer? false (natOf base s)).map fun n => (n, r)
  | none => none

/-- The absolute value of a number with a fraction or an exponent: `digits * 10 ^ exponent`. -/
structure Scientific where
  digits : Nat
  exponent : Int
  deriving DecidableEq, Repr

/-- From halfway between the largest double and `2 ^ 1024` on, a number rounds to infinity. -/
def Scientific.isInfinite (x : Scientific) : Bool :=
  (Nat.pow 2 1024 - Nat.pow 2 970) * Nat.pow 10 (-x.exponent).toNat
    ≤ x.digits * Nat.pow 10 x.exponent.toNat

/-- Exponents from here on are out of all reach; their further digits are passed over. -/
def exponentLimit : Nat := 65536

def magnitude (digits : List Char) : Nat :=
  (digits.filterMap (Numeral.digit? 10)).foldl
    (fun n d => if n < exponentLimit then 10 * n + d else n) 0

def exponent (cs : List Char) : Option (Int × List Char) :=
  let (negative, r) := sign cs
  (digits 10 r).map fun (s, r) => (if negative then -(magnitude s : Int) else magnitude s, r)

def fraction (whole : List Char) (cs : List Char) : Option (Scientific × List Char) :=
  match cs with
  | '.' :: r =>
    match digits 10 r with
    | none => none
    | some (places, r) =>
      let x : Scientific := ⟨natOf 10 (whole ++ places), -(places.length : Int)⟩
      match r with
      | 'e' :: r | 'E' :: r =>
        (exponent r).map fun (e, r) => ({ x with exponent := x.exponent + e }, r)
      | r => some (x, r)
  | 'e' :: r | 'E' :: r => (exponent r).map fun (e, r) => (⟨natOf 10 whole, e⟩, r)
  | _ => none

/-- An integer, or a number in double precision. Infinity must be written as such, unless it is
negative. -/
def number (cs : List Char) : Option (Node × List Char) :=
  match cs with
  | '0' :: 'x' :: r => based 16 r
  | '0' :: 'o' :: r => based 8 r
  | '0' :: 'b' :: r => based 2 r
  | cs =>
    match (sign cs).2 with
    | 'i' :: 'n' :: 'f' :: r | 'n' :: 'a' :: 'n' :: r => some (.other, r)
    | _ =>
      match decimal cs with
      | none => none
      | some ((negative, s), r) =>
        match r with
        | '.' :: _ | 'e' :: _ | 'E' :: _ =>
          match fraction s r with
          | some (x, r) => if !negative && x.isInfinite then none else some (.other, r)
          | none => none
        | r => (integer? negative (natOf 10 s)).map fun n => (n, r)

def fixed (width low high : Nat) (cs : List Char) : Option (Nat × List Char) :=
  let s := cs.take width
  if s.length = width ∧ s.all Char.isDigit ∧ low ≤ natOf 10 s ∧ natOf 10 s ≤ high then
    some (natOf 10 s, cs.drop width)
  else none

def expectChar (c : Char) : List Char → Option (List Char)
  | d :: r => if c = d then some r else none
  | [] => none

def daysIn (year month : Nat) : Nat :=
  if month = 2 then
    if year % 4 = 0 ∧ (year % 100 ≠ 0 ∨ year % 400 = 0) then 29 else 28
  else if month = 4 ∨ month = 6 ∨ month = 9 ∨ month = 11 then 30
  else 31

def date (cs : List Char) : Option (List Char) := do
  let (year, cs) ← fixed 4 0 9999 cs
  let (month, cs) ← fixed 2 1 12 (← expectChar '-' cs)
  let (_, cs) ← fixed 2 1 (daysIn year month) (← expectChar '-' cs)
  return cs

def time (cs : List Char) : Option (List Char) := do
  let (_, cs) ← fixed 2 0 23 cs
  let (_, cs) ← fixed 2 0 59 (← expectChar ':' cs)
  let (_, cs) ← fixed 2 0 60 (← expectChar ':' cs)
  match cs with
  | '.' :: r =>
    let s := r.takeWhile Char.isDigit
    if s.isEmpty then none else return r.drop s.length
  | cs => return cs

def offset (cs : List Char) : Option (List Char) :=
  match cs with
  | 'Z' :: r | 'z' :: r => some r
  | '+' :: r | '-' :: r => do
    let (_, r) ← fixed 2 0 23 r
    let (_, r) ← fixed 2 0 59 (← expectChar ':' r)
    return r
  | _ => none

def dateTime (cs : List Char) : Option (Node × List Char) :=
  match date cs with
  | some r =>
    let timed : Option (List Char) :=
      match r with
      | 'T' :: r | 't' :: r | ' ' :: r => time r
      | _ => none
    match timed with
    | some r => some (.other, (offset r).getD r)
    | none => some (.other, r)
  | none => (time cs).map fun r => (.other, r)

end Bandscan.Toml
