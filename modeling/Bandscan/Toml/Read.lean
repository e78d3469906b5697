import Bandscan.Toml.Lexeme
/-!
Reading a TOML text statement by statement. Statements and list elements are bounded by the length
of the text, nesting by a fixed depth.
-/

namespace Bandscan.Toml

def skipFiller : Nat → List Char → List Char
  | 0, cs => cs
  | fuel + 1, cs =>
    match skipSpace cs with
    | '#' :: r =>
      match newline? (skipComment ('#' :: r)) with
      | some r => skipFiller fuel r
      | none => '#' :: r
    | r =>
      match newline? r with
      | some r => skipFiller fuel r
      | none => r

def elements (value : Lexer Node) : Nat → Lexer (List Node)
  | 0, _ => none
  | fuel + 1, cs =>
    match skipFiller (fuel + 1) cs with
    | ']' :: r => some ([], r)
    | cs =>
      match value cs with
      | none => none
      | some (v, r) =>
        match skipFiller (fuel + 1) r with
        | ',' :: r => (elements value fuel r).map fun (vs, r) => (v :: vs, r)
        | ']' :: r => some ([v], r)
        | _ => none

def pair (value : Lexer Node) (cs : List Char) :
    Option ((List String × String × Node) × List Char) :=
  match key cs with
  | some ((path, k), '=' :: r) => (value (skipSpace r)).map fun (v, r) => ((path, k, v), r)
  | _ => none

def pairs (value : Lexer Node) : Nat → Node → Lexer Node
  | 0, _, _ => none
  | fuel + 1, table, cs =>
    match pair value cs with
    | none => none
    | some ((path, k, v), r) =>
      match table.defineAt path k v with
      | none => none
      | some table =>
        match skipSpace r with
        | ',' :: r => pairs value fuel table r
        | '}' :: r => some (table, r)
        | _ => none

def inlineTable (value : Lexer Node) (cs : List Char) : Option (Node × List Char) :=
  match skipSpace cs with
  | '}' :: r => some (.empty .inline, r)
  | cs => pairs value (cs.length + 1) (.empty .inline) cs

def word (cs : List Char) : Option (Node × List Char) :=
  match cs with
  | 't' :: 'r' :: 'u' :: 'e' :: r => some (.bool true, r)
  | 'f' :: 'a' :: 'l' :: 's' :: 'e' :: r => some (.bool false, r)
  | cs => (dateTime cs).or (number cs)

def value : Nat → Lexer Node
  | 0, _ => none
  | depth + 1, cs =>
    match cs with
    | '[' :: r =>
      if depth = 0 then none
      else (elements (value depth) (r.length + 1) r).map fun (vs, r) => (.array vs, r)
    | '\x7b' :: r => if depth = 0 then none else inlineTable (value depth) r
    | '"' :: _ | '\'' :: _ => (string cs).map fun (s, r) => (.text s, r)
    | cs => word cs

def header (d : Document) (cs : List Char) : Option (Document × List Char) :=
  let (repeated, cs) : Bool × List Char :=
    match cs with
    | '[' :: r => (true, r)
    | cs => (false, cs)
  match key cs with
  | some ((path, k), ']' :: r) =>
    let after : Option (List Char) := if repeated then expectChar ']' r else some r
    match after.bind lineEnd, d.header repeated path k with
    | some r, some d => some (d, r)
    | _, _ => none
  | _ => none

def definition (d : Document) (cs : List Char) : Option (Document × List Char) :=
  match pair (value maxDepth) cs with
  | some ((path, k, v), r) =>
    match lineEnd r, d.define path k v with
    | some r, some d => some (d, r)
    | _, _ => none
  | none => none

def statements : Nat → Document → List Char → Option Document
  | 0, _, _ => none
  | fuel + 1, d, cs =>
    match skipSpace cs with
    | [] => some d
    | '[' :: r =>
      match header d r with
      | some (d, r) => statements fuel d r
      | none => none
    | cs =>
      match lineEnd cs with
      | some r => statements fuel d r
      | none =>
        match definition d cs with
        | some (d, r) => statements fuel d r
        | none => none

/-- The root table of a text. A byte order mark at the start is passed over. -/
def read (text : String) : Option Node :=
  let cs : List Char :=
    match text.toList with
    | '\uFEFF' :: r => r
    | cs => cs
  (statements (cs.length + 1) {} cs).map (·.root)

end Bandscan.Toml
