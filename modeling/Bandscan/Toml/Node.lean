/-!
TOML documents as trees, and the rules by which statements extend them: no key is defined twice,
and a table is extended only in the way in which it came to be.
-/

namespace Bandscan.Toml

/-- How a table came to be: by a header of its own, as a parent in a header, as a parent in a
dotted key, or as an inline value. -/
inductive Origin where
  | header | parent | dotted | inline
  deriving DecidableEq, Repr

inductive Node where
  | text (s : String)
  | int (n : Int)
  | bool (b : Bool)
  | other
  | array (elements : List Node)
  | table (origin : Origin) (entries : List (String × Node))
  | tables (elements : List Node)
  deriving Repr

namespace Node

def empty (origin : Origin) : Node := .table origin []

def put (key : String) (v : Node) (entries : List (String × Node)) : List (String × Node) :=
  entries.map fun (k, w) => if k = key then (k, v) else (k, w)

/-- Changes the table at a path. Tables missing on the way are made, by dotted keys if `dotted`.
A dotted key does not enter a table that has a header. -/
def within (dotted : Bool) (f : Node → Option Node) : List String → Node → Option Node
  | [], n => f n
  | key :: path, .table origin entries =>
    match entries.lookup key with
    | none =>
      (within dotted f path (empty (if dotted then .dotted else .parent))).map fun child =>
        .table origin (entries ++ [(key, child)])
    | some (.table o es) =>
      if o = .inline || (dotted && o = .header) then none
      else (within dotted f path (.table o es)).map fun child =>
        .table origin (put key child entries)
    | some (.tables elements) =>
      match elements.getLast? with
      | none => none
      | some last => (within dotted f path last).map fun child =>
        .table origin (put key (.tables (elements.dropLast ++ [child])) entries)
    | some _ => none
  | _, _ => none

def define (n : Node) (key : String) (v : Node) : Option Node :=
  match n with
  | .table origin entries =>
    if (entries.lookup key).isSome then none else some (.table origin (entries ++ [(key, v)]))
  | _ => none

def isDotted : Node → Bool
  | .table .dotted _ => true
  | _ => false

def defineAt (n : Node) (path : List String) (key : String) (v : Node) : Option Node :=
  n.within true (fun t => if t.isDotted = path.isEmpty then none else t.define key v) path

/-- Opens the table of a header. A table that was only a parent so far can still get its header. -/
def openTable (key : String) : Node → Option Node
  | .table origin entries =>
    match entries.lookup key with
    | none => some (.table origin (entries ++ [(key, empty .header)]))
    | some (.table .parent es) => some (.table origin (put key (.table .header es) entries))
    | some _ => none
  | _ => none

def appendTable (key : String) : Node → Option Node
  | .table origin entries =>
    match entries.lookup key with
    | none => some (.table origin (entries ++ [(key, .tables [empty .header])]))
    | some (.tables elements) =>
      some (.table origin (put key (.tables (elements ++ [empty .header])) entries))
    | some _ => none
  | _ => none

end Node

structure Document where
  root : Node := .empty .header
  opened : List String := []
  deriving Repr

namespace Document

def header (repeated : Bool) (path : List String) (key : String) (d : Document) :
    Option Document :=
  (d.root.within false (if repeated then Node.appendTable key else Node.openTable key) path).map
    fun root => { root, opened := path ++ [key] }

def define (path : List String) (key : String) (v : Node) (d : Document) : Option Document :=
  (d.root.within false (·.defineAt path key v) d.opened).map fun root => { d with root }

end Document

end Bandscan.Toml
