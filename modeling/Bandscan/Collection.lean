import Bandscan.Note
import Bandscan.NumberMap
import Bandscan.Section
/-!
A table is sent in sections numbered from 0 to a last number, over and over. A collection
remembers which sections of one version have been seen, so that none is read twice, and notices
when all are there. A collector does this for a filter: its sections either form one collection,
or one collection for each extension.
-/

namespace Bandscan

structure Collection where
  key : Option (Nat × Nat) := none
  seen : NumberMap := {}
  complete : Bool := false
  deriving DecidableEq, Repr

namespace Collection

def keyOf (h : Header) : Nat × Nat := (h.ext, h.version)

/-- A collection starts anew when extension or version change. -/
def opened (h : Header) (c : Collection) : Collection :=
  if c.key = some (keyOf h) then c else { key := some (keyOf h) }

def openedNotes (h : Header) (c : Collection) : List Note :=
  match c.key with
  | some (ext, version) =>
    if (ext, version) = keyOf h then []
    else [.debug (s!"section version_number or table_id_ext changed {version} -> {h.version} / "
      ++ Hex.lower 4 ext ++ " -> " ++ Hex.lower 4 h.ext)]
  | none => []

def hasAll (last : Nat) (seen : NumberMap) : Bool :=
  (List.range (last + 1)).all fun n => seen.contains n

/-- Whether a section is new, and if it is, whether it completes the collection. -/
def record (h : Header) (c : Collection) : Option Bool × Collection :=
  let c := c.opened h
  if c.seen.contains h.number then (none, c)
  else
    let seen := c.seen.insert h.number
    let now := !c.complete && hasAll h.last seen
    (some now, { c with seen, complete := c.complete || now })

end Collection

structure Collector where
  tableId : Nat
  /-- Each extension is collected on its own and the collector never finishes. -/
  segmented : Bool := false
  single : Collection := {}
  segments : List (Nat × Collection) := []
  dropped : Nat := 0
  deriving DecidableEq, Repr

namespace Collector

def check (bytes : Bytes) (c : Collector) : Option Section × List Note × Collector :=
  match Section.parseExpecting bytes c.tableId with
  | .ok s => (some s, [], c)
  | .error e =>
    (none, [.debug ("dropping section (table_id " ++ Hex.octet c.tableId ++ "): " ++ e.message)],
      { c with dropped := c.dropped + 1 })

def collection (c : Collector) (ext : Nat) : Collection :=
  if c.segmented then (c.segments.lookup ext).getD {} else c.single

/-- Replaces the value of a key in place; a new key comes last. -/
def put (ext : Nat) (v : Collection) : List (Nat × Collection) → List (Nat × Collection)
  | [] => [(ext, v)]
  | (e, w) :: rest => if e = ext then (e, v) :: rest else (e, w) :: put ext v rest

def store (ext : Nat) (v : Collection) (c : Collector) : Collector :=
  if c.segmented then { c with segments := put ext v c.segments } else { c with single := v }

def record (h : Header) (c : Collector) : Option Bool × Collector :=
  let (progress, v) := (c.collection h.ext).record h
  (progress, c.store h.ext v)

def recordNotes (h : Header) (c : Collector) : List Note := (c.collection h.ext).openedNotes h

def isFinished (c : Collector) : Bool := !c.segmented && c.single.complete

def segmentCount (c : Collector) : Nat :=
  if c.segmented then c.segments.length else if c.single.key.isSome then 1 else 0

def isDone (c : Collector) (ext : Nat) : Bool :=
  if c.segmented then (c.segments.lookup ext).any (·.complete)
  else c.single.complete && (c.single.key.map (·.1) = some ext)

end Collector

end Bandscan
