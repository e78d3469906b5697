import Bandscan.Network.Transponder
/-!
All transponders that a scan knows of. A transponder is identified by the number of its
registration. Frequencies closer than the tolerance belong to one transponder: identifiers of
networks and transport streams are reused by broadcasters and identify nothing.
-/

namespace Bandscan

structure Network where
  tolerance : Nat
  inversion : Inversion
  transponders : List Transponder := []
  /-- Transponders that have been tried, in the order of the scan. -/
  scanned : List Nat := []
  /-- Transponders still to be tried, in the order of their registration. -/
  pending : List Nat := []
  current : Option Nat := none
  /-- Only the current transponder is looked at, whatever its frequency. -/
  pinned : Bool := false
  deriving DecidableEq, Repr

namespace Network

def get? (n : Network) (id : Nat) : Option Transponder := n.transponders[id]?

def modify (id : Nat) (f : Transponder → Transponder) (n : Network) : Network :=
  { n with transponders := n.transponders.modify id f }

def nextId (n : Network) : Nat := n.transponders.length

def current? (n : Network) : Option Transponder := n.current.bind n.get?

def modifyCurrent (f : Transponder → Transponder) (n : Network) : Network :=
  match n.current with
  | some id => n.modify id f
  | none => n

def setCurrent (id : Nat) (n : Network) : Network := { n with current := some id }

def near (n : Network) (a b : Nat) : Bool := (a - b) + (b - a) < n.tolerance

/-- The transponder at a frequency, looked for among the scanned ones first. -/
def find? (n : Network) (frequency : Nat) : Option Nat :=
  if n.pinned then n.scanned.head?
  else (n.scanned ++ n.pending).find? fun id =>
    (n.get? id).any fun tp => n.near tp.frequency frequency

def alloc (frequency : Nat) (n : Network) : Network :=
  { n with
    transponders := n.transponders ++ [{ frequency, inversion := n.inversion }]
    pending := n.pending ++ [n.nextId] }

def findOrAlloc (frequency : Nat) (n : Network) : Nat × Network :=
  match n.find? frequency with
  | some id => (id, n)
  | none => (n.nextId, n.alloc frequency)

def findOrAllocNotes (frequency : Nat) (n : Network) : List Note :=
  match n.find? frequency with
  | some _ => []
  | none => [.debug s!"new transponder at {frequency}"]

/-- Makes a blank transponder current that stands for whatever the frontend is tuned to. -/
def pinCurrent (n : Network) : Network :=
  { n with
    transponders := n.transponders ++
      [{ frequency := 0, inversion := n.inversion, scanDone := true }]
    scanned := n.scanned ++ [n.nextId]
    current := some n.nextId
    pinned := true }

def markScanned (id : Nat) (n : Network) : Network :=
  let n := if n.pending.contains id then
      { n with scanned := n.scanned ++ [id], pending := n.pending.erase id }
    else n
  n.modify id fun tp => { tp with scanDone := true }

def scannedTransponders (n : Network) : List Transponder := n.scanned.filterMap n.get?

def serviceCount (n : Network) : Nat := (n.scannedTransponders.flatMap (·.services)).length

def modifyScanned (serviceId : Nat) (f : Service → Service) (n : Network) : Network :=
  { n with transponders := n.transponders.mapIdx fun i tp =>
      if n.scanned.contains i then
        { tp with services := tp.services.map fun s => if s.id = serviceId then f s else s }
      else tp }

def scannedServices (n : Network) (serviceId : Nat) : List Service :=
  (n.transponders.zipIdx.filter fun (_, i) => n.scanned.contains i).flatMap fun (tp, _) =>
    tp.services.filter (·.id = serviceId)

end Network

end Bandscan
