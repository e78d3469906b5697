import Bandscan.Filter.Spec
import Bandscan.Table.Nit
import Bandscan.Network.Basic
/-!
What a section tells about the network. Association, map and service tables speak of the services
of the current transponder, network tables of all transponders. A section that does not decode is
remarked on and changes nothing.
-/

namespace Bandscan

structure ReadOptions where
  kind : DeliveryKind
  channelNumbers : Bool
  /-- How long to wait for the map of a service, in microseconds. -/
  mapTimeout : Nat
  deriving DecidableEq, Repr

structure Reading where
  network : Network
  requests : List FilterSpec := []
  notes : List Note := []
  /-- The section codes a number out of range, which ends the program. -/
  overflow : Bool := false
  deriving DecidableEq, Repr

namespace Transponder

def assign (streamId : Nat) (tp : Transponder) (p : Program) : Transponder :=
  tp.updateService p.number (Service.assign streamId p)

/-- A map is asked for once for each service, at the first pid other than 0. -/
def mapRequest (timeout : Nat) (tp : Transponder) (p : Program) : List FilterSpec :=
  if p.pid ≠ 0 ∧ !((tp.service? p.number).any (·.mapRequested)) then
    [.once p.pid Pmt.tableId timeout]
  else []

def describe (streamId : Nat) (tp : Transponder) (i : ServiceInfo) : Transponder :=
  tp.updateService i.serviceId (Service.describe streamId i)

end Transponder

namespace Network

variable (o : ReadOptions)

def readPat (t : Pat) (n : Network) : Reading :=
  match n.current? with
  | none => { network := n, notes := [.warn "PAT without a current transponder"] }
  | some tp =>
    { network := n.modifyCurrent fun tp => t.programs.foldl (Transponder.assign t.streamId) tp
      requests := along (Transponder.assign t.streamId) (Transponder.mapRequest o.mapTimeout) tp
        t.programs
      notes := t.programs.map fun p =>
        .debug ("  service " ++ Hex.word p.number ++ " pmt_pid " ++ Hex.word p.pid) }

def readPmt (t : Pmt) (n : Network) : Reading :=
  let truncated := t.truncated.toList.map fun i =>
    Note.warn ("service " ++ Hex.word t.program ++ ": " ++ i.message)
  match n.current?.bind (·.service? t.program) with
  | none =>
    { network := n
      notes := truncated ++
        [.error ("PMT for service_id " ++ Hex.word t.program ++ " which was not in the PAT")] }
  | some s =>
    { network := n.modifyCurrent (·.modifyService t.program (Service.applyMap t))
      notes := truncated ++ s.applyMapNotes t }

def readSdt (t : Sdt) (n : Network) : Reading :=
  let truncated := t.truncated.toList.map fun i =>
    Note.warn ("transport_stream_id " ++ Hex.word t.streamId ++ ": " ++ i.message)
  match n.current with
  | none =>
    { network := n, notes := truncated ++ [.warn "SDT without a current transponder"] }
  | some _ =>
    { network := n.modifyCurrent fun tp => t.services.foldl (Transponder.describe t.streamId) tp
      notes := truncated ++ t.services.flatMap Service.describeNotes }

def setChannel (n : Network) (c : LogicalChannel) : Network :=
  n.modifyScanned c.serviceId fun s => { s with channel := some c.number }

def setChannelNotes (n : Network) (c : LogicalChannel) : List Note :=
  (n.scannedServices c.serviceId).map fun _ =>
    .debug ("  service " ++ Hex.word c.serviceId ++ s!" channel {c.number}")

def register (d : Description) (n : Network) : Network :=
  let (id, n) := n.findOrAlloc d.frequency
  n.modify id (·.redescribe d)

def readChannels (m : Multiplex) (n : Network) : Network :=
  if o.channelNumbers then m.channels.foldl setChannel n else n

def description (networkId : Nat) (m : Multiplex) : Description :=
  { frequency := m.frequency, delivery := m.delivery, networkId, streamId := m.streamId,
    alternates := m.alternates }

def readMultiplex (networkId : Nat) (n : Network) (m : Multiplex) : Network :=
  let n := n.readChannels o m
  if m.delivery.any (·.kind = o.kind) then n.register (description networkId m) else n

def readMultiplexNotes (n : Network) (m : Multiplex) : List Note :=
  let owner := "transport_stream_id " ++ Hex.word m.streamId ++ ": "
  m.descriptorError.toList.map (fun e => .warn (owner ++ e.message))
  ++ (if o.channelNumbers then along setChannel setChannelNotes n m.channels else [])
  ++ match m.delivery with
    | none => []
    | some d =>
      if d.kind = o.kind then (n.readChannels o m).findOrAllocNotes m.frequency
      else [.debug (owner ++ s!"{d.kind.name} entry ignored on {o.kind.name} frontend")]

def readNit (t : Nit) (n : Network) : Reading :=
  { network := t.multiplexes.foldl (readMultiplex o t.networkId) n
    notes := t.name.toList.map (fun name => .info s!"Network Name '{name}'")
      ++ t.truncated.toList.map (fun i =>
          .warn ("network_id " ++ Hex.word t.networkId ++ ": " ++ i.message))
      ++ along (readMultiplex o t.networkId) (readMultiplexNotes o) n t.multiplexes }

/-- What comes of decoding a section. One that does not decode is only remarked on, unless it ends
the program. -/
def decoded {α : Type} (pid : Nat) (s : Section) (n : Network) (remarks : List Note)
    (f : α → Reading) : Except TableError α → Reading
  | .ok a => let r := f a; { r with notes := remarks ++ r.notes }
  | .error .overflow => { network := n, notes := remarks, overflow := true }
  | .error e =>
    { network := n
      notes := [.warn ("pid " ++ Hex.word pid ++ " table_id " ++ Hex.octet s.header.tableId ++ ": "
        ++ e.message)] }

def read (pid : Nat) (s : Section) (n : Network) : Reading :=
  let table := s.header.tableId
  if table = Pat.tableId then decoded pid s n [] (readPat o · n) (Pat.parse s)
  else if table = Pmt.tableId then decoded pid s n [] (readPmt · n) (Pmt.parse s)
  else if table = Nit.actualId ∨ table = Nit.otherId then
    decoded pid s n (Nit.remarks s) (readNit o · n) (Nit.parse s)
  else if table = Sdt.actualId then decoded pid s n (Sdt.remarks s) (readSdt · n) (Sdt.parse s)
  else
    { network := n
      notes := [.warn ("pid " ++ Hex.word pid ++ ": no interpreter for table_id "
        ++ Hex.octet table)] }

end Network

end Bandscan
