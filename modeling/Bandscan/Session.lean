import Bandscan.Filter.Scheduler
import Bandscan.InitialList
import Bandscan.Network.Reading
import Bandscan.Tuning
/-!
A scan: tune to a transponder, collect its tables, go on to the transponders that its network table
names. Nothing bounds how long a device may go on delivering sections or naming transponders, so
the number of poll passes at a transponder and the number of tunings have a budget.
-/

namespace Bandscan

/-- How long to wait for each table, in microseconds. -/
structure Timeouts where
  pat : Nat
  sdt : Nat
  nit : Nat
  pmt : Nat
  deriving DecidableEq, Repr

structure ScanOptions where
  timeouts : Timeouts
  pollInterval : Nat
  tune : TuneOptions
  readNit : Bool
  readOtherNits : Bool
  channelNumbers : Bool
  deriving DecidableEq, Repr

inductive Outcome where
  | completed
  | interrupted
  | unfinished
  deriving DecidableEq, Repr

inductive ScanError where
  | demux (e : DemuxError)
  | tuner (e : TunerError)
  | overflow
  deriving DecidableEq, Repr

def ScanError.message : ScanError → String
  | demux e => e.message
  | tuner e => e.message
  | overflow => TableError.overflow.message

structure Session (φ : Type) where
  network : Network
  scheduler : Scheduler φ
  /-- Filters for PAT and SDT have been started before. -/
  started : Bool := false

namespace Session

variable {δ φ : Type} (d : Demux δ φ) (fe : Frontend δ) (o : ScanOptions)

def patFilter : FilterSpec := .once Pat.pid Pat.tableId o.timeouts.pat
def sdtFilter : FilterSpec := .once Sdt.pid Sdt.actualId o.timeouts.sdt
def nitFilter : FilterSpec := .once Nit.pid Nit.actualId o.timeouts.nit
def otherNitFilter : FilterSpec :=
  { FilterSpec.once Nit.pid Nit.otherId o.timeouts.nit with segmented := true }

def nitFilters : List FilterSpec :=
  (if o.readNit then [nitFilter o] else [])
  ++ (if o.readOtherNits then [otherNitFilter o] else [])

/-- Starts the filters for a transponder. Only those for PAT and SDT of the first transponder
must start. -/
def startFilters (s : Session φ) (w : World δ) : Except DemuxError Unit × Session φ × World δ :=
  if s.started then
    let (sch, w) := s.scheduler.addAll d ([patFilter o, sdtFilter o] ++ nitFilters o) w
    (.ok (), { s with scheduler := sch }, w)
  else
    match s.scheduler.install d (patFilter o) w with
    | (.error e, sch, w) => (.error e, { s with scheduler := sch }, w)
    | (.ok _, sch, w) =>
      match sch.install d (sdtFilter o) w with
      | (.error e, sch, w) => (.error e, { s with scheduler := sch }, w)
      | (.ok _, sch, w) =>
        let (sch, w) := sch.addAll d (nitFilters o) w
        (.ok (), { s with scheduler := sch, started := true }, w)

def readOptions : ReadOptions :=
  { kind := fe.kind, channelNumbers := o.channelNumbers, mapTimeout := o.timeouts.pmt }

/-- Reads a section into the network. After a section whose numbers are out of range nothing is
read any more. -/
def handler : Handler (Network × Bool) := fun f s (n, overflow) =>
  if overflow then ((n, true), [], [])
  else
    let r := n.read (readOptions fe o) f.pid s
    ((r.network, r.overflow), r.requests, r.notes)

def collect : Nat → Session φ → World δ → Except ScanError Outcome × Session φ × World δ
  | 0, s, w => (.ok (if s.scheduler.isIdle then .completed else .unfinished), s, w)
  | budget + 1, s, w =>
    if s.scheduler.isIdle then (.ok .completed, s, w)
    else
      match s.scheduler.pollOnce d o.pollInterval (handler fe o) (s.network, false) w with
      | (r, (network, overflow), scheduler, w) =>
        let s := { s with network, scheduler }
        match r with
        | .error e => (.error (.demux e), s, w)
        | .ok () =>
          if overflow then (.error .overflow, s, w)
          else if w.interrupted then
            let (scheduler, w) :=
              s.scheduler.clear d (w.tell (.info "interrupted, stopping section filters"))
            (.ok .interrupted, { s with scheduler }, w)
          else collect budget s w

def scanTransponder (budget : Nat) (s : Session φ) (w : World δ) :
    Except ScanError Outcome × Session φ × World δ :=
  match s.startFilters d o w with
  | (.error e, s, w) => (.error (.demux e), s, w)
  | (.ok (), s, w) => s.collect d fe o budget w

def setFailed (id : Nat) (failed : Bool) (n : Network) : Network :=
  n.modify id fun tp => { tp with tuningFailed := failed }

/-- Tunes to a transponder, then to one alternate frequency after another if there may be such.
`alternates` are the untried ones, the next one first. A frequency that is tried becomes that of
the transponder. -/
def tryFrequencies (tp : Transponder) : List Nat → World δ → (Bool × Transponder) × World δ
  | alternates, w =>
    match fe.tune tp o.tune w, alternates with
    | (true, w), _ => ((true, tp), w)
    | (false, w), [] => ((false, tp), w)
    | (false, w), f :: rest =>
      if tp.otherFrequency then
        tryFrequencies { tp with frequency := f, alternates := rest.reverse } rest
          (w.tell (.info s!"retrying with f={f}"))
      else ((false, tp), w)

def untunable (tp : Transponder) : Option Note :=
  match tp.kind with
  | none => some (.warn s!"transponder {tp.frequency} has no tuning parameters")
  | some k =>
    if k = fe.kind then none
    else some (.warn (s!"frontend type ({fe.kind.name}) is not compatible with requested "
      ++ s!"tuning type ({k.name})"))

def tuneTo (id : Nat) (n : Network) (w : World δ) : Bool × Network × World δ :=
  let n := (n.markScanned id).setCurrent id
  match n.get? id with
  | none => (false, n, w)
  | some tp =>
    match untunable fe tp with
    | some note => (false, setFailed id true n, w.tell note)
    | none =>
      let ((locked, tp), w) := tryFrequencies fe o tp tp.alternates.reverse w
      (locked, n.modify id fun _ => { tp with tuningFailed := !locked }, w)

def tuneFirst : List Nat → Network → World δ → Bool × Network × World δ
  | [], n, w => (false, n, w)
  | id :: rest, n, w =>
    if w.interrupted then (false, n, w)
    else
      match tuneTo fe o id n w with
      | (true, n, w) => (true, n, w)
      | (false, n, w) => tuneFirst rest n w

def tuneNext (s : Session φ) (w : World δ) : Bool × Session φ × World δ :=
  let (locked, network, w) := tuneFirst fe o s.network.pending s.network w
  (locked, { s with network }, w)

def ended (w : World δ) : Outcome := if w.interrupted then .interrupted else .completed

def scanPending (passes : Nat) : Nat → Session φ → World δ →
    Except ScanError Outcome × Session φ × World δ
  | 0, s, w => (.ok .unfinished, s, w)
  | tunings + 1, s, w =>
    match s.scanTransponder d fe o passes w with
    | (.ok .completed, s, w) =>
      match s.tuneNext fe o
          (w.tell (.debug s!"{s.network.pending.length} transponders pending")) with
      | (true, s, w) => scanPending passes tunings s w
      | (false, s, w) => (.ok (ended w), s, w)
    | other => other

def scanNetwork (budget : Nat) (initial : List InitialList.Entry) (s : Session φ) (w : World δ) :
    Except ScanError Outcome × Session φ × World δ :=
  let s := { s with network := InitialList.load initial s.network }
  let w := w.tellAll (InitialList.loadNotes initial)
  match s.tuneNext fe o w with
  | (true, s, w) => s.scanPending d fe o budget budget w
  | (false, s, w) =>
    if w.interrupted then (.ok .interrupted, s, w)
    else
      (.ok .completed, s, w.tell (.error (s!"initial tuning failed: none of {initial.length} "
        ++ "transponders could be tuned")))

def scanCurrent (budget : Nat) (s : Session φ) (w : World δ) :
    Except ScanError Outcome × Session φ × World δ :=
  { s with network := s.network.pinCurrent }.scanTransponder d fe o budget w

end Session

end Bandscan
