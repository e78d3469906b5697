import Bandscan.Device.Interface
/-!
A demux and a frontend that live in memory. The demux hands out sections that were put there
before, the frontend locks according to a script, and tuning it replaces what the demux has to
hand out by the multiplex on the new frequency.
-/

namespace Bandscan

inductive Arrival where
  | bytes (b : Bytes)
  | overflow
  deriving DecidableEq, Repr

/-- Something that waits to be read by the filter for a table on a pid. -/
structure Queued where
  pid : Nat
  tableId : Nat
  arrival : Arrival
  deriving DecidableEq, Repr

/-- A multiplex: its frequency and the sections sent on it, with their pids. -/
abbrev Multiplexes := List (Nat × List (Nat × Bytes))

namespace Queued

def isFor (pid tableId : Nat) (q : Queued) : Bool := q.pid = pid && q.tableId = tableId

/-- A section waits for the filter of the table that its first byte names. -/
def ofSection (pid : Nat) (section_ : Bytes) : Queued :=
  { pid, tableId := (section_.head?.map (·.toNat)).getD 0, arrival := .bytes section_ }

def ofMultiplex (ms : Multiplexes) (frequency : Nat) : List Queued :=
  ((ms.lookup frequency).getD []).map fun (pid, b) => ofSection pid b

def take (pid tableId : Nat) : List Queued → Option Arrival × List Queued
  | [] => (none, [])
  | q :: qs =>
    if q.isFor pid tableId then (some q.arrival, qs)
    else
      let (a, qs) := take pid tableId qs
      (a, q :: qs)

end Queued

structure MemoryDemux where
  queue : List Queued := []
  multiplexes : Multiplexes := []
  capacity : Option Nat := none
  active : Nat := 0
  failingPids : List Nat := []
  failingStop : Bool := false
  opened : List (Nat × Nat) := []
  stopped : List Nat := []
  deriving Repr

structure MemoryFilter where
  pid : Nat
  tableId : Nat
  serial : Nat
  deriving DecidableEq, Repr

namespace MemoryDemux

def push (q : Queued) (d : MemoryDemux) : MemoryDemux := { d with queue := d.queue ++ [q] }

def failPid (pid : Nat) (d : MemoryDemux) : MemoryDemux :=
  { d with failingPids := pid :: d.failingPids }

def switchTo (frequency : Nat) (d : MemoryDemux) : MemoryDemux :=
  { d with queue := Queued.ofMultiplex d.multiplexes frequency }

/-- A full device is exhausted before it looks at the pid. -/
def openFilter (pid tableId : Nat) (d : MemoryDemux) :
    Except DemuxError MemoryFilter × MemoryDemux :=
  if d.capacity.any (· ≤ d.active) then (.error .exhausted, d)
  else if d.failingPids.contains pid then (.error (.setFilter pid .invalidInput), d)
  else (.ok ⟨pid, tableId, d.opened.length⟩,
    { d with active := d.active + 1, opened := d.opened ++ [(pid, tableId)] })

def isReady (d : MemoryDemux) (f : MemoryFilter) : Bool := d.queue.any (·.isFor f.pid f.tableId)

def ready (fs : List MemoryFilter) (d : MemoryDemux) : List Nat :=
  (fs.zipIdx.filter fun (f, _) => d.isReady f).map (·.2)

def read (f : MemoryFilter) (d : MemoryDemux) : Except DemuxError Bytes × MemoryDemux :=
  let (a, queue) := Queued.take f.pid f.tableId d.queue
  let d := { d with queue }
  match a with
  | some (.bytes b) => (.ok (b.take maxSectionSize), d)
  | some .overflow => (.error .overflow, d)
  | none => (.error (.read .wouldBlock), d)

/-- A stopped filter is free at once, also if stopping fails. It is freed only once. -/
def stop (f : MemoryFilter) (d : MemoryDemux) : Except DemuxError Unit × MemoryDemux :=
  if d.stopped.contains f.serial then (.ok (), d)
  else (if d.failingStop then .error (.read .brokenPipe) else .ok (),
    { d with active := d.active - 1, stopped := f.serial :: d.stopped })

end MemoryDemux

structure ScriptedFrontend where
  kind : DeliveryKind := .terrestrial
  lockAfter : List (Nat × Nat) := []
  rejected : List Nat := []
  polls : List (Nat × Nat) := []
  current : Option Nat := none
  tuned : List Nat := []
  deriving Repr

namespace ScriptedFrontend

def pollCount (f : ScriptedFrontend) (frequency : Nat) : Nat :=
  (f.polls.lookup frequency).getD 0

/-- Counts one more poll of a frequency. A count is meant to fit 32 bits; one that does not is left
open, and here counting goes on. -/
def countPoll (frequency : Nat) : List (Nat × Nat) → List (Nat × Nat)
  | [] => [(frequency, 1)]
  | (g, n) :: rest =>
    if g = frequency then (g, n + 1) :: rest else (g, n) :: countPoll frequency rest

def set (frequency : Nat) (f : ScriptedFrontend) : Except TunerError Unit × ScriptedFrontend :=
  let f := { f with tuned := f.tuned ++ [frequency] }
  if f.rejected.contains frequency then
    (.error (.control "FE_SET_FRONTEND" .invalidInput), { f with current := none })
  else (.ok (), { f with current := some frequency })

def hasLock (f : ScriptedFrontend) : Bool × ScriptedFrontend :=
  match f.current with
  | none => (false, f)
  | some frequency =>
    let f := { f with polls := countPoll frequency f.polls }
    ((f.lockAfter.lookup frequency).any (· ≤ f.pollCount frequency), f)

end ScriptedFrontend

structure Bench where
  demux : MemoryDemux := {}
  frontend : ScriptedFrontend := {}
  /-- From this tuning on a pid cannot be filtered. -/
  failPidOnTune : List (Nat × Nat) := []
  interruptOnTune : List Nat := []
  deriving Repr

namespace Bench

def onDemux {α : Type} (f : MemoryDemux → α × MemoryDemux) (b : Bench) : α × Bench :=
  let (a, demux) := f b.demux
  (a, { b with demux })

def onFrontend {α : Type} (f : ScriptedFrontend → α × ScriptedFrontend) (b : Bench) : α × Bench :=
  let (a, frontend) := f b.frontend
  (a, { b with frontend })

def idleWait : Nat := 1000

def demuxDevice : Demux Bench MemoryFilter where
  openFilter pid tableId := World.onDevice (onDemux (·.openFilter pid tableId))
  poll fs timeout w :=
    let ready := w.device.demux.ready fs
    (.ok ready, if ready.isEmpty then w.sleep (min timeout idleWait) else w)
  read f := World.onDevice (onDemux (·.read f))
  stop f := World.onDevice (onDemux (·.stop f))
  -- A filter that is closed is stopped, as often as that may be.
  close f w := (World.onDevice (onDemux (·.stop f)) w).2

def tuned (frequency : Nat) (w : World Bench) : World Bench :=
  let pids := (w.device.failPidOnTune.filter (·.1 = frequency)).map (·.2)
  let w := w.withDevice fun b =>
    { b with demux := (pids.foldl (fun d pid => d.failPid pid) b.demux).switchTo frequency }
  if w.device.interruptOnTune.contains frequency then w.interrupt else w

def frontendDevice (kind : DeliveryKind) : Frontend Bench where
  kind
  set tp w :=
    let (r, w) := w.onDevice (onFrontend (·.set tp.frequency))
    match r with
    | .ok () => (.ok (), tuned tp.frequency w)
    | .error e => (.error e, w)
  hasLock w :=
    let (locked, w) := w.onDevice (onFrontend (·.hasLock))
    (.ok locked, w)

end Bench

end Bandscan
