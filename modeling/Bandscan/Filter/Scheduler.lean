import Bandscan.Collection
import Bandscan.Device.Interface
import Bandscan.Filter.Spec
/-!
A demux has a limited number of section filters. The scheduler keeps at most `maxRunning` of them
open, lets the others wait in the order of their arrival, and starts waiting filters whenever a
running one is removed. A poll pass reads at most one section from every filter that is ready,
hands new sections to a handler, adds the filters that the handler asks for and removes filters
that are done.
-/

namespace Bandscan

structure RunningFilter (φ : Type) where
  id : Nat
  spec : FilterSpec
  handle : φ
  collector : Collector
  started : Nat

structure Scheduler (φ : Type) where
  /-- Not 0: see `Scheduler.ofLimit`. -/
  maxRunning : Nat
  running : List (RunningFilter φ) := []
  waiting : List (Nat × FilterSpec) := []
  /-- How many ids have been given out. The first is 1. -/
  lastId : Nat := 0

inductive Admission where
  | running (id : Nat)
  | queued (id : Nat)
  | rejected
  deriving DecidableEq, Repr

/-- Receives every section not seen before, with the filter that read it. The answer is the
handler's next state, the filters it asks for and what it has to tell. -/
abbrev Handler (η : Type) := FilterSpec → Section → η → η × List FilterSpec × List Note

namespace FilterSpec

def label (f : FilterSpec) : String :=
  "pid " ++ Hex.word f.pid ++ " table_id " ++ Hex.octet f.tableId

end FilterSpec

namespace Scheduler

variable {δ φ η : Type}

def ofLimit (maxRunning : Nat) : Scheduler φ := { maxRunning := max 1 maxRunning }

def isIdle (s : Scheduler φ) : Bool := s.running.isEmpty && s.waiting.isEmpty

def isFull (s : Scheduler φ) : Bool := s.maxRunning ≤ s.running.length

variable (d : Demux δ φ)

def start (id : Nat) (f : FilterSpec) (s : Scheduler φ) (w : World δ) :
    Except DemuxError Unit × Scheduler φ × World δ :=
  if s.isFull then (.error .exhausted, s, w)
  else
    match d.openFilter f.pid f.tableId w with
    | (.error e, w) => (.error e, s, w)
    | (.ok handle, w) =>
      let filter : RunningFilter φ :=
        { id, spec := f, handle, started := w.time
          collector := { tableId := f.tableId, segmented := f.segmented } }
      (.ok (), { s with running := s.running ++ [filter] },
        w.tell (.debug ("start filter " ++ f.label)))

def refusal (f : FilterSpec) (e : DemuxError) : Note :=
  .error ("filter " ++ f.label ++ ": " ++ e.message)

/-- Starts a filter. It waits while the device is exhausted and is dropped if it is refused. -/
def add (f : FilterSpec) (s : Scheduler φ) (w : World δ) : Admission × Scheduler φ × World δ :=
  let id := s.lastId + 1
  match start d id f { s with lastId := id } w with
  | (.ok (), s, w) => (.running id, s, w)
  | (.error .exhausted, s, w) =>
    (.queued id, { s with waiting := s.waiting ++ [(id, f)] },
      w.tell (.trace ("queue filter " ++ f.label)))
  | (.error e, s, w) => (.rejected, s, w.tell (refusal f e))

def addAll (fs : List FilterSpec) (s : Scheduler φ) (w : World δ) : Scheduler φ × World δ :=
  fs.foldl (fun (s, w) f => (add d f s w).2) (s, w)

/-- Starts a filter now or not at all. -/
def install (f : FilterSpec) (s : Scheduler φ) (w : World δ) :
    Except DemuxError Nat × Scheduler φ × World δ :=
  let id := s.lastId + 1
  match start d id f { s with lastId := id } w with
  | (.ok (), s, w) => (.ok id, s, w)
  | (.error e, s, w) => (.error e, s, w)

/-- Starts waiting filters in their order until one must go on waiting. -/
def promoteFrom : List (Nat × FilterSpec) → Scheduler φ → World δ → Scheduler φ × World δ
  | [], s, w => ({ s with waiting := [] }, w)
  | (id, f) :: rest, s, w =>
    if s.isFull then ({ s with waiting := (id, f) :: rest }, w)
    else
      match start d id f s w with
      | (.ok (), s, w) => promoteFrom rest s w
      | (.error .exhausted, s, w) => ({ s with waiting := (id, f) :: rest }, w)
      | (.error e, s, w) => promoteFrom rest s (w.tell (refusal f e))

def promote (s : Scheduler φ) (w : World δ) : Scheduler φ × World δ := promoteFrom d s.waiting s w

def halt (f : RunningFilter φ) (w : World δ) : World δ :=
  match d.stop f.handle w with
  | (.ok (), w) => w
  | (.error e, w) =>
    w.tell (.debug ("stop filter pid " ++ Hex.word f.spec.pid ++ ": " ++ e.message))

/-- Stops a running filter or forgets a waiting one. A stopped filter is closed after the waiting
ones have had their turn. Answers whether there was such a filter. -/
def remove (id : Nat) (s : Scheduler φ) (w : World δ) : Bool × Scheduler φ × World δ :=
  match s.running.find? (·.id = id) with
  | some f =>
    let (s, w) := promote d { s with running := s.running.eraseP (·.id = id) } (halt d f w)
    (true, s, d.close f.handle w)
  | none =>
    (s.waiting.any (·.1 = id), { s with waiting := s.waiting.eraseP (·.1 = id) }, w)

def removeAll (ids : List Nat) (s : Scheduler φ) (w : World δ) : Scheduler φ × World δ :=
  ids.foldl (fun (s, w) id => (remove d id s w).2) (s, w)

def clear (s : Scheduler φ) (w : World δ) : Scheduler φ × World δ :=
  ({ s with running := [], waiting := [] },
    s.running.foldl (fun w f => d.close f.handle (halt d f w)) w)

def taken (f : RunningFilter φ) : Except DemuxError Bytes × World δ → Option Bytes × World δ
  | (.ok bytes, w) => (some bytes, w)
  | (.error e, w) => (none, w.tell (.debug ("pid " ++ Hex.word f.spec.pid ++ ": " ++ e.message)))

/-- Reads one section, once more if sections were lost. -/
def readOne (f : RunningFilter φ) (w : World δ) : Option Bytes × World δ :=
  match d.read f.handle w with
  | (.error .overflow, w) =>
    taken f (d.read f.handle
      (w.tell (.debug ("pid " ++ Hex.word f.spec.pid ++ ": section buffer overflow, retrying"))))
  | r => taken f r

def arrivalNotes (f : FilterSpec) (h : Header) (complete : Bool) : List Note :=
  .trace ("pid " ++ Hex.word f.pid ++ " table_id " ++ Hex.octet h.tableId ++ " ext "
      ++ Hex.word h.ext ++ s!" section {h.number}/{h.last} version {h.version}")
    :: if complete then
        [.debug ("table " ++ Hex.octet h.tableId ++ " on pid " ++ Hex.word f.pid ++ " complete")]
      else []

def collect (f : RunningFilter φ) (w : World δ) :
    Option Section × RunningFilter φ × World δ :=
  match readOne d f w with
  | (none, w) => (none, f, w)
  | (some bytes, w) =>
    match f.collector.check bytes with
    | (none, notes, collector) => (none, { f with collector }, w.tellAll notes)
    | (some s, notes, collector) =>
      let w := (w.tellAll notes).tellAll (collector.recordNotes s.header)
      match collector.record s.header with
      | (none, collector) => (none, { f with collector }, w)
      | (some complete, collector) =>
        (some s, { f with collector }, w.tellAll (arrivalNotes f.spec s.header complete))

structure Pass (δ φ η : Type) where
  running : List (RunningFilter φ)
  handler : η
  requests : List FilterSpec := []
  world : World δ

def serve (handle : Handler η) (p : Pass δ φ η) (i : Nat) : Pass δ φ η :=
  match p.running[i]? with
  | none => p
  | some f =>
    let (arrived, f, w) := collect d f p.world
    let p := { p with running := p.running.set i f, world := w }
    match arrived with
    | none => p
    | some s =>
      let (η, requests, notes) := handle f.spec s p.handler
      { p with handler := η, requests := p.requests ++ requests, world := w.tellAll notes }

def isExpired (now : Nat) (f : RunningFilter φ) : Bool := f.spec.timeout ≤ now - f.started

def isDone (now : Nat) (f : RunningFilter φ) : Bool :=
  f.spec.runOnce && (f.collector.isFinished || isExpired now f)

def expiryNotes (now : Nat) (f : RunningFilter φ) : List Note :=
  if f.spec.runOnce && !f.collector.isFinished && isExpired now f then
    [.warn ("filter timeout " ++ f.spec.label)]
  else []

/-- A filter that is kept for ever begins a new window when its time is up. -/
def renew (now : Nat) (f : RunningFilter φ) : RunningFilter φ :=
  if !f.spec.runOnce && isExpired now f then { f with started := now } else f

def retire (s : Scheduler φ) (w : World δ) : Scheduler φ × World δ :=
  let now := w.time
  let done := (s.running.filter (isDone now)).map (·.id)
  removeAll d done { s with running := s.running.map (renew now) }
    (w.tellAll (s.running.flatMap (expiryNotes now)))

def abandonNotes (s : Scheduler φ) : List Note :=
  s.waiting.map fun (_, f) => .error ("no section filter for " ++ f.label ++ ", dropped")

/-- One pass. If nothing runs, waiting filters are started first; if none can be, they are given
up and the pass ends. If polling fails, nothing is read and nothing removed. -/
def pollOnce (timeout : Nat) (handle : Handler η) (η₀ : η) (s : Scheduler φ) (w : World δ) :
    Except DemuxError Unit × η × Scheduler φ × World δ :=
  let (s, w) := if s.running.isEmpty then promote d s w else (s, w)
  if s.running.isEmpty then (.ok (), η₀, { s with waiting := [] }, w.tellAll s.abandonNotes)
  else
    match d.poll (s.running.map (·.handle)) timeout w with
    | (.error e, w) => (.error e, η₀, s, w)
    | (.ok ready, w) =>
      let p := ready.foldl (serve d handle) { running := s.running, handler := η₀, world := w }
      let (s, w) := addAll d p.requests { s with running := p.running } p.world
      let (s, w) := retire d s w
      (.ok (), p.handler, s, w)

end Scheduler

end Bandscan
