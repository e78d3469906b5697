import Bandscan.Kernel.Call
import Bandscan.Device.Memory
/-!
Device nodes that are simulated. Every call is recorded with its error number. Error numbers are
scripted for each call by name; a call without a script succeeds.
-/

namespace Bandscan

structure SimulatedNodes where
  type : Nat := 0
  caps : Nat := 0
  name : Bytes := []
  lock : List Nat := []
  /-- Status words to answer before the lock decides. -/
  status : List Nat := []
  multiplexes : Multiplexes := []
  queue : List Queued := []
  tuned : Option Nat := none
  /-- The error numbers of coming calls, 0 for success. -/
  script : List (String × List Nat) := []
  idleEvents : Nat := 0
  /-- An interrupted poll interrupts the scan. -/
  interruptible : Bool := false
  opened : Nat := 0
  filters : List (Nat × Nat × Nat) := []
  calls : Array (Call × Nat) := #[]

namespace SimulatedNodes

def nextErrno (name : String) : List (String × List Nat) → Nat × List (String × List Nat)
  | [] => (0, [])
  | (n, es) :: rest =>
    if n = name then
      match es with
      | [] => (0, (n, []) :: rest)
      | e :: es => (e, (n, es) :: rest)
    else
      let (e, rest) := nextErrno name rest
      (e, (n, es) :: rest)

def answer (c : Call) (s : SimulatedNodes) : Nat × SimulatedNodes :=
  let (e, script) := nextErrno c.name s.script
  (e, { s with script, calls := s.calls.push (c, e) })

/-- A call that is interrupted is repeated. -/
def answerRepeated (c : Call) : Nat → SimulatedNodes → Nat × SimulatedNodes
  | 0, s => s.answer c
  | n + 1, s =>
    match s.answer c with
    | (e, s) => if e = Errno.interrupted then answerRepeated c n s else (e, s)

def scriptLength (c : Call) (s : SimulatedNodes) : Nat :=
  ((s.script.lookup c.name).getD []).length

def statusWord (s : SimulatedNodes) : Nat × SimulatedNodes :=
  match s.status with
  | word :: rest => (word, { s with status := rest })
  | [] => (if s.tuned.any s.lock.contains then 31 else 15, s)

def tuneTo (frequency : Nat) (s : SimulatedNodes) : SimulatedNodes :=
  { s with tuned := some frequency, queue := Queued.ofMultiplex s.multiplexes frequency }

def setFilter (fd pid : Nat) (p : SectionPattern) (s : SimulatedNodes) : SimulatedNodes :=
  { s with filters := (fd, pid, (p.filter.head?.map (·.toNat)).getD 0) :: s.filters }

def hasData (s : SimulatedNodes) (fd : Nat) : Bool :=
  (s.filters.lookup fd).any fun (pid, tableId) => s.queue.any (·.isFor pid tableId)

def takeSection (fd size : Nat) (s : SimulatedNodes) : Option Bytes × SimulatedNodes :=
  match s.filters.lookup fd with
  | none => (none, s)
  | some (pid, tableId) =>
    match Queued.take pid tableId s.queue with
    | (some (.bytes b), queue) => (some (b.take size), { s with queue })
    | (_, queue) => (none, { s with queue })

def simple (c : Call) (effect : SimulatedNodes → SimulatedNodes) (w : World SimulatedNodes) :
    Except Nat Unit × World SimulatedNodes :=
  let (e, w) := w.onDevice (answer c)
  if e = 0 then (.ok (), w.withDevice effect) else (.error e, w)

def openNode (c : Call) (w : World SimulatedNodes) : Except Nat Nat × World SimulatedNodes :=
  let (e, w) := w.onDevice (answerRepeated c (scriptLength c w.device))
  if e = 0 then
    (.ok w.device.opened, w.withDevice fun s => { s with opened := s.opened + 1 })
  else (.error e, w)

def readable : Nat := 1

def eventsOf (s : SimulatedNodes) (fd : Nat) : Nat :=
  if s.hasData fd then readable else s.idleEvents

/-- Time passes only while no descriptor has an event. -/
def poll (c : Call) (fds : List Nat) (timeout : Nat) (w : World SimulatedNodes) :
    Except Nat (List Nat) × World SimulatedNodes :=
  let (e, w) := w.onDevice (answer c)
  if e = 0 then
    let events := fds.map w.device.eventsOf
    (.ok events, if events.any (· ≠ 0) then w else w.sleep (1000 * timeout))
  else
    (.error e, if e = Errno.interrupted && w.device.interruptible then w.interrupt else w)

def readNode (c : Call) (fd size : Nat) (w : World SimulatedNodes) :
    Except Nat Bytes × World SimulatedNodes :=
  let (e, w) := w.onDevice (answer c)
  if e = 0 then
    match w.onDevice (takeSection fd size) with
    | (some b, w) => (.ok b, w)
    | (none, w) => (.error Errno.again, w)
  else (.error e, w)

def kernel : Kernel SimulatedNodes where
  call c := match c with
    | .openNode .. => openNode c
    | .getInfo _ => fun w =>
      let (r, w) := simple c id w
      (r.map fun _ => { name := w.device.name.take 128, type := w.device.type,
                        caps := w.device.caps }, w)
    | .readStatus _ => fun w =>
      match simple c id w with
      | (.ok _, w) => let (word, w) := w.onDevice statusWord; (.ok word, w)
      | (.error e, w) => (.error e, w)
    | .poll fds timeout => poll c fds timeout
    | .read fd size => readNode c fd size
    | .setFrontend _ words => simple c (tuneTo (words.headD 0))
    | .setFilter fd pid p _ _ => simple c (setFilter fd pid p)
    | .close _ | .setTone .. | .setVoltage .. | .stopFilter _ => simple c id

end SimulatedNodes

end Bandscan
