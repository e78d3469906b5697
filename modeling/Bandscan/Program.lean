import Bandscan.CommandLine
import Bandscan.Kernel.FilterNode
import Bandscan.Kernel.FrontendNode
/-!
The whole program over any kernel: from the command line to the channel list and the exit code.
-/

namespace Bandscan.Program

inductive Failure where
  | unreadableList
  | scan (e : ScanError)
  deriving DecidableEq, Repr

def Failure.message : Failure → String
  | unreadableList => "Failed to read the initial list"
  | scan e => e.message

structure Ending where
  outcome : Except Failure Outcome
  listing : Option Listing := none

variable {κ : Type} (k : Kernel κ)

/-- A frontend that cannot find out the inversion by itself is told that there is none. -/
def resolveInversion (f : FrontendNode) (c : Config) : Config × List Note :=
  if c.inversion = .auto && !f.canInversionAuto then
    ({ c with inversion := .off },
      [.info "Frontend can not do INVERSION_AUTO, trying INVERSION_OFF instead"])
  else (c, [])

def resultNotes (r : Except ScanError Outcome) : List Note :=
  match r with
  | .ok .interrupted => [.warn "scan interrupted, dumping what was found so far"]
  | .ok _ => []
  | .error e => [.error s!"scan aborted ({e.message}), dumping what was found so far"]

/-- Scans with an open frontend, stops all filters, closes the frontend and writes the list of
what has been found, also after an interruption or an error. Numbers out of range end the program
without a list. -/
def scan (budget : Nat) (c : Config) (f : FrontendNode) (initial : Option (List InitialList.Entry))
    (w : World κ) : Ending × World κ :=
  let (c, notes) := resolveInversion f c
  let path := FilterNode.path c.adapter c.demux
  let demux := FilterNode.demux k path
  let frontend := f.frontend k
  let w := (w.tellAll notes).tell (.debug s!"using demux {path}")
  let session : Session FilterNode := c.session
  let (r, s, w) := match initial with
    | some entries => session.scanNetwork demux frontend c.scanOptions budget entries w
    | none => session.scanCurrent demux frontend c.scanOptions budget w
  let w := w.tellAll (resultNotes r)
  let (_, w) := s.scheduler.clear demux w
  let (_, w) := k.call (.close f.fd) w
  match r with
  | .error .overflow => ({ outcome := .error (.scan .overflow) }, w)
  | _ =>
    let (listing, _) := s.network.dump c.listOptions
    ({ outcome := r.mapError .scan, listing := some listing }, w.tellAll listing.notes)

/-- Reads the initial list, opens the frontend and scans. `list` is what the file of the initial
list holds, if it can be read. -/
def run (budget : Nat) (a : Arguments) (c : Config) (list : Option String) (w : World κ) :
    Ending × World κ :=
  let go (initial : Option (List InitialList.Entry)) (w : World κ) : Ending × World κ :=
    match FrontendNode.openNode k c.adapter c.frontend c.currentOnly c.lnb w with
    | (.error e, w) => ({ outcome := .error (.scan (.tuner e)) }, w)
    | (.ok f, w) => scan k budget c f initial w
  match a.initial with
  | none => go none w
  | some _ =>
    match list with
    | none => ({ outcome := .error .unreadableList }, w)
    | some text =>
      let (entries, notes) := InitialList.read text
      go (some entries) (w.tellAll notes)

structure Exit where
  code : Nat
  output : String := ""
  deriving DecidableEq, Repr

def usageExit (e : UsageError) : Exit :=
  { code := if e = .displayHelp ∨ e = .displayVersion then 0 else 2 }

/-- A number out of range ends the program with a code of its own. -/
def Ending.exit (e : Ending) : Exit :=
  { code := match e.outcome with
      | .ok .completed => 0
      | .ok _ => 2
      | .error (.scan .overflow) => 101
      | .error _ => 1
    output := (e.listing.map (·.text)).getD "" }

def Ending.notes (e : Ending) : List Note :=
  match e.outcome with
  | .ok _ => []
  | .error f => [.error f.message]

structure Readers where
  arguments : List String → Except UsageError Arguments := Arguments.parse
  configFile : String → Option ConfigFile := ConfigFile.parse

/-- The whole program. `file` answers what a named file holds, if it can be read. -/
def main (budget : Nat) (args : List String) (file : String → Option String) (w : World κ)
    (readers : Readers := {}) : Exit × World κ :=
  match readers.arguments args with
  | .error e => (usageExit e, w)
  | .ok a =>
    match a.toConfig (a.config.bind file) readers.configFile with
    | .error e => ({ code := 1 }, w.tell (.error e.message))
    | .ok c =>
      let (ending, w) := run k budget a c (a.initial.bind file) w
      (ending.exit, w.tellAll ending.notes)

end Bandscan.Program
