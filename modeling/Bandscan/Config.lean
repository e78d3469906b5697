import Bandscan.ChannelList
import Bandscan.Session
import Bandscan.Tuning

namespace Bandscan

/-- The settings of a scan. Times are in microseconds. -/
structure Config where
  adapter : Nat := 0
  frontend : Nat := 0
  demux : Nat := 0
  maxFilters : Nat := 32
  tolerance : Nat := 2000
  longTimeout : Bool := false
  otherNits : Bool := false
  currentOnly : Bool := false
  inversion : Inversion := .auto
  lnb : Lnb := .universal
  satellite : Nat := 0
  tune : TuneOptions := {}
  pollInterval : Nat := 1000000
  format : ListFormat := .zap
  select : Nat := 7
  caSelect : Nat := 1
  vdrProvider : Bool := false
  vdrVersion : Nat := 2
  channelNumbers : Bool := false
  deriving DecidableEq, Repr

namespace Config

inductive Invalid where
  | satellite (position : Nat)
  | maxFilters
  | tolerance
  | lnb (e : Lnb.Error)
  | inversion (e : UnknownToken)
  deriving DecidableEq, Repr

def Invalid.message (e : Invalid) : String :=
  "Invalid configuration: " ++ match e with
    | satellite position => s!"satellite switch position {position} is not below 4"
    | maxFilters => "max_filters must be at least 1"
    | tolerance => "frequency_tolerance must be at least 1"
    | lnb e => e.message
    | inversion e => e.message

def validate (c : Config) : Except Invalid Unit := do
  if c.satellite ≥ 4 then throw (.satellite c.satellite)
  if c.maxFilters = 0 then throw .maxFilters
  if c.tolerance = 0 then throw .tolerance
  c.lnb.check.mapError .lnb

def timeout (c : Config) (seconds : Nat) : Nat :=
  1000000 * seconds * (if c.longTimeout then 5 else 1)

def timeouts (c : Config) : Timeouts :=
  { pat := c.timeout 5, sdt := c.timeout 5, nit := c.timeout 15, pmt := c.timeout 5 }

/-- Network tables are not needed for the pids of the current transponder. -/
def readNit (c : Config) : Bool := !(c.currentOnly && c.format = .pids)

def scanOptions (c : Config) : ScanOptions :=
  { timeouts := c.timeouts, pollInterval := c.pollInterval, tune := c.tune, readNit := c.readNit,
    readOtherNits := c.otherNits, channelNumbers := c.channelNumbers }

def listOptions (c : Config) : ListOptions :=
  { format := c.format, satellite := c.satellite, select := c.select, caSelect := c.caSelect,
    vdrProvider := c.vdrProvider, vdrVersion := c.vdrVersion, channelNumbers := c.channelNumbers }

def network (c : Config) : Network := { tolerance := c.tolerance, inversion := c.inversion }

def session {φ : Type} (c : Config) : Session φ :=
  { network := c.network, scheduler := .ofLimit c.maxFilters }

end Config

end Bandscan
