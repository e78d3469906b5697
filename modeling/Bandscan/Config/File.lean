import Bandscan.Config
import Bandscan.Toml.Read
/-!
The configuration file. It has three tables, `device`, `scan` and `output`, whose keys are all
optional; other tables and keys are errors. What the file sets replaces the defaults.
-/

namespace Bandscan

structure DeviceSettings where
  adapter : Option Nat := none
  frontend : Option Nat := none
  demux : Option Nat := none
  lnb : Option Lnb := none
  satellite : Option Nat := none
  /-- 0 off, 1 on, 2 auto. -/
  inversion : Option Nat := none
  deriving DecidableEq, Repr

structure ScanSettings where
  maxFilters : Option Nat := none
  tolerance : Option Nat := none
  longTimeout : Option Bool := none
  otherNits : Option Bool := none
  tuneAttempts : Option Nat := none
  lockPolls : Option Nat := none
  lockDelay : Option Nat := none
  pollInterval : Option Nat := none
  channelNumbers : Option Bool := none
  deriving DecidableEq, Repr

structure OutputSettings where
  format : Option ListFormat := none
  select : Option Nat := none
  caSelect : Option Nat := none
  vdrProvider : Option Bool := none
  vdrVersion : Option Nat := none
  deriving DecidableEq, Repr

/-- What a configuration file sets. Times are in milliseconds. -/
structure ConfigFile where
  device : DeviceSettings := {}
  scan : ScanSettings := {}
  output : OutputSettings := {}
  deriving DecidableEq, Repr

namespace Toml.Node

def natBelow (limit : Nat) : Node → Option Nat
  | .int n => if 0 ≤ n ∧ n < limit then some n.toNat else none
  | _ => none

def byte : Node → Option Nat := natBelow Numeral.limit8
def word16 : Node → Option Nat := natBelow Numeral.limit16
def word32 : Node → Option Nat := natBelow Numeral.limit32
def count : Node → Option Nat := natBelow Numeral.limit64

def flag : Node → Option Bool
  | .bool b => some b
  | _ => none

/-- The fields of a record. A table gives them by name and may leave out those that are optional;
an array gives them in their order. Other keys of a table are errors if the record is closed. -/
structure Fields where
  values : List (String × Node)

def Fields.get {α : Type} (fs : Fields) (name : String) (decode : Node → Option α) :
    Option (Option α) :=
  match fs.values.lookup name with
  | none => some none
  | some v => (decode v).map some

/-- `required` is how many elements an array must have at least. -/
def fields (names : List String) (closed : Bool) (required : Nat) : Node → Option Fields
  | .table _ entries =>
    if closed && entries.any (fun (k, _) => !names.contains k) then none else some ⟨entries⟩
  | .array vs | .tables vs => if vs.length < required then none else some ⟨names.zip vs⟩
  | _ => none

def isEmpty : Node → Bool
  | .array [] | .tables [] | .table _ [] => true
  | _ => false

def formatOf? (name : String) : Option ListFormat :=
  [("zap", ListFormat.zap), ("vdr", .vdr), ("pids", .pids)].lookup name

/-- A format by its name, or as a table whose only key is the name and holds nothing. -/
def format : Node → Option ListFormat
  | .text s => formatOf? s
  | .table _ [(k, v)] => if v.isEmpty then formatOf? k else none
  | _ => none

def lnb (n : Node) : Option Lnb := do
  let fs ← n.fields ["low", "high", "switch"] false 1
  let low ← fs.get "low" word32
  let high ← fs.get "high" word32
  let switch ← fs.get "switch" word32
  return { low := ← low, high := high.getD 0, switch := switch.getD 0 }

def deviceSettings (n : Node) : Option DeviceSettings := do
  let names := ["adapter", "frontend", "demux", "lnb", "sat_number", "inversion"]
  let fs ← n.fields names true names.length
  return {
    adapter := ← fs.get "adapter" word32
    frontend := ← fs.get "frontend" word32
    demux := ← fs.get "demux" word32
    lnb := ← fs.get "lnb" lnb
    satellite := ← fs.get "sat_number" byte
    inversion := ← fs.get "inversion" byte }

def scanSettings (n : Node) : Option ScanSettings := do
  let names := ["max_filters", "frequency_tolerance", "long_timeout", "other_nits",
    "tune_attempts", "lock_polls", "lock_delay_ms", "poll_interval_ms", "uk_channel_numbers"]
  let fs ← n.fields names true names.length
  return {
    maxFilters := ← fs.get "max_filters" count
    tolerance := ← fs.get "frequency_tolerance" word32
    longTimeout := ← fs.get "long_timeout" flag
    otherNits := ← fs.get "other_nits" flag
    tuneAttempts := ← fs.get "tune_attempts" word32
    lockPolls := ← fs.get "lock_polls" word32
    lockDelay := ← fs.get "lock_delay_ms" count
    pollInterval := ← fs.get "poll_interval_ms" count
    channelNumbers := ← fs.get "uk_channel_numbers" flag }

def outputSettings (n : Node) : Option OutputSettings := do
  let names := ["format", "service_select", "ca_select", "vdr_provider", "vdr_version"]
  let fs ← n.fields names true names.length
  return {
    format := ← fs.get "format" format
    select := ← fs.get "service_select" byte
    caSelect := ← fs.get "ca_select" word16
    vdrProvider := ← fs.get "vdr_provider" flag
    vdrVersion := ← fs.get "vdr_version" byte }

def configFile (n : Node) : Option ConfigFile := do
  let fs ← n.fields ["device", "scan", "output"] true 3
  return {
    device := (← fs.get "device" deviceSettings).getD {}
    scan := (← fs.get "scan" scanSettings).getD {}
    output := (← fs.get "output" outputSettings).getD {} }

end Toml.Node

def ConfigFile.parse (text : String) : Option ConfigFile := (Toml.read text).bind (·.configFile)

namespace Config

def applyDevice (d : DeviceSettings) (c : Config) : Config :=
  { c with
    adapter := d.adapter.getD c.adapter
    frontend := d.frontend.getD c.frontend
    demux := d.demux.getD c.demux
    lnb := d.lnb.getD c.lnb
    satellite := d.satellite.getD c.satellite }

def applyScan (s : ScanSettings) (c : Config) : Config :=
  { c with
    maxFilters := s.maxFilters.getD c.maxFilters
    tolerance := s.tolerance.getD c.tolerance
    longTimeout := s.longTimeout.getD c.longTimeout
    otherNits := s.otherNits.getD c.otherNits
    tune := {
      attempts := s.tuneAttempts.getD c.tune.attempts
      lockPolls := s.lockPolls.getD c.tune.lockPolls
      lockDelay := (s.lockDelay.map (1000 * ·)).getD c.tune.lockDelay }
    pollInterval := (s.pollInterval.map (1000 * ·)).getD c.pollInterval
    channelNumbers := s.channelNumbers.getD c.channelNumbers }

def applyOutput (o : OutputSettings) (c : Config) : Config :=
  { c with
    format := o.format.getD c.format
    select := o.select.getD c.select
    caSelect := o.caSelect.getD c.caSelect
    vdrProvider := o.vdrProvider.getD c.vdrProvider
    vdrVersion := o.vdrVersion.getD c.vdrVersion }

def applyInversion (code : Option Nat) (c : Config) : Except Invalid Config :=
  match code with
  | none => .ok c
  | some code =>
    match Inversion.ofCode code with
    | .ok inversion => .ok { c with inversion }
    | .error e => .error (.inversion e)

/-- The configuration with everything a file sets. After an error it holds the settings that come
before the one at fault. -/
def applyFile (f : ConfigFile) (c : Config) : Config × Except Invalid Unit :=
  let c := c.applyDevice f.device
  match c.applyInversion f.device.inversion with
  | .error e => (c, .error e)
  | .ok c => ((c.applyScan f.scan).applyOutput f.output, .ok ())

end Config

end Bandscan
