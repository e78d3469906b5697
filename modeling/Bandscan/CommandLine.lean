import Bandscan.Config.File
/-!
The command line: options in long and short form, flags that can be written together, and the name
of the initial list. An option is settled, and its value checked, when the next argument is read
that is not its value.
-/

namespace Bandscan

inductive Switch where
  | current | adapter | frontend | demux | otherNits | longTimeout | output | ca | types
  | provider | vdrIds | inversion | lnb | sat | channelNumbers | tolerance | maxFilters | config
  | verbose | quiet | help | version
  deriving DecidableEq, Repr

namespace Switch

def all : List Switch :=
  [current, adapter, frontend, demux, otherNits, longTimeout, output, ca, types, provider, vdrIds,
   inversion, lnb, sat, channelNumbers, tolerance, maxFilters, config, verbose, quiet, help,
   version]

def long : Switch → String
  | current => "current"
  | adapter => "adapter"
  | frontend => "frontend"
  | demux => "demux"
  | otherNits => "other-nits"
  | longTimeout => "long-timeout"
  | output => "output"
  | ca => "ca"
  | types => "types"
  | provider => "provider"
  | vdrIds => "vdr-ids"
  | inversion => "inversion"
  | lnb => "lnb"
  | sat => "sat"
  | channelNumbers => "uk-channel-numbers"
  | tolerance => "tolerance"
  | maxFilters => "max-filters"
  | config => "config"
  | verbose => "verbose"
  | quiet => "quiet"
  | help => "help"
  | version => "version"

def short : Switch → Option Char
  | current => some 'c'
  | adapter => some 'a'
  | frontend => some 'f'
  | demux => some 'd'
  | otherNits => some 'n'
  | longTimeout => some '5'
  | output => some 'o'
  | ca => some 'x'
  | types => some 't'
  | provider => some 'p'
  | vdrIds => some 'e'
  | inversion => some 'i'
  | lnb => some 'l'
  | sat => some 's'
  | channelNumbers => some 'u'
  | tolerance | maxFilters | config => none
  | verbose => some 'v'
  | quiet => some 'q'
  | help => some 'h'
  | version => some 'V'

def takesValue : Switch → Bool
  | adapter | frontend | demux | output | ca | types | inversion | lnb | sat | tolerance
  | maxFilters | config => true
  | _ => false

def ofLong? (name : String) : Option Switch := all.find? (·.long = name)

def ofShort? (c : Char) : Option Switch := all.find? (·.short = some c)

end Switch

inductive UsageError where
  | displayHelp
  | displayVersion
  | unknownArgument
  | tooManyValues
  /-- A value is missing or is none of the possible ones. -/
  | invalidValue
  /-- A value is not of the right form or out of range. -/
  | valueValidation
  /-- An argument is repeated or excludes another. -/
  | argumentConflict
  | missingRequired
  deriving DecidableEq, Repr

structure Arguments where
  initial : Option String := none
  current : Bool := false
  adapter : Option Nat := none
  frontend : Option Nat := none
  demux : Option Nat := none
  otherNits : Bool := false
  longTimeout : Bool := false
  output : Option ListFormat := none
  caSelect : Option Nat := none
  select : Option Nat := none
  vdrProvider : Bool := false
  vdrIds : Bool := false
  inversion : Option Nat := none
  lnb : Option Lnb := none
  satellite : Option Nat := none
  channelNumbers : Bool := false
  tolerance : Option Nat := none
  maxFilters : Option Nat := none
  config : Option String := none
  verbose : Nat := 0
  quiet : Nat := 0
  deriving DecidableEq, Repr

namespace Arguments

def signedBelow (limit : Nat) (value : String) : Except UsageError Nat :=
  let magnitude : List Char × Nat :=
    match value.toList with
    | '-' :: cs => (if cs.head? = some '+' then [] else cs, 1)
    | cs => (cs, limit)
  match Numeral.parse magnitude.2 magnitude.1 with
  | .ok n => .ok n
  | .error _ => .error .valueValidation

def hexBelow (limit : Nat) (value : String) : Except UsageError Nat :=
  let r := match value.toList with
    | '0' :: 'x' :: cs | '0' :: 'X' :: cs => Numeral.parseBase 16 limit cs
    | cs => Numeral.parse limit cs
  r.mapError fun _ => .valueValidation

def unsignedBelow (limit : Nat) (value : String) : Except UsageError Nat :=
  (Numeral.parse limit value.toList).mapError fun _ => .valueValidation

def formatValue (value : String) : Except UsageError ListFormat :=
  match Toml.Node.formatOf? value with
  | some f => .ok f
  | none => .error .invalidValue

def pathValue (value : String) : Except UsageError String :=
  if value.isEmpty then .error .invalidValue else .ok value

def setValue (a : Arguments) (s : Switch) (value : String) : Except UsageError Arguments :=
  match s with
  | .adapter => (signedBelow Numeral.limit32 value).map fun n => { a with adapter := some n }
  | .frontend => (signedBelow Numeral.limit32 value).map fun n => { a with frontend := some n }
  | .demux => (signedBelow Numeral.limit32 value).map fun n => { a with demux := some n }
  | .output => (formatValue value).map fun f => { a with output := some f }
  | .ca => (hexBelow Numeral.limit16 value).map fun n => { a with caSelect := some n }
  | .types => (hexBelow Numeral.limit8 value).map fun n => { a with select := some n }
  | .inversion => (signedBelow 3 value).map fun n => { a with inversion := some n }
  | .lnb =>
    ((Lnb.parse value).mapError fun _ => .valueValidation).map fun l => { a with lnb := some l }
  | .sat => (signedBelow Numeral.limit8 value).map fun n => { a with satellite := some n }
  | .tolerance => (signedBelow Numeral.limit32 value).map fun n => { a with tolerance := some n }
  | .maxFilters =>
    (unsignedBelow Numeral.limit64 value).map fun n => { a with maxFilters := some n }
  | .config => (pathValue value).map fun p => { a with config := some p }
  | _ => .error .tooManyValues

def maxCount : Nat := 255

def setFlag (a : Arguments) (s : Switch) : Except UsageError Arguments :=
  match s with
  | .current => .ok { a with current := true }
  | .otherNits => .ok { a with otherNits := true }
  | .longTimeout => .ok { a with longTimeout := true }
  | .provider => .ok { a with vdrProvider := true }
  | .vdrIds => .ok { a with vdrIds := true }
  | .channelNumbers => .ok { a with channelNumbers := true }
  | .verbose => .ok { a with verbose := min maxCount (a.verbose + 1) }
  | .quiet => .ok { a with quiet := min maxCount (a.quiet + 1) }
  | .help => .error .displayHelp
  | .version => .error .displayVersion
  | _ => .error .invalidValue

def isCounted : Switch → Bool
  | .verbose | .quiet => true
  | _ => false

/-- What has been read but not settled: an option without its value, an option with its value,
or the initial list. -/
inductive Pending where
  | awaiting (s : Switch)
  | option (s : Switch) (value : String)
  | initial (path : String)
  deriving DecidableEq, Repr

structure Progress where
  arguments : Arguments := {}
  given : List Switch := []
  initialGiven : Bool := false
  pending : Option Pending := none
  deriving Repr

namespace Progress

/-- Sets an option: a second one is a conflict, whatever its value. -/
def give (s : Switch) (value : String) (p : Progress) : Except UsageError Progress :=
  if p.given.contains s then .error .argumentConflict
  else do
    let arguments ← p.arguments.setValue s value
    return { p with arguments, given := s :: p.given }

def settle (p : Progress) : Except UsageError Progress :=
  let settled := { p with pending := none }
  match p.pending with
  | none => .ok p
  | some (.awaiting _) => .error .invalidValue
  | some (.option s value) => settled.give s value
  | some (.initial path) => do
    let path ← pathValue path
    return { settled with arguments := { p.arguments with initial := some path } }

def raise (s : Switch) (p : Progress) : Except UsageError Progress := do
  let p ← p.settle
  if p.given.contains s && !isCounted s then throw .argumentConflict
  let arguments ← p.arguments.setFlag s
  return { p with arguments, given := s :: p.given }

def openOption (s : Switch) (attached : Option String) (p : Progress) :
    Except UsageError Progress := do
  let p ← p.settle
  match attached with
  | some value => p.give s value
  | none => return { p with pending := some (.awaiting s) }

def readLong (body : List Char) (p : Progress) : Except UsageError Progress :=
  let name := String.ofList (body.takeWhile (· ≠ '='))
  let attached : Option String :=
    match body.dropWhile (· ≠ '=') with
    | _ :: value => some (String.ofList value)
    | [] => none
  match Switch.ofLong? name with
  | none => .error .unknownArgument
  | some s =>
    if s.takesValue then p.openOption s attached
    else if attached.isSome then .error .tooManyValues
    else p.raise s

/-- Flags in short form, without the hyphen. The first option among them takes what follows, with
or without an equals sign, for its value. -/
def readShort : List Char → Progress → Except UsageError Progress
  | [], p => .ok p
  | c :: cs, p =>
    match Switch.ofShort? c with
    | none => .error .unknownArgument
    | some s =>
      if s.takesValue then
        p.openOption s <|
          match cs with
          | [] => none
          | '=' :: value => some (String.ofList value)
          | value => some (String.ofList value)
      else do readShort cs (← p.raise s)

def readPlain (arg : String) (p : Progress) : Except UsageError Progress :=
  if p.initialGiven then .error .unknownArgument
  else do
    let p ← p.settle
    return { p with initialGiven := true, pending := some (.initial arg) }

/-- Reads one argument. A single hyphen is a plain argument. -/
def readOne (arg : String) (p : Progress) : Except UsageError Progress :=
  match arg.toList with
  | '-' :: '-' :: body => p.readLong body
  | '-' :: c :: cs => p.readShort (c :: cs)
  | _ =>
    match p.pending with
    | some (.awaiting s) => .ok { p with pending := some (.option s arg) }
    | _ => p.readPlain arg

/-- Reads all arguments. Behind a double hyphen all are plain. -/
def readAll (plain : Bool) : List String → Progress → Except UsageError Progress
  | [], p => p.settle
  | arg :: rest, p =>
    if plain then do readAll true rest (← p.readPlain arg)
    else if arg = "--" then readAll true rest p
    else do readAll false rest (← p.readOne arg)

end Progress

def checked (a : Arguments) : Except UsageError Arguments :=
  if (a.initial.isSome && a.current) || (a.verbose ≠ 0 && a.quiet ≠ 0) then
    .error .argumentConflict
  else if a.initial.isNone && !a.current then .error .missingRequired
  else .ok a

def parse (args : List String) : Except UsageError Arguments := do
  (← Progress.readAll false args {}).arguments.checked

def verbosity (a : Arguments) : Nat := min 5 (3 + a.verbose - a.quiet)

inductive ConfigError where
  | unreadable
  | malformed
  | invalid (e : Config.Invalid)
  deriving DecidableEq, Repr

def ConfigError.message : ConfigError → String
  | unreadable => "Failed to read the configuration file"
  | malformed => "Failed to parse config file"
  | invalid e => e.message

def apply (a : Arguments) (c : Config) : Except Config.Invalid Config :=
  let c := { c with
    adapter := a.adapter.getD c.adapter
    frontend := a.frontend.getD c.frontend
    demux := a.demux.getD c.demux
    lnb := a.lnb.getD c.lnb
    satellite := a.satellite.getD c.satellite }
  (c.applyInversion a.inversion).map fun c => { c with
    tolerance := a.tolerance.getD c.tolerance
    maxFilters := a.maxFilters.getD c.maxFilters
    caSelect := a.caSelect.getD c.caSelect
    select := a.select.getD c.select
    otherNits := c.otherNits || a.otherNits
    longTimeout := c.longTimeout || a.longTimeout
    vdrProvider := c.vdrProvider || a.vdrProvider
    channelNumbers := c.channelNumbers || a.channelNumbers
    vdrVersion := if a.vdrIds then 3 else c.vdrVersion
    currentOnly := c.currentOnly || a.current
    format := a.output.getD (if a.current then .pids else c.format) }

/-- Defaults, then the configuration file if one is named, then the arguments. `file` is what the
named file holds, if it can be read, and `read` makes settings of it. -/
def toConfig (a : Arguments) (file : Option String)
    (read : String → Option ConfigFile := ConfigFile.parse) : Except ConfigError Config := do
  let c ← match a.config with
    | none => .ok ({} : Config)
    | some _ =>
      match file with
      | none => .error .unreadable
      | some text =>
        match read text with
        | none => .error .malformed
        | some f =>
          match Config.applyFile f {} with
          | (c, .ok ()) => .ok c
          | (_, .error e) => .error (.invalid e)
  let c ← (a.apply c).mapError .invalid
  c.validate.mapError .invalid
  return c

end Arguments

end Bandscan
