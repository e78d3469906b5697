import Bandscan.Text.Blank
import Bandscan.Network.Basic
/-!
Channel lists: one line for each selected service of the scanned transponders, in the order of the
scan. Names are prepared first, so that none is absent and none holds the field separator.
-/

namespace Bandscan

inductive ListFormat where
  | zap
  | vdr
  | pids
  deriving DecidableEq, Repr, Inhabited

structure ListOptions where
  format : ListFormat := .zap
  satellite : Nat := 0
  /-- Bits: 1 television, 2 radio, 4 other services. -/
  select : Nat := 7
  /-- Written for scrambled services; 0 leaves them out. -/
  caSelect : Nat := 1
  vdrProvider : Bool := false
  vdrVersion : Nat := 2
  channelNumbers : Bool := false
  deriving DecidableEq, Repr

namespace Service

def nameText (s : Service) : String := s.name.getD ""

def firstAudioPid (s : Service) : Nat := (s.audio.head?.map (·.pid)).getD 0

/-- Gives a nameless service its id for a name and takes the colons out of both names. -/
def prepareNames (s : Service) : Service :=
  { s with
    name := some (Text.replace ':' ' ' (s.name.getD ("[" ++ Hex.lower 4 s.id ++ "]")))
    provider := s.provider.map (Text.replace ':' ' ') }

def isSelected (select caSelect : Nat) (s : Service) : Bool :=
  let wanted := if s.isTv then select.testBit 0 else if s.isRadio then select.testBit 1
    else select.testBit 2
  wanted && !(s.scrambled && caSelect = 0)

end Service

namespace ChannelList

def joined (fields : List String) : String := ":".intercalate fields

def zapTuning (satellite : Nat) (tp : Transponder) : List String :=
  match tp.delivery with
  | some (.satellite p) =>
    [toString (tp.frequency / 1000), p.polarisation.letter, toString satellite,
     toString (p.symbolRate / 1000)]
  | some (.cable p) =>
    [toString tp.frequency, tp.inversion.name, toString p.symbolRate, p.fec.name,
     p.modulation.name]
  | some (.terrestrial p) =>
    [toString tp.frequency, tp.inversion.name, p.bandwidth.name, p.codeRateHigh.name,
     p.codeRateLow.name, p.constellation.name, p.mode.name, p.guardInterval.name,
     p.hierarchy.name]
  | none => [toString tp.frequency]

def zapLine (satellite : Nat) (tp : Transponder) (s : Service) : String :=
  joined ([s.nameText] ++ zapTuning satellite tp
    ++ [toString s.videoPid, toString s.firstAudioPid, toString s.id]) ++ "\n"

def vdrTuning (tp : Transponder) : List String :=
  match tp.delivery with
  | some (.satellite p) =>
    [toString (tp.frequency / 1000), p.polarisation.letter,
     s!"S{p.orbitalPosition / 10}.{p.orbitalPosition % 10}" ++ (if p.east then "E" else "W"),
     toString (p.symbolRate / 1000)]
  | some (.cable p) =>
    [toString (tp.frequency / 1000000), s!"M{p.modulation.vdr}", "C",
     toString (p.symbolRate / 1000)]
  | some (.terrestrial p) =>
    [toString (tp.frequency / 1000),
     s!"I{tp.inversion.vdr}B{p.bandwidth.vdr}C{p.codeRateHigh.vdr}D{p.codeRateLow.vdr}"
       ++ s!"M{p.constellation.vdr}T{p.mode.vdr}G{p.guardInterval.vdr}Y{p.hierarchy.vdr}",
     "T", "27500"]
  | none => [toString tp.frequency, "", "", ""]

def vdrName (provider : Bool) (s : Service) : String :=
  (if provider then s.provider.getD "" ++ " - " else "") ++ s.nameText

def vdrVideo (s : Service) : String :=
  if s.videoPid ≠ 0 ∧ s.clockPid ≠ s.videoPid then s!"{s.videoPid}+{s.clockPid}"
  else toString s.videoPid

def vdrAudio (s : Service) : String :=
  ",".intercalate (toString s.firstAudioPid :: s.audio.tail.map fun a => toString a.pid)
    ++ (if s.ac3Pid ≠ 0 then s!";{s.ac3Pid}" else "")

def vdrFields (o : ListOptions) (tp : Transponder) (s : Service) : List String :=
  [vdrName o.vdrProvider s] ++ vdrTuning tp ++ [vdrVideo s, vdrAudio s, toString s.teletextPid,
    toString (if s.scrambled then o.caSelect else 0), toString s.id,
    toString (if o.vdrVersion = 2 then 0 else tp.networkId),
    toString (if o.vdrVersion = 2 then 0 else s.streamId), "0"]

/-- A group line with the channel number comes first, if there is one and it is wanted. -/
def vdrGroup (o : ListOptions) (s : Service) : String :=
  match s.channel with
  | some n => if o.channelNumbers then s!":@{n}\n" else ""
  | none => ""

def vdrLine (o : ListOptions) (tp : Transponder) (s : Service) : String :=
  vdrGroup o s ++ joined (vdrFields o tp s) ++ "\n"

def pidsClock (s : Service) : String :=
  if s.clockPid = 0 ∨ s.serviceType > 2 then "           "
  else if s.clockPid = s.videoPid then "PCR == V   "
  else if s.audio.length = 1 ∧ s.clockPid = s.firstAudioPid then "PCR == A   "
  else "PCR " ++ Hex.word s.clockPid ++ " "

def pidsAudio (s : Service) (a : AudioStream) : String :=
  " " ++ Hex.word a.pid ++
    match a.language with
    | some l => " (" ++ Text.cut 3 l ++ ")"
    | none => if s.audio.length = 1 then "      " else ""

def pidsExtra (label : String) (pid : Nat) : String :=
  if pid ≠ 0 then " " ++ label ++ " " ++ Hex.word pid else ""

def pidsLine (s : Service) : String :=
  Text.column 24 s.nameText ++ " (" ++ Hex.word s.id ++ ") " ++ Hex.lower 2 s.serviceType ++ ": "
    ++ pidsClock s
    ++ (if s.videoPid ≠ 0 then "V " ++ Hex.word s.videoPid else "        ")
    ++ (if s.audio.isEmpty then "" else " A")
    ++ String.join (s.audio.map (pidsAudio s))
    ++ pidsExtra "TT" s.teletextPid ++ pidsExtra "AC3" s.ac3Pid
    ++ pidsExtra "SUB" s.subtitlingPid ++ "\n"

def line (o : ListOptions) (tp : Transponder) (s : Service) : String :=
  match o.format with
  | .zap => zapLine o.satellite tp s
  | .vdr => vdrLine o tp s
  | .pids => pidsLine s

end ChannelList

namespace Network

def prepareNames (n : Network) : Network :=
  { n with transponders := n.transponders.mapIdx fun i tp =>
      if n.scanned.contains i then { tp with services := tp.services.map Service.prepareNames }
      else tp }

def listed (n : Network) : List (Transponder × Service) :=
  n.scannedTransponders.flatMap fun tp => tp.services.map fun s => (tp, s)

end Network

structure Listing where
  text : String
  written : Nat
  notes : List Note
  deriving DecidableEq, Repr

def Listing.ofPrepared (o : ListOptions) (n : Network) : Listing :=
  let chosen (e : Transponder × Service) : Bool := e.2.isSelected o.select o.caSelect
  let lines := (n.listed.filter chosen).map fun (tp, s) => ChannelList.line o tp s
  { text := String.join lines
    written := lines.length
    notes := [.info s!"dumping lists ({n.serviceCount} services)"]
      ++ (n.listed.filter (!chosen ·)).map (fun (_, s) =>
          .debug ("service " ++ Hex.word s.id ++ " not selected"))
      ++ [.info "Done."] }

def Network.dump (o : ListOptions) (n : Network) : Listing × Network :=
  (Listing.ofPrepared o n.prepareNames, n.prepareNames)

end Bandscan
