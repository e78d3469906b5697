import Bandscan.Note
import Bandscan.Along
import Bandscan.Text.Hex
import Bandscan.Delivery.Coding
import Bandscan.Table.Pat
import Bandscan.Table.Pmt
import Bandscan.Table.Sdt

namespace Bandscan

structure AudioStream where
  pid : Nat
  language : Option String
  deriving DecidableEq, Repr

/-- What is known about a service. A pid of 0 stands for no stream. -/
structure Service where
  id : Nat
  streamId : Nat := 0
  mapPid : Nat := 0
  clockPid : Nat := 0
  videoPid : Nat := 0
  teletextPid : Nat := 0
  subtitlingPid : Nat := 0
  ac3Pid : Nat := 0
  audio : List AudioStream := []
  caSystems : List Nat := []
  provider : Option String := none
  name : Option String := none
  running : RunningStatus := .undefined
  scrambled : Bool := false
  serviceType : Nat := 0
  channel : Option Nat := none
  mapRequested : Bool := false
  deriving DecidableEq, Repr

namespace Service

def maxAudio : Nat := 32
def maxCaSystems : Nat := 16

def isTv (s : Service) : Bool := s.videoPid ≠ 0
def isRadio (s : Service) : Bool := s.videoPid = 0 && !s.audio.isEmpty

def modifyIn (id : Nat) (f : Service → Service) : List Service → List Service
  | [] => []
  | s :: ss => if s.id = id then f s :: ss else s :: modifyIn id f ss

/-- Changes the service with this id. If there is none, a blank one is appended first. -/
def updateIn (id : Nat) (f : Service → Service) : List Service → List Service
  | [] => [f { id }]
  | s :: ss => if s.id = id then f s :: ss else s :: updateIn id f ss

def assign (streamId : Nat) (p : Program) (s : Service) : Service :=
  { s with
    mapPid := p.pid
    streamId
    mapRequested := s.mapRequested || decide (p.pid ≠ 0) }

def hasRoom (s : Service) : Bool := s.audio.length < maxAudio

def pushAudio (a : AudioStream) (s : Service) : Service :=
  if s.hasRoom then { s with audio := s.audio ++ [a] } else s

def pushAudioNotes (s : Service) : List Note :=
  if s.hasRoom then []
  else
    [.warn ("service " ++ Hex.word s.id ++ s!": more than {maxAudio} audio channels, truncating")]

def addStream (s : Service) (st : Stream) : Service :=
  match st.kind with
  | .video => if s.videoPid = 0 then { s with videoPid := st.pid } else s
  | .audio language => s.pushAudio ⟨st.pid, language⟩
  | .teletext => { s with teletextPid := st.pid }
  | .subtitling => { s with subtitlingPid := st.pid }
  | .ac3 => { s with ac3Pid := st.pid }
  | .other => s

def addStreamNotes (s : Service) (st : Stream) : List Note :=
  let told (label : String) : Note := .debug ("  " ++ label ++ ": PID " ++ Hex.word st.pid)
  match st.kind with
  | .video => if s.videoPid = 0 then [told "VIDEO     "] else []
  | .audio _ => told "AUDIO     " :: s.pushAudioNotes
  | .teletext => [told "TELETEXT  "]
  | .subtitling => [told "SUBTITLING"]
  | .ac3 => [told "AC3       "]
  | .other =>
    [.debug ("  OTHER     : PID " ++ Hex.word st.pid ++ " TYPE " ++ Hex.octet st.streamType
      ++ " (" ++ Stream.typeName st.streamType ++ ")")]

def rewound (clockPid : Nat) (s : Service) : Service := { s with clockPid, audio := [] }

def applyMap (m : Pmt) (s : Service) : Service := m.streams.foldl addStream (s.rewound m.clockPid)

def applyMapNotes (m : Pmt) (s : Service) : List Note :=
  along addStream addStreamNotes (s.rewound m.clockPid) m.streams

def setCaSystems (ids : List Nat) (s : Service) : Service :=
  { s with caSystems := ids.take maxCaSystems }

def setCaSystemsNotes (id : Nat) (ids : List Nat) : List Note :=
  (if ids.length > maxCaSystems then
    [Note.warn ("service " ++ Hex.word id
      ++ s!": too many CA system ids ({ids.length}), keeping {maxCaSystems}")]
  else [])
  ++ (ids.take maxCaSystems).map fun ca => .debug ("  CA ID " ++ Hex.word ca)

/-- What the entry does not say stays as it was. -/
def describe (streamId : Nat) (i : ServiceInfo) (s : Service) : Service :=
  let s := { s with streamId, running := i.running, scrambled := i.scrambled }
  let s := match i.description with
    | some d => { s with serviceType := d.serviceType, provider := d.provider, name := d.name }
    | none => s
  if i.caSystems = [] then s else s.setCaSystems i.caSystems

def describeNotes (i : ServiceInfo) : List Note :=
  (if i.caSystems = [] then [] else setCaSystemsNotes i.serviceId i.caSystems)
  ++ (match i.descriptorError with
      | some e => [.warn ("service " ++ Hex.word i.serviceId ++ ": " ++ e.message)]
      | none => [])
  ++ [.debug ("  service " ++ Hex.word i.serviceId ++ " '"
      ++ (i.description.bind (·.name)).getD "" ++ "' running " ++ i.running.describe
      ++ (if i.scrambled then " scrambled" else ""))]

end Service

end Bandscan
