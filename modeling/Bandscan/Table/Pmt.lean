import Bandscan.Table.Error
import Bandscan.Descriptor.Service

namespace Bandscan

inductive StreamKind where
  | video
  | audio (language : Option String)
  | teletext | subtitling | ac3 | other
  deriving DecidableEq, Repr

structure Stream where
  streamType : Nat
  pid : Nat
  descriptors : Bytes
  deriving DecidableEq, Repr

namespace Stream

/-- Private data is told by its descriptors: teletext before subtitling before AC-3. -/
def kind (s : Stream) : StreamKind :=
  match s.streamType with
  | 0x01 | 0x02 => .video
  | 0x03 | 0x04 =>
    .audio ((Descriptor.find? s.descriptors Descriptor.iso639Tag).bind fun data =>
      match Descriptor.language data with
      | .ok (language, _) => some language
      | .error _ => none)
  | 0x06 =>
    if Descriptor.has s.descriptors Descriptor.teletextTag then .teletext
    else if Descriptor.has s.descriptors Descriptor.subtitlingTag then .subtitling
    else if Descriptor.has s.descriptors Descriptor.ac3Tag then .ac3
    else .other
  | _ => .other

def typeName (streamType : Nat) : String :=
  match streamType with
  | 0x01 => "MPEG-1 Video"
  | 0x02 => "MPEG-2 Video"
  | 0x03 => "MPEG-1 Audio"
  | 0x04 => "MPEG-2 Audio"
  | 0x06 => "PES Private Data"
  | 0x1B => "H.264/AVC Video"
  | 0x24 => "H.265/HEVC Video"
  | 0x0F => "AAC Audio (ADTS)"
  | 0x11 => "AAC Audio (LATM)"
  | _ => "Unknown"

end Stream

structure Pmt where
  program : Nat
  version : Nat
  clockPid : Nat
  streams : List Stream
  truncated : Option Inconsistency
  deriving DecidableEq, Repr

namespace Pmt

def tableId : Nat := 0x02

def streamLoop : Bytes → List Stream × Option Inconsistency
  | [] => ([], none)
  | t :: p₁ :: p₀ :: l₁ :: l₀ :: rest =>
    let declared := Word.length l₁ l₀
    let pid := Word.pid p₁ p₀
    if declared > rest.length then ([], some (.streamInfo declared pid))
    else
      let (streams, e) := streamLoop (rest.drop declared)
      (⟨t.toNat, pid, rest.take declared⟩ :: streams, e)
  | tail => ([], some (.streamTail tail.length))
  termination_by bytes => bytes.length
  decreasing_by simp only [List.length_drop, List.length_cons]; omega

def parse (s : Section) : Except TableError Pmt := do
  s.expectTable tableId
  match s.payload with
  | p₁ :: p₀ :: l₁ :: l₀ :: rest =>
    let declared := Word.length l₁ l₀
    if declared > rest.length then throw (.inconsistent (.programInfo declared))
    let (streams, truncated) := streamLoop (rest.drop declared)
    return {
      program := s.header.ext
      version := s.header.version
      clockPid := Word.pid p₁ p₀
      streams, truncated }
  | short => throw (.inconsistent (.noClockPid short.length))

end Pmt

end Bandscan
