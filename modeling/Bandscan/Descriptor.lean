import Bandscan.Word
import Bandscan.Text.Hex
/-!
Descriptors are tagged byte strings that follow one another in a loop. `walk` splits a loop up to
its first structural error and `encode` writes descriptors one behind the other.
-/

namespace Bandscan

inductive DescriptorError where
  | zeroLength (tag : Nat)
  | overrun (tag declared left : Nat)
  | tooShort (tag size : Nat)
  deriving DecidableEq, Repr

def DescriptorError.message : DescriptorError → String
  | zeroLength tag => "Descriptor " ++ Hex.octetUpper tag ++ " has zero length"
  | overrun tag declared left =>
    "Descriptor " ++ Hex.octetUpper tag ++ s!" declares {declared} bytes, only {left} left in loop"
  | tooShort tag size => "Descriptor " ++ Hex.octetUpper tag ++ s!" too short: {size} bytes"

structure Descriptor where
  tag : Nat
  data : Bytes
  deriving DecidableEq, Repr

namespace Descriptor

def iso639Tag : Nat := 0x0A
def networkNameTag : Nat := 0x40
def satelliteTag : Nat := 0x43
def cableTag : Nat := 0x44
def serviceTag : Nat := 0x48
def caIdentifierTag : Nat := 0x53
def teletextTag : Nat := 0x56
def subtitlingTag : Nat := 0x59
def terrestrialTag : Nat := 0x5A
def frequencyListTag : Nat := 0x62
def ac3Tag : Nat := 0x6A
/-- A private tag of British terrestrial broadcasts. -/
def logicalChannelTag : Nat := 0x83

/-- The descriptors of a loop, and the structural error that ended the walk before its end. -/
def walk : Bytes → List Descriptor × Option DescriptorError
  | [] => ([], none)
  | [tag] => ([], some (.overrun tag.toNat 0 0))
  | tag :: len :: rest =>
    if len = 0 then ([], some (.zeroLength tag.toNat))
    else if len.toNat > rest.length then
      ([], some (.overrun tag.toNat len.toNat rest.length))
    else
      let (ds, e) := walk (rest.drop len.toNat)
      (⟨tag.toNat, rest.take len.toNat⟩ :: ds, e)
  termination_by bytes => bytes.length
  decreasing_by simp only [List.length_drop, List.length_cons]; omega

def all (loop : Bytes) : List Descriptor := (walk loop).1

def find? (loop : Bytes) (tag : Nat) : Option Bytes :=
  ((all loop).find? (·.tag = tag)).map (·.data)

def has (loop : Bytes) (tag : Nat) : Bool := (find? loop tag).isSome

def encode (ds : List Descriptor) : Bytes :=
  ds.flatMap fun d => UInt8.ofNat d.tag :: UInt8.ofNat d.data.length :: d.data

end Descriptor

end Bandscan
