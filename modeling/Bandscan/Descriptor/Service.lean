import Bandscan.Descriptor
import Bandscan.Text.Broadcast

namespace Bandscan

/-- The name of a service and of who provides it. A name without printable characters is absent. -/
structure ServiceName where
  serviceType : Nat
  provider : Option String
  name : Option String
  deriving DecidableEq, Repr

structure LogicalChannel where
  serviceId : Nat
  visible : Bool
  number : Nat
  deriving DecidableEq, Repr

def serviceTypeName (serviceType : Nat) : String :=
  match serviceType with
  | 0x01 => "Digital TV"
  | 0x02 => "Digital Radio"
  | 0x03 => "Teletext"
  | 0x0A => "Advanced Codec Radio"
  | 0x0C => "Data Service"
  | 0x11 => "MPEG-2 HD TV"
  | 0x16 => "Advanced Codec SD TV"
  | 0x19 => "Advanced Codec HD TV"
  | _ => "Unknown"

namespace Descriptor

def service (data : Bytes) : Except DescriptorError ServiceName :=
  let short := .error (.tooShort serviceTag data.length)
  match data with
  | serviceType :: providerLength :: rest =>
    match rest.drop providerLength.toNat with
    | nameLength :: tail =>
      if tail.length < nameLength.toNat then short
      else .ok {
        serviceType := serviceType.toNat
        provider := Text.decodeName (rest.take providerLength.toNat)
        name := Text.decodeName (tail.take nameLength.toNat) }
    | [] => short
  | _ => short

def caSystems (data : Bytes) : List Nat := (Word.pairs data).map fun (a, b) => Word.w16 a b

def language : Bytes → Except DescriptorError (String × Nat)
  | a :: b :: c :: audioType :: _ => .ok (Text.latin1 [a, b, c], audioType.toNat)
  | short => .error (.tooShort iso639Tag short.length)

def logicalChannels (data : Bytes) : List LogicalChannel :=
  (Word.quads data).map fun (a, b, c, d) =>
    { serviceId := Word.w16 a b, visible := Word.bit 7 c, number := Word.w16 c d % 1024 }

end Descriptor

end Bandscan
