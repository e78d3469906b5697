import Bandscan.Note
import Bandscan.Along
import Bandscan.Table.Error
import Bandscan.Descriptor.Service
import Bandscan.Delivery.Coding
/-!
The service table names the services of a transport stream. `Sdt.entries` splits the loop of
services into entries, `Sdt.Entry.decode` reads the descriptors of one entry. What the decoder
passes over is told by `Sdt.remarks`.
-/

namespace Bandscan

structure ServiceInfo where
  serviceId : Nat
  schedule : Bool
  presentFollowing : Bool
  running : RunningStatus
  scrambled : Bool
  description : Option ServiceName := none
  caSystems : List Nat := []
  descriptorError : Option DescriptorError := none
  deriving DecidableEq, Repr

namespace ServiceInfo

/-- The effect of one descriptor: a later service descriptor replaces an earlier one, CA systems
add up. A descriptor without effect leaves a remark instead. -/
def effect (s : ServiceInfo) (d : Descriptor) : Except Note ServiceInfo :=
  if d.tag = Descriptor.serviceTag then
    match Descriptor.service d.data with
    | .ok name => .ok { s with description := some name }
    | .error e => .error (.debug ("service_id " ++ Hex.word s.serviceId ++ ": " ++ e.message))
  else if d.tag = Descriptor.caIdentifierTag then
    .ok { s with caSystems := s.caSystems ++ Descriptor.caSystems d.data }
  else .error (.debug ("skip descriptor " ++ Hex.octet d.tag))

def apply (s : ServiceInfo) (d : Descriptor) : ServiceInfo := (s.effect d).toOption.getD s

def remark (s : ServiceInfo) (d : Descriptor) : List Note :=
  match s.effect d with
  | .ok _ => []
  | .error note => [note]

end ServiceInfo

structure Sdt where
  streamId : Nat
  originNetwork : Nat
  version : Nat
  services : List ServiceInfo
  truncated : Option Inconsistency
  deriving DecidableEq, Repr

namespace Sdt

def actualId : Nat := 0x42
def otherId : Nat := 0x46

def pid : Nat := 0x0011

structure Entry where
  serviceId : Nat
  flags : Nat
  status : Nat
  descriptors : Bytes
  deriving DecidableEq, Repr

namespace Entry

def blank (e : Entry) : ServiceInfo :=
  { serviceId := e.serviceId
    schedule := e.flags.testBit 1
    presentFollowing := e.flags.testBit 0
    running := .ofBits (e.status / 32)
    scrambled := e.status.testBit 4
    descriptorError := (Descriptor.walk e.descriptors).2 }

def decode (e : Entry) : ServiceInfo :=
  (Descriptor.all e.descriptors).foldl ServiceInfo.apply e.blank

def remarks (e : Entry) : List Note :=
  along ServiceInfo.apply ServiceInfo.remark e.blank (Descriptor.all e.descriptors)

end Entry

/-- The entries of a loop. A service without descriptors ends the walk. Fewer than five bytes at
the end are not an entry and are left out. -/
def entries : Bytes → List Entry × Option Inconsistency
  | i₁ :: i₀ :: flags :: status :: l₀ :: rest =>
    let declared := Word.length status l₀
    let serviceId := Word.w16 i₁ i₀
    if declared = 0 ∨ declared > rest.length then
      ([], some (.serviceDescriptors serviceId declared rest.length))
    else
      let (es, e) := entries (rest.drop declared)
      (⟨serviceId, flags.toNat, status.toNat, rest.take declared⟩ :: es, e)
  | _ => ([], none)
  termination_by bytes => bytes.length
  decreasing_by simp only [List.length_drop, List.length_cons]; omega

def expect (s : Section) : Except TableError Unit :=
  if s.header.tableId = otherId then .ok () else s.expectTable actualId

def parse (s : Section) : Except TableError Sdt := do
  expect s
  match s.payload with
  | n₁ :: n₀ :: _ :: loop =>
    let (es, truncated) := entries loop
    return {
      streamId := s.header.ext
      originNetwork := Word.w16 n₁ n₀
      version := s.header.version
      services := es.map (·.decode)
      truncated }
  | short => throw (.inconsistent (.noNetworkId short.length))

def remarks (s : Section) : List Note :=
  match expect s, s.payload with
  | .ok _, _ :: _ :: _ :: loop => (entries loop).1.flatMap (·.remarks)
  | _, _ => []

def find? (t : Sdt) (serviceId : Nat) : Option ServiceInfo :=
  t.services.find? (·.serviceId = serviceId)

end Sdt

end Bandscan
