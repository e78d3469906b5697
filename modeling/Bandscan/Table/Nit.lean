import Bandscan.Note
import Bandscan.Along
import Bandscan.Table.Error
import Bandscan.Descriptor.Delivery
import Bandscan.Descriptor.Service
/-!
The network table describes the multiplexes of a network. `Nit.entries` splits the loop of
multiplexes into entries, `Nit.Entry.decode` reads the descriptors of one entry. What the
decoder passes over is told by `Nit.remarks`.
-/

namespace Bandscan

structure Multiplex where
  streamId : Nat
  originNetwork : Nat
  frequency : Nat := 0
  delivery : Option Delivery := none
  alternates : List Nat := []
  channels : List LogicalChannel := []
  descriptorError : Option DescriptorError := none
  deriving DecidableEq, Repr

namespace Multiplex

def tuned (m : Multiplex) (frequency : Nat) (delivery : Delivery) : Multiplex :=
  { m with frequency, delivery := some delivery }

/-- The effect of one descriptor: a later delivery replaces an earlier one, the first frequency
list that is not empty stays, logical channels add up. A descriptor without effect leaves a
remark instead. -/
def effect (m : Multiplex) (d : Descriptor) : Except Note Multiplex :=
  let decoded {α : Type} (r : Except DescriptorError α) : Except Note α := r.mapError fun e =>
    .debug ("transport_stream_id " ++ Hex.word m.streamId ++ ": " ++ e.message)
  if d.tag = Descriptor.satelliteTag then
    (decoded (Descriptor.satellite d.data)).map fun (f, p) => m.tuned f (.satellite p)
  else if d.tag = Descriptor.cableTag then
    (decoded (Descriptor.cable d.data)).map fun (f, p) => m.tuned f (.cable p)
  else if d.tag = Descriptor.terrestrialTag then
    (decoded (Descriptor.terrestrial d.data)).map fun (f, p) => m.tuned f (.terrestrial p)
  else if d.tag = Descriptor.frequencyListTag ∧ m.alternates = [] then
    (decoded (Descriptor.frequencyList d.data)).map fun (_, fs) => { m with alternates := fs }
  else if d.tag = Descriptor.logicalChannelTag then
    .ok { m with channels := m.channels ++ Descriptor.logicalChannels d.data }
  else .error (.debug ("skip descriptor " ++ Hex.octet d.tag))

def apply (m : Multiplex) (d : Descriptor) : Multiplex := (m.effect d).toOption.getD m

def remark (m : Multiplex) (d : Descriptor) : List Note :=
  match m.effect d with
  | .ok _ => []
  | .error note => [note]

end Multiplex

structure Nit where
  tableId : Nat
  networkId : Nat
  version : Nat
  name : Option String
  multiplexes : List Multiplex
  truncated : Option Inconsistency
  deriving DecidableEq, Repr

namespace Nit

def actualId : Nat := 0x40
def otherId : Nat := 0x41

def pid : Nat := 0x0010

structure Entry where
  streamId : Nat
  originNetwork : Nat
  descriptors : Bytes
  deriving DecidableEq, Repr

namespace Entry

def blank (e : Entry) : Multiplex :=
  { streamId := e.streamId, originNetwork := e.originNetwork,
    descriptorError := (Descriptor.walk e.descriptors).2 }

def decode (e : Entry) : Multiplex := (Descriptor.all e.descriptors).foldl Multiplex.apply e.blank

def remarks (e : Entry) : List Note :=
  along Multiplex.apply Multiplex.remark e.blank (Descriptor.all e.descriptors)

def overflows (e : Entry) : Bool :=
  (Descriptor.all e.descriptors).any fun d =>
    d.tag = Descriptor.cableTag && Descriptor.cableOverflows d.data

end Entry

/-- The entries of a loop. Fewer than six bytes at the end are not an entry and are left out. -/
def entries : Bytes → List Entry × Option Inconsistency
  | t₁ :: t₀ :: n₁ :: n₀ :: l₁ :: l₀ :: rest =>
    let declared := Word.length l₁ l₀
    let streamId := Word.w16 t₁ t₀
    if declared > rest.length then ([], some (.streamDescriptors streamId declared))
    else
      let (es, e) := entries (rest.drop declared)
      (⟨streamId, Word.w16 n₁ n₀, rest.take declared⟩ :: es, e)
  | _ => ([], none)
  termination_by bytes => bytes.length
  decreasing_by simp only [List.length_drop, List.length_cons]; omega

/-- The network descriptors, and the entries behind them. The length of the entry loop is coded
between the two and not relied on: entries go on to the end of the section. -/
def split (networkId : Nat) (payload : Bytes) : Except Inconsistency (Bytes × Bytes) :=
  match payload with
  | l₁ :: l₀ :: rest =>
    let declared := Word.length l₁ l₀
    if rest.length < declared + 2 then
      .error (.networkDescriptors networkId declared payload.length)
    else .ok (rest.take declared, rest.drop (declared + 2))
  | short => .error (.noLoopLength short.length)

def networkName (descriptors : Bytes) : Option String :=
  (((Descriptor.all descriptors).filter (·.tag = Descriptor.networkNameTag)).getLast?).map
    (Text.decode ·.data)

def expect (s : Section) : Except TableError Unit :=
  if s.header.tableId = otherId then .ok () else s.expectTable actualId

def parse (s : Section) : Except TableError Nit := do
  expect s
  let (network, loop) ← (split s.header.ext s.payload).mapError .inconsistent
  let (es, truncated) := entries loop
  if es.any (·.overflows) then throw .overflow
  return {
    tableId := s.header.tableId
    networkId := s.header.ext
    version := s.header.version
    name := networkName network
    multiplexes := es.map (·.decode)
    truncated }

def remarks (s : Section) : List Note :=
  match expect s, split s.header.ext s.payload with
  | .ok _, .ok (network, loop) =>
    (match (Descriptor.walk network).2 with
     | some e => [.debug ("network_id " ++ Hex.word s.header.ext ++ s!": {e.message}")]
     | none => [])
    ++ (entries loop).1.flatMap (·.remarks)
  | _, _ => []

def find? (n : Nit) (streamId : Nat) : Option Multiplex :=
  n.multiplexes.find? (·.streamId = streamId)

end Nit

end Bandscan
