import Bandscan.Section

namespace Bandscan

inductive Inconsistency where
  | programLoop (size : Nat)
  | noClockPid (size : Nat)
  | programInfo (declared : Nat)
  | streamTail (left : Nat)
  | streamInfo (declared pid : Nat)
  | noLoopLength (size : Nat)
  | networkDescriptors (networkId declared size : Nat)
  | streamDescriptors (streamId declared : Nat)
  | noNetworkId (size : Nat)
  | serviceDescriptors (serviceId declared left : Nat)
  deriving DecidableEq, Repr

namespace Inconsistency

def table : Inconsistency → String
  | programLoop _ => "PAT"
  | noClockPid _ | programInfo _ | streamTail _ | streamInfo _ _ => "PMT"
  | noLoopLength _ | networkDescriptors _ _ _ | streamDescriptors _ _ => "NIT"
  | noNetworkId _ | serviceDescriptors _ _ _ => "SDT"

def detail : Inconsistency → String
  | programLoop size => s!"program loop of {size} bytes is not a multiple of 4"
  | noClockPid size => s!"{size} bytes cannot hold PCR PID"
  | programInfo declared => s!"program_info_length {declared} exceeds section"
  | streamTail left => s!"{left} trailing bytes in stream loop"
  | streamInfo declared pid =>
    s!"ES_info_length {declared} of PID " ++ Hex.word pid ++ " exceeds section"
  | noLoopLength size => s!"{size} bytes cannot hold a loop length"
  | networkDescriptors networkId declared size =>
    "network_id " ++ Hex.word networkId
      ++ s!": network descriptors length {declared} exceeds section of {size} bytes"
  | streamDescriptors streamId declared =>
    "transport_stream_id " ++ Hex.word streamId
      ++ s!": descriptors length {declared} exceeds section"
  | noNetworkId size => s!"{size} bytes cannot hold original_network_id"
  | serviceDescriptors serviceId declared left =>
    "service_id " ++ Hex.word serviceId ++ s!": descriptors length {declared}, {left} bytes left"

def message (i : Inconsistency) : String := s!"Inconsistent {i.table} section: {i.detail}"

end Inconsistency

inductive TableError where
  | foreign (e : SectionError)
  | inconsistent (e : Inconsistency)
  /-- A cable frequency beyond 32 bits ends the program. -/
  | overflow
  deriving DecidableEq, Repr

def TableError.message : TableError → String
  | foreign e => e.message
  | inconsistent e => e.message
  | overflow => "attempt to multiply with overflow"

/-- Requires one of the tables of a kind; the error names the first. -/
def Section.expectTable (s : Section) (tableId : Nat) : Except TableError Unit :=
  (s.expect tableId).mapError .foreign

theorem Section.expectTable_eq (s : Section) (tableId : Nat) :
    s.expectTable tableId =
      if s.header.tableId = tableId then .ok ()
      else .error (.foreign (.tableMismatch tableId s.header.tableId)) := by
  unfold expectTable expect
  split <;> rfl

end Bandscan
