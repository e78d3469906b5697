import Bandscan.Table.Error

namespace Bandscan

structure Program where
  number : Nat
  pid : Nat
  deriving DecidableEq, Repr

structure Pat where
  streamId : Nat
  version : Nat
  programs : List Program
  networkPid : Option Nat
  deriving DecidableEq, Repr

namespace Pat

def tableId : Nat := 0x00

def pid : Nat := 0x0000

def entries (payload : Bytes) : List Program :=
  (Word.quads payload).map fun (a, b, c, d) => ⟨Word.w16 a b, Word.pid c d⟩

/-- Program 0 is no program: the last such entry tells where the network table is sent. -/
def parse (s : Section) : Except TableError Pat := do
  s.expectTable tableId
  if s.payload.length % 4 ≠ 0 then
    throw (.inconsistent (.programLoop s.payload.length))
  let all := entries s.payload
  return {
    streamId := s.header.ext
    version := s.header.version
    programs := all.filter (·.number ≠ 0)
    networkPid := ((all.filter (·.number = 0)).getLast?).map (·.pid) }

def pid? (p : Pat) (number : Nat) : Option Nat :=
  (p.programs.find? (·.number = number)).map (·.pid)

end Pat

end Bandscan
