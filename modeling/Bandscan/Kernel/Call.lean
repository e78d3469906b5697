import Bandscan.Device.Interface

namespace Bandscan

structure FrontendInfo where
  name : Bytes := []
  type : Nat := 0
  frequencyMin : Nat := 0
  frequencyMax : Nat := 0
  symbolRateMin : Nat := 0
  symbolRateMax : Nat := 0
  caps : Nat := 0
  deriving DecidableEq, Repr

structure SectionPattern where
  filter : Bytes
  mask : Bytes
  mode : Bytes
  deriving DecidableEq, Repr

/-- The system calls on device nodes. A node is known by its descriptor once it is open. -/
inductive Call where
  | openNode (path : String) (writable nonblocking : Bool)
  | close (fd : Nat)
  | getInfo (fd : Nat)
  | setTone (fd value : Nat)
  | setVoltage (fd value : Nat)
  /-- Frequency, inversion and seven words whose meaning depends on the delivery system. -/
  | setFrontend (fd : Nat) (words : List Nat)
  | readStatus (fd : Nat)
  | setFilter (fd pid : Nat) (pattern : SectionPattern) (timeout flags : Nat)
  | stopFilter (fd : Nat)
  /-- The timeout is in milliseconds. -/
  | poll (fds : List Nat) (timeout : Nat)
  | read (fd size : Nat)
  deriving DecidableEq, Repr

namespace Call

def name : Call → String
  | openNode .. => "open"
  | close .. => "close"
  | getInfo .. => "FE_GET_INFO"
  | setTone .. => "FE_SET_TONE"
  | setVoltage .. => "FE_SET_VOLTAGE"
  | setFrontend .. => "FE_SET_FRONTEND"
  | readStatus .. => "FE_READ_STATUS"
  | setFilter .. => "DMX_SET_FILTER"
  | stopFilter .. => "DMX_STOP"
  | poll .. => "poll"
  | read .. => "read"

/-- What a successful call answers: a descriptor, a description, a status word, the events of each
polled descriptor, or bytes. -/
abbrev Answer : Call → Type
  | openNode .. => Nat
  | getInfo .. => FrontendInfo
  | readStatus .. => Nat
  | poll .. => List Nat
  | read .. => Bytes
  | _ => Unit

end Call

structure Kernel (κ : Type) where
  call : (c : Call) → World κ → Except Nat c.Answer × World κ

end Bandscan
