import Bandscan.World
import Bandscan.Word
import Bandscan.Device.Error
import Bandscan.Network.Transponder

namespace Bandscan

/-- A device that runs several section filters at once. `φ` is the type of an open filter. -/
structure Demux (δ φ : Type) where
  /-- Starts a filter for the sections of a table on a pid: `openFilter pid tableId`. -/
  openFilter : Nat → Nat → World δ → Except DemuxError φ × World δ
  /-- Waits until a filter has data, at most the given time. Answers the positions of the filters
  that are ready. -/
  poll : List φ → Nat → World δ → Except DemuxError (List Nat) × World δ
  read : φ → World δ → Except DemuxError Bytes × World δ
  /-- Stops a filter; its slot may stay taken until it is closed. -/
  stop : φ → World δ → Except DemuxError Unit × World δ
  close : φ → World δ → World δ

structure Frontend (δ : Type) where
  kind : DeliveryKind
  set : Transponder → World δ → Except TunerError Unit × World δ
  hasLock : World δ → Except TunerError Bool × World δ

def maxSectionSize : Nat := 4098

end Bandscan
