namespace Bandscan

/-- Which sections a filter collects, and for how long. Times are in microseconds. -/
structure FilterSpec where
  pid : Nat
  tableId : Nat
  /-- The table has independent parts, told apart by their extension, and never completes. -/
  segmented : Bool
  runOnce : Bool
  timeout : Nat
  deriving DecidableEq, Repr

def FilterSpec.once (pid tableId timeout : Nat) : FilterSpec :=
  { pid, tableId, segmented := false, runOnce := true, timeout }

end Bandscan
