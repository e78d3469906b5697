import Bandscan.Kernel.Call
/-!
Section filters of a demux node. Each filter is an open descriptor of its own. The kernel checks
the checksums and hands out one section a read.
-/

namespace Bandscan

structure FilterNode where
  fd : Nat
  pid : Nat
  deriving DecidableEq, Repr

namespace FilterNode

def path (adapter demux : Nat) : String := s!"/dev/dvb/adapter{adapter}/demux{demux}"

/-- Check the checksum and start at once. -/
def flags : Nat := 5

def padded (bytes : Bytes) : Bytes := bytes ++ List.replicate (16 - bytes.length) 0

/-- Sections whose first byte is the table. Table 0 is not asked for: its pid is enough. -/
def pattern (tableId : Nat) : SectionPattern :=
  { filter := padded (if tableId = 0 then [] else [UInt8.ofNat tableId])
    mask := padded (if tableId = 0 then [] else [0xFF])
    mode := padded [] }

def openError (path : String) (errno : Nat) : DemuxError :=
  if errno = Errno.tooManyOpen ∨ errno = Errno.tooManyOpenInSystem ∨ errno = Errno.busy then
    .exhausted
  else .openFailed path (.errno errno)

variable {κ : Type} (k : Kernel κ)

def closeNode (fd : Nat) (w : World κ) : World κ := (k.call (.close fd) w).2

def openFilter (path : String) (pid tableId : Nat) (w : World κ) :
    Except DemuxError FilterNode × World κ :=
  match k.call (.openNode path true true) w with
  | (.error e, w) => (.error (openError path e), w)
  | (.ok fd, w) =>
    let w := w.tell (.trace ("start filter pid " ++ Hex.word pid ++ " table_id "
      ++ Hex.octet tableId))
    match k.call (.setFilter fd pid (pattern tableId) 0 flags) w with
    | (.error e, w) =>
      let (_, w) := k.call (.stopFilter fd) w
      (.error (.setFilter pid (.ofControl e)), closeNode k fd w)
    | (.ok (), w) => (.ok ⟨fd, pid⟩, w)

/-- The longest time that a poll can wait, in milliseconds. -/
def maxWait : Nat := 65535

/-- Whether a word of events makes a descriptor ready: any event does. A word with bits that name no
event tells nothing. -/
def isReady (events : Nat) : Bool := 0 < events && events < 1024

def poll (fs : List FilterNode) (timeout : Nat) (w : World κ) :
    Except DemuxError (List Nat) × World κ :=
  match k.call (.poll (fs.map (·.fd)) (min (timeout / 1000) maxWait)) w with
  | (.error e, w) =>
    (if e = Errno.interrupted then .ok [] else .error (.poll (.ofControl e)), w)
  | (.ok events, w) => (.ok ((events.zipIdx.filter (isReady ·.1)).map (·.2)), w)

def readSized (size : Nat) (f : FilterNode) (w : World κ) : Except DemuxError Bytes × World κ :=
  match k.call (.read f.fd size) w with
  | (.error e, w) =>
    (.error (if e = Errno.overflow then .overflow else .read (.errno e)), w)
  | (.ok bytes, w) => (.ok bytes, w)

def stop (f : FilterNode) (w : World κ) : Except DemuxError Unit × World κ :=
  match k.call (.stopFilter f.fd) (w.tell (.debug ("stop filter pid " ++ Hex.word f.pid))) with
  | (.error e, w) => (.error (.read (.ofControl e)), w)
  | (.ok (), w) => (.ok (), w)

def demux (path : String) : Demux κ FilterNode where
  openFilter := openFilter k path
  poll := poll k
  read := readSized k maxSectionSize
  stop := stop k
  close f := closeNode k f.fd

end FilterNode

end Bandscan
