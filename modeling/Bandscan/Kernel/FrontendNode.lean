import Bandscan.Kernel.Call
import Bandscan.Tuning
import Bandscan.Text.Broadcast

namespace Bandscan

def CodeRate.code : CodeRate → Nat
  | none => 0
  | r1_2 => 1
  | r2_3 => 2
  | r3_4 => 3
  | r4_5 => 4
  | r5_6 => 5
  | r6_7 => 6
  | r7_8 => 7
  | r8_9 => 8
  | auto => 9

def Modulation.code : Modulation → Nat
  | qpsk => 0
  | qam16 => 1
  | qam32 => 2
  | qam64 => 3
  | qam128 => 4
  | qam256 => 5
  | auto => 6

def Bandwidth.code : Bandwidth → Nat
  | mhz8 => 0
  | mhz7 => 1
  | mhz6 => 2
  | auto => 3

def TransmissionMode.code : TransmissionMode → Nat
  | mode2k => 0
  | mode8k => 1
  | auto => 2

def GuardInterval.code : GuardInterval → Nat
  | g1_32 => 0
  | g1_16 => 1
  | g1_8 => 2
  | g1_4 => 3
  | auto => 4

def Hierarchy.code : Hierarchy → Nat
  | none => 0
  | h1 => 1
  | h2 => 2
  | h4 => 3
  | auto => 4

def Inversion.code : Inversion → Nat
  | off => 0
  | on => 1
  | auto => 2

structure FrontendNode where
  fd : Nat
  kind : DeliveryKind
  caps : Nat
  lnb : Lnb
  deriving DecidableEq, Repr

namespace FrontendNode

def path (adapter frontend : Nat) : String := s!"/dev/dvb/adapter{adapter}/frontend{frontend}"

def kind? (type : Nat) : Option DeliveryKind :=
  match type with
  | 0 => some .satellite
  | 1 => some .cable
  | 2 => some .terrestrial
  | _ => none

def canInversionAuto (f : FrontendNode) : Bool := f.caps.testBit 0

variable {κ : Type} (k : Kernel κ)

/-- Opens a frontend, for reading alone if it will not be tuned. A frontend of unknown type is
closed again. -/
def openPath (path : String) (readOnly : Bool) (lnb : Lnb) (w : World κ) :
    Except TunerError FrontendNode × World κ :=
  match k.call (.openNode path (!readOnly) true) w with
  | (.error e, w) => (.error (.openFailed path (.errno e)), w)
  | (.ok fd, w) =>
    match k.call (.getInfo fd) w with
    | (.error e, w) =>
      (.error (.control (Call.getInfo fd).name (.ofControl e)), (k.call (.close fd) w).2)
    | (.ok info, w) =>
      match kind? info.type with
      | none => (.error (.unknownType info.type), (k.call (.close fd) w).2)
      | some kind =>
        let name := Text.latin1 (info.name.takeWhile (· ≠ 0))
        let w := w.tellAll [
          .info s!"using '{name}' ({kind.name}) on {path}",
          .debug (s!"frequency range {info.frequencyMin}..{info.frequencyMax}, symbol rate "
            ++ s!"{info.symbolRateMin}..{info.symbolRateMax}")]
        (.ok { fd, kind, caps := info.caps, lnb }, w)

def openNode (adapter frontend : Nat) (readOnly : Bool) (lnb : Lnb) (w : World κ) :
    Except TunerError FrontendNode × World κ :=
  openPath k (path adapter frontend) readOnly lnb w

def control (c : Call) (w : World κ) : Except TunerError Unit × World κ :=
  match k.call c w with
  | (.error e, w) => (.error (.control c.name (.ofControl e)), w)
  | (.ok _, w) => (.ok (), w)

def inTurn : List (World κ → Except TunerError Unit × World κ) → World κ →
    Except TunerError Unit × World κ
  | [], w => (.ok (), w)
  | step :: rest, w =>
    match step w with
    | (.error e, w) => (.error e, w)
    | (.ok (), w) => inTurn rest w

def toneOn : Nat := 0
def toneOff : Nat := 1
def voltage13 : Nat := 0
def voltage18 : Nat := 1

def settleTime : Nat := 15000

def setLnb (fd : Nat) (vertical high : Bool) : World κ → Except TunerError Unit × World κ :=
  inTurn [
    control k (.setTone fd toneOff),
    control k (.setVoltage fd (if vertical then voltage13 else voltage18)),
    fun w => (.ok (), w.sleep settleTime),
    control k (.setTone fd (if high then toneOn else toneOff))]

def parameterWords : Delivery → List Nat
  | .satellite p => [p.symbolRate, p.fec.code, 0, 0, 0, 0, 0]
  | .cable p => [p.symbolRate, p.fec.code, p.modulation.code, 0, 0, 0, 0]
  | .terrestrial p =>
    [p.bandwidth.code, p.codeRateHigh.code, p.codeRateLow.code, p.constellation.code,
     p.mode.code, p.guardInterval.code, p.hierarchy.code]

def parametersText (frequency inversion : Nat) (words : List Nat) : String :=
  s!"FE_SET_FRONTEND DvbFrontendParameters \x7b frequency: {frequency}, inversion: {inversion}, "
    ++ "u: [" ++ ", ".intercalate (words.map toString) ++ "] \x7d"

def setParameters (fd frequency : Nat) (inversion : Inversion) (d : Delivery) (w : World κ) :
    Except TunerError Unit × World κ :=
  control k (.setFrontend fd (frequency :: inversion.code :: parameterWords d))
    (w.tell (.debug (parametersText frequency inversion.code (parameterWords d))))

def set (f : FrontendNode) (tp : Transponder) (w : World κ) : Except TunerError Unit × World κ :=
  match tp.delivery with
  | none => (.error (.noParameters tp.frequency), w)
  | some d =>
    if d.kind ≠ f.kind then (.error (.kindMismatch f.kind d.kind), w)
    else
      match d with
      | .satellite p =>
        let (frequency, high) := f.lnb.intermediate tp.frequency
        inTurn [setLnb k f.fd p.polarisation.isVertical high,
          setParameters k f.fd frequency tp.inversion d] w
      | _ => setParameters k f.fd tp.frequency tp.inversion d w

def hasLock (f : FrontendNode) (w : World κ) : Except TunerError Bool × World κ :=
  match k.call (.readStatus f.fd) w with
  | (.error e, w) => (.error (.control (Call.readStatus f.fd).name (.ofControl e)), w)
  | (.ok status, w) => (.ok (Nat.testBit status 4), w)

def frontend (f : FrontendNode) : Frontend κ where
  kind := f.kind
  set := f.set k
  hasLock := f.hasLock k

end FrontendNode

end Bandscan
