import Bandscan.Delivery.Token
/-!
The enumerated properties of a broadcast signal. Each has a coded form in descriptors
(`ofBits`), a word in tuning lists (`tokens`, `parse`), a name in zap channel lists (`name`) and
a number in VDR channel lists (`vdr`). The value `auto` leaves the property to the receiver.
-/

namespace Bandscan

inductive Polarisation where
  | horizontal | vertical | circularLeft | circularRight
  deriving DecidableEq, Repr, Inhabited

namespace Polarisation

def ofBits (bits : Nat) : Polarisation :=
  match bits % 4 with
  | 0 => horizontal
  | 1 => vertical
  | 2 => circularLeft
  | _ => circularRight

def letter : Polarisation → String
  | horizontal => "h"
  | vertical => "v"
  | circularLeft => "l"
  | circularRight => "r"

/-- Vertical and right circular polarisation are received at the low supply voltage. -/
def isVertical : Polarisation → Bool
  | vertical | circularRight => true
  | _ => false

def tokens : List (String × Polarisation) :=
  [("H", horizontal), ("h", horizontal), ("V", vertical), ("v", vertical),
   ("L", circularLeft), ("l", circularLeft), ("R", circularRight), ("r", circularRight)]

def parse : String → Except UnknownToken Polarisation := UnknownToken.lookup "polarisation" tokens

end Polarisation

inductive CodeRate where
  | none | r1_2 | r2_3 | r3_4 | r4_5 | r5_6 | r6_7 | r7_8 | r8_9 | auto
  deriving DecidableEq, Repr, Inhabited

namespace CodeRate

def ofInnerBits (bits : Nat) : CodeRate :=
  match bits % 8 with
  | 0 => auto
  | 1 => r1_2
  | 2 => r2_3
  | 3 => r3_4
  | 4 => r5_6
  | 5 => r7_8
  | _ => none

def ofTerrestrialBits (bits : Nat) : CodeRate :=
  match bits % 8 with
  | 0 => r1_2
  | 1 => r2_3
  | 2 => r3_4
  | 3 => r5_6
  | 4 => r7_8
  | _ => auto

def name : CodeRate → String
  | none => "FEC_NONE"
  | r1_2 => "FEC_1_2"
  | r2_3 => "FEC_2_3"
  | r3_4 => "FEC_3_4"
  | r4_5 => "FEC_4_5"
  | r5_6 => "FEC_5_6"
  | r6_7 => "FEC_6_7"
  | r7_8 => "FEC_7_8"
  | r8_9 => "FEC_8_9"
  | auto => "FEC_AUTO"

def vdr : CodeRate → Nat
  | none => 0
  | r1_2 => 12
  | r2_3 => 23
  | r3_4 => 34
  | r4_5 => 45
  | r5_6 => 56
  | r6_7 => 67
  | r7_8 => 78
  | r8_9 => 89
  | auto => 999

def tokens : List (String × CodeRate) :=
  [("NONE", none), ("1/2", r1_2), ("2/3", r2_3), ("3/4", r3_4), ("4/5", r4_5), ("5/6", r5_6),
   ("6/7", r6_7), ("7/8", r7_8), ("8/9", r8_9), ("AUTO", auto)]

def parse : String → Except UnknownToken CodeRate := UnknownToken.lookup "fec" tokens

end CodeRate

inductive Modulation where
  | qpsk | qam16 | qam32 | qam64 | qam128 | qam256 | auto
  deriving DecidableEq, Repr, Inhabited

namespace Modulation

def ofCableBits (bits : Nat) : Modulation :=
  match bits % 16 with
  | 1 => qam16
  | 2 => qam32
  | 3 => qam64
  | 4 => qam128
  | 5 => qam256
  | _ => auto

def ofConstellationBits (bits : Nat) : Modulation :=
  match bits % 4 with
  | 0 => qpsk
  | 1 => qam16
  | 2 => qam64
  | _ => auto

def name : Modulation → String
  | qpsk => "QPSK"
  | qam16 => "QAM_16"
  | qam32 => "QAM_32"
  | qam64 => "QAM_64"
  | qam128 => "QAM_128"
  | qam256 => "QAM_256"
  | auto => "QAM_AUTO"

def vdr : Modulation → Nat
  | qpsk => 0
  | qam16 => 16
  | qam32 => 32
  | qam64 => 64
  | qam128 => 128
  | qam256 => 256
  | auto => 999

def tokens : List (String × Modulation) :=
  [("QPSK", qpsk), ("QAM16", qam16), ("QAM32", qam32), ("QAM64", qam64), ("QAM128", qam128),
   ("QAM256", qam256), ("AUTO", auto)]

def parse : String → Except UnknownToken Modulation := UnknownToken.lookup "modulation" tokens

end Modulation

inductive Bandwidth where
  | mhz8 | mhz7 | mhz6 | auto
  deriving DecidableEq, Repr, Inhabited

namespace Bandwidth

def ofBits (bits : Nat) : Bandwidth :=
  match bits % 4 with
  | 0 => mhz8
  | 1 => mhz7
  | 2 => mhz6
  | _ => auto

def name : Bandwidth → String
  | mhz8 => "BANDWIDTH_8_MHZ"
  | mhz7 => "BANDWIDTH_7_MHZ"
  | mhz6 => "BANDWIDTH_6_MHZ"
  | auto => "BANDWIDTH_AUTO"

def vdr : Bandwidth → Nat
  | mhz8 => 8
  | mhz7 => 7
  | mhz6 => 6
  | auto => 999

def tokens : List (String × Bandwidth) :=
  [("8MHz", mhz8), ("7MHz", mhz7), ("6MHz", mhz6), ("AUTO", auto)]

def parse : String → Except UnknownToken Bandwidth := UnknownToken.lookup "bandwidth" tokens

end Bandwidth

inductive TransmissionMode where
  | mode2k | mode8k | auto
  deriving DecidableEq, Repr, Inhabited

namespace TransmissionMode

def name : TransmissionMode → String
  | mode2k => "TRANSMISSION_MODE_2K"
  | mode8k => "TRANSMISSION_MODE_8K"
  | auto => "TRANSMISSION_MODE_AUTO"

def vdr : TransmissionMode → Nat
  | mode2k => 2
  | mode8k => 8
  | auto => 999

def tokens : List (String × TransmissionMode) :=
  [("2k", mode2k), ("8k", mode8k), ("AUTO", auto)]

def parse : String → Except UnknownToken TransmissionMode :=
  UnknownToken.lookup "transmission mode" tokens

end TransmissionMode

inductive GuardInterval where
  | g1_32 | g1_16 | g1_8 | g1_4 | auto
  deriving DecidableEq, Repr, Inhabited

namespace GuardInterval

def ofBits (bits : Nat) : GuardInterval :=
  match bits % 4 with
  | 0 => g1_32
  | 1 => g1_16
  | 2 => g1_8
  | _ => g1_4

def name : GuardInterval → String
  | g1_32 => "GUARD_INTERVAL_1_32"
  | g1_16 => "GUARD_INTERVAL_1_16"
  | g1_8 => "GUARD_INTERVAL_1_8"
  | g1_4 => "GUARD_INTERVAL_1_4"
  | auto => "GUARD_INTERVAL_AUTO"

def vdr : GuardInterval → Nat
  | g1_32 => 32
  | g1_16 => 16
  | g1_8 => 8
  | g1_4 => 4
  | auto => 999

def tokens : List (String × GuardInterval) :=
  [("1/32", g1_32), ("1/16", g1_16), ("1/8", g1_8), ("1/4", g1_4), ("AUTO", auto)]

def parse : String → Except UnknownToken GuardInterval :=
  UnknownToken.lookup "guard interval" tokens

end GuardInterval

inductive Hierarchy where
  | none | h1 | h2 | h4 | auto
  deriving DecidableEq, Repr, Inhabited

namespace Hierarchy

/-- The in-depth interleaver bit above the two hierarchy bits is not looked at. -/
def ofBits (bits : Nat) : Hierarchy :=
  match bits % 4 with
  | 0 => none
  | 1 => h1
  | 2 => h2
  | _ => h4

def name : Hierarchy → String
  | none => "HIERARCHY_NONE"
  | h1 => "HIERARCHY_1"
  | h2 => "HIERARCHY_2"
  | h4 => "HIERARCHY_4"
  | auto => "HIERARCHY_AUTO"

def vdr : Hierarchy → Nat
  | none => 0
  | h1 => 1
  | h2 => 2
  | h4 => 4
  | auto => 999

def tokens : List (String × Hierarchy) :=
  [("NONE", none), ("1", h1), ("2", h2), ("4", h4), ("AUTO", auto)]

def parse : String → Except UnknownToken Hierarchy := UnknownToken.lookup "hierarchy" tokens

end Hierarchy

inductive Inversion where
  | off | on | auto
  deriving DecidableEq, Repr, Inhabited

namespace Inversion

def name : Inversion → String
  | off => "INVERSION_OFF"
  | on => "INVERSION_ON"
  | auto => "INVERSION_AUTO"

def vdr : Inversion → Nat
  | off => 0
  | on => 1
  | auto => 999

def ofCode (code : Nat) : Except UnknownToken Inversion :=
  match code with
  | 0 => .ok off
  | 1 => .ok on
  | 2 => .ok auto
  | n => .error ⟨"spectral inversion", toString n⟩

end Inversion

inductive RunningStatus where
  | undefined | notRunning | startsSoon | pausing | running
  | reserved (code : Nat)
  deriving DecidableEq, Repr, Inhabited

namespace RunningStatus

def ofBits (bits : Nat) : RunningStatus :=
  match bits % 8 with
  | 0 => undefined
  | 1 => notRunning
  | 2 => startsSoon
  | 3 => pausing
  | 4 => running
  | code => reserved code

def describe : RunningStatus → String
  | notRunning => "not running"
  | startsSoon => "starts soon"
  | pausing => "pausing"
  | running => "running"
  | undefined | reserved _ => "???"

end RunningStatus

end Bandscan
