import Bandscan.Delivery.Coding

namespace Bandscan

inductive DeliveryKind where
  | satellite | cable | terrestrial
  deriving DecidableEq, Repr, Inhabited

def DeliveryKind.name : DeliveryKind → String
  | satellite => "DVB-S"
  | cable => "DVB-C"
  | terrestrial => "DVB-T"

/-- Symbol rate in symbols a second, orbital position in tenths of a degree, east if `east`. -/
structure SatelliteParameters where
  symbolRate : Nat
  fec : CodeRate
  polarisation : Polarisation
  orbitalPosition : Nat
  east : Bool
  deriving DecidableEq, Repr

structure CableParameters where
  symbolRate : Nat
  fec : CodeRate
  modulation : Modulation
  deriving DecidableEq, Repr

/-- `otherFrequency` says that the multiplex is also sent on other frequencies. -/
structure TerrestrialParameters where
  bandwidth : Bandwidth
  codeRateHigh : CodeRate
  codeRateLow : CodeRate
  constellation : Modulation
  mode : TransmissionMode
  guardInterval : GuardInterval
  hierarchy : Hierarchy
  otherFrequency : Bool
  deriving DecidableEq, Repr

inductive Delivery where
  | satellite (p : SatelliteParameters)
  | cable (p : CableParameters)
  | terrestrial (p : TerrestrialParameters)
  deriving DecidableEq, Repr

namespace Delivery

def kind : Delivery → DeliveryKind
  | satellite _ => .satellite
  | cable _ => .cable
  | terrestrial _ => .terrestrial

def otherFrequency : Delivery → Bool
  | terrestrial p => p.otherFrequency
  | _ => false

end Delivery

end Bandscan
