import Bandscan.Delivery.Parameters
import Bandscan.Network.Service

namespace Bandscan

/-- Where and how a multiplex is sent. Alternate frequencies are tried from the last on. -/
structure Description where
  frequency : Nat
  delivery : Option Delivery := none
  networkId : Nat := 0
  streamId : Nat := 0
  alternates : List Nat := []
  deriving DecidableEq, Repr

structure Transponder extends Description where
  inversion : Inversion := .auto
  services : List Service := []
  scanDone : Bool := false
  tuningFailed : Bool := false
  deriving DecidableEq, Repr

namespace Transponder

def kind (tp : Transponder) : Option DeliveryKind := tp.delivery.map Delivery.kind

def otherFrequency (tp : Transponder) : Bool := tp.delivery.any Delivery.otherFrequency

def service? (tp : Transponder) (id : Nat) : Option Service := tp.services.find? (·.id = id)

def modifyService (id : Nat) (f : Service → Service) (tp : Transponder) : Transponder :=
  { tp with services := Service.modifyIn id f tp.services }

def updateService (id : Nat) (f : Service → Service) (tp : Transponder) : Transponder :=
  { tp with services := Service.updateIn id f tp.services }

def redescribe (d : Description) (tp : Transponder) : Transponder := { tp with toDescription := d }

end Transponder

end Bandscan
