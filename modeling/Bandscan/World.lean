import Bandscan.Note

namespace Bandscan

/-- What a scan acts on: the devices, the clock, what has been told so far, and whether somebody
has asked to stop. Time is in microseconds and passes only while the scan waits. -/
structure World (δ : Type) where
  device : δ
  time : Nat := 0
  interrupted : Bool := false
  journal : Array Note := #[]

namespace World

variable {δ : Type}

def tell (note : Note) (w : World δ) : World δ := { w with journal := w.journal.push note }

def tellAll (notes : List Note) (w : World δ) : World δ := notes.foldl (fun w n => w.tell n) w

def sleep (duration : Nat) (w : World δ) : World δ := { w with time := w.time + duration }

def interrupt (w : World δ) : World δ := { w with interrupted := true }

def withDevice (f : δ → δ) (w : World δ) : World δ := { w with device := f w.device }

def onDevice {α : Type} (f : δ → α × δ) (w : World δ) : α × World δ :=
  let (a, device) := f w.device
  (a, { w with device })

@[simp] theorem time_tell (note : Note) (w : World δ) : (w.tell note).time = w.time := rfl

@[simp] theorem device_tell (note : Note) (w : World δ) : (w.tell note).device = w.device := rfl

@[simp] theorem interrupted_tell (note : Note) (w : World δ) :
    (w.tell note).interrupted = w.interrupted := rfl

end World

end Bandscan
