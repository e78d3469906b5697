/-!
Fixed-layout fields of sections and descriptors, read most significant byte first as natural
numbers.
-/

namespace Bandscan

abbrev Bytes := List UInt8

namespace Word

def w16 (a b : UInt8) : Nat := 256 * a.toNat + b.toNat

def w32 (a b c d : UInt8) : Nat := 65536 * w16 a b + w16 c d

def pid (a b : UInt8) : Nat := w16 a b % 8192

def length (a b : UInt8) : Nat := w16 a b % 4096

def bit (i : Nat) (b : UInt8) : Bool := b.toNat.testBit i

def limit32 : Nat := 4294967296

/-- Binary coded decimal, two digits a byte, kept modulo 2 ^ 32. -/
def bcd (bytes : Bytes) : Nat :=
  bytes.foldl (fun n b => (100 * n + (10 * (b.toNat / 16) + b.toNat % 16)) % limit32) 0

def quads : Bytes → List (UInt8 × UInt8 × UInt8 × UInt8)
  | a :: b :: c :: d :: rest => (a, b, c, d) :: quads rest
  | _ => []

def pairs : Bytes → List (UInt8 × UInt8)
  | a :: b :: rest => (a, b) :: pairs rest
  | _ => []

def code16 (n : Nat) : Bytes := [UInt8.ofNat (n / 256), UInt8.ofNat n]

theorem w16_ofNat {n : Nat} (h : n < 65536) :
    w16 (UInt8.ofNat (n / 256)) (UInt8.ofNat n) = n := by
  simp only [w16, UInt8.toNat_ofNat']
  omega

theorem ofNat_w16 (a b : UInt8) :
    UInt8.ofNat (w16 a b / 256) = a ∧ UInt8.ofNat (w16 a b) = b := by
  have ha := a.toNat_lt
  have hb := b.toNat_lt
  rw [← UInt8.toNat_inj, ← UInt8.toNat_inj]
  simp only [UInt8.toNat_ofNat', w16]
  omega

theorem code16_w16 (a b : UInt8) : code16 (w16 a b) = [a, b] := by
  rw [code16, (ofNat_w16 a b).1, (ofNat_w16 a b).2]

theorem w16_lt (a b : UInt8) : w16 a b < 65536 := by
  have ha := a.toNat_lt
  have hb := b.toNat_lt
  unfold w16
  omega

end Word

end Bandscan
