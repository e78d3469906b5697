namespace Bandscan

/-- A set of numbers from 0 to 255: a bit for each, in four words of 64 bits. -/
structure NumberMap where
  words : Vector UInt64 4 := Vector.replicate 4 0
  deriving DecidableEq, Repr

namespace NumberMap

def mask (n : Nat) : UInt64 := 1 <<< UInt64.ofNat (n % 64)

def word (i : Nat) (m : NumberMap) : UInt64 := m.words[i]?.getD 0

def contains (n : Nat) (m : NumberMap) : Bool := m.word (n / 64) &&& mask n ≠ 0

def insert (n : Nat) (m : NumberMap) : NumberMap :=
  { words := m.words.setIfInBounds (n / 64) (m.word (n / 64) ||| mask n) }

theorem testBit_mask (n i : Nat) : (mask n).toNat.testBit i = decide (n % 64 = i) := by
  have h : n % 64 < 64 := Nat.mod_lt _ (by decide)
  have hp : 2 ^ (n % 64) < 2 ^ 64 := Nat.pow_lt_pow_right (by decide) h
  have hm : (mask n).toNat = 2 ^ (n % 64) := by
    simpa [mask, UInt64.toNat_shiftLeft, Nat.shiftLeft_eq] using hp
  rw [hm, Nat.testBit_two_pow]

theorem contains_eq_testBit (n : Nat) (m : NumberMap) :
    m.contains n = (m.word (n / 64)).toNat.testBit (n % 64) := by
  have h : (m.word (n / 64) &&& mask n).toNat.testBit (n % 64)
      = (m.word (n / 64)).toNat.testBit (n % 64) := by
    rw [UInt64.toNat_and, Nat.testBit_and, testBit_mask]
    simp
  unfold contains
  by_cases hz : m.word (n / 64) &&& mask n = 0
  · rw [hz] at h
    simpa [hz] using h
  · cases hb : (m.word (n / 64)).toNat.testBit (n % 64) with
    | true => simp [hz]
    | false =>
      refine absurd (UInt64.toNat_inj.1 (Nat.eq_of_testBit_eq fun i => ?_)) hz
      rw [UInt64.toNat_and, Nat.testBit_and, testBit_mask]
      by_cases hi : n % 64 = i
      · subst hi
        simp [hb]
      · simp [hi]

theorem word_insert (n i : Nat) (m : NumberMap) (hn : n < 256) :
    (m.insert n).word i = if n / 64 = i then m.word i ||| mask n else m.word i := by
  have hw : n / 64 < 4 := by omega
  by_cases hi : n / 64 = i
  · subst hi
    simp [insert, word, hw]
  · simp [insert, word, hi, Vector.getElem?_setIfInBounds_ne]

/-- Setting a bit changes no other, also not in the word of its neighbour. -/
theorem contains_insert (n i : Nat) (m : NumberMap) (hn : n < 256) :
    (m.insert n).contains i = (decide (n = i) || m.contains i) := by
  rw [contains_eq_testBit, contains_eq_testBit, word_insert n _ m hn]
  by_cases hw : n / 64 = i / 64
  · have hni : n % 64 = i % 64 ↔ n = i := by omega
    rw [if_pos hw, UInt64.toNat_or, Nat.testBit_or, testBit_mask, Bool.or_comm]
    simp [hni]
  · have hni : n ≠ i := fun h => hw (by rw [h])
    simp [hw, hni]

theorem contains_empty (i : Nat) : ({} : NumberMap).contains i = false := by
  rw [contains_eq_testBit]
  by_cases h : i / 64 < 4 <;> simp [word, h]

end NumberMap

end Bandscan
