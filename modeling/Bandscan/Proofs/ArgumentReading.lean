import Bandscan.CommandLine
import Bandscan.Proofs.Fallible
/-!
What reading a command line keeps. A property that holds of no arguments, and that every option and
every flag keeps, holds of all that is read.
-/

namespace Bandscan

namespace Numeral

theorem digits_lt {base limit n : Nat} {v : Nat} {cs : List Char}
    (h : digits base limit v cs = .ok n) (hv : v < limit) : n < limit := by
  induction cs generalizing v with
  | nil => exact Except.ok.inj h ▸ hv
  | cons c cs ih =>
    rw [digits] at h
    split at h
    · cases h
    · split at h
      case isTrue hlt => exact ih h hlt
      case isFalse => cases h

theorem parse_lt {limit n : Nat} {cs : List Char} (h : parse limit cs = .ok n)
    (hpos : 0 < limit) : n < limit := by
  rw [parse, parseBase.eq_def] at h
  split at h
  · cases h
  · cases h
  · exact digits_lt h hpos
  · exact digits_lt h hpos

end Numeral

namespace Arguments

theorem signedBelow_lt {limit n : Nat} {value : String} (h : signedBelow limit value = .ok n)
    (hpos : 0 < limit) : n < limit := by
  rw [signedBelow] at h
  split at h
  case h_2 => cases h
  case h_1 m hm =>
    obtain rfl := Except.ok.inj h
    split at hm
    · -- behind a minus sign there can only be zero
      exact Nat.lt_of_lt_of_le (Numeral.parse_lt hm Nat.one_pos) hpos
    · exact Numeral.parse_lt hm hpos

/-- The property holds to begin with, and everything that is read keeps it. -/
structure Kept (P : Arguments → Prop) : Prop where
  empty : P {}
  initial : ∀ {a : Arguments} (path : String), P a → P { a with initial := some path }
  value : ∀ {a a' : Arguments} {s : Switch} {value : String}, a.setValue s value = .ok a' →
    P a → P a'
  flag : ∀ {a a' : Arguments} {s : Switch}, a.setFlag s = .ok a' → P a → P a'

namespace Progress

variable {P : Arguments → Prop} {p p' : Progress} {s : Switch}

theorem give_keeps (hP : Kept P) {value : String} (h : p.give s value = .ok p')
    (hp : P p.arguments) : P p'.arguments := by
  rw [give] at h
  split at h
  · cases h
  · simp only [bind_eq_ok, pure_eq_ok] at h
    obtain ⟨a, ha, rfl⟩ := h
    exact hP.value ha hp

theorem settle_keeps (hP : Kept P) (h : p.settle = .ok p') (hp : P p.arguments) :
    P p'.arguments := by
  rw [settle] at h
  dsimp only at h
  split at h
  · exact Except.ok.inj h ▸ hp
  · cases h
  · exact give_keeps hP h hp
  · simp only [bind_eq_ok, pure_eq_ok] at h
    obtain ⟨path, -, rfl⟩ := h
    exact hP.initial path hp

theorem raise_keeps (hP : Kept P) (h : p.raise s = .ok p') (hp : P p.arguments) :
    P p'.arguments := by
  simp only [raise, bind_eq_ok] at h
  obtain ⟨q, hq, h⟩ := h
  split at h
  · simp at h
  · simp only [bind_eq_ok, pure_eq_ok] at h
    obtain ⟨a, ha, rfl⟩ := h
    exact hP.flag ha (settle_keeps hP hq hp)

theorem openOption_keeps (hP : Kept P) {attached : Option String}
    (h : p.openOption s attached = .ok p') (hp : P p.arguments) : P p'.arguments := by
  simp only [openOption, bind_eq_ok] at h
  obtain ⟨q, hq, h⟩ := h
  have hsettled := settle_keeps hP hq hp
  cases attached with
  | some value => exact give_keeps hP h hsettled
  | none =>
    rw [← pure_eq_ok.1 h]
    exact hsettled

theorem readLong_keeps (hP : Kept P) {body : List Char} (h : p.readLong body = .ok p')
    (hp : P p.arguments) : P p'.arguments := by
  rw [readLong] at h
  split at h
  · cases h
  · split at h
    · exact openOption_keeps hP h hp
    · split at h
      · cases h
      · exact raise_keeps hP h hp

theorem readShort_keeps (hP : Kept P) {cs : List Char} (h : readShort cs p = .ok p')
    (hp : P p.arguments) : P p'.arguments := by
  induction cs generalizing p with
  | nil => exact Except.ok.inj h ▸ hp
  | cons c cs ih =>
    unfold readShort at h
    split at h
    · cases h
    · split at h
      · exact openOption_keeps hP h hp
      · obtain ⟨q, hq, h⟩ := bind_eq_ok.1 h
        exact ih h (raise_keeps hP hq hp)

theorem readPlain_keeps (hP : Kept P) {arg : String} (h : p.readPlain arg = .ok p')
    (hp : P p.arguments) : P p'.arguments := by
  rw [readPlain] at h
  split at h
  · cases h
  · simp only [bind_eq_ok, pure_eq_ok] at h
    obtain ⟨q, hq, rfl⟩ := h
    have hsettled := settle_keeps hP hq hp
    exact hsettled

theorem readOne_keeps (hP : Kept P) {arg : String} (h : p.readOne arg = .ok p')
    (hp : P p.arguments) : P p'.arguments := by
  rw [readOne] at h
  split at h
  · exact readLong_keeps hP h hp
  · exact readShort_keeps hP h hp
  · split at h
    · exact Except.ok.inj h ▸ hp
    · exact readPlain_keeps hP h hp

theorem readAll_keeps (hP : Kept P) {plain : Bool} {args : List String}
    (h : readAll plain args p = .ok p') (hp : P p.arguments) : P p'.arguments := by
  induction args generalizing plain p with
  | nil => exact settle_keeps hP h hp
  | cons arg args ih =>
    rw [readAll] at h
    split at h
    · obtain ⟨q, hq, h⟩ := bind_eq_ok.1 h
      exact ih h (readPlain_keeps hP hq hp)
    · split at h
      · exact ih h hp
      · obtain ⟨q, hq, h⟩ := bind_eq_ok.1 h
        exact ih h (readOne_keeps hP hq hp)

end Progress

theorem parse_keeps {P : Arguments → Prop} (hP : Kept P) {args : List String} {a : Arguments}
    (h : parse args = .ok a) : P a := by
  obtain ⟨p, hp, h⟩ := bind_eq_ok.1 h
  have hread := Progress.readAll_keeps hP hp hP.empty
  rw [checked] at h
  split at h
  · cases h
  · split at h
    · cases h
    · exact Except.ok.inj h ▸ hread

/-- The number that is given for the inversion, if any, stands for one. -/
def NamesInversion (a : Arguments) : Prop := ∀ n ∈ a.inversion, n < 3

theorem kept_inversion : Kept NamesInversion where
  empty _ h := by cases h
  initial _ h := h
  value {a a' s value} h hp := by
    cases s with
    | inversion =>
      obtain ⟨n, hn, rfl⟩ := map_eq_ok.1 h
      intro m hm
      cases hm
      exact signedBelow_lt hn (by decide)
    | adapter | frontend | demux | output | ca | types | lnb | sat | tolerance | maxFilters
    | config =>
      obtain ⟨n, -, rfl⟩ := map_eq_ok.1 h
      exact hp
    | current | otherNits | longTimeout | provider | vdrIds | channelNumbers | verbose | quiet
    | help | version => cases h
  flag {a a' s} h hp := by
    cases s <;> cases h <;> exact hp

theorem namesInversion_of_parse {args : List String} {a : Arguments} (h : parse args = .ok a) :
    a.NamesInversion :=
  parse_keeps kept_inversion h

end Arguments

end Bandscan
