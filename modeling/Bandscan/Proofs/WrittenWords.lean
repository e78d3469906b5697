import Bandscan.Text.Blank
import Bandscan.Text.Numeral
import Mathlib.Data.List.TakeWhile
/-!
How a text is put together from lines, a line from words, and a word from digits, and that it comes
apart in the same way.
-/

namespace Bandscan

namespace Text

/-- Blanks around words, at least one between two words. -/
inductive Spaced : List (List Char) → List Char → Prop
  | blanks {bs : List Char} (hb : ∀ c ∈ bs, isBlank c) : Spaced [] bs
  | word {bs w cs : List Char} {ws : List (List Char)} (hb : ∀ c ∈ bs, isBlank c) (hne : w ≠ [])
      (hw : ∀ c ∈ w, isBlank c = false) (hsep : ∀ c ∈ cs.head?, isBlank c) (h : Spaced ws cs) :
      Spaced (w :: ws) (bs ++ w ++ cs)

theorem words_blanks_append {bs : List Char} (hb : ∀ c ∈ bs, isBlank c) (cs : List Char) :
    words (bs ++ cs) = words cs := by
  induction bs with
  | nil => rfl
  | cons b bs ih =>
    rw [List.forall_mem_cons] at hb
    rw [List.cons_append, words, if_pos hb.1, ih hb.2]

theorem words_word_append {w cs : List Char} (hne : w ≠ []) (hw : ∀ c ∈ w, isBlank c = false)
    (hsep : ∀ c ∈ cs.head?, isBlank c) : words (w ++ cs) = w :: words cs := by
  obtain ⟨c, w, rfl⟩ := List.exists_cons_of_ne_nil hne
  rw [List.forall_mem_cons] at hw
  have hinner : ∀ a ∈ w, (!isBlank a) = true := fun a ha => by rw [hw.2 a ha]; rfl
  have hstop : cs.takeWhile (!isBlank ·) = [] ∧ cs.dropWhile (!isBlank ·) = cs := by
    cases cs with
    | nil => exact ⟨rfl, rfl⟩
    | cons b cs =>
      have hb : isBlank b := hsep b rfl
      simp [hb]
  rw [List.cons_append, words, if_neg (by simp [hw.1]), List.takeWhile_append_of_pos hinner,
    List.dropWhile_append_of_pos hinner, hstop.1, hstop.2, List.append_nil]

theorem words_of_spaced {ws : List (List Char)} {cs : List Char} (h : Spaced ws cs) :
    words cs = ws := by
  induction h with
  | @blanks bs hb =>
    have hnil := words_blanks_append hb []
    rw [List.append_nil] at hnil
    rw [hnil, words]
  | word hb hne hw hsep _ ih =>
    rw [List.append_assoc, words_blanks_append hb, words_word_append hne hw hsep, ih]

theorem Spaced.blank_cons {ws : List (List Char)} {b : Char} {cs : List Char} (hb : isBlank b)
    (h : Spaced ws cs) : Spaced ws (b :: cs) := by
  cases h with
  | blanks hbs => exact .blanks (List.forall_mem_cons.2 ⟨hb, hbs⟩)
  | word hbs hne hw hsep h => exact .word (List.forall_mem_cons.2 ⟨hb, hbs⟩) hne hw hsep h

theorem spaced_words (cs : List Char) : Spaced (words cs) cs := by
  induction cs using words.induct with
  | case1 =>
    rw [words]
    exact .blanks (by simp)
  | case2 c cs hc ih =>
    rw [words, if_pos hc]
    exact ih.blank_cons hc
  | case3 c cs hc ih =>
    have hw : ∀ a ∈ c :: cs.takeWhile (!isBlank ·), isBlank a = false := by
      refine List.forall_mem_cons.2 ⟨by simpa using hc, fun a ha => ?_⟩
      simpa using List.mem_takeWhile_imp ha
    have hsep : ∀ a ∈ (cs.dropWhile (!isBlank ·)).head?, isBlank a := fun a ha => by
      have hstop := List.head?_dropWhile_not (!isBlank ·) cs
      rw [Option.mem_def.1 ha] at hstop
      simpa using hstop
    have hword : Spaced _ ([] ++ _ ++ _) := .word (by simp) (by simp) hw hsep ih
    rw [List.nil_append, List.cons_append, List.takeWhile_append_dropWhile] at hword
    rwa [words, if_neg hc]

theorem words_eq_iff {ws : List (List Char)} {cs : List Char} : words cs = ws ↔ Spaced ws cs :=
  ⟨fun h => h ▸ spaced_words cs, words_of_spaced⟩

theorem dropBlanks_of_forall {cs : List Char} (h : ∀ c ∈ cs, isBlank c = false) :
    dropBlanks cs = cs := by
  apply List.dropWhile_eq_self_iff.2
  intro hlen
  simp [h _ (List.getElem_mem hlen)]

theorem trim_of_forall {cs : List Char} (h : ∀ c ∈ cs, isBlank c = false) : trim cs = cs := by
  have hback : ∀ c ∈ cs.reverse, isBlank c = false := fun c hc => h c (List.mem_reverse.1 hc)
  rw [trim, dropBlanks_of_forall h, dropBlanks_of_forall hback, List.reverse_reverse]

theorem isBlank_of_isDigit {c : Char} (hc : c.isDigit) : isBlank c = false := by
  have hcode : 48 ≤ c.toNat ∧ c.toNat ≤ 57 := by
    simpa [Char.isDigit, UInt32.le_iff_toNat_le] using hc
  simp only [isBlank, Bool.or_eq_false_iff, Bool.and_eq_false_iff, decide_eq_false_iff_not]
  omega

theorem splitAt_ne_nil (sep : Char) (cs : List Char) : splitAt sep cs ≠ [] := by
  cases cs with
  | nil => simp [splitAt]
  | cons c cs =>
    rw [splitAt]
    split
    · simp
    · split <;> simp

theorem splitAt_cons_of_ne {sep c : Char} (hc : c ≠ sep) (cs : List Char) :
    splitAt sep (c :: cs) = (splitAt sep cs).modifyHead (c :: ·) := by
  rw [splitAt]
  split
  · next h => exact absurd h (splitAt_ne_nil sep cs)
  · next w ws h => rw [if_neg hc, h]; rfl

theorem splitAt_sep_cons (sep : Char) (cs : List Char) :
    splitAt sep (sep :: cs) = [] :: splitAt sep cs := by
  rw [splitAt]
  split
  · next h => exact absurd h (splitAt_ne_nil sep cs)
  · next w ws h => rw [if_pos rfl, h]

theorem splitAt_append {sep : Char} {l : List Char} (hl : sep ∉ l) (cs : List Char) :
    splitAt sep (l ++ sep :: cs) = l :: splitAt sep cs := by
  induction l with
  | nil => exact splitAt_sep_cons sep cs
  | cons c l ih =>
    rw [List.mem_cons, not_or] at hl
    rw [List.cons_append, splitAt_cons_of_ne (Ne.symm hl.1), ih hl.2]
    rfl

theorem splitAt_of_notMem {sep : Char} {l : List Char} (hl : sep ∉ l) : splitAt sep l = [l] := by
  induction l with
  | nil => rfl
  | cons c l ih =>
    rw [List.mem_cons, not_or] at hl
    rw [splitAt_cons_of_ne (Ne.symm hl.1), ih hl.2]
    rfl

theorem splitAt_intercalate {sep : Char} {ls : List (List Char)} (hne : ls ≠ [])
    (free : ∀ l ∈ ls, sep ∉ l) : splitAt sep ([sep].intercalate ls) = ls := by
  induction ls with
  | nil => exact absurd rfl hne
  | cons l ls ih =>
    rw [List.forall_mem_cons] at free
    cases ls with
    | nil =>
      rw [List.intercalate_singleton]
      exact splitAt_of_notMem free.1
    | cons l' ls =>
      rw [List.intercalate_cons_cons, List.append_assoc, List.singleton_append,
        splitAt_append free.1, ih (by simp) free.2]

/-- The text has these lines. The last one may do without its line feed. -/
inductive Lined : List (List Char) → List Char → Prop
  | empty : Lined [] []
  | last {l : List Char} (hl : '\n' ∉ l) : Lined [l] l
  | line {l : List Char} {ls : List (List Char)} {cs : List Char} (hl : '\n' ∉ l)
      (h : Lined ls cs) : Lined (l :: ls) (l ++ '\n' :: cs)

theorem lined_flatMap {ls : List (List Char)} (hls : ∀ l ∈ ls, '\n' ∉ l) :
    Lined ls (ls.flatMap (· ++ ['\n'])) := by
  induction ls with
  | nil => exact .empty
  | cons l ls ih =>
    rw [List.forall_mem_cons] at hls
    rw [List.flatMap_cons, List.append_assoc]
    exact .line hls.1 (ih hls.2)

/-- Reading the pieces of a text as lines is reading its lines, as long as an empty line counts for
nothing. -/
theorem filterMap_splitAt {α : Type} {f : List Char → Option α} (hf : f [] = none)
    {ls : List (List Char)} {cs : List Char} (h : Lined ls cs) :
    (splitAt '\n' cs).filterMap f = ls.filterMap f := by
  induction h with
  | empty => simp [splitAt, hf]
  | last hl => rw [splitAt_of_notMem hl]
  | line hl _ ih => rw [splitAt_append hl, List.filterMap_cons, List.filterMap_cons, ih]

theorem filterMap_lines {α : Type} {f : List Char → Option α} (hf : f [] = none)
    (cs : List Char) : (lines cs).filterMap f = (splitAt '\n' cs).filterMap f := by
  unfold lines
  dsimp only
  split
  · next h =>
    obtain ⟨ls, hls⟩ := List.getLast?_eq_some_iff.1 h
    rw [hls, List.dropLast_concat, List.filterMap_append, List.filterMap_cons, hf]
    simp
  · rfl

end Text

namespace Numeral

/-- The decimal digits of the number, with any zeros and perhaps a plus sign before them. -/
def Writes (n : Nat) (cs : List Char) : Prop :=
  ∃ sign zeros, (sign = [] ∨ sign = ['+']) ∧
    cs = sign ++ (List.replicate zeros '0' ++ Nat.toDigits 10 n)

variable {limit n : Nat}

theorem writes_toDigits (n : Nat) : Writes n (Nat.toDigits 10 n) := ⟨[], 0, .inl rfl, rfl⟩

theorem digit?_digitChar {d : Nat} (hd : d < 10) : digit? 10 (Nat.digitChar d) = some d := by
  revert d
  decide

theorem digits_cons_digitChar {v d : Nat} (hd : d < 10) (hlt : 10 * v + d < limit)
    (cs : List Char) :
    digits 10 limit v (Nat.digitChar d :: cs) = digits 10 limit (10 * v + d) cs := by
  rw [digits, digit?_digitChar hd]
  exact if_pos hlt

theorem digits_toDigits_append (hn : n < limit) (cs : List Char) :
    digits 10 limit 0 (Nat.toDigits 10 n ++ cs) = digits 10 limit n cs := by
  induction n using Nat.strongRecOn generalizing cs with
  | ind n ih =>
    rw [Nat.toDigits_eq_if (by decide)]
    split
    case isTrue hlt =>
      have hd := digits_cons_digitChar (v := 0) hlt (by omega : 10 * 0 + n < limit) cs
      rwa [Nat.mul_zero, Nat.zero_add] at hd
    case isFalse hge =>
      have hdiv : 10 * (n / 10) + n % 10 = n := Nat.div_add_mod n 10
      rw [List.append_assoc, ih (n / 10) (by omega) (by omega), List.singleton_append,
        digits_cons_digitChar (Nat.mod_lt n (by decide)) (hdiv.symm ▸ hn), hdiv]

theorem digits_zeros_append (hpos : 0 < limit) (zeros : Nat) (cs : List Char) :
    digits 10 limit 0 (List.replicate zeros '0' ++ cs) = digits 10 limit 0 cs := by
  induction zeros with
  | zero => rfl
  | succ zeros ih =>
    rw [List.replicate_succ, List.cons_append, ← ih]
    exact digits_cons_digitChar (d := 0) (by decide) hpos _

theorem parse_of_writes {cs : List Char} (h : Writes n cs) (hn : n < limit) :
    parse limit cs = .ok n := by
  obtain ⟨sign, zeros, hsign, rfl⟩ := h
  have hvalue : digits 10 limit 0 (List.replicate zeros '0' ++ Nat.toDigits 10 n) = .ok n := by
    have hdigits := digits_toDigits_append hn []
    rw [List.append_nil] at hdigits
    rw [digits_zeros_append (Nat.zero_lt_of_lt hn), hdigits, digits]
  have hne : List.replicate zeros '0' ++ Nat.toDigits 10 n ≠ [] := by simp
  generalize List.replicate zeros '0' ++ Nat.toDigits 10 n = ds at hvalue hne
  obtain rfl | rfl := hsign
  · -- a plus sign is looked for first, but no digit is one
    rw [List.nil_append, parse, ← hvalue]
    unfold parseBase
    split
    · exact absurd rfl hne
    · rfl
    · cases hvalue
    · rfl
  · obtain ⟨d, ds, rfl⟩ := List.exists_cons_of_ne_nil hne
    exact hvalue

end Numeral

end Bandscan
