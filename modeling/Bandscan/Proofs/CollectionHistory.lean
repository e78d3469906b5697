import Mathlib.Data.List.DropRight
import Bandscan.Collection
/-!
What a collection answers depends on the headers that came since extension or version last changed,
and only on the numbers among them. `current` is this part of a history, `Represents` says what a
collection remembers of it.
-/

namespace Bandscan.Collection

/-- The end of a history that belongs to the collection of the next header: the longest one in
which every header has its extension and version. -/
def current (hs : List Header) (h : Header) : List Header :=
  hs.rtakeWhile fun g => keyOf g = keyOf h

def Occurs (n : Nat) (hs : List Header) : Prop := ∃ g ∈ hs, g.number = n

/-- The header is no duplicate and with it no number up to its last one is missing. -/
def Completes (earlier : List Header) (h : Header) : Prop :=
  ¬ Occurs h.number earlier ∧ ∀ n ≤ h.last, Occurs n (earlier ++ [h])

def HasCompleted (hs : List Header) : Prop :=
  ∃ earlier h, earlier ++ [h] <+: hs ∧ Completes earlier h

theorem occurs_concat (n : Nat) (hs : List Header) (h : Header) :
    Occurs n (hs ++ [h]) ↔ h.number = n ∨ Occurs n hs := by
  simp [Occurs, or_and_right, exists_or, or_comm]

theorem not_hasCompleted_nil : ¬ HasCompleted [] := by
  rintro ⟨earlier, h, hp, -⟩
  simp at hp

theorem hasCompleted_concat (hs : List Header) (h : Header) :
    HasCompleted (hs ++ [h]) ↔ HasCompleted hs ∨ Completes hs h := by
  constructor
  · rintro ⟨earlier, g, hp, hc⟩
    rcases List.prefix_concat_iff.1 hp with he | hp
    · obtain ⟨rfl, hg⟩ := List.append_inj' he rfl
      obtain rfl : g = h := by simpa using hg
      exact .inr hc
    · exact .inl ⟨earlier, g, hp, hc⟩
  · rintro (⟨earlier, g, hp, hc⟩ | hc)
    · exact ⟨earlier, g, hp.trans (List.prefix_append _ _), hc⟩
    · exact ⟨hs, h, List.prefix_rfl, hc⟩

structure Represents (c : Collection) (key : Nat × Nat) (hs : List Header) : Prop where
  key_eq : c.key = some key
  seen_iff : ∀ n, c.seen.contains n = true ↔ Occurs n hs
  complete_iff : c.complete = true ↔ HasCompleted hs

theorem represents_opened_of_ne (c : Collection) (h : Header) (hk : c.key ≠ some (keyOf h)) :
    Represents (c.opened h) (keyOf h) [] := by
  rw [opened, if_neg hk]
  refine ⟨rfl, fun n => ?_, ?_⟩
  · simp [NumberMap.contains_empty, Occurs]
  · simp [not_hasCompleted_nil]

theorem hasAll_iff (last : Nat) (m : NumberMap) :
    hasAll last m = true ↔ ∀ n ≤ last, m.contains n = true := by
  simp only [hasAll, List.all_eq_true, List.mem_range, Nat.lt_succ_iff]

section Record

variable {c : Collection} {h : Header} {hs : List Header}

theorem contains_insert_iff (hr : Represents (c.opened h) (keyOf h) hs) (hb : h.number < 256)
    (n : Nat) : ((c.opened h).seen.insert h.number).contains n = true ↔ Occurs n (hs ++ [h]) := by
  rw [NumberMap.contains_insert _ _ _ hb, occurs_concat, ← hr.seen_iff]
  simp

theorem record_eq_none_iff (hr : Represents (c.opened h) (keyOf h) hs) :
    (c.record h).1 = none ↔ Occurs h.number hs := by
  rw [← hr.seen_iff]
  by_cases hd : (c.opened h).seen.contains h.number <;> simp [record, hd]

theorem record_eq_true_iff (hr : Represents (c.opened h) (keyOf h) hs) (hb : h.number < 256) :
    (c.record h).1 = some true ↔ Completes hs h ∧ ¬ HasCompleted hs := by
  by_cases hd : (c.opened h).seen.contains h.number = true
  · have ho := (hr.seen_iff _).1 hd
    simp [record, hd, Completes, ho]
  · have ho : ¬ Occurs h.number hs := fun ho => hd ((hr.seen_iff _).2 ho)
    have ha : hasAll h.last ((c.opened h).seen.insert h.number) = true ↔
        ∀ n ≤ h.last, Occurs n (hs ++ [h]) := by
      simp only [hasAll_iff, contains_insert_iff hr hb]
    have hc : (c.opened h).complete = false ↔ ¬ HasCompleted hs := by
      rw [← hr.complete_iff, Bool.not_eq_true]
    simp [record, hd, Completes, ho, ha, hc, and_comm]

theorem represents_record (hr : Represents (c.opened h) (keyOf h) hs) (hb : h.number < 256) :
    Represents (c.record h).2 (keyOf h) (hs ++ [h]) := by
  by_cases hd : (c.opened h).seen.contains h.number = true
  · have ho := (hr.seen_iff _).1 hd
    have hrec : (c.record h).2 = c.opened h := by simp [record, hd]
    rw [hrec]
    refine ⟨hr.key_eq, fun n => ?_, ?_⟩
    · rw [hr.seen_iff, occurs_concat]
      refine ⟨.inr, ?_⟩
      rintro (rfl | hn)
      · exact ho
      · exact hn
    · rw [hr.complete_iff, hasCompleted_concat]
      simp [Completes, ho]
  · have ho : ¬ Occurs h.number hs := fun ho => hd ((hr.seen_iff _).2 ho)
    have ha := hasAll_iff h.last ((c.opened h).seen.insert h.number)
    simp only [contains_insert_iff hr hb] at ha
    refine ⟨?_, fun n => ?_, ?_⟩
    · simpa [record, hd] using hr.key_eq
    · simpa [record, hd] using contains_insert_iff hr hb n
    · rw [hasCompleted_concat, ← hr.complete_iff]
      have hcomp : Completes hs h ↔ hasAll h.last ((c.opened h).seen.insert h.number) = true := by
        rw [ha]
        simp [Completes, ho]
      rw [hcomp]
      simp only [record, hd]
      cases (c.opened h).complete <;> simp

end Record

theorem HasCompleted.all_occur {hs : List Header} (hc : HasCompleted hs) :
    ∃ g ∈ hs, ∀ n ≤ g.last, Occurs n hs := by
  obtain ⟨earlier, g, hp, -, ha⟩ := hc
  have hg : g ∈ hs := hp.subset (by simp)
  refine ⟨g, hg, fun n hn => ?_⟩
  obtain ⟨x, hx, hxn⟩ := ha n hn
  exact ⟨x, hp.subset hx, hxn⟩

/-- With one last number throughout, a collection has been completed as soon as all numbers are
there. The induction is on the end of the history: the header that brings the last missing number
is the one that completes. -/
theorem hasCompleted_iff_of_last {hs : List Header} {last : Nat} (hl : ∀ g ∈ hs, g.last = last) :
    HasCompleted hs ↔ ∀ n ≤ last, Occurs n hs := by
  constructor
  · intro hc
    obtain ⟨g, hg, ha⟩ := hc.all_occur
    rwa [hl g hg] at ha
  · intro ha
    induction hs using List.reverseRecOn with
    | nil =>
      obtain ⟨g, hg, -⟩ := ha 0 (Nat.zero_le _)
      simp at hg
    | append_singleton hs g ih =>
      rw [hasCompleted_concat]
      by_cases hall : ∀ n ≤ last, Occurs n hs
      · exact .inl (ih (fun x hx => hl x (by simp [hx])) hall)
      · right
        push Not at hall
        obtain ⟨n, hn, hmiss⟩ := hall
        have hgn : g.number = n := ((occurs_concat n hs g).1 (ha n hn)).resolve_right hmiss
        refine ⟨by rwa [hgn], ?_⟩
        rwa [hl g (by simp)]

theorem completes_first_iff_of_last {hs : List Header} {h : Header} {last : Nat}
    (hl : ∀ g ∈ hs ++ [h], g.last = last) :
    (Completes hs h ∧ ¬ HasCompleted hs) ↔
      (∀ n ≤ last, Occurs n (hs ++ [h])) ∧ ¬ ∀ n ≤ last, Occurs n hs := by
  have hh : h.last = last := hl h (by simp)
  have hhs : ∀ g ∈ hs, g.last = last := fun g hg => hl g (by simp [hg])
  rw [hasCompleted_iff_of_last hhs]
  refine and_congr_left fun hnot => ?_
  rw [Completes, hh, and_iff_right_iff_imp]
  intro ha
  push Not at hnot
  obtain ⟨n, hn, hmiss⟩ := hnot
  rwa [((occurs_concat n hs h).1 (ha n hn)).resolve_right hmiss]

end Bandscan.Collection

namespace Bandscan.Collector

open Collection

def afterHistory (tableId : Nat) (hs : List Header) : Collector :=
  hs.foldl (fun c h => (c.record h).2) { tableId }

theorem afterHistory_concat (tableId : Nat) (hs : List Header) (h : Header) :
    afterHistory tableId (hs ++ [h]) = ((afterHistory tableId hs).record h).2 := by
  simp [afterHistory]

theorem segmented_afterHistory (tableId : Nat) (hs : List Header) :
    (afterHistory tableId hs).segmented = false := by
  induction hs using List.reverseRecOn with
  | nil => rfl
  | append_singleton hs h ih => simp [afterHistory_concat, record, store, ih]

theorem record_afterHistory (tableId : Nat) (hs : List Header) (h : Header) :
    ((afterHistory tableId hs).record h).1 = ((afterHistory tableId hs).single.record h).1 := by
  simp [record, collection, segmented_afterHistory]

theorem single_concat (tableId : Nat) (hs : List Header) (h : Header) :
    (afterHistory tableId (hs ++ [h])).single = ((afterHistory tableId hs).single.record h).2 := by
  simp [afterHistory_concat, record, collection, store, segmented_afterHistory]

/-- Opened for the next header, the collection remembers the end of the history that goes with
it. -/
theorem represents_afterHistory (tableId : Nat) (hs : List Header) (h : Header)
    (hb : ∀ g ∈ hs, g.number < 256) :
    Represents ((afterHistory tableId hs).single.opened h) (keyOf h) (current hs h) := by
  induction hs using List.reverseRecOn generalizing h with
  | nil => exact represents_opened_of_ne _ h (by simp [afterHistory])
  | append_singleton hs g ih =>
    have hg := represents_record (ih g fun x hx => hb x (by simp [hx])) (hb g (by simp))
    rw [single_concat]
    by_cases hk : keyOf g = keyOf h
    · have ho : (((afterHistory tableId hs).single.record g).2).opened h =
          ((afterHistory tableId hs).single.record g).2 := by
        rw [opened, if_pos (by rw [hg.key_eq, hk])]
      have hc : current (hs ++ [g]) h = current hs g ++ [g] := by
        simp [current, hk]
      rw [ho, hc, ← hk]
      exact hg
    · have hc : current (hs ++ [g]) h = [] := by
        simp [current, hk]
      rw [hc]
      refine represents_opened_of_ne _ h ?_
      rw [hg.key_eq]
      simpa using hk

theorem isFinished_concat (tableId : Nat) (hs : List Header) (h : Header)
    (hb : ∀ g ∈ hs ++ [h], g.number < 256) :
    (afterHistory tableId (hs ++ [h])).isFinished = true ↔ HasCompleted (current hs h ++ [h]) := by
  have hopened := represents_afterHistory tableId hs h fun g hg => hb g (by simp [hg])
  have hr := represents_record hopened (hb h (by simp))
  rw [isFinished, segmented_afterHistory, single_concat, ← hr.complete_iff]
  simp

theorem current_eq_append {hs earlier later : List Header} {g h : Header}
    (he : hs = earlier ++ g :: later) (hk : ∀ x ∈ g :: later, keyOf x = keyOf h) :
    current hs h = current earlier g ++ g :: later := by
  subst he
  induction later using List.reverseRecOn with
  | nil =>
    have hg : keyOf g = keyOf h := hk g (by simp)
    simp [current, hg]
  | append_singleton later x ih =>
    have hx : keyOf x = keyOf h := hk x (by simp)
    have hi := ih fun y hy => hk y (by simp only [List.mem_cons, List.mem_append] at hy ⊢; tauto)
    have ha : earlier ++ g :: (later ++ [x]) = (earlier ++ g :: later) ++ [x] := by simp
    rw [ha, current, List.rtakeWhile_concat_pos _ _ _ (by simpa using hx), ← List.cons_append,
      ← List.append_assoc, ← hi]
    rfl

/-- What a collector of one table answers after any history. A header is a duplicate if its number
occurs in its collection. It completes the collection if it is the first one there that is no
duplicate and leaves no number up to its last one missing; this happens at most once, and with one
last number throughout it happens when all numbers have come, in any order. The filter is done as
long as the collection has been completed. -/
theorem record_of_history (tableId : Nat) (hs : List Header) (h : Header)
    (hb : ∀ g ∈ hs ++ [h], g.number < 256) :
    let c := current hs h
    let answer := ((afterHistory tableId hs).record h).1
    (answer = none ↔ Occurs h.number c) ∧
      (answer = some true ↔ Completes c h ∧ ¬ HasCompleted c) ∧
      ((afterHistory tableId (hs ++ [h])).isFinished = true ↔ HasCompleted (c ++ [h])) ∧
      (∀ earlier g later, hs = earlier ++ g :: later → (∀ x ∈ g :: later, keyOf x = keyOf h) →
        ((afterHistory tableId earlier).record g).1 = some true → answer ≠ some true) ∧
      ∀ last, (∀ g ∈ c ++ [h], g.last = last) →
        (answer = some true ↔ (∀ n ≤ last, Occurs n (c ++ [h])) ∧ ¬ ∀ n ≤ last, Occurs n c) := by
  intro c answer
  have hbs : ∀ g ∈ hs, g.number < 256 := fun g hg => hb g (by simp [hg])
  have hr := represents_afterHistory tableId hs h hbs
  have htrue : answer = some true ↔ Completes c h ∧ ¬ HasCompleted c := by
    rw [← record_eq_true_iff hr (hb h (by simp)), ← record_afterHistory]
  refine ⟨?_, htrue, isFinished_concat tableId hs h hb, ?_, ?_⟩
  · rw [← record_eq_none_iff hr, ← record_afterHistory]
  · intro earlier g later he hk hg
    have hrg := represents_afterHistory tableId earlier g fun x hx => hbs x (by simp [he, hx])
    rw [record_afterHistory, record_eq_true_iff hrg (hbs g (by simp [he]))] at hg
    have hdone : HasCompleted c := by
      refine ⟨current earlier g, g, ?_, hg.1⟩
      rw [show c = _ from current_eq_append he hk]
      exact ⟨later, by simp⟩
    exact fun hc => (htrue.1 hc).2 hdone
  · intro last hl
    rw [htrue, completes_first_iff_of_last hl]

/-- The last of 80 sections, sent from the highest number down, completes the table. -/
theorem record_of_history_descending :
    let header (n : Nat) : Header :=
      { tableId := 0x42, longForm := true, length := 0, ext := 1, number := n, last := 79 }
    let hs := (List.range 79).map fun i => header (79 - i)
    (∀ g ∈ hs ++ [header 0], g.number < 256) ∧
      Completes (current hs (header 0)) (header 0) ∧ ¬ HasCompleted (current hs (header 0)) := by
  intro header hs
  have hb : ∀ g ∈ hs ++ [header 0], g.number < 256 := by decide +kernel
  have hanswer : ((afterHistory 0x42 hs).record (header 0)).1 = some true := by decide +kernel
  exact ⟨hb, (record_of_history 0x42 hs (header 0) hb).2.1.1 hanswer⟩

end Bandscan.Collector
