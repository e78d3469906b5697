import Mathlib.Data.Finset.Card
import Bandscan.Along
import Bandscan.Proofs.CollectionHistory
/-!
A segmented collector is a family of collectors of one table, one for each extension: all that it
answers about an extension depends on the headers of this extension alone.
-/

namespace Bandscan.Collector

def ofExt (ext : Nat) (hs : List Header) : List Header := hs.filter (·.ext = ext)

def segmentedAfter (tableId : Nat) (hs : List Header) : Collector :=
  hs.foldl (fun c h => (c.record h).2) { tableId, segmented := true }

def answers (c : Collector) (hs : List Header) : List (Header × Option Bool) :=
  along (fun c h => (c.record h).2) (fun c h => [(h, (c.record h).1)]) c hs

theorem ofExt_concat_self (hs : List Header) (h : Header) :
    ofExt h.ext (hs ++ [h]) = ofExt h.ext hs ++ [h] := by
  simp [ofExt]

theorem ofExt_concat_of_ne {ext : Nat} {h : Header} (he : h.ext ≠ ext) (hs : List Header) :
    ofExt ext (hs ++ [h]) = ofExt ext hs := by
  simp [ofExt, he]

theorem segmentedAfter_concat (tableId : Nat) (hs : List Header) (h : Header) :
    segmentedAfter tableId (hs ++ [h]) = ((segmentedAfter tableId hs).record h).2 := by
  simp [segmentedAfter]

theorem lookup_put (ext : Nat) (v : Collection) (l : List (Nat × Collection)) (e : Nat) :
    (put ext v l).lookup e = if e = ext then some v else l.lookup e := by
  induction l with
  | nil =>
    by_cases he : e = ext
    · simp [put, he]
    · simp [put, he, List.lookup_cons, beq_eq_false_iff_ne.2 he]
  | cons p l ih =>
    obtain ⟨k, w⟩ := p
    by_cases hk : k = ext
    · subst hk
      by_cases he : e = k
      · simp [put, he]
      · simp [put, he, List.lookup_cons, beq_eq_false_iff_ne.2 he]
    · rw [put, if_neg hk, List.lookup_cons, List.lookup_cons, ih]
      by_cases he : e = k
      · subst he
        simp [hk]
      · simp [beq_eq_false_iff_ne.2 he]

theorem keys_put (ext : Nat) (v : Collection) (l : List (Nat × Collection)) :
    (put ext v l).map (·.1) =
      if ext ∈ l.map (·.1) then l.map (·.1) else l.map (·.1) ++ [ext] := by
  induction l with
  | nil => simp [put]
  | cons p l ih =>
    obtain ⟨k, w⟩ := p
    by_cases hk : k = ext
    · simp [put, hk]
    · have hk' : ¬ ext = k := fun h => hk h.symm
      rw [put, if_neg hk, List.map_cons, ih, List.map_cons]
      by_cases hm : ext ∈ l.map (·.1)
      · rw [if_pos hm, if_pos (List.mem_cons_of_mem _ hm)]
      · have hm' : ext ∉ k :: l.map (·.1) := by simpa [hk'] using hm
        rw [if_neg hm, if_neg hm', List.cons_append]

theorem record_segments {c : Collector} (hc : c.segmented = true) (h : Header) :
    (c.record h).2 =
      { c with segments := put h.ext ((c.collection h.ext).record h).2 c.segments } := by
  simp [record, store, hc]

theorem isSegmented (tableId : Nat) (hs : List Header) :
    (segmentedAfter tableId hs).segmented = true := by
  induction hs using List.reverseRecOn with
  | nil => rfl
  | append_singleton hs h ih => rw [segmentedAfter_concat, record_segments ih, ih]

theorem collection_record {c : Collector} (hc : c.segmented = true) (h : Header) (ext : Nat) :
    (c.record h).2.collection ext =
      if ext = h.ext then ((c.collection ext).record h).2 else c.collection ext := by
  rw [record_segments hc]
  simp only [collection, hc, if_true, lookup_put]
  by_cases he : ext = h.ext
  · simp [he]
  · simp [he]

/-- Each segment is the collection of a collector that has seen the headers of its extension. -/
theorem collection_segmentedAfter (tableId : Nat) (hs : List Header) (ext : Nat) :
    (segmentedAfter tableId hs).collection ext = (afterHistory tableId (ofExt ext hs)).single := by
  induction hs using List.reverseRecOn with
  | nil => rfl
  | append_singleton hs h ih =>
    rw [segmentedAfter_concat, collection_record (isSegmented tableId hs)]
    by_cases he : ext = h.ext
    · subst he
      rw [if_pos rfl, ih, ofExt_concat_self, single_concat]
    · rw [if_neg he, ih, ofExt_concat_of_ne (Ne.symm he)]

theorem record_segmentedAfter (tableId : Nat) (hs : List Header) (h : Header) :
    ((segmentedAfter tableId hs).record h).1 =
      ((afterHistory tableId (ofExt h.ext hs)).record h).1 := by
  rw [record_afterHistory, ← collection_segmentedAfter]
  rfl

theorem isDone_segmentedAfter (tableId : Nat) (hs : List Header) (ext : Nat) :
    (segmentedAfter tableId hs).isDone ext = (afterHistory tableId (ofExt ext hs)).isFinished := by
  have hc := collection_segmentedAfter tableId hs ext
  rw [collection, if_pos (isSegmented tableId hs)] at hc
  rw [isDone, if_pos (isSegmented tableId hs), isFinished, segmented_afterHistory, ← hc]
  cases (segmentedAfter tableId hs).segments.lookup ext with
  | none => rfl
  | some v => rfl

theorem keys_segmentedAfter (tableId : Nat) (hs : List Header) :
    ((segmentedAfter tableId hs).segments.map (·.1)).Nodup ∧
      ∀ ext, ext ∈ (segmentedAfter tableId hs).segments.map (·.1) ↔ ext ∈ hs.map (·.ext) := by
  induction hs using List.reverseRecOn with
  | nil => exact ⟨List.nodup_nil, fun ext => Iff.rfl⟩
  | append_singleton hs h ih =>
    obtain ⟨hn, hm⟩ := ih
    rw [segmentedAfter_concat, record_segments (isSegmented tableId hs), keys_put]
    by_cases hk : h.ext ∈ (segmentedAfter tableId hs).segments.map (·.1)
    · rw [if_pos hk]
      refine ⟨hn, fun ext => ?_⟩
      rw [hm, List.map_append, List.mem_append]
      refine ⟨.inl, ?_⟩
      rintro (he | he)
      · exact he
      · obtain rfl := List.mem_singleton.1 he
        exact (hm _).1 hk
    · rw [if_neg hk]
      refine ⟨List.concat_eq_append ▸ hn.concat hk, fun ext => ?_⟩
      rw [List.mem_append, hm, List.map_append, List.mem_append]
      rfl

theorem segmentCount_segmentedAfter (tableId : Nat) (hs : List Header) :
    (segmentedAfter tableId hs).segmentCount = (hs.map (·.ext)).toFinset.card := by
  obtain ⟨hn, hm⟩ := keys_segmentedAfter tableId hs
  have hsame : ((segmentedAfter tableId hs).segments.map (·.1)).toFinset =
      (hs.map (·.ext)).toFinset := by
    ext ext
    rw [List.mem_toFinset, List.mem_toFinset, hm]
  rw [segmentCount, if_pos (isSegmented tableId hs), ← hsame, List.toFinset_card_of_nodup hn,
    List.length_map]

theorem answers_concat (c : Collector) (hs : List Header) (h : Header) :
    answers c (hs ++ [h]) =
      answers c hs ++ [(h, ((hs.foldl (fun c h => (c.record h).2) c).record h).1)] := by
  rw [answers, along_append]
  rfl

theorem filter_answers (tableId : Nat) (hs : List Header) (ext : Nat) :
    (answers { tableId, segmented := true } hs).filter (·.1.ext = ext) =
      answers { tableId } (ofExt ext hs) := by
  induction hs using List.reverseRecOn with
  | nil => rfl
  | append_singleton hs h ih =>
    rw [answers_concat, List.filter_append, ih]
    by_cases he : h.ext = ext
    · subst he
      have hr := record_segmentedAfter tableId hs h
      rw [ofExt_concat_self, answers_concat, List.filter_singleton, decide_eq_true rfl, cond_true]
      exact congrArg (fun a => answers { tableId } (ofExt h.ext hs) ++ [(h, a)]) hr
    · rw [ofExt_concat_of_ne he]
      simp [he]

/-- A segmented collector is a family of collectors of one table. It answers a header as the one
that has been given the headers of the same extension alone; an extension is done if that one is
finished, and not if it has not been seen; it counts the extensions and never finishes. So headers
of different extensions may change places without a change to any answer. -/
theorem segmented_of_history (tableId : Nat) (hs : List Header) :
    let c := segmentedAfter tableId hs
    (∀ h, (c.record h).1 = ((afterHistory tableId (ofExt h.ext hs)).record h).1) ∧
      (∀ ext, c.isDone ext = (afterHistory tableId (ofExt ext hs)).isFinished) ∧
      (∀ ext, ext ∉ hs.map (·.ext) → c.isDone ext = false) ∧
      c.segmentCount = (hs.map (·.ext)).toFinset.card ∧
      c.isFinished = false ∧
      ∀ hs', (∀ ext, ofExt ext hs' = ofExt ext hs) → ∀ ext,
        (answers { tableId, segmented := true } hs').filter (·.1.ext = ext) =
          (answers { tableId, segmented := true } hs).filter (·.1.ext = ext) := by
  intro c
  refine ⟨record_segmentedAfter tableId hs, isDone_segmentedAfter tableId hs, fun ext he => ?_,
    segmentCount_segmentedAfter tableId hs, ?_, fun hs' hsame ext => ?_⟩
  · have hno : ofExt ext hs = [] := by
      apply List.filter_eq_nil_iff.2
      intro h hh hext
      exact he (List.mem_map.2 ⟨h, hh, of_decide_eq_true hext⟩)
    rw [isDone_segmentedAfter, hno]
    rfl
  · rw [isFinished, isSegmented]
    rfl
  · rw [filter_answers, filter_answers, hsame]

/-- Two networks whose sections come in turn are answered as if one came after the other, also when
one of them changes its version. -/
theorem segmented_of_history_two_networks :
    let header (ext version number : Nat) : Header :=
      { tableId := 0x41, longForm := true, length := 0, ext, version, number, last := 1 }
    let inTurn := [header 1 0 0, header 2 5 0, header 1 0 1, header 2 6 0, header 1 0 0]
    let inSeries := [header 2 5 0, header 2 6 0, header 1 0 0, header 1 0 1, header 1 0 0]
    (∀ ext, ofExt ext inSeries = ofExt ext inTurn) ∧
      (segmentedAfter 0x41 inTurn).isDone 1 = true ∧ (segmentedAfter 0x41 inTurn).isDone 2 = false ∧
      (segmentedAfter 0x41 inTurn).isDone 3 = false ∧
      ∀ ext, (answers { tableId := 0x41, segmented := true } inSeries).filter (·.1.ext = ext) =
        (answers { tableId := 0x41, segmented := true } inTurn).filter (·.1.ext = ext) := by
  intro header inTurn inSeries
  have hsame : ∀ ext, ofExt ext inSeries = ofExt ext inTurn := by
    intro ext
    by_cases h₁ : 1 = ext
    · subst h₁
      rfl
    · by_cases h₂ : 2 = ext
      · subst h₂
        rfl
      · simp [ofExt, inSeries, inTurn, header, h₁, h₂]
  have h := segmented_of_history 0x41 inTurn
  exact ⟨hsame, by decide +kernel, by decide +kernel, h.2.2.1 3 (by decide),
    h.2.2.2.2.2 inSeries hsame⟩

end Bandscan.Collector
