namespace Bandscan

variable {σ α β : Type}

/-- What a left fold gives off on its way: `emit` sees each element with the state before it. -/
def along (step : σ → α → σ) (emit : σ → α → List β) : σ → List α → List β
  | _, [] => []
  | s, a :: as => emit s a ++ along step emit (step s a) as

theorem along_append (step : σ → α → σ) (emit : σ → α → List β) (s : σ) (as bs : List α) :
    along step emit s (as ++ bs) =
      along step emit s as ++ along step emit (as.foldl step s) bs := by
  induction as generalizing s with
  | nil => rfl
  | cons a as ih => simp [along, ih]

theorem mem_along {step : σ → α → σ} {emit : σ → α → List β} {s : σ} {as : List α} {b : β}
    (h : b ∈ along step emit s as) : ∃ s', ∃ a ∈ as, b ∈ emit s' a := by
  induction as generalizing s with
  | nil => simp [along] at h
  | cons a as ih =>
    rcases List.mem_append.1 h with h | h
    · exact ⟨s, a, List.mem_cons_self, h⟩
    · obtain ⟨s', a', ha, hb⟩ := ih h
      exact ⟨s', a', List.mem_cons_of_mem _ ha, hb⟩

end Bandscan
