import Bandscan.Proofs.FilterNumbers
/-!
What a poll pass hands to its handler. A handler that also takes down what it is handed leaves all
else as it is, and what it takes down accounts for the state that the handler is left in.
-/

namespace Bandscan.Scheduler

variable {δ φ η : Type}

/-- The sections that have been handed over, each with the filter that has read it. -/
abbrev Handed := List (FilterSpec × Section)

def recording (handle : Handler η) : Handler (η × Handed) := fun f s (x, handed) =>
  let r := handle f s x
  ((r.1, handed ++ [(f, s)]), r.2)

def stateAfter (handle : Handler η) (x : η) (handed : Handed) : η :=
  handed.foldl (fun x h => (handle h.1 h.2 x).1) x

def Pass.bare (p : Pass δ φ (η × Handed)) : Pass δ φ η :=
  { running := p.running, handler := p.handler.1, requests := p.requests, world := p.world }

/-- What has been taken down accounts for the state of the handler. -/
def Pass.Accounted (handle : Handler η) (x : η) (p : Pass δ φ (η × Handed)) : Prop :=
  p.handler.1 = stateAfter handle x p.handler.2

variable (d : Demux δ φ) (handle : Handler η)

theorem bare_serve (p : Pass δ φ (η × Handed)) (i : Nat) :
    (serve d (recording handle) p i).bare = serve d handle p.bare i := by
  unfold serve Pass.bare
  dsimp only
  cases p.running[i]? with
  | none => rfl
  | some f =>
    dsimp only
    generalize collect d f p.world = r
    obtain ⟨_ | s, f', w⟩ := r <;> rfl

theorem bare_foldl_serve (ready : List Nat) (p : Pass δ φ (η × Handed)) :
    (ready.foldl (serve d (recording handle)) p).bare = ready.foldl (serve d handle) p.bare := by
  induction ready generalizing p with
  | nil => rfl
  | cons i ready ih => rw [List.foldl_cons, List.foldl_cons, ih, bare_serve]

theorem Pass.Accounted.serve {x : η} {p : Pass δ φ (η × Handed)} (h : p.Accounted handle x)
    (i : Nat) : (serve d (recording handle) p i).Accounted handle x := by
  unfold Scheduler.serve
  cases p.running[i]? with
  | none => exact h
  | some f =>
    dsimp only
    generalize collect d f p.world = r
    obtain ⟨_ | s, f', w⟩ := r
    · exact h
    · show (handle f'.spec s p.handler.1).1 = stateAfter handle x (p.handler.2 ++ [(f'.spec, s)])
      have hstate : stateAfter handle x (p.handler.2 ++ [(f'.spec, s)]) =
          (handle f'.spec s (stateAfter handle x p.handler.2)).1 := List.foldl_append
      rw [hstate, ← h]

theorem Pass.Accounted.foldl_serve {x : η} (ready : List Nat) {p : Pass δ φ (η × Handed)}
    (h : p.Accounted handle x) :
    (ready.foldl (Scheduler.serve d (recording handle)) p).Accounted handle x := by
  induction ready generalizing p with
  | nil => exact h
  | cons i ready ih => exact ih (h.serve d handle i)

/-- A pass with a recording handler is the pass, and its record accounts for the outcome. -/
theorem pollOnce_recording (timeout : Nat) (x : η) (s : Scheduler φ) (w : World δ) :
    let r := pollOnce d timeout (recording handle) (x, []) s w
    pollOnce d timeout handle x s w = (r.1, r.2.1.1, r.2.2) ∧
      r.2.1.1 = stateAfter handle x r.2.1.2 := by
  intro r
  unfold r
  rw [pollOnce_readied, pollOnce_readied]
  dsimp only
  generalize readied d s w = polled
  by_cases he : polled.1.running.isEmpty = true
  · rw [if_pos he, if_pos he]
    exact ⟨rfl, rfl⟩
  · rw [if_neg he, if_neg he]
    generalize d.poll _ timeout polled.2 = answer
    obtain ⟨e | ready, w'⟩ := answer
    · exact ⟨rfl, rfl⟩
    · let p : Pass δ φ (η × Handed) :=
        { running := polled.1.running, handler := (x, []), world := w' }
      have hp : p.Accounted handle x := rfl
      have hbare := bare_foldl_serve d handle ready p
      refine ⟨?_, hp.foldl_serve d handle ready⟩
      dsimp only
      change _ = ready.foldl (serve d handle)
        { running := polled.1.running, handler := x, world := w' } at hbare
      rw [← hbare]
      rfl

end Bandscan.Scheduler
