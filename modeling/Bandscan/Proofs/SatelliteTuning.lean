import Mathlib.Data.List.Forall2
import Bandscan.Kernel.FrontendNode
import Bandscan.Kernel.Simulated
import Bandscan.Proofs.Oscillators
/-!
What a frontend node does with its device. `Carried` says what has been called in which order and
what came of it, on any kernel. A step `Obeys` commands if it carries them out up to the first call
that fails. Steps in turn obey their commands in turn.
-/

namespace Bandscan.FrontendNode

variable {κ : Type} {k : Kernel κ}

inductive Command where
  | call (c : Call)
  /-- The duration is in microseconds. -/
  | pause (duration : Nat)
  deriving DecidableEq, Repr

/-- These commands have been carried out, with this result. Only the last of them may have failed.
The world goes from one to the next, so that nothing else has been asked of the kernel; notes may
be written at any time. -/
inductive Carried (k : Kernel κ) :
    List Command → World κ → Except TunerError Unit → World κ → Prop
  | nothing (w : World κ) : Carried k [] w (.ok ()) w
  | told {cs : List Command} {w w' : World κ} {r : Except TunerError Unit} (note : Note)
      (h : Carried k cs (w.tell note) r w') : Carried k cs w r w'
  | called {cs : List Command} {w w' w'' : World κ} {r : Except TunerError Unit} {c : Call}
      {a : c.Answer} (hc : k.call c w = (.ok a, w')) (h : Carried k cs w' r w'') :
      Carried k (.call c :: cs) w r w''
  | failed {w w' : World κ} {c : Call} {errno : Nat} (hc : k.call c w = (.error errno, w')) :
      Carried k [.call c] w (.error (.control c.name (.ofControl errno))) w'
  | paused {cs : List Command} {w w' : World κ} {r : Except TunerError Unit} {duration : Nat}
      (h : Carried k cs (w.sleep duration) r w') : Carried k (.pause duration :: cs) w r w'

theorem Carried.append {cs cs' : List Command} {w w' w'' : World κ}
    {r r' : Except TunerError Unit} (h : Carried k cs w r w') (hr : r = .ok ())
    (h' : Carried k cs' w' r' w'') : Carried k (cs ++ cs') w r' w'' := by
  induction h with
  | nothing => exact h'
  | told note _ ih => exact .told note (ih hr h')
  | called hc _ ih => exact .called hc (ih hr h')
  | failed => cases hr
  | paused _ ih => exact .paused (ih hr h')

/-- The step carries out the commands. If it fails, it has carried out those up to the one that
failed, whose error is its result. -/
def Obeys (k : Kernel κ) (cs : List Command)
    (step : World κ → Except TunerError Unit × World κ) : Prop :=
  ∀ w, ∃ issued, issued <+: cs ∧ Carried k issued w (step w).1 (step w).2 ∧
    ((step w).1 = .ok () → issued = cs)

theorem obeys_control (c : Call) : Obeys k [.call c] (control k c) := by
  intro w
  refine ⟨[.call c], List.prefix_refl _, ?_, fun _ => rfl⟩
  cases hc : k.call c w with
  | mk answer w' =>
    rw [control, hc]
    cases answer with
    | error errno => exact .failed hc
    | ok a => exact .called hc (.nothing w')

theorem obeys_pause (duration : Nat) :
    Obeys k [.pause duration] fun w => (.ok (), w.sleep duration) := by
  intro w
  exact ⟨_, List.prefix_refl _, .paused (.nothing _), fun _ => rfl⟩

theorem Obeys.told {cs : List Command} {step : World κ → Except TunerError Unit × World κ}
    (h : Obeys k cs step) (note : Note) : Obeys k cs fun w => step (w.tell note) := by
  intro w
  obtain ⟨issued, hpre, hcarried, hok⟩ := h (w.tell note)
  exact ⟨issued, hpre, .told note hcarried, hok⟩

theorem obeys_inTurn {css : List (List Command)}
    {steps : List (World κ → Except TunerError Unit × World κ)}
    (h : List.Forall₂ (Obeys k) css steps) : Obeys k css.flatten (inTurn steps) := by
  induction h with
  | nil => exact fun w => ⟨[], List.prefix_refl _, .nothing w, fun _ => rfl⟩
  | @cons cs step css steps hstep _ ih =>
    intro w
    obtain ⟨issued, hpre, hcarried, hok⟩ := hstep w
    rw [List.flatten_cons, inTurn]
    cases hresult : step w with
    | mk r w' =>
      rw [hresult] at hcarried hok
      cases r with
      | error e =>
        refine ⟨issued, hpre.trans (List.prefix_append ..), hcarried, ?_⟩
        intro hnot
        cases hnot
      | ok u =>
        -- the first step has carried out all it was told to, so the rest goes on from there
        obtain ⟨rest, hrest, hcarried', hok'⟩ := ih w'
        have hfirst : issued = cs := hok rfl
        refine ⟨cs ++ rest, (List.prefix_append_right_inj cs).2 hrest,
          hfirst ▸ hcarried.append rfl hcarried', fun hdone => ?_⟩
        rw [hok' hdone]

theorem obeys_setLnb (fd : Nat) (vertical high : Bool) :
    Obeys k
      [.call (.setTone fd toneOff),
       .call (.setVoltage fd (if vertical then voltage13 else voltage18)),
       .pause settleTime,
       .call (.setTone fd (if high then toneOn else toneOff))]
      (setLnb k fd vertical high) := by
  have hoff := obeys_control (k := k) (.setTone fd toneOff)
  have hvoltage := obeys_control (k := k)
    (.setVoltage fd (if vertical then voltage13 else voltage18))
  have hpause := obeys_pause (k := k) settleTime
  have hband := obeys_control (k := k) (.setTone fd (if high then toneOn else toneOff))
  have hall := obeys_inTurn (.cons hoff (.cons hvoltage (.cons hpause (.cons hband .nil))))
  exact hall

theorem obeys_setParameters (fd frequency : Nat) (inversion : Inversion) (d : Delivery) :
    Obeys k [.call (.setFrontend fd (frequency :: inversion.code :: parameterWords d))]
      (setParameters k fd frequency inversion d) :=
  (obeys_control _).told _

theorem isVertical_eq (p : Polarisation) :
    p.isVertical = decide (p = .vertical ∨ p = .circularRight) := by
  cases p <;> rfl

/-- How a converter and its frontend are set to a satellite transponder. Times are in
microseconds, frequencies in kHz. -/
def satelliteCommands (f : FrontendNode) (tp : Transponder) (p : SatelliteParameters) :
    List Command :=
  [.call (.setTone f.fd toneOff),
   .call (.setVoltage f.fd
    (if p.polarisation = .vertical ∨ p.polarisation = .circularRight then voltage13
      else voltage18)),
   .pause 15000,
   .call (.setTone f.fd (if f.lnb.IsHigh tp.frequency then toneOn else toneOff)),
   .call (.setFrontend f.fd
    (((tp.frequency : Int) - 1000 * f.lnb.oscillator tp.frequency).natAbs :: tp.inversion.code
      :: parameterWords (.satellite p)))]

theorem obeys_set_satellite {f : FrontendNode} {tp : Transponder} {p : SatelliteParameters}
    (hl : f.lnb.InRange) (hk : f.kind = .satellite) (hd : tp.delivery = some (.satellite p)) :
    Obeys k (f.satelliteCommands tp p) (f.set k tp) := by
  have hset : f.set k tp = inTurn [
      setLnb k f.fd p.polarisation.isVertical (f.lnb.intermediate tp.frequency).2,
      setParameters k f.fd (f.lnb.intermediate tp.frequency).1 tp.inversion (.satellite p)] := by
    funext w
    simp only [set, hd, Delivery.kind, hk, ne_eq, not_true_eq_false, if_false]
  have hlnb := obeys_setLnb (k := k) f.fd p.polarisation.isVertical
    (f.lnb.intermediate tp.frequency).2
  have hparameters := obeys_setParameters (k := k) f.fd (f.lnb.intermediate tp.frequency).1
    tp.inversion (.satellite p)
  have hall := obeys_inTurn (.cons hlnb (.cons hparameters .nil))
  rw [← hset] at hall
  simp only [isVertical_eq, Lnb.intermediate_eq hl, decide_eq_true_eq] at hall
  exact hall

theorem set_unsuited {f : FrontendNode} {tp : Transponder} (h : tp.kind ≠ some f.kind)
    (w : World κ) :
    f.set k tp w =
      (.error (tp.kind.elim (.noParameters tp.frequency) (.kindMismatch f.kind)), w) := by
  rw [Transponder.kind] at h ⊢
  cases hd : tp.delivery with
  | none => simp only [set, hd, Option.map_none, Option.elim_none]
  | some d =>
    rw [hd, Option.map_some, ne_eq, Option.some.injEq] at h
    simp only [set, hd, ne_eq, h, not_false_eq_true, if_true, Option.map_some, Option.elim_some]

/-- Frequencies of a converter that are read pass the check, and all that pass it are read back as
they are written. With such frequencies a frontend is set to a satellite transponder by the
commands in turn, up to the first call that fails, whatever the device answers, and the device is
told the exact intermediate frequency. The device is left alone if the transponder cannot be
received with the frontend. -/
theorem set_satellite_exact :
    (∀ text l, Lnb.parse text = .ok l → l.check = .ok ()) ∧
    (∀ l : Lnb, l.check = .ok () →
      Lnb.parse (Lnb.listing [l.low, l.high, l.switch]) = .ok l) ∧
    ∀ {κ : Type} (k : Kernel κ) (f : FrontendNode) (tp : Transponder) (w : World κ),
      (∀ p, f.lnb.check = .ok () → f.kind = .satellite → tp.delivery = some (.satellite p) →
        ∃ issued, issued <+: f.satelliteCommands tp p ∧
          Carried k issued w (f.set k tp w).1 (f.set k tp w).2 ∧
          ((f.set k tp w).1 = .ok () → issued = f.satelliteCommands tp p)) ∧
      (tp.kind ≠ some f.kind → f.set k tp w =
        (.error (tp.kind.elim (.noParameters tp.frequency) (.kindMismatch f.kind)), w)) := by
  refine ⟨fun text l => Lnb.check_of_parse, fun l hl => ?_, fun k f tp w => ⟨?_, ?_⟩⟩
  · exact Lnb.parse_listing (Lnb.check_eq_ok_iff.1 hl)
  · intro p hl hk hd
    exact obeys_set_satellite (Lnb.check_eq_ok_iff.1 hl) hk hd w
  · intro hkind
    exact set_unsuited hkind w

def dish : FrontendNode := { fd := 3, kind := .satellite, caps := 1, lnb := .universal }

/-- A transponder at the edge of the high band. -/
def edge : SatelliteParameters :=
  { symbolRate := 27500000, fec := .r3_4, polarisation := .circularRight, orbitalPosition := 192,
    east := true }

def edgeTransponder : Transponder :=
  { frequency := 11700000, delivery := some (.satellite edge) }

/-- The second change of tone fails with an input error. -/
def toneless : World SimulatedNodes := { device := { script := [("FE_SET_TONE", [0, 5])] } }

/-- The device breaks off before it is told a frequency. With a cable frontend nothing is asked of
it in the first place. -/
theorem set_satellite_exact_toneless :
    Lnb.parse " 9750,10600 ,+11700" = .ok .universal ∧ Lnb.check .universal = .ok () ∧
    Lnb.parse (Lnb.listing [9750, 10600, 11700]) = .ok .universal ∧
    dish.satelliteCommands edgeTransponder edge =
      [.call (.setTone 3 1), .call (.setVoltage 3 0), .pause 15000, .call (.setTone 3 0),
       .call (.setFrontend 3 [1100000, 2, 27500000, 3, 0, 0, 0, 0, 0])] ∧
    (dish.set SimulatedNodes.kernel edgeTransponder toneless).2.device.calls =
      #[(.setTone 3 1, 0), (.setVoltage 3 0, 0), (.setTone 3 0, 5)] ∧
    (∃ issued, issued <+: dish.satelliteCommands edgeTransponder edge ∧
      Carried SimulatedNodes.kernel issued toneless (.error (.control "FE_SET_TONE" (.errno 5)))
        (dish.set SimulatedNodes.kernel edgeTransponder toneless).2) ∧
    ({ dish with kind := .cable } : FrontendNode).set SimulatedNodes.kernel edgeTransponder
      toneless = (.error (.kindMismatch .cable .satellite), toneless) := by
  have hread : Lnb.parse " 9750,10600 ,+11700" = .ok .universal := by decide +kernel
  have hcheck := set_satellite_exact.1 _ _ hread
  have hset := set_satellite_exact.2.2 SimulatedNodes.kernel dish edgeTransponder toneless
  have hcable := set_satellite_exact.2.2 SimulatedNodes.kernel { dish with kind := .cable }
    edgeTransponder toneless
  obtain ⟨issued, hpre, hcarried, -⟩ := hset.1 edge hcheck rfl rfl
  have hresult : (dish.set SimulatedNodes.kernel edgeTransponder toneless).1 =
      .error (.control "FE_SET_TONE" (.errno 5)) := by decide +kernel
  rw [hresult] at hcarried
  exact ⟨hread, hcheck, set_satellite_exact.2.1 .universal hcheck, by decide +kernel,
    by decide +kernel, ⟨issued, hpre, hcarried⟩, hcable.2 (by decide)⟩

end Bandscan.FrontendNode
