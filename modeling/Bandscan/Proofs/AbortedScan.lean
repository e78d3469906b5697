import Bandscan.Kernel.Simulated
import Bandscan.Program
import Bandscan.Proofs.ScanAgreement
/-!
What the program writes when its scan ends, be it at the end, on a signal or on an error of the
demux: the list of all that has been delivered until then. The exit code says how the scan has
ended.
-/

namespace Bandscan.Program

open Session

variable {κ : Type} {k : Kernel κ} {readers : Readers} {args : List String}
  {file : String → Option String} {w w' : World κ} {c : Config} {f : FrontendNode}
  {initial : Option (List InitialList.Entry)}

/-- The program gets past opening the frontend, with this configuration and initial list. -/
inductive Opens (k : Kernel κ) (readers : Readers) (args : List String)
    (file : String → Option String) (w : World κ) :
    Config → FrontendNode → Option (List InitialList.Entry) → World κ → Prop
  | current {a : Arguments} {c : Config} {f : FrontendNode} {w' : World κ}
      (ha : readers.arguments args = .ok a)
      (hc : a.toConfig (a.config.bind file) readers.configFile = .ok c) (hi : a.initial = none)
      (hf : FrontendNode.openNode k c.adapter c.frontend c.currentOnly c.lnb w = (.ok f, w')) :
      Opens k readers args file w c f none w'
  | listed {a : Arguments} {c : Config} {path text : String} {f : FrontendNode} {w' : World κ}
      (ha : readers.arguments args = .ok a)
      (hc : a.toConfig (a.config.bind file) readers.configFile = .ok c)
      (hi : a.initial = some path) (ht : file path = some text)
      (hf : FrontendNode.openNode k c.adapter c.frontend c.currentOnly c.lnb
        (w.tellAll (InitialList.read text).2) = (.ok f, w')) :
      Opens k readers args file w c f (some (InitialList.read text).1) w'

theorem main_of_opens (h : Opens k readers args file w c f initial w') (budget : Nat) :
    (main k budget args file w readers).1 = (scan k budget c f initial w').1.exit := by
  cases h with
  | current ha hc hi hf =>
    unfold main run
    simp only [ha, hc, hi, hf]
  | listed ha hc hi ht hf =>
    unfold main run
    simp only [ha, hc, hi, Option.bind_some, ht, hf]

def resolved (f : FrontendNode) (c : Config) : Config := (resolveInversion f c).1

def setup (k : Kernel κ) (c : Config) (f : FrontendNode)
    (initial : Option (List InitialList.Entry)) : Setup κ FilterNode where
  demux := FilterNode.demux k (FilterNode.path (resolved f c).adapter (resolved f c).demux)
  frontend := f.frontend k
  options := (resolved f c).scanOptions
  roams := initial.isSome

def begun (c : Config) (f : FrontendNode) (w : World κ) : World κ :=
  let path := FilterNode.path (resolved f c).adapter (resolved f c).demux
  (w.tellAll (resolveInversion f c).2).tell (.debug s!"using demux {path}")

def first (c : Config) (f : FrontendNode) (initial : Option (List InitialList.Entry))
    (w : World κ) : Point κ FilterNode :=
  .first initial (resolved f c).session (begun c f w)

def codeOf : End → Nat
  | .completed => 0
  | .interrupted => 2
  | .failed _ => 1
  | .overflowed => 101

structure Exit.Reports (x : Exit) (e : End) (o : ListOptions) (n : Network) : Prop where
  output : x.output = (n.dump o).1.text
  completed : x.code = 0 ↔ e = .completed
  interrupted : x.code = 2 ↔ e = .interrupted
  failed : x.code = 1 ↔ ∃ x, e = .failed x

def finish (k : Kernel κ) (c : Config) (f : FrontendNode)
    (r : Except ScanError Outcome × Session FilterNode × World κ) : Ending × World κ :=
  let demux := FilterNode.demux k (FilterNode.path c.adapter c.demux)
  let (r, s, w) := r
  let w := w.tellAll (resultNotes r)
  let (_, w) := s.scheduler.clear demux w
  let (_, w) := k.call (.close f.fd) w
  match r with
  | .error .overflow => ({ outcome := .error (.scan .overflow) }, w)
  | _ =>
    let (listing, _) := s.network.dump c.listOptions
    ({ outcome := r.mapError .scan, listing := some listing }, w.tellAll listing.notes)

theorem scan_eq_finish (budget : Nat) (c : Config) (f : FrontendNode)
    (initial : Option (List InitialList.Entry)) (w' : World κ) :
    scan k budget c f initial w' = finish k (resolved f c) f
      ((setup k c f initial).scan budget initial (resolved f c).session (begun c f w')) := by
  cases initial <;> rfl

theorem outcome_finish (r : Except ScanError Outcome × Session FilterNode × World κ) :
    (finish k c f r).1.outcome = r.1.mapError .scan := by
  obtain ⟨(_ | _ | _) | _, s, w⟩ := r <;> rfl

theorem exit_finish {r : Except ScanError Outcome × Session FilterNode × World κ} {e : End}
    {n : Network} (h : upshot r = (e.result, n)) (he : e ≠ .overflowed) :
    (finish k c f r).1.exit = { code := codeOf e, output := (n.dump c.listOptions).1.text } := by
  obtain ⟨r, s, w⟩ := r
  obtain ⟨rfl, rfl⟩ := Prod.mk.inj h
  cases e with
  | completed | interrupted | failed => rfl
  | overflowed => exact absurd rfl he

theorem exit_scan {e : End} {n : Network} {budget : Nat}
    (h : upshot ((setup k c f initial).scan budget initial (resolved f c).session (begun c f w')) =
      (e.result, n)) (he : e ≠ .overflowed) :
    (scan k budget c f initial w').1.exit =
      { code := codeOf e, output := (n.dump (resolved f c).listOptions).1.text } := by
  rw [scan_eq_finish, exit_finish h he]

theorem reports_codeOf (e : End) (he : e ≠ .overflowed) (o : ListOptions) (n : Network) :
    Exit.Reports { code := codeOf e, output := (n.dump o).1.text } e o n := by
  refine ⟨rfl, ?_, ?_, ?_⟩ <;> cases e <;> simp_all [codeOf]

/-- Past opening the frontend, wherever the rules end the scan, be it completed, interrupted, or
failed because the demux refuses one of the first filters or fails to be polled, the program ends
there: it lists the network that comes of all that has been tuned to and delivered on the way, and
the exit code tells how the scan has ended. Every run that ends has followed the rules. While
somebody asks to stop, nothing is delivered except by the pass that the scan ends with. It does not
matter what reads the command line and the configuration file. -/
theorem main_reports (h : Opens k readers args file w c f initial w') :
    let g := setup k c f initial
    let start := first c f initial w'
    let o := (resolved f c).listOptions
    (∀ rs q rs' e n, Reaches g start rs q → Ends g q rs' e n → e ≠ .overflowed →
      ∃ enough, ∀ budget ≥ enough, Exit.Reports (main k budget args file w readers).1 e o
        (Record.replayAll g.reading start.network (rs ++ rs'))) ∧
    (∀ budget, (scan k budget c f initial w').1.outcome ≠ .ok .unfinished →
      ∃ rs q rs' e n, Reaches g start rs q ∧ Ends g q rs' e n ∧
        (scan k budget c f initial w').1.outcome = e.result.mapError .scan ∧
        (e ≠ .overflowed → Exit.Reports (main k budget args file w readers).1 e o
          (Record.replayAll g.reading start.network (rs ++ rs')))) ∧
    ∀ p rs q, Goes g p rs q → p.world.interrupted = true → q.world.interrupted = true →
      rs = [] := by
  intro g start o
  have hroams : g.roams = initial.isSome := rfl
  have hnetwork {rs q rs' e n} (hq : Reaches g start rs q) (he : Ends g q rs' e n)
      (hover : e ≠ .overflowed) : n = Record.replayAll g.reading start.network (rs ++ rs') := by
    rw [he.network hover, hq.network, Record.replayAll_append]
  have hexit {budget e n} (hrun : upshot (g.scan budget initial (resolved f c).session
      (begun c f w')) = (e.result, n)) (hover : e ≠ .overflowed) :
      Exit.Reports (main k budget args file w readers).1 e o n := by
    rw [main_of_opens h, exit_scan hrun hover]
    exact reports_codeOf e hover o n
  refine ⟨fun rs q rs' e n hq he hover => ?_, fun budget hout => ?_,
    fun p rs q hgoes => hgoes.eq_nil_of_interrupted⟩
  · obtain ⟨enough, hrun⟩ := scan_settles hroams hq he
    exact ⟨enough, fun budget hb => hnetwork hq he hover ▸ hexit (hrun budget hb) hover⟩
  · have hended : (g.scan budget initial (resolved f c).session (begun c f w')).1 ≠
        .ok .unfinished := by
      intro hresult
      rw [scan_eq_finish, outcome_finish] at hout
      exact hout (congrArg (Except.mapError Failure.scan) hresult)
    obtain ⟨rs, q, rs', e, n, hq, he, hrun⟩ := scan_arrives hroams hended
    have houtcome : (scan k budget c f initial w').1.outcome = e.result.mapError .scan := by
      rw [scan_eq_finish, outcome_finish]
      exact congrArg (Except.mapError Failure.scan) (congrArg (·.1) hrun)
    exact ⟨rs, q, rs', e, n, hq, he, houtcome,
      fun hover => hnetwork hq he hover ▸ hexit hrun hover⟩

/-! ### A poll that fails after the first pass -/

def pidsArguments : List String := ["-c", "-o", "pids"]

def pidsConfig : Config := { currentOnly := true, format := .pids }

def receiverNode : FrontendNode := { fd := 0, kind := .terrestrial, caps := 1, lnb := .universal }

/-- A receiver on a multiplex with one service, of which only the association table is sent. -/
def receiver (pollErrors : List Nat) : SimulatedNodes where
  type := 2
  caps := 1
  queue := [.ofSection 0 [0x00, 0xB0, 0x0D, 0x00, 0x07, 0xC1, 0x00, 0x00, 0x00, 0x01, 0xE1, 0x00,
    0x00, 0x00, 0x00, 0x00]]
  script := [("poll", pollErrors)]

def serviceLine : String := "[0001]                   (0x0001) 00:                    \n"

def afterOpening (w : World SimulatedNodes) : World SimulatedNodes :=
  (FrontendNode.openNode SimulatedNodes.kernel 0 0 true .universal w).2

def pidsMain (w : World SimulatedNodes) : Exit :=
  (main SimulatedNodes.kernel 5 pidsArguments (fun _ => none) w).1

theorem opens_receiver (w : World SimulatedNodes) (hw : (FrontendNode.openNode
      SimulatedNodes.kernel 0 0 true .universal w).1 = .ok receiverNode) :
    Opens SimulatedNodes.kernel {} pidsArguments (fun _ => none) w pidsConfig receiverNode none
      (afterOpening w) :=
  .current (a := { current := true, output := some .pids }) (by decide +kernel) (by decide +kernel)
    rfl (Prod.ext hw rfl)

/-- The second poll is answered with an input error. -/
def failingPoll : World SimulatedNodes := { device := receiver [0, 5] }

def receiverSetup : Setup SimulatedNodes FilterNode :=
  setup SimulatedNodes.kernel pidsConfig receiverNode none

def receiverFirst (w : World SimulatedNodes) : Point SimulatedNodes FilterNode :=
  first pidsConfig receiverNode none (afterOpening w)

theorem pidsMain_failingPoll : pidsMain failingPoll = { code := 1, output := serviceLine } := by
  decide +kernel

theorem outcome_failingPoll :
    (scan SimulatedNodes.kernel 5 pidsConfig receiverNode none
      (afterOpening failingPoll)).1.outcome = .error (.scan (.demux (.poll (.errno 5)))) := by
  decide +kernel

theorem main_reports_failed_poll :
    Opens SimulatedNodes.kernel {} pidsArguments (fun _ => none) failingPoll pidsConfig
      receiverNode none (afterOpening failingPoll) ∧
    pidsMain failingPoll = { code := 1, output := serviceLine } ∧
    ∃ rs q rs' x n, Reaches receiverSetup (receiverFirst failingPoll) rs q ∧
      Ends receiverSetup q rs' (.failed x) n ∧
      ((Record.replayAll receiverSetup.reading (receiverFirst failingPoll).network
        (rs ++ rs')).dump (resolved receiverNode pidsConfig).listOptions).1.text = serviceLine := by
  have hopens := opens_receiver failingPoll (by decide +kernel)
  refine ⟨hopens, pidsMain_failingPoll, ?_⟩
  obtain ⟨rs, q, rs', e, n, hq, he, houtcome, hreports⟩ :=
    (main_reports hopens).2.1 5 (by rw [outcome_failingPoll]; decide)
  rw [outcome_failingPoll] at houtcome
  cases e with
  | completed | interrupted | overflowed => cases houtcome
  | failed x =>
    refine ⟨rs, q, rs', x, n, hq, he, ?_⟩
    have houtput := (hreports End.noConfusion).output
    exact houtput.symm.trans (congrArg Exit.output pidsMain_failingPoll)

/-! ### A flag that is set before the first pass -/

def flagged : World SimulatedNodes := { device := receiver [], interrupted := true }

/-- The scan begins with the flag set and nothing delivered, and yet a service is listed: the flag
is not looked at before the first pass has been made. -/
theorem delivered_after_flag :
    Opens SimulatedNodes.kernel {} pidsArguments (fun _ => none) flagged pidsConfig receiverNode
      none (afterOpening flagged) ∧
    (receiverFirst flagged).world.interrupted = true ∧
    ((receiverFirst flagged).network.dump (resolved receiverNode pidsConfig).listOptions).1.text =
      "" ∧
    pidsMain flagged = { code := 2, output := serviceLine } :=
  ⟨opens_receiver flagged (by decide +kernel), by decide +kernel, by decide +kernel,
    by decide +kernel⟩

end Bandscan.Program
