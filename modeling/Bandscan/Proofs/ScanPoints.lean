import Bandscan.Proofs.RecordedPass
import Bandscan.Proofs.ScanHistory
import Bandscan.Proofs.TableOrder
/-!
A scan step by step. Between two steps a scan stands at a `Point`; `Goes` says which steps lead on
from there and what is taken down of each, `Ends` which steps end the scan. What is taken down
accounts for the network at every point.
-/

namespace Bandscan.Session

variable {δ φ : Type}

structure Setup (δ φ : Type) where
  demux : Demux δ φ
  frontend : Frontend δ
  options : ScanOptions
  roams : Bool

inductive Point (δ φ : Type) where
  | tuning (ids : List Nat) (s : Session φ) (w : World δ)
  | locked (s : Session φ) (w : World δ)
  | collecting (s : Session φ) (w : World δ)

def Point.network : Point δ φ → Network
  | tuning _ s _ | locked s _ | collecting s _ => s.network

def Point.world : Point δ φ → World δ
  | tuning _ _ w | locked _ w | collecting _ w => w

inductive Record where
  /-- A transponder has been tried, with what this has left of its frequencies. -/
  | tuned (id frequency : Nat) (alternates : List Nat) (failed : Bool)
  | delivered (pid : Nat) (table : Section)

namespace Record

def replay (ro : ReadOptions) (n : Network) : Record → Network
  | tuned id frequency alternates tuningFailed =>
    ((n.markScanned id).setCurrent id).modify id fun tp =>
      { tp with frequency, alternates, tuningFailed }
  | delivered pid table => (n.read ro pid table).network

def replayAll (ro : ReadOptions) (n : Network) (rs : List Record) : Network :=
  rs.foldl (replay ro) n

def ofTuning (id : Nat) (n : Network) : Record :=
  match n.get? id with
  | some tp => tuned id tp.frequency tp.alternates tp.tuningFailed
  | none => tuned id 0 [] false

def ofHanded (handed : Scheduler.Handed) : List Record := handed.map fun h => delivered h.1.pid h.2

theorem replayAll_append (ro : ReadOptions) (n : Network) (rs rs' : List Record) :
    replayAll ro n (rs ++ rs') = replayAll ro (replayAll ro n rs) rs' := List.foldl_append

theorem replay_ofTuning (ro : ReadOptions) {id : Nat} {n n' : Network} (h : TunedTo id n n') :
    (ofTuning id n').replay ro n = n' := by
  obtain ⟨frequency, alternates, tuningFailed, rfl⟩ := h
  unfold ofTuning
  rw [Network.get?_modify]
  cases hget : ((n.markScanned id).setCurrent id).get? id with
  | none =>
    refine Network.modify_congr fun tp htp => ?_
    rw [hget] at htp
    cases htp
  | some tp =>
    rw [Option.map_some, if_pos rfl]
    rfl

theorem replay_ofHanded (fe : Frontend δ) (o : ScanOptions) (handed : Scheduler.Handed)
    {n n' : Network} (h : Scheduler.stateAfter (handler fe o) (n, false) handed = (n', false)) :
    replayAll (readOptions fe o) n (ofHanded handed) = n' := by
  -- once numbers are out of range they stay so
  have hover (n : Network) (handed : Scheduler.Handed) :
      (Scheduler.stateAfter (handler fe o) (n, true) handed).2 = true := by
    induction handed with
    | nil => rfl
    | cons x handed ih => exact ih
  induction handed generalizing n with
  | nil => exact congrArg Prod.fst h
  | cons x handed ih =>
    have hstep : Scheduler.stateAfter (handler fe o) (n, false) (x :: handed) =
        Scheduler.stateAfter (handler fe o)
          ((n.read (readOptions fe o) x.1.pid x.2).network,
            (n.read (readOptions fe o) x.1.pid x.2).overflow) handed := rfl
    rw [hstep] at h
    cases hread : (n.read (readOptions fe o) x.1.pid x.2).overflow with
    | true =>
      rw [hread] at h
      have := hover (n.read (readOptions fe o) x.1.pid x.2).network handed
      rw [h] at this
      cases this
    | false =>
      rw [hread] at h
      exact ih h

end Record

inductive End where
  | completed
  | interrupted
  | failed (e : DemuxError)
  | overflowed
  deriving DecidableEq, Repr

def End.result : End → Except ScanError Outcome
  | completed => .ok .completed
  | interrupted => .ok .interrupted
  | failed e => .error (.demux e)
  | overflowed => .error .overflow

/-- A poll pass that takes down what it hands to the reader of tables: the network that it leaves,
whether numbers are out of range, and the sections. -/
def Setup.pass (g : Setup δ φ) (s : Session φ) (w : World δ) :
    Except DemuxError Unit × ((Network × Bool) × Scheduler.Handed) × Scheduler φ × World δ :=
  s.scheduler.pollOnce g.demux g.options.pollInterval
    (Scheduler.recording (handler g.frontend g.options)) ((s.network, false), []) w

/-- The steps of a scan, and what is taken down of them. -/
inductive Goes (g : Setup δ φ) : Point δ φ → List Record → Point δ φ → Prop
  | missed {id : Nat} {ids : List Nat} {s : Session φ} {w w' : World δ} {n : Network}
      (hw : w.interrupted = false)
      (h : tuneTo g.frontend g.options id s.network w = (false, n, w')) :
      Goes g (.tuning (id :: ids) s w) [.ofTuning id n] (.tuning ids { s with network := n } w')
  | locks {id : Nat} {ids : List Nat} {s : Session φ} {w w' : World δ} {n : Network}
      (hr : g.roams = true) (hw : w.interrupted = false)
      (h : tuneTo g.frontend g.options id s.network w = (true, n, w')) :
      Goes g (.tuning (id :: ids) s w) [.ofTuning id n] (.locked { s with network := n } w')
  | starts {s s' : Session φ} {w w' : World δ}
      (h : s.startFilters g.demux g.options w = (.ok (), s', w')) :
      Goes g (.locked s w) [] (.collecting s' w')
  | passes {s : Session φ} {w w' : World δ} {n : Network} {handed : Scheduler.Handed}
      {scheduler : Scheduler φ} (hi : s.scheduler.isIdle = false)
      (h : g.pass s w = (.ok (), ((n, false), handed), scheduler, w'))
      (hw : w'.interrupted = false) :
      Goes g (.collecting s w) (Record.ofHanded handed)
        (.collecting { s with network := n, scheduler } w')
  | onward {s : Session φ} {w : World δ} (hr : g.roams = true) (hi : s.scheduler.isIdle = true) :
      Goes g (.collecting s w) [] (.tuning s.network.pending s
        (w.tell (.debug s!"{s.network.pending.length} transponders pending")))

/-- How a scan ends, what is taken down before it does, and the network that it leaves. -/
inductive Ends (g : Setup δ φ) : Point δ φ → List Record → End → Network → Prop
  | refused {s : Session φ} {w : World δ} {e : DemuxError}
      (h : (s.startFilters g.demux g.options w).1 = .error e) :
      Ends g (.locked s w) [] (.failed e) s.network
  | pollFails {s : Session φ} {w w' : World δ} {e : DemuxError} (hi : s.scheduler.isIdle = false)
      (hr : (Scheduler.readied g.demux s.scheduler w).1.running ≠ [])
      (h : g.demux.poll ((Scheduler.readied g.demux s.scheduler w).1.running.map (·.handle))
        g.options.pollInterval (Scheduler.readied g.demux s.scheduler w).2 = (.error e, w')) :
      Ends g (.collecting s w) [] (.failed e) s.network
  /-- The flag is looked at before a transponder is tried. -/
  | interruptedBefore {ids : List Nat} {s : Session φ} {w : World δ} (hw : w.interrupted = true) :
      Ends g (.tuning ids s w) [] .interrupted s.network
  /-- The flag is looked at after a pass. -/
  | interruptedAfter {s : Session φ} {w w' : World δ} {n : Network} {handed : Scheduler.Handed}
      {scheduler : Scheduler φ} (hi : s.scheduler.isIdle = false)
      (h : g.pass s w = (.ok (), ((n, false), handed), scheduler, w'))
      (hw : w'.interrupted = true) :
      Ends g (.collecting s w) (Record.ofHanded handed) .interrupted n
  | nonePending {s : Session φ} {w : World δ} (hw : w.interrupted = false) :
      Ends g (.tuning [] s w) [] .completed s.network
  | noneElse {s : Session φ} {w : World δ} (hr : g.roams = false)
      (hi : s.scheduler.isIdle = true) : Ends g (.collecting s w) [] .completed s.network
  | overflows {s : Session φ} {w w' : World δ} {n : Network} {handed : Scheduler.Handed}
      {scheduler : Scheduler φ} (hi : s.scheduler.isIdle = false)
      (h : g.pass s w = (.ok (), ((n, true), handed), scheduler, w')) :
      Ends g (.collecting s w) (Record.ofHanded handed) .overflowed n

inductive Reaches (g : Setup δ φ) : Point δ φ → List Record → Point δ φ → Prop
  | refl {p : Point δ φ} : Reaches g p [] p
  | step {p q r : Point δ φ} {rs rs' : List Record} (h : Goes g p rs q) (h' : Reaches g q rs' r) :
      Reaches g p (rs ++ rs') r

variable {g : Setup δ φ} {p q r : Point δ φ} {rs rs' : List Record} {e : End} {n : Network}

theorem Reaches.trans (h : Reaches g p rs q) (h' : Reaches g q rs' r) :
    Reaches g p (rs ++ rs') r := by
  induction h with
  | refl => exact h'
  | step hs _ ih => exact (List.append_assoc _ _ _).symm ▸ .step hs (ih h')

/-- While somebody asks to stop, nothing is tuned to, and no pass leads on. -/
theorem Goes.eq_nil_of_interrupted (h : Goes g p rs q) (hp : p.world.interrupted = true)
    (hq : q.world.interrupted = true) : rs = [] := by
  cases h with
  | missed hw | locks _ hw => exact absurd (hp.symm.trans hw) (by decide)
  | starts | onward => rfl
  | passes _ _ hw => exact absurd (hq.symm.trans hw) (by decide)

def Setup.reading (g : Setup δ φ) : ReadOptions := readOptions g.frontend g.options

theorem Setup.replay_pass {s : Session φ} {w w' : World δ} {r : Except DemuxError Unit}
    {handed : Scheduler.Handed} {scheduler : Scheduler φ}
    (h : g.pass s w = (r, ((n, false), handed), scheduler, w')) :
    Record.replayAll g.reading s.network (Record.ofHanded handed) = n := by
  have hstate := (Scheduler.pollOnce_recording g.demux (handler g.frontend g.options)
    g.options.pollInterval (s.network, false) s.scheduler w).2
  change (g.pass s w).2.1.1 = Scheduler.stateAfter _ _ (g.pass s w).2.1.2 at hstate
  rw [h] at hstate
  exact Record.replay_ofHanded g.frontend g.options handed hstate.symm

theorem network_startFilters (d : Demux δ φ) (o : ScanOptions) (s : Session φ) (w : World δ) :
    (s.startFilters d o w).2.1.network = s.network := by
  unfold startFilters
  split
  · rfl
  · split
    · rfl
    · dsimp only
      split <;> rfl

theorem Goes.network (h : Goes g p rs q) : q.network = Record.replayAll g.reading p.network rs := by
  cases h with
  | @missed id ids s w _ _ _ h | @locks id ids s w _ _ _ _ h =>
    have htuned := tunedTo_tuneTo g.frontend g.options id s.network w
    rw [h] at htuned
    exact (Record.replay_ofTuning g.reading htuned).symm
  | @starts s s' w w' h =>
    have hsame := network_startFilters g.demux g.options s w
    rw [h] at hsame
    exact hsame
  | passes hi h hw => exact (Setup.replay_pass h).symm
  | onward hr hi => rfl

theorem Reaches.network (h : Reaches g p rs q) :
    q.network = Record.replayAll g.reading p.network rs := by
  induction h with
  | refl => rfl
  | step hs _ ih => rw [ih, hs.network, Record.replayAll_append]

theorem Ends.network (h : Ends g p rs e n) (he : e ≠ .overflowed) :
    n = Record.replayAll g.reading p.network rs := by
  cases h with
  | refused | pollFails | interruptedBefore | nonePending | noneElse => rfl
  | interruptedAfter hi h hw => exact (Setup.replay_pass h).symm
  | overflows => exact absurd rfl he

end Bandscan.Session
