import Bandscan.Proofs.ScanSeparation
/-!
The map of a service is asked for once, however often and with whatever pids the association tables
list the service. The flag of a service is the memory: what a list of sections asks for are the
first entries with a pid for the services whose flag was not set before.
-/

namespace Bandscan

def Section.programs (s : Section) : List Program :=
  if s.header.tableId = Pat.tableId ∧ s.payload.length % 4 = 0 then
    (Pat.entries s.payload).filter (·.number ≠ 0)
  else []

theorem Pat.parse_eq {s : Section} (hs : s.header.tableId = tableId) :
    parse s =
      if s.payload.length % 4 = 0 then .ok {
        streamId := s.header.ext
        version := s.header.version
        programs := s.programs
        networkPid := (((entries s.payload).filter (·.number = 0)).getLast?).map (·.pid) }
      else .error (.inconsistent (.programLoop s.payload.length)) := by
  unfold parse Section.programs
  rw [Section.expectTable_eq, if_pos hs]
  by_cases hl : s.payload.length % 4 = 0
  · simp [hs, hl, bind, Except.bind, pure, Except.pure]
  · simp [hl, bind, Except.bind, throw, throwThe, MonadExceptOf.throw]

namespace Edit

def programs : Edit → List Program
  | .assign _ p => [p]
  | _ => []

/-- Among the listed programs, the first with a pid for each service that is not known yet. -/
structure Firsts (known : Nat → Bool) (listed asked : List Program) : Prop where
  sublist : asked.Sublist listed
  nodup : (asked.map (·.number)).Nodup
  mem : ∀ p, p ∈ asked ↔ known p.number = false ∧
    listed.find? (fun q => q.number = p.number ∧ q.pid ≠ 0) = some p

theorem Firsts.nil (known : Nat → Bool) : Firsts known [] [] := ⟨.slnil, List.nodup_nil, by simp⟩

variable {known : Nat → Bool} {listed asked : List Program} {p : Program}

theorem Firsts.skip (h : Firsts known listed asked) (hp : p.pid = 0 ∨ known p.number = true) :
    Firsts known (p :: listed) asked := by
  refine ⟨h.sublist.cons p, h.nodup, fun q => ?_⟩
  rw [h.mem, List.find?_cons]
  by_cases hq : p.number = q.number ∧ p.pid ≠ 0
  · have hk : known q.number = true := hq.1 ▸ hp.resolve_left hq.2
    simp [hk]
  · simp only [hq, decide_false]

end Edit

namespace Network

variable {o : ReadOptions} {n : Network} {c : Nat}

/-- The network after these sections. One that would end the program changes nothing. -/
def afterSections (o : ReadOptions) (n : Network) (l : List (Nat × Section)) : Network :=
  l.foldl (fun n r => (n.read o r.1 r.2).network) n

def requests (o : ReadOptions) (n : Network) (l : List (Nat × Section)) : List FilterSpec :=
  along (fun n r => (n.read o r.1 r.2).network) (fun n r => (n.read o r.1 r.2).requests) n l

def mapOptions : ReadOptions := { kind := .terrestrial, channelNumbers := true, mapTimeout := 5 }

end Network

end Bandscan
