import Bandscan.Program
/-!
The command line program. Control calls of device nodes are out of reach here, so a node that can be
opened answers none of them; everything up to that point is as on any machine.
-/

namespace Bandscan

/-- The device nodes of this machine: what opening each of them answered when it was tried. -/
structure HostNodes where
  openErrno : String → Nat

namespace HostNodes

def noControl : Nat := 25

def openNode (path : String) (w : World HostNodes) : Except Nat Nat × World HostNodes :=
  (if w.device.openErrno path = 0 then .ok 0 else .error (w.device.openErrno path), w)

def kernel : Kernel HostNodes where
  call c := match c with
    | .openNode path _ _ => openNode path
    | .close _ => fun w => (.ok (), w)
    | .getInfo _ | .setTone .. | .setVoltage .. | .setFrontend .. | .readStatus _
    | .setFilter .. | .stopFilter _ | .poll .. | .read .. => fun w => (.error noControl, w)

end HostNodes

def errnoOf : IO.Error → Nat
  | .noFileOrDirectory _ code _ | .permissionDenied _ code _ | .noSuchThing _ code _
  | .inappropriateType _ code _ | .resourceExhausted _ code _ => code.toNat
  | .resourceBusy code _ | .unsupportedOperation code _ | .hardwareFault code _
  | .otherError code _ => code.toNat
  | _ => 5

def probe (path : String) (mode : IO.FS.Mode) : IO Nat := do
  try
    let _ ← IO.FS.Handle.mk path mode
    return 0
  catch e => return errnoOf e

def readText (path : String) : IO (Option String) := do
  try return some (← IO.FS.readFile path)
  catch _ => return none

def readNamed (a : Arguments) : IO (String → Option String) := do
  let named := a.config.toList ++ a.initial.toList
  let texts ← named.mapM readText
  return fun path => ((named.zip texts).lookup path).join

def probeFrontend (a : Arguments) (file : String → Option String) : IO HostNodes := do
  match a.toConfig (a.config.bind file) with
  | .error _ => return ⟨fun _ => HostNodes.noControl⟩
  | .ok c =>
    let errno ← probe (FrontendNode.path c.adapter c.frontend)
      (if c.currentOnly then .read else .readWrite)
    return ⟨fun _ => errno⟩

/-- More poll passes and tunings than any scan takes. -/
def budget : Nat := 1000000000

def usage : String :=
  let option (s : Switch) : String :=
    let short := match s.short with
      | some c => s!"-{c}, "
      | none => "    "
    "  " ++ short ++ "--" ++ s.long ++ (if s.takesValue then " <value>" else "") ++ "\n"
  "Usage: bandscan [options] <initial list>\n       bandscan [options] --current\n\n"
    ++ String.join (Switch.all.map option)

def version : String := "bandscan 0.1.0\n"

end Bandscan

open Bandscan in
def main (args : List String) : IO UInt32 := do
  match Arguments.parse args with
  | .error e =>
    match e with
    | .displayHelp => IO.print usage
    | .displayVersion => IO.print version
    | _ => IO.eprint usage
    return (Program.usageExit e).code.toUInt32
  | .ok a =>
    let file ← readNamed a
    let nodes ← probeFrontend a file
    let (exit, w) := Program.main HostNodes.kernel budget args file { device := nodes }
    for note in Note.shown a.verbosity w.journal.toList do
      IO.eprintln s!"[{note.level.name}] {note.text}"
    IO.print exit.output
    return exit.code.toUInt32
