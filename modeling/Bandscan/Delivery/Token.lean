namespace Bandscan

structure UnknownToken where
  kind : String
  token : String
  deriving DecidableEq, Repr

namespace UnknownToken

def message (e : UnknownToken) : String := s!"invalid {e.kind} value '{e.token}'"

def lookup {α : Type} (kind : String) (forms : List (String × α)) (word : String) :
    Except UnknownToken α :=
  match forms.lookup word with
  | some a => .ok a
  | none => .error ⟨kind, word⟩

end UnknownToken

end Bandscan
