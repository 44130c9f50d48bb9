import LocalGrid.Setting

/-!
# Faults

What a caller is told when an input is refused: the kind of the refusal, the path of the field and
a sentence about it. The causes themselves are inductive types of the modules that find them; each
of them says here how it is reported.
-/

namespace LocalGrid

inductive FaultKind where
  /-- The shape of the input is wrong. -/
  | configuration
  /-- A number lies outside its domain. -/
  | numericDomain
  deriving DecidableEq, Repr

structure Fault where
  kind : FaultKind
  field : String
  reason : String
  deriving DecidableEq, Repr

def FaultKind.title : FaultKind → String
  | .configuration => "configuration error"
  | .numericDomain => "numeric domain error"

def Fault.message (f : Fault) : String :=
  f.kind.title ++ ": " ++ f.field ++ ": " ++ f.reason

def Setting.fault (s : Setting) (word : String) : Fault :=
  ⟨.configuration, s.name, s.complaint word⟩

end LocalGrid
