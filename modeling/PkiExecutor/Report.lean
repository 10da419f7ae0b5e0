/-
# `PkiExecutor.Report` — the states a command reports

`OpRunState` mirrors the backend's job model (`report.rs`).  The percentages the
handlers report are whole numbers, so they are naturals here.
-/
import PkiExecutor.Lib.Json

namespace PkiExecutor

/-- How far an operation is. -/
inductive OpStatus
  | pending
  | running
  | done
  | error
  | cancelled
  deriving DecidableEq, Repr

/-- One report of an operation's progress. -/
structure OpRunState where
  status : OpStatus
  percent : Option Nat
  phase : Option String
  detail : Option String
  result : Option Json
  deriving Repr

namespace OpRunState

def running (phase : String) (percent : Nat) : OpRunState :=
  { status := .running, percent := some percent, phase := some phase, detail := none,
    result := none }

def done (result : Json) : OpRunState :=
  { status := .done, percent := some 100, phase := none, detail := none, result := some result }

def error (detail : String) : OpRunState :=
  { status := .error, percent := none, phase := none, detail := some detail, result := none }

/-- A state after which the backend expects nothing more for the job. -/
def Terminal (s : OpRunState) : Prop := s.status = .done ∨ s.status = .error

instance (s : OpRunState) : Decidable s.Terminal := inferInstanceAs (Decidable (_ ∨ _))

theorem done_terminal (v : Json) : (done v).Terminal := Or.inl rfl

theorem error_terminal (d : String) : (error d).Terminal := Or.inr rfl

end OpRunState

end PkiExecutor
