/-
# `PkiExecutor.Authz` — roles and capabilities

The local mirror of the backend's role table (`authz.rs`): the capabilities, the two
roles, and what each role may do.
-/
import Mathlib.Tactic.Common

namespace PkiExecutor

/-- What a command may ask a role for. -/
inductive Capability
  | vmList
  | vmRead
  | vmClone
  | vmUpdate
  | vmPower
  | vmDelete
  | vmProvision
  | configGenerate
  | vmExecArbitrary
  | deploy
  deriving DecidableEq, Repr

namespace Capability

/-- `Capability::ALL`. -/
def all : List Capability :=
  [vmList, vmRead, vmClone, vmUpdate, vmPower, vmDelete, vmProvision, configGenerate,
    vmExecArbitrary, deploy]

/-- The derived `Debug` text, which the error for a forbidden command quotes. -/
def debug : Capability → String
  | vmList => "VmList"
  | vmRead => "VmRead"
  | vmClone => "VmClone"
  | vmUpdate => "VmUpdate"
  | vmPower => "VmPower"
  | vmDelete => "VmDelete"
  | vmProvision => "VmProvision"
  | configGenerate => "ConfigGenerate"
  | vmExecArbitrary => "VmExecArbitrary"
  | deploy => "Deploy"

end Capability

/-- Who dispatches a command. -/
inductive Role
  | operator
  | guest
  deriving DecidableEq, Repr

namespace Role

/-- What a role may do, as the backend's `ROLE_CAPABILITIES` has it. -/
def capabilities : Role → List Capability
  | operator => Capability.all
  | guest => [.vmList, .vmRead, .vmClone, .vmDelete, .vmProvision, .deploy]

/-- `Role::has`. -/
def has (role : Role) (cap : Capability) : Bool := role.capabilities.contains cap

/-- The derived `Debug` text of a role. -/
def debug : Role → String
  | operator => "Operator"
  | guest => "Guest"

/-- The serde name of a role. -/
def ofWire : String → Option Role
  | "operator" => some operator
  | "guest" => some guest
  | _ => none

theorem has_iff {role : Role} {cap : Capability} :
    role.has cap = true ↔ cap ∈ role.capabilities := by
  simp [has]

end Role

end PkiExecutor
