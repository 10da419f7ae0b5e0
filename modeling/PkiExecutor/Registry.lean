/-
# `PkiExecutor.Registry` — commands, the registry, and the gate

A handler is a name, a capability and a program over two effects: reporting
progress and calling the shell (`registry.rs`).  The registry maps names to
handlers; `register` overwrites.  `dispatch` looks the name up, checks the
caller's role against the handler's capability, and only then becomes the
handler's program.

That every value sits under its own name is a field of the registry, so no
registry breaks it.  The map's iteration order is unspecified in the source;
`commandsIn` takes the order as an argument and `commands` picks one.
-/
import Mathlib.Data.List.AList
import PkiExecutor.Authz
import PkiExecutor.Lib.Prog
import PkiExecutor.PowerShell
import PkiExecutor.Report

namespace PkiExecutor

/-- Command parameters: a string map, as its entries. -/
abbrev Params := List (String × String)

/-- Why a command fails. -/
inductive CommandError
  | missingParam (name : String)
  | invalidParam (name reason : String)
  | shell (e : PowerShellError)
  deriving DecidableEq, Repr

namespace CommandError

/-- The `Display` text. -/
def display : CommandError → String
  | .missingParam name => s!"missing required parameter '{name}'"
  | .invalidParam name reason => s!"invalid parameter '{name}': {reason}"
  | .shell e => s!"powershell execution failed: {e.display}"

/-- The error is about a parameter, not about the shell. -/
def isParam : CommandError → Bool
  | .missingParam _ => true
  | .invalidParam _ _ => true
  | .shell _ => false

end CommandError

/-- What a handler's `execute` is: a program that reports states and calls the
shell. -/
abbrev Exec (α : Type) := Prog OpRunState ShellCall ShellReply CommandError α

/-- A command: its name, the capability that it asks for, and what it does. -/
structure CommandHandler where
  name : String
  requiredCapability : Capability
  execute : Params → Exec Json

/-- Why a dispatch fails. -/
inductive DispatchError
  | unknownCommand (command : String)
  | forbidden (command : String) (role : Role) (required : Capability)
  | command (e : CommandError)
  deriving DecidableEq, Repr

def DispatchError.display : DispatchError → String
  | .unknownCommand name => s!"unknown command '{name}'"
  | .forbidden name role required =>
      s!"role {role.debug} lacks capability {required.debug} required by '{name}'"
  | .command e => e.display

/-- A dispatch: the same effects, the wider error. -/
abbrev Dispatch := Prog OpRunState ShellCall ShellReply DispatchError Json

/-- The handlers in force, each under its name. -/
structure CommandRegistry where
  handlers : AList (fun _ : String => CommandHandler)
  /-- Every handler is stored under its own name. -/
  named : ∀ {n : String} {h : CommandHandler}, handlers.lookup n = some h → h.name = n

namespace CommandRegistry

def new : CommandRegistry := ⟨∅, fun h => by simp at h⟩

/-- A handler takes the place of one under the same name. -/
def register (r : CommandRegistry) (handler : CommandHandler) : CommandRegistry where
  handlers := r.handlers.insert handler.name handler
  named := by
    intro n h hl
    by_cases hn : n = handler.name
    · subst hn
      rw [AList.lookup_insert] at hl
      cases hl
      rfl
    · exact r.named (by rwa [AList.lookup_insert_ne hn] at hl)

def len (r : CommandRegistry) : Nat := r.handlers.entries.length

/-- The stored handlers, in the order the map happens to hold them. -/
def values (r : CommandRegistry) : List CommandHandler := r.handlers.entries.map Sigma.snd

/-- `commands` over the values in a given iteration order. -/
def commandsIn (vals : List CommandHandler) : List (String × Capability) :=
  (vals.map fun h => (h.name, h.requiredCapability)).mergeSort fun a b => decide (a.1 ≤ b.1)

/-- Every registered command with its capability, sorted by name. -/
def commands (r : CommandRegistry) : List (String × Capability) := commandsIn r.values

/-- The lookup, the gate, and the handler. -/
def dispatch (r : CommandRegistry) (name : String) (role : Role) (params : Params) : Dispatch :=
  match r.handlers.lookup name with
  | none => .fail (.unknownCommand name)
  | some handler =>
      let required := handler.requiredCapability
      if !role.has required then .fail (.forbidden name role required)
      else (handler.execute params).mapErr .command

/-- The registry a sequence of `register` calls builds. -/
def ofHistory (hs : List CommandHandler) : CommandRegistry := hs.foldl register new

/-! ## Lookups -/

theorem lookup_register (r : CommandRegistry) (h : CommandHandler) (n : String) :
    (r.register h).handlers.lookup n = if n = h.name then some h else r.handlers.lookup n := by
  by_cases hn : n = h.name
  · subst hn; simp [register, AList.lookup_insert]
  · simp [register, AList.lookup_insert_ne hn, hn]

theorem lookup_foldl_register : ∀ (hs : List CommandHandler) (r : CommandRegistry) (n : String),
    (hs.foldl register r).handlers.lookup n =
      (hs.reverse.find? (·.name == n)).or (r.handlers.lookup n)
  | [], _, _ => rfl
  | h :: hs, r, n => by
      rw [List.foldl_cons, lookup_foldl_register hs, lookup_register, List.reverse_cons,
        List.find?_append, Option.or_assoc]
      congr 1
      by_cases hn : n = h.name
      · simp [hn]
      · simp [hn, Ne.symm hn]

/-- Over a history the last handler registered under a name is the one stored. -/
theorem lookup_ofHistory (hs : List CommandHandler) (n : String) :
    (ofHistory hs).handlers.lookup n = hs.reverse.find? (·.name == n) := by
  rw [ofHistory, lookup_foldl_register]
  simp [new]

/-! ## The gate -/

theorem dispatch_of_lookup_none {r : CommandRegistry} {name : String}
    (h : r.handlers.lookup name = none) (role : Role) (params : Params) :
    r.dispatch name role params = .fail (.unknownCommand name) := by
  simp [dispatch, h]

theorem dispatch_of_forbidden {r : CommandRegistry} {name : String} {handler : CommandHandler}
    (h : r.handlers.lookup name = some handler) {role : Role}
    (hr : role.has handler.requiredCapability = false) (params : Params) :
    r.dispatch name role params = .fail (.forbidden name role handler.requiredCapability) := by
  simp [dispatch, h, hr]

theorem dispatch_of_allowed {r : CommandRegistry} {name : String} {handler : CommandHandler}
    (h : r.handlers.lookup name = some handler) {role : Role}
    (hr : role.has handler.requiredCapability = true) (params : Params) :
    r.dispatch name role params = (handler.execute params).mapErr .command := by
  simp [dispatch, h, hr]

/-- What a dispatch is: unknown, forbidden, or an allowed handler's program. -/
theorem dispatch_cases (r : CommandRegistry) (name : String) (role : Role) (params : Params) :
    (r.handlers.lookup name = none ∧
      r.dispatch name role params = .fail (.unknownCommand name)) ∨
    (∃ h, r.handlers.lookup name = some h ∧ role.has h.requiredCapability = false ∧
      r.dispatch name role params = .fail (.forbidden name role h.requiredCapability)) ∨
    (∃ h, r.handlers.lookup name = some h ∧ role.has h.requiredCapability = true ∧
      r.dispatch name role params = (h.execute params).mapErr .command) := by
  cases hl : r.handlers.lookup name with
  | none => exact .inl ⟨rfl, dispatch_of_lookup_none hl role params⟩
  | some h =>
      cases hr : role.has h.requiredCapability with
      | false => exact .inr (.inl ⟨h, rfl, hr, dispatch_of_forbidden hl hr params⟩)
      | true => exact .inr (.inr ⟨h, rfl, hr, dispatch_of_allowed hl hr params⟩)

end CommandRegistry

end PkiExecutor
