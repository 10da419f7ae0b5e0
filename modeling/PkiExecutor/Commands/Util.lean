/-
# `PkiExecutor.Commands.Util` — what the command handlers share

Parameter access, validation errors, the non-zero-exit check and the validators
used by more than one handler (`commands/util.rs`).

Every shell-backed handler is validation followed by one performance: report a
running state, run one script, insist on exit code 0, read the result off the
output, report it done.  `Stage` is what differs from handler to handler and
`perform` is what they all do with it.  `Staged P` says of a program that it is
such a handler's: it rejects its parameters before anything happens, or performs
a stage of which `P` holds.  Each handler has one such fact, proved by the rules
below; whatever holds of every command is derived from it.
-/
import PkiExecutor.Lib.Str
import PkiExecutor.Registry

namespace PkiExecutor

/-- What a handler takes from outside: the JSON parser, and what the machine
says about its uptime and its first-boot task. -/
structure Host where
  /-- `serde_json::from_str` -/
  fromStr : String → Option Json
  tickMs : Nat
  finalizeTaskFile : String
  finalizeTaskExists : Bool
  uptimeMs : Nat

/-- A machine that has just started, has no first-boot task and parses no JSON. -/
def Host.idle : Host := ⟨fun _ => none, 0, "", false, 0⟩

/-! ## Parameters and effects -/

/-- A parameter, if it is given. -/
def param (ctx : Params) (key : String) : Option String := ctx.lookup key

/-- `ok_or(e)?` -/
def okOr {α : Type} (o : Option α) (e : CommandError) : Exec α :=
  match o with
  | some a => pure a
  | none => .fail e

/-- A parameter that must be given. -/
def required (ctx : Params) (key : String) : Exec String :=
  okOr (param ctx key) (.missingParam key)

def invalid (name reason : String) : CommandError := .invalidParam name reason

/-- `if !cond { return Err(e) }` -/
def ensure (cond : Bool) (e : CommandError) : Exec Unit := if cond then pure () else .fail e

theorem ensure_eq_ok_iff {cond : Bool} {e : CommandError} {u : Unit} :
    ensure cond e = .ok u ↔ cond = true := by
  cases cond with
  | false => exact iff_of_false (fun h => by cases h) (by decide)
  | true => exact iff_of_true rfl rfl

/-- A `for` loop over checks. -/
def forEach {α : Type} (check : α → Exec Unit) : List α → Exec Unit
  | [] => pure ()
  | x :: xs => do
      check x
      forEach check xs

/-- `?` on a plain result. -/
def ofExcept {α : Type} : Except CommandError α → Exec α
  | .ok a => pure a
  | .error e => .fail e

/-- One state is told to the sink. -/
def report (state : OpRunState) : Exec Unit := .tell state (pure ())

/-- One call of the shell; it may not come to a run. -/
def runShell (script : String) (args : List String) : Exec PowerShellOutput :=
  .ask ⟨script, args⟩ fun reply => ofExcept (reply.mapError .shell)

/-- Any exit code but 0 is an error. -/
def requireSuccess (output : PowerShellOutput) : Except CommandError PowerShellOutput :=
  if output.succeeded then .ok output
  else .error (.shell (.nonZeroExit output.exitCode output.stderr))

/-- What is printed, read as JSON; `null` if it is none. -/
def parseJson (host : Host) (stdout : String) : Json :=
  (host.fromStr (Str.trim stdout)).getD .null

theorem parseJson_of_fromStr {host : Host} {stdout : String} {v : Json}
    (ht : Str.trim stdout = stdout) (h : host.fromStr stdout = some v) :
    parseJson host stdout = v := by
  rw [parseJson, ht, h]
  rfl

/-! ## Validators -/

/-- `lo` to `hi` bytes of ASCII letters, digits and the characters of `extra`:
the check most names pass through, file by file with its own bounds. -/
def validChars (lo hi : Nat) (extra value : String) : Bool :=
  decide (lo ≤ Str.len value ∧ Str.len value ≤ hi)
    && Str.all value fun c => c.isAlphanum || Str.containsChar extra c

/-- A drive, and behind it letters, digits and ` ._-\()`, up to 200 bytes in all. -/
def validWindowsPath (path : String) : Bool :=
  match path.toList with
  | drive :: ':' :: '\\' :: chars =>
      drive.isAlpha && decide (Str.len path ≤ 200)
        && chars.all fun c => c.isAlphanum || Str.containsChar " ._-\\()" c
  | _ => false

/-- Any text up to 127 bytes that does not begin with a dash, but the empty one. -/
def validSecret (value : String) : Bool :=
  !value.isEmpty && !Str.startsWithChar value '-' && decide (Str.len value ≤ 127)

/-- An account name, alone or with its domain. -/
def validUsername (value : String) : Bool :=
  validChars 1 104 "\\@.-_" value && !Str.startsWithChar value '-'

def validDnsLabel (label : String) : Bool :=
  !label.isEmpty && decide (Str.len label ≤ 63)
    && Str.all label (fun c => c.isAlphanum || c == '-')
    && !Str.startsWithChar label '-' && !Str.endsWithChar label '-'

/-- Labels between dots; one more dot may stand at the end. -/
def validDnsName (name : String) : Bool :=
  let name := (Str.stripSuffix name ".").getD name
  !name.isEmpty && decide (Str.len name ≤ 253) && (Str.split name '.').all validDnsLabel

def validPosixPath (path : String) : Bool :=
  match path.toList with
  | '/' :: chars =>
      !path.isEmpty && decide (Str.len path ≤ 200)
        && chars.all fun c => c.isAlphanum || Str.containsChar " ._-/" c
  | _ => false

/-! ## Stages -/

/-- What an accepted command does: the state it reports first, the script it
runs with its arguments, and how it reads its result off a successful run. -/
structure Stage where
  phase : String
  percent : Nat
  script : String
  args : List String
  read : PowerShellOutput → Except CommandError Json

namespace Stage

/-- The call that a stage puts. -/
def call (s : Stage) : ShellCall := ⟨s.script, s.args⟩

/-- What the shell's reply comes to. -/
def settle (s : Stage) (reply : ShellReply) : Except CommandError Json :=
  (reply.mapError .shell).bind fun output => (requireSuccess output).bind s.read

/-- A stage whose result does not depend on a check of the output. -/
def plain (phase : String) (percent : Nat) (script : String) (args : List String)
    (result : PowerShellOutput → Json) : Stage :=
  ⟨phase, percent, script, args, fun output => .ok (result output)⟩

end Stage

/-- What a call comes to on a machine that knows the meaning of one text, over its arguments;
a call of any other text comes to `other`. -/
@[irreducible] def ofScript {α : Type} (text : String) (f : List String → α) (other : α)
    (c : ShellCall) : α := if c.script = text then f c.args else other

theorem ofScript_stage {α : Type} {text : String} {stage : Stage} (h : stage.script = text)
    (f : List String → α) (other : α) : ofScript text f other stage.call = f stage.args := by
  unfold ofScript
  exact if_pos h

/-- A stage from its first report to its last. -/
def perform (s : Stage) : Exec Json := do
  report (.running s.phase s.percent)
  let output ← runShell s.script s.args
  let output ← ofExcept (requireSuccess output)
  let result ← ofExcept (s.read output)
  report (.done result)
  return result

/-- The end of a command: its result reported and returned, or its error. -/
def conclude : Except CommandError Json → Exec Json
  | .ok result => .tell (.done result) (.ok result)
  | .error e => .fail e

theorem perform_eq (s : Stage) :
    perform s =
      .tell (.running s.phase s.percent) (.ask s.call fun r => conclude (s.settle r)) := by
  show Prog.tell _ (Prog.ask _ fun r => _) = _
  congr 2
  funext r
  cases r with
  | error e => rfl
  | ok output =>
      show (ofExcept (requireSuccess output) >>= fun output => ofExcept (s.read output) >>= _)
        = conclude ((requireSuccess output).bind s.read)
      cases requireSuccess output with
      | error e => rfl
      | ok output =>
          show (ofExcept (s.read output) >>= _) = conclude (s.read output)
          cases s.read output <;> rfl

theorem Stage.settle_failed (s : Stage) {reply : ShellReply} (h : reply.failed = true) :
    ∃ e, s.settle reply = .error (.shell e) := by
  cases reply with
  | error e => exact ⟨e, rfl⟩
  | ok output =>
      have hs : output.succeeded = false := by simpa [ShellReply.failed] using h
      exact ⟨_, by
        show (requireSuccess output).bind s.read = _
        rw [requireSuccess, hs]
        rfl⟩

theorem Stage.settle_succeeded (s : Stage) {output : PowerShellOutput}
    (h : output.succeeded = true) : s.settle (.ok output) = s.read output := by
  show (requireSuccess output).bind s.read = _
  rw [requireSuccess, h]
  rfl

theorem Stage.settle_ok {s : Stage} {reply : ShellReply} {v : Json} (h : s.settle reply = .ok v) :
    ∃ output, reply = .ok output ∧ output.succeeded = true ∧ s.read output = .ok v := by
  cases reply with
  | error e => cases h
  | ok output =>
      change (requireSuccess output).bind s.read = .ok v at h
      cases hs : output.succeeded with
      | false => rw [requireSuccess, hs] at h; cases h
      | true => rw [requireSuccess, hs] at h; exact ⟨output, rfl, hs, h⟩

/-! ## Validation

A program that only looks: it yields a value of which `Φ` holds or fails over a
parameter, and touches nothing either way. -/

/-- A validation: it yields what satisfies `Φ`, or an error of a parameter, and puts no call. -/
inductive Checks {α : Type} (Φ : α → Prop) : Exec α → Prop
  | ok {a : α} : Φ a → Checks Φ (.ok a)
  | rejected {e : CommandError} : e.isParam = true → Checks Φ (.fail e)

namespace Checks

variable {α β : Type} {Φ : α → Prop} {Ψ : β → Prop}

theorem mono {Φ' : α → Prop} {p : Exec α} (h : Checks Φ p) (hΦ : ∀ a, Φ a → Φ' a) :
    Checks Φ' p := by
  cases h with
  | ok ha => exact .ok (hΦ _ ha)
  | rejected he => exact .rejected he

theorem holds {a : α} (h : Checks Φ (.ok a)) : Φ a := by
  cases h with
  | ok ha => exact ha

theorem bind {p : Exec α} {f : α → Exec β} (h : Checks Φ p) (hf : ∀ a, Φ a → Checks Ψ (f a)) :
    Checks Ψ (p >>= f) := by
  cases h with
  | ok ha => exact hf _ ha
  | rejected he => exact .rejected he

theorem okOr {o : Option α} {e : CommandError} (he : e.isParam = true) :
    Checks (o = some ·) (PkiExecutor.okOr o e) := by
  cases o with
  | none => exact .rejected he
  | some a => exact .ok rfl

theorem required (ctx : Params) (key : String) :
    Checks (param ctx key = some ·) (PkiExecutor.required ctx key) := okOr rfl

theorem ensure {cond : Bool} {e : CommandError} (he : e.isParam = true) :
    Checks (fun _ => cond = true) (PkiExecutor.ensure cond e) := by
  cases cond with
  | false => exact .rejected he
  | true => exact .ok rfl

theorem ite {c : Prop} [Decidable c] {p q : Exec α} (ht : c → Checks Φ p) (he : ¬ c → Checks Φ q) :
    Checks Φ (if c then p else q) := by
  by_cases h : c
  · rw [if_pos h]; exact ht h
  · rw [if_neg h]; exact he h

theorem forEach {P : α → Prop} {check : α → Exec Unit} (hc : ∀ x, Checks (fun _ => P x) (check x)) :
    ∀ xs : List α, Checks (fun _ => ∀ x ∈ xs, P x) (PkiExecutor.forEach check xs)
  | [] => .ok (by simp)
  | x :: xs => (hc x).bind fun _ hx =>
      (forEach hc xs).mono fun _ hxs => List.forall_mem_cons.mpr ⟨hx, hxs⟩

end Checks

/-! ## Staged programs -/

/-- The program rejects its parameters, or performs a stage that satisfies `P`. -/
inductive Staged (P : Stage → Prop) : Exec Json → Prop
  | rejected {e : CommandError} : e.isParam = true → Staged P (.fail e)
  | perform {s : Stage} : P s → Staged P (perform s)

namespace Staged

variable {P Q : Stage → Prop}

theorem mono {p : Exec Json} (h : Staged P p) (hpq : ∀ s, P s → Q s) : Staged Q p := by
  cases h with
  | rejected he => exact .rejected he
  | perform hs => exact .perform (hpq _ hs)

theorem performed {p : Exec Json} (h : Staged P p) (ha : p.failed = false) :
    ∃ s, P s ∧ p = PkiExecutor.perform s := by
  cases h with
  | rejected he => cases ha
  | @perform s hs => exact ⟨s, hs, rfl⟩

theorem of_accepted {p : Exec Json} (h : Staged P p) (ha : p.failed = false) : ∃ s, P s := by
  obtain ⟨s, hs, -⟩ := h.performed ha
  exact ⟨s, hs⟩

theorem check {α : Type} {Φ : α → Prop} {p : Exec α} {f : α → Exec Json} (h : Checks Φ p)
    (hf : ∀ a, Φ a → Staged P (f a)) : Staged P (p >>= f) := by
  cases h with
  | ok ha => exact hf _ ha
  | rejected he => exact .rejected he

theorem required {ctx : Params} {key : String} {f : String → Exec Json}
    (h : ∀ value, param ctx key = some value → Staged P (f value)) :
    Staged P (PkiExecutor.required ctx key >>= f) := .check (.required ctx key) h

theorem ensure {cond : Bool} {e : CommandError} {f : Unit → Exec Json} (he : e.isParam = true)
    (h : cond = true → Staged P (f ())) : Staged P (PkiExecutor.ensure cond e >>= f) :=
  .check (.ensure he) fun _ => h

end Staged

end PkiExecutor
