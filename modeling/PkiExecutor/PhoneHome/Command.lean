/-
# `PkiExecutor.PhoneHome.Command` — one inbound command

The frame the backend sends, how it is decoded, and what is done with it
(`phonehome.rs`): dispatch under the role it names, every reported state tagged
with the job id, and an error frame where the dispatch fails.

`handleCommand_stream` is what the backend may rely on: whatever the command and
whatever the shell does, one terminal frame, and it is last.
-/
import PkiExecutor.Catalog

namespace PkiExecutor

/-- A dispatch frame. -/
structure InboundCommand where
  jobId : String
  command : String
  params : Params
  role : Role
  deriving DecidableEq, Repr

/-- A progress frame. -/
structure OutboundProgress where
  jobId : String
  state : OpRunState
  deriving Repr

/-! ## Decoding -/

/-- The decoder takes the variant's name, alone or as the one key of an object
with a `null` under it. -/
def Role.decode : Json → Option Role
  | .str s => ofWire s
  | .obj [(s, .null)] => ofWire s
  | _ => none

/-- A string map; of two members under one key the later stays. -/
def decodeParams : Json → Option Params
  | .obj members => members.reverse.mapM fun m => do return (m.1, ← m.2.asStr)
  | _ => none

namespace InboundCommand

/-- The `params` member of an object, or the default where there is none. -/
def paramsField (members : List (String × Json)) : Option Params :=
  match Json.under members "params" with
  | [] => some []
  | [v] => decodeParams v
  | _ => none

/-- The derived decoder: an object with the fields, each once and `params`
optional, other members being passed over, or the array of the fields. -/
def decode : Json → Option InboundCommand
  | .obj members => do
      return { jobId := ← (← Json.field members "job_id").asStr
               command := ← (← Json.field members "command").asStr
               params := ← paramsField members
               role := ← Role.decode (← Json.field members "role") }
  | .arr [jobId, command, params, role] => do
      return { jobId := ← jobId.asStr, command := ← command.asStr
               params := ← decodeParams params, role := ← Role.decode role }
  | _ => none

/-- `serde_json::from_str` at an inbound command. -/
def ofText (host : Host) (text : String) : Option InboundCommand := (host.fromStr text).bind decode

end InboundCommand

/-! ## Handling -/

/-- What a command does to the channel and the shell; it cannot fail. -/
abbrev Handling := Prog OutboundProgress ShellCall ShellReply Empty Unit

/-- Dispatch one command, its progress going to the channel under its job id. -/
def handleCommand (registry : CommandRegistry) (cmd : InboundCommand) : Handling :=
  ((registry.dispatch cmd.command cmd.role cmd.params).mapMsg
    fun state => ⟨cmd.jobId, state⟩).handle
    (fun _ => .ok ())
    (fun err => .tell ⟨cmd.jobId, .error err.display⟩ (.ok ()))

/-- The states of a handler that ended, and the shell runs that led there: every
state but a last `done` is a running one, and a failed shell run precludes the
`done`. -/
structure Reported (o : Outcome OpRunState ShellCall ShellReply DispatchError Json) : Prop where
  messages : ∃ runs : List OpRunState, (∀ s ∈ runs, s.status = .running) ∧
    Event.messages o.trace = runs ++ match o.result with
      | .ok v => [.done v]
      | .error _ => []
  failed : ∀ x ∈ Event.exchanges o.trace, x.2.failed = true → ∃ e, o.result = .error e

/-- A stage reports its phase, and its result exactly if it settles to one. -/
theorem Stage.events_reported (s : Stage) (reply : ShellReply) :
    Reported ⟨s.events reply, (s.settle reply).mapError .command⟩ := by
  constructor
  · refine ⟨[.running s.phase s.percent], by simp [OpRunState.running], ?_⟩
    cases h : s.settle reply <;> simp [Stage.events, h, Event.messages, Except.mapError]
  · intro x hx hf
    have hxr : x.2 = reply := by
      cases h : s.settle reply <;> simp_all [Stage.events, Event.exchanges]
    obtain ⟨e, he⟩ := s.settle_failed (hxr ▸ hf)
    exact ⟨.command (.shell e), by simp [he, Except.mapError]⟩

theorem HandledOutcome.reported {P : Stage → Prop}
    {world : List ShellCall → ShellCall → ShellReply} {past : List ShellCall}
    {o : Outcome OpRunState ShellCall ShellReply CommandError Json}
    (h : HandledOutcome P world past o) : Reported ⟨o.trace, o.result.mapError .command⟩ := by
  cases h with
  | rejected he => exact ⟨⟨[], by simp, rfl⟩, fun x hx => absurd hx List.not_mem_nil⟩
  | native phase percent ho =>
      exact ⟨⟨[.running phase percent], by simp [OpRunState.running], rfl⟩,
        fun x hx => absurd hx List.not_mem_nil⟩
  | performed hP => exact Stage.events_reported _ _

theorem dispatch_reported (host : Host) (unix : Bool) (name : String) (role : Role)
    (params : Params) (world : List ShellCall → ShellCall → ShellReply) (past : List ShellCall) :
    Reported (((buildDefaultRegistry host unix).dispatch name role params).run world past) := by
  rcases dispatch_default host unix name role params with ⟨e, hd⟩ | ⟨e, p, -, -, hp, hd⟩
  · rw [hd]
    exact ⟨⟨[], by simp, rfl⟩, fun x hx => absurd hx List.not_mem_nil⟩
  · rw [hd, Prog.run_mapErr]
    exact (hp.run world past).reported

/-- The terminal state a dispatch comes to. -/
def terminalState : Except DispatchError Json → OpRunState
  | .ok v => .done v
  | .error e => .error e.display

theorem terminalState_terminal (r : Except DispatchError Json) : (terminalState r).Terminal := by
  cases r with
  | ok v => exact OpRunState.done_terminal v
  | error e => exact OpRunState.error_terminal e.display

/-- The run of a command, out of the run of its dispatch: the states tagged, an
error frame behind them where the dispatch failed, the same shell runs. -/
theorem run_handleCommand (registry : CommandRegistry) (cmd : InboundCommand)
    (world : List ShellCall → ShellCall → ShellReply) (past : List ShellCall) :
    let d := (registry.dispatch cmd.command cmd.role cmd.params).run world past
    let o := (handleCommand registry cmd).run world past
    Event.messages o.trace = (Event.messages d.trace ++ match d.result with
        | .ok _ => []
        | .error e => [.error e.display]).map (OutboundProgress.mk cmd.jobId) ∧
      Event.exchanges o.trace = Event.exchanges d.trace := by
  intro d o
  obtain ⟨hm, hx, hr⟩ := Prog.run_mapMsg world (OutboundProgress.mk cmd.jobId)
    (registry.dispatch cmd.command cmd.role cmd.params) past
  have ho : o = _ := Prog.run_handle world _ _ _ past
  rw [ho]
  simp only [Event.messages_append, Event.exchanges_append, hm, hx, hr]
  change _ = (_ ++ match d.result with | .ok _ => [] | .error e => _).map _ ∧ _
  cases hd : d.result with
  | ok v => simp [d, Prog.run, Event.messages, Event.exchanges]
  | error e => simp [d, Prog.run, Event.messages, Event.exchanges]

/-- The frames of a command: running states, then one terminal state, which is
the outcome of the dispatch and an error wherever a shell run failed. -/
theorem handleCommand_stream (host : Host) (unix : Bool) (cmd : InboundCommand)
    (world : List ShellCall → ShellCall → ShellReply) (past : List ShellCall) :
    let registry := buildDefaultRegistry host unix
    let dispatched := (registry.dispatch cmd.command cmd.role cmd.params).run world past
    let handled := (handleCommand registry cmd).run world past
    ∃ (runs : List OpRunState) (terminal : OpRunState),
      Event.messages handled.trace
        = (runs ++ [terminal]).map (OutboundProgress.mk cmd.jobId) ∧
      (∀ s ∈ runs, s.status = .running) ∧
      terminal.Terminal ∧
      (∀ v, dispatched.result = .ok v → terminal = .done v) ∧
      (∀ e, dispatched.result = .error e → terminal = .error e.display) ∧
      (terminal.status = .done ↔ ∃ v, dispatched.result = .ok v) ∧
      Event.exchanges handled.trace = Event.exchanges dispatched.trace ∧
      ∀ x ∈ Event.exchanges handled.trace, x.2.failed = true → terminal.status = .error := by
  intro registry dispatched handled
  obtain ⟨⟨runs, hruns, hmsg⟩, hfail⟩ :=
    dispatch_reported host unix cmd.command cmd.role cmd.params world past
  obtain ⟨hframes, hx⟩ := run_handleCommand registry cmd world past
  change Event.messages dispatched.trace = _ at hmsg
  refine ⟨runs, terminalState dispatched.result, ?_, hruns, terminalState_terminal _, ?_, ?_, ?_,
    hx, ?_⟩
  · rw [hframes, hmsg]
    cases dispatched.result <;> simp [terminalState]
  · intro v hv; rw [hv]; rfl
  · intro e he; rw [he]; rfl
  · cases dispatched.result <;> simp [terminalState, OpRunState.done, OpRunState.error]
  · intro x hxm hxf
    obtain ⟨e, he⟩ := hfail x (hx ▸ hxm) hxf
    change dispatched.result = .error e at he
    rw [he]
    rfl

end PkiExecutor
