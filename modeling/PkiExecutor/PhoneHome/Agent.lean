/-
# `PkiExecutor.PhoneHome.Agent` — the loop and its handler threads together

A text that decodes to a command is handed to a blocking thread, which runs
`handle_command`; a text that does not is passed over with a warning
(`connect_once` in `phonehome.rs`).  The agent is the loop with its threads, each
being what is left of the program it runs.  Seen from the loop a thread is
somebody who puts frames into the queue (`agentLoop`), so what holds of the loop
holds here.

A thread goes on when its shell call has returned.  In a run in which every
thread that has something left to do goes on eventually, every command that was
read is answered (`commands_answered`).
-/
import PkiExecutor.PhoneHome.Loop

namespace PkiExecutor

/-- The loop and the handler threads. -/
structure AgentState where
  loop : LoopState
  /-- what is left of each thread's program, in the order they were spawned -/
  threads : List Handling

/-- Who goes on, the loop or a thread. -/
inductive AgentEvent
  /-- the loop's own events -/
  | loop (e : LoopEvent)
  /-- a thread goes one step; `reply` is the shell's, where that step is a call -/
  | thread (i : Nat) (reply : ShellReply)

/-- What the process is started with: the machine it runs on, which changes over
time, the platform, and the serializer of frames. -/
structure Setup where
  hostAt : Nat → Host
  unix : Bool
  toText : OutboundProgress → Option String

namespace Setup

variable (setup : Setup)

/-- The threads a read spawns. -/
def spawned (s : LoopState) : LoopEvent → List Handling
  | .read =>
      match s.inbox with
      | .text text :: _ =>
          match InboundCommand.ofText (setup.hostAt s.now) text with
          | some cmd => [handleCommand (buildDefaultRegistry (setup.hostAt s.now) setup.unix) cmd]
          | none => []
      | _ => []
  | _ => []

/-- One step of a thread: what it puts into the queue, and what is left. -/
def goOn (reply : ShellReply) : Handling → Option (List OutboundProgress × Handling)
  | .ok _ => none
  | .fail e => e.elim
  | .tell msg rest => some ([msg], rest)
  | .ask _ rest => some ([], rest reply)

/-- A step of the loop with the threads that it spawns, or of one thread. -/
def step (s : AgentState) : AgentEvent → Option AgentState
  | .loop (.enqueue _) => none
  | .loop e =>
      (s.loop.step setup.toText e).map fun loop => ⟨loop, s.threads ++ setup.spawned s.loop e⟩
  | .thread i reply => do
      let (msgs, rest) ← goOn reply (← s.threads[i]?)
      return { loop := { s.loop with rx := s.loop.rx ++ msgs, enqueued := s.loop.enqueued ++ msgs }
               threads := s.threads.set i rest }

/-- The process. -/
def agent : Machine AgentState AgentEvent := ⟨⟨.initial, []⟩, setup.step⟩

end Setup

variable {setup : Setup}

/-! ## The loop inside the agent -/

theorem agent_step_loop {s : AgentState} {le : LoopEvent} (hne : ∀ msg, le ≠ .enqueue msg) :
    setup.step s (.loop le) = (s.loop.step setup.toText le).map fun loop =>
      ⟨loop, s.threads ++ setup.spawned s.loop le⟩ := by
  cases le with
  | enqueue msg => exact absurd rfl (hne msg)
  | arrive _ | elapse _ | dialed _ | read | recv | tick | wrote _ | wake => rfl

theorem agent_step_cases {s s' : AgentState} {e : AgentEvent} (h : setup.step s e = some s') :
    (∃ le loop, e = .loop le ∧ s.loop.step setup.toText le = some loop ∧
      s' = ⟨loop, s.threads ++ setup.spawned s.loop le⟩) ∨
    ∃ i reply p msgs rest, e = .thread i reply ∧ s.threads[i]? = some p ∧
      Setup.goOn reply p = some (msgs, rest) ∧
      s' = { loop := { s.loop with rx := s.loop.rx ++ msgs, enqueued := s.loop.enqueued ++ msgs }
             threads := s.threads.set i rest } := by
  cases e with
  | loop le =>
      left
      cases le with
      | enqueue msg => cases h
      | arrive _ | elapse _ | dialed _ | read | recv | tick | wrote _ | wake =>
          rw [agent_step_loop (by simp)] at h
          obtain ⟨loop, hl, rfl⟩ := Option.map_eq_some_iff.mp h
          exact ⟨_, loop, rfl, hl, rfl⟩
  | thread i reply =>
      right
      simp only [Setup.step, Option.bind_eq_bind, Option.bind_eq_some_iff] at h
      obtain ⟨p, hp, ⟨msgs, rest⟩, hg, hs⟩ := h
      cases hs
      exact ⟨i, reply, p, msgs, rest, rfl, hp, hg, rfl⟩

theorem goOn_msgs {reply : ShellReply} {p rest : Handling} {msgs : List OutboundProgress}
    (h : Setup.goOn reply p = some (msgs, rest)) : msgs = [] ∨ ∃ msg, msgs = [msg] := by
  cases p with
  | ok a => cases h
  | fail e => exact e.elim
  | tell msg k =>
      cases h
      exact .inr ⟨msg, rfl⟩
  | ask q k =>
      cases h
      exact .inl rfl

/-- Seen from the loop, the agent is the loop with frames coming in. -/
def agentLoop (setup : Setup) : setup.agent.Simulation (runForever setup.toText) where
  abs := AgentState.loop
  init := rfl
  step s e s' h := by
    rcases agent_step_cases h with ⟨le, loop, -, hl, rfl⟩ | ⟨i, reply, p, msgs, rest, -, -, hg, rfl⟩
    · exact .inr ⟨le, hl⟩
    · rcases goOn_msgs hg with rfl | ⟨msg, rfl⟩
      · exact .inl (by simp)
      · exact .inr ⟨.enqueue msg, rfl⟩

/-- The agent loses no frame, doubles none and keeps their order. -/
theorem agent_conserves (ht : ∀ msg, (setup.toText msg).isSome = true) {s : AgentState}
    (h : setup.agent.Reachable s) : s.loop.Inv :=
  runForever_inv ht ((agentLoop setup).reachable h)

/-! ## Every command is answered -/

/-- A terminal frame of the job. -/
def Answers (jobId : String) (msg : OutboundProgress) : Prop :=
  msg.jobId = jobId ∧ msg.state.Terminal

/-- A handler's program as a thread runs it. -/
def threadOf (jobId : String) (p : Exec Json) : Handling :=
  ((p.mapErr DispatchError.command).mapMsg (OutboundProgress.mk jobId)).handle
    (fun _ => .ok ()) (fun err => .tell ⟨jobId, .error err.display⟩ (.ok ()))

theorem conclude_tells (jobId : String) : ∀ o : Except CommandError Json,
    Prog.Tells (Answers jobId) (threadOf jobId (conclude o))
  | .ok v => .now ⟨rfl, OpRunState.done_terminal v⟩
  | .error _ => .now ⟨rfl, OpRunState.error_terminal _⟩

theorem Handled.tells {P : Stage → Prop} {p : Exec Json} (h : Handled P p) (jobId : String) :
    Prog.Tells (Answers jobId) (threadOf jobId p) := by
  cases h with
  | native phase percent ho => exact .later (.now ⟨rfl, OpRunState.done_terminal _⟩)
  | staged hs =>
      cases hs with
      | rejected he => exact .now ⟨rfl, OpRunState.error_terminal _⟩
      | @perform s hP =>
          rw [perform_eq]
          exact .later (.ask fun reply => conclude_tells jobId (s.settle reply))

/-- Whatever the shell answers, the program of a command tells a terminal frame. -/
theorem handleCommand_tells (host : Host) (unix : Bool) (cmd : InboundCommand) :
    Prog.Tells (Answers cmd.jobId) (handleCommand (buildDefaultRegistry host unix) cmd) := by
  unfold handleCommand
  rcases dispatch_default host unix cmd.command cmd.role cmd.params with
    ⟨e, hd⟩ | ⟨e, p, -, -, hp, hd⟩
  · rw [hd]
    exact .now ⟨rfl, OpRunState.error_terminal _⟩
  · rw [hd]
    exact hp.tells cmd.jobId

section Runs

variable (r : setup.agent.Run)

/-- Handlers return: a thread with something left to do goes on eventually. -/
def HandlersReturn : Prop :=
  ∀ n i p, (r.state n).threads[i]? = some p → p.finished = false →
    ∃ m, n ≤ m ∧ ∃ reply, r.event m = .thread i reply

/-- At this point of the run the frame is put into the queue. -/
def Puts (n : Nat) (msg : OutboundProgress) : Prop :=
  (r.state (n + 1)).loop.enqueued = (r.state n).loop.enqueued ++ [msg]

variable {r}

theorem thread_lasts {i : Nat} {p : Handling} (k : Nat) (hp : (r.state k).threads[i]? = some p)
    (hne : ¬ ∃ reply, r.event k = .thread i reply) : (r.state (k + 1)).threads[i]? = some p := by
  rcases agent_step_cases (r.next k) with
    ⟨le, loop, -, -, hs⟩ | ⟨j, reply, q, msgs, rest, he, -, -, hs⟩
  · rw [hs]
    have hi : i < (r.state k).threads.length := (List.getElem?_eq_some_iff.mp hp).1
    rw [List.getElem?_append_left hi, hp]
  · have hji : j ≠ i := by
      rintro rfl
      exact hne ⟨reply, he⟩
    rw [hs]
    show ((r.state k).threads.set j rest)[i]? = some p
    rw [List.getElem?_set_ne hji, hp]

theorem thread_stays (hf : HandlersReturn r) {n i : Nat} {p : Handling}
    (hp : (r.state n).threads[i]? = some p) (hleft : p.finished = false) :
    ∃ m, n ≤ m ∧ (∃ reply, r.event m = .thread i reply) ∧
      (r.state m).threads[i]? = some p := by
  let stays (s : AgentState) : Prop := s.threads[i]? = some p
  have h : stays (r.state n) := hp
  exact r.lasts h (hf n i p hp hleft) fun k _ hk hne => thread_lasts k hk hne

theorem thread_goes_on {i m : Nat} {p : Handling} {reply : ShellReply}
    (he : r.event m = .thread i reply) (hp : (r.state m).threads[i]? = some p) :
    ∃ msgs rest, Setup.goOn reply p = some (msgs, rest) ∧
      (r.state (m + 1)).threads[i]? = some rest ∧
      (r.state (m + 1)).loop.enqueued = (r.state m).loop.enqueued ++ msgs := by
  rcases agent_step_cases (r.next m) with
    ⟨le, loop, hle, -, -⟩ | ⟨j, reply', q, msgs, rest, hj, hq, hg, hs⟩
  · rw [he] at hle
    cases hle
  · rw [he] at hj
    cases hj
    obtain rfl : p = q := Option.some.inj (hp.symm.trans hq)
    have hi : i < (r.state m).threads.length := (List.getElem?_eq_some_iff.mp hp).1
    refine ⟨msgs, rest, hg, ?_, by rw [hs]⟩
    rw [hs]
    exact List.getElem?_set_self hi

theorem thread_advances (hf : HandlersReturn r) {n i : Nat} {p : Handling}
    (hp : (r.state n).threads[i]? = some p) (hleft : p.finished = false) :
    ∃ m, n ≤ m ∧ ∃ reply msgs rest, Setup.goOn reply p = some (msgs, rest) ∧
      (r.state (m + 1)).threads[i]? = some rest ∧
      (r.state (m + 1)).loop.enqueued = (r.state m).loop.enqueued ++ msgs := by
  obtain ⟨m, hnm, ⟨reply, he⟩, hm⟩ := thread_stays hf hp hleft
  obtain ⟨msgs, rest, hg, hr, hq⟩ := thread_goes_on he hm
  exact ⟨m, hnm, reply, msgs, rest, hg, hr, hq⟩

theorem thread_puts (hf : HandlersReturn r) {P : OutboundProgress → Prop} {i : Nat} {p : Handling}
    (ht : Prog.Tells P p) : ∀ n, (r.state n).threads[i]? = some p →
      ∃ m, n ≤ m ∧ ∃ msg, P msg ∧ Puts r m msg := by
  induction ht with
  | @now msg k hP =>
      intro n hp
      obtain ⟨m, hnm, reply, msgs, rest, hg, -, hq⟩ := thread_advances hf hp rfl
      cases hg
      exact ⟨m, hnm, msg, hP, hq⟩
  | @later msg k _ ih =>
      intro n hp
      obtain ⟨m, hnm, reply, msgs, rest, hg, hr, -⟩ := thread_advances hf hp rfl
      cases hg
      obtain ⟨m', hm', h⟩ := ih (m + 1) hr
      exact ⟨m', by omega, h⟩
  | @ask q k _ ih =>
      intro n hp
      obtain ⟨m, hnm, reply, msgs, rest, hg, hr, -⟩ := thread_advances hf hp rfl
      cases hg
      obtain ⟨m', hm', h⟩ := ih reply (m + 1) hr
      exact ⟨m', by omega, h⟩

end Runs

/-- A text that decodes to a command is answered: once it is read, a terminal
frame with its job id is eventually put into the queue. -/
theorem commands_answered (setup : Setup) (r : setup.agent.Run) (hf : HandlersReturn r) (n : Nat)
    (text : String) (inbox : List Incoming) (cmd : InboundCommand)
    (hread : r.event n = .loop .read) (hin : (r.state n).loop.inbox = .text text :: inbox)
    (hcmd : InboundCommand.ofText (setup.hostAt (r.state n).loop.now) text = some cmd) :
    ∃ m, n < m ∧ ∃ msg, Answers cmd.jobId msg ∧ Puts r m msg := by
  have hnext : setup.step (r.state n) (.loop .read) = some (r.state (n + 1)) := by
    rw [← hread]
    exact r.next n
  rcases agent_step_cases hnext with ⟨le, loop, hle, -, hs⟩ | ⟨i, reply, p, msgs, rest, he, -⟩
  · cases hle
    -- the thread spawned for the command is the last one
    have hthread : (r.state (n + 1)).threads[(r.state n).threads.length]? =
        some (handleCommand
          (buildDefaultRegistry (setup.hostAt (r.state n).loop.now) setup.unix) cmd) := by
      rw [hs]
      simp [Setup.spawned, hin, hcmd]
    obtain ⟨m, hm, h⟩ := thread_puts hf (handleCommand_tells _ _ cmd) (n + 1) hthread
    exact ⟨m, by omega, h⟩
  · cases he

theorem agent_idle (setup : Setup) (s : AgentState) :
    setup.agent.step s (.loop (.elapse 0)) = some s := by
  show setup.step s (.loop (.elapse 0)) = some s
  rw [agent_step_loop (by simp)]
  simp [LoopState.step, Setup.spawned]

/-- A setup whose JSON parser knows one text. -/
def Setup.reading (text : String) (value : Json) : Setup where
  hostAt _ := { Host.idle with fromStr := fun s => if s = text then some value else none }
  unix := false
  toText := errorText

/-- A command that no registry has, asked for by a guest. -/
def unknownText : String :=
  "\x7b\"job_id\":\"j\",\"command\":\"no.such\",\"role\":\"guest\"\x7d"

def unknownJson : Json :=
  .obj [("job_id", .str "j"), ("command", .str "no.such"), ("role", .str "guest")]

/-- A guest asks for the host name. -/
def hostnameText (jobId : String) : String :=
  "\x7b\"job_id\":\"" ++ jobId ++ "\",\"command\":\"hostname.read\",\"role\":\"guest\"\x7d"

def hostnameJson (jobId : String) : Json :=
  .obj [("job_id", .str jobId), ("command", .str "hostname.read"), ("role", .str "guest")]

/-- The command is read and its one thread runs to its end. -/
def unknownRun : (Setup.reading unknownText unknownJson).agent.Run :=
  .settling
    [.loop (.dialed true), .loop (.arrive (.text unknownText)), .loop .read,
      .thread 0 (.ok ⟨"", "", 0⟩)]
    (.loop (.elapse 0)) (by decide) (agent_idle _)

theorem unknownRun_returns : HandlersReturn unknownRun := by
  intro n i p hp hleft
  have hmem : p ∈ (unknownRun.state n).threads := List.mem_of_getElem? hp
  have hdone : ∀ k, k ≤ 4 → k ≠ 3 → (unknownRun.state k).threads.all (·.finished) = true := by
    decide
  have hone : (unknownRun.state 3).threads.length = 1 := by decide
  -- the thread is there, and not yet through, in one state only
  have hn : n = 3 := by
    by_contra h3
    have hall : (unknownRun.state n).threads.all (·.finished) = true := by
      rcases Nat.le_total n 4 with h | h
      · exact hdone n h h3
      · rw [show unknownRun.state n = unknownRun.state 4 from Machine.Run.settling_state h]
        exact hdone 4 le_rfl (by decide)
    rw [List.all_eq_true.mp hall p hmem] at hleft
    cases hleft
  subst hn
  have hi : i = 0 := by
    have := (List.getElem?_eq_some_iff.mp hp).1
    omega
  subst hi
  exact ⟨3, le_rfl, _, rfl⟩

/-- The guest's unknown command gets its error frame. -/
theorem commands_answered_unknown :
    ∃ m, 2 < m ∧ ∃ msg, Answers "j" msg ∧ Puts unknownRun m msg :=
  commands_answered _ unknownRun unknownRun_returns 2 unknownText []
    ⟨"j", "no.such", [], .guest⟩ rfl (by decide) (by decide)

/-- A frame with a job id that does not decode: a parameter is a number. -/
def malformedText : String :=
  "\x7b\"job_id\":\"j\",\"command\":\"hostname.read\"," ++
  "\"params\":\x7b\"n\":1\x7d,\"role\":\"guest\"\x7d"

def malformedMembers : List (String × Json) :=
  [("job_id", .str "j"), ("command", .str "hostname.read"), ("params", .obj [("n", .int 1)]),
    ("role", .str "guest")]

/-- The frame is read. -/
def malformedEvents : List AgentEvent :=
  [.loop (.dialed true), .loop (.arrive (.text malformedText)), .loop .read]

def malformedSetup : Setup := .reading malformedText (.obj malformedMembers)

def malformedRun : malformedSetup.agent.Run :=
  .settling malformedEvents (.loop (.elapse 0)) (by decide) (agent_idle _)

/-- There is no thread and no frame has been put into the queue. -/
def quiet (s : AgentState) : Bool := s.threads.isEmpty && s.loop.enqueued.isEmpty

theorem malformedRun_quiet (n : Nat) :
    (malformedRun.state n).threads = [] ∧ (malformedRun.state n).loop.enqueued = [] := by
  have hevents : ∀ k, k ≤ malformedEvents.length →
      (malformedSetup.agent.run malformedSetup.agent.init (malformedEvents.take k)).map quiet =
        some true := by
    decide
  have h : quiet (malformedRun.state n) = true := Machine.Run.settling_forall hevents n
  simpa [quiet] using h

/-- A frame that identifies its job is not always answered: one that does not
decode is passed over. -/
theorem malformed_unanswered :
    ¬ ∀ (setup : Setup) (r : setup.agent.Run), HandlersReturn r →
      ∀ (n : Nat) (text : String) (inbox : List Incoming) (members : List (String × Json))
        (jobId : String), r.event n = .loop .read →
      (r.state n).loop.inbox = .text text :: inbox →
      (setup.hostAt (r.state n).loop.now).fromStr text = some (.obj members) →
      Json.field members "job_id" = some (.str jobId) →
      ∃ m, n < m ∧ ∃ msg, Answers jobId msg ∧ Puts r m msg := by
  intro hall
  have hreturn : HandlersReturn malformedRun := by
    intro n i p hp _
    rw [(malformedRun_quiet n).1] at hp
    cases hp
  obtain ⟨m, -, msg, -, hputs⟩ := hall _ malformedRun hreturn 2 malformedText [] malformedMembers
    "j" rfl (by decide) rfl rfl
  unfold Puts at hputs
  rw [(malformedRun_quiet m).2, (malformedRun_quiet (m + 1)).2] at hputs
  cases hputs

end PkiExecutor
