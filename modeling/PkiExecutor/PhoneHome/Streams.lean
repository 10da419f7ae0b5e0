/-
# `PkiExecutor.PhoneHome.Streams` — the frames of one job among those of all

The agent runs any number of commands at once, each on a thread of its own, and all
of them put their frames into one queue.  `job_streams` is what the backend may rely
on however the threads interleave and whatever their shells answer: the frames under
a job id that one command was given are running ones with at most one terminal frame
behind them, nothing comes after that, and what the socket has accepted of them is
the beginning of what the command has told.  No frame bears the id of a command that
was not read.
-/
import PkiExecutor.PhoneHome.Progress

namespace PkiExecutor

/-! ## What is left of a thread -/

/-- What a thread still tells for its job: running states, and a terminal one last. -/
inductive Announces (jobId : String) : Handling → Prop
  | closing {msg : OutboundProgress} : Answers jobId msg → Announces jobId (.tell msg (.ok ()))
  | running {msg : OutboundProgress} {rest : Handling} : msg.jobId = jobId →
      msg.state.status = .running → Announces jobId rest → Announces jobId (.tell msg rest)
  | asking {call : ShellCall} {rest : ShellReply → Handling} :
      (∀ reply, Announces jobId (rest reply)) → Announces jobId (.ask call rest)

theorem conclude_announces (jobId : String) : ∀ o : Except CommandError Json,
    Announces jobId (threadOf jobId (conclude o))
  | .ok v => .closing ⟨rfl, OpRunState.done_terminal v⟩
  | .error _ => .closing ⟨rfl, OpRunState.error_terminal _⟩

theorem Handled.announces {P : Stage → Prop} {p : Exec Json} (h : Handled P p) (jobId : String) :
    Announces jobId (threadOf jobId p) := by
  cases h with
  | native phase percent ho =>
      exact .running rfl rfl (.closing ⟨rfl, OpRunState.done_terminal _⟩)
  | staged hs =>
      cases hs with
      | rejected he => exact .closing ⟨rfl, OpRunState.error_terminal _⟩
      | @perform s hP =>
          rw [perform_eq]
          exact .running rfl rfl (.asking fun reply => conclude_announces jobId (s.settle reply))

/-- A command tells running states and then a terminal one, whatever it is. -/
theorem handleCommand_announces (host : Host) (unix : Bool) (cmd : InboundCommand) :
    Announces cmd.jobId (handleCommand (buildDefaultRegistry host unix) cmd) := by
  unfold handleCommand
  rcases dispatch_default host unix cmd.command cmd.role cmd.params with
    ⟨e, hd⟩ | ⟨e, p, -, -, hp, hd⟩
  · rw [hd]
    exact .closing ⟨rfl, OpRunState.error_terminal _⟩
  · rw [hd]
    exact hp.announces cmd.jobId

/-- How a job stands: the states it has told, and what is left of its thread. -/
inductive Stands (jobId : String) : List OpRunState → Handling → Prop
  | running {runs : List OpRunState} {rest : Handling} : (∀ s ∈ runs, s.status = .running) →
      Announces jobId rest → Stands jobId runs rest
  | closed {runs : List OpRunState} {last : OpRunState} : (∀ s ∈ runs, s.status = .running) →
      last.Terminal → Stands jobId (runs ++ [last]) (.ok ())

/-- One step of the thread tells frames of its job only, and behind the others. -/
theorem Stands.goOn {jobId : String} {states : List OpRunState} {p rest : Handling}
    (h : Stands jobId states p) {reply : ShellReply} {msgs : List OutboundProgress}
    (hg : Setup.goOn reply p = some (msgs, rest)) :
    (∀ msg ∈ msgs, msg.jobId = jobId) ∧
      Stands jobId (states ++ msgs.map OutboundProgress.state) rest := by
  cases h with
  | closed hruns hlast => cases hg
  | running hruns ha =>
      cases ha with
      | @closing msg hans =>
          cases hg
          refine ⟨?_, .closed hruns hans.2⟩
          intro m hm
          rw [List.mem_singleton.mp hm]
          exact hans.1
      | @running msg rest hid hrun hrest =>
          cases hg
          refine ⟨?_, .running ?_ hrest⟩
          · intro m hm
            rw [List.mem_singleton.mp hm]
            exact hid
          · intro s hs
            rcases List.mem_append.mp hs with hs | hs
            · exact hruns s hs
            · rw [List.mem_singleton.mp hs]
              exact hrun
      | asking hrest =>
          cases hg
          refine ⟨fun m hm => absurd hm List.not_mem_nil, ?_⟩
          rw [List.map_nil, List.append_nil]
          exact .running hruns (hrest reply)

/-! ## The agent with the commands it has read -/

namespace Setup

variable (setup : Setup)

/-- The commands that a step of the loop hands to threads. -/
def decoded (s : LoopState) : LoopEvent → List InboundCommand
  | .read =>
      match s.inbox with
      | .text text :: _ => (InboundCommand.ofText (setup.hostAt s.now) text).toList
      | _ => []
  | _ => []

theorem spawned_eq (s : LoopState) (e : LoopEvent) :
    setup.spawned s e = (setup.decoded s e).map
      (handleCommand (buildDefaultRegistry (setup.hostAt s.now) setup.unix)) := by
  cases e with
  | read =>
      cases hi : s.inbox with
      | nil => simp only [spawned, decoded, hi, List.map_nil]
      | cons item inbox =>
          cases item with
          | text text =>
              simp only [spawned, decoded, hi]
              cases InboundCommand.ofText (setup.hostAt s.now) text <;> rfl
          | close _ | other | error | endOfStream =>
              simp only [spawned, decoded, hi, List.map_nil]
  | enqueue _ | arrive _ | elapse _ | dialed _ | recv | tick | wrote _ | wake => rfl

/-- The agent with the commands it has read so far, in the order of their threads. -/
def readingAgent : Machine (AgentState × List InboundCommand) AgentEvent :=
  setup.agent.withHistory [] fun s e _ cmds =>
    match e with
    | .loop le => cmds ++ setup.decoded s.loop le
    | .thread _ _ => cmds

end Setup

/-- The states told under a job id. -/
def statesOf (jobId : String) (msgs : List OutboundProgress) : List OpRunState :=
  (msgs.filter (·.jobId == jobId)).map OutboundProgress.state

theorem statesOf_append (jobId : String) (msgs msgs' : List OutboundProgress) :
    statesOf jobId (msgs ++ msgs') = statesOf jobId msgs ++ statesOf jobId msgs' := by
  rw [statesOf, List.filter_append, List.map_append]
  rfl

theorem statesOf_all {jobId : String} {msgs : List OutboundProgress}
    (h : ∀ msg ∈ msgs, msg.jobId = jobId) :
    statesOf jobId msgs = msgs.map OutboundProgress.state := by
  rw [statesOf, List.filter_eq_self.mpr fun msg hm => by simp [h msg hm]]

theorem statesOf_none {jobId : String} {msgs : List OutboundProgress}
    (h : ∀ msg ∈ msgs, msg.jobId ≠ jobId) : statesOf jobId msgs = [] := by
  rw [statesOf, List.filter_eq_nil_iff.mpr fun msg hm => by simp [h msg hm], List.map_nil]

/-- The `i`th command read is the only one with its job id. -/
def Alone (cmds : List InboundCommand) (i : Nat) (jobId : String) : Prop :=
  ∀ k cmd, cmds[k]? = some cmd → cmd.jobId = jobId → k = i

/-- The threads tell each for its own job, and the frames of a job that is one
command's are what its thread has told. -/
structure Separate (s : AgentState) (cmds : List InboundCommand) : Prop where
  length : s.threads.length = cmds.length
  own : ∀ (i : Nat) (cmd : InboundCommand) (p : Handling), cmds[i]? = some cmd →
    s.threads[i]? = some p → ∃ states, Stands cmd.jobId states p
  known : ∀ msg ∈ s.loop.enqueued, ∃ cmd ∈ cmds, cmd.jobId = msg.jobId
  alone : ∀ (i : Nat) (cmd : InboundCommand) (p : Handling), cmds[i]? = some cmd →
    s.threads[i]? = some p → Alone cmds i cmd.jobId →
      Stands cmd.jobId (statesOf cmd.jobId s.loop.enqueued) p

section Steps

variable {setup : Setup} {s : AgentState} {cmds : List InboundCommand}

theorem enqueued_loop {le : LoopEvent} {loop : LoopState} (hne : ∀ msg, le ≠ .enqueue msg)
    (hs : s.loop.step setup.toText le = some loop) : loop.enqueued = s.loop.enqueued := by
  cases LoopState.step_cases hs with
  | enqueue msg => exact absurd rfl (hne msg)
  | arrive _ _ | elapse _ | refused _ | tick _ | parked _ | pinged _ | pingLost _ | wake _ _ => rfl
  | accepted hc => rfl
  | connected hc => exact (LoopState.connected_record setup.toText s.loop).2
  | @read item inbox hc hi => exact (LoopState.received_record { s.loop with inbox } item).2
  | @recv msg rx hc hr =>
      exact (LoopState.sendProgress_record setup.toText { s.loop with rx } msg).2

theorem Separate.read (h : Separate s cmds) {le : LoopEvent} {loop : LoopState}
    (hq : loop.enqueued = s.loop.enqueued) :
    Separate ⟨loop, s.threads ++ setup.spawned s.loop le⟩ (cmds ++ setup.decoded s.loop le) := by
  have hnew : ∀ i cmd p, s.threads.length ≤ i →
      (cmds ++ setup.decoded s.loop le)[i]? = some cmd →
      (s.threads ++ setup.spawned s.loop le)[i]? = some p → Announces cmd.jobId p := by
    intro i cmd p hi hcmd hp
    rw [List.getElem?_append_right (h.length ▸ hi)] at hcmd
    rw [List.getElem?_append_right hi, setup.spawned_eq, List.getElem?_map, h.length, hcmd] at hp
    cases hp
    exact handleCommand_announces _ _ cmd
  refine ⟨?_, ?_, ?_, ?_⟩
  · rw [List.length_append, List.length_append, setup.spawned_eq, List.length_map, h.length]
  · intro i cmd p hcmd hp
    rcases Nat.lt_or_ge i s.threads.length with hi | hi
    · rw [List.getElem?_append_left (h.length ▸ hi)] at hcmd
      rw [List.getElem?_append_left hi] at hp
      exact h.own i cmd p hcmd hp
    · exact ⟨[], .running (fun s hs => absurd hs List.not_mem_nil) (hnew i cmd p hi hcmd hp)⟩
  · intro msg hm
    rw [hq] at hm
    obtain ⟨cmd, hcmd, hid⟩ := h.known msg hm
    exact ⟨cmd, List.mem_append_left _ hcmd, hid⟩
  · intro i cmd p hcmd hp halone
    show Stands cmd.jobId (statesOf cmd.jobId loop.enqueued) p
    rw [hq]
    have hbefore : ∀ k c, cmds[k]? = some c → c.jobId = cmd.jobId → k = i := by
      intro k c hk hid
      refine halone k c ?_ hid
      rw [List.getElem?_append_left (List.getElem?_eq_some_iff.mp hk).1, hk]
    rcases Nat.lt_or_ge i s.threads.length with hi | hi
    · rw [List.getElem?_append_left (h.length ▸ hi)] at hcmd
      rw [List.getElem?_append_left hi] at hp
      exact h.alone i cmd p hcmd hp hbefore
    · -- no frame bears the job id of a command that has just been read
      have hnone : statesOf cmd.jobId s.loop.enqueued = [] := by
        refine statesOf_none fun msg hm hid => ?_
        obtain ⟨c, hc, hcid⟩ := h.known msg hm
        obtain ⟨k, hk⟩ := List.mem_iff_getElem?.mp hc
        have hki := hbefore k c hk (hcid.trans hid)
        have hlt := (List.getElem?_eq_some_iff.mp hk).1
        have hlen := h.length
        omega
      rw [hnone]
      exact .running (fun s hs => absurd hs List.not_mem_nil) (hnew i cmd p hi hcmd hp)

/-- A thread goes on. -/
theorem Separate.thread (h : Separate s cmds) {i : Nat} {reply : ShellReply} {p rest : Handling}
    {msgs : List OutboundProgress} (hp : s.threads[i]? = some p)
    (hg : Setup.goOn reply p = some (msgs, rest)) {loop : LoopState}
    (hq : loop.enqueued = s.loop.enqueued ++ msgs) :
    Separate ⟨loop, s.threads.set i rest⟩ cmds := by
  have hi : i < s.threads.length := (List.getElem?_eq_some_iff.mp hp).1
  obtain ⟨cmd, hcmd⟩ : ∃ cmd, cmds[i]? = some cmd :=
    ⟨_, List.getElem?_eq_getElem (h.length ▸ hi)⟩
  obtain ⟨states, hstands⟩ := h.own i cmd p hcmd hp
  obtain ⟨hids, hnext⟩ := hstands.goOn hg
  have hself : (s.threads.set i rest)[i]? = some rest := List.getElem?_set_self hi
  refine ⟨?_, ?_, ?_, ?_⟩
  · rw [List.length_set]
    exact h.length
  · intro k c q hc hk
    by_cases hki : k = i
    · subst hki
      obtain rfl : cmd = c := Option.some.inj (hcmd.symm.trans hc)
      obtain rfl : rest = q := Option.some.inj (hself.symm.trans hk)
      exact ⟨_, hnext⟩
    · rw [List.getElem?_set_ne (Ne.symm hki)] at hk
      exact h.own k c q hc hk
  · intro msg hm
    rw [hq] at hm
    rcases List.mem_append.mp hm with hm | hm
    · exact h.known msg hm
    · exact ⟨cmd, List.mem_of_getElem? hcmd, (hids msg hm).symm⟩
  · intro k c q hc hk halone
    show Stands c.jobId (statesOf c.jobId loop.enqueued) q
    rw [hq, statesOf_append]
    by_cases hki : k = i
    · subst hki
      obtain rfl : cmd = c := Option.some.inj (hcmd.symm.trans hc)
      obtain rfl : rest = q := Option.some.inj (hself.symm.trans hk)
      rw [statesOf_all hids]
      exact ((h.alone k cmd p hcmd hp halone).goOn hg).2
    · -- the frames of another thread bear another job id
      have hother : statesOf c.jobId msgs = [] := by
        refine statesOf_none fun msg hm hid => hki ?_
        exact (halone i cmd hcmd ((hids msg hm).symm.trans hid)).symm
      rw [hother, List.append_nil]
      rw [List.getElem?_set_ne (Ne.symm hki)] at hk
      exact h.alone k c q hc hk halone

end Steps

theorem separate_reachable {setup : Setup} {p : AgentState × List InboundCommand}
    (h : setup.readingAgent.Reachable p) : Separate p.1 p.2 := by
  refine Machine.invariant (I := fun p => Separate p.1 p.2) ?_ ?_ h
  · refine ⟨rfl, ?_, ?_, ?_⟩
    · intro i cmd p hcmd
      cases hcmd
    · intro msg hm
      cases hm
    · intro i cmd p hcmd
      cases hcmd
  · intro p e p' _ hI hs
    obtain ⟨hstep, hrecord⟩ := Machine.step_withHistory hs
    rcases agent_step_cases hstep with
      ⟨le, loop, rfl, hl, hs'⟩ | ⟨i, reply, q, msgs, rest, rfl, hq, hg, hs'⟩
    · have hne : ∀ msg, le ≠ .enqueue msg := by
        rintro msg rfl
        cases hstep
      rw [hs', hrecord]
      exact hI.read (enqueued_loop hne hl)
    · rw [hs', hrecord]
      exact hI.thread hq hg rfl

/-- However the threads interleave, the frames of a job are running ones and then at
most one terminal one, which ends the thread; the socket has accepted the first of
them; and every frame belongs to a command that was read. -/
theorem job_streams (setup : Setup) (ht : ∀ msg, (setup.toText msg).isSome = true)
    (p : AgentState × List InboundCommand) (h : setup.readingAgent.Reachable p) :
    p.1.threads.length = p.2.length ∧
      (∀ msg ∈ p.1.loop.enqueued, ∃ cmd ∈ p.2, cmd.jobId = msg.jobId) ∧
      ∀ (i : Nat) (cmd : InboundCommand) (rest : Handling), p.2[i]? = some cmd →
        p.1.threads[i]? = some rest → Alone p.2 i cmd.jobId →
        ∃ (runs : List OpRunState) (last : Option OpRunState),
          statesOf cmd.jobId p.1.loop.enqueued = runs ++ last.toList ∧
          (∀ s ∈ runs, s.status = .running) ∧ (∀ s ∈ last, s.Terminal) ∧
          last.isSome = rest.finished ∧
          statesOf cmd.jobId p.1.loop.accepted <+: runs ++ last.toList := by
  have hsep := separate_reachable h
  have hagent : setup.agent.Reachable p.1 := Machine.forgetHistory.reachable h
  have hwritten : p.1.loop.accepted <+: p.1.loop.enqueued := by
    rw [← (agent_conserves ht hagent).1, LoopState.frames, List.append_assoc, List.append_assoc]
    exact List.prefix_append _ _
  refine ⟨hsep.length, hsep.known, fun i cmd rest hcmd hrest halone => ?_⟩
  have haccepted : statesOf cmd.jobId p.1.loop.accepted <+:
      statesOf cmd.jobId p.1.loop.enqueued :=
    (hwritten.filter _).map _
  have hstands := hsep.alone i cmd rest hcmd hrest halone
  generalize statesOf cmd.jobId p.1.loop.enqueued = states at hstands haccepted
  cases hstands with
  | running hruns ha =>
      refine ⟨states, none, (List.append_nil _).symm, hruns, by simp, ?_, ?_⟩
      · cases ha <;> rfl
      · rwa [Option.toList_none, List.append_nil]
  | @closed runs last hruns hlast =>
      refine ⟨runs, some last, rfl, hruns, ?_, rfl, haccepted⟩
      rintro s hs
      cases hs
      exact hlast

/-- An agent that reads the commands of two jobs. -/
def twoJobs : Setup where
  hostAt _ := { Host.idle with
    fromStr := fun s =>
      if s = hostnameText "a" then some (hostnameJson "a")
      else if s = hostnameText "b" then some (hostnameJson "b") else none }
  unix := true
  toText := errorText

/-- Both jobs have told that they run before either has its shell's answer; the second is
the first to be answered and to end, and the socket has taken two of the three frames. -/
def twoJobsEvents : List AgentEvent :=
  [.loop (.dialed true), .loop (.arrive (.text (hostnameText "a"))), .loop .read,
    .loop (.arrive (.text (hostnameText "b"))), .loop .read, .thread 0 (.ok ⟨"", "", 0⟩),
    .thread 1 (.ok ⟨"", "", 0⟩), .loop .recv, .loop (.wrote true), .thread 1 (.ok ⟨"web\n", "", 0⟩),
    .thread 0 (.ok ⟨"web\n", "", 0⟩), .thread 1 (.ok ⟨"", "", 0⟩), .loop .recv, .loop (.wrote true)]

theorem job_streams_two :
    ∃ p, twoJobs.readingAgent.run twoJobs.readingAgent.init twoJobsEvents = some p ∧
      (∃ runs, statesOf "a" p.1.loop.enqueued = runs ∧ (∀ s ∈ runs, s.status = .running) ∧
        statesOf "a" p.1.loop.accepted <+: runs) ∧
      ∃ (runs : List OpRunState) (last : OpRunState),
        statesOf "b" p.1.loop.enqueued = runs ++ [last] ∧ (∀ s ∈ runs, s.status = .running) ∧
          last.Terminal := by
  have hrun : (twoJobs.readingAgent.run twoJobs.readingAgent.init twoJobsEvents).map
      (fun p => (p.2, p.1.threads.map Prog.finished)) =
        some ([⟨"a", "hostname.read", [], .guest⟩, ⟨"b", "hostname.read", [], .guest⟩],
          [false, true]) := by
    decide
  obtain ⟨p, hp, hview⟩ := Option.map_eq_some_iff.mp hrun
  obtain ⟨hcmds, hthreads⟩ := Prod.mk.inj hview
  obtain ⟨left, rest, hpair, hleft, hrest⟩ := List.map_eq_cons_iff.mp hthreads
  obtain ⟨through, rfl, hthrough⟩ := List.map_eq_singleton_iff.mp hrest
  obtain ⟨-, -, hjob⟩ := job_streams twoJobs (fun _ => rfl) p (Machine.Reachable.init.run hp)
  rw [hpair] at hjob
  have halone : ∀ i (c : InboundCommand), p.2[i]? = some c → Alone p.2 i c.jobId := by
    intro i c hi k c' hk hid
    have hnodup : (p.2.map InboundCommand.jobId).Nodup := by
      rw [hcmds]
      decide
    refine (List.getElem?_inj ?_ hnodup).mp ?_
    · rw [List.length_map]
      exact (List.getElem?_eq_some_iff.mp hk).1
    · rw [List.getElem?_map, List.getElem?_map, hi, hk, Option.map_some, Option.map_some, hid]
  refine ⟨p, hp, ?_, ?_⟩
  · obtain ⟨runs, last, hstates, hruns, -, hsome, haccepted⟩ :=
      hjob 0 ⟨"a", "hostname.read", [], .guest⟩ left (by rw [hcmds]; rfl) rfl
        (halone 0 _ (by rw [hcmds]; rfl))
    rw [hleft, Option.isSome_eq_false_iff, Option.isNone_iff_eq_none] at hsome
    subst hsome
    rw [Option.toList_none, List.append_nil] at hstates haccepted
    exact ⟨runs, hstates, hruns, haccepted⟩
  · obtain ⟨runs, last, hstates, hruns, hlast, hsome, -⟩ :=
      hjob 1 ⟨"b", "hostname.read", [], .guest⟩ through (by rw [hcmds]; rfl) rfl
        (halone 1 _ (by rw [hcmds]; rfl))
    rw [hthrough] at hsome
    obtain ⟨last, rfl⟩ := Option.isSome_iff_exists.mp hsome
    exact ⟨runs, last, hstates, hruns, hlast last rfl⟩

end PkiExecutor
