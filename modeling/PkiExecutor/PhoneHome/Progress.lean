/-
# `PkiExecutor.PhoneHome.Progress` — what is queued is delivered in the end

`frames_conserved` says where a frame can be, not that it ever gets anywhere: the
backoff, the keepalive and what the socket yields all compete with the queue.  Here
the agent runs on without end.  What waits for something gets it (`Fair`): a sleep
and a dial end, a write returns, and the select does not pass the queue over for
ever.  If no connection is lost from some point on (`Steady`), then everything that
is in the queue at any moment has been accepted by the socket at a later one
(`frames_delivered`), and so is the answer to every command (`answers_delivered`).

The argument is one `LeadsTo` for each point of the loop: while frames are due, a
sleep leads to a dial, a dial to the select or a write, the select to a write, and a
write to one more accepted frame; the number of frames still due gets smaller.
-/
import PkiExecutor.Lib.LeadsTo
import PkiExecutor.PhoneHome.Agent
import PkiExecutor.PhoneHome.Takeover

namespace PkiExecutor

/-! ## Steps of the loop -/

namespace LoopState

variable {toText : OutboundProgress → Option String} {s s' : LoopState} {e : LoopEvent}

theorem sendProgress_record (toText : OutboundProgress → Option String) (s : LoopState)
    (msg : OutboundProgress) :
    (s.sendProgress toText msg).accepted = s.accepted ∧
      (s.sendProgress toText msg).enqueued = s.enqueued := by
  unfold sendProgress
  split
  · exact ⟨rfl, rfl⟩
  · exact ⟨rfl, rfl⟩

theorem connected_record (toText : OutboundProgress → Option String) (s : LoopState) :
    (s.connected toText).accepted = s.accepted ∧ (s.connected toText).enqueued = s.enqueued := by
  unfold connected
  split
  · exact ⟨rfl, rfl⟩
  · exact sendProgress_record toText { s with inbox := [], pending := none } _

theorem received_record (s : LoopState) (item : Incoming) :
    (s.received item).accepted = s.accepted ∧ (s.received item).enqueued = s.enqueued := by
  rw [received_eq]
  split
  · exact ⟨rfl, rfl⟩
  · exact ⟨rfl, rfl⟩

theorem step_grows (hs : s.step toText e = some s') :
    s.accepted <+: s'.accepted ∧ s.enqueued <+: s'.enqueued := by
  cases step_cases hs with
  | enqueue msg => exact ⟨List.prefix_rfl, List.prefix_append _ _⟩
  | accepted hc => exact ⟨List.prefix_append _ _, List.prefix_rfl⟩
  | arrive _ _ | elapse _ | refused _ | tick _ | parked _ | pinged _ | pingLost _ | wake _ _ =>
      exact ⟨List.prefix_rfl, List.prefix_rfl⟩
  | connected hc =>
      obtain ⟨ha, hq⟩ := connected_record toText s
      rw [ha, hq]
      exact ⟨List.prefix_rfl, List.prefix_rfl⟩
  | @read item inbox hc hi =>
      obtain ⟨ha, hq⟩ := received_record { s with inbox } item
      rw [ha, hq]
      exact ⟨List.prefix_rfl, List.prefix_rfl⟩
  | @recv msg rx hc hr =>
      obtain ⟨ha, hq⟩ := sendProgress_record toText { s with rx } msg
      rw [ha, hq]
      exact ⟨List.prefix_rfl, List.prefix_rfl⟩

theorem step_writing {msg : OutboundProgress} (hc : s.control = .writing msg)
    (hs : s.step toText e = some s') (hne : ∀ ok, e ≠ .wrote ok) : s'.control = .writing msg := by
  cases step_cases hs with
  | enqueue _ | arrive _ _ | elapse _ => exact hc
  | connected h | refused h | read h _ | recv h _ | tick h | wake h _ | pinged h | pingLost h =>
      simp [hc] at h
  | accepted _ | parked _ => exact absurd rfl (hne _)

theorem step_pinging (hc : s.control = .pinging) (hs : s.step toText e = some s')
    (hne : ∀ ok, e ≠ .wrote ok) : s'.control = .pinging := by
  cases step_cases hs with
  | enqueue _ | arrive _ _ | elapse _ => exact hc
  | connected h | refused h | read h _ | recv h _ | tick h | wake h _ | accepted h | parked h =>
      simp [hc] at h
  | pinged _ | pingLost _ => exact absurd rfl (hne _)

theorem step_recv (ht : ∀ msg, (toText msg).isSome = true) (hs : s.step toText .recv = some s') :
    ∃ msg, s'.control = .writing msg := by
  cases step_cases hs with
  | @recv msg rx hc hr =>
      rw [sendProgress_eq ht]
      exact ⟨msg, rfl⟩

/-- A dial that succeeds is followed by the select or by the write of the parked frame. -/
theorem step_dialed (ht : ∀ msg, (toText msg).isSome = true)
    (hs : s.step toText (.dialed true) = some s') :
    s'.control = .selecting ∨ ∃ msg, s'.control = .writing msg := by
  cases step_cases hs with
  | connected hc =>
      cases hp : s.pending with
      | none => exact .inl (by simp [connected, hp])
      | some msg => exact .inr ⟨msg, by simp [connected, hp, sendProgress_eq ht]⟩

theorem returned_dialed (hs : s.step toText (.dialed false) = some s') :
    s.returned (.dialed false) = some none := by
  cases step_cases hs with
  | refused hc => simp [returned, hc]

theorem step_wake (hs : s.step toText .wake = some s') : s'.control = .dialing := by
  cases step_cases hs with
  | wake hc _ => rfl

end LoopState

/-! ## Fair runs -/

section Runs

variable {setup : Setup} (r : setup.agent.Run)

/-- `connect_once` returns in this step. -/
def Ends (n : Nat) : Prop :=
  ∃ le, r.event n = .loop le ∧ ((r.state n).loop.returned le).isSome = true

/-- What waits for something gets it.  The select may turn to other things, but not
for ever while there is something in the queue and the connection stays. -/
structure Fair : Prop where
  handlers : HandlersReturn r
  sleeps : ∀ n t, (r.state n).loop.control = .sleeping t →
    ∃ m, n ≤ m ∧ r.event m = .loop .wake
  dials : ∀ n, (r.state n).loop.control = .dialing →
    ∃ m, n ≤ m ∧ ∃ ok, r.event m = .loop (.dialed ok)
  writes : ∀ n, (∃ msg, (r.state n).loop.control = .writing msg) ∨
      (r.state n).loop.control = .pinging →
    ∃ m, n ≤ m ∧ ∃ ok, r.event m = .loop (.wrote ok)
  selects : ∀ n, (r.state n).loop.control = .selecting → (r.state n).loop.rx ≠ [] →
    ∃ m, n ≤ m ∧ (r.event m = .loop .recv ∨ Ends r m)

/-- From `N` on no dial fails and no connection is lost. -/
def Steady (N : Nat) : Prop := ∀ n, N ≤ n → ¬ Ends r n

variable {r}

/-- Seen from the loop, a step is the loop's own or puts frames into the queue. -/
theorem loop_next (n : Nat) :
    (∃ le, r.event n = .loop le ∧
      (r.state n).loop.step setup.toText le = some (r.state (n + 1)).loop) ∨
    ∃ i reply msgs, r.event n = .thread i reply ∧ (r.state (n + 1)).loop =
      { (r.state n).loop with
        rx := (r.state n).loop.rx ++ msgs, enqueued := (r.state n).loop.enqueued ++ msgs } := by
  rcases agent_step_cases (r.next n) with
    ⟨le, loop, he, hl, hs⟩ | ⟨i, reply, p, msgs, rest, he, -, -, hs⟩
  · refine .inl ⟨le, he, ?_⟩
    rw [hs]
    exact hl
  · refine .inr ⟨i, reply, msgs, he, ?_⟩
    rw [hs]

theorem loop_step {n : Nat} {le : LoopEvent} (he : r.event n = .loop le) :
    (r.state n).loop.step setup.toText le = some (r.state (n + 1)).loop := by
  rcases loop_next (r := r) n with ⟨le', he', hs⟩ | ⟨i, reply, msgs, he', -⟩
  · rw [he] at he'
    cases he'
    exact hs
  · rw [he] at he'
    cases he'

theorem grows_next (n : Nat) :
    (r.state n).loop.accepted <+: (r.state (n + 1)).loop.accepted ∧
      (r.state n).loop.enqueued <+: (r.state (n + 1)).loop.enqueued := by
  rcases loop_next (r := r) n with ⟨le, -, hs⟩ | ⟨i, reply, msgs, -, hs⟩
  · exact LoopState.step_grows hs
  · rw [hs]
    exact ⟨List.prefix_rfl, List.prefix_append _ _⟩

theorem inv_at (ht : ∀ msg, (setup.toText msg).isSome = true) (n : Nat) :
    (r.state n).loop.Inv := agent_conserves ht (r.reachable n)

/-! ## While frames are due -/

/-- At least `c` frames have been accepted, and more have been queued. -/
def Due (c : Nat) (s : AgentState) : Prop :=
  c ≤ s.loop.accepted.length ∧ c < s.loop.enqueued.length

/-- One frame more has been accepted. -/
def Passed (c : Nat) (s : AgentState) : Prop := c < s.loop.accepted.length

variable {N c : Nat}

theorem due_next (n : Nat) (h : Due c (r.state n)) : Due c (r.state (n + 1)) := by
  obtain ⟨ha, hq⟩ := grows_next (r := r) n
  exact ⟨Nat.le_trans h.1 ha.length_le, Nat.lt_of_lt_of_le h.2 hq.length_le⟩

theorem wrote_ok (hsteady : Steady r N) {n : Nat} (hn : N ≤ n) {ok : Bool}
    (he : r.event n = .loop (.wrote ok)) (ho : (r.state n).loop.online = true) : ok = true := by
  cases ok with
  | true => rfl
  | false =>
      refine absurd ⟨.wrote false, he, ?_⟩ (hsteady n hn)
      rw [LoopState.returned_wrote ho]
      rfl

theorem writing_passes (hf : Fair r) (hsteady : Steady r N) (msg : OutboundProgress) :
    r.LeadsTo N (fun s => s.loop.control = .writing msg ∧ Due c s) (Passed c) := by
  refine r.leadsTo_of_event (T := fun m => ∃ ok, r.event m = .loop (.wrote ok)) ?_ ?_ ?_
  · exact fun n _ h => hf.writes n (.inl ⟨msg, h.1⟩)
  · rintro k - ⟨hc, hd⟩ hnot
    refine ⟨?_, due_next k hd⟩
    rcases loop_next (r := r) k with ⟨le, he, hs⟩ | ⟨i, reply, msgs, -, hs⟩
    · refine LoopState.step_writing hc hs fun ok hle => hnot ⟨ok, ?_⟩
      rw [he, hle]
    · rw [hs]
      exact hc
  · rintro k hk ⟨hc, hd⟩ ⟨ok, he⟩
    obtain rfl := wrote_ok hsteady hk he (LoopState.online_of_writing hc)
    have hs := loop_step he
    simp only [LoopState.step, hc, if_true, Option.some.injEq] at hs
    show c < (r.state (k + 1)).loop.accepted.length
    rw [← hs, List.length_append, List.length_singleton]
    exact Nat.lt_succ_of_le hd.1

theorem pinging_selects (hf : Fair r) (hsteady : Steady r N) :
    r.LeadsTo N (fun s => s.loop.control = .pinging) fun s => s.loop.control = .selecting := by
  refine r.leadsTo_of_event (T := fun m => ∃ ok, r.event m = .loop (.wrote ok)) ?_ ?_ ?_
  · exact fun n _ h => hf.writes n (.inr h)
  · intro k _ hc hnot
    rcases loop_next (r := r) k with ⟨le, he, hs⟩ | ⟨i, reply, msgs, -, hs⟩
    · refine LoopState.step_pinging hc hs fun ok hle => hnot ⟨ok, ?_⟩
      rw [he, hle]
    · rw [hs]
      exact hc
  · rintro k hk hc ⟨ok, he⟩
    obtain rfl := wrote_ok hsteady hk he (LoopState.online_of_pinging hc)
    have hs := loop_step he
    simp only [LoopState.step, hc, if_true, Option.some.injEq] at hs
    rw [← hs]

theorem selecting_passes (ht : ∀ msg, (setup.toText msg).isSome = true) (hf : Fair r)
    (hsteady : Steady r N) :
    r.LeadsTo N (fun s => s.loop.control = .selecting ∧ Due c s) (Passed c) := by
  have hwrites : r.LeadsTo N (fun s => s.loop.control = .selecting ∧ s.loop.rx ≠ [])
      fun s => ∃ msg, s.loop.control = .writing msg := by
    refine r.leadsTo_of_forced (T := fun m => N ≤ m ∧ r.event m = .loop .recv) ?_ ?_
    · rintro n hn ⟨hc, hne⟩
      obtain ⟨m, hnm, he | hend⟩ := hf.selects n hc hne
      · exact ⟨m, hnm, Nat.le_trans hn hnm, he⟩
      · exact absurd hend (hsteady m (Nat.le_trans hn hnm))
    · rintro k - ⟨-, he⟩
      exact LoopState.step_recv ht (loop_step he)
  intro n hn ⟨hc, hd⟩
  by_cases hp : Passed c (r.state n)
  · exact ⟨n, Nat.le_refl n, hp⟩
  · -- what is due and not accepted is in the queue
    have hrx : (r.state n).loop.rx ≠ [] := by
      intro hnil
      have hfr := ((inv_at ht n).selecting hc).2
      rw [hnil, List.append_nil] at hfr
      have hlt := hd.2
      rw [← hfr] at hlt
      exact hp hlt
    obtain ⟨m, hnm, ⟨msg, hm⟩, hdue⟩ :=
      (hwrites.and_stable (R := Due c) fun k _ h => due_next k h) n hn ⟨⟨hc, hrx⟩, hd⟩
    obtain ⟨k, hmk, hk⟩ := writing_passes hf hsteady msg m (Nat.le_trans hn hnm) ⟨hm, hdue⟩
    exact ⟨k, Nat.le_trans hnm hmk, hk⟩

/-- A connection that comes up is at the select, or at the write of the parked frame. -/
theorem dialing_connects (ht : ∀ msg, (setup.toText msg).isSome = true) (hf : Fair r)
    (hsteady : Steady r N) :
    r.LeadsTo N (fun s => s.loop.control = .dialing) fun s =>
      s.loop.control = .selecting ∨ ∃ msg, s.loop.control = .writing msg := by
  refine r.leadsTo_of_forced (T := fun m => ∃ ok, r.event m = .loop (.dialed ok)) ?_ ?_
  · exact fun n _ h => hf.dials n h
  · rintro k hk ⟨ok, he⟩
    cases ok with
    | false =>
        refine absurd ⟨.dialed false, he, ?_⟩ (hsteady k hk)
        rw [LoopState.returned_dialed (loop_step he)]
        rfl
    | true => exact LoopState.step_dialed ht (loop_step he)

theorem sleeping_dials (hf : Fair r) :
    r.LeadsTo N (fun s => ∃ t, s.loop.control = .sleeping t) fun s =>
      s.loop.control = .dialing := by
  refine r.leadsTo_of_forced (T := fun m => r.event m = .loop .wake) ?_ ?_
  · rintro n - ⟨t, h⟩
    exact hf.sleeps n t h
  · exact fun k _ he => LoopState.step_wake (loop_step he)

theorem due_passes (ht : ∀ msg, (setup.toText msg).isSome = true) (hf : Fair r)
    (hsteady : Steady r N) : r.LeadsTo N (Due c) (Passed c) := by
  have hstable : ∀ k, N ≤ k → Due c (r.state k) → Due c (r.state (k + 1)) := fun k _ h =>
    due_next k h
  have hselect := selecting_passes (c := c) ht hf hsteady
  have hwrite : r.LeadsTo N (fun s => (∃ msg, s.loop.control = .writing msg) ∧ Due c s)
      (Passed c) := by
    rintro n hn ⟨⟨msg, hc⟩, hd⟩
    exact writing_passes hf hsteady msg n hn ⟨hc, hd⟩
  have hping := ((pinging_selects hf hsteady).and_stable hstable).trans hselect
  have hdial : r.LeadsTo N (fun s => s.loop.control = .dialing ∧ Due c s) (Passed c) := by
    refine ((dialing_connects ht hf hsteady).and_stable hstable).trans ?_
    rintro n hn ⟨hc | hc, hd⟩
    · exact hselect n hn ⟨hc, hd⟩
    · exact hwrite n hn ⟨hc, hd⟩
  have hsleep := ((sleeping_dials (N := N) hf).and_stable hstable).trans hdial
  intro n hn hd
  cases hc : (r.state n).loop.control with
  | dialing => exact hdial n hn ⟨hc, hd⟩
  | writing msg => exact hwrite n hn ⟨⟨msg, hc⟩, hd⟩
  | selecting => exact hselect n hn ⟨hc, hd⟩
  | pinging => exact hping n hn ⟨hc, hd⟩
  | sleeping t => exact hsleep n hn ⟨⟨t, hc⟩, hd⟩

/-- One frame after another: as many as were queued have been accepted in the end. -/
theorem accepted_reaches (ht : ∀ msg, (setup.toText msg).isSome = true) (hf : Fair r)
    (hsteady : Steady r N) (k : Nat) :
    r.LeadsTo N (fun s => k ≤ s.loop.enqueued.length) fun s => k ≤ s.loop.accepted.length := by
  refine .variant (f := fun s => k - s.loop.accepted.length) fun v => ?_
  rintro n hn ⟨hk, rfl⟩
  rcases Nat.lt_or_ge (r.state n).loop.accepted.length k with hlt | hge
  · obtain ⟨m, hnm, hp⟩ := due_passes ht hf hsteady n hn ⟨Nat.le_refl _, Nat.lt_of_lt_of_le hlt hk⟩
    have hkm : k ≤ (r.state m).loop.enqueued.length :=
      r.keeps (P := fun s => k ≤ s.loop.enqueued.length)
        (fun i _ h => Nat.le_trans h (grows_next i).2.length_le) hn hnm hk
    have hp' : (r.state n).loop.accepted.length < (r.state m).loop.accepted.length := hp
    exact ⟨m, hnm, .inr ⟨hkm, by omega⟩⟩
  · exact ⟨n, Nat.le_refl n, .inl hge⟩

end Runs

/-! ## Delivery -/

/-- In a fair run that is steady from some point on, the frames that have been queued
at any moment have all been accepted at a later one, in the order they were queued. -/
theorem frames_delivered (setup : Setup) (ht : ∀ msg, (setup.toText msg).isSome = true)
    (r : setup.agent.Run) (hf : Fair r) (N : Nat) (hsteady : Steady r N) (n : Nat) :
    ∃ m, n ≤ m ∧ (r.state n).loop.enqueued <+: (r.state m).loop.accepted := by
  have hgrow : ∀ {i j}, i ≤ j → (r.state i).loop.enqueued <+: (r.state j).loop.enqueued :=
    fun {i j} hij => r.keeps (N := 0)
      (P := fun s => (r.state i).loop.enqueued <+: s.loop.enqueued)
      (fun k _ h => h.trans (grows_next k).2) (Nat.zero_le i) hij List.prefix_rfl
  obtain ⟨m, hm, hlen⟩ := accepted_reaches ht hf hsteady (r.state n).loop.enqueued.length
    (max n N) (Nat.le_max_right n N) (hgrow (Nat.le_max_left n N)).length_le
  have hnm : n ≤ m := Nat.le_trans (Nat.le_max_left n N) hm
  -- both are initial stretches of what is queued by then
  have hacc : (r.state m).loop.accepted <+: (r.state m).loop.enqueued := by
    rw [← (inv_at ht m).conserved, LoopState.frames, List.append_assoc, List.append_assoc]
    exact List.prefix_append _ _
  exact ⟨m, hnm, List.prefix_of_prefix_length_le (hgrow hnm) hacc hlen⟩

theorem command_thread {setup : Setup} {r : setup.agent.Run} {n : Nat} {text : String}
    {inbox : List Incoming} {cmd : InboundCommand} (hread : r.event n = .loop .read)
    (hin : (r.state n).loop.inbox = .text text :: inbox)
    (hcmd : InboundCommand.ofText (setup.hostAt (r.state n).loop.now) text = some cmd) :
    (r.state (n + 1)).threads[(r.state n).threads.length]? =
      some (handleCommand
        (buildDefaultRegistry (setup.hostAt (r.state n).loop.now) setup.unix) cmd) := by
  have hnext : setup.step (r.state n) (.loop .read) = some (r.state (n + 1)) := by
    rw [← hread]
    exact r.next n
  rcases agent_step_cases hnext with ⟨le, loop, hle, -, hs⟩ | ⟨i, reply, p, msgs, rest, he, -⟩
  · cases hle
    rw [hs]
    simp [Setup.spawned, hin, hcmd]
  · cases he

/-- In such a run a command that is read is answered on the wire: a terminal frame
with its job id is accepted by the socket. -/
theorem answers_delivered (setup : Setup) (ht : ∀ msg, (setup.toText msg).isSome = true)
    (r : setup.agent.Run) (hf : Fair r) (N : Nat) (hsteady : Steady r N) (n : Nat) (text : String)
    (inbox : List Incoming) (cmd : InboundCommand) (hread : r.event n = .loop .read)
    (hin : (r.state n).loop.inbox = .text text :: inbox)
    (hcmd : InboundCommand.ofText (setup.hostAt (r.state n).loop.now) text = some cmd) :
    ∃ m, n < m ∧ ∃ msg ∈ (r.state m).loop.accepted, Answers cmd.jobId msg := by
  obtain ⟨k, hk, msg, hanswers, hputs⟩ := thread_puts hf.handlers (handleCommand_tells _ _ cmd)
    (n + 1) (command_thread hread hin hcmd)
  have hqueued : msg ∈ (r.state (k + 1)).loop.enqueued := by
    rw [hputs]
    exact List.mem_append_right _ (List.mem_singleton_self msg)
  obtain ⟨m, hm, hpre⟩ := frames_delivered setup ht r hf N hsteady (k + 1)
  exact ⟨m, by omega, msg, hpre.subset hqueued, hanswers⟩

/-- The unknown command is read, its one thread runs to its end, and the loop sends
what it has put into the queue. -/
def deliveredEvents : List AgentEvent :=
  [.loop (.dialed true), .loop (.arrive (.text unknownText)), .loop .read,
    .thread 0 (.ok ⟨"", "", 0⟩), .loop .recv, .loop (.wrote true)]

theorem deliveredEvents_play :
    ((Setup.reading unknownText unknownJson).agent.run
      (Setup.reading unknownText unknownJson).agent.init deliveredEvents).isSome = true := by
  decide

theorem deliveredEvents_idle (s : AgentState) :
    (Setup.reading unknownText unknownJson).agent.step s (.loop (.elapse 0)) = some s :=
  agent_idle _ s

def deliveredRun : (Setup.reading unknownText unknownJson).agent.Run :=
  .settling deliveredEvents (.loop (.elapse 0)) deliveredEvents_play deliveredEvents_idle

def Control.isSleeping : Control → Bool
  | .sleeping _ => true
  | _ => false

def Control.isDialing : Control → Bool
  | .dialing => true
  | _ => false

/-- At a write, of a frame or a ping. -/
def Control.isWriting : Control → Bool
  | .writing _ => true
  | .pinging => true
  | _ => false

theorem deliveredRun_at {φ : AgentState → Bool} {j : Nat} (hj : j < 6)
    (h : ∀ k, k ≤ 6 → k ≠ j → φ (deliveredRun.state k) = false) {n : Nat}
    (hn : φ (deliveredRun.state n) = true) : n = j := by
  by_contra hne
  rcases Nat.le_total n 6 with hle | hge
  · rw [h n hle hne] at hn
    cases hn
  · rw [show deliveredRun.state n = deliveredRun.state 6 from Machine.Run.settling_state hge,
      h 6 le_rfl (by omega)] at hn
    cases hn

theorem deliveredRun_fair : Fair deliveredRun where
  handlers := by
    intro n i p hp hleft
    have hn : n = 3 := by
      refine deliveredRun_at (φ := fun s => s.threads.any (!·.finished)) (by decide) (by decide) ?_
      rw [List.any_eq_true]
      exact ⟨p, List.mem_of_getElem? hp, by rw [hleft]; rfl⟩
    subst hn
    have hone : (deliveredRun.state 3).threads.length = 1 := by decide
    have hi := (List.getElem?_eq_some_iff.mp hp).1
    obtain rfl : i = 0 := by omega
    exact ⟨3, le_rfl, _, rfl⟩
  sleeps := by
    intro n t hc
    have hn : n = 0 := by
      refine deliveredRun_at (φ := fun s => s.loop.control.isSleeping) (by decide)
        (by decide) ?_
      simp [hc, Control.isSleeping]
    subst hn
    cases hc
  dials := by
    intro n hc
    have hn : n = 0 := by
      refine deliveredRun_at (φ := fun s => s.loop.control.isDialing) (by decide)
        (by decide) ?_
      simp [hc, Control.isDialing]
    subst hn
    exact ⟨0, le_rfl, true, rfl⟩
  writes := by
    intro n hc
    have hn : n = 5 := by
      refine deliveredRun_at (φ := fun s => s.loop.control.isWriting) (by decide)
        (by decide) ?_
      rcases hc with ⟨msg, hc⟩ | hc
      · simp [hc, Control.isWriting]
      · simp [hc, Control.isWriting]
    subst hn
    exact ⟨5, le_rfl, true, rfl⟩
  selects := by
    intro n _ hne
    have hn : n = 4 := by
      refine deliveredRun_at (φ := fun s => !s.loop.rx.isEmpty) (by decide) (by decide) ?_
      simpa using hne
    subst hn
    exact ⟨4, le_rfl, .inl rfl⟩

theorem deliveredRun_steady : Steady deliveredRun 0 := by
  rintro n - ⟨le, he, hret⟩
  rcases Nat.lt_or_ge n 6 with hlt | hge
  · have hnone : ∀ k, k < 6 → (match deliveredRun.event k with
        | .loop le => ((deliveredRun.state k).loop.returned le).isNone
        | .thread _ _ => true) = true := by
      decide
    have hn := hnone n hlt
    rw [he] at hn
    rw [Option.isNone_iff_eq_none.mp hn] at hret
    cases hret
  · have hidle : deliveredRun.event n = .loop (.elapse 0) :=
      List.getD_eq_default _ _ hge
    rw [hidle] at he
    cases he
    cases hret

theorem frames_delivered_unknown :
    ∃ m, 4 ≤ m ∧ (deliveredRun.state 4).loop.enqueued <+: (deliveredRun.state m).loop.accepted :=
  frames_delivered _ (fun _ => rfl) deliveredRun deliveredRun_fair 0 deliveredRun_steady 4

theorem answers_delivered_unknown :
    ∃ m, 2 < m ∧ ∃ msg ∈ (deliveredRun.state m).loop.accepted, Answers "j" msg :=
  answers_delivered _ (fun _ => rfl) deliveredRun deliveredRun_fair 0 deliveredRun_steady 2
    unknownText [] ⟨"j", "no.such", [], .guest⟩ rfl (by decide) (by decide)

end PkiExecutor
