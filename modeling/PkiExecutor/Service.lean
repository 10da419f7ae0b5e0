/-
# `PkiExecutor.Service` — the agent's processes on one host

`connect` runs the phone-home loop on its main thread; `service run` runs it on a thread
of its own, tells the service manager that it is running and waits for a stop
(`service/console.rs`, `service/scm.rs`).  Either loop begins by taking a lock that the
operating system gives back when the handle is gone.

The machine is a host on which any number of these processes start, fail, are stopped and
killed in any order.  `one_agent_per_host`: at most one of them has an agent, and what it
does is a run of the agent.  `stop_honoured`: whatever the loop is doing, a service that
is told to stop reports that it has stopped, and its lock is free.
-/
import PkiExecutor.Lib.LeadsTo
import PkiExecutor.Lib.Table
import PkiExecutor.PhoneHome.Agent
import PkiExecutor.PhoneHome.Connect

namespace PkiExecutor

/-! ## The lock -/

/-- What the file system answers. -/
structure LockFile where
  createsDir : Bool
  opens : Bool

/-- `acquire_instance_lock`, where another handle on the file has the lock or none has.
On Windows it is the open that fails. -/
def acquireInstanceLock (unix taken : Bool) (file : LockFile) : Except String Unit :=
  if !file.createsDir then .error "creating the agent data directory"
  else if unix then
    if !file.opens then .error "opening the agent lock file"
    else if taken then
      .error ("another pki-executor instance is already running " ++
        "(could not acquire /var/lib/pki-executor/agent.lock)")
    else .ok ()
  else if taken || !file.opens then
    .error "another pki-executor instance is already running (could not acquire agent.lock)"
  else .ok ()

theorem free_of_acquired {unix taken : Bool} {file : LockFile}
    (h : acquireInstanceLock unix taken file = .ok ()) : taken = false := by
  cases taken with
  | false => rfl
  | true =>
      obtain ⟨createsDir, opens⟩ := file
      cases createsDir <;> cases unix <;> cases opens <;> simp [acquireInstanceLock] at h

/-! ## A process -/

/-- Where `run_loop` stands. -/
inductive RunLoop
  | absent
  /-- called, before it has the lock -/
  | entered (config : ExecutorConfig)
  | locked (config : ExecutorConfig)
  /-- in `run_forever`, past its check of the URL -/
  | serving (agent : AgentState)
  | returned (error : String)

/-- It is in the scope of the lock's handle. -/
def RunLoop.hasLock : RunLoop → Bool
  | .locked _ => true
  | .serving _ => true
  | _ => false

/-- Where the main thread stands. -/
inductive MainThread
  /-- `connect`, before it has its configuration -/
  | loading
  /-- `connect`, in `run_loop` -/
  | looping
  /-- `run_service`, before its handler is registered -/
  | registering
  /-- before it has its configuration -/
  | registered
  /-- at the channel -/
  | waiting
  /-- out of `run_service` with an error; the process stays -/
  | failed
  /-- the process is gone -/
  | exited
  deriving DecidableEq, Repr

/-- What the service manager asks for. -/
inductive ServiceControl
  | stop
  | shutdown
  | interrogate
  | other
  deriving DecidableEq, Repr

/-- What a service reports of itself. -/
inductive ServiceState
  | running
  | stopped
  deriving DecidableEq, Repr

/-- What the control handler returns. -/
inductive HandlerResult
  | noError
  | notImplemented
  deriving DecidableEq, Repr

/-- The closure `handler`: how many messages it sends, and what it returns. -/
def controlHandler : ServiceControl → Nat × HandlerResult
  | .stop => (1, .noError)
  | .shutdown => (1, .noError)
  | .interrogate => (0, .noError)
  | .other => (0, .notImplemented)

/-- A process of `connect` or `service run`. -/
structure AgentProcess where
  main : MainThread
  loop : RunLoop
  /-- the messages in the shutdown channel -/
  stops : Nat
  /-- the states reported to the service manager, the last one last -/
  reported : List ServiceState

/-- A process of `connect`, at its start. -/
def AgentProcess.connect : AgentProcess := ⟨.loading, .absent, 0, []⟩

/-- A process of `service run`, at its start. -/
def AgentProcess.serviceRun : AgentProcess := ⟨.registering, .absent, 0, []⟩

/-- What a process does next, with what it finds on the host. -/
inductive ProcessEvent
  /-- the configuration has been read, if it can be -/
  | load (config : Option ExecutorConfig)
  /-- the handler has been registered and the state reported, if they can be -/
  | register (ok : Bool)
  | acquire (file : LockFile)
  /-- the runtime has been built, if it can be, and the loop begins -/
  | begin (built : Bool)
  | agent (e : AgentEvent)
  /-- `connect` ends with its loop -/
  | leave
  | control (c : ServiceControl)
  /-- the main thread takes a message and reports the state, if it can be -/
  | receive (ok : Bool)
  | kill

/-- What becomes of the lock. -/
inductive LockUse
  | keep
  | take
  | release
  deriving DecidableEq, Repr

namespace AgentProcess

/-- The process is gone, and its threads and handles with it. -/
def gone (p : AgentProcess) : AgentProcess := { p with main := .exited, loop := .absent }

variable (crates : Crates) (setup : Setup)

/-- `run_forever` looks at its URL before anything else. -/
def beginLoop (config : ExecutorConfig) (built : Bool) : LockUse × RunLoop :=
  if built then
    match connectUrl crates config with
    | .ok _ => (.keep, .serving setup.agent.init)
    | .error e => (.release, .returned e)
  else (.release, .returned "building the phone-home tokio runtime")

/-- One step of a process, where the lock is taken or not. -/
def step (taken : Bool) (p : AgentProcess) (e : ProcessEvent) : Option (LockUse × AgentProcess) :=
  match e, p.main, p.loop with
  | _, .exited, _ => none
  | .kill, _, _ => some (.release, p.gone)
  | .load (some config), .loading, _ =>
      some (.keep, { p with main := .looping, loop := .entered config })
  | .load none, .loading, _ => some (.release, p.gone)
  | .leave, .looping, .returned _ => some (.release, p.gone)
  | .register true, .registering, _ =>
      some (.keep, { p with main := .registered, reported := p.reported ++ [.running] })
  | .register false, .registering, _ => some (.keep, { p with main := .failed })
  | .load (some config), .registered, _ =>
      some (.keep, { p with main := .waiting, loop := .entered config })
  | .load none, .registered, _ => some (.keep, { p with main := .failed })
  | .control c, .registered, _ => some (.keep, { p with stops := p.stops + (controlHandler c).1 })
  | .control c, .waiting, _ => some (.keep, { p with stops := p.stops + (controlHandler c).1 })
  -- the channel's other end has gone with `run_service`, and `send` fails
  | .control _, .failed, _ => some (.keep, p)
  | .receive ok, .waiting, _ =>
      if p.stops = 0 then none
      else if ok then
        some (.release, { p.gone with
          stops := p.stops - 1, reported := p.reported ++ [.stopped] })
      else some (.keep, { p with main := .failed, stops := p.stops - 1 })
  | .acquire file, _, .entered config =>
      match acquireInstanceLock setup.unix taken file with
      | .ok () => some (.take, { p with loop := .locked config })
      | .error e => some (.keep, { p with loop := .returned e })
  | .begin built, _, .locked config =>
      some ((beginLoop crates setup config built).1,
        { p with loop := (beginLoop crates setup config built).2 })
  | .agent e, _, .serving agent =>
      (setup.step agent e).map fun agent => (.keep, { p with loop := .serving agent })
  | _, _, _ => none

end AgentProcess

/-! ## The host -/

/-- The host, as far as its agents can meet on it. -/
structure HostState where
  /-- the process whose handle has the lock -/
  lock : Option Nat
  /-- the processes in the order they were started -/
  procs : List AgentProcess

/-- What can happen on a host: a process is started, or one goes on. -/
inductive HostEvent
  /-- nothing that touches these processes -/
  | idle
  | connect
  | serviceRun
  | process (i : Nat) (e : ProcessEvent)

/-- What a step of process `i` makes of the lock. -/
def LockUse.apply (i : Nat) (lock : Option Nat) : LockUse → Option Nat
  | .keep => lock
  | .take => some i
  | .release => if lock = some i then none else lock

section Machine

variable (crates : Crates) (setup : Setup)

/-- One event on the host. -/
def HostState.step (s : HostState) : HostEvent → Option HostState
  | .idle => some s
  | .connect => some { s with procs := s.procs ++ [.connect] }
  | .serviceRun => some { s with procs := s.procs ++ [.serviceRun] }
  | .process i e => do
      let (use, p) ← (← s.procs[i]?).step crates setup s.lock.isSome e
      return ⟨use.apply i s.lock, s.procs.set i p⟩

/-- A host with any number of agent processes, none of them at first. -/
def hostProcesses : Machine HostState HostEvent := ⟨⟨none, []⟩, HostState.step crates setup⟩

end Machine

variable {crates : Crates} {setup : Setup}

/-! ## Who has the lock -/

namespace AgentProcess

def holds (p : AgentProcess) : Bool := p.loop.hasLock

/-- What a process can do. -/
inductive Can (crates : Crates) (setup : Setup) (taken : Bool) (p : AgentProcess) :
    ProcessEvent → LockUse → AgentProcess → Prop
  | kill (hm : p.main ≠ .exited) : Can crates setup taken p .kill .release p.gone
  | unread (hm : p.main = .loading) : Can crates setup taken p (.load none) .release p.gone
  | leave (hm : p.main = .looping) : Can crates setup taken p .leave .release p.gone
  | loop (config : ExecutorConfig) (hm : p.main = .loading) :
      Can crates setup taken p (.load (some config)) .keep
        { p with main := .looping, loop := .entered config }
  | register (hm : p.main = .registering) :
      Can crates setup taken p (.register true) .keep
        { p with main := .registered, reported := p.reported ++ [.running] }
  | unregistered (hm : p.main = .registering) :
      Can crates setup taken p (.register false) .keep { p with main := .failed }
  | spawn (config : ExecutorConfig) (hm : p.main = .registered) :
      Can crates setup taken p (.load (some config)) .keep
        { p with main := .waiting, loop := .entered config }
  | unconfigured (hm : p.main = .registered) :
      Can crates setup taken p (.load none) .keep { p with main := .failed }
  | control (c : ServiceControl) (hm : p.main = .registered ∨ p.main = .waiting) :
      Can crates setup taken p (.control c) .keep
        { p with stops := p.stops + (controlHandler c).1 }
  | ignored (c : ServiceControl) (hm : p.main = .failed) :
      Can crates setup taken p (.control c) .keep p
  | stop (hm : p.main = .waiting) (hs : p.stops ≠ 0) :
      Can crates setup taken p (.receive true) .release
        { p.gone with stops := p.stops - 1, reported := p.reported ++ [.stopped] }
  | unreported (hm : p.main = .waiting) (hs : p.stops ≠ 0) :
      Can crates setup taken p (.receive false) .keep
        { p with main := .failed, stops := p.stops - 1 }
  | acquire {config : ExecutorConfig} (file : LockFile) (hl : p.loop = .entered config)
      (hf : taken = false) :
      Can crates setup taken p (.acquire file) .take { p with loop := .locked config }
  | refused {config : ExecutorConfig} (file : LockFile) (error : String)
      (hl : p.loop = .entered config) :
      Can crates setup taken p (.acquire file) .keep { p with loop := .returned error }
  | begin {config : ExecutorConfig} (built : Bool) (hl : p.loop = .locked config) :
      Can crates setup taken p (.begin built) (beginLoop crates setup config built).1
        { p with loop := (beginLoop crates setup config built).2 }
  | agent {a a' : AgentState} (e : AgentEvent) (hl : p.loop = .serving a)
      (ha : setup.agent.step a e = some a') :
      Can crates setup taken p (.agent e) .keep { p with loop := .serving a' }

variable {taken : Bool} {p p' : AgentProcess} {e : ProcessEvent} {use : LockUse}

theorem step_cases (h : p.step crates setup taken e = some (use, p')) :
    Can crates setup taken p e use p' := by
  unfold step at h
  split at h
  · cases h
  · cases h
    exact .kill ‹_›
  · cases h
    exact .loop _ ‹_›
  · cases h
    exact .unread ‹_›
  · cases h
    exact .leave ‹_›
  · cases h
    exact .register ‹_›
  · cases h
    exact .unregistered ‹_›
  · cases h
    exact .spawn _ ‹_›
  · cases h
    exact .unconfigured ‹_›
  · cases h
    exact .control _ (.inl ‹_›)
  · cases h
    exact .control _ (.inr ‹_›)
  · cases h
    exact .ignored _ ‹_›
  · rename_i ok hm
    split at h
    · cases h
    · cases ok with
      | true =>
          cases h
          exact .stop hm ‹_›
      | false =>
          cases h
          exact .unreported hm ‹_›
  · split at h
    · cases h
      exact .acquire _ ‹_› (free_of_acquired ‹_›)
    · cases h
      exact .refused _ _ ‹_›
  · cases h
    exact .begin _ ‹_›
  · obtain ⟨a', ha, he⟩ := Option.map_eq_some_iff.mp h
    cases he
    exact .agent _ ‹_› ha
  · cases h

/-- Before it has a configuration a process has no loop, and none when it is gone. -/
def WellFormed (p : AgentProcess) : Prop :=
  p.main = .loading ∨ p.main = .registering ∨ p.main = .registered ∨ p.main = .exited →
    p.loop = .absent

/-- The lock is in use by the loops that are in the scope of its handle. -/
def UsesLock (p p' : AgentProcess) (taken : Bool) : LockUse → Prop
  | .keep => p'.holds = p.holds
  | .take => taken = false ∧ p'.holds = true
  | .release => p'.holds = false

theorem usesLock (hw : p.WellFormed) (h : Can crates setup taken p e use p') :
    UsesLock p p' taken use := by
  have habsent : p.loop = .absent → p.holds = false := fun hl => by rw [holds, hl]; rfl
  cases h with
  | kill | unread | leave | stop => rfl
  | loop config hm => exact (habsent (hw (.inl hm))).symm
  | spawn config hm => exact (habsent (hw (.inr (.inr (.inl hm))))).symm
  | register | unregistered | unconfigured | control | ignored | unreported => rfl
  | acquire file hl hf => exact ⟨hf, rfl⟩
  | refused file error hl =>
      show false = p.holds
      rw [holds, hl]
      rfl
  | @begin config built hl =>
      have hp : p.holds = true := by rw [holds, hl]; rfl
      unfold beginLoop
      cases built with
      | false => rfl
      | true =>
          cases connectUrl crates config with
          | ok url => exact hp.symm
          | error e => rfl
  | agent e hl ha =>
      show true = p.holds
      rw [holds, hl]
      rfl

theorem wellFormed_step (hw : p.WellFormed) (h : Can crates setup taken p e use p') :
    p'.WellFormed := by
  intro hm
  cases h with
  | kill | unread | leave | stop => rfl
  | loop config | spawn config => simp at hm
  | unregistered | unconfigured | unreported => simp at hm
  | register hm' => exact hw (.inr (.inl hm'))
  | control c | ignored c => exact hw hm
  | acquire file hl | refused file error hl | begin built hl | agent e hl =>
      rw [hw hm] at hl
      cases hl

theorem serving_step (h : Can crates setup taken p e use p')
    (hr : ∀ a, p.loop = .serving a → setup.agent.Reachable a) :
    ∀ a, p'.loop = .serving a → setup.agent.Reachable a := by
  intro a ha
  cases h with
  | kill | unread | leave | stop => cases ha
  | loop config | spawn config | acquire file | refused file error => cases ha
  | register | unregistered | unconfigured | control | ignored | unreported => exact hr a ha
  | @begin config built hl =>
      unfold beginLoop at ha
      cases built with
      | false => cases ha
      | true =>
          cases hc : connectUrl crates config with
          | ok url =>
              simp only [hc, if_true, RunLoop.serving.injEq] at ha
              rw [← ha]
              exact .init
          | error e =>
              simp only [hc, if_true] at ha
              cases ha
  | agent e hl hstep =>
      cases ha
      exact (hr _ hl).step hstep

/-- What it has reported before it stops. -/
def Reports (p : AgentProcess) : Prop :=
  (p.main = .registering → p.reported = []) ∧
    (p.main = .registered ∨ p.main = .waiting → p.reported = [.running])

theorem reports_step (hp : p.Reports) (h : Can crates setup taken p e use p') : p'.Reports := by
  cases h with
  | kill | unread | leave | stop | loop | unregistered | unconfigured | unreported =>
      refine ⟨fun hm => ?_, fun hm => ?_⟩
      · cases hm
      · simp [gone] at hm
  | register hm =>
      refine ⟨fun h => ?_, fun _ => ?_⟩
      · cases h
      · show p.reported ++ [.running] = [.running]
        rw [hp.1 hm]
        rfl
  | spawn config hm =>
      refine ⟨fun h => ?_, fun _ => hp.2 (.inl hm)⟩
      cases h
  | control | ignored | acquire | refused | begin | agent => exact hp

end AgentProcess

open AgentProcess (Can)

theorem host_step_cases {s s' : HostState} {e : HostEvent}
    (h : s.step crates setup e = some s') :
    e = .idle ∧ s' = s ∨
    (∃ p, (e = .connect ∧ p = AgentProcess.connect ∨ e = .serviceRun ∧ p = .serviceRun) ∧
      s' = { s with procs := s.procs ++ [p] }) ∨
    ∃ i pe p use p', e = .process i pe ∧ s.procs[i]? = some p ∧
      Can crates setup s.lock.isSome p pe use p' ∧
      s' = ⟨use.apply i s.lock, s.procs.set i p'⟩ := by
  cases e with
  | idle =>
      cases h
      exact .inl ⟨rfl, rfl⟩
  | connect =>
      cases h
      exact .inr (.inl ⟨_, .inl ⟨rfl, rfl⟩, rfl⟩)
  | serviceRun =>
      cases h
      exact .inr (.inl ⟨_, .inr ⟨rfl, rfl⟩, rfl⟩)
  | process i pe =>
      simp only [HostState.step, Option.bind_eq_bind, Option.bind_eq_some_iff] at h
      obtain ⟨p, hp, ⟨use, p'⟩, hs, he⟩ := h
      cases he
      exact .inr (.inr ⟨i, pe, p, use, p', rfl, hp, AgentProcess.step_cases hs, rfl⟩)

/-- What every process is in every reachable state. -/
structure HostState.Inv (setup : Setup) (s : HostState) : Prop where
  wellFormed : ∀ (i : Nat) (p : AgentProcess), s.procs[i]? = some p → p.WellFormed
  lock : ∀ (i : Nat) (p : AgentProcess), s.procs[i]? = some p → (p.holds = true ↔ s.lock = some i)
  known : ∀ i, s.lock = some i → i < s.procs.length
  agents : ∀ (i : Nat) (p : AgentProcess) (a : AgentState), s.procs[i]? = some p →
    p.loop = .serving a → setup.agent.Reachable a
  reports : ∀ (i : Nat) (p : AgentProcess), s.procs[i]? = some p → p.Reports

theorem HostState.Inv.started {s : HostState} (h : s.Inv setup) {p : AgentProcess}
    (hp : p = .connect ∨ p = .serviceRun) :
    ({ s with procs := s.procs ++ [p] } : HostState).Inv setup := by
  have habsent : p.loop = .absent := by rcases hp with rfl | rfl <;> rfl
  constructor
  · intro i q hq
    rcases Table.getElem?_concat hq with hq | ⟨-, rfl⟩
    · exact h.wellFormed i q hq
    · exact fun _ => habsent
  · intro i q hq
    rcases Table.getElem?_concat hq with hq | ⟨rfl, rfl⟩
    · exact h.lock i q hq
    · refine iff_of_false (by rw [AgentProcess.holds, habsent]; decide) fun hl => ?_
      exact Nat.lt_irrefl _ (h.known _ hl)
  · intro i hi
    rw [List.length_append]
    exact Nat.lt_add_right 1 (h.known i hi)
  · intro i q a hq ha
    rcases Table.getElem?_concat hq with hq | ⟨-, rfl⟩
    · exact h.agents i q a hq ha
    · rw [habsent] at ha
      cases ha
  · intro i q hq
    rcases Table.getElem?_concat hq with hq | ⟨-, rfl⟩
    · exact h.reports i q hq
    · have hstart : q.reported = [] ∧ q.main ≠ .registered ∧ q.main ≠ .waiting := by
        rcases hp with rfl | rfl <;> exact ⟨rfl, by decide, by decide⟩
      exact ⟨fun _ => hstart.1, fun hm => absurd hm (not_or.mpr hstart.2)⟩

theorem HostState.Inv.stepped {s : HostState} (h : s.Inv setup) {i : Nat} {p p' : AgentProcess}
    {pe : ProcessEvent} {use : LockUse} (hp : s.procs[i]? = some p)
    (hc : Can crates setup s.lock.isSome p pe use p') :
    (⟨use.apply i s.lock, s.procs.set i p'⟩ : HostState).Inv setup := by
  have hi : i < s.procs.length := (List.getElem?_eq_some_iff.mp hp).1
  have huse := AgentProcess.usesLock (h.wellFormed i p hp) hc
  constructor
  · intro j q hq
    rcases Table.getElem?_set hq with ⟨rfl, rfl⟩ | ⟨hne, hq⟩
    · exact AgentProcess.wellFormed_step (h.wellFormed j p hp) hc
    · exact h.wellFormed j q hq
  · intro j q hq
    rcases Table.getElem?_set hq with ⟨rfl, rfl⟩ | ⟨hne, hold⟩
    · cases use with
      | keep => exact (show q.holds = p.holds from huse) ▸ h.lock j p hp
      | take => exact iff_of_true huse.2 rfl
      | release =>
          refine iff_of_false (by rw [show q.holds = false from huse]; decide) ?_
          show ¬ (if s.lock = some j then none else s.lock) = some j
          split
          · exact fun he => by cases he
          · assumption
    · cases use with
      | keep => exact h.lock j q hold
      | take =>
          -- nobody had it
          have hfree : s.lock = none := by simpa using huse.1
          refine iff_of_false ?_ fun he => hne (Option.some.inj he).symm
          rw [h.lock j q hold, hfree]
          exact fun he => by cases he
      | release =>
          show q.holds = true ↔ (if s.lock = some i then none else s.lock) = some j
          rw [h.lock j q hold]
          split
          · rename_i hlock
            rw [hlock]
            exact iff_of_false (fun he => hne (Option.some.inj he).symm) fun he => by cases he
          · rfl
  · intro j hj
    rw [List.length_set]
    cases use with
    | keep => exact h.known j hj
    | take =>
        cases hj
        exact hi
    | release =>
        replace hj : (if s.lock = some i then none else s.lock) = some j := hj
        split at hj
        · cases hj
        · exact h.known j hj
  · intro j q a hq ha
    rcases Table.getElem?_set hq with ⟨rfl, rfl⟩ | ⟨hne, hq⟩
    · exact AgentProcess.serving_step hc (fun a => h.agents j p a hp) a ha
    · exact h.agents j q a hq ha
  · intro j q hq
    rcases Table.getElem?_set hq with ⟨rfl, rfl⟩ | ⟨hne, hq⟩
    · exact AgentProcess.reports_step (h.reports j p hp) hc
    · exact h.reports j q hq

theorem host_inv {s : HostState} (h : (hostProcesses crates setup).Reachable s) :
    s.Inv setup := by
  refine Machine.invariant (I := HostState.Inv setup) ?_ ?_ h
  · constructor
    · exact fun i p hp => by simp [hostProcesses] at hp
    · exact fun i p hp => by simp [hostProcesses] at hp
    · exact fun i hi => by cases hi
    · exact fun i p a hp => by simp [hostProcesses] at hp
    · exact fun i p hp => by simp [hostProcesses] at hp
  · intro s e s' _ hI hstep
    rcases host_step_cases hstep with ⟨-, rfl⟩ | ⟨p, hp, rfl⟩ | ⟨i, pe, p, use, p', -, hp, hc, rfl⟩
    · exact hI
    · exact hI.started (hp.imp And.right And.right)
    · exact hI.stepped hp hc

/-- Whatever processes are started, stopped and killed on a host, at most one has an
agent, so at most one is connected; the agent is in a state that an agent reaches; and
its process has the lock. -/
theorem one_agent_per_host (crates : Crates) (setup : Setup) (s : HostState)
    (h : (hostProcesses crates setup).Reachable s) (i j : Nat) (p q : AgentProcess)
    (a b : AgentState) (hp : s.procs[i]? = some p) (hq : s.procs[j]? = some q)
    (ha : p.loop = .serving a) (hb : q.loop = .serving b) :
    i = j ∧ a = b ∧ s.lock = some i ∧ setup.agent.Reachable a := by
  have hI := host_inv h
  have hi : s.lock = some i := (hI.lock i p hp).mp (by rw [AgentProcess.holds, ha]; rfl)
  have hj : s.lock = some j := (hI.lock j q hq).mp (by rw [AgentProcess.holds, hb]; rfl)
  obtain rfl : i = j := Option.some.inj (hi.symm.trans hj)
  obtain rfl : p = q := Option.some.inj (hp.symm.trans hq)
  rw [ha] at hb
  cases hb
  exact ⟨rfl, rfl, hi, hI.agents i p a hp ha⟩

/-! ## Stopping a service -/

/-- An event of the main thread of process `i`. -/
def OfMain (i : Nat) (e : HostEvent) : Prop :=
  (∃ config, e = .process i (.load config)) ∨ (∃ ok, e = .process i (.receive ok)) ∨
    e = .process i .kill

variable {r : (hostProcesses crates setup).Run} {i N : Nat}

/-- From `N` on the main thread of a service goes on where it can, its configuration can
be read and its state reported, and nobody kills the process. -/
structure Undisturbed (r : (hostProcesses crates setup).Run) (i N : Nat) : Prop where
  goes_on : ∀ (n : Nat) (p : AgentProcess), (r.state n).procs[i]? = some p →
    p.main = .registered ∨ p.main = .waiting ∧ 0 < p.stops → ∃ m, n ≤ m ∧ OfMain i (r.event m)
  loads : ∀ n, N ≤ n → r.event n ≠ .process i (.load none)
  reports : ∀ n, N ≤ n → r.event n ≠ .process i (.receive false)
  lives : ∀ n, N ≤ n → r.event n ≠ .process i .kill

theorem process_next {n : Nat} {p : AgentProcess} (hp : (r.state n).procs[i]? = some p) :
    (∃ pe use p', r.event n = .process i pe ∧
      Can crates setup (r.state n).lock.isSome p pe use p' ∧
      (r.state (n + 1)).procs[i]? = some p' ∧
      (r.state (n + 1)).lock = use.apply i (r.state n).lock) ∨
    (∀ pe, r.event n ≠ .process i pe) ∧ (r.state (n + 1)).procs[i]? = some p := by
  have hi : i < (r.state n).procs.length := (List.getElem?_eq_some_iff.mp hp).1
  have hnext := r.next n
  generalize r.state (n + 1) = s' at hnext ⊢
  generalize r.event n = e at hnext ⊢
  rcases host_step_cases hnext with ⟨rfl, hs⟩ | ⟨q, hq, rfl⟩ |
    ⟨j, pe, q, use, q', rfl, hq, hc, rfl⟩
  · exact .inr ⟨fun pe => HostEvent.noConfusion, hs ▸ hp⟩
  · right
    refine ⟨fun pe he => ?_, ?_⟩
    · rcases hq with ⟨rfl, -⟩ | ⟨rfl, -⟩ <;> cases he
    · exact Table.getElem?_concat_of_some hp
  · by_cases hij : j = i
    · subst hij
      obtain rfl : q = p := Option.some.inj (hq.symm.trans hp)
      exact .inl ⟨pe, use, q', rfl, hc, List.getElem?_set_self hi, rfl⟩
    · right
      refine ⟨fun pe' he => ?_, ?_⟩
      · cases he
        exact hij rfl
      · rw [List.getElem?_set_ne hij]
        exact hp

/-- The service is there, and has a stop to take. -/
def Told (i : Nat) (main : MainThread) (s : HostState) : Prop :=
  ∃ p : AgentProcess, s.procs[i]? = some p ∧ p.main = main ∧ 0 < p.stops

/-- It has reported that it runs and that it has stopped, and is gone. -/
def HasStopped (i : Nat) (s : HostState) : Prop :=
  ∃ p : AgentProcess, s.procs[i]? = some p ∧ p.main = .exited ∧
    p.reported = [.running, .stopped] ∧ s.lock ≠ some i

/-- Until its main thread does something a service that has been told keeps what it was
told. -/
theorem told_keeps {main : MainThread} (hm : main = .registered ∨ main = .waiting) (k : Nat)
    (ht : Told i main (r.state k)) (hnot : ¬ OfMain i (r.event k)) :
    Told i main (r.state (k + 1)) := by
  obtain ⟨p, hp, rfl, hs⟩ := ht
  rcases process_next hp with ⟨pe, use, p', he, hc, hp', -⟩ | ⟨-, hp'⟩
  · refine ⟨p', hp', ?_⟩
    cases hc with
    | kill => exact absurd (.inr (.inr he)) hnot
    | unread | loop | spawn | unconfigured => exact absurd (.inl ⟨_, he⟩) hnot
    | stop | unreported => exact absurd (.inr (.inl ⟨_, he⟩)) hnot
    | leave hm' | register hm' | unregistered hm' | ignored c hm' => simp [hm'] at hm
    | control c => exact ⟨rfl, Nat.lt_of_lt_of_le hs (Nat.le_add_right _ _)⟩
    | acquire | refused | begin | agent => exact ⟨rfl, hs⟩
  · exact ⟨p, hp', rfl, hs⟩

theorem registered_waits (h : Undisturbed r i N) :
    r.LeadsTo N (Told i .registered) (Told i .waiting) := by
  refine r.leadsTo_of_event (T := fun m => OfMain i (r.event m)) ?_ ?_ ?_
  · rintro n - ⟨p, hp, hm, -⟩
    exact h.goes_on n p hp (.inl hm)
  · exact fun k _ ht hnot => told_keeps (.inl rfl) k ht hnot
  · rintro k hk ⟨p, hp, hm, hs⟩ hmain
    rcases process_next hp with ⟨pe, use, p', he, hc, hp', -⟩ | ⟨hnone, -⟩
    · refine ⟨p', hp', ?_⟩
      cases hc with
      | kill => exact absurd he (h.lives k hk)
      | unread | unconfigured => exact absurd he (h.loads k hk)
      | spawn config => exact ⟨rfl, hs⟩
      | loop config hm' | stop hm' | unreported hm' =>
          rw [hm] at hm'
          cases hm'
      | leave | register | unregistered | control | ignored | acquire | refused | begin | agent =>
          rw [he] at hmain
          simp [OfMain] at hmain
    · rcases hmain with ⟨_, he⟩ | ⟨_, he⟩ | he
      · exact absurd he (hnone _)
      · exact absurd he (hnone _)
      · exact absurd he (hnone _)

theorem waiting_stops (h : Undisturbed r i N) :
    r.LeadsTo N (Told i .waiting) (HasStopped i) := by
  refine r.leadsTo_of_event (T := fun m => OfMain i (r.event m)) ?_ ?_ ?_
  · rintro n - ⟨p, hp, hm, hs⟩
    exact h.goes_on n p hp (.inr ⟨hm, hs⟩)
  · exact fun k _ ht hnot => told_keeps (.inr rfl) k ht hnot
  · rintro k hk ⟨p, hp, hm, hs⟩ hmain
    rcases process_next hp with ⟨pe, use, p', he, hc, hp', hlock⟩ | ⟨hnone, -⟩
    · have hreported := ((host_inv (r.reachable k)).reports i p hp).2 (.inr hm)
      cases hc with
      | kill => exact absurd he (h.lives k hk)
      | unread | unconfigured => exact absurd he (h.loads k hk)
      | unreported => exact absurd he (h.reports k hk)
      | stop =>
          refine ⟨_, hp', rfl, ?_, ?_⟩
          · show p.reported ++ [.stopped] = _
            rw [hreported]
            rfl
          · -- the handle has gone with the process
            rw [hlock]
            show ¬ (if _ then none else _) = some i
            split
            · exact fun he => nomatch he
            · assumption
      | loop config hm' | spawn config hm' =>
          rw [hm] at hm'
          cases hm'
      | leave | register | unregistered | control | ignored | acquire | refused | begin | agent =>
          rw [he] at hmain
          simp [OfMain] at hmain
    · rcases hmain with ⟨_, he⟩ | ⟨_, he⟩ | he
      · exact absurd he (hnone _)
      · exact absurd he (hnone _)
      · exact absurd he (hnone _)

/-- A service that has reported that it runs and is told to stop reports that it has
stopped, whatever its loop and the other processes do, and does not keep the lock. -/
theorem stop_honoured (crates : Crates) (setup : Setup) (r : (hostProcesses crates setup).Run)
    (i N : Nat) (h : Undisturbed r i N) (n : Nat) (hn : N ≤ n) (p : AgentProcess)
    (hp : (r.state n).procs[i]? = some p) (hm : p.main = .registered ∨ p.main = .waiting)
    (hs : 0 < p.stops) : ∃ m, n ≤ m ∧ HasStopped i (r.state m) := by
  rcases hm with hm | hm
  · exact (registered_waits h).trans (waiting_stops h) n hn ⟨p, hp, hm, hs⟩
  · exact waiting_stops h n hn ⟨p, hp, hm, hs⟩

def servedConfig : ExecutorConfig := sampleConfig "https://pki.example.com"

def servedCrates : Crates := knowing "https://pki.example.com" (sampleUrl "https" none)

def servedSetup : Setup := .reading unknownText unknownJson

/-- A service takes the lock and has an agent; a `connect` that is started beside it is
refused; the service is told to stop, and stops. -/
def servedEvents : List HostEvent :=
  [.serviceRun, .process 0 (.register true), .process 0 (.load (some servedConfig)),
    .process 0 (.acquire ⟨true, true⟩), .process 0 (.begin true), .connect,
    .process 1 (.load (some servedConfig)), .process 1 (.acquire ⟨true, true⟩),
    .process 0 (.control .stop), .process 0 (.receive true)]

def servedRun : (hostProcesses servedCrates servedSetup).Run :=
  .settling servedEvents .idle (by decide) fun _ => rfl

theorem one_agent_per_host_served :
    (servedRun.state 8).lock = some 0 ∧ servedSetup.agent.Reachable servedSetup.agent.init :=
  (one_agent_per_host servedCrates servedSetup _ (servedRun.reachable 8) 0 0 _ _ _ _
    rfl rfl rfl rfl).2.2

/-- The main thread of process 0 can go on. -/
def canGoOn (s : HostState) : Bool :=
  s.procs.head?.any fun p => p.main == .registered || p.main == .waiting && decide (0 < p.stops)

theorem servedRun_undisturbed : Undisturbed servedRun 0 0 := by
  have hevent : ∀ n, servedRun.event n ∈ servedEvents ∨ servedRun.event n = .idle := by
    intro n
    show servedEvents.getD n .idle ∈ servedEvents ∨ _
    rcases Nat.lt_or_ge n servedEvents.length with h | h
    · exact .inl (List.getD_eq_getElem _ _ h ▸ List.getElem_mem h)
    · exact .inr (List.getD_eq_default _ _ h)
  constructor
  · intro n p hp hgo
    have hn : canGoOn (servedRun.state n) = true := by
      rw [canGoOn, List.head?_eq_getElem?, hp]
      simpa using hgo
    have hnot : ∀ k, k ≤ 10 → k ≠ 2 → k ≠ 9 → canGoOn (servedRun.state k) = false := by decide
    have hcases : n = 2 ∨ n = 9 := by
      by_contra h
      rcases Nat.le_total n 10 with hle | hge
      · rw [hnot n hle (by omega) (by omega)] at hn
        cases hn
      · rw [show servedRun.state n = servedRun.state 10 from Machine.Run.settling_state hge,
          hnot 10 le_rfl (by decide) (by decide)] at hn
        cases hn
    rcases hcases with rfl | rfl
    · exact ⟨2, le_rfl, .inl ⟨_, rfl⟩⟩
    · exact ⟨9, le_rfl, .inr (.inl ⟨true, rfl⟩)⟩
  all_goals
    intro n _ he
    have h := hevent n
    rw [he] at h
    simp [servedEvents] at h

theorem stop_honoured_served : ∃ m, 9 ≤ m ∧ HasStopped 0 (servedRun.state m) :=
  stop_honoured servedCrates servedSetup servedRun 0 0 servedRun_undisturbed 9 (Nat.zero_le 9) _
    rfl (.inr rfl) (by decide)

end PkiExecutor
