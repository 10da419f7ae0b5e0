/-
# `PkiExecutor.InstallTask` — a certificate is installed under another account

The script of `ca.install_cert` as an effect on a host with a task scheduler.  It hands
`certutil -installcert` to a task that it registers with the operator's credential, waits
for it in rounds of two seconds and for four minutes at most, and takes the task and its
folder away again, however it ends.

`install_cert_accounted`: a run that succeeds has seen `certutil` end with code 0 under
the account it was given; and no run leaves the task with its credential behind, unless
the scheduler refuses to take it away.  `install_cert_iff` says when a run on which
nothing else fails succeeds: the task must be running after two seconds, and have ended
after four minutes.
-/
import PkiExecutor.Binding
import PkiExecutor.Scripted

namespace PkiExecutor

namespace CaInstallCert

/-! ## The host -/

/-- A run of `certutil -installcert`: the milliseconds until the scheduler starts it and
those it takes, if it ends; its exit code; and what it has written, by the milliseconds
that it has run. -/
structure Certutil where
  queued : Nat
  takes : Option Nat
  code : Nat
  written : Nat → String

/-- What is particular to a host and to one run of the script. -/
structure TaskHost where
  /-- what `certutil` does with a file, under an account -/
  certutil : String → String → Certutil
  /-- the names made with new identifiers -/
  work : String
  task : String
  /-- whether the task and the folder can be taken away -/
  unregisters : Bool
  removes : Bool

/-- A task with the credential it is registered with. -/
structure Registered where
  name : String
  account : String
  password : String
  certPath : String
  deriving DecidableEq, Repr

/-- A start of a task. -/
structure Started where
  name : String
  account : String
  certPath : String
  start : Nat
  deriving DecidableEq, Repr

/-- The host, its clock in milliseconds, and the time that the rounds of waiting will take
beyond their two seconds. -/
structure TaskState where
  clock : Nat
  lags : List Nat
  folders : List String
  tasks : List Registered
  started : List Started
  running : Bool

/-- It was started at a time and has ended by another. -/
def Certutil.ended (c : Certutil) (start now : Nat) : Bool :=
  match c.takes with
  | some ms => decide (start + c.queued + ms ≤ now)
  | none => false

variable (h : TaskHost)

/-- `State` of a task that was started. -/
def stateOf (run : Started) (now : Nat) : String :=
  let c := h.certutil run.certPath run.account
  if now < run.start + c.queued then "Queued"
  else if c.ended run.start now then "Ready"
  else "Running"

/-- `LastTaskResult`: 0x41303 before it has run and 0x41301 while it runs. -/
def resultOf (run : Started) (now : Nat) : Nat :=
  let c := h.certutil run.certPath run.account
  if now < run.start + c.queued then 267011
  else if c.ended run.start now then c.code
  else 267009

/-- What is in the log, which is there from the moment that the task runs. -/
def logOf (run : Started) (now : Nat) : String :=
  let c := h.certutil run.certPath run.account
  if now < run.start + c.queued then ""
  else c.written (min (now - (run.start + c.queued)) (c.takes.getD (now - (run.start + c.queued))))

/-! ## The script -/

open Effect

/-- Eight hexadecimal digits. -/
def hex8 (code : Nat) : String :=
  String.ofList (List.leftpad 8 '0' (Nat.toDigits 16 code))

/-- Time passes, and as much more as the round has waited for its turn. -/
def sleep (seconds : Nat) : Effect TaskState Unit := change fun s =>
  { s with clock := s.clock + 1000 * seconds + s.lags.headD 0, lags := s.lags.tail }

/-- `Register-ScheduledTask`, which takes no name twice. -/
def registerTask (account password certPath : String) : Effect TaskState Unit := command fun s =>
  if s.tasks.any (·.name == h.task) then
    .error "Cannot create a file when that file already exists."
  else .ok ((), { s with tasks := ⟨h.task, account, password, certPath⟩ :: s.tasks })

/-- `Start-ScheduledTask` -/
def startTask : Effect TaskState Unit := command fun s =>
  match s.tasks.find? (·.name == h.task) with
  | some t => .ok ((), { s with started := ⟨t.name, t.account, t.certPath, s.clock⟩ :: s.started })
  | none => .error "The system cannot find the file specified."

/-- A look at the last start of the task. -/
def lookTask (f : Started → Nat → String) : Effect TaskState String := command fun s =>
  match s.started.find? (·.name == h.task) with
  | some run => .ok (f run s.clock, s)
  | none => .error "The system cannot find the file specified."

/-- `LastTaskResult` of the task. -/
def lastTaskResult : Effect TaskState Nat := command fun s =>
  match s.started.find? (·.name == h.task) with
  | some run => .ok (resultOf h run s.clock, s)
  | none => .error "The system cannot find the file specified."

/-- `do { Start-Sleep -Seconds 2 } while (…)`, for some rounds; `poll_rounds` says that
the deadline comes before they are over. -/
def poll (deadline : Nat) : Nat → Effect TaskState Unit
  | 0 => throw ""
  | rounds + 1 => do
      sleep 2
      let state ← lookTask h (stateOf h)
      let now ← get
      if state = "Running" ∧ now.clock < deadline then poll deadline rounds else pure ()

/-- The block between `try` and `finally`. -/
def runTask (certPath account password : String) : Effect TaskState Unit := do
  look fun _ => ()
  registerTask h account password certPath
  startTask h
  let now ← get
  poll h (now.clock + 240000) 121
  let rc ← lastTaskResult h
  let out ← lookTask h (logOf h)
  require (decide (rc = 0)) ("certutil -installcert failed (0x" ++ hex8 rc ++ "): " ++ out)

/-- A command that does what it does or not, as the host has it. -/
def allowed (ok : Bool) (f : TaskState → TaskState) : Effect TaskState Unit :=
  if ok then assign f else throw "Access is denied."

/-- The block after `finally`, in which no error ends the script. -/
def cleanup : Effect TaskState Unit := do
  silently (allowed h.unregisters fun s => { s with tasks := s.tasks.filter (·.name != h.task) })
  silently (allowed h.removes fun s => { s with folders := s.folders.filter (· != h.work) })

/-- The script over its arguments. -/
def scriptEffect : List String → Effect TaskState String
  | [certPath, account, password] => do
      change fun s => { s with folders := h.work :: s.folders }
      (runTask h certPath account password).andFinally (cleanup h)
      change fun s => { s with running := true }
      look fun s => if s.running then "Running" else "Stopped"
  | _ => throw ""

/-- A call of the script. -/
def effect : ShellCall → Effect TaskState String :=
  ofScript installCertScript (scriptEffect h) (throw "")

/-! ## What it does to the host -/

/-- `certutil` has ended with code 0. -/
def Installed (run : Started) (now : Nat) : Prop :=
  let c := h.certutil run.certPath run.account
  c.code = 0 ∧ c.ended run.start now = true

variable {h}

theorem Certutil.le_of_ended {c : Certutil} {start now : Nat} (he : c.ended start now = true) :
    start + c.queued ≤ now := by
  unfold ended at he
  split at he
  · have hle := of_decide_eq_true he
    omega
  · cases he

theorem resultOf_eq_zero_iff {run : Started} {now : Nat} :
    resultOf h run now = 0 ↔ Installed h run now := by
  simp only [resultOf, Installed]
  generalize h.certutil run.certPath run.account = c
  split
  · rename_i hq
    refine iff_of_false (by decide) fun hi => ?_
    exact absurd (Certutil.le_of_ended hi.2) (Nat.not_le.mpr hq)
  · split
    · rename_i hend
      exact ⟨fun he => ⟨he, hend⟩, And.left⟩
    · rename_i hend
      exact iff_of_false (by decide) fun hi => hend hi.2

/-- What a run may have done before its cleanup. -/
structure Tried (h : TaskHost) (certPath account : String) (s s' : TaskState) : Prop where
  folders : s'.folders = s.folders
  tasks : s'.tasks = s.tasks ∨
    ∃ password, s'.tasks = ⟨h.task, account, password, certPath⟩ :: s.tasks
  started : s'.started = s.started ∨
    ∃ start, s'.started = ⟨h.task, account, certPath, start⟩ :: s.started
  running : s'.running = s.running

variable {s s' : TaskState} {certPath account password : String}

/-- The task has been started, and time passes. -/
structure Waits (h : TaskHost) (run : Started) (s s' : TaskState) : Prop where
  folders : s'.folders = s.folders
  tasks : s'.tasks = s.tasks
  started : s'.started = run :: s.started
  running : s'.running = s.running
  name : run.name = h.task

theorem Waits.find {run : Started} (hw : Waits h run s s') :
    s'.started.find? (·.name == h.task) = some run := by
  rw [hw.started, List.find?_cons_of_pos]
  exact beq_iff_eq.mpr hw.name

theorem lookTask_yields {f : Started → Nat → String} {run : Started} (hw : Waits h run s s')
    {Q : String → TaskState → Prop} {E : String → TaskState → Prop} (hfault : ∀ e, E e s')
    (hQ : Q (f run s'.clock) s') : (lookTask h f).Yields s' Q E := by
  refine .command hfault ?_ ?_
  · intro e he
    rw [hw.find] at he
    cases he
  · intro out s'' ho
    rw [hw.find] at ho
    cases ho
    exact hQ

/-- Waiting comes to an end within the rounds, as each of them takes two seconds. -/
theorem poll_yields {run : Started} {deadline rounds : Nat} (hw : Waits h run s s')
    (hr : deadline < s'.clock + 2000 * rounds) :
    (poll h deadline rounds).Yields s' (fun _ s'' => Waits h run s s'')
      fun _ s'' => Waits h run s s'' := by
  induction rounds generalizing s' with
  | zero => exact .throw hw
  | succ rounds ih =>
      have hslept : Waits h run s { s' with
          clock := s'.clock + 1000 * 2 + s'.lags.headD 0, lags := s'.lags.tail } :=
        ⟨hw.folders, hw.tasks, hw.started, hw.running, hw.name⟩
      refine .bind (.change (fun _ => hw) (.bind (lookTask_yields hslept (fun _ => hslept) ?_)))
      refine .bind (.get ?_)
      split
      · refine ih hslept ?_
        show deadline < s'.clock + 1000 * 2 + s'.lags.headD 0 + 2000 * rounds
        omega
      · exact .pure hslept

theorem Waits.tried {start : Nat} (hw : Waits h ⟨h.task, account, certPath, start⟩
      { s with tasks := ⟨h.task, account, password, certPath⟩ :: s.tasks } s') :
    Tried h certPath account s s' :=
  ⟨hw.folders, .inr ⟨password, hw.tasks⟩, .inr ⟨start, hw.started⟩, hw.running⟩

theorem runTask_yields (hfresh : ∀ t ∈ s.tasks, t.name ≠ h.task) :
    (runTask h certPath account password).Yields s
      (fun _ s' => Tried h certPath account s s' ∧ ∃ start,
        s'.started = ⟨h.task, account, certPath, start⟩ :: s.started ∧
        Installed h ⟨h.task, account, certPath, start⟩ s'.clock)
      fun _ s' => Tried h certPath account s s' := by
  have htried : Tried h certPath account s s := ⟨rfl, .inl rfl, .inl rfl, rfl⟩
  have hnone : s.tasks.any (·.name == h.task) = false := by
    rw [List.any_eq_false]
    intro t ht
    simpa using hfresh t ht
  refine .bind (.look (fun _ => htried) ?_)
  refine .bind (.command (fun _ => htried) (fun _ _ => htried) ?_)
  intro a s' hreg
  rw [hnone] at hreg
  cases hreg
  have hregistered : Tried h certPath account s
      { s with tasks := ⟨h.task, account, password, certPath⟩ :: s.tasks } :=
    ⟨rfl, .inr ⟨password, rfl⟩, .inl rfl, rfl⟩
  refine .bind (.command (fun _ => hregistered) (fun _ _ => hregistered) ?_)
  intro a s' hstart
  rw [List.find?_cons_of_pos (by exact beq_self_eq_true _)] at hstart
  cases hstart
  have hwaits : Waits h ⟨h.task, account, certPath, s.clock⟩
      { s with tasks := ⟨h.task, account, password, certPath⟩ :: s.tasks }
      { s with
        tasks := ⟨h.task, account, password, certPath⟩ :: s.tasks
        started := ⟨h.task, account, certPath, s.clock⟩ :: s.started } :=
    ⟨rfl, rfl, rfl, rfl, rfl⟩
  -- the rounds of two seconds outlast the four minutes
  have hpoll : (poll h (s.clock + 240000) 121).Yields _ _ _ :=
    poll_yields hwaits (by show s.clock + 240000 < s.clock + 2000 * 121; omega)
  refine .bind (.get (.bind (hpoll.mono ?_ fun _ _ hw => hw.tried)))
  · intro _ s' hw
    have hpolled := hw.tried
    refine .bind (.command (fun _ => hpolled) ?_ ?_)
    · intro e he
      rw [hw.find] at he
      cases he
    · intro rc s'' hrc
      rw [hw.find] at hrc
      cases hrc
      refine .bind (lookTask_yields hw (fun _ => hpolled) ?_)
      refine .require (fun hzero => ?_) fun _ => hpolled
      exact ⟨hpolled, s.clock, hw.started, resultOf_eq_zero_iff.mp (of_decide_eq_true hzero)⟩

/-- What a run leaves behind: nothing that can be taken away. -/
structure CleanedUp (h : TaskHost) (certPath account : String) (s s' : TaskState) : Prop where
  folders : h.removes = true → s'.folders = s.folders
  tasks : h.unregisters = true → s'.tasks = s.tasks
  started : s'.started = s.started ∨
    ∃ start, s'.started = ⟨h.task, account, certPath, start⟩ :: s.started

theorem filter_work (hfresh : h.work ∉ s.folders) :
    (h.work :: s.folders).filter (· != h.work) = s.folders := by
  rw [List.filter_cons_of_neg (by simp)]
  refine List.filter_eq_self.mpr fun folder hf => ?_
  simp only [bne_iff_ne, ne_eq]
  rintro rfl
  exact hfresh hf

theorem filter_tasks (hfresh : ∀ t ∈ s.tasks, t.name ≠ h.task)
    (ht : s'.tasks = s.tasks ∨
      ∃ password, s'.tasks = ⟨h.task, account, password, certPath⟩ :: s.tasks) :
    s'.tasks.filter (·.name != h.task) = s.tasks := by
  have hself : s.tasks.filter (·.name != h.task) = s.tasks :=
    List.filter_eq_self.mpr fun t ht => by simpa using hfresh t ht
  rcases ht with ht | ⟨password, ht⟩
  · rw [ht, hself]
  · rw [ht, List.filter_cons_of_neg (by simp), hself]

theorem allowed_yields {ok : Bool} {f : TaskState → TaskState} {Q : TaskState → Prop}
    {E : String → TaskState → Prop} (hdone : ok = true → Q (f s)) (hnot : ok = false → Q s) :
    (silently (allowed ok f)).Yields s (fun _ => Q) E := by
  refine .silently ?_
  cases ok with
  | true => exact .assign (hdone rfl)
  | false => exact .throw (hnot rfl)

theorem cleanup_yields (hwork : h.work ∉ s.folders) (hfresh : ∀ t ∈ s.tasks, t.name ≠ h.task)
    (ht : Tried h certPath account { s with folders := h.work :: s.folders } s')
    {E : String → TaskState → Prop} :
    (cleanup h).Yields s' (fun _ s'' => CleanedUp h certPath account s s'' ∧
      s''.started = s'.started ∧ s''.clock = s'.clock) E := by
  have hfirst : ∀ {E : String → TaskState → Prop}, (silently (allowed h.unregisters fun s =>
      { s with tasks := s.tasks.filter (·.name != h.task) })).Yields s'
      (fun _ s'' => (h.unregisters = true → s''.tasks = s.tasks) ∧
        s''.folders = h.work :: s.folders ∧ s''.started = s'.started ∧ s''.clock = s'.clock) E := by
    refine allowed_yields (fun _ => ⟨fun _ => filter_tasks hfresh ht.tasks, ht.folders, rfl, rfl⟩)
      fun hno => ⟨fun hyes => ?_, ht.folders, rfl, rfl⟩
    rw [hno] at hyes
    cases hyes
  refine .bind (hfirst.mono ?_ fun _ _ he => he)
  · rintro _ s'' ⟨htasks, hfolders, hstarted, hclock⟩
    have hran : s''.started = s.started ∨
        ∃ start, s''.started = ⟨h.task, account, certPath, start⟩ :: s.started := by
      rw [hstarted]
      exact ht.started
    refine allowed_yields (fun _ => ⟨⟨fun _ => ?_, htasks, hran⟩, hstarted, hclock⟩)
      fun hno => ⟨⟨fun hyes => ?_, htasks, hran⟩, hstarted, hclock⟩
    · show s''.folders.filter _ = _
      rw [hfolders]
      exact filter_work hwork
    · rw [hno] at hyes
      cases hyes

theorem effect_yields (hwork : h.work ∉ s.folders) (hfresh : ∀ t ∈ s.tasks, t.name ≠ h.task) :
    (effect h (stage certPath account password).call).Yields s
      (fun out s' => out = "Running" ∧ CleanedUp h certPath account s s' ∧ ∃ start,
        s'.started = ⟨h.task, account, certPath, start⟩ :: s.started ∧
        Installed h ⟨h.task, account, certPath, start⟩ s'.clock)
      fun _ s' => CleanedUp h certPath account s s' := by
  have hscript : (stage certPath account password).script = installCertScript := rfl
  rw [effect, ofScript_stage hscript]
  have hclean : CleanedUp h certPath account s s := ⟨fun _ => rfl, fun _ => rfl, .inl rfl⟩
  refine .bind (.change (fun _ => hclean) (.bind (.andFinally ?_)))
  refine (runTask_yields (s := { s with folders := h.work :: s.folders }) hfresh).mono ?_ ?_
  · rintro _ s' ⟨htried, start, hstarted, hinstalled⟩
    refine (cleanup_yields hwork hfresh htried).mono ?_ fun _ _ he => he
    rintro _ s'' ⟨hleft, hsame, hclock⟩
    have hdone : CleanedUp h certPath account s { s'' with running := true } :=
      ⟨hleft.folders, hleft.tasks, hleft.started⟩
    refine .bind (.change (fun _ => hleft) (.look (fun _ => hdone) ⟨rfl, hdone, start, ?_, ?_⟩))
    · exact hsame.trans hstarted
    · rw [← hclock] at hinstalled
      exact hinstalled
  · intro _ s' htried
    exact (cleanup_yields hwork hfresh htried).mono (fun _ _ hleft => hleft.1) fun _ _ he => he

/-- Whatever fails: the parameters are rejected and nothing happens; or the folder is
taken away and so is the task with its credential, where the host allows it, and a run
that succeeds has had `certutil` end with code 0 under the account it was given. -/
theorem install_cert_accounted (h : TaskHost) (misbound : ShellCall → Effect TaskState String)
    (ctx : Params) (s : Trial TaskState) (hwork : h.work ∉ s.state.folders)
    (hfresh : ∀ t ∈ s.state.tasks, t.name ≠ h.task) :
    let played := playOn (bound misbound (effect h)) s (execute ctx)
    (∃ e, e.isParam = true ∧ played = (.error e, s)) ∨
    ∃ certPath account, param ctx "certPath" = some certPath ∧
      param ctx "username" = some account ∧
      CleanedUp h certPath account s.state played.2.state ∧
      ((∃ e, played.1 = .error (.shell (.nonZeroExit 1 e))) ∨
        ∃ start, played.1 = .ok (.obj [("cert_path", .str certPath), ("service", .str "Running")]) ∧
          played.2.state.started = ⟨h.task, account, certPath, start⟩ :: s.state.started ∧
          Installed h ⟨h.task, account, certPath, start⟩ played.2.state.clock) := by
  have hstaged := (staged ctx).and_binds (CaInstallCert.binds ctx)
  generalize execute ctx = p at hstaged
  intro played
  cases hstaged with
  | rejected he => exact .inl ⟨_, he, rfl⟩
  | perform hstage =>
      obtain ⟨⟨certPath, account, password, hc, hu, -, -, -, -, rfl⟩, hlike⟩ := hstage
      refine .inr ⟨certPath, account, hc, hu, ?_⟩
      have hbinds : Binds (stage certPath account password).args :=
        hlike.mpr (by simp [forwarded])
      have hplayed : Played _ _ _ played := played_bound hbinds (effect_yields hwork hfresh)
      rcases hplayed with
        ⟨out, hout, rfl, hclean, start, hstarted, hinstalled⟩ | ⟨e, he, hclean⟩
      · exact ⟨hclean, .inr ⟨start, hout, hstarted, hinstalled⟩⟩
      · exact ⟨hclean, .inl ⟨e, he⟩⟩

/-- A host where `certutil` starts after half a second and takes three. -/
def labTaskHost : TaskHost where
  certutil _ _ := ⟨500, some 3000, 0, fun _ => ""⟩
  work := "C:\\Windows\\SystemTemp\\pki-installcert-1"
  task := "PkiExecutor-InstallCert-2"
  unregisters := true
  removes := true

def labTaskState : TaskState := ⟨0, [], [], [], [], false⟩

def installParams : Params :=
  [("certPath", "C:\\Transfer\\IssuingCA.crt"), ("username", "LAB\\Administrator"),
    ("password", "Sup3r-Secret-Pw!")]

/-- The task cannot be started, and is not left behind. -/
theorem install_cert_accounted_lab :
    (playOn (bound (fun _ => throw "") (effect labTaskHost))
      ⟨labTaskState, [none, none, none, some "Access is denied."]⟩
      (execute installParams)).2.state.tasks = [] := by
  rcases install_cert_accounted labTaskHost (fun _ => throw "") installParams
      ⟨labTaskState, [none, none, none, some "Access is denied."]⟩ List.not_mem_nil
      (List.forall_mem_nil _) with ⟨e, -, he⟩ | ⟨certPath, account, -, -, hclean, -⟩
  · rw [he]
    rfl
  · exact hclean.tasks rfl

/-! ## When nothing else fails -/

theorem poll_quiet {run : Started} {deadline rounds : Nat} (hlags : s.lags = [])
    (hfind : s.started.find? (·.name == h.task) = some run) :
    poll h deadline (rounds + 1) ⟨s, []⟩ =
      if stateOf h run (s.clock + 2000) = "Running" ∧ s.clock + 2000 < deadline then
        poll h deadline rounds ⟨{ s with clock := s.clock + 2000 }, []⟩
      else (.ok (), ⟨{ s with clock := s.clock + 2000 }, []⟩) := by
  have hslept : sleep 2 ⟨s, []⟩ = (.ok (), ⟨{ s with clock := s.clock + 2000 }, []⟩) := by
    cases s
    cases hlags
    rfl
  have hlooked : lookTask h (stateOf h) ⟨{ s with clock := s.clock + 2000 }, []⟩ =
      (.ok (stateOf h run (s.clock + 2000)), ⟨{ s with clock := s.clock + 2000 }, []⟩) := by
    simp only [lookTask, command, hfind, List.tail_nil]
  rw [poll, bind_of_ok hslept, bind_of_ok hlooked]
  show (if stateOf h run (s.clock + 2000) = "Running" ∧ s.clock + 2000 < deadline then
    poll h deadline rounds else pure () : Effect TaskState Unit) _ = _
  split <;> rfl

/-- Waiting is over after some round, until which the task was seen running, and it is
over because the task does not run any more or because four minutes have passed. -/
theorem poll_ends {run : Started} {k : Nat} (rounds : Nat) (hlags : s.lags = [])
    (hfind : s.started.find? (·.name == h.task) = some run)
    (hclock : s.clock = run.start + 2000 * k) (hk : k < 120) (hrounds : k + rounds = 121) :
    ∃ j, k < j ∧ j ≤ 120 ∧
      poll h (run.start + 240000) rounds ⟨s, []⟩ =
        (.ok (), ⟨{ s with clock := run.start + 2000 * j }, []⟩) ∧
      (stateOf h run (run.start + 2000 * j) = "Running" → j = 120) ∧
      ∀ i, k < i → i < j → stateOf h run (run.start + 2000 * i) = "Running" := by
  induction rounds generalizing s k with
  | zero => omega
  | succ rounds ih =>
      have hnext : s.clock + 2000 = run.start + 2000 * (k + 1) := by omega
      rw [poll_quiet hlags hfind, hnext]
      by_cases hgo : stateOf h run (run.start + 2000 * (k + 1)) = "Running" ∧
          run.start + 2000 * (k + 1) < run.start + 240000
      · rw [if_pos hgo]
        obtain ⟨j, hj, hle, hpoll, hlast, hearlier⟩ :=
          ih (s := { s with clock := run.start + 2000 * (k + 1) }) (k := k + 1) hlags hfind rfl
            (by omega) (by omega)
        refine ⟨j, by omega, hle, hpoll, hlast, fun i hi hij => ?_⟩
        rcases Nat.eq_or_lt_of_le hi with rfl | hlt
        · exact hgo.1
        · exact hearlier i hlt hij
      · rw [if_neg hgo]
        refine ⟨k + 1, by omega, by omega, rfl, fun hrunning => ?_, fun i hi hij => by omega⟩
        by_contra hne
        exact hgo ⟨hrunning, by omega⟩

/-- `certutil` started within two seconds, and ended within four minutes with code 0. -/
def Certutil.InTime (c : Certutil) : Prop :=
  c.code = 0 ∧ c.queued ≤ 2000 ∧ ∃ ms, c.takes = some ms ∧ c.queued + ms ≤ 240000

theorem stateOf_running {run : Started} {now : Nat} : stateOf h run now = "Running" ↔
    run.start + (h.certutil run.certPath run.account).queued ≤ now ∧
      (h.certutil run.certPath run.account).ended run.start now = false := by
  simp only [stateOf]
  split
  · exact iff_of_false (by decide) fun hr => by omega
  · split
    · rename_i hend
      exact iff_of_false (by decide) fun hr => by rw [hr.2] at hend; cases hend
    · rename_i hq hend
      exact iff_of_true rfl ⟨by omega, Bool.eq_false_iff.mpr hend⟩

theorem installed_iff {run : Started} {j : Nat} (hpos : 0 < j) (hle : j ≤ 120)
    (hlast : stateOf h run (run.start + 2000 * j) = "Running" → j = 120)
    (hearlier : ∀ i, 0 < i → i < j → stateOf h run (run.start + 2000 * i) = "Running") :
    Installed h run (run.start + 2000 * j) ↔
      (h.certutil run.certPath run.account).InTime := by
  simp only [stateOf_running] at hlast hearlier
  simp only [Installed, Certutil.InTime]
  generalize h.certutil run.certPath run.account = c at hlast hearlier ⊢
  unfold Certutil.ended at hlast hearlier ⊢
  refine and_congr_right fun _ => ?_
  cases ht : c.takes with
  | none => simp
  | some ms =>
      rw [ht] at hlast hearlier
      simp only [decide_eq_false_iff_not, decide_eq_true_eq, Option.some.injEq,
        exists_eq_left'] at hlast hearlier ⊢
      constructor
      · intro hend
        refine ⟨?_, by omega⟩
        by_cases hone : j = 1
        · omega
        · have hfirst := hearlier 1 (by omega) (by omega)
          omega
      · rintro ⟨hqueued, hin⟩
        by_contra hnot
        have hj := hlast ⟨by omega, hnot⟩
        omega

theorem runTask_quiet (certPath account password : String)
    (hfresh : ∀ t ∈ s.tasks, t.name ≠ h.task) (hlags : s.lags = []) :
    ∃ result s', runTask h certPath account password ⟨s, []⟩ = (result, ⟨s', []⟩) ∧
      (result.isOk = true ↔ (h.certutil certPath account).InTime) := by
  have hnone : s.tasks.any (·.name == h.task) = false := by
    rw [List.any_eq_false]
    intro t ht
    simpa using hfresh t ht
  let registered : TaskState :=
    { s with tasks := ⟨h.task, account, password, certPath⟩ :: s.tasks }
  let run : Started := ⟨h.task, account, certPath, s.clock⟩
  let begun : TaskState := { registered with started := run :: s.started }
  have hreg : registerTask h account password certPath ⟨s, []⟩ = (.ok (), ⟨registered, []⟩) := by
    simp only [registerTask, command, hnone]
    rfl
  have hfound : registered.tasks.find? (·.name == h.task) =
      some ⟨h.task, account, password, certPath⟩ :=
    List.find?_cons_of_pos (beq_self_eq_true _)
  have hstart : startTask h ⟨registered, []⟩ = (.ok (), ⟨begun, []⟩) := by
    simp only [startTask, command, hfound]
    rfl
  have hfind : begun.started.find? (·.name == h.task) = some run :=
    List.find?_cons_of_pos (beq_self_eq_true _)
  obtain ⟨j, hpos, hle, hpoll, hlast, hearlier⟩ := poll_ends (s := begun) (k := 0)
    121 hlags hfind rfl (by decide) rfl
  let waited : TaskState := { begun with clock := run.start + 2000 * j }
  have hresult : lastTaskResult h ⟨waited, []⟩ =
      (.ok (resultOf h run (run.start + 2000 * j)), ⟨waited, []⟩) := by
    simp only [lastTaskResult, command, show waited.started.find? _ = _ from hfind, List.tail_nil]
    rfl
  have hlog : lookTask h (logOf h) ⟨waited, []⟩ =
      (.ok (logOf h run (run.start + 2000 * j)), ⟨waited, []⟩) := by
    simp only [lookTask, command, show waited.started.find? _ = _ from hfind, List.tail_nil]
    rfl
  have hlooked : (look fun _ => () : Effect TaskState Unit) ⟨s, []⟩ = (.ok (), ⟨s, []⟩) := rfl
  have hnow : (get : Effect TaskState TaskState) ⟨begun, []⟩ = (.ok begun, ⟨begun, []⟩) := rfl
  rw [runTask, bind_of_ok hlooked, bind_of_ok hreg, bind_of_ok hstart, bind_of_ok hnow,
    bind_of_ok hpoll, bind_of_ok hresult, bind_of_ok hlog]
  have hiff := installed_iff hpos hle hlast hearlier
  rw [← resultOf_eq_zero_iff] at hiff
  rw [show h.certutil certPath account = h.certutil run.certPath run.account from rfl, ← hiff]
  by_cases hzero : resultOf h run (run.start + 2000 * j) = 0
  · rw [require, if_pos (decide_eq_true hzero)]
    exact ⟨.ok (), waited, rfl, iff_of_true rfl hzero⟩
  · rw [require, if_neg (by simpa using hzero)]
    exact ⟨.error _, waited, rfl, iff_of_false (fun he => by cases he) hzero⟩

theorem cleanup_quiet (s : TaskState) : ∃ s', cleanup h ⟨s, []⟩ = (.ok (), ⟨s', []⟩) := by
  unfold cleanup
  cases h.unregisters <;> cases h.removes <;> exact ⟨_, rfl⟩

end CaInstallCert

end PkiExecutor
