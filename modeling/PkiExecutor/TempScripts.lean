/-
# `PkiExecutor.TempScripts` — the script files of the handler threads

A shell call is more than one step (`RealPowerShell::run`, `RealPosixShell::run` in
`powershell.rs`).  It makes a file in the temporary directory under a name that is free,
writes the script, closes the file, starts the interpreter over its path and waits; and
however it returns, the file is removed.  The handler threads do this at the same time,
in one directory, into which other programs write as well.

The machine is the agent with its threads' calls, step by step.  `scripts_isolated`: what
an interpreter finds at its path is the whole script of the call it was started for, and
that call is the one its thread is waiting for; and of the agent's files the directory
has those of the calls that are going on, and any that could not be removed.
-/
import PkiExecutor.Lib.Owned
import PkiExecutor.Lib.Str
import PkiExecutor.Lib.Table
import PkiExecutor.PhoneHome.Agent

namespace PkiExecutor

/-! ## The shells -/

/-- The two executors. -/
inductive ShellKind
  | powerShell
  | posix
  deriving DecidableEq, Repr

/-- A shell by its binary. -/
structure Shell where
  kind : ShellKind
  binary : String
  deriving DecidableEq, Repr

namespace Shell

/-- `Path::file_name` of a Linux path. -/
def fileName (path : String) : Option String :=
  match ((Str.split path '/').filter fun part => part != "" && part != ".").getLast? with
  | some name => if name = ".." then none else some name
  | none => none

/-- `Path::file_stem`: the name without what follows its last dot, unless that is the
first character. -/
def fileStem (path : String) : Option String :=
  (fileName path).map fun name =>
    let stem := Str.join "." (Str.split name '.').dropLast
    if stem = "" then name else stem

/-- `build_shell` on Linux. -/
def buildShell (binary : String) : Shell :=
  let stem := Str.toAsciiLowercase ((fileStem binary).getD binary)
  ⟨if stem = "powershell" ∨ stem = "pwsh" then .powerShell else .posix, binary⟩

/-- The ending of a script's name. -/
def suffix (s : Shell) : String :=
  match s.kind with
  | .powerShell => ".ps1"
  | .posix => ".sh"

/-- What the binary is started with. -/
def args (s : Shell) (path : String) (args : List String) : List String :=
  match s.kind with
  | .powerShell => RealPowerShell.args path args
  | .posix => RealPosixShell.args path args

end Shell

example : (Shell.buildShell "/opt/microsoft/powershell/7/pwsh").kind = .powerShell := by decide

/-! ## A call -/

/-- Where a `run` stands. -/
inductive RunAt
  | entered
  /-- so many characters of the script are in its file -/
  | writing (path : String) (written : Nat)
  /-- the file is closed, and there until the path is dropped -/
  | closed (path : String)
  | waiting (path : String)
  | returned (reply : ShellReply)
  /-- its thread has gone on with the reply -/
  | ended

/-- A `run` that a thread has called: the arguments its interpreter was started with, and
what it has found at the path each time it looked. -/
structure ScriptRun where
  thread : Nat
  call : ShellCall
  stage : RunAt
  handed : Option (List String)
  found : List (Option (List Char))

namespace ScriptRun

/-- The call has returned to its thread. -/
def ended (r : ScriptRun) : Bool :=
  match r.stage with
  | .ended => true
  | _ => false

/-- Its file, and what is in it. -/
def file (r : ScriptRun) : Option (String × List Char) :=
  match r.stage with
  | .writing path written => some (path, r.call.script.toList.take written)
  | .closed path => some (path, r.call.script.toList)
  | .waiting path => some (path, r.call.script.toList)
  | _ => none

/-- The call's file is at the path. -/
def uses (r : ScriptRun) (path : String) : Bool := r.file.map Prod.fst == some path

end ScriptRun

/-- The steps of a call, with what may become of each. -/
inductive RunEvent
  /-- the file has been made under a random name, if it can be -/
  | create (random : Except String String)
  /-- so many more characters have been written, if they can be -/
  | write (count : Except String Nat) (removed : Bool)
  | close
  | spawn (ok : Except String Unit) (removed : Bool)
  /-- the interpreter looks at its path -/
  | read
  | exit (stdout stderr : String) (code : Option Int) (removed : Bool)
  /-- the thread goes on -/
  | resume

/-! ## The threads at work -/

/-- What is the same for all calls. -/
structure Workplace where
  setup : Setup
  shell : Shell
  tempDir : String

/-- The agent, the directory of its temporary files, and its calls. -/
structure WorkState where
  agent : AgentState
  dir : String → Option (List Char)
  /-- the calls in the order they were made -/
  runs : List ScriptRun
  /-- what other programs have left in the directory -/
  others : String → Option (List Char)
  /-- the agent's files that could not be removed -/
  kept : List String

/-- What can happen: the agent's steps, those of its calls, and others in the directory. -/
inductive WorkEvent
  | loop (e : LoopEvent)
  /-- thread `i` reports -/
  | tell (i : Nat)
  /-- thread `i` calls the shell -/
  | call (i : Nat)
  | run (j : Nat) (e : RunEvent)
  /-- another program leaves something at a path that the agent does not use, or nothing -/
  | other (path : String) (content : Option (List Char))

namespace WorkState

/-- A call takes its next stage. -/
def advance (s : WorkState) (j : Nat) (r : ScriptRun) : WorkState :=
  { s with runs := s.runs.set j r }

/-- Call `j` returns, and its file is removed where it can be. -/
def giveBack (s : WorkState) (j : Nat) (r : ScriptRun) (path : String) (removed : Bool)
    (reply : ShellReply) : WorkState :=
  let s := s.advance j { r with stage := .returned reply }
  if removed then { s with dir := Function.update s.dir path none }
  else { s with kept := path :: s.kept }

end WorkState

namespace Workplace

variable (w : Workplace)

/-- The path of a temporary script. -/
def scriptPath (random : String) : String :=
  w.tempDir ++ "/pki-executor-" ++ random ++ w.shell.suffix

/-- One step of call `j`. -/
def stepRun (s : WorkState) (j : Nat) (r : ScriptRun) : RunEvent → RunAt → Option WorkState
  | .create (.ok random), .entered =>
      -- a name that is taken is not used
      if (s.dir (w.scriptPath random)).isSome then none
      else some { s.advance j { r with stage := .writing (w.scriptPath random) 0 } with
        dir := Function.update s.dir (w.scriptPath random) (some []) }
  | .create (.error source), .entered =>
      some (s.advance j { r with stage := .returned (.error (.tempScript source)) })
  | .write (.ok count) _, .writing path written =>
      if written + count ≤ r.call.script.toList.length then
        some { s.advance j { r with stage := .writing path (written + count) } with
          dir := Function.update s.dir path
            ((s.dir path).map (· ++ (r.call.script.toList.drop written).take count)) }
      else none
  | .write (.error source) removed, .writing path _ =>
      some (s.giveBack j r path removed (.error (.tempScript source)))
  | .close, .writing path written =>
      if written = r.call.script.toList.length then
        some (s.advance j { r with stage := .closed path })
      else none
  | .spawn (.ok _) _, .closed path =>
      some (s.advance j
        { r with stage := .waiting path, handed := some (w.shell.args path r.call.args) })
  | .spawn (.error source) removed, .closed path =>
      some (s.giveBack j r path removed (.error (.spawn w.shell.binary source)))
  | .read, .waiting path => some (s.advance j { r with found := r.found ++ [s.dir path] })
  | .exit stdout stderr code removed, .waiting path =>
      some (s.giveBack j r path removed (.ok ⟨stdout, stderr, code.getD (-1)⟩))
  | .resume, .returned reply =>
      (w.setup.step s.agent (.thread r.thread reply)).map fun agent =>
        { s.advance j { r with stage := .ended } with agent }
  | _, _ => none

/-- One event at the workplace. -/
def step (s : WorkState) : WorkEvent → Option WorkState
  | .loop e => (w.setup.step s.agent (.loop e)).map fun agent => { s with agent }
  | .tell i =>
      match s.agent.threads[i]? with
      | some (.tell _ _) =>
          (w.setup.step s.agent (.thread i (.ok ⟨"", "", 0⟩))).map fun agent => { s with agent }
      | _ => none
  | .call i =>
      match s.agent.threads[i]? with
      | some (.ask call _) =>
          if s.runs.any fun r => r.thread == i && !r.ended then none
          else some { s with runs := s.runs ++ [⟨i, call, .entered, none, []⟩] }
      | _ => none
  | .run j e => s.runs[j]?.bind fun r => w.stepRun s j r e r.stage
  | .other path content =>
      if s.runs.any (·.uses path) then none
      else some { s with
        dir := Function.update s.dir path content
        others := Function.update s.others path content
        kept := s.kept.filter (· ≠ path) }

/-- The agent with its shell calls; the directory is as the others have left it. -/
def machine (dir : String → Option (List Char)) : Machine WorkState WorkEvent :=
  ⟨⟨⟨.initial, []⟩, dir, [], dir, []⟩, w.step⟩

end Workplace

variable {w : Workplace} {dir : String → Option (List Char)}

/-! ## What a step is -/

/-- What a step of a call is: it goes on without its file, makes it, writes to it, gives
it back, or goes over to its thread. -/
inductive CallStep (w : Workplace) (s : WorkState) (j : Nat) (r : ScriptRun) : WorkState → Prop
  | unmade (source : String) (hs : r.stage = .entered) :
      CallStep w s j r (s.advance j { r with stage := .returned (.error (.tempScript source)) })
  | create (path : String) (hs : r.stage = .entered) (hfree : s.dir path = none) :
      CallStep w s j r { s.advance j { r with stage := .writing path 0 } with
        dir := Function.update s.dir path (some []) }
  | write (path : String) (written count : Nat) (hs : r.stage = .writing path written) :
      CallStep w s j r { s.advance j { r with stage := .writing path (written + count) } with
        dir := Function.update s.dir path
          ((s.dir path).map (· ++ (r.call.script.toList.drop written).take count)) }
  | close (path : String) (hs : r.stage = .writing path r.call.script.toList.length) :
      CallStep w s j r (s.advance j { r with stage := .closed path })
  | spawn (path : String) (hs : r.stage = .closed path) :
      CallStep w s j r (s.advance j
        { r with stage := .waiting path, handed := some (w.shell.args path r.call.args) })
  | read (path : String) (hs : r.stage = .waiting path) :
      CallStep w s j r (s.advance j { r with found := r.found ++ [s.dir path] })
  | giveBack (path : String) (content : List Char) (removed : Bool) (reply : ShellReply)
      (hs : r.file = some (path, content)) :
      CallStep w s j r (s.giveBack j r path removed reply)
  | resume (reply : ShellReply) (agent : AgentState) (hs : r.stage = .returned reply)
      (ha : w.setup.step s.agent (.thread r.thread reply) = some agent) :
      CallStep w s j r { s.advance j { r with stage := .ended } with agent }

theorem stepRun_cases {s s' : WorkState} {j : Nat} {r : ScriptRun} {e : RunEvent} {at' : RunAt}
    (hat : r.stage = at') (h : w.stepRun s j r e at' = some s') : CallStep w s j r s' := by
  unfold Workplace.stepRun at h
  split at h
  · split at h
    · cases h
    · rename_i hfree
      cases h
      exact .create _ hat (by simpa using hfree)
  · cases h
    exact .unmade _ hat
  · split at h
    · cases h
      exact .write _ _ _ hat
    · cases h
  · cases h
    exact .giveBack _ _ _ _ (by rw [ScriptRun.file, hat])
  · split at h
    · rename_i hall
      cases h
      exact .close _ (hall ▸ hat)
    · cases h
  · cases h
    exact .spawn _ hat
  · cases h
    exact .giveBack _ _ _ _ (by rw [ScriptRun.file, hat])
  · cases h
    exact .read _ hat
  · cases h
    exact .giveBack _ _ _ _ (by rw [ScriptRun.file, hat])
  · obtain ⟨agent, ha, rfl⟩ := Option.map_eq_some_iff.mp h
    exact .resume _ _ hat ha
  · cases h

/-! ## Whose files and whose calls -/

/-- The files of the calls. -/
def filesOf (runs : List ScriptRun) (j : Nat) : Option (String × List Char) :=
  runs[j]?.bind ScriptRun.file

theorem filesOf_set {runs : List ScriptRun} {j : Nat} {r : ScriptRun} (hr : runs[j]? = some r)
    (r' : ScriptRun) : filesOf (runs.set j r') = Function.update (filesOf runs) j r'.file := by
  have hj : j < runs.length := (List.getElem?_eq_some_iff.mp hr).1
  funext k
  by_cases hk : k = j
  · subst hk
    rw [Function.update_self, filesOf, List.getElem?_set_self hj]
    rfl
  · rw [Function.update_of_ne hk, filesOf, List.getElem?_set_ne (Ne.symm hk)]
    rfl

theorem filesOf_set_same {runs : List ScriptRun} {j : Nat} {r r' : ScriptRun}
    (hr : runs[j]? = some r) (hfile : r'.file = r.file) :
    filesOf (runs.set j r') = filesOf runs := by
  rw [filesOf_set hr, hfile, show r.file = filesOf runs j by rw [filesOf, hr]; rfl,
    Function.update_eq_self]

theorem filesOf_concat {runs : List ScriptRun} {r : ScriptRun} (hfile : r.file = none) :
    filesOf (runs ++ [r]) = filesOf runs := by
  funext k
  rcases Nat.lt_trichotomy k runs.length with hk | rfl | hk
  · rw [filesOf, List.getElem?_append_left hk]
    rfl
  · simp [filesOf, hfile]
  · rw [filesOf, filesOf, List.getElem?_eq_none (by simp; omega), List.getElem?_eq_none (by omega)]

/-- The interpreter is given the arguments of its call, and finds its script. -/
structure ScriptRun.Serves (r : ScriptRun) (shell : Shell) : Prop where
  handed : ∀ path, r.stage = .waiting path → r.handed = some (shell.args path r.call.args)
  found : ∀ text ∈ r.found, text = some r.call.script.toList

namespace WorkState

/-- The calls that go on are those that the threads are waiting for, one for each. -/
structure Awaited (s : WorkState) : Prop where
  asked : ∀ r ∈ s.runs, r.ended = false → ∃ k, s.agent.threads[r.thread]? = some (.ask r.call k)
  one : ∀ (i j : Nat) (r r' : ScriptRun), s.runs[i]? = some r → s.runs[j]? = some r' →
    r.ended = false → r'.ended = false → r.thread = r'.thread → i = j

/-- What holds in every reachable state. -/
structure Inv (w : Workplace) (s : WorkState) : Prop where
  agent : w.setup.agent.Reachable s.agent
  awaited : s.Awaited
  owned : Owned (filesOf s.runs) s.dir s.others s.kept
  serves : ∀ r ∈ s.runs, r.Serves w.shell

variable {s : WorkState} {j : Nat} {r r' : ScriptRun}

theorem Awaited.advance (h : s.Awaited) (hr : s.runs[j]? = some r) (hthread : r'.thread = r.thread)
    (hcall : r'.call = r.call) (hended : r'.ended = false → r.ended = false) :
    (s.advance j r').Awaited := by
  have hold : ∀ (i : Nat) (q : ScriptRun), (s.runs.set j r')[i]? = some q →
      ∃ p : ScriptRun, s.runs[i]? = some p ∧ q.thread = p.thread ∧ q.call = p.call ∧
        (q.ended = false → p.ended = false) := by
    intro i q hq
    rcases Table.getElem?_set hq with ⟨rfl, rfl⟩ | ⟨-, hq⟩
    · exact ⟨r, hr, hthread, hcall, hended⟩
    · exact ⟨q, hq, rfl, rfl, id⟩
  constructor
  · intro q hq hgoes
    obtain ⟨i, hi⟩ := List.mem_iff_getElem?.mp hq
    obtain ⟨p, hp, ht, hc, ho⟩ := hold i q hi
    rw [ht, hc]
    exact h.asked p (List.mem_of_getElem? hp) (ho hgoes)
  · intro i k q q' hq hq' hgoes hgoes' hsame
    obtain ⟨p, hp, ht, -, ho⟩ := hold i q hq
    obtain ⟨p', hp', ht', -, ho'⟩ := hold k q' hq'
    exact h.one i k p p' hp hp' (ho hgoes) (ho' hgoes') (by rw [← ht, ← ht', hsame])

theorem Awaited.threads (h : s.Awaited) {agent : AgentState}
    (hkeep : ∀ r ∈ s.runs, r.ended = false → ∀ k,
      s.agent.threads[r.thread]? = some (.ask r.call k) →
        agent.threads[r.thread]? = some (.ask r.call k)) :
    ({ s with agent } : WorkState).Awaited := by
  refine ⟨fun r hr hgoes => ?_, h.one⟩
  obtain ⟨k, hk⟩ := h.asked r hr hgoes
  exact ⟨k, hkeep r hr hgoes k hk⟩

theorem serves_advance {shell : Shell} (h : ∀ r ∈ s.runs, r.Serves shell)
    (hr' : r'.Serves shell) : ∀ q ∈ (s.advance j r').runs, q.Serves shell := by
  intro q hq
  rcases List.mem_or_eq_of_mem_set hq with hq | rfl
  · exact h q hq
  · exact hr'

theorem Inv.advance (h : s.Inv w) (hr : s.runs[j]? = some r) (hthread : r'.thread = r.thread)
    (hcall : r'.call = r.call) (hended : r'.ended = false → r.ended = false)
    (hfile : r'.file = r.file) (hserves : r'.Serves w.shell) : (s.advance j r').Inv w where
  agent := h.agent
  awaited := h.awaited.advance hr hthread hcall hended
  owned := by
    show Owned (filesOf (s.runs.set j r')) s.dir s.others s.kept
    rw [filesOf_set_same hr hfile]
    exact h.owned
  serves := serves_advance h.serves hserves

theorem Inv.giveBack (h : s.Inv w) (hr : s.runs[j]? = some r) {path : String}
    {content : List Char} (hfile : r.file = some (path, content)) (removed : Bool)
    (reply : ShellReply) (hended : r.ended = false) :
    (s.giveBack j r path removed reply).Inv w := by
  have hawaited : (s.advance j { r with stage := .returned reply }).Awaited :=
    h.awaited.advance hr rfl rfl fun _ => hended
  have hserves : ∀ q ∈ (s.advance j { r with stage := .returned reply }).runs, q.Serves w.shell :=
    serves_advance h.serves ⟨(fun _ hs => nomatch hs), (h.serves r (List.mem_of_getElem? hr)).found⟩
  have hj : filesOf s.runs j = some (path, content) := by
    rw [filesOf, hr]
    exact hfile
  cases removed with
  | true =>
      refine ⟨h.agent, ⟨hawaited.asked, hawaited.one⟩, ?_, hserves⟩
      show Owned (filesOf (s.runs.set j _)) (Function.update s.dir path none) s.others s.kept
      rw [filesOf_set hr]
      exact h.owned.remove hj
  | false =>
      refine ⟨h.agent, ⟨hawaited.asked, hawaited.one⟩, ?_, hserves⟩
      show Owned (filesOf (s.runs.set j _)) s.dir s.others (path :: s.kept)
      rw [filesOf_set hr]
      exact h.owned.keep hj

theorem Awaited.resume (h : s.Awaited) (hr : s.runs[j]? = some r) (hended : r.ended = false)
    (hended' : r'.ended = true) {agent : AgentState}
    (hkeep : ∀ i, i ≠ r.thread → agent.threads[i]? = s.agent.threads[i]?) :
    ({ s.advance j r' with agent } : WorkState).Awaited := by
  have hold : ∀ (i : Nat) (q : ScriptRun), (s.runs.set j r')[i]? = some q → q.ended = false →
      s.runs[i]? = some q ∧ q.thread ≠ r.thread := by
    intro i q hq hgoes
    rcases Table.getElem?_set hq with ⟨rfl, rfl⟩ | ⟨hne, hq⟩
    · rw [hended'] at hgoes
      cases hgoes
    · exact ⟨hq, fun he => hne (h.one i j q r hq hr hgoes hended he)⟩
  constructor
  · intro q hq hgoes
    obtain ⟨i, hi⟩ := List.mem_iff_getElem?.mp hq
    obtain ⟨hq', hne⟩ := hold i q hi hgoes
    obtain ⟨k, hk⟩ := h.asked q (List.mem_of_getElem? hq') hgoes
    exact ⟨k, (hkeep q.thread hne).trans hk⟩
  · intro i k q q' hq hq' hgoes hgoes' hsame
    exact h.one i k q q' (hold i q hq hgoes).1 (hold k q' hq' hgoes').1 hgoes hgoes' hsame

theorem Inv.run (h : s.Inv w) (hr : s.runs[j]? = some r) {s' : WorkState}
    (hc : CallStep w s j r s') : s'.Inv w := by
  have hfound := (h.serves r (List.mem_of_getElem? hr)).found
  cases hc with
  | unmade source hs =>
      exact h.advance hr rfl rfl (fun _ => by rw [ScriptRun.ended, hs])
        (by rw [ScriptRun.file, ScriptRun.file, hs]) ⟨(fun _ hs => nomatch hs), hfound⟩
  | create path hs hfree =>
      have hnone : filesOf s.runs j = none := by
        rw [filesOf, hr, Option.bind_some, ScriptRun.file, hs]
      have ha : (s.advance j { r with stage := .writing path 0 }).Awaited :=
        h.awaited.advance hr rfl rfl fun _ => by rw [ScriptRun.ended, hs]
      refine ⟨h.agent, ⟨ha.asked, ha.one⟩, ?_,
        serves_advance h.serves ⟨(fun _ hs => nomatch hs), hfound⟩⟩
      show Owned (filesOf (s.runs.set j _)) (Function.update s.dir path _) s.others s.kept
      rw [filesOf_set hr]
      exact h.owned.create hnone hfree
  | write path written count hs =>
      have hj : filesOf s.runs j = some (path, r.call.script.toList.take written) := by
        rw [filesOf, hr, Option.bind_some, ScriptRun.file, hs]
      have ha : (s.advance j { r with stage := .writing path (written + count) }).Awaited :=
        h.awaited.advance hr rfl rfl fun _ => by rw [ScriptRun.ended, hs]
      refine ⟨h.agent, ⟨ha.asked, ha.one⟩, ?_,
        serves_advance h.serves ⟨(fun _ hs => nomatch hs), hfound⟩⟩
      show Owned (filesOf (s.runs.set j _)) (Function.update s.dir path _) s.others s.kept
      rw [filesOf_set hr, (h.owned.used j _ _ hj).1, Option.map_some, ← List.take_add]
      exact h.owned.write hj
  | close path hs =>
      refine h.advance hr rfl rfl (fun _ => by rw [ScriptRun.ended, hs]) ?_
        ⟨(fun _ hs => nomatch hs), hfound⟩
      rw [ScriptRun.file, ScriptRun.file, hs]
      simp
  | spawn path hs =>
      exact h.advance hr rfl rfl (fun _ => by rw [ScriptRun.ended, hs])
        (by rw [ScriptRun.file, ScriptRun.file, hs]) ⟨fun _ hs => by cases hs; rfl, hfound⟩
  | read path hs =>
      refine h.advance hr rfl rfl (fun _ => by rw [ScriptRun.ended, hs]) rfl
        ⟨(h.serves r (List.mem_of_getElem? hr)).handed, fun text ht => ?_⟩
      -- at its path the interpreter finds the file of its call
      have hj : filesOf s.runs j = some (path, r.call.script.toList) := by
        rw [filesOf, hr, Option.bind_some, ScriptRun.file, hs]
      rcases List.mem_append.mp ht with ht | ht
      · exact hfound text ht
      · rw [List.mem_singleton.mp ht]
        exact (h.owned.used j _ _ hj).1
  | giveBack path content removed reply hs =>
      refine h.giveBack hr hs removed reply ?_
      cases hstage : r.stage with
      | ended =>
          rw [ScriptRun.file, hstage] at hs
          cases hs
      | entered | writing _ _ | closed _ | waiting _ | returned _ => rw [ScriptRun.ended, hstage]
  | resume reply agent hs ha =>
      have hstep : w.setup.agent.step s.agent (.thread r.thread reply) = some agent := ha
      refine ⟨h.agent.step hstep, ?_, ?_,
        serves_advance h.serves ⟨(fun _ hs => nomatch hs), hfound⟩⟩
      · refine h.awaited.resume hr (by rw [ScriptRun.ended, hs]) rfl fun i hi => ?_
        rcases agent_step_cases ha with ⟨_, _, he, _⟩ | ⟨i', _, p, _, rest, he, _, _, rfl⟩
        · cases he
        · cases he
          exact List.getElem?_set_ne (Ne.symm hi)
      · show Owned (filesOf (s.runs.set j _)) s.dir s.others s.kept
        rw [filesOf_set_same hr (by rw [ScriptRun.file, ScriptRun.file, hs])]
        exact h.owned

theorem Inv.threads (h : s.Inv w) {agent : AgentState} {e : AgentEvent}
    (ha : w.setup.step s.agent e = some agent)
    (hkeep : ∀ r ∈ s.runs, r.ended = false → ∀ k,
      s.agent.threads[r.thread]? = some (.ask r.call k) →
        agent.threads[r.thread]? = some (.ask r.call k)) :
    ({ s with agent } : WorkState).Inv w := by
  have hstep : w.setup.agent.step s.agent e = some agent := ha
  exact ⟨h.agent.step hstep, h.awaited.threads hkeep, h.owned, h.serves⟩

theorem Inv.call (h : s.Inv w) {i : Nat} {call : ShellCall} {k : ShellReply → Handling}
    (hp : s.agent.threads[i]? = some (.ask call k))
    (hnone : ∀ r ∈ s.runs, r.thread = i → r.ended = true) :
    ({ s with runs := s.runs ++ [⟨i, call, .entered, none, []⟩] } : WorkState).Inv w := by
  refine ⟨h.agent, ⟨?_, ?_⟩, ?_, ?_⟩
  · intro r hr hgoes
    rcases List.mem_append.mp hr with hr | hr
    · exact h.awaited.asked r hr hgoes
    · rw [List.mem_singleton.mp hr]
      exact ⟨k, hp⟩
  · intro a b r r' hr hr' hgoes hgoes' hsame
    rcases Table.getElem?_concat hr with hr | ⟨rfl, rfl⟩
    · rcases Table.getElem?_concat hr' with hr' | ⟨rfl, rfl⟩
      · exact h.awaited.one a b r r' hr hr' hgoes hgoes' hsame
      · rw [hnone r (List.mem_of_getElem? hr) hsame] at hgoes
        cases hgoes
    · rcases Table.getElem?_concat hr' with hr' | ⟨rfl, rfl⟩
      · rw [hnone r' (List.mem_of_getElem? hr') hsame.symm] at hgoes'
        cases hgoes'
      · rfl
  · show Owned (filesOf (s.runs ++ [_])) s.dir s.others s.kept
    rw [filesOf_concat rfl]
    exact h.owned
  · intro r hr
    rcases List.mem_append.mp hr with hr | hr
    · exact h.serves r hr
    · rw [List.mem_singleton.mp hr]
      exact ⟨(fun _ hs => nomatch hs), fun text ht => nomatch ht⟩

theorem Inv.other (h : s.Inv w) {path : String} (hfree : ∀ r ∈ s.runs, r.uses path = false)
    (content : Option (List Char)) :
    ({ s with
        dir := Function.update s.dir path content
        others := Function.update s.others path content
        kept := s.kept.filter (· ≠ path) } : WorkState).Inv w := by
  refine ⟨h.agent, ⟨h.awaited.asked, h.awaited.one⟩, h.owned.foreign ?_ content, h.serves⟩
  intro j c hj
  obtain ⟨r, hr, hfile⟩ := Option.bind_eq_some_iff.mp hj
  have huses := hfree r (List.mem_of_getElem? hr)
  rw [ScriptRun.uses, hfile] at huses
  simp at huses

theorem Inv.step (h : s.Inv w) {e : WorkEvent} {s' : WorkState} (hs : w.step s e = some s') :
    s'.Inv w := by
  cases e with
  | loop e =>
      obtain ⟨agent, ha, rfl⟩ := Option.map_eq_some_iff.mp hs
      refine h.threads ha fun r _ _ k hk => ?_
      rcases agent_step_cases ha with ⟨_, _, _, _, rfl⟩ | ⟨_, _, _, _, _, he, _⟩
      · rw [List.getElem?_append_left (List.getElem?_eq_some_iff.mp hk).1]
        exact hk
      · cases he
  | tell i =>
      simp only [Workplace.step] at hs
      split at hs
      · rename_i msg rest hp
        obtain ⟨agent, ha, rfl⟩ := Option.map_eq_some_iff.mp hs
        refine h.threads ha fun r _ _ k hk => ?_
        -- the thread of a call does not report
        have hne : i ≠ r.thread := by
          rintro rfl
          rw [hp] at hk
          cases hk
        rcases agent_step_cases ha with ⟨_, _, he, _⟩ | ⟨_, _, _, _, _, he, _, _, rfl⟩
        · cases he
        · cases he
          exact (List.getElem?_set_ne hne).trans hk
      · cases hs
  | call i =>
      simp only [Workplace.step] at hs
      split at hs
      · rename_i call k hp
        split at hs
        · cases hs
        · rename_i hnone
          cases hs
          refine h.call hp fun r hr hi => ?_
          have hr' := List.any_eq_false.mp (Bool.eq_false_iff.mpr hnone) r hr
          simpa [hi] using hr'
      · cases hs
  | run j e =>
      obtain ⟨r, hr, hs⟩ := Option.bind_eq_some_iff.mp hs
      exact h.run hr (stepRun_cases rfl hs)
  | other path content =>
      simp only [Workplace.step] at hs
      split at hs
      · cases hs
      · rename_i hfree
        cases hs
        refine h.other (fun r hr => ?_) content
        exact Bool.eq_false_iff.mpr (List.any_eq_false.mp (Bool.eq_false_iff.mpr hfree) r hr)

end WorkState

theorem work_inv {s : WorkState} (h : (w.machine dir).Reachable s) : s.Inv w :=
  Machine.invariant (I := WorkState.Inv w)
    ⟨.init, ⟨fun r hr => (by cases hr), fun i j r r' hr => (by simp [Workplace.machine] at hr)⟩,
      Owned.empty dir, fun r hr => (by cases hr)⟩
    (fun _ _ _ _ hi hs => hi.step hs) h

/-- However the threads' calls interleave with each other, with the loop and with what
other programs do in the directory: an interpreter is given the arguments and finds the
script of its call, which is the one its thread waits for; and apart from the files of
calls that go on and those that could not be removed, the directory is as the others have
left it. -/
theorem scripts_isolated (w : Workplace) (dir : String → Option (List Char)) (s : WorkState)
    (h : (w.machine dir).Reachable s) :
    w.setup.agent.Reachable s.agent ∧
      (∀ r ∈ s.runs, r.Serves w.shell) ∧
      (∀ r ∈ s.runs, r.ended = false →
        ∃ k, s.agent.threads[r.thread]? = some (.ask r.call k)) ∧
      (∀ path, s.dir path = s.others path ∨ path ∈ s.kept ∨
        ∃ r ∈ s.runs, r.ended = false ∧ r.uses path = true) := by
  have hI := work_inv h
  refine ⟨hI.agent, hI.serves, hI.awaited.asked, fun path => ?_⟩
  by_cases hk : path ∈ s.kept
  · exact .inr (.inl hk)
  · by_cases hused : ∃ j c, filesOf s.runs j = some (path, c)
    · obtain ⟨j, c, hj⟩ := hused
      obtain ⟨r, hr, hfile⟩ := Option.bind_eq_some_iff.mp hj
      refine .inr (.inr ⟨r, List.mem_of_getElem? hr, ?_, by simp [ScriptRun.uses, hfile]⟩)
      cases hstage : r.stage with
      | ended =>
          rw [ScriptRun.file, hstage] at hfile
          cases hfile
      | entered | writing _ _ | closed _ | waiting _ | returned _ => rw [ScriptRun.ended, hstage]
    · exact .inl (hI.owned.rest path hk fun j c hj => hused ⟨j, c, hj⟩)

/-- A host that reads the one command. -/
def twoWorkplace : Workplace :=
  ⟨{ Setup.reading (hostnameText "h") (hostnameJson "h") with unix := true },
    .buildShell "/bin/bash", "/tmp"⟩

/-- The command is read twice, and its two threads call the shell at the same time. -/
def twoEvents : List WorkEvent :=
  [.loop (.dialed true), .loop (.arrive (.text (hostnameText "h"))), .loop .read,
    .loop (.arrive (.text (hostnameText "h"))), .loop .read, .tell 0, .tell 1, .call 1, .call 0,
    .run 0 (.create (.ok "x1Yz9a")), .run 1 (.create (.ok "Qb7c0d")), .run 0 (.write (.ok 8) true),
    .run 1 (.write (.ok 3) true), .run 0 .close, .run 0 (.spawn (.ok ()) true), .run 0 .read]

def twoMachine : Machine WorkState WorkEvent := twoWorkplace.machine fun _ => none

theorem twoEvents_play : (twoMachine.run twoMachine.init twoEvents).isSome = true := by decide

theorem scripts_isolated_two :
    let runs := ((twoMachine.run twoMachine.init twoEvents).get twoEvents_play).runs
    runs.length = 2 ∧ ∀ r ∈ runs, r.Serves twoWorkplace.shell :=
  ⟨by decide, (scripts_isolated twoWorkplace _ _
    (Machine.Reachable.init.run (Option.some_get twoEvents_play).symm)).2.1⟩

end PkiExecutor
