/-
# `PkiExecutor.Changes` — a change that fails, and what is reported

`ip.write`, `hostname.rename` and `dns.set_client` each run a script around the one
cmdlet that makes the change they are for, and take the exit code for its success.
Here the three scripts are read as statements, and run by a shell in which any
cmdlet may report an error.

`failed_change_reported_iff` says whose failed change ends in an error frame: that of
`dns.set_client`, which alone sets the preference under which an error ends a script.
-/
import PkiExecutor.Lib.Cmdlets
import PkiExecutor.Outcomes
import PkiExecutor.PhoneHome.Command

namespace PkiExecutor

/-! ## The scripts -/

/-- The first adapter that is up, where no interface is named. -/
def pickAdapter (rest : Block) : Block :=
  .ifNot "Alias"
    (.assign "Alias" [⟨"Get-NetAdapter", [], none⟩,
      ⟨"Where-Object", ["Status", "-eq", "'Up'"], none⟩, ⟨"Sort-Object", ["ifIndex"], none⟩,
      ⟨"Select-Object", ["-First", "1", "-ExpandProperty", "Name"], none⟩] .done) rest

/-- A cmdlet as a statement of its own. -/
def statement (c : Cmdlet) (rest : Block) : Block := .pipeline "" [c] "" rest

/-- `New-NetIPAddress`, with what comes behind its common parameters. -/
def newNetIPAddress (behind : List String) : Cmdlet :=
  ⟨"New-NetIPAddress", ["-InterfaceAlias $Alias", "-IPAddress $Address", "-PrefixLength $Prefix"] ++
    behind, none⟩

namespace IpWrite

def program : Script where
  params := ["Address", "Prefix", "Gateway", "Alias"]
  body :=
    pickAdapter <|
    statement ⟨"Set-NetIPInterface",
      ["-InterfaceAlias $Alias", "-AddressFamily IPv4", "-Dhcp Disabled"], none⟩ <|
    .pipeline "" [⟨"Get-NetIPAddress", ["-InterfaceAlias $Alias", "-AddressFamily IPv4"],
        some .silentlyContinue⟩,
      ⟨"Remove-NetIPAddress", ["-Confirm:$false"], some .silentlyContinue⟩] "" <|
    .ifElse "Gateway"
      (statement ⟨"Remove-NetRoute", ["-InterfaceAlias $Alias", "-DestinationPrefix '0.0.0.0/0'",
          "-Confirm:$false"], some .silentlyContinue⟩ <|
        statement (newNetIPAddress ["-DefaultGateway $Gateway"]) .done)
      (statement (newNetIPAddress []) .done) .done

theorem program_text : program.text = script := by
  unfold script program
  simp only [-String.reduceAppend, Script.text, Block.text, Block.statements, pipelineText,
    Cmdlet.text, ErrorAction.text, pickAdapter, statement, newNetIPAddress, Str.join_singleton,
    Str.join_cons_cons, List.map_cons, List.map_nil, List.cons_append, List.nil_append,
    List.append_nil]
  -- the same characters, whichever way they are split into literals
  repeat rewrite [← String.ofList_append]
  exact congrArg String.ofList (by decide +kernel)

end IpWrite

namespace HostnameRename

def program : Script where
  params := ["NewName"]
  body :=
    statement ⟨"Rename-Computer", ["-NewName $NewName", "-Restart:$false", "-Force"], none⟩ .done

theorem program_text : program.text = script := by
  unfold script program
  simp only [-String.reduceAppend, Script.text, Block.text, Block.statements, pipelineText,
    Cmdlet.text, statement, Str.join_singleton, Str.join_cons_cons, List.map_cons, List.map_nil,
    List.append_nil]
  repeat rewrite [← String.ofList_append]
  exact congrArg String.ofList (by decide +kernel)

end HostnameRename

namespace DnsSetClient

/-- The statements after the preference is set. -/
def strictBody : Block :=
  pickAdapter <|
  statement ⟨"Set-DnsClientServerAddress",
    ["-InterfaceAlias $Alias", "-ServerAddresses ($Servers -split ',')"], none⟩ <|
  .pipeline "(" [⟨"Get-DnsClientServerAddress", ["-InterfaceAlias $Alias", "-AddressFamily IPv4"],
    none⟩] ").ServerAddresses -join ','" .done

def program : Script where
  params := ["Servers", "Alias"]
  body := .prefer .stop strictBody

theorem program_text : program.text = script := by
  unfold script program
  simp only [-String.reduceAppend, Script.text, Block.text, Block.statements, pipelineText,
    Cmdlet.text, ErrorAction.text, strictBody, pickAdapter, statement, Str.join_singleton,
    Str.join_cons_cons, List.map_cons, List.map_nil, List.append_nil]
  repeat rewrite [← String.ofList_append]
  exact congrArg String.ofList (by decide +kernel)

end DnsSetClient

/-! ## What is reported -/

/-- A command, its script, and the cmdlet that makes its change. -/
structure Change where
  handler : CommandHandler
  program : Script
  cmdlet : String

/-- The three commands that change one thing and report by the exit code. -/
def changes : List Change :=
  [⟨IpWrite.handler, IpWrite.program, "New-NetIPAddress"⟩,
   ⟨HostnameRename.handler, HostnameRename.program, "Rename-Computer"⟩,
   ⟨DnsSetClient.handler, DnsSetClient.program, "Set-DnsClientServerAddress"⟩]

/-- A shell that runs this script, its cmdlets behaving so, and leaves every other to
another shell. -/
def running (program : Script) (b : Behaviour) (stdout stderr : String)
    (other : List ShellCall → ShellCall → ShellReply) : List ShellCall → ShellCall → ShellReply :=
  fun past c =>
    if c.script = program.text then .ok ⟨stdout, stderr, program.exitCode b c.args⟩
    else other past c

/-- The last frame is an error, and none is a success. -/
def EndsInError (frames : List OutboundProgress) : Prop :=
  (∃ f, frames.getLast? = some f ∧ f.state.status = .error) ∧ ∀ f ∈ frames, f.state.status ≠ .done

/-- A stage that runs this script and has a result whatever it prints. -/
def Runs (program : Script) (s : Stage) : Prop :=
  s.script = program.text ∧ ∀ output, ∃ v, s.read output = .ok v

theorem Runs.fails_iff {program : Script} {s : Stage} (h : Runs program s)
    (output : PowerShellOutput) :
    (∃ e, (s.settle (.ok output)).mapError DispatchError.command = .error e) ↔
      output.exitCode ≠ 0 := by
  cases hs : output.succeeded with
  | true =>
      obtain ⟨v, hv⟩ := h.2 output
      have hcode : output.exitCode = 0 := by simpa [PowerShellOutput.succeeded] using hs
      rw [s.settle_succeeded hs, hv]
      exact iff_of_false (fun ⟨_, he⟩ => nomatch he) (fun hne => hne hcode)
  | false =>
      have hcode : output.exitCode ≠ 0 := by simpa [PowerShellOutput.succeeded] using hs
      have hfailed : ShellReply.failed (.ok output) = true := by simp [ShellReply.failed, hs]
      obtain ⟨e, he⟩ := s.settle_failed hfailed
      rw [he]
      exact iff_of_true ⟨_, rfl⟩ hcode

theorem changes_run : ∀ p ∈ changes, ∀ ctx, Staged (Runs p.program) (p.handler.execute ctx) := by
  simp only [changes, List.forall_mem_cons]
  refine ⟨?_, ?_, ?_, nofun⟩
  · intro ctx
    refine (IpWrite.staged ctx).mono ?_
    rintro s ⟨address, -, -, -, -, rfl⟩
    exact ⟨IpWrite.program_text.symm, fun output => ⟨_, rfl⟩⟩
  · intro ctx
    refine (HostnameRename.staged ctx).mono ?_
    rintro s ⟨newName, -, -, rfl⟩
    exact ⟨HostnameRename.program_text.symm, fun output => ⟨_, rfl⟩⟩
  · intro ctx
    refine (DnsSetClient.staged ctx).mono ?_
    rintro s ⟨servers, -, -, rfl⟩
    exact ⟨DnsSetClient.program_text.symm, fun output => ⟨_, rfl⟩⟩

theorem IpWrite.program_lax : program.body.Lax := by
  simp [program, Block.Lax, Block.All, pickAdapter, statement, newNetIPAddress]

theorem HostnameRename.program_lax : program.body.Lax := by
  simp [program, Block.Lax, Block.All, statement]

theorem DnsSetClient.strictBody_strict : strictBody.Strict := by
  simp [strictBody, Block.Strict, Block.All, pickAdapter, statement]

theorem exitCode_of_failed_change : ∀ p ∈ changes, ∀ (b : Behaviour) (args : List String),
    p.cmdlet ∈ (p.program.run b args).errors →
    (p.program.exitCode b args = 0 ↔ p.handler.name ≠ "dns.set_client") := by
  simp only [changes, List.forall_mem_cons]
  refine ⟨?_, ?_, ?_, nofun⟩
  · intro b args _
    exact iff_of_true (Script.exitCode_of_lax IpWrite.program_lax) (by decide)
  · intro b args _
    exact iff_of_true (Script.exitCode_of_lax HostnameRename.program_lax) (by decide)
  · intro b args he
    have hcode := Script.exitCode_of_strict rfl DnsSetClient.strictBody_strict
      (List.ne_nil_of_mem he)
    rw [hcode]
    exact iff_of_false (by decide) (fun hne => hne rfl)

theorem lookup_change (host : Host) : ∀ p ∈ changes,
    (buildDefaultRegistry host false).handlers.lookup p.handler.name = some p.handler := by
  simp only [changes, List.forall_mem_cons]
  refine ⟨?_, ?_, ?_, nofun⟩
  all_goals
    rw [buildDefaultRegistry, CommandRegistry.lookup_ofHistory]
    rfl

theorem endsInError_iff (host : Host) (unix : Bool) (cmd : InboundCommand)
    (world : List ShellCall → ShellCall → ShellReply) (past : List ShellCall) :
    EndsInError (Event.messages ((handleCommand (buildDefaultRegistry host unix) cmd).run
        world past).trace) ↔
      ∃ e, (outcome host unix cmd.command cmd.role cmd.params world past).result = .error e := by
  obtain ⟨runs, terminal, hmsg, hruns, hterm, hok, herr, hdone, -, -⟩ :=
    handleCommand_stream host unix cmd world past
  rw [hmsg]
  change (∀ v, (outcome host unix cmd.command cmd.role cmd.params world past).result = .ok v → _)
    at hok
  change (∀ e, (outcome host unix cmd.command cmd.role cmd.params world past).result = .error e → _)
    at herr
  cases hres : (outcome host unix cmd.command cmd.role cmd.params world past).result with
  | ok v =>
      refine iff_of_false ?_ (fun ⟨e, he⟩ => nomatch he)
      rintro ⟨-, hnever⟩
      have hterminal := hok v hres
      exact hnever ⟨cmd.jobId, terminal⟩ (by simp) (by rw [hterminal]; rfl)
  | error e =>
      refine iff_of_true ⟨⟨⟨cmd.jobId, terminal⟩, by simp, ?_⟩, ?_⟩ ⟨e, rfl⟩
      · rw [herr e hres]
        rfl
      · intro f hf
        simp only [List.map_append, List.map_cons, List.map_nil, List.mem_append, List.mem_map,
          List.mem_singleton] at hf
        rcases hf with ⟨s, hs, rfl⟩ | rfl
        · rw [hruns s hs]
          decide
        · rw [herr e hres]
          exact nofun

/-- An accepted command runs its script once, and ends in an error exactly by the exit
code of that run. -/
theorem endsInError_iff_exitCode (host : Host) (p : Change) (hp : p ∈ changes)
    (cmd : InboundCommand) (hn : cmd.command = p.handler.name)
    (hr : cmd.role.has p.handler.requiredCapability = true)
    (ha : (p.handler.execute cmd.params).failed = false) (b : Behaviour) (stdout stderr : String)
    (other : List ShellCall → ShellCall → ShellReply) (past : List ShellCall) :
    let handled := (handleCommand (buildDefaultRegistry host false) cmd).run
      (running p.program b stdout stderr other) past
    ∃ c, Event.queries handled.trace = [c] ∧ c.script = p.program.text ∧
      (EndsInError (Event.messages handled.trace) ↔ p.program.exitCode b c.args ≠ 0) := by
  intro handled
  obtain ⟨s, hruns, ho⟩ := outcome_of_accepted host false p.handler.name cmd.role cmd.params
    (running p.program b stdout stderr other) past (lookup_change host p hp) hr
    (changes_run p hp cmd.params) ha
  have hreply : running p.program b stdout stderr other past s.call =
      .ok ⟨stdout, stderr, p.program.exitCode b s.args⟩ := if_pos hruns.1
  rw [hreply] at ho
  have hx : Event.exchanges handled.trace =
      [(s.call, .ok ⟨stdout, stderr, p.program.exitCode b s.args⟩)] := by
    refine (run_handleCommand (buildDefaultRegistry host false) cmd
      (running p.program b stdout stderr other) past).2.trans ?_
    rw [hn]
    change Event.exchanges (outcome host false p.handler.name cmd.role cmd.params _ past).trace = _
    rw [ho]
    exact s.exchanges_events _
  refine ⟨s.call, by rw [Event.queries, hx]; rfl, hruns.1, ?_⟩
  rw [endsInError_iff, hn, ho]
  exact hruns.fails_iff _

/-- Where the cmdlet that makes the change of an accepted command reports an error, the
command ends in an error frame exactly if it is `dns.set_client`. -/
theorem failed_change_reported_iff (host : Host) (p : Change) (hp : p ∈ changes)
    (cmd : InboundCommand) (hn : cmd.command = p.handler.name)
    (hr : cmd.role.has p.handler.requiredCapability = true)
    (ha : (p.handler.execute cmd.params).failed = false) (b : Behaviour) (stdout stderr : String)
    (other : List ShellCall → ShellCall → ShellReply) (past : List ShellCall) :
    let handled := (handleCommand (buildDefaultRegistry host false) cmd).run
      (running p.program b stdout stderr other) past
    ∃ c, Event.queries handled.trace = [c] ∧ c.script = p.program.text ∧
      (p.cmdlet ∈ (p.program.run b c.args).errors →
        (EndsInError (Event.messages handled.trace) ↔ p.handler.name = "dns.set_client")) := by
  intro handled
  obtain ⟨c, hc, hscript, hiff⟩ := endsInError_iff_exitCode host p hp cmd hn hr ha b stdout stderr
    other past
  refine ⟨c, hc, hscript, ?_⟩
  intro he
  have hcode := exitCode_of_failed_change p hp b c.args he
  exact hiff.trans ((not_congr hcode).trans not_not)

/-- One cmdlet reports an error, and no other. -/
def failing (cmdlet : String) : Behaviour := ⟨(· == cmdlet), fun _ => "Ethernet"⟩

theorem failed_change_reported_dns :
    EndsInError (Event.messages ((handleCommand (buildDefaultRegistry .idle false)
      ⟨"job", "dns.set_client", [("servers", "10.0.0.1")], .operator⟩).run
      (running DnsSetClient.program (failing "Set-DnsClientServerAddress") "" "" quietShell)
      []).trace) := by
  obtain ⟨c, -, -, hiff⟩ := failed_change_reported_iff .idle
    ⟨DnsSetClient.handler, DnsSetClient.program, "Set-DnsClientServerAddress"⟩
    (by simp [changes]) ⟨"job", "dns.set_client", [("servers", "10.0.0.1")], .operator⟩ rfl
    (by decide) (by decide) (failing "Set-DnsClientServerAddress") "" "" quietShell []
  refine (hiff ?_).mpr rfl
  simp only [DnsSetClient.program, Script.run, Block.run, DnsSetClient.strictBody, pickAdapter,
    statement]
  split
  · exact List.mem_singleton_self _
  · exact List.mem_singleton_self _

/-- A rename that fails is reported as done. -/
theorem failed_rename_done :
    ¬ ∀ (host : Host), ∀ p ∈ changes, ∀ cmd : InboundCommand, cmd.command = p.handler.name →
      cmd.role.has p.handler.requiredCapability = true →
      (p.handler.execute cmd.params).failed = false → ∀ (b : Behaviour) (stdout stderr : String)
        (other : List ShellCall → ShellCall → ShellReply) (past : List ShellCall),
        let handled := (handleCommand (buildDefaultRegistry host false) cmd).run
          (running p.program b stdout stderr other) past
        ∀ c ∈ Event.queries handled.trace, p.cmdlet ∈ (p.program.run b c.args).errors →
          EndsInError (Event.messages handled.trace) := by
  intro h
  have hp : (⟨HostnameRename.handler, HostnameRename.program, "Rename-Computer"⟩ : Change) ∈
      changes := by simp [changes]
  obtain ⟨c, hc, -, hiff⟩ := endsInError_iff_exitCode .idle _ hp
    ⟨"job", "hostname.rename", [("name", "CA01")], .operator⟩ rfl (by decide) (by decide)
    (failing "Rename-Computer") "" "" quietShell []
  have hcode := hiff.mp (h .idle _ hp ⟨"job", "hostname.rename", [("name", "CA01")], .operator⟩ rfl
    (by decide) (by decide) (failing "Rename-Computer") "" "" quietShell [] c
    (by rw [hc]; exact List.mem_singleton_self c) (List.mem_singleton_self _))
  exact hcode (Script.exitCode_of_lax HostnameRename.program_lax)

end PkiExecutor
