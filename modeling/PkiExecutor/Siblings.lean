/-
# `PkiExecutor.Siblings` — the handlers that unix registers over others

The backend reads one shape of result under a name, whichever platform answers.
Six names are registered twice on unix, so there are six pairs of handlers;
`overrides_agree` says that given corresponding parameters and the same answers
of the shell the two of a pair report the same states and end the same way.  Only
what is the platform's own may differ: the reason of an error, the path itself,
and what the machine says about its boot.

A pair goes through its steps together, so each is a `Lockstep` of the library,
put together from those of the checks and of the stage.
-/
import PkiExecutor.Catalog

namespace PkiExecutor

/-! ## Agreement -/

/-- The error without its reason: its kind and, of a parameter's error, the name. -/
def CommandError.withoutReason : CommandError → CommandError
  | .missingParam name => .missingParam name
  | .invalidParam name _ => .invalidParam name ""
  | .shell e => .shell e

def SameError (e e' : CommandError) : Prop := e.withoutReason = e'.withoutReason

/-- The states say the same but for the result they carry. -/
def SameState (s s' : OpRunState) : Prop := { s with result := none } = { s' with result := none }

/-- Two objects with the same keys, and under each but the incidental ones the
same value. -/
def SameObject (incidental : List String) (v v' : Json) : Prop :=
  ∃ members members', v = .obj members ∧ v' = .obj members' ∧
    members.map Prod.fst = members'.map Prod.fst ∧
    ∀ key, key ∉ incidental → v.get key = v'.get key

abbrev SameResult (incidental : List String) :
    Except CommandError Json → Except CommandError Json → Prop :=
  Prog.SameEnd SameError (SameObject incidental)

/-- Two programs that agree. -/
abbrev Agree {α β : Type} : (α → β → Prop) → Exec α → Exec β → Prop :=
  Prog.Lockstep SameState SameError

theorem SameState.done (v v' : Json) : SameState (.done v) (.done v') := rfl

theorem SameObject.refl (incidental : List String) {v : Json} (h : v.isObject = true) :
    SameObject incidental v v := by
  cases v with
  | obj members => exact ⟨members, members, rfl, rfl, rfl, fun _ _ => rfl⟩
  | null | bool _ | int _ | float _ | str _ | arr _ => cases h

/-- Members with the same key, and the same value unless the key is incidental. -/
def SameMember (incidental : List String) (m m' : String × Json) : Prop :=
  m.1 = m'.1 ∧ (m.1 ∉ incidental → m.2 = m'.2)

theorem lookup_of_sameMember {incidental : List String} {key : String} (hkey : key ∉ incidental)
    {ms ms' : List (String × Json)} (h : List.Forall₂ (SameMember incidental) ms ms') :
    ms.lookup key = ms'.lookup key := by
  induction h with
  | nil => rfl
  | @cons m m' ms ms' hm _ ih =>
      obtain ⟨k, v⟩ := m
      obtain ⟨k', v'⟩ := m'
      obtain ⟨rfl, hv⟩ : k = k' ∧ (k ∉ incidental → v = v') := hm
      rw [List.lookup_cons, List.lookup_cons, ih]
      by_cases hk : key = k
      · subst hk
        rw [hv hkey]
      · rw [beq_eq_false_iff_ne.mpr hk]

theorem SameObject.of_members {incidental : List String} {ms ms' : List (String × Json)}
    (h : List.Forall₂ (SameMember incidental) ms ms') :
    SameObject incidental (.obj ms) (.obj ms') := by
  refine ⟨ms, ms', rfl, rfl, ?_, fun key hkey => ?_⟩
  · induction h with
    | nil => rfl
    | cons hm _ ih => rw [List.map_cons, List.map_cons, hm.1, ih]
  · have hrev := lookup_of_sameMember hkey (List.forall₂_reverse_iff.mpr h)
    exact congrArg (·.getD .null) hrev

theorem SameMember.same (incidental : List String) (m : String × Json) :
    SameMember incidental m m := ⟨rfl, fun _ => rfl⟩

theorem SameMember.incidental {incidental : List String} {key : String} (h : key ∈ incidental)
    (v v' : Json) : SameMember incidental (key, v) (key, v') := ⟨rfl, fun hn => absurd h hn⟩

namespace Agree

variable {incidental : List String}

theorem okOr {α : Type} (o : Option α) (e : CommandError) :
    Agree Eq (PkiExecutor.okOr o e) (PkiExecutor.okOr o e) := by
  cases o with
  | none => exact .fail rfl
  | some a => exact .ok rfl

theorem required {ctx ctx' : Params} {key : String} (h : param ctx key = param ctx' key) :
    Agree Eq (PkiExecutor.required ctx key) (PkiExecutor.required ctx' key) := by
  rw [PkiExecutor.required, PkiExecutor.required, h]
  exact okOr _ _

theorem ensure {cond cond' : Bool} {e e' : CommandError} (h : cond = cond')
    (he : SameError e e') : Agree Eq (PkiExecutor.ensure cond e) (PkiExecutor.ensure cond' e') := by
  subst h
  cases cond with
  | false => exact .fail he
  | true => exact .ok rfl

theorem ofExcept {α β : Type} {RV : α → β → Prop} {r : Except CommandError α}
    {r' : Except CommandError β} (h : Prog.SameEnd SameError RV r r') :
    Agree RV (PkiExecutor.ofExcept r) (PkiExecutor.ofExcept r') := by
  cases h with
  | ok hv => exact .ok hv
  | error he => exact .fail he

theorem report {s s' : OpRunState} (h : SameState s s') :
    Agree Eq (PkiExecutor.report s) (PkiExecutor.report s') := .tell h (.ok rfl)

theorem runShell (script script' : String) (args args' : List String) :
    Agree Eq (PkiExecutor.runShell script args) (PkiExecutor.runShell script' args') := by
  refine .ask _ _ fun reply => ofExcept ?_
  cases reply with
  | error e => exact .error rfl
  | ok output => exact .ok rfl

theorem requireSuccess (output : PowerShellOutput) :
    Prog.SameEnd SameError Eq (PkiExecutor.requireSuccess output)
      (PkiExecutor.requireSuccess output) := by
  unfold PkiExecutor.requireSuccess
  split
  · exact .ok rfl
  · exact .error rfl

theorem perform {s s' : Stage} (hphase : s.phase = s'.phase) (hpercent : s.percent = s'.percent)
    (hread : ∀ output, SameResult incidental (s.read output) (s'.read output)) :
    Agree (SameObject incidental) (PkiExecutor.perform s) (PkiExecutor.perform s') := by
  have hstate : SameState (.running s.phase s.percent) (.running s'.phase s'.percent) := by
    rw [hphase, hpercent]
    rfl
  refine (report hstate).bind fun _ _ _ => (runShell _ _ _ _).bind ?_
  rintro output _ rfl
  refine (ofExcept (requireSuccess output)).bind ?_
  rintro output _ rfl
  refine (ofExcept (hread output)).bind fun v v' hv => ?_
  exact (report (.done v v')).bind fun _ _ _ => .ok hv

theorem performNative {phase : String} {percent : Nat} {v v' : Json}
    (h : SameObject incidental v v') :
    Agree (SameObject incidental) (PkiExecutor.performNative phase percent v)
      (PkiExecutor.performNative phase percent v') :=
  (report rfl).bind fun _ _ _ => (report (.done v v')).bind fun _ _ _ => .ok h

theorem path {ctx ctx' : Params} {ok ok' : String → Bool} {reason reason' : String}
    {f f' : String → Exec Json}
    (h : (param ctx "path").map ok = (param ctx' "path").map ok')
    (hf : ∀ path path', Agree (SameObject incidental) (f path) (f' path')) :
    Agree (SameObject incidental)
      (PkiExecutor.required ctx "path" >>= fun path =>
        PkiExecutor.ensure (ok path) (invalid "path" reason) >>= fun _ => f path)
      (PkiExecutor.required ctx' "path" >>= fun path =>
        PkiExecutor.ensure (ok' path) (invalid "path" reason') >>= fun _ => f' path) := by
  unfold PkiExecutor.required
  cases hp : param ctx "path" with
  | none =>
      rw [hp] at h
      rw [Option.map_eq_none_iff.mp h.symm]
      exact .fail rfl
  | some p =>
      rw [hp] at h
      obtain ⟨p', hp', hverdict⟩ := Option.map_eq_some_iff.mp h.symm
      have hreason : SameError (invalid "path" reason) (invalid "path" reason') := rfl
      rw [hp']
      exact (ensure hverdict.symm hreason).bind fun _ _ _ => hf p p'

end Agree

/-! ## The six pairs -/

theorem parseJson_congr {host host' : Host} (h : host.fromStr = host'.fromStr) (stdout : String) :
    parseJson host stdout = parseJson host' stdout := by
  rw [parseJson, parseJson, h]

theorem hostnameRead_agree (incidental : List String) (ctx ctx' : Params) :
    Agree (SameObject incidental) (HostnameRead.handler.execute ctx)
      (Linux.HostnameRead.handler.execute ctx') :=
  .perform rfl rfl fun _ => .ok (.refl _ rfl)

theorem systemIdentity_agree {host host' : Host} (hjson : host.fromStr = host'.fromStr)
    (incidental : List String) (ctx ctx' : Params) :
    Agree (SameObject incidental) ((SystemIdentity.handler host).execute ctx)
      ((Linux.SystemIdentity.handler host').execute ctx') := by
  refine .perform rfl rfl fun output => ?_
  show SameResult _ (readObject host _ output) (readObject host' _ output)
  rw [readObject, readObject, parseJson_congr hjson]
  split
  · exact .error rfl
  · rename_i h
    exact .ok (.refl _ (by simpa using h))

/-- Parameters that agree but for the path. -/
def SameButPath (ctx ctx' : Params) : Prop := ∀ key, key ≠ "path" → param ctx key = param ctx' key

theorem systemReboot_agree (incidental : List String) {ctx ctx' : Params}
    (h : SameButPath ctx ctx') :
    Agree (SameObject incidental) (SystemReboot.handler.execute ctx)
      (Linux.SystemReboot.handler.execute ctx') := by
  show Agree _ (SystemReboot.execute ctx) (Linux.SystemReboot.execute ctx')
  rw [SystemReboot.execute, Linux.SystemReboot.execute, h "delaySeconds" (by decide)]
  refine (Agree.ensure rfl rfl).bind fun _ _ _ => ?_
  exact Agree.perform rfl rfl fun _ => .ok (.refl _ rfl)

/-- What a machine says about its boot: uptime, pending first boot, and the text
about both. -/
def bootFields : List String := ["uptimeS", "finalizePending", "raw"]

theorem systemBootInfo_agree (host host' : Host) (ctx ctx' : Params) :
    Agree (SameObject bootFields) ((SystemBootInfo.handler host).execute ctx)
      ((Linux.SystemBootInfo.handler host').execute ctx') := by
  refine .performNative (.of_members ?_)
  refine .cons (.incidental (by decide) _ _) (.cons (.incidental (by decide) _ _) ?_)
  exact .cons (.same _ _) (.cons (.incidental (by decide) _ _) .nil)

theorem fileRead_agree {host host' : Host} (hjson : host.fromStr = host'.fromStr)
    {ctx ctx' : Params}
    (hpath : (param ctx "path").map File.relayPathOk = (param ctx' "path").map Linux.relayPathOk) :
    Agree (SameObject ["path"]) ((FileRead.handler host).execute ctx)
      ((Linux.FileRead.handler host').execute ctx') := by
  refine .path hpath fun path path' => .perform rfl rfl fun output => ?_
  show SameResult _ (FileRelay.readContent host path output)
    (FileRelay.readContent host' path' output)
  rw [FileRelay.readContent, FileRelay.readContent, parseJson_congr hjson]
  by_cases hc : ((parseJson host' output.stdout).get "contentB64").asStr.isNone = true
  · rw [if_pos hc, if_pos hc]
    exact .error rfl
  · rw [if_neg hc, if_neg hc]
    refine .ok (.of_members (.cons (.incidental List.mem_cons_self _ _) ?_))
    exact .cons (.same _ _) (.cons (.same _ _) (.cons (.same _ _) .nil))

theorem fileWrite_agree {ctx ctx' : Params} (h : SameButPath ctx ctx')
    (hpath : (param ctx "path").map File.relayPathOk = (param ctx' "path").map Linux.relayPathOk) :
    Agree (SameObject ["path"]) (FileWrite.handler.execute ctx)
      (Linux.FileWrite.handler.execute ctx') := by
  refine .path hpath fun path path' => ?_
  refine (Agree.required (h "contentB64" (by decide))).bind ?_
  rintro content _ rfl
  refine (Agree.ensure rfl rfl).bind fun _ _ _ => (Agree.ensure rfl rfl).bind fun _ _ _ => ?_
  refine Agree.perform rfl rfl fun output => .ok (.of_members ?_)
  exact .cons (.incidental List.mem_cons_self _ _) (.cons (.same _ _) .nil)

/-! ## The pairs in the registries -/

/-- The commands that both platforms have. -/
def sharedNames : List String :=
  ["hostname.read", "system.identity", "system.reboot", "system.boot_info", "file.read",
    "file.write"]

/-- The fields of a result that are the platform's own. -/
def incidental (name : String) : List String :=
  match name with
  | "file.read" => ["path"]
  | "file.write" => ["path"]
  | "system.boot_info" => bootFields
  | _ => []

theorem lookup_last {host : Host} {unix : Bool} {name : String} {h g : CommandHandler}
    (hl : (buildDefaultRegistry host unix).handlers.lookup name = some h)
    (hg : (handlers host unix).reverse.find? (·.name == name) = some g) : h = g := by
  rw [buildDefaultRegistry, CommandRegistry.lookup_ofHistory, hg] at hl
  exact (Option.some.inj hl).symm

theorem shared_agree {host host' : Host} (hjson : host.fromStr = host'.fromStr) {name : String}
    (hname : name ∈ sharedNames) {h h' : CommandHandler}
    (hw : (buildDefaultRegistry host false).handlers.lookup name = some h)
    (hu : (buildDefaultRegistry host' true).handlers.lookup name = some h') {ctx ctx' : Params}
    (hctx : SameButPath ctx ctx')
    (hpath : (param ctx "path").map File.relayPathOk = (param ctx' "path").map Linux.relayPathOk) :
    Agree (SameObject (incidental name)) (h.execute ctx) (h'.execute ctx') := by
  simp only [sharedNames, List.mem_cons, List.not_mem_nil, or_false] at hname
  rcases hname with rfl | rfl | rfl | rfl | rfl | rfl
  · rw [lookup_last hw rfl, lookup_last hu rfl]
    exact hostnameRead_agree _ ctx ctx'
  · rw [lookup_last hw rfl, lookup_last hu rfl]
    exact systemIdentity_agree hjson _ ctx ctx'
  · rw [lookup_last hw rfl, lookup_last hu rfl]
    exact systemReboot_agree _ hctx
  · rw [lookup_last hw rfl, lookup_last hu rfl]
    exact systemBootInfo_agree host host' ctx ctx'
  · rw [lookup_last hw rfl, lookup_last hu rfl]
    exact fileRead_agree hjson hpath
  · rw [lookup_last hw rfl, lookup_last hu rfl]
    exact fileWrite_agree hctx hpath

/-- Under each of the six names, on hosts that parse JSON alike, with parameters
that agree but for the path, on which the two checks agree, and with the same
answers of the shell: the two handlers report as many states of the same kinds,
and both end with the same kind of error over the same parameter, or both with
objects that agree but for the fields that are the platform's own. -/
theorem overrides_agree (host host' : Host) (hjson : host.fromStr = host'.fromStr) (name : String)
    (hname : name ∈ sharedNames) (h h' : CommandHandler)
    (hw : (buildDefaultRegistry host false).handlers.lookup name = some h)
    (hu : (buildDefaultRegistry host' true).handlers.lookup name = some h') (ctx ctx' : Params)
    (hctx : SameButPath ctx ctx')
    (hpath : (param ctx "path").map File.relayPathOk = (param ctx' "path").map Linux.relayPathOk)
    (answers : Nat → ShellReply) :
    List.Forall₂ SameState
        (Event.messages ((h.execute ctx).run (fun past _ => answers past.length) []).trace)
        (Event.messages ((h'.execute ctx').run (fun past _ => answers past.length) []).trace) ∧
      SameResult (incidental name)
        ((h.execute ctx).run (fun past _ => answers past.length) []).result
        ((h'.execute ctx').run (fun past _ => answers past.length) []).result :=
  (shared_agree hjson hname hw hu hctx hpath).run answers [] [] rfl

/-- What the script prints for a file of one byte. -/
def relayedText : String :=
  "\x7b\"contentB64\":\"QQ==\",\"sha256\":\"ab\",\"size\":1\x7d"

/-- The same as parsed. -/
def relayedFile : Json :=
  .obj [("contentB64", .str "QQ=="), ("sha256", .str "ab"), ("size", .int 1)]

/-- A machine that parses this text. -/
def relayingHost : Host :=
  { Host.idle with fromStr := fun text => if text = relayedText then some relayedFile else none }

/-- The read of such a file on Windows. -/
def windowsRead : Outcome OpRunState ShellCall ShellReply CommandError Json :=
  ((FileRead.handler relayingHost).execute [("path", "C:\\Transfer\\ca.crt")]).run
    (fun _ _ => .ok ⟨relayedText, "", 0⟩) []

/-- The same on unix. -/
def unixRead : Outcome OpRunState ShellCall ShellReply CommandError Json :=
  ((Linux.FileRead.handler relayingHost).execute [("path", "/opt/certsecure-manager/ca.crt")]).run
    (fun _ _ => .ok ⟨relayedText, "", 0⟩) []

theorem overrides_agree_fileRead :
    List.Forall₂ SameState (Event.messages windowsRead.trace) (Event.messages unixRead.trace) ∧
      SameResult ["path"] windowsRead.result unixRead.result := by
  refine overrides_agree relayingHost relayingHost rfl "file.read" (by decide) _ _ ?_ ?_
    [("path", "C:\\Transfer\\ca.crt")] [("path", "/opt/certsecure-manager/ca.crt")] ?_ ?_
    fun _ => .ok ⟨relayedText, "", 0⟩
  · rw [buildDefaultRegistry, CommandRegistry.lookup_ofHistory]
    rfl
  · rw [buildDefaultRegistry, CommandRegistry.lookup_ofHistory]
    rfl
  · intro key hkey
    rw [param, param, List.lookup_cons, List.lookup_cons, beq_eq_false_iff_ne.mpr hkey]
  · decide

end PkiExecutor
