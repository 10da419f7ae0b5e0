/-
# `PkiExecutor.Settings` — which CA settings a call writes

`ca.configure_settings` takes ten optional settings.  They are checked in one order
and passed to the script in another; the script writes a registry value for each
argument that is not empty.  `settings_applied_exactly` ties the three together:
what is present, what is reported as applied and what is written are the same
settings with the same values, and one invalid value keeps all of them back.
-/
import PkiExecutor.Catalog

namespace PkiExecutor

namespace CaConfigureSettings

/-! ## The script -/

/-- What the script does: the commands it runs. -/
inductive Action
  /-- the call `certutil -setreg key value`, which sets bits where the value begins with a
  plus; it is not the value stored -/
  | setreg (key value : String)
  | auditpol
  /-- `Restart-Service certsvc` -/
  | restart
  deriving DecidableEq, Repr

/-- `if ($Value) { Set-CaReg $key $Value }` -/
def setIf (key value : String) : List Action := if value = "" then [] else [.setreg key value]

/-- The script on its arguments, every step of it succeeding. -/
def scriptActions (args : List String) : List Action :=
  match args with
  | [dsConfigDn, crlPeriodUnits, crlPeriod, crlDeltaPeriodUnits, crlDeltaPeriod, crlOverlapUnits,
      crlOverlapPeriod, validityPeriodUnits, validityPeriod, auditFilter] =>
      setIf "CA\\DSConfigDN" dsConfigDn ++
      setIf "CA\\CRLPeriodUnits" crlPeriodUnits ++
      setIf "CA\\CRLPeriod" crlPeriod ++
      setIf "CA\\CRLDeltaPeriodUnits" crlDeltaPeriodUnits ++
      setIf "CA\\CRLDeltaPeriod" crlDeltaPeriod ++
      setIf "CA\\CRLOverlapPeriodUnits" crlOverlapUnits ++
      setIf "CA\\CRLOverlapPeriod" crlOverlapPeriod ++
      setIf "CA\\ValidityPeriodUnits" validityPeriodUnits ++
      setIf "CA\\ValidityPeriod" validityPeriod ++
      (if auditFilter = "" then [] else [.setreg "CA\\AuditFilter" auditFilter, .auditpol]) ++
      [.restart]
  | _ => []

/-- The parameters of the script, each with the registry value that is guarded by it. -/
def guarded : List (String × String) :=
  [("DsConfigDn", "CA\\DSConfigDN"), ("CrlPeriodUnits", "CA\\CRLPeriodUnits"),
    ("CrlPeriod", "CA\\CRLPeriod"), ("CrlDeltaPeriodUnits", "CA\\CRLDeltaPeriodUnits"),
    ("CrlDeltaPeriod", "CA\\CRLDeltaPeriod"), ("CrlOverlapUnits", "CA\\CRLOverlapPeriodUnits"),
    ("CrlOverlapPeriod", "CA\\CRLOverlapPeriod"),
    ("ValidityPeriodUnits", "CA\\ValidityPeriodUnits"), ("ValidityPeriod", "CA\\ValidityPeriod"),
    ("AuditFilter", "CA\\AuditFilter")]

/-- `if ($Value) { Set-CaReg 'key' $Value…`, up to what else is guarded. -/
def guardText (g : String × String) : String :=
  "if ($" ++ g.1 ++ ") \x7b Set-CaReg '" ++ g.2 ++ "' $" ++ g.1

/-- The text of the script has its statements in the order of its parameters. -/
theorem script_text : script =
    "param(" ++ Str.join "," (guarded.map fun g => "[string]$" ++ g.1) ++
      ") $ErrorActionPreference = 'Stop'; function Set-CaReg([string]$Key,[string]$Value) \x7b " ++
      "certutil -setreg $Key $Value | Out-Null; if ($LASTEXITCODE -ne 0) \x7b " ++
      "throw \"certutil -setreg $Key failed\" \x7d \x7d; " ++
      Str.join " \x7d; " (guarded.map guardText) ++
      "; auditpol /set /category:'Object Access' /success:enable /failure:enable | " ++
      "Out-Null \x7d; Restart-Service certsvc" := by
  unfold script guarded guardText
  simp only [-String.reduceAppend, Str.join_singleton, Str.join_cons_cons, List.map_cons,
    List.map_nil]
  repeat rewrite [← String.ofList_append]
  exact congrArg String.ofList (by decide +kernel)

/-- Over as many arguments as it has parameters it sets the registry values of those that
are not empty, then the audit policy if the audit filter is one, and restarts the service. -/
theorem scriptActions_guarded (values : List String) (h : values.length = guarded.length) :
    scriptActions values =
      ((guarded.zip values).flatMap fun p => setIf p.1.2 p.2) ++
        ((if values.getLastD "" = "" then [] else [.auditpol]) ++ [.restart]) := by
  have haudit : ∀ value : String,
      (if value = "" then [] else [Action.setreg "CA\\AuditFilter" value, .auditpol]) =
        setIf "CA\\AuditFilter" value ++ if value = "" then [] else [.auditpol] := by
    intro value
    unfold setIf
    split
    · rfl
    · rfl
  match values, h with
  | [_, _, _, _, _, _, _, _, _, _], _ =>
      simp [scriptActions, haudit, guarded, List.getLastD]

/-! ## What is meant -/

/-- The registry value that each setting stands for. -/
def registryKeys : List (String × String) :=
  [("dsConfigDn", "CA\\DSConfigDN"), ("crlPeriodUnits", "CA\\CRLPeriodUnits"),
    ("crlPeriod", "CA\\CRLPeriod"), ("crlDeltaPeriodUnits", "CA\\CRLDeltaPeriodUnits"),
    ("crlDeltaPeriod", "CA\\CRLDeltaPeriod"), ("crlOverlapUnits", "CA\\CRLOverlapPeriodUnits"),
    ("crlOverlapPeriod", "CA\\CRLOverlapPeriod"),
    ("validityPeriodUnits", "CA\\ValidityPeriodUnits"), ("validityPeriod", "CA\\ValidityPeriod"),
    ("auditFilter", "CA\\AuditFilter")]

/-- A known setting that is given, with a value that is not empty. -/
def Present (ctx : Params) (key value : String) : Prop :=
  key ∈ registryKeys.map Prod.fst ∧ param ctx key = some value ∧ value ≠ ""

theorem getD_eq_iff {o : Option String} {value : String} (hne : value ≠ "") :
    o.getD "" = value ↔ o = some value := by
  cases o with
  | none =>
      constructor
      · intro h
        exact absurd h.symm hne
      · intro h
        cases h
  | some v => simp

theorem mem_setIf {key value k v : String} :
    Action.setreg k v ∈ setIf key value ↔ k = key ∧ v = value ∧ v ≠ "" := by
  unfold setIf
  by_cases hv : value = ""
  · rw [if_pos hv, hv]
    refine iff_of_false List.not_mem_nil ?_
    rintro ⟨-, rfl, hne⟩
    exact hne rfl
  · rw [if_neg hv, List.mem_singleton, Action.setreg.injEq]
    refine and_congr_right fun _ => ?_
    constructor
    · rintro rfl
      exact ⟨rfl, hv⟩
    · intro h
      exact h.1

/-! ## What is written -/

theorem scriptActions_stage (ctx : Params) :
    scriptActions (stage ctx).args =
      (registryKeys.flatMap fun p => setIf p.2 ((param ctx p.1).getD "")) ++
        ((if (param ctx "auditFilter").getD "" = "" then [] else [.auditpol]) ++ [.restart]) := by
  show scriptActions (argKeys.map fun key => (param ctx key).getD "") = _
  rw [scriptActions_guarded _ rfl]
  rfl

theorem setreg_mem_iff {ctx : Params} {r v : String} :
    Action.setreg r v ∈ scriptActions (stage ctx).args ↔
      ∃ k, Present ctx k v ∧ (k, r) ∈ registryKeys := by
  have hrest : Action.setreg r v ∉
      (if (param ctx "auditFilter").getD "" = "" then [] else [Action.auditpol]) ++ [.restart] := by
    split
    · simp
    · simp
  rw [scriptActions_stage, List.mem_append, or_iff_left hrest, List.mem_flatMap]
  constructor
  · rintro ⟨⟨k, r'⟩, hmem, hset⟩
    obtain ⟨rfl, hv, hne⟩ := mem_setIf.mp hset
    have hval : param ctx k = some v := (getD_eq_iff hne).mp hv.symm
    exact ⟨k, ⟨List.mem_map_of_mem hmem, hval, hne⟩, hmem⟩
  · rintro ⟨k, ⟨-, hval, hne⟩, hmem⟩
    exact ⟨(k, r), hmem, mem_setIf.mpr ⟨rfl, ((getD_eq_iff hne).mpr hval).symm, hne⟩⟩

theorem auditpol_mem_iff {ctx : Params} :
    Action.auditpol ∈ scriptActions (stage ctx).args ↔ ∃ v, Present ctx "auditFilter" v := by
  have hsets : Action.auditpol ∉
      registryKeys.flatMap fun p => setIf p.2 ((param ctx p.1).getD "") := by
    intro hmem
    obtain ⟨p, -, hset⟩ := List.mem_flatMap.mp hmem
    unfold setIf at hset
    split at hset
    · cases hset
    · simp at hset
  rw [scriptActions_stage, List.mem_append, or_iff_right hsets]
  constructor
  · intro hmem
    by_cases hv : (param ctx "auditFilter").getD "" = ""
    · rw [if_pos hv] at hmem
      simp at hmem
    · exact ⟨_, by decide, (getD_eq_iff hv).mp rfl, hv⟩
  · rintro ⟨v, -, hval, hne⟩
    rw [hval, Option.getD_some, if_neg hne]
    exact List.mem_cons_self

/-! ## What is reported -/

theorem settings_keys (key : String) :
    key ∈ settings.map Setting.key ↔ key ∈ registryKeys.map Prod.fst := by
  have hsub : (∀ k ∈ settings.map Setting.key, k ∈ registryKeys.map Prod.fst) ∧
      ∀ k ∈ registryKeys.map Prod.fst, k ∈ settings.map Setting.key := by decide
  exact ⟨hsub.1 key, hsub.2 key⟩

theorem mem_applied {ctx : Params} {k v : String} : (k, v) ∈ applied ctx ↔ Present ctx k v := by
  rw [applied, List.mem_filter, Present, ← settings_keys, List.mem_map]
  constructor
  · rintro ⟨⟨s, hs, he⟩, hne⟩
    obtain ⟨rfl, rfl⟩ := Prod.mk.inj he
    have hv : valueOf ctx s ≠ "" := by simpa using hne
    exact ⟨List.mem_map_of_mem hs, (getD_eq_iff hv).mp rfl, hv⟩
  · rintro ⟨hk, hval, hne⟩
    obtain ⟨s, hs, rfl⟩ := List.mem_map.mp hk
    exact ⟨⟨s, hs, Prod.ext rfl ((getD_eq_iff hne).mpr hval)⟩, by simpa using hne⟩

/-- The members of `applied` are the present settings, each once. -/
def AppliedIs (ctx : Params) (applied : Json) : Prop :=
  ∃ members, applied = .obj members ∧ (members.map Prod.fst).Nodup ∧
    ∀ k j, (k, j) ∈ members ↔ ∃ v, Present ctx k v ∧ j = .str v

theorem applied_nodup (ctx : Params) : ((applied ctx).map Prod.fst).Nodup := by
  have hkeys : (settings.map Setting.key).Nodup := by decide
  have hsub : ((applied ctx).map Prod.fst).Sublist (settings.map Setting.key) := by
    have hmap := (List.filter_sublist (p := fun p : String × String => !p.2.isEmpty)
      (l := settings.map fun s => (s.key, valueOf ctx s))).map Prod.fst
    rwa [List.map_map] at hmap
  exact hkeys.sublist hsub

theorem appliedIs (ctx : Params) :
    AppliedIs ctx (.obj ((applied ctx).map fun p => (p.1, .str p.2))) := by
  refine ⟨_, rfl, ?_, ?_⟩
  · rw [List.map_map]
    exact applied_nodup ctx
  · intro k j
    rw [List.mem_map]
    constructor
    · rintro ⟨⟨k', v⟩, hmem, he⟩
      obtain ⟨rfl, rfl⟩ := Prod.mk.inj he
      exact ⟨v, mem_applied.mp hmem, rfl⟩
    · rintro ⟨v, hp, rfl⟩
      exact ⟨(k, v), mem_applied.mpr hp, rfl⟩

/-- An accepted call has at least one setting; it writes and reports exactly the
settings that are present, and sets the audit policy exactly if the audit filter is
one of them.  A present value that fails its check keeps everything from being run. -/
theorem settings_applied_exactly (ctx : Params) :
    ((execute ctx).failed = false →
      (∃ k v, Present ctx k v) ∧
      (∀ (world : List ShellCall → ShellCall → ShellReply) (past : List ShellCall) (result : Json),
        ((execute ctx).run world past).result = .ok result →
          AppliedIs ctx (result.get "applied")) ∧
      ∀ (world : List ShellCall → ShellCall → ShellReply) (past : List ShellCall),
        ∃ c, Event.queries ((execute ctx).run world past).trace = [c] ∧ c.script = script ∧
          (∀ r v, .setreg r v ∈ scriptActions c.args ↔
            ∃ k, Present ctx k v ∧ (k, r) ∈ registryKeys) ∧
          (.auditpol ∈ scriptActions c.args ↔ ∃ v, Present ctx "auditFilter" v)) ∧
    ((∃ s ∈ settings, ∃ v, Present ctx s.key v ∧ s.ok v = false) →
      ∀ (world : List ShellCall → ShellCall → ShellReply) (past : List ShellCall),
        Event.queries ((execute ctx).run world past).trace = [] ∧
          ∃ e, ((execute ctx).run world past).result = .error e) := by
  constructor
  · intro ha
    obtain ⟨_, ⟨-, hne, rfl⟩, he⟩ := (staged ctx).performed ha
    refine ⟨?_, ?_, ?_⟩
    · rw [Bool.not_eq_true', List.isEmpty_eq_false_iff] at hne
      obtain ⟨⟨k, v⟩, hmem⟩ := List.exists_mem_of_ne_nil _ hne
      exact ⟨k, v, mem_applied.mp hmem⟩
    · intro world past result hr
      rw [he, run_perform] at hr
      obtain ⟨output, -, -, hread⟩ := Stage.settle_ok hr
      cases hread
      exact appliedIs ctx
    · intro world past
      rw [he, queries_perform]
      exact ⟨(stage ctx).call, rfl, rfl, fun r v => setreg_mem_iff, auditpol_mem_iff⟩
  · rintro ⟨s, hs, v, ⟨-, hval, hne⟩, hbad⟩ world past
    have hstaged := staged ctx
    generalize execute ctx = p at hstaged
    cases hstaged with
    | @rejected e _ => exact ⟨rfl, e, rfl⟩
    | perform h =>
        -- a stage is performed only after every check has passed
        have hv : valueOf ctx s = v := (getD_eq_iff hne).mpr hval
        have hok := h.1 s hs
        rw [hv, hbad, Bool.or_false, String.isEmpty_iff] at hok
        exact absurd hok hne

def deltaParams : Params := [("crlDeltaPeriodUnits", "2"), ("auditFilter", "127")]

theorem settings_applied_delta :
    (∃ k v, Present deltaParams k v) ∧
      ∀ (world : List ShellCall → ShellCall → ShellReply) (past : List ShellCall),
        Event.queries ((execute [("crlPeriod", "Weeks"), ("auditFilter", "128")]).run
          world past).trace = [] := by
  refine ⟨((settings_applied_exactly deltaParams).1 (by decide)).1, fun world past => ?_⟩
  have hbad : ∃ s ∈ settings, ∃ v,
      Present [("crlPeriod", "Weeks"), ("auditFilter", "128")] s.key v ∧ s.ok v = false :=
    ⟨unitOf "auditFilter" 127, by simp [settings], "128", ⟨by decide, rfl, by decide⟩, by decide⟩
  exact ((settings_applied_exactly _).2 hbad world past).1

end CaConfigureSettings

end PkiExecutor
