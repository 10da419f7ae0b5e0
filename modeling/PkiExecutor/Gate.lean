/-
# `PkiExecutor.Gate` — the gate and the catalog of a registry

What dispatch and `commands` do for a registry built by any history of `register`
calls.  The three views of a registry (the keys of the map, the names and
capabilities of the handlers in it, the decision of the gate) are all read off
one fact, which handler was last registered under a name.

* `lookup_iff`: the map holds under a name the last handler registered there.
* `commands_strict`, `mem_commands`: the listing is strictly sorted and has the
  entries of the map.
* `gate_and_catalog` puts them together.
-/
import Mathlib.Data.List.Sort
import Mathlib.Data.String.Basic
import PkiExecutor.Registry

namespace PkiExecutor.CommandRegistry

/-- `h` is the handler registered last under `name`. -/
def LastUnder (hs : List CommandHandler) (name : String) (h : CommandHandler) : Prop :=
  ∃ before after, hs = before ++ h :: after ∧ h.name = name ∧ ∀ x ∈ after, x.name ≠ name

theorem find?_reverse_iff {hs : List CommandHandler} {name : String} {h : CommandHandler} :
    hs.reverse.find? (·.name == name) = some h ↔ LastUnder hs name h := by
  rw [List.find?_eq_some_iff_append]
  constructor
  · rintro ⟨hn, as, bs, hr, has⟩
    refine ⟨bs.reverse, as.reverse, ?_, by simpa using hn, fun x hx => ?_⟩
    · rw [← List.reverse_reverse hs, hr]; simp
    · simpa using has x (List.mem_reverse.mp hx)
  · rintro ⟨before, after, rfl, hn, ha⟩
    refine ⟨by simpa using hn, after.reverse, before.reverse, by simp, fun x hx => ?_⟩
    simpa using ha x (List.mem_reverse.mp hx)

theorem lookup_iff {hs : List CommandHandler} {name : String} {h : CommandHandler} :
    (ofHistory hs).handlers.lookup name = some h ↔ LastUnder hs name h := by
  rw [lookup_ofHistory, find?_reverse_iff]

theorem lookup_none_iff {hs : List CommandHandler} {name : String} :
    (ofHistory hs).handlers.lookup name = none ↔ ∀ h ∈ hs, h.name ≠ name := by
  rw [lookup_ofHistory]
  simp

/-! ## The listing -/

/-- The order `commands` sorts into, on entries with distinct names. -/
def Before (a b : String × Capability) : Prop := a.1 < b.1

instance : Std.Irrefl Before := ⟨fun a => lt_irrefl a.1⟩

instance : Std.Antisymm Before := ⟨fun _ _ hab hba => absurd hab (lt_asymm hba)⟩

theorem commandsIn_strict {vals : List CommandHandler} (hn : (vals.map (·.name)).Nodup) :
    (commandsIn vals).Pairwise Before := by
  have hsorted : (commandsIn vals).Pairwise fun a b => decide (a.1 ≤ b.1) = true := by
    refine List.pairwise_mergeSort (fun a b c hab hbc => ?_) (fun a b => ?_) _
    · exact decide_eq_true (le_trans (of_decide_eq_true hab) (of_decide_eq_true hbc))
    · simpa using le_total a.1 b.1
  have hnames : ((commandsIn vals).map Prod.fst).Nodup := by
    refine ((List.mergeSort_perm _ _).map Prod.fst).nodup_iff.mpr ?_
    simpa [List.map_map, Function.comp_def] using hn
  rw [List.Nodup, List.pairwise_map] at hnames
  refine (hsorted.and hnames).imp fun h => ?_
  exact lt_of_le_of_ne (of_decide_eq_true h.1) h.2

theorem mem_commandsIn {vals : List CommandHandler} {p : String × Capability} :
    p ∈ commandsIn vals ↔ ∃ h ∈ vals, (h.name, h.requiredCapability) = p := by
  rw [commandsIn, List.mem_mergeSort, List.mem_map]

variable (r : CommandRegistry)

theorem values_names : r.values.map (·.name) = r.handlers.keys := by
  show (r.handlers.entries.map Sigma.snd).map _ = r.handlers.entries.map Sigma.fst
  rw [List.map_map]
  refine List.map_congr_left fun e he => ?_
  exact r.named (AList.mem_lookup_iff.mpr he)

theorem mem_values {h : CommandHandler} : h ∈ r.values ↔ r.handlers.lookup h.name = some h := by
  constructor
  · intro hv
    obtain ⟨e, he, rfl⟩ := List.mem_map.mp hv
    have hl : r.handlers.lookup e.1 = some e.2 := AList.mem_lookup_iff.mpr he
    rwa [r.named hl]
  · intro hl
    exact List.mem_map.mpr ⟨⟨h.name, h⟩, AList.mem_lookup_iff.mp hl, rfl⟩

theorem values_nodup : (r.values.map (·.name)).Nodup := by
  rw [values_names]
  exact r.handlers.keys_nodup

theorem commands_strict : r.commands.Pairwise Before := commandsIn_strict r.values_nodup

theorem mem_commands {name : String} {cap : Capability} :
    (name, cap) ∈ r.commands ↔
      ∃ h, r.handlers.lookup name = some h ∧ h.requiredCapability = cap := by
  rw [commands, mem_commandsIn]
  constructor
  · rintro ⟨h, hv, hp⟩
    obtain ⟨rfl, rfl⟩ := Prod.mk.inj hp
    exact ⟨h, r.mem_values.mp hv, rfl⟩
  · rintro ⟨h, hl, rfl⟩
    have hn : h.name = name := r.named hl
    exact ⟨h, r.mem_values.mpr (hn ▸ hl), by rw [hn]⟩

theorem commandsIn_perm {vals : List CommandHandler} (hp : vals.Perm r.values) :
    commandsIn vals = r.commands := by
  refine List.Pairwise.eq_of_mem_iff (commandsIn_strict ?_) r.commands_strict fun p => ?_
  · exact (hp.map _).nodup_iff.mpr r.values_nodup
  · rw [commands, mem_commandsIn, mem_commandsIn]
    simp only [hp.mem_iff]

theorem commands_register {h : CommandHandler} (hl : (h.name, h.requiredCapability) ∈ r.commands) :
    (r.register h).commands = r.commands := by
  refine List.Pairwise.eq_of_mem_iff (commands_strict _) r.commands_strict ?_
  rintro ⟨name, cap⟩
  obtain ⟨h', hl', hc'⟩ := r.mem_commands.mp hl
  rw [mem_commands, mem_commands, lookup_register]
  by_cases hn : name = h.name
  · subst hn
    simp [hl', hc']
  · simp [hn]

theorem dispatch_register_ne {h : CommandHandler} {name : String} (hn : name ≠ h.name)
    (role : Role) (params : Params) :
    (r.register h).dispatch name role params = r.dispatch name role params := by
  unfold dispatch
  rw [lookup_register, if_neg hn]

/-- Registering listed names anew, as a platform does, changes the dispatch of these names only. -/
theorem layer : ∀ (more : List CommandHandler) (r : CommandRegistry),
    (∀ h ∈ more, (h.name, h.requiredCapability) ∈ r.commands) →
    (more.foldl register r).commands = r.commands ∧
      ∀ name, (∀ h ∈ more, h.name ≠ name) → ∀ role params,
        (more.foldl register r).dispatch name role params = r.dispatch name role params
  | [], _, _ => ⟨rfl, fun _ _ _ _ => rfl⟩
  | h :: more, r, hl => by
      have hc : (r.register h).commands = r.commands := r.commands_register (hl h (by simp))
      obtain ⟨ihc, ihd⟩ := layer more (r.register h) fun x hx => by
        rw [hc]; exact hl x (List.mem_cons_of_mem _ hx)
      refine ⟨ihc.trans hc, fun name hn role params => ?_⟩
      have hne : name ≠ h.name := fun he => hn h (by simp) he.symm
      exact (ihd name (fun x hx => hn x (List.mem_cons_of_mem _ hx)) role params).trans
        (r.dispatch_register_ne hne role params)

/-! ## The gate -/

/-- The dispatch is the program of a handler registered under the name. -/
def RunsHandler (hs : List CommandHandler) (name : String) (params : Params) (d : Dispatch) :
    Prop :=
  ∃ h ∈ hs, h.name = name ∧ d = (h.execute params).mapErr .command

theorem mapErr_ne_fail {p : Exec Json} {e : DispatchError} (he : ∀ c, e ≠ .command c) :
    p.mapErr DispatchError.command ≠ .fail e := by
  intro h
  cases p with
  | ok a => cases h
  | fail c => cases h; exact he c rfl
  | tell m k => cases h
  | ask q k => cases h

/-- The dispatch is the gate's refusal: it ends at once with the error, telling
and asking nothing. -/
def Refuses (d : Dispatch) (e : DispatchError) : Prop :=
  ∀ world past, d.run world past = ⟨[], .error e⟩

/-- The gate and the catalog of the registry that a history builds. -/
structure GateAndCatalog (hs : List CommandHandler) : Prop where
  /-- Handler code runs exactly if the last handler under the name is allowed. -/
  runs_iff : ∀ name role params,
    RunsHandler hs name params ((ofHistory hs).dispatch name role params) ↔
      ∃ h, LastUnder hs name h ∧ h.requiredCapability ∈ role.capabilities
  /-- The code that runs is that of the last handler. -/
  runs_last : ∀ name role params h, LastUnder hs name h →
    h.requiredCapability ∈ role.capabilities →
    (ofHistory hs).dispatch name role params = (h.execute params).mapErr .command
  unknown : ∀ name role params, (∀ h ∈ hs, h.name ≠ name) →
    Refuses ((ofHistory hs).dispatch name role params) (.unknownCommand name)
  forbidden : ∀ name role params h, LastUnder hs name h →
    h.requiredCapability ∉ role.capabilities →
    Refuses ((ofHistory hs).dispatch name role params)
      (.forbidden name role h.requiredCapability)
  /-- The listing is strictly increasing in the names. -/
  listing_strict : ((ofHistory hs).commands.map Prod.fst).Pairwise (· < ·)
  /-- It pairs each registered name with the capability the gate asks for. -/
  listing_iff : ∀ name cap, (name, cap) ∈ (ofHistory hs).commands ↔
    ∃ h, LastUnder hs name h ∧ h.requiredCapability = cap
  /-- It does not depend on how the map iterates. -/
  listing_order : ∀ vals, vals.Perm (ofHistory hs).values →
    commandsIn vals = (ofHistory hs).commands
  /-- Registering again what is listed changes neither the listing nor the
  dispatch of another name. -/
  layering : ∀ more, (∀ h ∈ more, (h.name, h.requiredCapability) ∈ (ofHistory hs).commands) →
    (ofHistory (hs ++ more)).commands = (ofHistory hs).commands ∧
      ∀ name, (∀ h ∈ more, h.name ≠ name) → ∀ role params,
        (ofHistory (hs ++ more)).dispatch name role params =
          (ofHistory hs).dispatch name role params

theorem dispatch_last {hs : List CommandHandler} {name : String} {h : CommandHandler}
    (hl : LastUnder hs name h) {role : Role} (hc : h.requiredCapability ∈ role.capabilities)
    (params : Params) :
    (ofHistory hs).dispatch name role params = (h.execute params).mapErr .command :=
  dispatch_of_allowed (lookup_iff.mpr hl) (Role.has_iff.mpr hc) params

theorem dispatch_last_forbidden {hs : List CommandHandler} {name : String} {h : CommandHandler}
    (hl : LastUnder hs name h) {role : Role} (hc : h.requiredCapability ∉ role.capabilities)
    (params : Params) :
    (ofHistory hs).dispatch name role params = .fail (.forbidden name role h.requiredCapability) :=
  dispatch_of_forbidden (lookup_iff.mpr hl)
    (Bool.eq_false_iff.mpr fun hh => hc (Role.has_iff.mp hh)) params

/-- Only an allowed handler's program is a handler's program. -/
theorem runs_only_allowed {hs : List CommandHandler} {name : String} {role : Role}
    {params : Params}
    (hr : RunsHandler hs name params ((ofHistory hs).dispatch name role params)) :
    ∃ h, LastUnder hs name h ∧ h.requiredCapability ∈ role.capabilities := by
  obtain ⟨h, hm, hn, hd⟩ := hr
  rcases dispatch_cases (ofHistory hs) name role params with
    ⟨hl, -⟩ | ⟨h', hl, -, hf⟩ | ⟨h', hl, ha, -⟩
  · exact absurd hn (lookup_none_iff.mp hl h hm)
  · exact absurd (hd.symm.trans hf) (mapErr_ne_fail (by simp))
  · exact ⟨h', lookup_iff.mp hl, Role.has_iff.mp ha⟩

theorem gate_and_catalog (hs : List CommandHandler) : GateAndCatalog hs where
  runs_iff name role params := by
    refine ⟨runs_only_allowed, ?_⟩
    rintro ⟨h, hl, hc⟩
    obtain ⟨before, after, hsplit, hn, -⟩ := id hl
    exact ⟨h, by simp [hsplit], hn, dispatch_last hl hc params⟩
  runs_last name role params h hl hc := dispatch_last hl hc params
  unknown name role params hn world past := by
    rw [dispatch_of_lookup_none (lookup_none_iff.mpr hn)]
    rfl
  forbidden name role params h hl hc world past := by
    rw [dispatch_last_forbidden hl hc]
    rfl
  listing_strict := List.pairwise_map.mpr (commands_strict _)
  listing_iff name cap := by
    rw [mem_commands]
    simp only [lookup_iff]
  listing_order vals hp := commandsIn_perm _ hp
  layering more hl := by
    have hfold : ofHistory (hs ++ more) = more.foldl register (ofHistory hs) :=
      List.foldl_append
    rw [hfold]
    exact layer more _ hl

end PkiExecutor.CommandRegistry
