/-
# `PkiExecutor.Numerals` — numbers on their way to the shell

Ten parameters of six commands are whole numbers.  Each is checked by parsing it,
but what the script gets is the text that was parsed, not the number.
`numericParams` is the table of them, one row for `system.reboot` on either
platform, and `forwards_numeral_iff` says when the text is a numeral: whenever
the parameter is given and does not begin with the plus sign that an unsigned
`parse` admits.
-/
import PkiExecutor.Catalog

namespace PkiExecutor

/-- A parameter that must be a whole number from `lo` to `hi`. -/
structure NumericParam where
  handler : CommandHandler
  key : String
  /-- what it is when it is absent; an empty text is a setting left as it is -/
  absent : Params → String
  lo : Nat
  hi : Nat
  /-- where it stands among the script's arguments -/
  position : Nat

namespace NumericParam

/-- The parameter's text. -/
def text (p : NumericParam) (ctx : Params) : String := (param ctx p.key).getD (p.absent ctx)

/-- The text stands among a stage's arguments, empty or read as a number of the
range. -/
structure Checked (p : NumericParam) (ctx : Params) (s : Stage) : Prop where
  placed : s.args[p.position]? = some (p.text ctx)
  parsed : p.text ctx = "" ∨
    ∃ max n, Str.parseUnsigned max (p.text ctx) = some n ∧ p.lo ≤ n ∧ n ≤ p.hi

/-- A setting of `ca.configure_settings`. -/
def setting (key : String) (hi position : Nat) : NumericParam :=
  ⟨CaConfigureSettings.handler, key, fun _ => "", 0, hi, position⟩

/-- `delaySeconds`, which both platforms read alike. -/
def delay (handler : CommandHandler) : NumericParam :=
  ⟨handler, "delaySeconds", fun _ => "10", 5, 120, 0⟩

end NumericParam

open NumericParam

/-- The parameters that are checked as numbers and handed on as texts. -/
def numericParams (host : Host) : List NumericParam :=
  [⟨CaInstall.handler, "validityYears",
      fun ctx => CaInstall.defaultYears ((param ctx "caType").getD "Root"), 1, 50, 4⟩,
    setting "crlPeriodUnits" 9999 1, setting "crlDeltaPeriodUnits" 9999 3,
    setting "crlOverlapUnits" 9999 5, setting "validityPeriodUnits" 9999 7,
    setting "auditFilter" 127 9,
    ⟨OcspConfigureRevocation.handler, "refreshMinutes", fun _ => "15", 1, 1440, 4⟩,
    delay SystemReboot.handler, delay Linux.SystemReboot.handler,
    ⟨CertSecureMakeCert.handler host, "days", fun _ => "825", 1, 3650, 4⟩,
    ⟨IpWrite.handler, "prefixLength", fun _ => "24", 0, 32, 1⟩]

/-! ## The checks, row by row -/

theorem parsed_in_range {max lo hi : Nat} {s : String}
    (h : (match Str.parseUnsigned max s with | some n => decide (lo ≤ n ∧ n ≤ hi) | none => false)
      = true) : ∃ max n, Str.parseUnsigned max s = some n ∧ lo ≤ n ∧ n ≤ hi := by
  cases hn : Str.parseUnsigned max s with
  | none => simp [hn] at h
  | some n => exact ⟨max, n, hn, by simpa [hn] using h⟩

theorem parsed_below {max hi : Nat} {s : String}
    (h : (match Str.parseUnsigned max s with | some n => decide (n ≤ hi) | none => false) = true) :
    ∃ max n, Str.parseUnsigned max s = some n ∧ 0 ≤ n ∧ n ≤ hi := by
  cases hn : Str.parseUnsigned max s with
  | none => simp [hn] at h
  | some n => exact ⟨max, n, hn, Nat.zero_le n, by simpa [hn] using h⟩

variable (host : Host) (ctx : Params)

theorem CaInstall.years_checked :
    Staged (Checked ⟨handler, "validityYears",
      fun ctx => defaultYears ((param ctx "caType").getD "Root"), 1, 50, 4⟩ ctx) (execute ctx) := by
  refine (staged ctx).mono ?_
  rintro s ⟨commonName, crypto, years, ha, htier⟩
  obtain rfl := ha.years_eq
  refine ⟨?_, .inr (parsed_in_range ha.years_ok)⟩
  rcases htier with ⟨-, rfl⟩ | ⟨i, password, -, -, -, -, -, rfl⟩
  · rfl
  · rfl

theorem CaConfigureSettings.setting_checked {key : String} {hi position : Nat}
    (hm : unitOf key hi ∈ settings) (hp : argKeys[position]? = some key) :
    Staged (Checked (setting key hi position) ctx) (execute ctx) := by
  refine (staged ctx).mono ?_
  rintro s ⟨hs, -, rfl⟩
  refine ⟨?_, ?_⟩
  · show (argKeys.map fun k => (param ctx k).getD "")[position]? = _
    rw [List.getElem?_map, hp]
    rfl
  · rcases Bool.or_eq_true_iff.mp (hs _ hm) with he | hok
    · exact .inl (String.isEmpty_iff.mp he)
    · exact .inr (parsed_below hok)

theorem OcspConfigureRevocation.refresh_checked :
    Staged (Checked ⟨handler, "refreshMinutes", fun _ => "15", 1, 1440, 4⟩ ctx) (execute ctx) := by
  refine (staged ctx).mono ?_
  rintro s ⟨c, hc, rfl⟩
  have ht : c.refreshMinutes = (param ctx "refreshMinutes").getD "15" := hc.refreshMinutes_eq
  exact ⟨congrArg some ht, .inr (parsed_in_range (ht ▸ hc.refreshMinutes_ok))⟩

theorem SystemReboot.delay_checked : Staged (Checked (delay handler) ctx) (execute ctx) := by
  refine (staged ctx).mono ?_
  rintro s ⟨hd, rfl⟩
  exact ⟨rfl, .inr (parsed_in_range hd)⟩

theorem Linux.SystemReboot.delay_checked : Staged (Checked (delay handler) ctx) (execute ctx) := by
  refine (staged ctx).mono ?_
  rintro s ⟨hd, rfl⟩
  exact ⟨rfl, .inr (parsed_in_range hd)⟩

theorem IpWrite.prefix_checked :
    Staged (Checked ⟨handler, "prefixLength", fun _ => "24", 0, 32, 1⟩ ctx) (execute ctx) := by
  refine (staged ctx).mono ?_
  rintro s ⟨address, -, -, hp, -, rfl⟩
  exact ⟨rfl, .inr (parsed_below hp)⟩

theorem CertSecureMakeCert.days_checked :
    Staged (Checked ⟨handler host, "days", fun _ => "825", 1, 3650, 4⟩ ctx) (execute host ctx) := by
  refine .required fun raw _ => .ensure rfl fun _ => .ensure rfl fun _ => .ensure rfl fun _ => ?_
  refine .required fun certPath _ => .required fun keyPath _ => ?_
  refine .check (CertSecure.checkPaths_checks certPath keyPath) fun _ _ => .ensure rfl fun hd => ?_
  exact .perform ⟨rfl, .inr (parsed_in_range hd)⟩

theorem numericParams_checked :
    ∀ p ∈ numericParams host, Staged (Checked p ctx) (p.handler.execute ctx) := by
  simp only [numericParams, List.forall_mem_cons]
  have hunit : ∀ x ∈ [("crlPeriodUnits", 9999), ("crlDeltaPeriodUnits", 9999),
      ("crlOverlapUnits", 9999), ("validityPeriodUnits", 9999), ("auditFilter", 127)],
      CaConfigureSettings.unitOf x.1 x.2 ∈ CaConfigureSettings.settings := by
    simp [CaConfigureSettings.settings]
  simp only [List.forall_mem_cons] at hunit
  obtain ⟨hcrl, hdelta, hoverlap, hvalidity, haudit, -⟩ := hunit
  exact ⟨CaInstall.years_checked ctx, CaConfigureSettings.setting_checked ctx hcrl rfl,
    CaConfigureSettings.setting_checked ctx hdelta rfl,
    CaConfigureSettings.setting_checked ctx hoverlap rfl,
    CaConfigureSettings.setting_checked ctx hvalidity rfl,
    CaConfigureSettings.setting_checked ctx haudit rfl,
    OcspConfigureRevocation.refresh_checked ctx, SystemReboot.delay_checked ctx,
    Linux.SystemReboot.delay_checked ctx, CertSecureMakeCert.days_checked host ctx,
    IpWrite.prefix_checked ctx, by simp⟩

/-! ## What is forwarded -/

/-- The argument at the parameter's place is a numeral of its range. -/
def NumericParam.ForwardsNumeral (p : NumericParam) (c : ShellCall) : Prop :=
  ∃ text, c.args[p.position]? = some text ∧ Str.Numeral p.lo p.hi text

theorem NumericParam.Checked.forwards_iff {p : NumericParam} {ctx : Params} {s : Stage}
    (h : p.Checked ctx s) : p.ForwardsNumeral s.call ↔
      p.text ctx ≠ "" ∧ Str.startsWithChar (p.text ctx) '+' = false := by
  have hplaced : p.ForwardsNumeral s.call ↔ Str.Numeral p.lo p.hi (p.text ctx) := by
    constructor
    · rintro ⟨text, ht, hn⟩
      obtain rfl : p.text ctx = text := Option.some.inj (h.placed.symm.trans ht)
      exact hn
    · intro hn
      exact ⟨_, h.placed, hn⟩
  rw [hplaced]
  rcases h.parsed with he | ⟨max, n, hp, hlo, hhi⟩
  · exact iff_of_false (fun hn => hn.1 he) fun hc => hc.1 he
  · have hne : p.text ctx ≠ "" := by
      intro he
      rw [he] at hp
      cases hp
    rw [Str.numeral_iff_of_parse hp hlo hhi, and_iff_right hne]

/-- An accepted call forwards a numeral of the stated range exactly if the
parameter is given and does not begin with a plus sign. -/
theorem forwards_numeral_iff (host : Host) (p : NumericParam) (hp : p ∈ numericParams host)
    (ctx : Params) (world : List ShellCall → ShellCall → ShellReply) (past : List ShellCall)
    (c : ShellCall) (hc : c ∈ Event.queries ((p.handler.execute ctx).run world past).trace) :
    p.ForwardsNumeral c ↔ p.text ctx ≠ "" ∧ Str.startsWithChar (p.text ctx) '+' = false := by
  have hs := Handled.staged (numericParams_checked host ctx p hp)
  obtain ⟨s, h, rfl⟩ := hs.mem_queries hc
  exact h.forwards_iff

theorem CaConfigureSettings.crlPeriod_calls {units : String}
    (hu : (execute [("crlPeriodUnits", units)]).failed = false) :
    (⟨script, ["", units, "", "", "", "", "", "", "", ""]⟩ : ShellCall) ∈ Event.queries
      ((execute [("crlPeriodUnits", units)]).run quietShell []).trace := by
  have hs := staged [("crlPeriodUnits", units)]
  generalize hp : execute [("crlPeriodUnits", units)] = p at hs hu ⊢
  cases hs with
  | rejected he => cases hu
  | perform h =>
      obtain ⟨-, -, rfl⟩ := h
      rw [run_perform]
      exact List.mem_cons_self

theorem forwards_numeral_week :
    (setting "crlPeriodUnits" 9999 1).ForwardsNumeral
      ⟨CaConfigureSettings.script, ["", "26", "", "", "", "", "", "", "", ""]⟩ :=
  (forwards_numeral_iff .idle (setting "crlPeriodUnits" 9999 1) (by simp [numericParams])
    [("crlPeriodUnits", "26")] quietShell [] _
    (CaConfigureSettings.crlPeriod_calls (by decide))).mpr (by decide)

/-- A signed number is accepted and forwarded with its sign. -/
theorem forwards_signed :
    ¬ ∀ (host : Host) (p : NumericParam), p ∈ numericParams host → ∀ (ctx : Params)
      (world : List ShellCall → ShellCall → ShellReply) (past : List ShellCall),
      ∀ c ∈ Event.queries ((p.handler.execute ctx).run world past).trace, p.text ctx ≠ "" →
        p.ForwardsNumeral c := by
  intro hall
  have h := hall .idle (setting "crlPeriodUnits" 9999 1) (by simp [numericParams])
    [("crlPeriodUnits", "+26")] quietShell [] _
    (CaConfigureSettings.crlPeriod_calls (by decide)) (by decide)
  obtain ⟨text, ht, hn⟩ := h
  obtain rfl : "+26" = text := Option.some.inj ht
  exact absurd hn (by decide)

end PkiExecutor
