/-
# `PkiExecutor.Policy` — the policy file of a certificate authority

`ca.install` writes `CAPolicy.inf` before it installs either tier: fixed sections
and keys, and up to three values from the parameters, each on the line of its own
key.  A value with a line end inside would add lines to the file.  The years and
the OID cannot have one; the URL is only looked at up to its scheme, so
`policy_structured_iff` has a condition.
-/
import PkiExecutor.Catalog
import PkiExecutor.Lib.Inf

namespace PkiExecutor.CaInstall

open DotNet (Unbroken ascii crlfLines)
open Inf (Line)

/-! ## The file the scripts write -/

/-- `$capolicy` of `rootScript` -/
def rootLines (years : String) : List String :=
  ["[Version]", "Signature=\"$Windows NT$\"", "", "[Certsrv_Server]", "RenewalKeyLength=2048",
    "RenewalValidityPeriod=Years", "RenewalValidityPeriodUnits=" ++ years,
    "AlternateSignatureAlgorithm=0"]

/-- `$lines` of `issuingScript` -/
def issuingLines (years oid url : String) : List String :=
  ["[Version]", "Signature=\"$Windows NT$\""]
    ++ (if url = "" then []
      else ["[PolicyStatementExtension]", "Policies=InternalPolicy", "[InternalPolicy]",
        "OID=" ++ oid, "URL=" ++ url])
    ++ ["[Certsrv_Server]", "RenewalKeyLength=2048", "RenewalValidityPeriod=Years",
      "RenewalValidityPeriodUnits=" ++ years, "LoadDefaultTemplates=0",
      "AlternateSignatureAlgorithm=0"]

/-- `Set-Content -Value ($lines -join "`r`n") -Encoding ASCII`, which ends the
value with a line end. -/
def setContent (lines : List String) : String := ascii (Str.join "\r\n" lines ++ "\r\n")

/-- The text that a call leaves in `CAPolicy.inf`. -/
def policyFile (c : ShellCall) : Option String :=
  if c.script = rootScript then
    match c.args with
    | [_, _, _, _, years] => some (setContent (rootLines years))
    | _ => none
  else if c.script = issuingScript then
    match c.args with
    | [_, _, _, _, years, oid, url, _, _, _] => some (setContent (issuingLines years oid url))
    | _ => none
  else none

/-! ## The file that is meant -/

/-- What `CAPolicy.inf` of a root is to say. -/
def rootPolicy (years : String) : List Line :=
  [.heading "Version", .pair "Signature" "\"$Windows NT$\"", .blank, .heading "Certsrv_Server",
    .pair "RenewalKeyLength" "2048", .pair "RenewalValidityPeriod" "Years",
    .pair "RenewalValidityPeriodUnits" years, .pair "AlternateSignatureAlgorithm" "0"]

/-- What that of an issuing CA is to say. -/
def issuingPolicy (years oid url : String) : List Line :=
  [.heading "Version", .pair "Signature" "\"$Windows NT$\""]
    ++ (if url = "" then []
      else [.heading "PolicyStatementExtension", .pair "Policies" "InternalPolicy",
        .heading "InternalPolicy", .pair "OID" oid, .pair "URL" url])
    ++ [.heading "Certsrv_Server", .pair "RenewalKeyLength" "2048",
      .pair "RenewalValidityPeriod" "Years", .pair "RenewalValidityPeriodUnits" years,
      .pair "LoadDefaultTemplates" "0", .pair "AlternateSignatureAlgorithm" "0"]

/-- The lines of the tier, each with its value as ASCII has it. -/
def intended (ctx : Params) : List Line :=
  let caType := (param ctx "caType").getD "Root"
  let years := (param ctx "validityYears").getD (defaultYears caType)
  if caType = "Issuing" then
    issuingPolicy (ascii years) (ascii ((param ctx "cpsOid").getD "1.2.3.4.1455.67.89.5"))
      (ascii ((param ctx "cpsUrl").getD ""))
  else rootPolicy (ascii years)

theorem setContent_eq {lines : List String} (hne : lines ≠ []) :
    setContent lines = crlfLines (lines.map ascii) := by
  have hjoin : ∀ lines : List String, lines ≠ [] →
      Str.join "\r\n" lines ++ "\r\n" = crlfLines lines := by
    intro lines hne
    induction lines with
    | nil => exact absurd rfl hne
    | cons line lines ih =>
        have hcons : crlfLines (line :: lines) = line ++ "\r\n" ++ crlfLines lines := by
          apply String.toList_injective
          simp [crlfLines]
        by_cases hl : lines = []
        · subst hl
          rw [hcons]
          simp [Str.join, crlfLines]
        · rw [Str.join_cons hl, hcons, String.append_assoc, ih hl]
  rw [setContent, hjoin lines hne, DotNet.ascii_crlfLines]

theorem rootLines_eq (years : String) : rootLines years = (rootPolicy years).map Line.text := by
  rfl

theorem issuingLines_eq (years oid url : String) :
    issuingLines years oid url = (issuingPolicy years oid url).map Line.text := by
  by_cases hu : url = ""
  · rw [issuingLines, issuingPolicy, if_pos hu, if_pos hu]
    rfl
  · rw [issuingLines, issuingPolicy, if_neg hu, if_neg hu]
    rfl

theorem rootPolicy_plain (years : String) : ∀ l ∈ rootPolicy years, l.Plain := by
  simp only [rootPolicy, List.forall_mem_cons, Line.Plain, List.not_mem_nil, false_imp_iff,
    implies_true, and_true, true_and]
  decide

theorem issuingPolicy_plain (years oid url : String) :
    ∀ l ∈ issuingPolicy years oid url, l.Plain := by
  by_cases hu : url = ""
  · rw [issuingPolicy, if_pos hu]
    simp only [List.forall_mem_append, List.forall_mem_cons, Line.Plain, List.not_mem_nil,
      false_imp_iff, implies_true, and_true, true_and]
    decide
  · rw [issuingPolicy, if_neg hu]
    simp only [List.forall_mem_append, List.forall_mem_cons, Line.Plain, List.not_mem_nil,
      false_imp_iff, implies_true, and_true, true_and]
    decide

/-- What the lines consist of besides the values. -/
def fixedTexts : List String :=
  ["[Version]", "Signature=\"$Windows NT$\"", "", "[PolicyStatementExtension]",
    "Policies=InternalPolicy", "[InternalPolicy]", "OID=", "URL=", "[Certsrv_Server]",
    "RenewalKeyLength=2048", "RenewalValidityPeriod=Years", "RenewalValidityPeriodUnits=",
    "LoadDefaultTemplates=0", "AlternateSignatureAlgorithm=0"]

theorem fixedTexts_plain :
    ∀ s ∈ fixedTexts, ∀ c ∈ s.toList, c.toNat < 128 ∧ DotNet.isBreak c = false := by
  have hall : fixedTexts.all (fun s =>
      s.toList.all fun c => decide (c.toNat < 128) && !DotNet.isBreak c) = true := by decide
  simpa only [List.all_eq_true, Bool.and_eq_true, decide_eq_true_eq, Bool.not_eq_true'] using hall

theorem fixedTexts_ascii : ∀ s ∈ fixedTexts, ascii s = s :=
  fun s hs => DotNet.ascii_eq_self fun c hc => (fixedTexts_plain s hs c hc).1

theorem fixedTexts_unbroken : ∀ s ∈ fixedTexts, Unbroken s :=
  fun s hs c hc => (fixedTexts_plain s hs c hc).2

theorem rootLines_ascii (years : String) :
    (rootLines years).map ascii = rootLines (ascii years) := by
  have hfixed := fixedTexts_ascii
  simp only [fixedTexts, List.forall_mem_cons] at hfixed
  simp only [rootLines, List.map_cons, List.map_nil, DotNet.ascii_append, hfixed]

theorem issuingLines_ascii (years oid url : String) :
    (issuingLines years oid url).map ascii =
      issuingLines (ascii years) (ascii oid) (ascii url) := by
  have hfixed := fixedTexts_ascii
  simp only [fixedTexts, List.forall_mem_cons] at hfixed
  simp only [issuingLines, List.map_append, List.map_cons, List.map_nil, DotNet.ascii_append,
    hfixed, DotNet.ascii_eq_empty, apply_ite (List.map ascii)]

theorem rootLines_unbroken (years : String) :
    (∀ s ∈ rootLines years, Unbroken s) ↔ Unbroken years := by
  have hfixed := fixedTexts_unbroken
  simp only [fixedTexts, List.forall_mem_cons] at hfixed
  simp only [rootLines, List.forall_mem_cons, DotNet.unbroken_append, hfixed, List.not_mem_nil,
    false_imp_iff, implies_true, and_true, true_and]

theorem issuingLines_unbroken (years oid url : String) :
    (∀ s ∈ issuingLines years oid url, Unbroken s) ↔
      Unbroken years ∧ (url = "" ∨ Unbroken oid ∧ Unbroken url) := by
  have hfixed := fixedTexts_unbroken
  simp only [fixedTexts, List.forall_mem_cons] at hfixed
  by_cases hu : url = ""
  · rw [issuingLines, if_pos hu]
    simp only [List.append_nil, List.forall_mem_append, List.forall_mem_cons,
      DotNet.unbroken_append, hfixed, List.not_mem_nil, false_imp_iff, implies_true, and_true,
      true_and, hu, true_or]
  · rw [issuingLines, if_neg hu]
    simp only [List.forall_mem_append, List.forall_mem_cons, DotNet.unbroken_append, hfixed,
      List.not_mem_nil, false_imp_iff, implies_true, and_true, true_and, hu, false_or]
    exact and_comm

/-- Lines that spell a policy read back as that policy exactly if no line has an end
inside. -/
theorem read_setContent_iff {lines : List String} {policy : List Line} (hne : lines ≠ [])
    (htext : lines.map ascii = policy.map Line.text) (hplain : ∀ l ∈ policy, l.Plain) :
    Inf.read (setContent lines) = policy ↔ ∀ s ∈ lines, Unbroken s := by
  have hpolicy : (∀ l ∈ policy, Unbroken l.text) ↔ ∀ s ∈ lines.map ascii, Unbroken s := by
    rw [htext, List.forall_mem_map]
  rw [setContent_eq hne, htext, Inf.read_crlfLines_iff hplain, hpolicy, List.forall_mem_map]
  exact forall₂_congr fun _ _ => DotNet.unbroken_ascii

theorem read_rootLines (years : String) :
    Inf.read (setContent (rootLines years)) = rootPolicy (ascii years) ↔ Unbroken years := by
  have htext := (rootLines_ascii years).trans (rootLines_eq (ascii years))
  exact (read_setContent_iff (List.cons_ne_nil _ _) htext (rootPolicy_plain _)).trans
    (rootLines_unbroken years)

theorem read_issuingLines (years oid url : String) :
    Inf.read (setContent (issuingLines years oid url)) =
        issuingPolicy (ascii years) (ascii oid) (ascii url) ↔
      Unbroken years ∧ (url = "" ∨ Unbroken oid ∧ Unbroken url) := by
  have htext := (issuingLines_ascii years oid url).trans
    (issuingLines_eq (ascii years) (ascii oid) (ascii url))
  exact (read_setContent_iff (List.cons_ne_nil _ _) htext (issuingPolicy_plain _ _ _)).trans
    (issuingLines_unbroken years oid url)

/-! ## The checks -/

theorem unbroken_of_digits {s : String} (h : ∀ c ∈ s.toList, c.isDigit = true ∨ c = '+' ∨ c = '.') :
    Unbroken s := by
  intro c hc
  rcases h c hc with hd | rfl | rfl
  · rw [DotNet.isBreak, Bool.or_eq_false_iff, beq_eq_false_iff_ne, beq_eq_false_iff_ne]
    constructor
    · rintro rfl
      exact absurd hd (by decide)
    · rintro rfl
      exact absurd hd (by decide)
  · decide
  · decide

theorem unbroken_of_validYears {years : String} (h : validYears years = true) : Unbroken years := by
  unfold validYears at h
  split at h
  · rename_i y hy
    exact unbroken_of_digits fun c hc => (Str.chars_of_parseUnsigned hy c hc).imp_right .inl
  · cases h

theorem unbroken_of_validCpsOid {oid : String} (h : validCpsOid oid = true) : Unbroken oid := by
  refine unbroken_of_digits ?_
  intro c hc
  have hparts := List.all_eq_true.mp (Bool.and_eq_true_iff.mp h).2
  rcases Str.mem_of_split (d := '.') hc with rfl | ⟨part, hp, hcp⟩
  · exact .inr (.inr rfl)
  · exact .inl (Str.all_iff.mp (Bool.and_eq_true_iff.mp (hparts part hp)).2 c hcp)

theorem policyFile_root (commonName : String) (crypto : CryptoParams) (years : String) :
    policyFile (rootStage commonName crypto years).call = some (setContent (rootLines years)) := by
  have hscript : (rootStage commonName crypto years).call.script = rootScript := rfl
  rw [policyFile, if_pos hscript]
  rfl

theorem policyFile_issuing (commonName : String) (crypto : CryptoParams) (years : String)
    (i : Issuing) (password : String) :
    policyFile (issuingStage commonName crypto years i password).call =
      some (setContent (issuingLines years i.cpsOid i.cpsUrl)) := by
  have hscript : (issuingStage commonName crypto years i password).call.script = issuingScript :=
    rfl
  have hother : issuingScript ≠ rootScript := by decide +kernel
  rw [policyFile, hscript, if_neg hother, if_pos rfl]
  rfl

/-- An issuing authority with a policy statement. -/
def issuingParams (cpsUrl : String) : Params :=
  [("caType", "Issuing"), ("commonName", "Example Issuing CA"), ("cpsUrl", cpsUrl),
    ("username", "EXAMPLE\\admin"), ("password", "s3cret")]

end PkiExecutor.CaInstall
