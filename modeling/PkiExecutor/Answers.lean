/-
# `PkiExecutor.Answers` — what the vendor's installer is told

The installer prompts for six values and reads a line for each.  The script of
`certsecure.install` prints its arguments into it, so an argument that is empty or
has a line feed in it would answer the wrong prompt.  `installer_reads_answers`
says that no accepted one does.
-/
import PkiExecutor.Hosts

namespace PkiExecutor

open CertSecureWriteHosts (bytes fileLines)

namespace CertSecureInstall

/-- `printf` over a format of conversions `%s` and escapes `\n`. -/
def printf : List Char → List String → List UInt8
  | '%' :: 's' :: format, arg :: args => bytes arg ++ printf format args
  | '%' :: 's' :: format, [] => printf format []
  | '\\' :: 'n' :: format, args => 10 :: printf format args
  | c :: format, args => String.utf8EncodeChar c ++ printf format args
  | [], _ => []

/-- The format of the script's one `printf`. -/
def answersFormat : String := "%s\\n%s\\n%s\\n%s\\n%s\\n%s\\n"

/-- What it prints is the standard input of the installer. -/
theorem script_text : Str.containsStr script
    ("printf '" ++ answersFormat ++ "' \"$2\" \"$3\" \"$4\" \"$5\" \"$6\" \"$7\" \\\n" ++
      "  | ./install-linux.sh\n") = true := by
  unfold script answersFormat
  repeat rewrite [← String.ofList_append]
  exact Str.containsStr_ofList 218 (by decide +kernel)

/-- What the script pipes to `./install-linux.sh`.  Under `set -u` a missing argument
ends it before. -/
def installerInput (args : List String) : Option (List UInt8) :=
  match args with
  | _ :: a2 :: a3 :: a4 :: a5 :: a6 :: a7 :: _ =>
      some (printf answersFormat.toList [a2, a3, a4, a5, a6, a7])
  | _ => none

/-- The parameters that answer the prompts, in the order of the prompts. -/
def promptKeys : List String :=
  ["frontendHost", "backendHost", "certPath", "keyPath", "keycloakHost", "keycloakRealm"]

/-- The six answers in the order of the prompts. -/
def Answers.toList (a : Answers) : List String :=
  [a.frontend, a.backend, a.certPath, a.keyPath, a.keycloak, a.realm]

theorem installerInput_stage (a : Answers) :
    installerInput (stage a).args = some ((a.toList.map bytes).flatMap (· ++ [10])) := by
  show some (printf answersFormat.toList a.toList) = _
  refine congrArg some ?_
  show bytes a.frontend ++ 10 :: (bytes a.backend ++ 10 :: (bytes a.certPath ++
    10 :: (bytes a.keyPath ++ 10 :: (bytes a.keycloak ++ 10 :: (bytes a.realm ++ [10]))))) = _
  simp [Answers.toList]

/-! ## The characters of an answer -/

/-- A character of a name, a realm or a path. -/
def answerChar (c : Char) : Bool := c.isAlphanum || Str.containsChar " ._-/" c

theorem answerChar_range {c : Char} (h : answerChar c = true) :
    c.toNat ≤ 127 ∧ c.toNat ≠ 10 := by
  rw [answerChar, Bool.or_eq_true] at h
  rcases h with ha | hextra
  · have hrange := Str.isAlphanum_range ha
    omega
  · have hall : Str.all " ._-/" (fun c => decide (c.toNat ≤ 127 ∧ c.toNat ≠ 10)) = true := by
      decide
    exact of_decide_eq_true (Str.all_of_containsChar hall hextra)

/-- An answer is not empty and is written in these characters. -/
def IsAnswer (answer : String) : Prop := answer ≠ "" ∧ ∀ c ∈ answer.toList, answerChar c = true

theorem isAnswer_of_validDnsName {name : String} (h : validDnsName name = true) :
    IsAnswer name := by
  obtain ⟨hne, hchars⟩ := CertSecureWriteHosts.fieldChar_of_validDnsName h
  refine ⟨hne, fun c hc => ?_⟩
  have hfield := hchars c hc
  simp only [CertSecureWriteHosts.fieldChar, Bool.or_eq_true, beq_iff_eq] at hfield
  rcases hfield with (ha | rfl) | rfl
  · rw [answerChar, ha, Bool.true_or]
  · decide
  · decide

theorem isAnswer_of_validRealm {realm : String} (h : validRealm realm = true) :
    IsAnswer realm := by
  rw [validRealm, validChars, Bool.and_eq_true, decide_eq_true_eq, Str.all_iff] at h
  constructor
  · rintro rfl
    exact absurd h.1.1 (by decide)
  · intro c hc
    have hchar := h.2 c hc
    rw [Bool.or_eq_true] at hchar
    rcases hchar with ha | hextra
    · rw [answerChar, ha, Bool.true_or]
    · have hall : Str.all "._-" answerChar = true := by decide
      exact Str.all_of_containsChar hall hextra

theorem isAnswer_of_validPosixPath {path : String} (h : validPosixPath path = true) :
    IsAnswer path := by
  unfold validPosixPath at h
  split at h
  · rename_i chars hpath
    rw [Bool.and_eq_true, List.all_eq_true] at h
    constructor
    · rintro rfl
      cases hpath
    · rw [hpath, List.forall_mem_cons]
      exact ⟨by decide, h.2⟩
  · cases h

theorem Accepted.isAnswer {ctx : Params} {a : Answers} (h : Accepted ctx a) :
    ∀ answer ∈ a.toList, IsAnswer answer := by
  have hpath : ∀ path, CertSecure.pathOk path = true → IsAnswer path := fun path hp =>
    isAnswer_of_validPosixPath (Bool.and_eq_true_iff.mp hp).1
  simp only [Answers.toList, List.forall_mem_cons, List.not_mem_nil, false_imp_iff, implies_true,
    and_true]
  exact ⟨isAnswer_of_validDnsName h.hosts_ok.1, isAnswer_of_validDnsName h.hosts_ok.2.1,
    hpath _ h.paths_ok.1, hpath _ h.paths_ok.2, isAnswer_of_validDnsName h.hosts_ok.2.2,
    isAnswer_of_validRealm h.realm_ok⟩

theorem no_feed_of_isAnswer {answer : String} (h : IsAnswer answer) :
    (10 : UInt8) ∉ bytes answer := by
  intro hfeed
  exact CertSecureWriteHosts.not_mem_bytes (fun c hc => answerChar_range (h.2 c hc)) 10 hfeed rfl

theorem fileLines_printed {answers : List String} (h : ∀ answer ∈ answers, IsAnswer answer) :
    (fileLines ((answers.map bytes).flatMap (· ++ [10]))).lines = answers.map bytes ∧
      (fileLines ((answers.map bytes).flatMap (· ++ [10]))).rest = [] := by
  have hlines : ∀ l ∈ answers.map bytes, (10 : UInt8) ∉ l := by
    intro l hl
    obtain ⟨answer, ha, rfl⟩ := List.mem_map.mp hl
    exact no_feed_of_isAnswer (h answer ha)
  have htext := Text.ofList_toList (⟨answers.map bytes, [], hlines, by simp⟩ : Text UInt8 10)
  rw [Text.toList, List.append_nil] at htext
  rw [fileLines, htext]
  exact ⟨rfl, rfl⟩

/-- Whatever is accepted, the installer reads six lines and nothing after them: the
answers, none of them empty, in the order of the prompts. -/
theorem installer_reads_answers (ctx : Params) (ha : (execute ctx).failed = false) :
    ∃ answers, promptKeys.mapM (param ctx) = some answers ∧ (∀ answer ∈ answers, answer ≠ "") ∧
      ∀ (world : List ShellCall → ShellCall → ShellReply) (past : List ShellCall),
        ∃ c input, Event.queries ((execute ctx).run world past).trace = [c] ∧
          c.script = script ∧ installerInput c.args = some input ∧
          (fileLines input).lines = answers.map bytes ∧
          (fileLines input).rest = [] := by
  obtain ⟨_, ⟨a, hacc, rfl⟩, he⟩ := (staged ctx).performed ha
  refine ⟨a.toList, ?_, fun answer hm => (hacc.isAnswer answer hm).1, ?_⟩
  · simp [promptKeys, hacc.frontend_eq, hacc.backend_eq, hacc.certPath_eq, hacc.keyPath_eq,
      hacc.keycloak_eq, hacc.realm_eq, Answers.toList]
  · intro world past
    refine ⟨(stage a).call, _, ?_, rfl, installerInput_stage a, fileLines_printed hacc.isAnswer⟩
    rw [he, queries_perform]

def installParams : Params :=
  [("frontendHost", "certsecure.encon.pki"), ("backendHost", "certsecure-api.encon.pki"),
    ("keycloakHost", "kc.encon.pki"), ("keycloakRealm", "encon.pki"),
    ("certPath", "/opt/certsecure-manager/conf/cert.pem"),
    ("keyPath", "/opt/certsecure-manager/conf/key.pem")]

theorem installer_reads_encon :
    ∃ c input, Event.queries ((execute installParams).run quietShell []).trace = [c] ∧
      installerInput c.args = some input ∧
      (fileLines input).lines = ["certsecure.encon.pki", "certsecure-api.encon.pki",
        "/opt/certsecure-manager/conf/cert.pem", "/opt/certsecure-manager/conf/key.pem",
        "kc.encon.pki", "encon.pki"].map bytes := by
  obtain ⟨answers, hanswers, -, hread⟩ := installer_reads_answers installParams (by decide)
  obtain ⟨c, input, hc, -, hinput, hlines, -⟩ := hread quietShell []
  refine ⟨c, input, hc, hinput, hlines.trans ?_⟩
  have hvalues : some answers = some _ := hanswers.symm.trans (by rfl)
  rw [Option.some.inj hvalues]
  rfl

end CertSecureInstall

end PkiExecutor
