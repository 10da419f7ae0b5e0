/-
# `PkiExecutor.Relay` — what the artifact relay carries

Two laws between commands.  A certificate authority publishes its certificate
and its CRLs in CertEnroll under names built from its common name;
`published_relayable_iff` says which of these names the commands that carry the
artifacts on accept.  And what `file.read` returns is what `file.write` takes, and it is never
above the cap, except through a symbolic link, which `stat` does not follow:
`relay_round_trip_iff`.

`Tolerates` is what both are stated with: a program that does not begin by
rejecting the value of one parameter.
-/
import PkiExecutor.Catalog
import PkiExecutor.Lib.Base64
import PkiExecutor.Lib.Pieces

namespace PkiExecutor

open Pieces (Adjacent)

/-! ## Programs that do not reject a value -/

/-- The program does not begin by rejecting the value of `key`. -/
def Tolerates {α : Type} (key : String) (p : Exec α) : Prop :=
  ∀ reason, p ≠ .fail (.invalidParam key reason)

namespace Tolerates

variable {key other : String} {f : String → Exec Json} {g : Unit → Exec Json}

theorem required {ctx : Params}
    (h : ∀ value, param ctx other = some value → Tolerates key (f value)) :
    Tolerates key (PkiExecutor.required ctx other >>= f) := by
  unfold PkiExecutor.required
  cases hv : param ctx other with
  | none => exact fun reason he => by cases he
  | some value => exact h value hv

theorem ensure {cond : Bool} {reason : String} (hk : other ≠ key)
    (h : cond = true → Tolerates key (g ())) :
    Tolerates key (PkiExecutor.ensure cond (invalid other reason) >>= g) := by
  cases cond with
  | false =>
      intro reason' he
      cases he
      exact hk rfl
  | true => exact h rfl

theorem okOr {α : Type} {o : Option α} {reason : String} {k : α → Exec Json} (hk : other ≠ key)
    (h : ∀ a, Tolerates key (k a)) :
    Tolerates key (PkiExecutor.okOr o (invalid other reason) >>= k) := by
  cases o with
  | none =>
      intro reason' he
      cases he
      exact hk rfl
  | some a => exact h a

theorem checked {cond : Bool} {e : CommandError} (hc : cond = true) (h : Tolerates key (g ())) :
    Tolerates key (PkiExecutor.ensure cond e >>= g) := by
  rw [hc]
  exact h

theorem perform (s : Stage) : Tolerates key (PkiExecutor.perform s) := fun _ he => by cases he

end Tolerates

/-- The handler never rejects a parameter map over this value of `key`. -/
def CommandHandler.Takes (h : CommandHandler) (key value : String) : Prop :=
  ∀ ctx, param ctx key = some value → Tolerates key (h.execute ctx)

theorem CommandHandler.Takes.checked {h : CommandHandler} {key value reason : String} {cond : Bool}
    {g : Unit → Exec Json} (ht : h.Takes key value) (ctx : Params) (hp : param ctx key = some value)
    (he : h.execute ctx = PkiExecutor.ensure cond (invalid key reason) >>= g) : cond = true := by
  cases cond with
  | true => rfl
  | false => exact absurd he (ht ctx hp reason)

section Paths

variable {pathOk : String → Bool} {script path reason : String}

theorem FileRelay.read_takes (host : Host) {name : String} {cap : Capability} :
    CommandHandler.Takes
      ⟨name, cap, FileRelay.read pathOk (invalid "path" reason) script host⟩ "path" path ↔
      pathOk path = true := by
  constructor
  · intro h
    exact h.checked [("path", path)] rfl rfl
  · intro hp ctx hctx
    refine .required fun p hv => .checked ?_ (.perform _)
    obtain rfl : path = p := Option.some.inj (hctx.symm.trans hv)
    exact hp

theorem FileRelay.write_takes {name : String} {cap : Capability} :
    CommandHandler.Takes
      ⟨name, cap, FileRelay.write pathOk (invalid "path" reason) script⟩ "path" path ↔
      pathOk path = true := by
  constructor
  · intro h
    exact h.checked [("path", path)] rfl rfl
  · intro hp ctx hctx
    refine .required fun p hv => .checked ?_ ?_
    · obtain rfl : path = p := Option.some.inj (hctx.symm.trans hv)
      exact hp
    · refine .required fun content _ => .ensure (by decide) fun _ => ?_
      exact .ensure (by decide) fun _ => .perform _

theorem CertAddStore.takes :
    CertAddStore.handler.Takes "path" path ↔ validWindowsPath path = true := by
  constructor
  · intro h
    exact h.checked [("store", "root"), ("path", path)] rfl rfl
  · intro hp ctx hctx
    refine .required fun store _ => .ensure (by decide) fun _ => .required fun p hv => ?_
    obtain rfl : path = p := Option.some.inj (hctx.symm.trans hv)
    exact .checked hp (.ensure (by decide) fun _ => .perform _)

theorem CertDsPublish.takes :
    CertDsPublish.handler.Takes "path" path ↔ validWindowsPath path = true := by
  constructor
  · intro h
    exact h.checked [("path", path)] rfl rfl
  · intro hp ctx hctx
    refine .required fun p hv => ?_
    obtain rfl : path = p := Option.some.inj (hctx.symm.trans hv)
    exact .checked hp (.required fun attr _ => .ensure (by decide) fun _ => .perform _)

end Paths

/-- The commands that take an artifact by its path. -/
def relayHandlers (host : Host) : List CommandHandler :=
  [FileRead.handler host, FileWrite.handler, CertAddStore.handler, CertDsPublish.handler]

/-- All four take a path exactly if the strictest check does. -/
theorem relayHandlers_take (host : Host) (path : String) :
    (∀ h ∈ relayHandlers host, h.Takes "path" path) ↔ File.relayPathOk path = true := by
  have hread : (FileRead.handler host).Takes "path" path ↔ File.relayPathOk path = true :=
    FileRelay.read_takes host
  have hwrite : FileWrite.handler.Takes "path" path ↔ File.relayPathOk path = true :=
    FileRelay.write_takes
  have hweaker : File.relayPathOk path = true → validWindowsPath path = true := fun h => by
    simp only [File.relayPathOk, Bool.and_eq_true] at h
    exact h.1.1
  simp only [relayHandlers, List.forall_mem_cons, hread, hwrite, CertAddStore.takes,
    CertDsPublish.takes]
  constructor
  · intro h
    exact h.1
  · intro h
    exact ⟨h, h, hweaker h, hweaker h, by simp⟩

/-! ## Published names -/

/-- A common name as `ca.install` accepts it. -/
abbrev CaName := { name : String // CaInstall.validCommonName name = true }

/-- A computer name as `hostname.rename` accepts it. -/
abbrev ComputerName := { name : String // HostnameRename.validName name = true }

/-- A directory of the relay. -/
abbrev RelayDir := { dir : String // dir ∈ File.allowedPrefixes }

/-- What a certificate authority publishes in CertEnroll. -/
inductive Artifact
  | certificate (host : ComputerName)
  | baseCrl
  | deltaCrl

/-- The key's index, from the second key on. -/
def keyIndex : Option Nat → String
  | none => ""
  | some n => "(" ++ toString n ++ ")"

namespace Artifact

/-- What stands before the common name. -/
def lead : Artifact → String
  | certificate host => host.1 ++ "_"
  | baseCrl => ""
  | deltaCrl => ""

/-- What stands after the common name and the index. -/
def ending : Artifact → String
  | certificate _ => ".crt"
  | baseCrl => ".crl"
  | deltaCrl => "+.crl"

/-- The name of a published file. -/
def fileName (a : Artifact) (ca : CaName) (index : Option Nat) : String :=
  a.lead ++ ca.1 ++ keyIndex index ++ a.ending

end Artifact

/-- A character the path checks let through below the drive. -/
def pathChar (c : Char) : Bool := c.isAlphanum || Str.containsChar " ._-\\()" c

theorem relayDir_spec (dir : RelayDir) :
    dir.1.toList.take 3 = ['C', ':', '\\'] ∧ (dir.1.toList.drop 3).all pathChar = true ∧
      ¬ Adjacent '.' '.' dir.1.toList ∧ dir.1.toList.getLast? = some '\\' := by
  have h : ∀ d ∈ File.allowedPrefixes,
      d.toList.take 3 = ['C', ':', '\\'] ∧ (d.toList.drop 3).all pathChar = true ∧
        ¬ Adjacent '.' '.' d.toList ∧ d.toList.getLast? = some '\\' := by decide
  exact h dir.1 dir.2

/-- A file directly in a directory of the relay has a valid path if it is short
enough and its name has no other characters. -/
theorem validWindowsPath_relay (dir : RelayDir) (name : String) :
    validWindowsPath (dir.1 ++ name) =
      (decide (Str.len (dir.1 ++ name) ≤ 200) && Str.all name pathChar) := by
  obtain ⟨htake, hdrop, -, -⟩ := relayDir_spec dir
  have hlist : (dir.1 ++ name).toList =
      'C' :: ':' :: '\\' :: (dir.1.toList.drop 3 ++ name.toList) := by
    rw [String.toList_append, ← List.take_append_drop 3 dir.1.toList, htake]
    rfl
  have hall : (dir.1.toList.drop 3 ++ name.toList).all pathChar = Str.all name pathChar := by
    rw [List.all_append, hdrop, Bool.true_and]
    rfl
  rw [validWindowsPath, hlist, ← hall]
  simp only [show 'C'.isAlpha = true by decide, Bool.true_and]
  rfl

theorem underPrefix_append (dir name : String) (hn : name ≠ "") :
    File.underPrefix (dir ++ name) dir = true := by
  have hlt : Str.len dir < Str.len (dir ++ name) := by
    have hpos : 0 < Str.len name  :=
      Nat.pos_of_ne_zero (mt String.utf8ByteSize_eq_zero_iff.mp hn)
    rw [Str.len_append]
    omega
  rw [File.underPrefix, File.underPrefix?, if_pos hlt, Str.sliceTo_append]
  simp [Str.eqIgnoreAsciiCase]

theorem relayPathOk_relay (dir : RelayDir) {name : String} (hn : name ≠ "") :
    File.relayPathOk (dir.1 ++ name) = true ↔
      Str.len (dir.1 ++ name) ≤ 200 ∧ Str.all name pathChar = true ∧
        ¬ Adjacent '.' '.' name.toList := by
  obtain ⟨-, -, hdots, hlast⟩ := relayDir_spec dir
  have hunder : File.allowedPrefixes.any (File.underPrefix (dir.1 ++ name)) = true :=
    List.any_eq_true.mpr ⟨dir.1, dir.2, underPrefix_append dir.1 name hn⟩
  have hup : Str.containsStr (dir.1 ++ name) ".." = false ↔ ¬ Adjacent '.' '.' name.toList := by
    rw [Str.containsStr_false, String.toList_append]
    show ¬ Adjacent '.' '.' _ ↔ _
    rw [Pieces.adjacent_append, hlast]
    simp [hdots]
  rw [File.relayPathOk, validWindowsPath_relay, hunder, Bool.and_true, Bool.and_eq_true,
    Bool.not_eq_true', hup, Bool.and_eq_true, decide_eq_true_eq, and_assoc]

theorem ca_chars (ca : CaName) : ∀ c ∈ ca.1.toList, pathChar c = true := by
  have h := ca.2
  simp only [CaInstall.validCommonName, validChars, Bool.and_eq_true, Str.all_iff] at h
  intro c hc
  have hextra : Str.all " ._-" (Str.containsChar " ._-\\()") = true := by decide
  rcases Bool.or_eq_true_iff.mp (h.2 c hc) with ha | he
  · exact Bool.or_eq_true_iff.mpr (.inl ha)
  · exact Bool.or_eq_true_iff.mpr (.inr (Str.all_of_containsChar hextra he))

theorem ne_dot_of_isAlphanum {c : Char} (h : c.isAlphanum = true) : c ≠ '.' := by
  rintro rfl
  exact absurd h (by decide)

namespace Artifact

theorem lead_chars (a : Artifact) : ∀ c ∈ a.lead.toList, pathChar c = true ∧ c ≠ '.' := by
  cases a with
  | baseCrl => simp [lead]
  | deltaCrl => simp [lead]
  | certificate host =>
      have h := host.2
      simp only [HostnameRename.validName, Bool.and_eq_true, Str.all_iff, Bool.or_eq_true,
        beq_iff_eq] at h
      intro c hc
      rw [lead, String.toList_append, List.mem_append] at hc
      rcases hc with hc | hc
      · rcases h.2 c hc with ha | rfl
        · exact ⟨Bool.or_eq_true_iff.mpr (.inl ha), ne_dot_of_isAlphanum ha⟩
        · decide
      · obtain rfl : c = '_' := by simpa using hc
        decide

theorem keyIndex_chars (index : Option Nat) :
    ∀ c ∈ (keyIndex index).toList, pathChar c = true ∧ c ≠ '.' := by
  cases index with
  | none => simp [keyIndex]
  | some n =>
      intro c hc
      have hc' : c = '(' ∨ c ∈ Nat.toDigits 10 n ∨ c = ')' := by
        simpa [keyIndex, Nat.toList_repr] using hc
      rcases hc' with rfl | hd | rfl
      · decide
      · have ha : c.isAlphanum = true := by
          rw [Char.isAlphanum, Nat.isDigit_of_mem_toDigits (by decide) (by decide) hd, Bool.or_true]
        exact ⟨Bool.or_eq_true_iff.mpr (.inl ha), ne_dot_of_isAlphanum ha⟩
      · decide

theorem fileName_chars (a : Artifact) (ca : CaName) (index : Option Nat) :
    Str.all (a.fileName ca index) pathChar = true ↔ a ≠ .deltaCrl := by
  have hparts : Str.all (a.fileName ca index) pathChar = a.ending.toList.all pathChar := by
    have hlead : a.lead.toList.all pathChar = true :=
      List.all_eq_true.mpr fun c hc => (a.lead_chars c hc).1
    have hca : ca.1.toList.all pathChar = true := List.all_eq_true.mpr (ca_chars ca)
    have hindex : (keyIndex index).toList.all pathChar = true :=
      List.all_eq_true.mpr fun c hc => (keyIndex_chars index c hc).1
    simp [Str.all, fileName, hlead, hca, hindex]
  rw [hparts]
  cases a with
  | certificate host =>
      have h : ".crt".toList.all pathChar = true := by decide
      exact iff_of_true h fun he => by cases he
  | baseCrl =>
      have h : ".crl".toList.all pathChar = true := by decide
      exact iff_of_true h fun he => by cases he
  | deltaCrl =>
      have h : ¬ "+.crl".toList.all pathChar = true := by decide
      exact iff_of_false h fun hne => hne rfl

/-- Two dots can only come from the common name, or from its last character and
the dot of the ending. -/
theorem fileName_dots {a : Artifact} (ha : a ≠ .deltaCrl) (ca : CaName) (index : Option Nat) :
    Adjacent '.' '.' (a.fileName ca index).toList ↔
      Adjacent '.' '.' ca.1.toList ∨ (index = none ∧ ca.1.toList.getLast? = some '.') := by
  have hending : ¬ Adjacent '.' '.' a.ending.toList ∧ a.ending.toList.head? = some '.' := by
    cases a with
    | certificate host =>
        have h : ¬ Adjacent '.' '.' ".crt".toList ∧ ".crt".toList.head? = some '.' := by
          decide
        exact h
    | baseCrl => decide
    | deltaCrl => exact absurd rfl ha
  have hlead : '.' ∉ a.lead.toList := fun h => (a.lead_chars _ h).2 rfl
  have hindex : '.' ∉ (keyIndex index).toList := fun h => (keyIndex_chars index _ h).2 rfl
  have hleadLast : a.lead.toList.getLast? ≠ some '.' := fun h => hlead (List.mem_of_getLast? h)
  have hindexHead : (keyIndex index).toList.head? ≠ some '.' := fun h =>
    hindex (List.mem_of_head? h)
  have hindexLast : (keyIndex index).toList.getLast? ≠ some '.' := fun h =>
    hindex (List.mem_of_getLast? h)
  rw [fileName, String.toList_append, String.toList_append, String.toList_append, List.append_assoc,
    List.append_assoc, Pieces.adjacent_append, Pieces.adjacent_append, Pieces.adjacent_append]
  simp only [Pieces.not_adjacent_of_not_mem hlead, Pieces.not_adjacent_of_not_mem hindex, hending.1,
    hleadLast, hindexLast, false_and, or_false, false_or]
  cases index with
  | none => simp [keyIndex, hending.2]
  | some n => simp [keyIndex]

end Artifact

/-- The path of a published artifact in a directory of the relay. -/
def publishedPath (dir : RelayDir) (ca : CaName) (index : Option Nat) (a : Artifact) : String :=
  dir.1 ++ a.fileName ca index

/-- A published artifact may be carried on under its own name exactly if it is no
delta CRL, two dots do not meet in its name, and its path is not too long. -/
theorem published_relayable_iff (host : Host) (dir : RelayDir) (ca : CaName) (index : Option Nat)
    (a : Artifact) :
    (∀ h ∈ relayHandlers host, h.Takes "path" (publishedPath dir ca index a)) ↔
      a ≠ .deltaCrl ∧ Str.containsStr ca.1 ".." = false ∧
        ¬ (index = none ∧ Str.endsWithChar ca.1 '.' = true) ∧
        Str.len (publishedPath dir ca index a) ≤ 200 := by
  have hne : a.fileName ca index ≠ "" := by
    intro he
    have h := congrArg String.toList he
    cases a <;> simp [Artifact.fileName, Artifact.ending] at h
  have hdots : Str.containsStr ca.1 ".." = false ↔ ¬ Adjacent '.' '.' ca.1.toList :=
    Str.containsStr_false
  have hends : Str.endsWithChar ca.1 '.' = true ↔ ca.1.toList.getLast? = some '.' := by
    rw [Str.endsWithChar, beq_iff_eq]
  rw [relayHandlers_take, publishedPath, relayPathOk_relay dir hne, Artifact.fileName_chars, hdots,
    hends]
  constructor
  · rintro ⟨hlen, ha, hadj⟩
    rw [Artifact.fileName_dots ha, not_or] at hadj
    exact ⟨ha, hadj.1, hadj.2, hlen⟩
  · rintro ⟨ha, hca, hidx, hlen⟩
    refine ⟨hlen, ha, ?_⟩
    rw [Artifact.fileName_dots ha, not_or]
    exact ⟨hca, hidx⟩

/-- The delta CRL of a certificate authority with an ordinary name is not. -/
theorem deltaCrl_not_relayable :
    ¬ ∀ (host : Host) (dir : RelayDir) (ca : CaName) (index : Option Nat) (a : Artifact),
      ∀ h ∈ relayHandlers host, h.Takes "path" (publishedPath dir ca index a) := by
  intro hall
  have htake := hall .idle ⟨"C:\\CertEnroll\\", by decide⟩ ⟨"Example Issuing CA", by decide⟩
    none .deltaCrl (FileRead.handler .idle) List.mem_cons_self
  have hok : File.relayPathOk "C:\\CertEnroll\\Example Issuing CA+.crl" = true :=
    (FileRelay.read_takes .idle).mp htake
  exact absurd hok (by decide)

/-! ## Reading, then writing -/

/-- The text of some bytes as the relay carries them. -/
def base64Text (bytes : List UInt8) : String := String.ofList (Base64.encode bytes)

/-- Linux's `PATH_MAX`: a symbolic link's text is shorter. -/
def pathMax : Nat := 4096

/-- A file that a path leads to, and the text of the symbolic link if the path is one. -/
structure RelayFile where
  bytes : List UInt8
  link : Option String
  link_short : ∀ text, link = some text → Str.len text < pathMax

namespace RelayFile

/-- A file at the path itself. -/
def plain (bytes : List UInt8) : RelayFile :=
  ⟨bytes, none, fun text h => absurd h.symm (Option.some_ne_none text)⟩

/-- `stat -c %s` looks at the path and does not follow a link, whose size is the length of
its text. -/
def statSize (file : RelayFile) : Nat :=
  match file.link with
  | none => file.bytes.length
  | some text => Str.len text

/-- The size that a read script compares with its cap. -/
def measured (file : RelayFile) (script : String) : Option Nat :=
  if script = FileRead.script then some file.bytes.length
  else if script = Linux.FileRead.script then some file.statSize
  else none

end RelayFile

/-- How a read script ends over a file: it stops if what it measures is above the cap it is
given, and otherwise has printed `printed`. -/
def readReply (file : RelayFile) (printed : String) (c : ShellCall) : ShellReply :=
  match file.measured c.script, c.args.map Str.parseU32 with
  | some size, [_, some cap] =>
      if cap < size then .ok ⟨"", "file exceeds the relay cap", 1⟩ else .ok ⟨printed, "", 0⟩
  | _, _ => .ok ⟨"", "", 1⟩

/-- The platforms that have a relay. -/
inductive Platform
  | windows
  | linux
  deriving DecidableEq, Repr

def Platform.readScript : Platform → String
  | windows => FileRead.script
  | linux => Linux.FileRead.script

def Platform.read (host : Host) : Platform → CommandHandler
  | windows => FileRead.handler host
  | linux => Linux.FileRead.handler host

/-- What a platform's read script measures. -/
def RelayFile.sizeOn (file : RelayFile) : Platform → Nat
  | .windows => file.bytes.length
  | .linux => file.statSize

/-- The reads of both platforms. -/
def relayReads (host : Host) : List CommandHandler :=
  [Platform.windows.read host, Platform.linux.read host]

/-- The writes of both platforms. -/
def relayWrites : List CommandHandler := [FileWrite.handler, Linux.FileWrite.handler]

theorem alphabet_relayed : ∀ c ∈ '=' :: Base64.alphabet,
    (c.isAlphanum || Str.containsChar "+/=" c) = true ∧ c.utf8Size = 1 := by
  have hall : ('=' :: Base64.alphabet).all
      (fun c => (c.isAlphanum || Str.containsChar "+/=" c) && c.utf8Size == 1) = true := by
    decide
  intro c hc
  obtain ⟨hchar, hsize⟩ := Bool.and_eq_true_iff.mp (List.all_eq_true.mp hall c hc)
  exact ⟨hchar, beq_iff_eq.mp hsize⟩

theorem base64Text_chars {bytes : List UInt8} : ∀ c ∈ (base64Text bytes).toList,
    (c.isAlphanum || Str.containsChar "+/=" c) = true ∧ c.utf8Size = 1 := by
  intro c hc
  rw [base64Text, String.toList_ofList] at hc
  rcases Base64.mem_encode hc with h | rfl
  · exact alphabet_relayed c (List.mem_cons_of_mem _ h)
  · exact alphabet_relayed '=' List.mem_cons_self

/-- The cap on the text is the length of the text of as many bytes as the cap on
bytes allows. -/
theorem len_base64Text {bytes : List UInt8} (h : bytes.length ≤ relayCapBytes) :
    Str.len (base64Text bytes) ≤ relayCapB64 := by
  rw [Str.len_of_ascii fun c hc => (base64Text_chars c hc).2, base64Text, String.toList_ofList,
    Base64.length_encode]
  have hcap : relayCapBytes = 262144 := rfl
  have hcap64 : relayCapB64 = 349528 := rfl
  omega

theorem validContent_base64Text {bytes : List UInt8} (hne : bytes ≠ []) :
    FileRelay.validContent (base64Text bytes) = true := by
  refine FileRelay.validContent_iff.mpr ⟨?_, fun c hc => (base64Text_chars c hc).1⟩
  rw [base64Text, String.toList_ofList]
  exact Base64.encode_eq_nil.not.mpr hne

theorem FileRelay.write_takes_content {pathOk : String → Bool} {script content reason : String}
    {name : String} {cap : Capability} (hl : Str.len content ≤ relayCapB64)
    (hc : validContent content = true) :
    CommandHandler.Takes
      ⟨name, cap, FileRelay.write pathOk (invalid "path" reason) script⟩ "contentB64" content := by
  intro ctx hctx
  refine .required fun path _ => .ensure (by decide) fun _ => .required fun c hv => ?_
  obtain rfl : content = c := Option.some.inj (hctx.symm.trans hv)
  exact .checked (decide_eq_true hl) (.checked hc (.perform _))

theorem relayWrites_take {bytes : List UInt8} (hne : bytes ≠ [])
    (hb : bytes.length ≤ relayCapBytes) :
    ∀ w ∈ relayWrites, w.Takes "contentB64" (base64Text bytes) := by
  have hlen := len_base64Text hb
  have hcontent := validContent_base64Text hne
  simp only [relayWrites, List.forall_mem_cons]
  exact ⟨FileRelay.write_takes_content hlen hcontent, FileRelay.write_takes_content hlen hcontent,
    by simp⟩

theorem RelayFile.measured_readScript (file : RelayFile) (platform : Platform) :
    file.measured platform.readScript = some (file.sizeOn platform) := by
  have hne : Linux.FileRead.script ≠ FileRead.script := by decide
  cases platform with
  | windows => exact if_pos rfl
  | linux => exact (if_neg hne).trans (if_pos rfl)

theorem RelayFile.statSize_le (file : RelayFile) (h : file.bytes.length ≤ relayCapBytes) :
    file.statSize ≤ relayCapBytes := by
  rw [statSize]
  cases hl : file.link with
  | none => exact h
  | some text =>
      have hshort := file.link_short text hl
      have hmax : pathMax ≤ relayCapBytes := by decide
      exact (Nat.le_of_lt hshort).trans hmax

theorem RelayFile.sizeOn_le (file : RelayFile) (platform : Platform)
    (h : file.bytes.length ≤ relayCapBytes) : file.sizeOn platform ≤ relayCapBytes := by
  cases platform with
  | windows => exact h
  | linux => exact file.statSize_le h

/-- Only a link hides what is above the cap. -/
theorem RelayFile.hidden_iff {file : RelayFile} {platform : Platform} :
    (relayCapBytes < file.bytes.length → relayCapBytes < file.sizeOn platform) ↔
      platform = .windows ∨ file.link = none ∨ file.bytes.length ≤ relayCapBytes := by
  cases platform with
  | windows => exact iff_of_true id (.inl rfl)
  | linux =>
      rw [sizeOn, statSize]
      cases hl : file.link with
      | none => exact iff_of_true id (.inr (.inl rfl))
      | some text =>
          have hshort := file.link_short text hl
          have hmax : pathMax ≤ relayCapBytes := by decide
          have hnot : ¬ relayCapBytes < Str.len text := by omega
          simp [hnot]

theorem FileRelay.readStage_settle (host : Host) (platform : Platform) (path : String)
    (file : RelayFile) (printed : String) :
    (readStage host platform.readScript path).settle
        (readReply file printed (readStage host platform.readScript path).call) =
      if relayCapBytes < file.sizeOn platform then
        .error (.shell (.nonZeroExit 1 "file exceeds the relay cap"))
      else readContent host path ⟨printed, "", 0⟩ := by
  have hcap : Str.parseU32 (toString relayCapBytes) = some relayCapBytes := by decide
  have hreply : readReply file printed (readStage host platform.readScript path).call =
      if relayCapBytes < file.sizeOn platform then .ok ⟨"", "file exceeds the relay cap", 1⟩
      else .ok ⟨printed, "", 0⟩ := by
    simp only [readReply, readStage, Stage.call, RelayFile.measured_readScript, List.map_cons,
      List.map_nil, hcap]
  rw [hreply]
  by_cases h : relayCapBytes < file.sizeOn platform
  · rw [if_pos h, if_pos h]
    rfl
  · rw [if_neg h, if_neg h]
    rfl

theorem FileRelay.readContent_ok {host : Host} {printed content : String}
    (h : (parseJson host printed).get "contentB64" = .str content) (path : String) :
    ∃ v, readContent host path ⟨printed, "", 0⟩ = .ok v ∧ v.get "contentB64" = .str content := by
  refine ⟨.obj [("path", .str path), ("contentB64", .str content),
    ("sha256", (parseJson host printed).get "sha256"),
    ("size", (parseJson host printed).get "size")], ?_, rfl⟩
  simp only [readContent, h, Json.asStr, Option.isNone_some, Bool.false_eq_true, if_false]

theorem Platform.read_staged (host : Host) (platform : Platform) (ctx : Params) :
    Staged (fun s => ∃ path, s = FileRelay.readStage host platform.readScript path)
      ((platform.read host).execute ctx) := by
  cases platform with
  | windows =>
      exact (FileRelay.read_staged rfl FileRead.script host ctx).mono
        fun s ⟨path, _, _, h⟩ => ⟨path, h⟩
  | linux =>
      exact (FileRelay.read_staged rfl Linux.FileRead.script host ctx).mono
        fun s ⟨path, _, _, h⟩ => ⟨path, h⟩

theorem mem_relayReads {host : Host} {r : CommandHandler} (h : r ∈ relayReads host) :
    ∃ platform : Platform, r = platform.read host := by
  simp only [relayReads, List.mem_cons, List.not_mem_nil, or_false] at h
  rcases h with rfl | rfl
  · exact ⟨.windows, rfl⟩
  · exact ⟨.linux, rfl⟩

/-- What a read returns for a file within the cap, both platforms' writes take and it
decodes to the file's bytes; over a longer file it fails. -/
def RoundTrips (file : RelayFile) (result : Except CommandError Json) : Prop :=
  (file.bytes ≠ [] → file.bytes.length ≤ relayCapBytes →
    ∃ v content, result = .ok v ∧ v.get "contentB64" = .str content ∧
      (∀ w ∈ relayWrites, w.Takes "contentB64" content) ∧
      Base64.decode content.toList = some file.bytes) ∧
  (relayCapBytes < file.bytes.length → ∃ e, result = .error e)

/-- An accepted read, whose output is read as the text of the file's bytes, makes the round
trip exactly if it runs on Windows, the path is no link, or the file is within the cap. -/
theorem relay_round_trip_iff (host : Host) (platform : Platform) (ctx : Params)
    (file : RelayFile) (printed : String) (past : List ShellCall)
    (ha : ((platform.read host).execute ctx).failed = false)
    (hp : (parseJson host printed).get "contentB64" = .str (base64Text file.bytes)) :
    RoundTrips file
        (((platform.read host).execute ctx).run (fun _ => readReply file printed) past).result ↔
      platform = .windows ∨ file.link = none ∨ file.bytes.length ≤ relayCapBytes := by
  obtain ⟨_, ⟨path, rfl⟩, he⟩ := (platform.read_staged host ctx).performed ha
  obtain ⟨v, hv, hcontent⟩ := FileRelay.readContent_ok hp path
  rw [he, run_perform, FileRelay.readStage_settle, hv, ← RelayFile.hidden_iff]
  constructor
  · rintro ⟨-, hlong⟩ h
    by_contra hnot
    obtain ⟨e, he⟩ := hlong h
    rw [if_neg hnot] at he
    cases he
  · intro hhidden
    constructor
    · intro hne hb
      refine ⟨v, base64Text file.bytes, ?_, hcontent, relayWrites_take hne hb, ?_⟩
      · rw [if_neg (Nat.not_lt.mpr (file.sizeOn_le platform hb))]
      · rw [base64Text, String.toList_ofList, Base64.decode_encode]
    · intro h
      exact ⟨_, if_pos (hhidden h)⟩

/-- The output of the Linux read over the file `pki`, and a parser that reads it. -/
def pkiPrinted : String :=
  "\x7b\"contentB64\":\"cGtp\",\"sha256\":" ++
  "\"b74ba4621b223cd35b5c364d2b2c46a90ebd96f63f139107ecf513dc840cead8\",\"size\":3\x7d"

/-- What it reads. -/
def pkiPayload : Json :=
  .obj [("contentB64", .str "cGtp"),
    ("sha256", .str "b74ba4621b223cd35b5c364d2b2c46a90ebd96f63f139107ecf513dc840cead8"),
    ("size", .int 3)]

def pkiHost : Host :=
  { Host.idle with fromStr := fun text => if text = pkiPrinted then some pkiPayload else none }

theorem pkiHost_reads :
    (parseJson pkiHost pkiPrinted).get "contentB64" = .str (base64Text [112, 107, 105]) := by
  have htrim : Str.trim pkiPrinted = pkiPrinted := by decide
  have hread : pkiHost.fromStr pkiPrinted = some pkiPayload := by
    show (if pkiPrinted = pkiPrinted then some pkiPayload else none) = _
    rw [if_pos rfl]
  have htext : base64Text [112, 107, 105] = "cGtp" := by decide
  rw [parseJson_of_fromStr htrim hread, htext]
  rfl

def transferRead : Params := [("path", "/var/lib/pki-executor/transfer/ca.req")]

theorem relay_round_trip_pki :
    RoundTrips (.plain [112, 107, 105]) (((Platform.linux.read pkiHost).execute transferRead).run
      (fun _ => readReply (.plain [112, 107, 105]) pkiPrinted) []).result :=
  (relay_round_trip_iff pkiHost .linux transferRead (.plain [112, 107, 105]) pkiPrinted []
    (by decide) pkiHost_reads).mpr (.inr (.inl rfl))

theorem bootLink_short :
    ∀ text, some "/srv/images/boot.img" = some text → Str.len text < pathMax := by
  rintro text h
  obtain rfl := Option.some.inj h
  decide

/-- A link to a file of 300000 bytes, which is above the cap. -/
def linkedFile : RelayFile :=
  ⟨List.replicate 300000 0, some "/srv/images/boot.img", bootLink_short⟩

/-- A parser that finds the text of that file in what is printed. -/
def linkedHost : Host :=
  { Host.idle with
    fromStr := fun _ => some (.obj [("contentB64", .str (base64Text linkedFile.bytes))]) }

/-- On Linux it is returned in full. -/
theorem linked_read_in_full :
    ¬ ∀ (host : Host) (platform : Platform) (ctx : Params) (file : RelayFile) (printed : String)
      (past : List ShellCall), ((platform.read host).execute ctx).failed = false →
      (parseJson host printed).get "contentB64" = .str (base64Text file.bytes) →
      RoundTrips file
        (((platform.read host).execute ctx).run (fun _ => readReply file printed) past).result := by
  intro h
  have ha : ((Platform.linux.read linkedHost).execute transferRead).failed = false := by decide
  have hp : (parseJson linkedHost "").get "contentB64" = .str (base64Text linkedFile.bytes) := rfl
  obtain ⟨-, hlong⟩ := h linkedHost .linux transferRead linkedFile "" [] ha hp
  obtain ⟨_, ⟨path, rfl⟩, he⟩ := (Platform.linux.read_staged linkedHost transferRead).performed ha
  obtain ⟨v, hv, -⟩ := FileRelay.readContent_ok hp path
  have hshort : ¬ relayCapBytes < linkedFile.sizeOn .linux := by decide
  rw [he, run_perform, FileRelay.readStage_settle, if_neg hshort, hv] at hlong
  have hbytes : relayCapBytes < linkedFile.bytes.length := by
    rw [linkedFile, List.length_replicate]
    decide
  obtain ⟨e, he⟩ := hlong hbytes
  cases he

end PkiExecutor
