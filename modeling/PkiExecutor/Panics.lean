/-
# `PkiExecutor.Panics` — slices and indices that stay in range

A slice off a character boundary, an index past the end and an `unwrap` of nothing
panic, and a panic leaves a job without its terminal frame.  The catalog has six
such operations, in five commands.  Here these commands are written with a panic as
an outcome of its own, each operation behind the checks that stand before it, and
`handlers_never_panic` says that the outcome does not occur.
-/
import PkiExecutor.Catalog

namespace PkiExecutor

/-! ## Programs that may panic -/

/-- What keeps a handler from returning a value. -/
inductive Fault
  | panicked
  | failed (e : CommandError)

/-- A handler's program in which a panic is an end of its own. -/
abbrev Faulting := Prog OpRunState ShellCall ShellReply Fault

namespace Faulting

/-- A program that does not panic. -/
def lift {α : Type} (p : Exec α) : Faulting α := p.mapErr .failed

/-- A value that an operation yields unless it panics. -/
def orPanic {α : Type} : Option α → Faulting α
  | some a => pure a
  | none => .fail .panicked

/-- `ensure` of a check that may panic. -/
def ensure (cond : Option Bool) (e : CommandError) : Faulting Unit := do
  let cond ← orPanic cond
  lift (PkiExecutor.ensure cond e)

def forEach {α : Type} (check : α → Faulting Unit) : List α → Faulting Unit
  | [] => pure ()
  | x :: xs => do
      check x
      forEach check xs

theorem lift_bind {α β : Type} (p : Exec α) (f : α → Exec β) :
    lift (p >>= f) = lift p >>= fun a => lift (f a) := by
  induction p with
  | ok a => rfl
  | fail e => rfl
  | tell m k ih => exact congrArg (Prog.tell m) ih
  | ask q k ih => exact congrArg (Prog.ask q) (funext ih)

theorem ensure_some (cond : Bool) (e : CommandError) :
    ensure (some cond) e = lift (PkiExecutor.ensure cond e) := rfl

theorem forEach_lift {α : Type} {check : α → Faulting Unit} {check' : α → Exec Unit}
    (h : ∀ x, check x = lift (check' x)) (xs : List α) :
    forEach check xs = lift (PkiExecutor.forEach check' xs) := by
  induction xs with
  | nil => rfl
  | cons x xs ih =>
      rw [forEach, h x, ih]
      exact (lift_bind _ _).symm

theorem run_lift (p : Exec Json) (world : List ShellCall → ShellCall → ShellReply)
    (past : List ShellCall) : ((lift p).run world past).result ≠ .error .panicked := by
  rw [lift, Prog.run_mapErr]
  cases (p.run world past).result with
  | ok v =>
      intro h
      cases h
  | error e =>
      intro h
      cases h

end Faulting

open Faulting (lift)

/-- A check that yields something yields what the check without a panic says. -/
theorem eq_some_getD {o : Option Bool} (h : ∃ b, o = some b) : o = some (o.getD false) := by
  obtain ⟨b, rfl⟩ := h
  rfl

/-! ## The path prefixes -/

namespace File

/-- The check with its slices, `none` being a panic: they are reached by paths that
passed the first two tests. -/
def relayPathOk? (path : String) : Option Bool :=
  if validWindowsPath path && !Str.containsStr path ".." then
    allowedPrefixes.anyM (underPrefix? path)
  else some false

theorem ascii_of_validWindowsPath {path : String} (h : validWindowsPath path = true) :
    ∀ c ∈ path.toList, c.utf8Size = 1 := by
  have hextra : Str.all " ._-\\()" (fun c => c.utf8Size == 1) = true := by decide
  unfold validWindowsPath at h
  split at h
  · rename_i drive chars hpath
    simp only [Bool.and_eq_true, List.all_eq_true, Bool.or_eq_true] at h
    rw [hpath]
    have hdrive : drive.isAlphanum = true := by simp [Char.isAlphanum, h.1.1]
    simp only [List.forall_mem_cons]
    refine ⟨Str.utf8Size_of_isAlphanum hdrive, by decide, by decide, ?_⟩
    intro c hc
    rcases h.2 c hc with ha | he
    · exact Str.utf8Size_of_isAlphanum ha
    · exact beq_iff_eq.mp (Str.all_of_containsChar hextra he)
  · cases h

theorem underPrefix?_eq {path : String} (h : ∀ c ∈ path.toList, c.utf8Size = 1) (pfx : String) :
    underPrefix? path pfx = some (underPrefix path pfx) := by
  refine eq_some_getD ?_
  unfold underPrefix?
  by_cases hlen : Str.len pfx < Str.len path
  · have hslice : Str.sliceTo path (Str.len pfx) =
        some (String.ofList (path.toList.take (Str.len pfx))) := by
      rw [Str.len_of_ascii h] at hlen
      rw [Str.sliceTo, Str.takeBytes_of_ascii _ _ h (Nat.le_of_lt hlen), Option.map_some]
    rw [if_pos hlen, hslice]
    exact ⟨_, rfl⟩
  · rw [if_neg hlen]
    exact ⟨false, rfl⟩

theorem relayPathOk?_eq (path : String) : relayPathOk? path = some (relayPathOk path) := by
  unfold relayPathOk? relayPathOk
  cases hv : validWindowsPath path && !Str.containsStr path ".." with
  | false => rfl
  | true =>
      have hascii := ascii_of_validWindowsPath (Bool.and_eq_true_iff.mp hv).1
      have hunder : underPrefix? path = fun pfx => pure (underPrefix path pfx) :=
        funext (underPrefix?_eq hascii)
      rw [if_pos rfl, hunder, List.anyM_pure, Bool.true_and]
      rfl

/-- Without the tests before it the slice may fall inside a character. -/
example : underPrefix? "C:\\Transferé" "C:\\Transfer\\" = none := by decide

end File

/-! ## The URL -/

theorem sliceFrom_of_startsWith {s t : String} (h : Str.startsWith s t = true) :
    ∃ rest, Str.sliceFrom s (Str.len t) = some rest := by
  obtain ⟨rest, hrest⟩ := Str.startsWith_iff.mp h
  have htake : Str.takeBytes (Str.len t) s.toList = some t.toList := by
    rw [Str.len_eq_widths, ← hrest, Str.takeBytes_append]
  rw [Str.sliceFrom, htake]
  exact ⟨_, rfl⟩

theorem CertSecureVerify.validHttpsUrl?_eq (value : String) :
    validHttpsUrl? value = some (validHttpsUrl value) := by
  refine eq_some_getD ?_
  unfold validHttpsUrl?
  cases hv : decide (Str.len value ≤ 200) && Str.startsWith value "https://" with
  | false => exact ⟨false, rfl⟩
  | true =>
      obtain ⟨rest, hrest⟩ := sliceFrom_of_startsWith (Bool.and_eq_true_iff.mp hv).2
      have hlen : Str.len "https://" = 8 := by decide
      rw [hlen] at hrest
      rw [if_pos rfl, hrest]
      exact ⟨_, rfl⟩

/-! ## The publication entry -/

theorem byteAt_of_lt {s : String} {n : Nat} (h : n < Str.len s) : ∃ b, Str.byteAt s n = some b := by
  have hlen : (s.toList.flatMap String.utf8EncodeChar).length = Str.len s := by
    rw [Str.len_eq_widths]
    generalize s.toList = cs
    induction cs with
    | nil => rfl
    | cons c cs ih =>
        rw [List.flatMap_cons, List.length_append, ih, String.length_utf8EncodeChar, Str.widths]
  exact ⟨_, List.getElem?_eq_getElem (hlen ▸ h)⟩

namespace CaConfigureCdpAia

theorem onDrive?_some (location : String) : ∃ b, onDrive? location = some b := by
  unfold onDrive?
  by_cases hlen : 3 < Str.len location
  · rw [if_pos hlen]
    obtain ⟨b1, h1⟩ := byteAt_of_lt (n := 1) (s := location) (by omega)
    obtain ⟨b2, h2⟩ := byteAt_of_lt (n := 2) (s := location) (by omega)
    have hne : location.toList ≠ [] := by
      intro he
      rw [Str.len_eq_widths, he, Str.widths] at hlen
      omega
    obtain ⟨drive, rest, hd⟩ := List.exists_cons_of_ne_nil hne
    rw [h1, h2, hd]
    by_cases hb1 : b1 ≠ 58
    · exact ⟨false, by simp [hb1]⟩
    · by_cases hb2 : b2 ≠ 92
      · exact ⟨false, by simp [hb2]⟩
      · rw [not_not] at hb1 hb2
        exact ⟨drive.isAlpha, by simp [hb1, hb2]⟩
  · rw [if_neg hlen]
    exact ⟨false, rfl⟩

theorem publicationEntryOk?_eq (entry : String) :
    publicationEntryOk? entry = some (validPublicationEntry entry) := by
  refine eq_some_getD ?_
  unfold publicationEntryOk?
  cases Str.splitOnce entry ':' with
  | none => exact ⟨false, rfl⟩
  | some p =>
      obtain ⟨flags, location⟩ := p
      obtain ⟨b, hb⟩ := onDrive?_some location
      simp only [hb]
      split
      · exact ⟨false, rfl⟩
      · split
        · exact ⟨_, rfl⟩
        · exact ⟨_, rfl⟩

/-- The checks of one list, up to its first bad entry. -/
def checkEntries? (p : String × List String) : Faulting Unit :=
  Faulting.forEach (fun entry => Faulting.ensure (publicationEntryOk? entry)
    (invalid p.1 ("entry '" ++ entry ++ "' is not a flag-prefixed publication URL"))) p.2

theorem forEach_checkEntries (name : String) : ∀ entries : List String,
    forEach (fun entry => ensure (validPublicationEntry entry)
      (invalid name ("entry '" ++ entry ++ "' is not a flag-prefixed publication URL"))) entries =
      checkEntries (name, entries)
  | [] => rfl
  | entry :: entries => by
      rw [forEach, forEach_checkEntries name entries, checkEntries, checkEntries, List.find?_cons]
      cases validPublicationEntry entry with
      | true => rfl
      | false => rfl

theorem checkEntries?_eq (p : String × List String) : checkEntries? p = lift (checkEntries p) := by
  rw [← forEach_checkEntries p.1 p.2]
  refine Faulting.forEach_lift (fun entry => ?_) p.2
  rw [publicationEntryOk?_eq, Faulting.ensure_some]

/-- `ca.configure_cdp_aia` -/
def execute? (ctx : Params) : Faulting Json := do
  let aiaEntries := splitEntries ((param ctx "aiaUrls").getD "")
  let cdpEntries := splitEntries ((param ctx "cdpUrls").getD "")
  lift (ensure (!(aiaEntries.isEmpty && cdpEntries.isEmpty)) (.missingParam "aiaUrls or cdpUrls"))
  Faulting.forEach checkEntries? [("aiaUrls", aiaEntries), ("cdpUrls", cdpEntries)]
  lift (perform (stage aiaEntries cdpEntries))

theorem execute?_eq (ctx : Params) : execute? ctx = lift (execute ctx) := by
  rw [execute?, execute, Faulting.lift_bind]
  refine congrArg _ (funext fun _ => ?_)
  rw [Faulting.forEach_lift checkEntries?_eq, Faulting.lift_bind]

end CaConfigureCdpAia

/-! ## The other commands -/

namespace File

/-- `file.read` -/
def read? (host : Host) (ctx : Params) : Faulting Json := do
  let path ← lift (required ctx "path")
  Faulting.ensure (relayPathOk? path) invalidRelayPath
  lift (perform (FileRelay.readStage host FileRead.script path))

/-- `file.write` -/
def write? (ctx : Params) : Faulting Json := do
  let path ← lift (required ctx "path")
  Faulting.ensure (relayPathOk? path) invalidRelayPath
  lift do
    let content ← required ctx "contentB64"
    ensure (decide (Str.len content ≤ relayCapB64))
      (invalid "contentB64" "exceeds the 256 KiB relay cap")
    ensure (FileRelay.validContent content) (invalid "contentB64" "must be base64")
    perform (FileRelay.writeStage FileWrite.script path content)

theorem read?_eq (host : Host) (ctx : Params) :
    read? host ctx = lift (FileRead.execute host ctx) := by
  rw [read?, FileRead.execute, FileRelay.read, Faulting.lift_bind]
  refine congrArg _ (funext fun path => ?_)
  rw [relayPathOk?_eq, Faulting.ensure_some, Faulting.lift_bind]

theorem write?_eq (ctx : Params) : write? ctx = lift (FileWrite.execute ctx) := by
  rw [write?, FileWrite.execute, FileRelay.write, Faulting.lift_bind]
  refine congrArg _ (funext fun path => ?_)
  rw [relayPathOk?_eq, Faulting.ensure_some]
  exact (Faulting.lift_bind _ _).symm

end File

namespace CertSecureVerify

/-- The check of one URL, an empty one passed over. -/
def checkUrl? (p : String × String) : Faulting Unit :=
  if p.2.isEmpty then pure ()
  else Faulting.ensure (validHttpsUrl? p.2) (invalid p.1 "must be an https:// URL")

theorem checkUrl?_eq (p : String × String) : checkUrl? p =
    lift (ensure (p.2.isEmpty || validHttpsUrl p.2) (invalid p.1 "must be an https:// URL")) := by
  rw [checkUrl?]
  cases p.2.isEmpty with
  | true => rfl
  | false =>
      rw [if_neg (by decide), validHttpsUrl?_eq, Faulting.ensure_some]
      rfl

/-- `certsecure.verify` -/
def execute? (host : Host) (ctx : Params) : Faulting Json := do
  let frontend ← lift (required ctx "frontendUrl")
  let keycloak := (param ctx "keycloakUrl").getD ""
  Faulting.forEach checkUrl? [("frontendUrl", frontend), ("keycloakUrl", keycloak)]
  lift (perform (stage host frontend keycloak))

theorem execute?_eq (host : Host) (ctx : Params) : execute? host ctx = lift (execute host ctx) := by
  rw [execute?, execute, Faulting.lift_bind]
  refine congrArg _ (funext fun frontend => ?_)
  show Faulting.forEach checkUrl? _ >>= _ = lift (forEach _ _ >>= _)
  rw [Faulting.forEach_lift checkUrl?_eq, Faulting.lift_bind]

end CertSecureVerify

namespace CertSecureMakeCert

/-- The result, with its use of `names[0]`. -/
def readCert? (host : Host) (certPath keyPath : String) (names : List String) (ip : String)
    (output : PowerShellOutput) : Faulting Json :=
  let payload := parseJson host output.stdout
  if (payload.get "contentB64").asStr.isNone then
    lift (.fail (.shell (.nonZeroExit 1 "certsecure.make_cert produced no certificate")))
  else do
    let subject ← Faulting.orPanic names[0]?
    return .obj [("certPath", .str certPath), ("keyPath", .str keyPath),
      ("subject", .str subject), ("sans", .strings (sans names ip)),
      ("contentB64", payload.get "contentB64"), ("sha256", payload.get "sha256"),
      ("notAfter", payload.get "notAfter")]

/-- What follows the checks, with its use of `names[0]` among the arguments. -/
def perform? (host : Host) (certPath keyPath : String) (names : List String) (ip days : String) :
    Faulting Json := do
  lift (report (.running "generating TLS certificate" 30))
  let subject ← Faulting.orPanic names[0]?
  let output ← lift (runShell script
    [certPath, keyPath, subject, Str.join "," (sans names ip), days])
  let output ← lift (ofExcept (requireSuccess output))
  let result ← readCert? host certPath keyPath names ip output
  lift (report (.done result))
  return result

/-- `certsecure.make_cert` -/
def execute? (host : Host) (ctx : Params) : Faulting Json := do
  let namesRaw ← lift (required ctx "names")
  let names := parseNames namesRaw
  lift (ensure (!names.isEmpty && names.all validDnsName)
    (invalid "names" "must be a comma-separated list of DNS names"))
  lift (ensure (decide (names.length ≤ 8)) (invalid "names" "at most 8 subject alternative names"))
  let ip := (param ctx "ip").getD ""
  lift (ensure (ip.isEmpty || CertSecure.validIpv4 ip) (invalid "ip" "must be an IPv4 address"))
  let certPath ← lift (required ctx "certPath")
  let keyPath ← lift (required ctx "keyPath")
  lift (CertSecure.checkPaths certPath keyPath)
  let days := (param ctx "days").getD "825"
  lift (ensure (validDays days) (invalid "days" "must be an integer in 1-3650"))
  perform? host certPath keyPath names ip days

theorem readCert?_eq (host : Host) (certPath keyPath ip first : String) (rest : List String)
    (output : PowerShellOutput) : readCert? host certPath keyPath (first :: rest) ip output =
      lift (ofExcept (readCert host certPath keyPath (first :: rest) ip output)) := by
  simp only [readCert?, readCert]
  split
  · rfl
  · rfl

theorem perform?_eq (host : Host) (certPath keyPath ip days first : String) (rest : List String) :
    perform? host certPath keyPath (first :: rest) ip days =
      lift (perform (stage host certPath keyPath (first :: rest) ip days)) := by
  have hread : readCert? host certPath keyPath (first :: rest) ip =
      fun output => lift (ofExcept (readCert host certPath keyPath (first :: rest) ip output)) :=
    funext (readCert?_eq host certPath keyPath ip first rest)
  rw [perform?, perform, hread]
  simp only [Faulting.lift_bind]
  rfl

theorem execute?_eq (host : Host) (ctx : Params) : execute? host ctx = lift (execute host ctx) := by
  rw [execute?, execute, Faulting.lift_bind]
  refine congrArg _ (funext fun namesRaw => ?_)
  cases hnames : parseNames namesRaw with
  | nil => rfl
  | cons first rest =>
      simp only [perform?_eq, Faulting.lift_bind]

end CertSecureMakeCert

/-! ## No panic -/

/-- The commands whose handlers slice, index or unwrap, with their panics. -/
def slicing (host : Host) : List (CommandHandler × (Params → Faulting Json)) :=
  [(CaConfigureCdpAia.handler, CaConfigureCdpAia.execute?),
   (FileRead.handler host, File.read? host), (FileWrite.handler, File.write?),
   (CertSecureMakeCert.handler host, CertSecureMakeCert.execute? host),
   (CertSecureVerify.handler host, CertSecureVerify.execute? host)]

/-- They are handlers of the catalog, and what they do is what the catalog's do. -/
theorem slicing_eq {host : Host} : ∀ p ∈ slicing host,
    p.1 ∈ baseHandlers host ∧ ∀ ctx, p.2 ctx = lift (p.1.execute ctx) := by
  simp only [slicing, List.forall_mem_cons]
  refine ⟨⟨?_, CaConfigureCdpAia.execute?_eq⟩, ⟨?_, File.read?_eq host⟩, ⟨?_, File.write?_eq⟩,
    ⟨?_, CertSecureMakeCert.execute?_eq host⟩, ⟨?_, CertSecureVerify.execute?_eq host⟩, ?_⟩
  all_goals simp [baseHandlers]

/-- Whatever the strings, every slice and every index of a check falls on a character
within them, and no handler panics on its parameters or on what the shell replies. -/
theorem handlers_never_panic (host : Host) :
    (∀ path, File.relayPathOk? path = some (File.relayPathOk path)) ∧
    (∀ value, CertSecureVerify.validHttpsUrl? value = some (CertSecureVerify.validHttpsUrl value)) ∧
    (∀ entry, CaConfigureCdpAia.publicationEntryOk? entry =
      some (CaConfigureCdpAia.validPublicationEntry entry)) ∧
    ∀ p ∈ slicing host, ∀ ctx, p.2 ctx = lift (p.1.execute ctx) ∧
      ∀ world past, ((p.2 ctx).run world past).result ≠ .error .panicked := by
  refine ⟨File.relayPathOk?_eq, CertSecureVerify.validHttpsUrl?_eq,
    CaConfigureCdpAia.publicationEntryOk?_eq, ?_⟩
  intro p hp ctx
  have hlift := (slicing_eq p hp).2 ctx
  refine ⟨hlift, ?_⟩
  intro world past
  rw [hlift]
  exact Faulting.run_lift _ world past

end PkiExecutor
