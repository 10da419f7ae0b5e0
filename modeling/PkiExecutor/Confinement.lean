/-
# `PkiExecutor.Confinement` — where the paths of the relay and of the certificates lead

Two families of commands take a path from their caller.  The relay
(`file.read`, `file.write`) confines it by an allowlist, one per platform:
whatever string passes leads, once normalised, into one of the allowed
directories.  `certsecure.make_cert` and `certsecure.install` compare a raw
prefix that lacks its last separator and let `..` pass, so there the product
directory confines some accepted paths and not others; `inside` says which.
-/
import PkiExecutor.Catalog
import PkiExecutor.Lib.Path

namespace PkiExecutor

open PkiExecutor.Path

/-! ## The Windows relay -/

namespace File

/-- A drive and the names below it, `..` stopping at the drive. -/
def normalise (path : String) : List (List Char) :=
  match path.toList.splitOn '\\' with
  | [] => []
  | drive :: pieces => drive :: resolve (pieces.map move)

/-- Names as a case-insensitive file system compares them. -/
def fold (names : List (List Char)) : List (List Char) := names.map (List.map Char.toLower)

/-- The path is one of the allowed directories or lies beneath one. -/
def Confined (path : String) : Prop :=
  ∃ dir ∈ allowedPrefixes, fold (normalise dir) <+: fold (normalise path)

/-- A path that begins with a drive and never goes up normalises to its names. -/
theorem normalise_of_drive {path : String} {d : Char} {chars : List Char}
    (hp : path.toList = d :: ':' :: '\\' :: chars) (hd : d ≠ '\\')
    (hup : Str.containsStr path ".." = false) : normalise path = names (moves '\\' path) := by
  have hsplit : path.toList.splitOn '\\' = [d, ':'] :: chars.splitOn '\\' := by
    simp [hp, List.splitOn_cons_eq_if_modifyHead, hd]
  have hmove : move [d, ':'] = .into [d, ':'] := by simp [move]
  have hnoUp : .up ∉ (chars.splitOn '\\').map move := by
    intro hu
    have hmoves : .up ∈ moves '\\' path := by
      rw [moves, hsplit, List.map_cons]
      exact List.mem_cons_of_mem _ hu
    exact Str.containsStr_false.mp hup (up_mem_moves hmoves)
  simp only [normalise, moves, hsplit, List.map_cons, hmove, names]
  rw [resolve_of_noUp hnoUp]

theorem fold_names (path : String) :
    fold (names (moves '\\' path)) = names (moves '\\' (Str.toAsciiLowercase path)) := by
  rw [moves, moves, Str.toAsciiLowercase, String.toList_ofList,
    splitOn_map fun c => Str.toLower_eq_iff (by decide),
    names_map_move fun c => Str.toLower_eq_iff (by decide)]
  rfl

theorem toList_of_validWindowsPath {path : String} (h : validWindowsPath path = true) :
    ∃ d chars, path.toList = d :: ':' :: '\\' :: chars ∧ d ≠ '\\' := by
  unfold validWindowsPath at h
  split at h
  · rename_i d chars hp
    refine ⟨d, chars, hp, ?_⟩
    rintro rfl
    rw [Bool.and_eq_true_iff, Bool.and_eq_true_iff] at h
    exact absurd h.1.1 (by decide)
  · cases h

theorem lower_prefix_of_underPrefix {path pfx : String} (h : underPrefix path pfx = true) :
    (Str.toAsciiLowercase pfx).toList <+: (Str.toAsciiLowercase path).toList := by
  unfold underPrefix underPrefix? at h
  split at h
  · cases hs : Str.sliceTo path (Str.len pfx) with
    | none => simp [hs] at h
    | some start =>
        have heq : start.toList.map Char.toLower = pfx.toList.map Char.toLower := by
          simpa [hs, Str.eqIgnoreAsciiCase] using h
        simp only [Str.toAsciiLowercase, String.toList_ofList]
        rw [← heq]
        exact (Str.sliceTo_prefix hs).map Char.toLower
  · cases h

theorem confined {path : String} (h : relayPathOk path = true) : Confined path := by
  unfold relayPathOk at h
  simp only [Bool.and_eq_true, Bool.not_eq_true', List.any_eq_true] at h
  obtain ⟨⟨hw, hup⟩, dir, hdir, hunder⟩ := h
  obtain ⟨d, chars, hp, hd⟩ := toList_of_validWindowsPath hw
  have hdirs : ∀ dir ∈ allowedPrefixes, fold (normalise dir) = fold (names (moves '\\' dir)) ∧
      (Str.toAsciiLowercase dir).toList.getLast? = some '\\' := by
    decide
  refine ⟨dir, hdir, ?_⟩
  rw [(hdirs dir hdir).1, normalise_of_drive hp hd hup, fold_names, fold_names]
  exact names_moves_prefix (lower_prefix_of_underPrefix hunder) (hdirs dir hdir).2

end File

/-! ## The Linux relay -/

namespace Linux

/-- The path is one of the allowed directories or lies beneath one. -/
def Confined (path : String) : Prop :=
  ∃ dir ∈ allowedPrefixes, normalise '/' dir <+: normalise '/' path

theorem confined {path : String} (h : relayPathOk path = true) : Confined path := by
  unfold relayPathOk at h
  simp only [Bool.and_eq_true, Bool.not_eq_true', List.any_eq_true] at h
  obtain ⟨⟨-, hup⟩, dir, hdir, -, hstart⟩ := h
  have hdirs : ∀ dir ∈ allowedPrefixes, normalise '/' dir = names (moves '/' dir) ∧
      dir.toList.getLast? = some '/' := by
    decide
  refine ⟨dir, hdir, ?_⟩
  rw [(hdirs dir hdir).1, normalise_of_noDotDot (Str.containsStr_false.mp hup)]
  exact names_moves_prefix (Str.startsWith_iff.mp hstart) (hdirs dir hdir).2

end Linux

/-- Every call the handler makes is given the `path` parameter, of which `P`
holds, and one argument more. -/
def HandsOver (P : String → Prop) (h : CommandHandler) : Prop :=
  ∀ (ctx : Params) (world : List ShellCall → ShellCall → ShellReply) (past : List ShellCall),
    ∀ c ∈ Event.queries ((h.execute ctx).run world past).trace,
      ∃ path other, param ctx "path" = some path ∧ c.args = [path, other] ∧ P path

theorem HandsOver.of_staged {P : String → Prop} {h : CommandHandler}
    (hs : ∀ ctx, Staged (fun s => ∃ path other, param ctx "path" = some path ∧
      s.args = [path, other] ∧ P path) (h.execute ctx)) : HandsOver P h := by
  intro ctx world past c hc
  obtain ⟨s, hP, rfl⟩ := (Handled.staged (hs ctx)).mem_queries hc
  exact hP

theorem FileRelay.handsOver {P : String → Prop} {pathOk : String → Bool} {badPath : CommandError}
    (hb : badPath.isParam = true) (hP : ∀ path, pathOk path = true → P path) (host : Host)
    {reader writer : CommandHandler} {readScript writeScript : String}
    (hr : reader.execute = read pathOk badPath readScript host)
    (hw : writer.execute = write pathOk badPath writeScript) :
    ∀ h ∈ [reader, writer], HandsOver P h := by
  simp only [List.forall_mem_cons]
  refine ⟨.of_staged fun ctx => ?_, .of_staged fun ctx => ?_, by simp⟩
  · rw [hr]
    refine (read_staged hb readScript host ctx).mono ?_
    rintro s ⟨path, hp, hok, rfl⟩
    exact ⟨path, _, hp, rfl, hP path hok⟩
  · rw [hw]
    refine (write_staged hb writeScript ctx).mono ?_
    rintro s ⟨path, content, hp, -, hok, -, -, rfl⟩
    exact ⟨path, content, hp, rfl, hP path hok⟩

/-- Both platforms' checks confine every string they accept, and no other path
reaches the shell. -/
theorem relay_confined (host : Host) :
    (∀ path, File.relayPathOk path = true → File.Confined path) ∧
    (∀ path, Linux.relayPathOk path = true → Linux.Confined path) ∧
    (∀ h ∈ [FileRead.handler host, FileWrite.handler], HandsOver File.Confined h) ∧
    ∀ h ∈ [Linux.FileRead.handler host, Linux.FileWrite.handler],
      HandsOver Linux.Confined h :=
  ⟨fun _ => File.confined, fun _ => Linux.confined,
    FileRelay.handsOver rfl (fun _ => File.confined) host rfl rfl,
    FileRelay.handsOver rfl (fun _ => Linux.confined) host rfl rfl⟩

example : File.relayPathOk "c:\\TRANSFER\\sub\\.\\ca (1).crt" = true := by decide

/-! ## The product directory -/

namespace CertSecure

/-- The names of the product's directory. -/
def productDir : List (List Char) := normalise '/' installDir

/-- The path lies beneath the product directory. -/
def Confined (path : String) : Prop := Beneath productDir (normalise '/' path)

/-- An accepted path that never goes up is inside if the product directory's name
ends where the prefix does and something below it is named.  One that does is
inside if, walking its pieces with `..` taking back the last name, it ends with
both names of the product directory and at least one more. -/
def inside (path : String) : Bool :=
  let ms := moves '/' path
  if .up ∈ ms then
    decide ((depth productDir ms).shared = 2 ∧ 0 < (depth productDir ms).extra)
  else Str.startsWith path "/opt/certsecure-manager/" && decide (2 < (names ms).length)

/-- The names of a text that continues the product directory's: the rest up to
the next separator belongs to the directory's own name. -/
theorem names_of_continued {path : String} {rest first : List Char} {others : List (List Char)}
    (hp : path.toList = installDir.toList ++ rest) (hr : rest.splitOn '/' = first :: others) :
    names (moves '/' path) =
      "opt".toList :: ("certsecure-manager".toList ++ first) :: names (others.map move) := by
  have hsplit : path.toList.splitOn '/' =
      [] :: "opt".toList :: ("certsecure-manager".toList ++ first) :: others := by
    simp [hp, installDir, List.splitOn_cons_eq_if_modifyHead, hr]
  simp [moves, hsplit, move, names]

theorem confined_iff {path : String} (h : pathOk path = true) :
    Confined path ↔ inside path = true := by
  obtain ⟨rest, hrest⟩ := Str.startsWith_iff.mp (Bool.and_eq_true_iff.mp h).2
  have hdir : productDir = ["opt".toList, "certsecure-manager".toList] := by decide
  unfold Confined inside
  by_cases hup : .up ∈ moves '/' path
  · rw [if_pos hup, decide_eq_true_iff, normalise, beneath_iff_depth]
    rw [show productDir.length = 2 from by rw [hdir]; rfl]
  · rw [if_neg hup, Bool.and_eq_true_iff, decide_eq_true_iff, normalise, resolve_of_noUp hup,
      Str.startsWith_iff, hdir, ← hrest]
    rw [show "/opt/certsecure-manager/".toList = installDir.toList ++ ['/'] from by decide,
      List.prefix_append_right_inj]
    cases rest with
    | nil =>
        rw [names_of_continued hrest.symm (List.splitOn_nil _)]
        simp [Beneath, names]
    | cons c r =>
        by_cases hc : c = '/'
        · subst hc
          have hs : ('/' :: r).splitOn '/' = [] :: r.splitOn '/' := by
            simp [List.splitOn_cons_eq_if_modifyHead]
          rw [names_of_continued hrest.symm hs]
          cases names ((r.splitOn '/').map move) <;> simp [Beneath]
        · obtain ⟨first, others, hs⟩ := List.exists_cons_of_ne_nil (List.splitOn_ne_nil '/' r)
          have hcs : (c :: r).splitOn '/' = (c :: first) :: others := by
            simp [List.splitOn_cons_eq_if_modifyHead, hc, hs]
          rw [names_of_continued hrest.symm hcs]
          simp [Beneath, Ne.symm hc]

end CertSecure

/-- The handlers that are given the paths of a certificate and its key. -/
def tlsHandlers (host : Host) : List CommandHandler :=
  [CertSecureMakeCert.handler host, CertSecureInstall.handler]

/-- The parameters pass every check the handler makes before it acts. -/
def CommandHandler.Accepts (h : CommandHandler) (ctx : Params) : Prop :=
  (h.execute ctx).failed = false

/-- Both path parameters are there and satisfy `P`. -/
def TlsPaths (P : String → Prop) (ctx : Params) : Prop :=
  ∀ key ∈ ["certPath", "keyPath"], ∃ path, param ctx key = some path ∧ P path

theorem tlsPaths_of_some {P : String → Prop} {ctx : Params} {certPath keyPath : String}
    (hc : param ctx "certPath" = some certPath) (hk : param ctx "keyPath" = some keyPath) :
    TlsPaths P ctx ↔ P certPath ∧ P keyPath := by
  simp [TlsPaths, hc, hk]

theorem pathOk_of_accepts {host : Host} {h : CommandHandler} (hm : h ∈ tlsHandlers host)
    {ctx : Params} (ha : h.Accepts ctx) :
    ∃ certPath keyPath, param ctx "certPath" = some certPath ∧
      param ctx "keyPath" = some keyPath ∧ CertSecure.pathOk certPath = true ∧
      CertSecure.pathOk keyPath = true := by
  simp only [tlsHandlers, List.mem_cons, List.not_mem_nil, or_false] at hm
  rcases hm with rfl | rfl
  · obtain ⟨s, certPath, keyPath, names, ip, days, hacc, -⟩ :=
      (CertSecureMakeCert.staged host ctx).of_accepted ha
    exact ⟨certPath, keyPath, hacc.certPath_eq, hacc.keyPath_eq, hacc.paths_ok⟩
  · obtain ⟨s, a, hacc, -⟩ := (CertSecureInstall.staged ctx).of_accepted ha
    exact ⟨a.certPath, a.keyPath, hacc.certPath_eq, hacc.keyPath_eq, hacc.paths_ok⟩

/-- The accepted paths are confined to the product tree exactly if both are
`inside`. -/
theorem tls_paths_confined_iff (host : Host) (h : CommandHandler) (hm : h ∈ tlsHandlers host)
    (ctx : Params) (ha : h.Accepts ctx) :
    TlsPaths CertSecure.Confined ctx ↔ TlsPaths (CertSecure.inside · = true) ctx := by
  obtain ⟨certPath, keyPath, hc, hk, hcok, hkok⟩ := pathOk_of_accepts hm ha
  rw [tlsPaths_of_some hc hk, tlsPaths_of_some hc hk, CertSecure.confined_iff hcok,
    CertSecure.confined_iff hkok]

/-- Parameters of `certsecure.make_cert` with the given paths. -/
def makeCertParams (certPath keyPath : String) : Params :=
  [("names", "ca.example.com"), ("certPath", certPath), ("keyPath", keyPath)]

/-- The paths the product's installer uses are confined. -/
theorem tls_paths_confined_conf :
    TlsPaths CertSecure.Confined
      (makeCertParams "/opt/certsecure-manager/conf/cert.pem"
        "/opt/certsecure-manager/conf/./key.pem") := by
  refine (tls_paths_confined_iff .idle (CertSecureMakeCert.handler .idle) (by simp [tlsHandlers])
    _ (by unfold CommandHandler.Accepts; decide)).mpr ?_
  exact (tlsPaths_of_some rfl rfl).mpr (by decide)

/-- Acceptance does not confine: `..` leads out of the tree. -/
theorem tls_paths_escape :
    ¬ ∀ (host : Host) (h : CommandHandler), h ∈ tlsHandlers host → ∀ ctx : Params, h.Accepts ctx →
      TlsPaths CertSecure.Confined ctx := by
  intro hall
  have hout := hall .idle (CertSecureMakeCert.handler .idle) (by simp [tlsHandlers])
    (makeCertParams "/opt/certsecure-manager/../../etc/passwd"
      "/opt/certsecure-manager/conf/key.pem")
    (by unfold CommandHandler.Accepts; decide)
  have hcert := ((tlsPaths_of_some rfl rfl).mp hout).1
  rw [CertSecure.confined_iff (by decide)] at hcert
  exact absurd hcert (by decide)

end PkiExecutor
