/-
# `PkiExecutor.KeyFile` — the mode of a new private key

`certsecure.make_cert` has a key and its certificate written and sets the mode of
the one file to 0600 and then of the other to 0644.  Nothing keeps the two paths
apart, and two spellings may be one path: `key_private_iff` says that the key ends
up private exactly if they are not.
-/
import PkiExecutor.Catalog
import PkiExecutor.Lib.FileModes
import PkiExecutor.Lib.Path

namespace PkiExecutor

open PkiExecutor.Path

namespace CertSecureMakeCert

/-- What files hold: what was in them before, the new key, the new certificate. -/
inductive Piece
  | old (bytes : String)
  | privateKey
  | certificate
  deriving DecidableEq, Repr

/-- The files of the machine by normalised path. -/
abbrev PemDisk := Disk (List (List Char)) Piece

/-- A disk before the run: contents and modes, and no new key yet. -/
def before (files : List (List Char) → Option (String × Nat)) : PemDisk := fun p =>
  (files p).map fun f => ⟨[.old f.1], f.2⟩

/-- The modes with which `openssl` creates its two files. -/
structure Created where
  key : Nat
  cert : Nat

/-- `openssl req`: the key goes to `-keyout` and the certificate to `-out`, behind the
key where both are one file. -/
def opensslReq (created : Created) (certPath keyPath : List (List Char)) (d : PemDisk) : PemDisk :=
  let d := d.write keyPath [.privateKey] created.key
  if certPath = keyPath then d.append certPath [.certificate] created.cert
  else d.write certPath [.certificate] created.cert

/-- The files after a run of the script that completed. -/
def scriptFiles (created : Created) (args : List String) (d : PemDisk) : PemDisk :=
  match args with
  | certPath :: keyPath :: _ =>
      let certPath := normalise '/' certPath
      let keyPath := normalise '/' keyPath
      let d := opensslReq created certPath keyPath d
      let d := d.chmod keyPath 0o600
      d.chmod certPath 0o644
  | _ => d

/-- Every file with the new key in it is open to its owner only. -/
def KeyPrivate (d : PemDisk) : Prop := d.Guards .privateKey 0o600

theorem before_fresh (files : List (List Char) → Option (String × Nat)) :
    ∀ p f, before files p = some f → Piece.privateKey ∉ f.content := by
  intro p f hf
  obtain ⟨old, -, rfl⟩ := Option.map_eq_some_iff.mp hf
  simp

section Paths

variable (created : Created) {certPath keyPath : List (List Char)} {d : PemDisk}

/-- Apart from the certificate, the key stands in one file, and that is its own. -/
theorem opensslReq_onlyAt (hd : ∀ p f, d p = some f → Piece.privateKey ∉ f.content)
    (hne : certPath ≠ keyPath) :
    (opensslReq created certPath keyPath d).OnlyAt .privateKey keyPath := by
  rw [opensslReq, if_neg hne]
  exact (Disk.onlyAt_write hd).write (by decide)

theorem opensslReq_same (keyPath : List (List Char)) (d : PemDisk) :
    ∃ f, opensslReq created keyPath keyPath d keyPath = some f ∧ Piece.privateKey ∈ f.content := by
  rw [opensslReq, if_pos rfl, Disk.append, Function.update_self, Disk.write, Function.update_self]
  exact ⟨_, rfl, List.mem_cons_self⟩

theorem modes_guard_iff (hd : ∀ p f, d p = some f → Piece.privateKey ∉ f.content) :
    KeyPrivate
        (((opensslReq created certPath keyPath d).chmod keyPath 0o600).chmod certPath 0o644) ↔
      certPath ≠ keyPath := by
  constructor
  · rintro hprivate rfl
    obtain ⟨f, hf, hkey⟩ := opensslReq_same created certPath d
    have hchmod : ((opensslReq created certPath certPath d).chmod certPath 0o600) certPath =
        some { f with mode := 0o600 } := by
      rw [Disk.chmod, Function.update_self, hf]
      rfl
    have hmode : 0o644 = 0o600 := Disk.Guards.mode_eq hchmod hkey hprivate
    exact absurd hmode (by decide)
  · intro hne
    have honly := opensslReq_onlyAt created hd hne
    exact (Disk.guards_chmod honly).chmod honly.chmod hne.symm

end Paths

theorem scriptFiles_private_iff (created : Created) (certPath keyPath : String)
    (rest : List String) (files : List (List Char) → Option (String × Nat)) :
    KeyPrivate (scriptFiles created (certPath :: keyPath :: rest) (before files)) ↔
      normalise '/' certPath ≠ normalise '/' keyPath :=
  modes_guard_iff created (before_fresh files)

/-- A run that completes leaves the new key private exactly if the two accepted paths
do not come to one. -/
theorem key_private_iff (host : Host) (ctx : Params) (ha : (execute host ctx).failed = false)
    (certPath keyPath : String) (hc : param ctx "certPath" = some certPath)
    (hk : param ctx "keyPath" = some keyPath) (created : Created)
    (files : List (List Char) → Option (String × Nat))
    (world : List ShellCall → ShellCall → ShellReply) (past : List ShellCall) :
    ∃ c, Event.queries ((execute host ctx).run world past).trace = [c] ∧
      (KeyPrivate (scriptFiles created c.args (before files)) ↔
        normalise '/' certPath ≠ normalise '/' keyPath) := by
  obtain ⟨_, ⟨certPath', keyPath', names, ip, days, hacc, rfl⟩, he⟩ :=
    (staged host ctx).performed ha
  obtain rfl : certPath' = certPath := Option.some.inj (hacc.certPath_eq.symm.trans hc)
  obtain rfl : keyPath' = keyPath := Option.some.inj (hacc.keyPath_eq.symm.trans hk)
  rw [he, queries_perform]
  exact ⟨_, rfl, scriptFiles_private_iff created _ _ _ files⟩

def keyParams (certPath keyPath : String) : Params :=
  [("names", "certs.example.com"), ("certPath", certPath), ("keyPath", keyPath)]

theorem key_private_conf :
    ∃ c, Event.queries ((execute .idle (keyParams "/opt/certsecure-manager/conf/cert.pem"
        "/opt/certsecure-manager/conf/key.pem")).run quietShell []).trace = [c] ∧
      KeyPrivate (scriptFiles ⟨0o600, 0o644⟩ c.args (before fun _ => none)) := by
  obtain ⟨c, hc, hiff⟩ := key_private_iff .idle
    (keyParams "/opt/certsecure-manager/conf/cert.pem" "/opt/certsecure-manager/conf/key.pem")
    (by decide) _ _ rfl rfl ⟨0o600, 0o644⟩ (fun _ => none) quietShell []
  exact ⟨c, hc, hiff.mpr (by decide)⟩

/-- One path for both leaves the key readable to everybody. -/
theorem key_exposed :
    ¬ ∀ (host : Host) (ctx : Params), (execute host ctx).failed = false →
      ∀ (created : Created) (files : List (List Char) → Option (String × Nat))
        (world : List ShellCall → ShellCall → ShellReply) (past : List ShellCall),
        ∀ c ∈ Event.queries ((execute host ctx).run world past).trace,
          KeyPrivate (scriptFiles created c.args (before files)) := by
  intro h
  have ha : (execute .idle (keyParams "/opt/certsecure-manager/conf/tls.pem"
      "/opt/certsecure-manager/conf/tls.pem")).failed = false := by decide
  obtain ⟨_, ⟨certPath, keyPath, names, ip, days, hacc, rfl⟩, he⟩ := (staged .idle _).performed ha
  obtain rfl := Option.some.inj hacc.certPath_eq
  obtain rfl := Option.some.inj hacc.keyPath_eq
  have hprivate := h .idle _ ha ⟨0o600, 0o644⟩ (fun _ => none) quietShell []
    (stage .idle _ _ names ip days).call
    (by rw [he, queries_perform]; exact List.mem_singleton_self _)
  exact (scriptFiles_private_iff _ _ _ _ _).mp hprivate rfl

end CertSecureMakeCert

end PkiExecutor
