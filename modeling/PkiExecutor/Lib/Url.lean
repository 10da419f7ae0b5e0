/-
# `PkiExecutor.Lib.Url` — the parts of a URL, and another scheme

A parsed URL as the URL standard has it, the port that a connection to it uses, and
the change of its scheme with the rules that parsers document for it.  How a text is
parsed is left open, except for its scheme.

* `setScheme_ok` says what a change of scheme leaves alone.
* `effectivePort_setScheme_iff` says when it leaves the port of a connection alone.
-/
import PkiExecutor.Lib.Str

namespace PkiExecutor

/-- A parsed URL.  The port is `none` where the text names none, or the usual one. -/
structure Url where
  scheme : String
  username : String
  password : Option String
  host : Option String
  port : Option Nat
  path : String
  query : Option String
  fragment : Option String
  deriving DecidableEq, Repr

namespace Url

/-- The usual port of a scheme. -/
def defaultPort (scheme : String) : Option Nat :=
  if scheme = "http" ∨ scheme = "ws" then some 80
  else if scheme = "https" ∨ scheme = "wss" then some 443
  else if scheme = "ftp" then some 21
  else none

/-- The schemes with a usual port. -/
def special (scheme : String) : Bool := (defaultPort scheme).isSome

/-- The port of a connection. -/
def effectivePort (u : Url) : Option Nat := u.port.or (defaultPort u.scheme)

def schemeChar (c : Char) : Bool := c.isAlphanum || c == '+' || c == '-' || c == '.'

/-- A letter, then letters, digits and `+`, `-`, `.`. -/
def isScheme : List Char → Bool
  | [] => false
  | c :: cs => c.isAlpha && cs.all schemeChar

/-- The scheme of a text: controls and spaces before it, tabs and line ends within do not
count, nor does the case of its letters. -/
def schemeOf (s : String) : Option String :=
  let cs := (s.toList.dropWhile (·.toNat ≤ 32)).filter fun c => c ≠ '\t' ∧ c ≠ '\n' ∧ c ≠ '\r'
  let name := cs.takeWhile schemeChar
  if isScheme name ∧ (cs.dropWhile schemeChar).head? = some ':' then
    some (Str.toAsciiLowercase (String.ofList name))
  else none

/-- No authority, and a path that does not begin at a root. -/
def cannotBeABase (u : Url) : Bool := u.host.isNone && !Str.startsWith u.path "/"

/-- There is a name or a password in front of the host. -/
def hasCredentials (u : Url) : Bool := u.username != "" || u.password.isSome

/-- What stands in the way of another scheme. -/
def refusesScheme (u : Url) (scheme : String) : Bool :=
  !isScheme scheme.toList
    || u.cannotBeABase && special scheme
    || special u.scheme != special scheme
    || scheme == "file" && (u.hasCredentials || u.port.isSome)
    || u.scheme == "file" && (u.host.getD "").isEmpty

/-- The URL with another scheme; a port that is usual there is no longer named. -/
def setScheme (u : Url) (scheme : String) : Option Url :=
  let scheme := Str.toAsciiLowercase scheme
  if u.refusesScheme scheme then none
  else some { u with scheme := scheme, port := u.port.filter (defaultPort scheme != some ·) }

def setPath (u : Url) (path : String) : Url := { u with path := path }

theorem special_iff {scheme : String} : special scheme = true ↔
    (scheme = "http" ∨ scheme = "ws") ∨ (scheme = "https" ∨ scheme = "wss") ∨ scheme = "ftp" := by
  unfold special defaultPort
  split
  · rename_i h
    simp [h]
  · rename_i h₁
    split
    · rename_i h₂
      simp [h₂]
    · rename_i h₂
      split
      · rename_i h₃
        simp [h₃]
      · rename_i h₃
        simp [h₁, h₂, h₃]

theorem setScheme_ok {u v : Url} {scheme : String} (h : u.setScheme scheme = some v) :
    special u.scheme = special v.scheme ∧ v.scheme = Str.toAsciiLowercase scheme ∧
      v.port = u.port.filter (defaultPort v.scheme != some ·) ∧ v.host = u.host := by
  simp only [setScheme] at h
  split at h
  · cases h
  · rename_i hr
    cases h
    simp only [refusesScheme, Bool.not_eq_true, Bool.or_eq_false_iff, bne_eq_false_iff_eq] at hr
    exact ⟨hr.1.1.2, rfl, rfl, rfl⟩

theorem effectivePort_setScheme {u v : Url} {scheme : String} (h : u.setScheme scheme = some v) :
    v.effectivePort = u.port.or (defaultPort v.scheme) := by
  obtain ⟨-, -, hport, -⟩ := setScheme_ok h
  rw [effectivePort, hport]
  cases u.port with
  | none => rfl
  | some p =>
      by_cases hp : defaultPort v.scheme = some p
      · rw [hp, Option.filter_some, if_neg (by simp)]
        rfl
      · rw [Option.filter_some, if_pos (by simpa using hp)]

/-- The port of a connection stays where it is named or usual for both schemes. -/
theorem effectivePort_setScheme_iff {u v : Url} {scheme : String}
    (h : u.setScheme scheme = some v) : v.effectivePort = u.effectivePort ↔
      u.port.isSome = true ∨ defaultPort v.scheme = defaultPort u.scheme := by
  rw [effectivePort_setScheme h, effectivePort]
  cases u.port with
  | none => simp
  | some p => simp

end Url

end PkiExecutor
