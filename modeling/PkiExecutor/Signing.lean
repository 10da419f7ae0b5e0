/-
# `PkiExecutor.Signing` — the root signs what it was given

`ca.sign_request` (`ca.rs`) submits the request in a file to the CA, reads the request's
number off what `certreq` prints, has that request issued, and fetches the certificate
into another file.  Several commands may do so at the same time, while others submit
requests of their own, decide on requests, and write files.

`sign_requests_own`: in every order of all this, a run has only that request issued which
it has submitted itself, it submits at most one, and if it succeeds then the number it
returns is that of its request, the request is what its file held, and the certificate of
this request has been put where it was to be put.
-/
import PkiExecutor.Binding
import PkiExecutor.Concurrent

namespace PkiExecutor

variable {φ : Type}

/-! ## The CA -/

/-- What has been decided on a request. -/
inductive Disposition
  | pending
  | denied
  | issued
  deriving DecidableEq, Repr

/-- A request in the database of the CA. -/
structure CertRequest (φ : Type) where
  /-- what was in the file -/
  csr : φ
  /-- the run that has submitted it -/
  submitter : Option Nat
  disposition : Disposition
  /-- the run that has had it issued -/
  issuer : Option Nat

/-- The database of the CA, and the files. -/
structure SigningState (φ : Type) where
  /-- in the order they were submitted -/
  requests : List (CertRequest φ)
  /-- what a file holds and has held, the last first; `none` where it was away -/
  files : String → List (Option φ)

/-- `RequestId:`, in lower case. -/
def requestIdLabel : List Char := ['r', 'e', 'q', 'u', 'e', 's', 't', 'i', 'd', ':']

/-- The number in `RequestId:\s*(\d+)` if the text begins like this. -/
def requestIdAt (text : List Char) : Option (List Char) :=
  if (text.take 10).map Char.toLower = requestIdLabel then
    let digits := ((text.drop 10).dropWhile Str.isWhitespace).takeWhile Char.isDigit
    if digits.isEmpty then none else some digits
  else none

/-- `$Matches[1]`: the first place decides. -/
def requestIdIn : List Char → Option String
  | [] => none
  | c :: text =>
      match requestIdAt (c :: text) with
      | some digits => some (String.ofList digits)
      | none => requestIdIn text

/-- What is particular to the host. -/
structure SigningCa (φ : Type) where
  /-- the file that a path leads to -/
  locate : String → String
  wellFormed : φ → Bool
  /-- what becomes of a request at first -/
  policy : φ → Disposition
  certificate : Nat → φ → φ
  /-- the number of the first request -/
  first : Nat
  /-- what `certreq` prints behind the number -/
  remark : Nat → String
  /-- what it prints where it does not submit anything -/
  complaint : String → String
  /-- there is a number only where there is a request -/
  unnumbered : ∀ path, requestIdIn (complaint path).toList = none

namespace SigningState

/-- The file as it is. -/
def content (s : SigningState φ) (file : String) : Option φ := (s.files file).head?.join

/-- A file is written, or taken away. -/
def write (s : SigningState φ) (file : String) (x : Option φ) : SigningState φ :=
  { s with files := Function.update s.files file (x :: s.files file) }

/-- A request enters the database. -/
def submit (s : SigningState φ) (csr : φ) (submitter : Option Nat) (d : Disposition) :
    SigningState φ := { s with requests := s.requests ++ [⟨csr, submitter, d, none⟩] }

/-- A request is decided on. -/
def decide (s : SigningState φ) (n : Nat) (r : CertRequest φ) (d : Disposition)
    (issuer : Option Nat) : SigningState φ :=
  { s with requests := s.requests.set n { r with disposition := d, issuer } }

end SigningState

namespace SigningCa

variable (ca : SigningCa φ)

/-- The number that stands for the `n`th request. -/
def number (n : Nat) : String := toString (ca.first + n)

/-- The request of a number. -/
def find (s : SigningState φ) (id : String) : Option (CertRequest φ × Nat) :=
  s.requests.zipIdx.find? fun r => ca.number r.2 == id

/-! ## The script -/

/-- `certreq -submit -config $config $CsrPath 2>&1 | Out-String` -/
def certreqSubmit (i : Nat) (csrPath : String) : Course (SigningState φ) String :=
  .perform fun s =>
    match s.content (ca.locate csrPath) with
    | some csr =>
        if ca.wellFormed csr then
          .ok ("RequestId: " ++ ca.number s.requests.length ++ "\r\n" ++
            ca.remark s.requests.length, s.submit csr (some i) (ca.policy csr))
        else .ok (ca.complaint csrPath, s)
    | none => .ok (ca.complaint csrPath, s)

/-- `certutil -resubmit $requestId`, and its exit code. -/
def resubmit (i : Nat) (id : String) : Course (SigningState φ) Unit :=
  .perform fun s =>
    match ca.find s id with
    | some (r, n) =>
        if r.disposition = .issued then .error ("certutil -resubmit " ++ id ++ " failed")
        else .ok ((), s.decide n r .issued (some i))
    | none => .error ("certutil -resubmit " ++ id ++ " failed")

/-- `certreq -retrieve -config $config $requestId $CertPath`, and its exit code. -/
def retrieve (id certPath : String) : Course (SigningState φ) Unit :=
  .perform fun s =>
    match ca.find s id with
    | some (r, n) =>
        if r.disposition = .issued then
          .ok ((), s.write (ca.locate certPath) (some (ca.certificate n r.csr)))
        else .error ("certreq -retrieve " ++ id ++ " failed")
    | none => .error ("certreq -retrieve " ++ id ++ " failed")

/-- The script of run `i`: it looks up the active CA at first, and makes the folder for the
certificate before it fetches it. -/
def sign (i : Nat) (csrPath certPath : String) : Course (SigningState φ) String := do
  Course.look fun _ => ()
  let submitted ← ca.certreqSubmit i csrPath
  match requestIdIn submitted.toList with
  | none => Course.error ("certreq -submit did not return a RequestId: " ++ submitted)
  | some requestId => do
      ca.resubmit i requestId
      Course.look fun _ => ()
      ca.retrieve requestId certPath
      return requestId ++ "\r\n"

/-- The script over its arguments; they are paths, and bind. -/
def script (i : Nat) : List String → Course (SigningState φ) String
  | [csrPath, certPath] => ca.sign i csrPath certPath
  | _ => .error ""

/-- A call of the script. -/
def meaning (i : Nat) : ShellCall → Course (SigningState φ) String :=
  ofScript CaSignRequest.script (ca.script i) (.error "")

end SigningCa

/-- What others do. -/
inductive CaEvent (φ : Type)
  | submit (csr : φ) (d : Disposition)
  /-- an administrator decides on request `n` -/
  | decide (n : Nat) (d : Disposition)
  | write (file : String) (x : Option φ)

def CaEvent.apply (s : SigningState φ) : CaEvent φ → SigningState φ
  | .submit csr d => s.submit csr none d
  | .decide n d =>
      match s.requests[n]? with
      | some r => if r.disposition = .issued then s else s.decide n r d none
      | none => s
  | .write file x => s.write file x

/-- Any number of `ca.sign_request`, and others. -/
def SigningCa.team (ca : SigningCa φ) :
    Team (SigningState φ) Params (CaEvent φ) (Except CommandError Json) :=
  ⟨fun i ctx => courseOf (ca.meaning i) (CaSignRequest.execute ctx), fun e s => e.apply s⟩

/-! ## What each does to the state -/

namespace SigningState

/-- No request is of this run. -/
def Fresh (i : Nat) (s : SigningState φ) : Prop :=
  ∀ (n : Nat) (r : CertRequest φ), s.requests[n]? = some r → r.submitter ≠ some i

/-- What somebody, a run or not, does: nothing, or something to one request or file. -/
inductive Acts (actor : Option Nat) (s : SigningState φ) : SigningState φ → Prop
  | nothing : Acts actor s s
  | submit (csr : φ) (d : Disposition) (h : ∀ i, actor = some i → s.Fresh i) :
      Acts actor s (s.submit csr actor d)
  | decide {n : Nat} {r : CertRequest φ} (d : Disposition) (hr : s.requests[n]? = some r)
      (hopen : r.disposition ≠ .issued) (hown : ∀ i, actor = some i → r.submitter = some i) :
      Acts actor s (s.decide n r d actor)
  | write (file : String) (x : Option φ) : Acts actor s (s.write file x)

/-- What run `i` can count on: nothing goes away, what is issued stays what it is, and its
requests are its own. -/
structure Leaves (i : Nat) (s s' : SigningState φ) : Prop where
  files : ∀ file, s.files file <:+ s'.files file
  kept : ∀ (n : Nat) (r : CertRequest φ), s.requests[n]? = some r → ∃ r' : CertRequest φ,
    s'.requests[n]? = some r' ∧ r'.csr = r.csr ∧ r'.submitter = r.submitter ∧
      (r.disposition = .issued → r' = r)
  mine : ∀ (n : Nat) (r' : CertRequest φ), s'.requests[n]? = some r' → r'.submitter = some i →
    ∃ r : CertRequest φ, s.requests[n]? = some r ∧ r.submitter = some i

variable {i j : Nat} {actor : Option Nat} {s s' s'' : SigningState φ}

theorem Leaves.refl (i : Nat) (s : SigningState φ) : Leaves i s s where
  files _ := List.suffix_refl _
  kept _ r h := ⟨r, h, rfl, rfl, fun _ => rfl⟩
  mine _ r h hi := ⟨r, h, hi⟩

theorem Leaves.trans (h : Leaves i s s') (h' : Leaves i s' s'') : Leaves i s s'' where
  files file := (h.files file).trans (h'.files file)
  kept n r hr := by
    obtain ⟨r', hr', hcsr, hsubmitter, hissued⟩ := h.kept n r hr
    obtain ⟨r'', hr'', hcsr', hsubmitter', hissued'⟩ := h'.kept n r' hr'
    refine ⟨r'', hr'', hcsr'.trans hcsr, hsubmitter'.trans hsubmitter, fun hd => ?_⟩
    obtain rfl := hissued hd
    exact hissued' hd
  mine n r hr hi := by
    obtain ⟨r', hr', hi'⟩ := h'.mine n r hr hi
    exact h.mine n r' hr' hi'

theorem Fresh.leaves (h : s.Fresh i) (hl : Leaves i s s') : s'.Fresh i := by
  intro n r' hr' hi
  obtain ⟨r, hr, hri⟩ := hl.mine n r' hr' hi
  exact h n r hr hri

/-- What somebody else does is what run `i` counts on. -/
theorem Acts.leaves (h : Acts actor s s') (hne : actor ≠ some i) : Leaves i s s' := by
  cases h with
  | nothing => exact .refl i s
  | submit csr d _ =>
      refine ⟨fun _ => List.suffix_refl _, fun n r hr => ?_, fun n r' hr' hi => ?_⟩
      · exact ⟨r, Table.getElem?_concat_of_some hr, rfl, rfl, fun _ => rfl⟩
      · rcases Table.getElem?_concat hr' with hr | ⟨-, rfl⟩
        · exact ⟨r', hr, hi⟩
        · exact absurd hi hne
  | @decide n r d hr hopen _ =>
      have hn := (List.getElem?_eq_some_iff.mp hr).1
      refine ⟨fun _ => List.suffix_refl _, fun m q hq => ?_, fun m q' hq' hi => ?_⟩
      · by_cases hm : n = m
        · subst hm
          obtain rfl : r = q := Option.some.inj (hr.symm.trans hq)
          exact ⟨_, List.getElem?_set_self hn, rfl, rfl, fun hd => absurd hd hopen⟩
        · exact ⟨q, (List.getElem?_set_ne hm).trans hq, rfl, rfl, fun _ => rfl⟩
      · rcases Table.getElem?_set hq' with ⟨rfl, rfl⟩ | ⟨-, hq⟩
        · exact ⟨r, hr, hi⟩
        · exact ⟨q', hq, hi⟩
  | write file x =>
      refine ⟨fun file' => ?_, fun n r hr => ⟨r, hr, rfl, rfl, fun _ => rfl⟩,
        fun n r hr hi => ⟨r, hr, hi⟩⟩
      show _ <:+ Function.update s.files file (x :: s.files file) file'
      by_cases hf : file' = file
      · subst hf
        rw [Function.update_self]
        exact List.suffix_cons _ _
      · rw [Function.update_of_ne hf]

theorem apply_acts (e : CaEvent φ) (s : SigningState φ) : Acts none s (e.apply s) := by
  cases e with
  | submit csr d => exact .submit csr d fun i hi => by cases hi
  | decide n d =>
      show Acts none s (match s.requests[n]? with
        | some r => if r.disposition = .issued then s else s.decide n r d none
        | none => s)
      split
      · rename_i r hr
        split
        · exact .nothing
        · exact .decide d hr ‹_› fun i hi => by cases hi
      · exact .nothing
  | write file x => exact .write file x

/-- Runs have had issued what they have submitted, and submitted no two requests. -/
structure Own (s : SigningState φ) : Prop where
  issued : ∀ (n : Nat) (r : CertRequest φ) (i : Nat), s.requests[n]? = some r →
    r.issuer = some i → r.submitter = some i
  once : ∀ (n m : Nat) (r q : CertRequest φ) (i : Nat), s.requests[n]? = some r →
    s.requests[m]? = some q → r.submitter = some i → q.submitter = some i → n = m

theorem Own.acts (h : s.Own) (ha : Acts actor s s') : s'.Own := by
  cases ha with
  | nothing => exact h
  | submit csr d hfresh =>
      constructor
      · intro n r i hr hi
        rcases Table.getElem?_concat hr with hr | ⟨-, rfl⟩
        · exact h.issued n r i hr hi
        · cases hi
      · intro n m r q i hr hq hri hqi
        rcases Table.getElem?_concat hr with hr | ⟨rfl, rfl⟩
        · rcases Table.getElem?_concat hq with hq | ⟨-, rfl⟩
          · exact h.once n m r q i hr hq hri hqi
          · exact absurd hri (hfresh i hqi n r hr)
        · rcases Table.getElem?_concat hq with hq | ⟨rfl, -⟩
          · exact absurd hqi (hfresh i hri m q hq)
          · rfl
  | @decide n r d hr _ hown =>
      -- who has submitted which request is as before
      have hold : ∀ (m : Nat) (q : CertRequest φ), (s.requests.set n
          { r with disposition := d, issuer := actor })[m]? = some q →
          ∃ p : CertRequest φ, s.requests[m]? = some p ∧ q.submitter = p.submitter := by
        intro m q hq
        rcases Table.getElem?_set hq with ⟨rfl, rfl⟩ | ⟨-, hq⟩
        · exact ⟨r, hr, rfl⟩
        · exact ⟨q, hq, rfl⟩
      constructor
      · intro m q i hq hi
        rcases Table.getElem?_set hq with ⟨-, rfl⟩ | ⟨-, hq⟩
        · exact hown i hi
        · exact h.issued m q i hq hi
      · intro m k q p i hq hp hqi hpi
        obtain ⟨q', hq', hsame⟩ := hold m q hq
        obtain ⟨p', hp', hsame'⟩ := hold k p hp
        exact h.once m k q' p' i hq' hp' (hsame ▸ hqi) (hsame' ▸ hpi)
  | write file x => exact ⟨h.issued, h.once⟩

/-- What run `i` relies on, and what it promises the others. -/
def pact (i : Nat) : Pact (SigningState φ) where
  rely := Leaves i
  pledge := Acts (some i)
  rely_refl := Leaves.refl i
  rely_trans := Leaves.trans
  pledge_refl _ := .nothing

end SigningState

/-! ## The numbers -/

theorem isWhitespace_of_isDigit {c : Char} (h : c.isDigit = true) :
    Str.isWhitespace c = false := by
  have halnum : c.isAlphanum = true := by rw [Char.isAlphanum, h, Bool.or_true]
  have hrange := Str.isAlphanum_range halnum
  simp only [Str.isWhitespace, Bool.or_eq_false_iff, Bool.and_eq_false_iff, decide_eq_false_iff_not,
    beq_eq_false_iff_ne]
  omega

theorem toList_label : "RequestId: ".toList =
    ['R', 'e', 'q', 'u', 'e', 's', 't', 'I', 'd', ':', ' '] := by
  simp

theorem requestIdAt_digits {ds : List Char} (hne : ds ≠ []) (hd : ∀ c ∈ ds, c.isDigit = true)
    (rest : List Char) :
    requestIdAt ('R' :: 'e' :: 'q' :: 'u' :: 'e' :: 's' :: 't' :: 'I' :: 'd' :: ':' :: ' ' ::
      (ds ++ '\r' :: rest)) = some ds := by
  have htake : (ds ++ '\r' :: rest).takeWhile Char.isDigit = ds := by
    rw [List.takeWhile_append_of_pos hd, List.takeWhile_cons_of_neg (by decide), List.append_nil]
  have hdrop : (ds ++ '\r' :: rest).dropWhile Str.isWhitespace = ds ++ '\r' :: rest := by
    cases ds with
    | nil => exact absurd rfl hne
    | cons c cs =>
        have hc := isWhitespace_of_isDigit (hd c List.mem_cons_self)
        rw [List.cons_append, List.dropWhile_cons_of_neg (by simp [hc])]
  have hlabel : List.map Char.toLower ['R', 'e', 'q', 'u', 'e', 's', 't', 'I', 'd', ':'] =
      requestIdLabel := by decide
  have hspace : Str.isWhitespace ' ' = true := by decide
  have hfull : ds.isEmpty = false := by
    cases ds with
    | nil => exact absurd rfl hne
    | cons c cs => rfl
  simp only [requestIdAt, List.take_succ_cons, List.take_zero, List.drop_succ_cons, List.drop_zero,
    hlabel, List.dropWhile_cons_of_pos hspace, hdrop, htake, hfull, if_true, Bool.false_eq_true,
    if_false]

theorem requestIdIn_receipt (n : Nat) (rest : String) :
    requestIdIn ("RequestId: " ++ toString n ++ "\r\n" ++ rest).toList = some (toString n) := by
  have hdigits : ∀ c ∈ (toString n).toList, c.isDigit = true :=
    fun c hc => Str.isDigit_of_mem_toString hc
  have hne : (toString n).toList ≠ [] := by
    rw [Nat.toString_eq_ofList_toDigits, String.toList_ofList]
    exact Nat.toDigits_ne_nil
  have hcrlf : "\r\n".toList = ['\r', '\n'] := by simp
  have hat := requestIdAt_digits hne hdigits ('\n' :: rest.toList)
  generalize htext : (toString n).toList = ds at hat
  rw [String.toList_append, String.toList_append, String.toList_append, toList_label, hcrlf, htext]
  simp only [List.cons_append, List.nil_append, List.append_assoc]
  rw [requestIdIn, hat, ← htext]
  simp only [String.ofList_toList]

theorem SigningCa.find_number {ca : SigningCa φ} {s : SigningState φ} {n m : Nat}
    {r : CertRequest φ} (h : ca.find s (ca.number n) = some (r, m)) :
    m = n ∧ s.requests[n]? = some r := by
  have hnumber := List.find?_some h
  have hmem := List.mem_of_find?_eq_some h
  have hsame : ca.first + m = ca.first + n := Str.toString_injective (eq_of_beq hnumber)
  obtain rfl : m = n := by omega
  exact ⟨rfl, List.mem_zipIdx_iff_getElem?.mp hmem⟩

theorem trim_number (n : Nat) : Str.trim (toString n ++ "\r\n") = toString n := by
  have hcrlf : "\r\n".toList = ['\r'] ++ ['\n'] := by simp
  have hspace : ∀ c ∈ (toString n).toList, Str.isWhitespace c = false :=
    fun c hc => isWhitespace_of_isDigit (Str.isDigit_of_mem_toString hc)
  have hends : Words.strip Str.isWhitespace (toString n).toList = (toString n).toList :=
    Words.strip_of_ends (fun c hc => hspace c (List.mem_of_head? hc))
      fun c hc => hspace c (List.mem_of_getLast? hc)
  rw [Str.trim_eq, String.toList_append, hcrlf, ← List.append_assoc,
    Words.strip_concat (by decide), Words.strip_concat (by decide), hends, String.ofList_toList]

theorem readRequestId_number {n : Nat} {certPath : String} {v : Json}
    (h : CaSignRequest.readRequestId certPath ⟨toString n ++ "\r\n", "", 0⟩ = .ok v) :
    v = .obj [("request_id", .str (toString n)), ("cert_path", .str certPath)] := by
  simp only [CaSignRequest.readRequestId, trim_number] at h
  split at h
  · cases h
  · cases h
    rfl

/-! ## A run among the others -/

namespace SigningCa

variable {ca : SigningCa φ} {i n : Nat} {csrPath certPath : String} {r : CertRequest φ}
  {s s' : SigningState φ}

/-- Run `i` has submitted request `n`, which was in its file. -/
structure Submitted (ca : SigningCa φ) (i : Nat) (csrPath : String) (n : Nat)
    (r : CertRequest φ) (s : SigningState φ) : Prop where
  request : s.requests[n]? = some r
  submitter : r.submitter = some i
  read : some r.csr ∈ s.files (ca.locate csrPath)

/-- It has been issued, and by this run. -/
structure Issued (ca : SigningCa φ) (i : Nat) (csrPath : String) (n : Nat)
    (r : CertRequest φ) (s : SigningState φ) : Prop extends Submitted ca i csrPath n r s where
  disposition : r.disposition = .issued
  issuer : r.issuer = some i

/-- Its certificate has been put into a file. -/
structure Delivered (ca : SigningCa φ) (i : Nat) (csrPath certPath : String) (n : Nat)
    (r : CertRequest φ) (s : SigningState φ) : Prop extends Issued ca i csrPath n r s where
  certificate : some (ca.certificate n r.csr) ∈ s.files (ca.locate certPath)

theorem Submitted.leaves (h : ca.Submitted i csrPath n r s) (hl : SigningState.Leaves i s s') :
    ∃ r', ca.Submitted i csrPath n r' s' ∧ (r.disposition = .issued → r' = r) := by
  obtain ⟨r', hr', hcsr, hsubmitter, hissued⟩ := hl.kept n r h.request
  refine ⟨r', ⟨hr', hsubmitter.trans h.submitter, ?_⟩, hissued⟩
  rw [hcsr]
  exact (hl.files _).subset h.read

theorem Issued.leaves (h : ca.Issued i csrPath n r s) (hl : SigningState.Leaves i s s') :
    ca.Issued i csrPath n r s' := by
  obtain ⟨r', hr', hsame⟩ := h.toSubmitted.leaves hl
  obtain rfl := hsame h.disposition
  exact ⟨hr', h.disposition, h.issuer⟩

theorem Delivered.leaves (h : ca.Delivered i csrPath certPath n r s)
    (hl : SigningState.Leaves i s s') : ca.Delivered i csrPath certPath n r s' :=
  ⟨h.toIssued.leaves hl, (hl.files _).subset h.certificate⟩

theorem submitted_stable :
    (SigningState.pact i).Stable fun s : SigningState φ => ∃ r, ca.Submitted i csrPath n r s := by
  rintro s s' hl ⟨r, h⟩
  obtain ⟨r', h', -⟩ := h.leaves hl
  exact ⟨r', h'⟩

theorem issued_stable :
    (SigningState.pact i).Stable fun s : SigningState φ => ∃ r, ca.Issued i csrPath n r s :=
  fun _ _ hl ⟨r, h⟩ => ⟨r, h.leaves hl⟩

theorem delivered_stable : (SigningState.pact i).Stable fun s : SigningState φ =>
    ∃ r, ca.Delivered i csrPath certPath n r s :=
  fun _ _ hl ⟨r, h⟩ => ⟨r, h.leaves hl⟩

theorem error_stable (e : String) : (SigningState.pact i).Stable
    ((fun _ _ => True : String → SigningState φ → Prop) e) := fun _ _ _ _ => trivial

theorem fresh_stable : (SigningState.pact i).Stable (SigningState.Fresh i (φ := φ)) :=
  fun _ _ hl h => h.leaves hl

theorem mem_of_content {file : String} {x : φ} (h : s.content file = some x) :
    some x ∈ s.files file := by
  rw [SigningState.content] at h
  cases hf : s.files file with
  | nil =>
      rw [hf] at h
      cases h
  | cons y ys =>
      rw [hf] at h
      obtain rfl : y = some x := h
      exact List.mem_cons_self

/-- What is printed has no number, or that of a request the run has submitted. -/
def Printed (ca : SigningCa φ) (i : Nat) (csrPath out : String) (s : SigningState φ) : Prop :=
  requestIdIn out.toList = none ∨ ∃ n, requestIdIn out.toList = some (ca.number n) ∧
    ∃ r, ca.Submitted i csrPath n r s

theorem printed_stable (out : String) :
    (SigningState.pact i).Stable (ca.Printed i csrPath out) := by
  rintro s s' hl (hnone | ⟨n, hid, h⟩)
  · exact .inl hnone
  · exact .inr ⟨n, hid, submitted_stable s s' hl h⟩

theorem certreqSubmit_behaves (h : s.Fresh i) : (ca.certreqSubmit i csrPath).Behaves
    (SigningState.pact i) (ca.Printed i csrPath) (fun _ _ => True) s := by
  refine .perform fresh_stable h printed_stable error_stable (fun _ _ _ => trivial) ?_
  intro s out s' hfresh hf
  split at hf
  · rename_i csr hcsr
    split at hf
    · cases hf
      refine ⟨.submit csr _ fun j hj => ?_, .inr ⟨_, requestIdIn_receipt _ _, ?_⟩⟩
      · cases hj
        exact hfresh
      · exact ⟨_, List.getElem?_concat_length .., rfl, mem_of_content hcsr⟩
    · cases hf
      exact ⟨.nothing, .inl (ca.unnumbered csrPath)⟩
  · cases hf
    exact ⟨.nothing, .inl (ca.unnumbered csrPath)⟩

theorem resubmit_behaves (h : ∃ r, ca.Submitted i csrPath n r s) :
    (ca.resubmit i (ca.number n)).Behaves (SigningState.pact i)
      (fun _ s => ∃ r, ca.Issued i csrPath n r s) (fun _ _ => True) s := by
  refine .perform submitted_stable h (fun _ => issued_stable) error_stable (fun _ _ _ => trivial) ?_
  rintro s _ s' ⟨r, hr⟩ hf
  split at hf
  · rename_i q m hfind
    obtain ⟨rfl, hq⟩ := find_number hfind
    obtain rfl : r = q := Option.some.inj (hr.request.symm.trans hq)
    split at hf
    · cases hf
    · rename_i hopen
      cases hf
      refine ⟨.decide _ hq hopen fun j hj => hr.submitter.trans hj,
        { r with disposition := .issued, issuer := some i }, ⟨?_, ?_, ?_⟩, rfl, rfl⟩
      · exact List.getElem?_set_self (List.getElem?_eq_some_iff.mp hq).1
      · exact hr.submitter
      · exact hr.read
  · cases hf

theorem retrieve_behaves (h : ∃ r, ca.Issued i csrPath n r s) :
    (ca.retrieve (ca.number n) certPath).Behaves (SigningState.pact i)
      (fun _ s => ∃ r, ca.Delivered i csrPath certPath n r s) (fun _ _ => True) s := by
  refine .perform issued_stable h (fun _ => delivered_stable) error_stable (fun _ _ _ => trivial) ?_
  rintro s _ s' ⟨r, hr⟩ hf
  split at hf
  · rename_i q m hfind
    obtain ⟨rfl, hq⟩ := find_number hfind
    obtain rfl : r = q := Option.some.inj (hr.request.symm.trans hq)
    split at hf
    · cases hf
      have hacts : SigningState.Acts none s
          (s.write (ca.locate certPath) (some (ca.certificate m r.csr))) := .write _ _
      refine ⟨.write _ _, r, hr.leaves (hacts.leaves (by simp)), ?_⟩
      show _ ∈ Function.update s.files _ _ _
      rw [Function.update_self]
      exact List.mem_cons_self
    · cases hf
  · cases hf

/-- The script. -/
theorem sign_behaves (h : s.Fresh i) : (ca.sign i csrPath certPath).Behaves (SigningState.pact i)
    (fun out s => ∃ n, out = ca.number n ++ "\r\n" ∧ ∃ r, ca.Delivered i csrPath certPath n r s)
    (fun _ _ => True) s := by
  refine .bind (.look fresh_stable h (fun _ _ _ hl hb => hb.stable hl) error_stable
    (fun _ _ _ => trivial) fun s hfresh => ?_)
  refine .bind ((certreqSubmit_behaves hfresh).mono ?_ fun _ _ h => h)
  rintro out s (hnone | ⟨n, hid, hsub⟩)
  · rw [hnone]
    exact .error (fun _ _ _ _ => trivial) trivial
  · rw [hid]
    refine .bind ((resubmit_behaves hsub).mono ?_ fun _ _ h => h)
    intro _ s hissued
    refine .bind (.look issued_stable hissued (fun _ _ _ hl hb => hb.stable hl) error_stable
      (fun _ _ _ => trivial) fun s hissued => ?_)
    refine .bind ((retrieve_behaves hissued).mono ?_ fun _ _ h => h)
    intro _ s hdelivered
    refine .value (fun _ _ hl hend => ?_) ⟨n, rfl, hdelivered⟩
    obtain ⟨m, hout, hr⟩ := hend
    exact ⟨m, hout, delivered_stable _ _ hl hr⟩

/-- What a success of run `i` means. -/
def Signed (ca : SigningCa φ) (i : Nat) (ctx : Params) (v : Json) (s : SigningState φ) : Prop :=
  ∃ csrPath certPath n r, param ctx "csrPath" = some csrPath ∧
    param ctx "certPath" = some certPath ∧
    v = .obj [("request_id", .str (ca.number n)), ("cert_path", .str certPath)] ∧
    ca.Delivered i csrPath certPath n r s

theorem command_behaves (ctx : Params) (h : s.Fresh i) :
    (courseOf (ca.meaning i) (CaSignRequest.execute ctx)).Behaves (SigningState.pact i)
      (fun result s => ∀ v, result = .ok v → ca.Signed i ctx v s) (fun _ _ => True) s := by
  refine (CaSignRequest.staged ctx).behaves ?_ (fun e _ v hv => by cases hv) ?_
  · intro result s s' hl hs v hv
    obtain ⟨csrPath, certPath, n, r, hcsr, hcert, hres, hd⟩ := hs v hv
    exact ⟨csrPath, certPath, n, r, hcsr, hcert, hres, hd.leaves hl⟩
  · rintro stage ⟨csrPath, certPath, hcsr, hcert, -, -, rfl⟩
    have hscript : (CaSignRequest.stage csrPath certPath).script = CaSignRequest.script := rfl
    rw [meaning, ofScript_stage hscript]
    have hsign : (ca.sign i csrPath certPath).Behaves _ _ _ s := sign_behaves h
    refine hsign.mono ?_ ?_
    · rintro out s ⟨n, rfl, r, hd⟩ v hv
      simp only [CaSignRequest.stage] at hv
      exact ⟨csrPath, certPath, n, r, hcsr, hcert, readRequestId_number hv, hd⟩
    · intro e s _ v hv
      cases hv

theorem team_agrees (ca : SigningCa φ) : ca.team.Agrees SigningState.pact SigningState.Fresh
    (fun i ctx result s => ∀ v, result = .ok v → ca.Signed i ctx v s) fun _ _ _ _ => True where
  apart i j s s' hij h := SigningState.Acts.leaves h fun he => hij (Option.some.inj he)
  other e j s := (SigningState.apply_acts e s).leaves (by simp)
  fresh _ := fresh_stable
  course _ ctx _ h := command_behaves ctx h

end SigningCa

/-- No run has had to do with the requests that are there at first. -/
def SigningState.Untouched (s : SigningState φ) : Prop :=
  ∀ r ∈ s.requests, r.submitter = none ∧ r.issuer = none

/-- Whatever else happens and in whichever order: a run has only its own request issued,
it has one at most, and if it succeeds then what it returns and delivers is of it. -/
theorem sign_requests_own (ca : SigningCa φ) (start : SigningState φ) (h0 : start.Untouched)
    (t : TeamState (SigningState φ) Params (Except CommandError Json))
    (ht : (ca.team.machine start).Reachable t) :
    (∀ (n : Nat) (r : CertRequest φ) (i : Nat), t.state.requests[n]? = some r →
      r.issuer = some i → r.submitter = some i) ∧
    (∀ (n m : Nat) (r q : CertRequest φ) (i : Nat), t.state.requests[n]? = some r →
      t.state.requests[m]? = some q → r.submitter = some i → q.submitter = some i → n = m) ∧
    ∀ i ctx v, t.runs[i]? = some (ctx, .value (.ok v)) → ca.Signed i ctx v t.state := by
  have hfresh : ∀ i, start.Fresh i := by
    intro i n r hr hi
    rw [(h0 r (List.mem_of_getElem? hr)).1] at hi
    cases hi
  have hstart : start.Own := by
    constructor
    · intro n r i hr hi
      rw [(h0 r (List.mem_of_getElem? hr)).2] at hi
      cases hi
    · intro n m r q i hr _ hi
      exact absurd hi (hfresh i n r hr)
  have hown : t.state.Own := ca.team_agrees.keeps hfresh hstart
    (fun i s s' hp hs => hs.acts hp) (fun e s hs => hs.acts (SigningState.apply_acts e s)) ht
  exact ⟨hown.issued, hown.once,
    fun i ctx v hr => ca.team_agrees.ended hfresh ht hr v rfl⟩

def signParams (name : String) : Params :=
  [("csrPath", "C:\\" ++ name ++ ".req"), ("certPath", "C:\\" ++ name ++ ".cer")]

/-- A root that puts all requests off. -/
def waitingRoot : SigningCa String :=
  ⟨id, fun _ => true, fun _ => .pending, fun _ csr => "signed " ++ csr, 2,
    fun _ => "Certificate request is pending: Taken Under Submission (0)", fun _ => "",
    fun _ => rfl⟩

def twoFiles : SigningState String :=
  ⟨[], fun file =>
    if file = "C:\\a.req" then [some "a"] else if file = "C:\\b.req" then [some "b"] else []⟩

/-- Two runs, the later of which is first to submit, and somebody else's request. -/
def signEvents : List (TeamEvent Params (CaEvent String)) :=
  [.call (signParams "a"), .call (signParams "b"), .next 0, .next 1, .next 1,
    .other (.submit "c" .pending), .next 0, .next 1, .next 0, .next 0, .next 1, .next 0, .next 1]

/-- The result of a run that has succeeded. -/
def Course.result {σ : Type} : Course σ (Except CommandError Json) → Option Json
  | .value (.ok v) => some v
  | _ => none

theorem Course.eq_of_result {σ : Type} {p : Course σ (Except CommandError Json)} {v : Json}
    (h : p.result = some v) : p = .value (.ok v) := by
  cases p with
  | value a =>
      cases a with
      | error e => cases h
      | ok w =>
          cases h
          rfl
  | error e => cases h
  | command run next broken => cases h

def signMachine : Machine (TeamState (SigningState String) Params (Except CommandError Json))
    (TeamEvent Params (CaEvent String)) := waitingRoot.team.machine twoFiles

theorem signEvents_play : (signMachine.run signMachine.init signEvents).isSome = true := by
  decide +kernel

theorem signEvents_end : ((((signMachine.run signMachine.init signEvents).get
    signEvents_play).runs[0]?).bind fun r => r.2.result).isSome = true := by
  decide +kernel

theorem sign_requests_own_two : ∃ ctx v, waitingRoot.Signed 0 ctx v
    ((signMachine.run signMachine.init signEvents).get signEvents_play).state := by
  have ht : signMachine.Reachable
      ((signMachine.run signMachine.init signEvents).get signEvents_play) :=
    Machine.Reachable.init.run (Option.some_get signEvents_play).symm
  obtain ⟨v, hv⟩ := Option.isSome_iff_exists.mp signEvents_end
  obtain ⟨⟨ctx, p⟩, hr, hresult⟩ := Option.bind_eq_some_iff.mp hv
  obtain rfl := Course.eq_of_result hresult
  exact ⟨ctx, v,
    (sign_requests_own waitingRoot twoFiles (fun r hr => by cases hr) _ ht).2.2 0 ctx v hr⟩

end PkiExecutor
