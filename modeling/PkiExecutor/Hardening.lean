/-
# `PkiExecutor.Hardening` — who can read the product's credentials

The script of `certsecure.harden` as an effect on files with owners and modes: a loop
over the files it is given, which it leaves at the first command that fails.  A file is
what stands at a normalised path: symbolic and hard links, through which `chown` and
`chmod` reach other files, are outside this model.

`harden_whole`: a run that succeeds has set the owner and the mode of every listed file
that is there, says which these are, and has changed nothing else; one that breaks off
has done the first of them; after one that succeeded no later one changes anything.
`keys_stay_private` says for which paths no sequence of this command and
`certsecure.make_cert`, broken off or not, exposes a key, and `key_private_hardened_iff`
that of paths that do not come to one these are all.
-/
import PkiExecutor.KeyFile
import PkiExecutor.Scripted

namespace PkiExecutor

open PkiExecutor.Path

/-- The files of the machine with their owners. -/
structure ProductTree (κ : Type) where
  disk : Disk (List (List Char)) κ
  owner : List (List Char) → String

namespace CertSecureHarden

open Effect

variable {κ : Type}

/-! ## The script -/

/-- A mode in octal digits. -/
def octal (mode : String) : Option Nat :=
  if mode ≠ "" ∧ Str.all mode (fun c => decide ('0' ≤ c ∧ c ≤ '7')) then
    some (mode.toList.foldl (fun n c => 8 * n + (c.toNat - '0'.toNat)) 0)
  else none

def noSuchFile (tool path : String) : String :=
  tool ++ ": cannot access '" ++ path ++ "': No such file or directory"

/-- `chown "$owner" "$path"` -/
def chown (owner path : String) : Effect (ProductTree κ) Unit := command fun t =>
  if (t.disk (normalise '/' path)).isSome then
    .ok ((), { t with owner := Function.update t.owner (normalise '/' path) owner })
  else .error (noSuchFile "chown" path)

/-- `chmod "$mode" "$path"` -/
def chmod (mode path : String) : Effect (ProductTree κ) Unit := command fun t =>
  match octal mode, (t.disk (normalise '/' path)).isSome with
  | some m, true => .ok ((), { t with disk := t.disk.chmod (normalise '/' path) m })
  | some _, false => .error (noSuchFile "chmod" path)
  | none, _ => .error ("chmod: invalid mode: '" ++ mode ++ "'")

/-- `"${install_dir}/${rel}"` -/
def pathIn (dir rel : String) : String := dir ++ "/" ++ rel

/-- `while [ "$#" -gt 0 ]`, with what is left of the arguments and `changed`. -/
def hardenEach (dir : String) : List String → String → Effect (ProductTree κ) String
  | [], changed => pure changed
  | [_], _ => throw "2: unbound variable"
  | rel :: mode :: rest, changed => do
      let t ← get
      if (t.disk (normalise '/' (pathIn dir rel))).isSome then
        chown "root:root" (pathIn dir rel)
        chmod mode (pathIn dir rel)
        hardenEach dir rest (changed ++ rel ++ " ")
      else hardenEach dir rest changed

/-- The script over its arguments. -/
def scriptEffect : List String → Effect (ProductTree κ) String
  | dir :: files => hardenEach dir files ""
  | [] => throw "1: unbound variable"

/-- A call of the script. -/
def effect : ShellCall → Effect (ProductTree κ) String :=
  ofScript script scriptEffect (throw "")

/-! ## What it does to the files -/

/-- A file to be hardened: where it is, its name and its mode. -/
structure Target where
  rel : String
  path : List (List Char)
  mode : Nat

/-- Where a name in the product tree leads. -/
def place (rel : String) : List (List Char) := normalise '/' (pathIn CertSecure.installDir rel)

/-- The files of the list. -/
def targets : List Target :=
  hardened.filterMap fun e => (octal e.2).map fun mode => ⟨e.1, place e.1, mode⟩

variable (t : ProductTree κ) (e : Target)

/-- The file exists. -/
def there : Bool := (t.disk e.path).isSome

/-- The file is given to root, if it is there. -/
def given : ProductTree κ :=
  if there t e then { t with owner := Function.update t.owner e.path "root:root" } else t

/-- Then its mode is set. -/
def restrict : ProductTree κ :=
  { given t e with disk := t.disk.chmod e.path e.mode }

/-- What a run that succeeds makes of the tree. -/
def restrictAll (es : List Target) (t : ProductTree κ) : ProductTree κ := es.foldl restrict t

/-- A run that stopped: the first files are done, and the next one may be root's. -/
def BrokenOff (es : List Target) (t t' : ProductTree κ) : Prop :=
  ∃ done e rest, es = done ++ e :: rest ∧
    (t' = restrictAll done t ∨ t' = given (restrictAll done t) e)

/-- What the script prints: the names of the files that are there. -/
def listing (es : List Target) (t : ProductTree κ) : List String :=
  (es.filter (there t)).map (·.rel)

variable {t e}

theorem restrict_absent (h : there t e = false) : restrict t e = t := by
  have hnone : t.disk e.path = none := by simpa [there] using h
  have hdisk : t.disk.chmod e.path e.mode = t.disk := by
    rw [Disk.chmod, hnone]
    exact Function.update_eq_self_iff.mpr hnone.symm
  rw [restrict, given, h, hdisk]
  rfl

theorem restrict_disk (t : ProductTree κ) (e : Target) :
    (restrict t e).disk = t.disk.chmod e.path e.mode := rfl

theorem restrict_disk_self (t : ProductTree κ) (e : Target) :
    (restrict t e).disk e.path = (t.disk e.path).map ({ · with mode := e.mode }) := by
  rw [restrict_disk, Disk.chmod, Function.update_self]

theorem restrict_disk_other {q : List (List Char)} (h : q ≠ e.path) :
    (restrict t e).disk q = t.disk q := by
  rw [restrict_disk, Disk.chmod_other h]

theorem there_restrict (e' : Target) : there (restrict t e) e' = there t e' := by
  by_cases he : e'.path = e.path
  · rw [there, there, he, restrict_disk_self, Option.isSome_map]
  · rw [there, there, restrict_disk_other he]

theorem listing_restrict (es : List Target) : listing es (restrict t e) = listing es t := by
  rw [listing, funext (there_restrict (t := t) (e := e))]
  rfl

/-- The arguments of the script for some files. -/
def fileArgs (files : List (String × String)) : List String := files.flatMap fun p => [p.1, p.2]

/-- The loop over files whose modes can be read. -/
theorem hardenEach_yields {dir : String} {files : List (String × String)} {es : List Target}
    (h : List.Forall₂ (fun f e => e.rel = f.1 ∧ e.path = normalise '/' (pathIn dir f.1) ∧
      octal f.2 = some e.mode) files es) (changed : String) (t : ProductTree κ) :
    (hardenEach dir (fileArgs files) changed).Yields t
      (fun out t' => t' = restrictAll es t ∧
        out = (listing es t).foldl (fun out rel => out ++ rel ++ " ") changed)
      fun _ t' => BrokenOff es t t' := by
  induction h generalizing changed t with
  | nil => exact .pure ⟨rfl, rfl⟩
  | @cons f e files es hfe _ ih =>
      obtain ⟨hrel, hpath, hmode⟩ := hfe
      have hrest : ∀ changed, (hardenEach dir (fileArgs files) changed).Yields (restrict t e)
          (fun out t' => t' = restrictAll (e :: es) t ∧
            out = (listing es t).foldl (fun out rel => out ++ rel ++ " ") changed)
          fun _ t' => BrokenOff (e :: es) t t' := by
        intro changed
        refine (ih changed (restrict t e)).mono (fun out t' hout => ?_) fun _ t' hbroken => ?_
        · rw [listing_restrict] at hout
          exact hout
        · obtain ⟨done, e', rest, rfl, hstate⟩ := hbroken
          exact ⟨e :: done, e', rest, rfl, hstate⟩
      have hstart : BrokenOff (e :: es) t t := ⟨[], e, es, rfl, .inl rfl⟩
      show (get >>= _).Yields t _ _
      refine .bind (.get ?_)
      show (if (t.disk (normalise '/' (pathIn dir f.1))).isSome = true then _ else _ :
        Effect (ProductTree κ) String).Yields t _ _
      rw [← hpath]
      cases hthere : there t e with
      | false =>
          rw [if_neg (by rw [← there, hthere]; decide), listing,
            List.filter_cons_of_neg (by rw [hthere]; decide), ← listing,
            ← restrict_absent hthere]
          have hnext := hrest changed
          rw [restrict_absent hthere] at hnext ⊢
          exact hnext
      | true =>
          rw [if_pos (show (t.disk e.path).isSome = true from hthere), listing,
            List.filter_cons_of_pos hthere, ← hrel]
          have hgiven : given t e =
              { t with owner := Function.update t.owner e.path "root:root" } := if_pos hthere
          have hpath' : normalise '/' (pathIn dir e.rel) = e.path := by rw [hrel, hpath]
          refine .bind (.command (fun _ => hstart) (fun _ _ => hstart) ?_)
          intro a t' hchown
          rw [hpath', if_pos (show (t.disk e.path).isSome = true from hthere)] at hchown
          cases hchown
          rw [← hgiven]
          have hbroken : BrokenOff (e :: es) t (given t e) := ⟨[], e, es, rfl, .inr rfl⟩
          refine .bind (.command (fun _ => hbroken) (fun _ _ => hbroken) ?_)
          intro a t' hchmod
          have hdisk : (given t e).disk = t.disk := by rw [hgiven]
          rw [hpath', hmode, hdisk, show (t.disk e.path).isSome = true from hthere] at hchmod
          cases hchmod
          exact hrest (changed ++ e.rel ++ " ")

/-! ## A whole run -/

theorem owner_restrict (t : ProductTree κ) (e : Target) (q : List (List Char)) :
    (restrict t e).owner q = if there t e ∧ q = e.path then "root:root" else t.owner q := by
  show (given t e).owner q = _
  cases ht : there t e with
  | false => rw [given, ht]; rfl
  | true => simp [given, ht, Function.update_apply]

/-- The file is as it is to be, if it is there. -/
def Settled (t : ProductTree κ) (e : Target) : Prop :=
  there t e = true → t.owner e.path = "root:root" ∧
    ∀ f, t.disk e.path = some f → f.mode = e.mode

theorem Settled.given_eq (h : Settled t e) : given t e = t := by
  rw [given]
  split
  · rw [← (h ‹_›).1, Function.update_eq_self]
  · rfl

theorem Settled.restrict_eq (h : Settled t e) : restrict t e = t := by
  have hdisk : t.disk.chmod e.path e.mode = t.disk := by
    refine Function.update_eq_self_iff.mpr ?_
    cases hf : t.disk e.path with
    | none => rfl
    | some f =>
        have hmode := (h (by rw [there, hf]; rfl)).2 f hf
        rw [Option.map_some, ← hmode]
  rw [restrict, hdisk, h.given_eq]

theorem settled_restrict (t : ProductTree κ) (e : Target) : Settled (restrict t e) e := by
  intro ht
  rw [there_restrict] at ht
  refine ⟨by rw [owner_restrict, if_pos ⟨ht, rfl⟩], fun f hf => ?_⟩
  rw [restrict_disk_self, Option.map_eq_some_iff] at hf
  obtain ⟨f', -, rfl⟩ := hf
  rfl

theorem Settled.restrict_other {e' : Target} (h : Settled t e) (hne : e.path ≠ e'.path) :
    Settled (restrict t e') e := by
  intro ht
  rw [there_restrict] at ht
  rw [owner_restrict, if_neg fun hand => hne hand.2, restrict_disk_other hne]
  exact h ht

theorem Settled.restrictAll {es : List Target} (h : Settled t e)
    (hne : ∀ e' ∈ es, e.path ≠ e'.path) : Settled (restrictAll es t) e := by
  induction es generalizing t with
  | nil => exact h
  | cons e' es ih =>
      rw [List.forall_mem_cons] at hne
      exact ih (h.restrict_other hne.1) hne.2

theorem settled_restrictAll {es : List Target} (hd : (es.map (·.path)).Nodup)
    (t : ProductTree κ) : ∀ e ∈ es, Settled (restrictAll es t) e := by
  induction es generalizing t with
  | nil => exact List.forall_mem_nil _
  | cons e es ih =>
      rw [List.map_cons, List.nodup_cons] at hd
      refine List.forall_mem_cons.mpr ⟨?_, fun e' he' => ih hd.2 _ e' he'⟩
      refine (settled_restrict t e).restrictAll fun e' he' heq => hd.1 ?_
      exact List.mem_map.mpr ⟨e', he', heq.symm⟩

theorem restrictAll_of_settled {es : List Target} (h : ∀ e ∈ es, Settled t e) :
    restrictAll es t = t := by
  induction es with
  | nil => rfl
  | cons e es ih =>
      rw [List.forall_mem_cons] at h
      show restrictAll es (restrict t e) = t
      rw [h.1.restrict_eq, ih h.2]

/-- Where everything is settled a run that stops has changed nothing either. -/
theorem BrokenOff.eq_of_settled {es : List Target} {t' : ProductTree κ} (hb : BrokenOff es t t')
    (h : ∀ e ∈ es, Settled t e) : t' = t := by
  obtain ⟨done, e, rest, rfl, hstate⟩ := hb
  rw [List.forall_mem_append, List.forall_mem_cons] at h
  rw [restrictAll_of_settled h.1] at hstate
  rcases hstate with rfl | rfl
  · rfl
  · exact h.2.1.given_eq

/-- What a run may do: it keeps every content, and leaves alone the files that are not
listed and the listed ones that are not there. -/
structure Touched (es : List Target) (t t' : ProductTree κ) : Prop where
  content : ∀ q, (t'.disk q).map (·.content) = (t.disk q).map (·.content)
  others : ∀ q, (∀ e ∈ es, there t e = true → q ≠ e.path) →
    t'.disk q = t.disk q ∧ t'.owner q = t.owner q

theorem Touched.refl (es : List Target) (t : ProductTree κ) : Touched es t t :=
  ⟨fun _ => rfl, fun _ _ => ⟨rfl, rfl⟩⟩

theorem there_of_content {t' : ProductTree κ}
    (h : ∀ q, (t'.disk q).map (·.content) = (t.disk q).map (·.content)) (e : Target) :
    there t' e = there t e := by
  have hsome := congrArg Option.isSome (h e.path)
  rwa [Option.isSome_map, Option.isSome_map] at hsome

theorem Touched.trans {es : List Target} {t' t'' : ProductTree κ} (h : Touched es t t')
    (h' : Touched es t' t'') : Touched es t t'' := by
  refine ⟨fun q => (h'.content q).trans (h.content q), fun q hq => ?_⟩
  have hq' : ∀ e ∈ es, there t' e = true → q ≠ e.path := by
    intro e he ht
    rw [there_of_content h.content] at ht
    exact hq e he ht
  exact ⟨(h'.others q hq').1.trans (h.others q hq).1, (h'.others q hq').2.trans (h.others q hq).2⟩

theorem touched_given {es : List Target} (he : e ∈ es) : Touched es t (given t e) := by
  refine ⟨fun q => ?_, fun q hq => ?_⟩
  · rw [given]
    split <;> rfl
  · rw [given]
    split
    · exact ⟨rfl, Function.update_of_ne (hq e he ‹_›) _ _⟩
    · exact ⟨rfl, rfl⟩

theorem touched_restrict {es : List Target} (he : e ∈ es) : Touched es t (restrict t e) := by
  constructor
  · intro q
    by_cases hq : q = e.path
    · rw [hq, restrict_disk_self, Option.map_map]
      rfl
    · rw [restrict_disk_other hq]
  · intro q hq
    cases ht : there t e with
    | false => exact ⟨by rw [restrict_absent ht], by rw [restrict_absent ht]⟩
    | true =>
        have hne := hq e he ht
        exact ⟨restrict_disk_other hne, by rw [owner_restrict, if_neg fun hand => hne hand.2]⟩

theorem touched_restrictAll {es done : List Target} (h : ∀ e ∈ done, e ∈ es) :
    Touched es t (restrictAll done t) := by
  induction done generalizing t with
  | nil => exact .refl es t
  | cons e done ih =>
      rw [List.forall_mem_cons] at h
      exact (touched_restrict h.1).trans (ih h.2)

theorem BrokenOff.touched {es : List Target} {t' : ProductTree κ} (h : BrokenOff es t t') :
    Touched es t t' := by
  obtain ⟨done, e, rest, rfl, hstate⟩ := h
  have hdone : Touched (done ++ e :: rest) t (restrictAll done t) :=
    touched_restrictAll fun e' he' => List.mem_append_left _ he'
  rcases hstate with rfl | rfl
  · exact hdone
  · exact hdone.trans (touched_given (List.mem_append_right _ List.mem_cons_self))

/-! ## What it prints -/

theorem toList_printed (rels : List String) (changed : String) :
    (rels.foldl (fun out rel => out ++ rel ++ " ") changed).toList =
      changed.toList ++ rels.flatMap fun rel => rel.toList ++ [' '] := by
  induction rels generalizing changed with
  | nil => exact (List.append_nil _).symm
  | cons rel rels ih =>
      rw [List.foldl_cons, ih, List.flatMap_cons, String.toList_append, String.toList_append,
        List.append_assoc, List.append_assoc, List.append_assoc]
      rfl

theorem splitWhitespace_printed {rels : List String}
    (h : ∀ rel ∈ rels, rel.toList ≠ [] ∧ ∀ c ∈ rel.toList, Str.isWhitespace c = false) :
    Str.splitWhitespace (rels.foldl (fun out rel => out ++ rel ++ " ") "") = rels := by
  rw [Str.splitWhitespace_eq, toList_printed, String.toList_empty, List.nil_append]
  induction rels with
  | nil => rfl
  | cons rel rels ih =>
      rw [List.forall_mem_cons] at h
      rw [List.flatMap_cons, List.append_assoc, List.singleton_append,
        Words.words_append_break (by decide), Words.words_of_unbroken h.1.1 h.1.2,
        List.singleton_append, List.map_cons, String.ofList_toList, ih h.2]

/-- The files of the list, one for one. -/
theorem targets_spec : List.Forall₂ (fun f e => e.rel = f.1 ∧
    e.path = normalise '/' (pathIn CertSecure.installDir f.1) ∧ octal f.2 = some e.mode)
    hardened targets := by
  have h : targets = [⟨"conf/key.pem", place "conf/key.pem", 0o600⟩,
      ⟨"conf/keycloak-credentials.txt", place "conf/keycloak-credentials.txt", 0o600⟩,
      ⟨"conf/server.yaml", place "conf/server.yaml", 0o640⟩,
      ⟨"conf.ini", place "conf.ini", 0o640⟩] := rfl
  rw [h]
  refine .cons ⟨rfl, rfl, rfl⟩ (.cons ⟨rfl, rfl, rfl⟩ (.cons ⟨rfl, rfl, rfl⟩ ?_))
  exact .cons ⟨rfl, rfl, rfl⟩ .nil

theorem targets_paths : (targets.map (·.path)).Nodup := by decide

theorem targets_words : ∀ e ∈ targets,
    e.rel.toList ≠ [] ∧ ∀ c ∈ e.rel.toList, Str.isWhitespace c = false := by
  have h : targets.all fun e => e.rel.toList ≠ [] && e.rel.toList.all (!Str.isWhitespace ·) := by
    decide
  simpa [List.all_eq_true] using h

theorem harden_played (ctx : Params) (s : Trial (ProductTree κ)) : Played stage
    (fun out t' => t' = restrictAll targets s.state ∧
      out = (listing targets s.state).foldl (fun out rel => out ++ rel ++ " ") "")
    (fun _ t' => BrokenOff targets s.state t') (playOn effect s (execute ctx)) := by
  refine played_perform ?_
  have hscript : stage.script = script := rfl
  rw [effect, ofScript_stage hscript]
  exact hardenEach_yields targets_spec "" s.state

theorem harden_touched (ctx : Params) (s : Trial (ProductTree κ)) :
    Touched targets s.state (playOn effect s (execute ctx)).2.state := by
  rcases harden_played ctx s with ⟨_, -, hstate, -⟩ | ⟨_, -, hbroken⟩
  · rw [hstate]
    exact touched_restrictAll fun _ he => he
  · exact hbroken.touched

/-- Every run changes owners and modes of listed files that are there only.  One that
succeeds has set them all and returns the names of those that are there, and from then on
no run changes anything; one that fails has done the first of them. -/
theorem harden_whole (ctx : Params) (s : Trial (ProductTree κ)) :
    let played := playOn effect s (execute ctx)
    Touched targets s.state played.2.state ∧
      ((∃ e, played.1 = .error (.shell (.nonZeroExit 1 e)) ∧
          BrokenOff targets s.state played.2.state) ∨
        (played.1 = .ok (.obj [("hardened", .strings (listing targets s.state))]) ∧
          (∀ e ∈ targets, Settled played.2.state e) ∧
          ∀ again : Trial (ProductTree κ), again.state = played.2.state →
            (playOn effect again (execute ctx)).2.state = played.2.state)) := by
  intro played
  refine ⟨harden_touched ctx s, ?_⟩
  rcases harden_played ctx s with ⟨out, hout, hstate, hprinted⟩ | ⟨e, he, hbroken⟩
  · have hsettled : ∀ e ∈ targets, Settled played.2.state e := by
      rw [hstate]
      exact settled_restrictAll targets_paths s.state
    refine .inr ⟨?_, hsettled, fun again hagain => ?_⟩
    · have hread : Str.splitWhitespace out = listing targets s.state := by
        rw [hprinted]
        refine splitWhitespace_printed fun rel hrel => ?_
        obtain ⟨e, he, rfl⟩ := List.mem_map.mp hrel
        exact targets_words e (List.mem_filter.mp he).1
      rw [← hread]
      exact hout
    · rw [← hagain] at hsettled ⊢
      rcases harden_played ctx again with ⟨_, -, hstate', -⟩ | ⟨_, -, hbroken⟩
      · rw [hstate', restrictAll_of_settled hsettled]
      · exact hbroken.eq_of_settled hsettled
  · exact .inl ⟨e, he, hbroken⟩

end CertSecureHarden

/-! ## The private key -/

namespace CertSecureMakeCert

open CertSecureHarden

/-- The files of the machine, with new keys and certificates in them. -/
abbrev PemTree := ProductTree Piece

/-- Listed files that stay open to a group. -/
def loose : List (List (List Char)) := [place "conf/server.yaml", place "conf.ini"]

/-- Listed files that are closed to it. -/
def tight : List (List (List Char)) :=
  [place "conf/key.pem", place "conf/keycloak-credentials.txt"]

/-- A completed run of `certsecure.make_cert`: the script's effect on the files, of which
a new one is root's. -/
def issue (host : Host) (created : Created) (ctx : Params) (t : PemTree) : PemTree :=
  let disk := (Event.queries ((execute host ctx).run quietShell []).trace).foldl
    (fun d c => scriptFiles created c.args d) t.disk
  ⟨disk, fun p => if (t.disk p).isSome then t.owner p else "root:root"⟩

/-- Every new key is open to its owner only, and in no file that is to be opened. -/
def Kept (d : PemDisk) : Prop :=
  ∀ q f, d q = some f → Piece.privateKey ∈ f.content → f.mode = 0o600 ∧ q ∉ loose

/-- The two paths are two, and the key's is not to be opened. -/
def Apart (certPath keyPath : String) : Prop :=
  normalise '/' certPath ≠ normalise '/' keyPath ∧ normalise '/' keyPath ∉ loose

theorem loose_or_tight : ∀ e ∈ targets,
    e.path ∈ loose ∧ e.mode = 0o640 ∨ e.path ∈ tight ∧ e.mode = 0o600 := by
  decide

theorem mem_targets_of_tight {p : List (List Char)} (h : p ∈ tight) :
    ∃ e ∈ targets, e.path = p ∧ e.mode = 0o600 := by
  have hall : ∀ p ∈ tight, ∃ e ∈ targets, e.path = p ∧ e.mode = 0o600 := by decide
  exact hall p h

theorem mem_targets_of_loose {p : List (List Char)} (h : p ∈ loose) :
    ∃ e ∈ targets, e.path = p ∧ e.mode = 0o640 := by
  have hall : ∀ p ∈ loose, ∃ e ∈ targets, e.path = p ∧ e.mode = 0o640 := by decide
  exact hall p h

variable {d : PemDisk} {t : PemTree} {certPath keyPath : List (List Char)}

theorem Kept.restrict (h : Kept t.disk) {e : Target} (he : e ∈ targets) :
    Kept (restrict t e).disk := by
  intro q f hf hkey
  by_cases hq : q = e.path
  · subst hq
    rw [restrict_disk_self, Option.map_eq_some_iff] at hf
    obtain ⟨f', hf', rfl⟩ := hf
    have hloose := (h e.path f' hf' hkey).2
    rcases loose_or_tight e he with ⟨hl, -⟩ | ⟨-, hmode⟩
    · exact absurd hl hloose
    · exact ⟨hmode, hloose⟩
  · rw [restrict_disk_other hq] at hf
    exact h q f hf hkey

theorem Kept.restrictAll {done : List Target} (h : Kept t.disk) (hd : ∀ e ∈ done, e ∈ targets) :
    Kept (restrictAll done t).disk := by
  induction done generalizing t with
  | nil => exact h
  | cons e done ih =>
      rw [List.forall_mem_cons] at hd
      exact ih (h.restrict hd.1) hd.2

/-- However a run of `certsecure.harden` ends. -/
theorem Kept.harden (s : Trial PemTree) (h : Kept s.state.disk) (ctx : Params) :
    Kept (playOn effect s (CertSecureHarden.execute ctx)).2.state.disk := by
  rcases harden_played ctx s with
    ⟨_, -, hstate, -⟩ | ⟨_, -, done, e, rest, hsplit, hstate⟩
  · rw [hstate]
    exact h.restrictAll fun _ he => he
  · have hdone : ∀ e ∈ done, e ∈ targets := fun e he => by
      rw [hsplit]
      exact List.mem_append_left _ he
    have hgiven : ∀ t : PemTree, (given t e).disk = t.disk := fun t => by
      rw [given]
      split <;> rfl
    have hdisk : (playOn effect s (CertSecureHarden.execute ctx)).2.state.disk =
        (CertSecureHarden.restrictAll done s.state).disk := by
      rcases hstate with hstate | hstate
      · exact congrArg ProductTree.disk hstate
      · exact (congrArg ProductTree.disk hstate).trans (hgiven _)
    rw [hdisk]
    exact h.restrictAll hdone

theorem Kept.opensslReq (created : Created) (h : Kept d) (hne : certPath ≠ keyPath)
    (hloose : keyPath ∉ loose) :
    Kept (((opensslReq created certPath keyPath d).chmod keyPath 0o600).chmod certPath 0o644) := by
  intro q f hf hkey
  by_cases hc : q = certPath
  · subst hc
    obtain ⟨f', hf', hkey'⟩ := Disk.mem_chmod hf hkey
    rw [Disk.chmod_other hne, CertSecureMakeCert.opensslReq, if_neg hne, Disk.write,
      Function.update_self] at hf'
    obtain rfl := Option.some.inj hf'
    simp at hkey'
  · rw [Disk.chmod_other hc] at hf
    by_cases hk : q = keyPath
    · subst hk
      rw [Disk.chmod, Function.update_self, Option.map_eq_some_iff] at hf
      obtain ⟨f', -, rfl⟩ := hf
      exact ⟨rfl, hloose⟩
    · rw [Disk.chmod_other hk, CertSecureMakeCert.opensslReq, if_neg hne, Disk.write_other hc,
        Disk.write_other hk] at hf
      exact h q f hf hkey

theorem issue_disk {host : Host} {ctx : Params} {cert key : String}
    (ha : (execute host ctx).failed = false) (hc : param ctx "certPath" = some cert)
    (hk : param ctx "keyPath" = some key) (created : Created) (t : PemTree) :
    (issue host created ctx t).disk =
      ((opensslReq created (normalise '/' cert) (normalise '/' key) t.disk).chmod
        (normalise '/' key) 0o600).chmod (normalise '/' cert) 0o644 := by
  obtain ⟨_, ⟨cert', key', names, ip, days, hacc, rfl⟩, he⟩ := (staged host ctx).performed ha
  obtain rfl : cert' = cert := Option.some.inj (hacc.certPath_eq.symm.trans hc)
  obtain rfl : key' = key := Option.some.inj (hacc.keyPath_eq.symm.trans hk)
  rw [issue, he, queries_perform]
  rfl

theorem Kept.issue {host : Host} {ctx : Params} (created : Created) (h : Kept t.disk)
    (hp : ∀ cert key, param ctx "certPath" = some cert → param ctx "keyPath" = some key →
      Apart cert key) : Kept (issue host created ctx t).disk := by
  cases ha : (execute host ctx).failed with
  | false =>
      obtain ⟨_, ⟨cert, key, _, _, _, hacc, -⟩, -⟩ := (staged host ctx).performed ha
      have hapart := hp cert key hacc.certPath_eq hacc.keyPath_eq
      rw [issue_disk ha hacc.certPath_eq hacc.keyPath_eq]
      exact h.opensslReq created hapart.1 hapart.2
  | true =>
      have hs := staged host ctx
      rw [CertSecureMakeCert.issue]
      generalize execute host ctx = p at hs ha ⊢
      cases hs with
      | rejected he => exact h
      | perform hP =>
          rw [perform_eq] at ha
          cases ha

/-- One of the two commands: `certsecure.make_cert` to its end, or `certsecure.harden`
with the failures that come its way. -/
inductive Deed
  | makeCert (created : Created) (ctx : Params)
  | harden (ctx : Params) (faults : List (Option String))

/-- What a deed makes of the tree. -/
def Deed.run (host : Host) (t : PemTree) : Deed → PemTree
  | makeCert created ctx => issue host created ctx t
  | harden ctx faults => (playOn effect ⟨t, faults⟩ (CertSecureHarden.execute ctx)).2.state

/-- Where no key goes to a path that is to be opened or to its certificate's, every key
is open to its owner only after any number of commands. -/
theorem keys_stay_private (host : Host) (deeds : List Deed) (t : PemTree)
    (hfresh : ∀ p f, t.disk p = some f → Piece.privateKey ∉ f.content)
    (hpaths : ∀ created ctx, .makeCert created ctx ∈ deeds → ∀ cert key,
      param ctx "certPath" = some cert → param ctx "keyPath" = some key → Apart cert key) :
    KeyPrivate (deeds.foldl (Deed.run host) t).disk := by
  have hkept : ∀ (deeds : List Deed) (t : PemTree), Kept t.disk →
      (∀ created ctx, .makeCert created ctx ∈ deeds → ∀ cert key,
        param ctx "certPath" = some cert → param ctx "keyPath" = some key → Apart cert key) →
      Kept (deeds.foldl (Deed.run host) t).disk := by
    intro deeds
    induction deeds with
    | nil => exact fun _ h _ => h
    | cons deed deeds ih =>
        intro t h hp
        refine ih _ ?_ fun created ctx hm => hp created ctx (List.mem_cons_of_mem _ hm)
        cases deed with
        | makeCert created ctx => exact h.issue created (hp created ctx List.mem_cons_self)
        | harden ctx faults => exact Kept.harden ⟨t, faults⟩ h ctx
  have hstart : Kept t.disk := fun q f hf hkey => absurd hkey (hfresh q f hf)
  intro q f hf hkey
  exact (hkept deeds t hstart hpaths q f hf hkey).1

def confParams : Params :=
  keyParams "/opt/certsecure-manager/conf/cert.pem" "/opt/certsecure-manager/conf/key.pem"

def bareTree : PemTree := ⟨fun _ => none, fun _ => "root:root"⟩

/-- A certificate, a run that breaks off, another certificate and a whole run. -/
theorem keys_stay_private_conf :
    KeyPrivate ([Deed.makeCert ⟨0o600, 0o644⟩ confParams, .harden [] [none, some "EPERM"],
      .makeCert ⟨0o600, 0o644⟩ confParams, .harden [] []].foldl (Deed.run .idle)
        bareTree).disk := by
  refine keys_stay_private .idle _ bareTree (fun p f hf => by cases hf) ?_
  intro created ctx hm cert key hc hk
  obtain rfl : ctx = confParams := by
    simp only [List.mem_cons, Deed.makeCert.injEq, reduceCtorEq, List.not_mem_nil, or_false,
      false_or] at hm
    exact hm.elim And.right And.right
  obtain rfl := Option.some.inj hc
  obtain rfl := Option.some.inj hk
  exact ⟨by decide, by decide⟩

theorem issued_key (created : Created) (hpaths : certPath ≠ keyPath)
    (hfresh : ∀ p f, d p = some f → Piece.privateKey ∉ f.content) :
    let issued :=
      ((opensslReq created certPath keyPath d).chmod keyPath 0o600).chmod certPath 0o644
    issued.OnlyAt .privateKey keyPath ∧ ∃ f, issued keyPath = some f ∧
      Piece.privateKey ∈ f.content ∧ f.mode = 0o600 := by
  refine ⟨(opensslReq_onlyAt created hfresh hpaths).chmod.chmod, ?_⟩
  rw [CertSecureMakeCert.opensslReq, if_neg hpaths]
  refine ⟨⟨[.privateKey], 0o600⟩, ?_, List.mem_cons_self, rfl⟩
  have hne : keyPath ≠ certPath := fun h => hpaths h.symm
  rw [Disk.chmod_other hne, Disk.chmod, Function.update_self, Disk.write_other hne, Disk.write,
    Function.update_self]
  rfl

theorem tight_not_loose : ∀ p ∈ tight, p ∉ loose := by decide

theorem hardened_mode {f : ModeFile Piece} {p : List (List Char)} (hf : t.disk p = some f) :
    ∃ f', (restrictAll targets t).disk p = some f' ∧ f'.content = f.content ∧
      f'.mode = if p ∈ tight then 0o600 else if p ∈ loose then 0o640 else f.mode := by
  have htouched : Touched targets t (restrictAll targets t) := touched_restrictAll fun _ he => he
  have hcontent := htouched.content p
  rw [hf, Option.map_some, Option.map_eq_some_iff] at hcontent
  obtain ⟨f', hf', hsame⟩ := hcontent
  refine ⟨f', hf', hsame, ?_⟩
  have hsettled : ∀ e ∈ targets, e.path = p → f'.mode = e.mode := by
    intro e he hp
    subst hp
    refine (settled_restrictAll targets_paths t e he ?_).2 f' hf'
    rw [there, hf']
    rfl
  by_cases htight : p ∈ tight
  · obtain ⟨e, he, hp, hmode⟩ := mem_targets_of_tight htight
    rw [if_pos htight, hsettled e he hp, hmode]
  · rw [if_neg htight]
    by_cases hloose : p ∈ loose
    · obtain ⟨e, he, hp, hmode⟩ := mem_targets_of_loose hloose
      rw [if_pos hloose, hsettled e he hp, hmode]
    · rw [if_neg hloose]
      have hother : ∀ e ∈ targets, there t e = true → p ≠ e.path := by
        rintro e he - rfl
        rcases loose_or_tight e he with ⟨hl, -⟩ | ⟨ht, -⟩
        · exact hloose hl
        · exact htight ht
      have hsame' := (htouched.others p hother).1
      rw [hf', hf] at hsame'
      rw [Option.some.inj hsame']

/-- Where the two paths do not come to one, a new key is private once the files have been
hardened exactly if its path is none that is opened to the group. -/
theorem key_private_hardened_iff (host : Host) (ctx again : Params) (cert key : String)
    (ha : (execute host ctx).failed = false) (hc : param ctx "certPath" = some cert)
    (hk : param ctx "keyPath" = some key) (hpaths : normalise '/' cert ≠ normalise '/' key)
    (created : Created) (t : PemTree)
    (hfresh : ∀ p f, t.disk p = some f → Piece.privateKey ∉ f.content)
    (faults : List (Option String)) :
    let played := playOn effect ⟨issue host created ctx t, faults⟩ (CertSecureHarden.execute again)
    played.1.isOk = true → (KeyPrivate played.2.state.disk ↔ normalise '/' key ∉ loose) := by
  intro played hok
  have hissue := issue_disk ha hc hk created t
  generalize normalise '/' cert = certPath at hissue hpaths
  generalize normalise '/' key = keyPath at hissue hpaths ⊢
  have hstate : played.2.state = restrictAll targets (issue host created ctx t) := by
    rcases harden_played again ⟨issue host created ctx t, faults⟩ with ⟨_, -, h, -⟩ | ⟨_, he, -⟩
    · exact h
    · rw [he] at hok
      cases hok
  obtain ⟨honly, f, hf, hkey, hmode⟩ := issued_key created hpaths hfresh
  rw [← hissue] at honly hf
  obtain ⟨f', hf', hcontent, hmode'⟩ := hardened_mode hf
  have hkey' : Piece.privateKey ∈ f'.content := by rwa [hcontent]
  -- hardening keeps every content, so the key stands where it stood
  have honly' : played.2.state.disk.OnlyAt .privateKey keyPath := by
    intro q g hg hin
    have htouched := (harden_touched again ⟨issue host created ctx t, faults⟩).content q
    rw [show (playOn effect _ _).2.state.disk q = some g from hg, Option.map_some, eq_comm,
      Option.map_eq_some_iff] at htouched
    obtain ⟨g', hg', hsame⟩ := htouched
    exact honly q g' hg' (by rwa [hsame])
  rw [← hstate] at hf'
  have hprivate : KeyPrivate played.2.state.disk ↔ f'.mode = 0o600 := by
    constructor
    · exact fun h => h keyPath f' hf' hkey'
    · intro h q g hg hin
      obtain rfl := honly' q g hg hin
      rw [hf'] at hg
      cases hg
      exact h
  rw [hprivate, hmode', hmode]
  by_cases htight : keyPath ∈ tight
  · simp [htight, tight_not_loose keyPath htight]
  · by_cases hloose : keyPath ∈ loose
    · simp [htight, hloose]
    · simp [htight, hloose]

/-- A key in the place that hardening closes. -/
theorem key_private_hardened_conf :
    KeyPrivate (playOn effect ⟨issue .idle ⟨0o600, 0o644⟩ confParams bareTree, []⟩
      (CertSecureHarden.execute [])).2.state.disk := by
  refine (key_private_hardened_iff .idle confParams [] _ _ (by decide) rfl rfl (by decide)
    ⟨0o600, 0o644⟩ bareTree (fun p f hf => by cases hf) [] ?_).mpr (by decide)
  have hscript : CertSecureHarden.stage.script = CertSecureHarden.script := rfl
  rw [CertSecureHarden.execute, playOn_perform, serveScripts, effect, ofScript_stage hscript]
  decide

end CertSecureMakeCert

end PkiExecutor
