/-
# `PkiExecutor.Delivery` — what becomes of content that is written

Three laws about `file.write`, on both platforms, for the content its checks let
through.

* Its cap is on the text, that of `file.read` on the bytes.  `written_readable_iff`
  says when what was written can be read: the last group of the longest text must
  be padded twice.
* `file_write_atomic_iff` says when the Linux command changes the target and
  still fails: the shell truncates the target before anything is decoded, and
  the decoder or its writes can fail after that.
* The content travels as one argument.  `write_delivered_iff` says which contents
  are short enough for the process that carries them.
-/
import PkiExecutor.Lib.CommandLine
import PkiExecutor.Relay

namespace PkiExecutor

/-! ## Accepted writes -/

/-- The characters of written content are single bytes, and on a command line they
stand for themselves. -/
theorem contentChar_spec {c : Char} (h : (c.isAlphanum || Str.containsChar "+/=" c) = true) :
    c.utf8Size = 1 ∧ DotNet.utf16Width c = 1 ∧ c ≠ ' ' ∧ c ≠ '\t' ∧ c ≠ '\\' ∧ c ≠ '"' := by
  have hrange : c.toNat ≤ 127 ∧ c ≠ ' ' ∧ c ≠ '\t' ∧ c ≠ '\\' ∧ c ≠ '"' := by
    rcases Bool.or_eq_true_iff.mp h with ha | hextra
    · have hc := Str.isAlphanum_range ha
      refine ⟨by omega, ?_, ?_, ?_, ?_⟩
      · rintro rfl; exact absurd ha (by decide)
      · rintro rfl; exact absurd ha (by decide)
      · rintro rfl; exact absurd ha (by decide)
      · rintro rfl; exact absurd ha (by decide)
    · have hc : c ∈ ['+', '/', '='] := List.contains_iff_mem.mp hextra
      simp only [List.mem_cons, List.not_mem_nil, or_false] at hc
      rcases hc with rfl | rfl | rfl <;> decide
  refine ⟨Char.utf8Size_eq_one_iff.mpr hrange.1, ?_, hrange.2⟩
  rw [DotNet.utf16Width, if_pos (by omega)]

theorem relayPathOk_len {path : String} (h : File.relayPathOk path = true) :
    Str.len path ≤ 200 := by
  simp only [File.relayPathOk, validWindowsPath, Bool.and_eq_true] at h
  obtain ⟨⟨h, -⟩, -⟩ := h
  split at h
  · exact of_decide_eq_true (Bool.and_eq_true_iff.mp (Bool.and_eq_true_iff.mp h).1).2
  · cases h

theorem Linux.relayPathOk_len {path : String} (h : Linux.relayPathOk path = true) :
    Str.len path ≤ 200 := by
  simp only [Linux.relayPathOk, validPosixPath, Bool.and_eq_true] at h
  obtain ⟨⟨h, -⟩, -⟩ := h
  split at h
  · exact of_decide_eq_true (Bool.and_eq_true_iff.mp (Bool.and_eq_true_iff.mp h).1).2
  · cases h

namespace FileRelay

variable {content : String}

theorem len_of_validContent (h : validContent content = true) :
    Str.len content = content.toList.length :=
  Str.len_of_ascii fun c hc => (contentChar_spec ((validContent_iff.mp h).2 c hc)).1

theorem write_accepted {pathOk : String → Bool} {badPath : CommandError} {script path : String}
    {ctx : Params} (hp : param ctx "path" = some path) (hok : pathOk path = true)
    (hc : param ctx "contentB64" = some content) (hl : Str.len content ≤ relayCapB64)
    (hv : validContent content = true) :
    write pathOk badPath script ctx = perform (writeStage script path content) := by
  simp only [write, required, hp, hc, hok, hv, hl, okOr, ensure, decide_true, if_true,
    Prog.pure_eq, Prog.ok_bind]

end FileRelay

/-- A write that is accepted runs its script over the path and the content. -/
theorem FileRelay.write_performed {pathOk : String → Bool} {badPath : CommandError}
    {script path content : String} {ctx : Params} (hb : badPath.isParam = true)
    (ha : (write pathOk badPath script ctx).failed = false) (hp : param ctx "path" = some path)
    (hc : param ctx "contentB64" = some content) :
    write pathOk badPath script ctx = perform (writeStage script path content) := by
  obtain ⟨_, ⟨path', content', hp', hc', -, -, -, rfl⟩, he⟩ :=
    (write_staged hb script ctx).performed ha
  obtain rfl : path = path' := Option.some.inj (hp.symm.trans hp')
  obtain rfl : content = content' := Option.some.inj (hc.symm.trans hc')
  exact he

/-- Either platform's write that is accepted has a path and content that pass. -/
theorem relayWrites_performed {w : CommandHandler} (hw : w ∈ relayWrites) {ctx : Params}
    (ha : (w.execute ctx).failed = false) :
    ∃ script path content, param ctx "path" = some path ∧ param ctx "contentB64" = some content ∧
      Str.len path ≤ 200 ∧ Str.len content ≤ relayCapB64 ∧ FileRelay.validContent content = true ∧
      w.execute ctx = perform (FileRelay.writeStage script path content) := by
  simp only [relayWrites, List.mem_cons, List.not_mem_nil, or_false] at hw
  rcases hw with rfl | rfl
  · obtain ⟨_, ⟨path, content, hp, hc, hok, hlen, hvalid, rfl⟩, he⟩ :=
      (FileRelay.write_staged rfl FileWrite.script ctx).performed ha
    exact ⟨_, path, content, hp, hc, relayPathOk_len hok, hlen, hvalid, he⟩
  · obtain ⟨_, ⟨path, content, hp, hc, hok, hlen, hvalid, rfl⟩, he⟩ :=
      (FileRelay.write_staged rfl Linux.FileWrite.script ctx).performed ha
    exact ⟨_, path, content, hp, hc, Linux.relayPathOk_len hok, hlen, hvalid, he⟩

/-! ## Writing, then reading -/

/-- A platform's write with its read. -/
def relayPairs (host : Host) : List (CommandHandler × CommandHandler) :=
  [(FileWrite.handler, FileRead.handler host),
    (Linux.FileWrite.handler, Linux.FileRead.handler host)]

theorem mem_relayPairs {host : Host} {pair : CommandHandler × CommandHandler}
    (h : pair ∈ relayPairs host) : pair.1 ∈ relayWrites ∧ pair.2 ∈ relayReads host := by
  simp only [relayPairs, List.mem_cons, List.not_mem_nil, or_false] at h
  rcases h with rfl | rfl
  · exact ⟨List.mem_cons_self, List.mem_cons_self⟩
  · exact ⟨List.mem_cons_of_mem _ List.mem_cons_self, List.mem_cons_of_mem _ List.mem_cons_self⟩

/-- Of well-formed content within the cap on the text, only the longest can exceed
the cap on bytes, and does so unless its padding is double. -/
theorem decoded_within_cap_iff {content : List Char} {bytes : List UInt8}
    (hl : content.length ≤ relayCapB64) (hd : Base64.decode content = some bytes) :
    bytes.length ≤ relayCapBytes ↔
      content.length < relayCapB64 ∨ Base64.doublyPadded content = true := by
  obtain ⟨pads, hle, hfour, hlen, hpads⟩ := Base64.length_of_decode hd
  have hcap : relayCapBytes = 262144 := rfl
  have hcap64 : relayCapB64 = 349528 := rfl
  rw [← hpads]
  omega

/-- The refusal of a read over a file above the cap. -/
def refusal : CommandError := .shell (.nonZeroExit 1 "file exceeds the relay cap")

theorem FileRelay.readContent_ne_refusal (host : Host) (path : String) (output : PowerShellOutput) :
    readContent host path output ≠ .error refusal := by
  dsimp only [readContent]
  split
  · intro h; cases h
  · intro h; cases h

theorem FileRelay.read_accepted {pathOk : String → Bool} {badPath : CommandError} {host : Host}
    {ctx again : Params} {script readScript : String} (hb : badPath.isParam = true)
    (ha : (write pathOk badPath script ctx).failed = false)
    (hp : param again "path" = param ctx "path") :
    (read pathOk badPath readScript host again).failed = false := by
  obtain ⟨_, ⟨path, _, hpath, _, hok, _⟩, _⟩ := (write_staged hb script ctx).performed ha
  rw [read, required, hp, hpath]
  show (PkiExecutor.ensure (pathOk path) badPath >>= _).failed = false
  rw [hok]
  rfl

theorem read_accepted {host : Host} {pair : CommandHandler × CommandHandler}
    (h : pair ∈ relayPairs host) {ctx again : Params} (ha : (pair.1.execute ctx).failed = false)
    (hp : param again "path" = param ctx "path") : (pair.2.execute again).failed = false := by
  simp only [relayPairs, List.mem_cons, List.not_mem_nil, or_false] at h
  rcases h with rfl | rfl
  · exact FileRelay.read_accepted rfl ha hp
  · exact FileRelay.read_accepted rfl ha hp

theorem read_ne_refusal {host : Host} {r : CommandHandler} (hr : r ∈ relayReads host)
    {ctx : Params} (ha : (r.execute ctx).failed = false) {file : RelayFile}
    (hb : file.bytes.length ≤ relayCapBytes) (printed : String) (past : List ShellCall) :
    ((r.execute ctx).run (fun _ => readReply file printed) past).result ≠ .error refusal := by
  obtain ⟨platform, rfl⟩ := mem_relayReads hr
  obtain ⟨_, ⟨path, rfl⟩, he⟩ := (platform.read_staged host ctx).performed ha
  rw [he, run_perform, FileRelay.readStage_settle,
    if_neg (Nat.not_lt.mpr (file.sizeOn_le platform hb))]
  exact FileRelay.readContent_ne_refusal host path _

/-- Well-formed content that a write accepts is within the cap on bytes, and a read
of the same path never refuses it, exactly if it is shorter than the cap on the
text or its padding is double. -/
theorem written_readable_iff (host : Host) (pair : CommandHandler × CommandHandler)
    (hpair : pair ∈ relayPairs host) (ctx again : Params) (content : String) (file : RelayFile)
    (ha : (pair.1.execute ctx).failed = false) (hc : param ctx "contentB64" = some content)
    (hd : Base64.decode content.toList = some file.bytes)
    (hp : param again "path" = param ctx "path") :
    (file.bytes.length ≤ relayCapBytes ∧ ∀ printed past,
      ((pair.2.execute again).run (fun _ => readReply file printed) past).result ≠
        .error refusal) ↔
      Str.len content < relayCapB64 ∨ Base64.doublyPadded content.toList = true := by
  obtain ⟨hw, hr⟩ := mem_relayPairs hpair
  obtain ⟨script, path, content', -, hc', -, hlen, hvalid, -⟩ := relayWrites_performed hw ha
  obtain rfl : content = content' := Option.some.inj (hc.symm.trans hc')
  rw [FileRelay.len_of_validContent hvalid] at hlen ⊢
  rw [← decoded_within_cap_iff hlen hd]
  constructor
  · intro h
    exact h.1
  · intro h
    exact ⟨h, read_ne_refusal hr (read_accepted hpair ha hp) h⟩

/-- `count` times the character of six zero bits. -/
def zeroText (count : Nat) : String := String.ofList (List.replicate count 'A')

theorem len_zeroText (count : Nat) : Str.len (zeroText count) = count := by
  rw [Str.len_of_ascii, zeroText, String.toList_ofList, List.length_replicate]
  intro c hc
  rw [zeroText, String.toList_ofList] at hc
  rw [List.eq_of_mem_replicate hc]
  rfl

theorem validContent_zeroText {count : Nat} (h : count ≠ 0) :
    FileRelay.validContent (zeroText count) = true := by
  rw [FileRelay.validContent_iff, zeroText, String.toList_ofList]
  refine ⟨by simpa using h, ?_⟩
  intro c hc
  rw [List.eq_of_mem_replicate hc]
  decide

theorem decode_zeroText : ∀ groups : Nat,
    Base64.decode (zeroText (4 * groups)).toList = some (List.replicate (3 * groups) 0) := by
  have hgroup : Base64.decodeGroup 'A' 'A' 'A' 'A' = some [0, 0, 0] := by decide
  have hlast : Base64.decodeLast 'A' 'A' 'A' 'A' = some [0, 0, 0] := by decide
  intro groups
  rw [zeroText, String.toList_ofList]
  induction groups with
  | zero => rfl
  | succ groups ih =>
      have hcs : List.replicate (4 * (groups + 1)) 'A' =
          'A' :: 'A' :: 'A' :: 'A' :: List.replicate (4 * groups) 'A' := rfl
      have hbytes : List.replicate (3 * (groups + 1)) (0 : UInt8) =
          [0, 0, 0] ++ List.replicate (3 * groups) 0 := rfl
      rw [hcs, hbytes, Base64.decode]
      by_cases hnil : List.replicate (4 * groups) 'A' = []
      · have hzero : 4 * groups = 0 := by simpa using hnil
        obtain rfl : groups = 0 := by omega
        exact (if_pos hnil).trans hlast
      · rw [if_neg hnil, hgroup, ih]
        rfl

/-- A file that is carried to Windows. -/
def transferParams (content : String) : Params :=
  [("path", "C:\\Transfer\\ca.req"), ("contentB64", content)]

theorem transferParams_spec (content : String) :
    param (transferParams content) "path" = some "C:\\Transfer\\ca.req" ∧
      param (transferParams content) "contentB64" = some content := ⟨rfl, rfl⟩

theorem written_readable_pki :
    [112, 107, 105].length ≤ relayCapBytes ∧ ∀ printed past,
      (((FileRead.handler .idle).execute (transferParams "cGtp")).run
        (fun _ => readReply (.plain [112, 107, 105]) printed) past).result ≠ .error refusal :=
  (written_readable_iff .idle (FileWrite.handler, FileRead.handler .idle) List.mem_cons_self
    (transferParams "cGtp") (transferParams "cGtp") "cGtp" (.plain [112, 107, 105]) (by decide) rfl
    (by decide) rfl).mpr (.inl (by decide))

/-- The longest text that is not padded is written, and cannot be read. -/
theorem unpadded_not_readable :
    ¬ ∀ (host : Host), ∀ pair ∈ relayPairs host, ∀ (ctx again : Params) (content : String)
      (file : RelayFile), (pair.1.execute ctx).failed = false →
      param ctx "contentB64" = some content → Base64.decode content.toList = some file.bytes →
      param again "path" = param ctx "path" →
      file.bytes.length ≤ relayCapBytes ∧ ∀ printed past,
        ((pair.2.execute again).run (fun _ => readReply file printed) past).result ≠
          .error refusal := by
  intro h
  obtain ⟨hpath, hcontent⟩ := transferParams_spec (zeroText (4 * 87382))
  have hlen : Str.len (zeroText (4 * 87382)) ≤ relayCapB64 := by
    rw [len_zeroText]
    decide
  have haccept : (FileWrite.handler.execute (transferParams (zeroText (4 * 87382)))).failed =
      false := by
    show (FileRelay.write _ _ _ _).failed = false
    rw [FileRelay.write_accepted hpath (by decide) hcontent hlen
      (validContent_zeroText (by decide))]
    rfl
  obtain ⟨hbytes, -⟩ := h .idle (FileWrite.handler, FileRead.handler .idle) List.mem_cons_self _
    (transferParams "") _ (.plain (List.replicate (3 * 87382) 0)) haccept hcontent
    (decode_zeroText 87382) ((transferParams_spec "").1.trans hpath.symm)
  rw [RelayFile.plain, List.length_replicate] at hbytes
  exact absurd hbytes (by decide)

/-! ## All or nothing

The target before and after one write.  `none` is a file that is not there. -/

abbrev FileContent := Option (List UInt8)

/-- What the Linux write finds on its machine.  `base64`, `mkdir` and the rest are no part
of the program: of the decoder it is only known that it reads standard base64. -/
structure WriteTools where
  /-- why the shell does not start, if it does not -/
  startError : ShellCall → Option PowerShellError
  /-- whether the target's directory exists or can be made -/
  mkdirOk : String → Bool
  /-- whether the target can be opened for writing -/
  openOk : String → Bool
  /-- what `base64 -d` makes of a text; `none` if it calls it invalid -/
  decode : String → Option (List UInt8)
  decode_standard : ∀ content bytes,
    Base64.decode content.toList = some bytes → decode content = some bytes
  /-- whether the bytes can be written to the target once it is truncated: no full disk, no
  quota, no limit on the size of a file, and nobody kills the decoder -/
  writeOk : String → List UInt8 → Bool
  /-- what is in the target where the decoder or one of its writes has stopped -/
  stopped : String → String → List UInt8
  /-- whether `sha256sum … | cut …` at the end exits well -/
  digestOk : String → List UInt8 → Bool
  digest : List UInt8 → String
  complaint : String

namespace WriteTools

variable (t : WriteTools)

/-- The end of a script at a line that fails. -/
def stop (file : FileContent) : FileContent × ShellReply := (file, .ok ⟨"", t.complaint, 1⟩)

/-- Whether the decoder accepts the text and its bytes get into the target. -/
def stores (path content : String) : Bool :=
  match t.decode content with
  | some bytes => t.writeOk path bytes
  | none => false

/-- What is in the target after `printf '%s' "$2" | base64 -d > "$path"`. -/
def left (path content : String) : List UInt8 :=
  match t.decode content with
  | some bytes => if t.writeOk path bytes then bytes else t.stopped path content
  | none => t.stopped path content

/-- `Linux.FileWrite.script`, line by line. -/
def posixWrite (path content : String) (prior : FileContent) : FileContent × ShellReply :=
  if !t.mkdirOk path then t.stop prior
  -- the redirection opens and truncates the target before `base64` starts
  else if !t.openOk path then t.stop prior
  else if !t.stores path content then t.stop (some (t.left path content))
  else if !t.digestOk path (t.left path content) then t.stop (some (t.left path content))
  else (some (t.left path content), .ok ⟨t.digest (t.left path content), "", 0⟩)

/-- A machine that runs the write script over the target. -/
def serve (prior : FileContent) (c : ShellCall) : FileContent × ShellReply :=
  match t.startError c with
  | some e => (prior, .error e)
  | none =>
      match decide (c.script = Linux.FileWrite.script), c.args with
      | true, [path, content] => t.posixWrite path content prior
      | _, _ => t.stop prior

/-- The script gets to its end once it has opened the target. -/
def Completes (path content : String) : Prop :=
  t.stores path content = true ∧ t.digestOk path (t.left path content) = true

end WriteTools

/-- The write succeeded and the target holds the decoded content, or it failed and
the target is as it was. -/
def AllOrNothing (decode : String → Option (List UInt8)) (content : String) (prior : FileContent)
    (result : Except CommandError Json) (after : FileContent) : Prop :=
  (∃ v bytes, result = .ok v ∧ decode content = some bytes ∧ after = some bytes) ∨
    ∃ e, result = .error e ∧ after = prior

section Atomic

variable {t : WriteTools} {script path content : String} {prior after : FileContent}
  {reply : ShellReply}

theorem allOrNothing_of_failed (h : reply.failed = true) :
    AllOrNothing t.decode content prior ((FileRelay.writeStage script path content).settle reply)
      after ↔ after = prior := by
  obtain ⟨e, he⟩ := (FileRelay.writeStage script path content).settle_failed h
  rw [he]
  constructor
  · rintro (⟨v, bytes, hv, -⟩ | ⟨e', -, h⟩)
    · cases hv
    · exact h
  · intro h
    exact .inr ⟨_, rfl, h⟩

theorem allOrNothing_stop (file : FileContent) :
    AllOrNothing t.decode content prior
      ((FileRelay.writeStage script path content).settle (t.stop file).2) (t.stop file).1 ↔
      file = prior := allOrNothing_of_failed rfl

theorem WriteTools.decode_of_stores (h : t.stores path content = true) :
    t.decode content = some (t.left path content) := by
  rw [stores] at h
  rw [left]
  cases hd : t.decode content with
  | none => simp [hd] at h
  | some bytes =>
      simp only [hd] at h
      exact congrArg some (if_pos h).symm

theorem allOrNothing_opened (hm : t.mkdirOk path = true) (ho : t.openOk path = true) :
    AllOrNothing t.decode content prior
      ((FileRelay.writeStage script path content).settle (t.posixWrite path content prior).2)
      (t.posixWrite path content prior).1 ↔
      t.Completes path content ∨ prior = some (t.left path content) := by
  have hstop : AllOrNothing t.decode content prior
      ((FileRelay.writeStage script path content).settle (t.stop (some (t.left path content))).2)
      (t.stop (some (t.left path content))).1 ↔ prior = some (t.left path content) :=
    (allOrNothing_stop _).trans eq_comm
  rw [WriteTools.posixWrite, hm, ho, if_neg (by decide), if_neg (by decide), WriteTools.Completes]
  cases hs : t.stores path content with
  | false =>
      rw [if_pos (by decide), hstop]
      exact (or_iff_right fun h => Bool.false_ne_true h.1).symm
  | true =>
      rw [if_neg (by decide)]
      cases hd : t.digestOk path (t.left path content) with
      | false =>
          rw [if_pos (by decide), hstop]
          exact (or_iff_right fun h => Bool.false_ne_true h.2).symm
      | true =>
          rw [if_neg (by decide)]
          exact iff_of_true (.inl ⟨_, _, rfl, WriteTools.decode_of_stores hs, rfl⟩)
            (.inl ⟨rfl, rfl⟩)

end Atomic

/-- A Linux write over a machine, the target holding `prior`. -/
def WritesAll (t : WriteTools) (ctx : Params) (content : String) (prior : FileContent) : Prop :=
  let o := (Linux.FileWrite.handler.execute ctx).run (Prog.worldOf t.serve prior) []
  AllOrNothing t.decode content prior o.result
    (Prog.stateAfter t.serve prior (Event.queries o.trace))

theorem writesAll_perform {ctx : Params} {path content : String}
    (h : Linux.FileWrite.handler.execute ctx =
      perform (FileRelay.writeStage Linux.FileWrite.script path content))
    (t : WriteTools) (prior : FileContent) :
    WritesAll t ctx content prior ↔
      AllOrNothing t.decode content prior
        ((FileRelay.writeStage Linux.FileWrite.script path content).settle
          (t.serve prior ⟨Linux.FileWrite.script, [path, content]⟩).2)
        (t.serve prior ⟨Linux.FileWrite.script, [path, content]⟩).1 := by
  rw [WritesAll, h, queries_perform, run_perform]
  rfl

/-- The decoder of an older GNU `base64 -d`, which lets every group be padded. -/
def eachGroup (content : String) : Option (List UInt8) := Base64.decodeEach content.toList

theorem eachGroup_standard (content : String) (bytes : List UInt8)
    (h : Base64.decode content.toList = some bytes) : eachGroup content = some bytes :=
  Base64.decodeEach_of_decode h

/-- A machine where everything can be written that `fits`. -/
def WriteTools.withRoom (fits : List UInt8 → Bool) : WriteTools where
  startError _ := none
  mkdirOk _ := true
  openOk _ := true
  decode := eachGroup
  decode_standard := eachGroup_standard
  writeOk _ bytes := fits bytes
  stopped _ _ := []
  digestOk _ _ := true
  digest _ := ""
  complaint := "base64: invalid input"

/-- A file that is carried to Linux. -/
def stagedParams (content : String) : Params :=
  [("path", "/var/lib/pki-executor/transfer/ca.req"), ("contentB64", content)]

theorem stagedParams_spec (content : String) :
    param (stagedParams content) "path" = some "/var/lib/pki-executor/transfer/ca.req" ∧
      param (stagedParams content) "contentB64" = some content := ⟨rfl, rfl⟩

/-- The two implementations of the shell. -/
inductive RealShell
  | posix
  | powerShell

/-- Linux's `MAX_ARG_STRLEN`, in bytes. -/
def maxArgStrlen : Nat := 131072

/-- The longest command line of `CreateProcess`, in UTF-16 units. -/
def maxCommandLine : Nat := 32767

/-- The process that the shell starts for a call is within the platform's limits.
`binary` is the shell's own, `scriptPath` the path of its temporary file. -/
def RealShell.Delivers (binary scriptPath : String) (c : ShellCall) : RealShell → Prop
  | posix => ∀ arg ∈ binary :: RealPosixShell.args scriptPath c.args, Str.len arg < maxArgStrlen
  | powerShell =>
      DotNet.utf16Len (CommandLine.commandLine binary (RealPowerShell.args scriptPath c.args)) ≤
        maxCommandLine

/-- The UTF-16 units of an argument as it stands on a command line. -/
def argUnits (arg : String) : Nat := DotNet.utf16Len (CommandLine.appendArg arg.toList)

/-- How much content there is room for. -/
def RealShell.HasRoom (binary scriptPath path content : String) : RealShell → Prop
  | posix =>
      Str.len binary < maxArgStrlen ∧ Str.len scriptPath < maxArgStrlen ∧
        Str.len content < maxArgStrlen
  | powerShell =>
      Str.len content + 62 + DotNet.utf16Len binary.toList + argUnits scriptPath + argUnits path ≤
        maxCommandLine

theorem FileRelay.argUnits_content {content : String} (h : validContent content = true) :
    argUnits content = Str.len content := by
  obtain ⟨hne, hchars⟩ := validContent_iff.mp h
  have hplain : ∀ c ∈ content.toList, c ≠ ' ' ∧ c ≠ '\t' ∧ c ≠ '\\' ∧ c ≠ '"' := fun c hc =>
    (contentChar_spec (hchars c hc)).2.2
  have hwidth : ∀ cs : List Char, (∀ c ∈ cs, DotNet.utf16Width c = 1) →
      DotNet.utf16Len cs = cs.length := by
    intro cs
    induction cs with
    | nil => intro _; rfl
    | cons c cs ih =>
        intro hcs
        rw [List.forall_mem_cons] at hcs
        rw [DotNet.utf16Len, hcs.1, ih hcs.2, List.length_cons, Nat.add_comm]
  rw [argUnits, CommandLine.appendArg_of_plain hne hplain, len_of_validContent h]
  exact hwidth _ fun c hc => (contentChar_spec (hchars c hc)).2.1

theorem FileRelay.delivers_iff {shell : RealShell} {binary scriptPath script path content : String}
    (hpath : Str.len path ≤ 200) (hvalid : validContent content = true) :
    shell.Delivers binary scriptPath (writeStage script path content).call ↔
      shell.HasRoom binary scriptPath path content := by
  cases shell with
  | posix =>
      have hshort : Str.len path < maxArgStrlen := Nat.lt_of_le_of_lt hpath (by decide)
      simp only [RealShell.Delivers, RealShell.HasRoom, RealPosixShell.args, writeStage,
        Stage.plain, Stage.call, List.forall_mem_cons, hshort, true_and]
      simp
  | powerShell =>
      have hflags : argUnits "-NoProfile" = 10 ∧ argUnits "-NonInteractive" = 15 ∧
          argUnits "-ExecutionPolicy" = 16 ∧ argUnits "Bypass" = 6 ∧ argUnits "-File" = 5 := by
        decide
      have hcontent := argUnits_content hvalid
      simp only [argUnits] at hflags hcontent
      simp only [RealShell.Delivers, RealShell.HasRoom, RealPowerShell.args, writeStage,
        Stage.plain, Stage.call, CommandLine.utf16Len_commandLine, List.cons_append,
        List.nil_append, List.foldr_cons, List.foldr_nil, hflags, hcontent, argUnits]
      omega

/-- The call of a write that is accepted is delivered exactly if the content is
short enough. -/
theorem write_delivered_iff (shell : RealShell) (binary scriptPath : String) (w : CommandHandler)
    (hw : w ∈ relayWrites) (ctx : Params) (path content : String)
    (world : List ShellCall → ShellCall → ShellReply) (past : List ShellCall)
    (ha : (w.execute ctx).failed = false) (hp : param ctx "path" = some path)
    (hc : param ctx "contentB64" = some content) :
    (∀ c ∈ Event.queries ((w.execute ctx).run world past).trace,
      shell.Delivers binary scriptPath c) ↔ shell.HasRoom binary scriptPath path content := by
  obtain ⟨script, path', content', hp', hc', hpath, -, hvalid, he⟩ := relayWrites_performed hw ha
  obtain rfl : path = path' := Option.some.inj (hp.symm.trans hp')
  obtain rfl : content = content' := Option.some.inj (hc.symm.trans hc')
  rw [he, queries_perform, List.forall_mem_singleton]
  exact FileRelay.delivers_iff hpath hvalid

theorem write_delivered_pki :
    ∃ c, Event.queries ((Linux.FileWrite.handler.execute (stagedParams "cGtp")).run
        quietShell []).trace = [c] ∧
      RealShell.posix.Delivers "/bin/bash" "/tmp/pki-executor-1f2e3d.sh" c := by
  have hdelivered := (write_delivered_iff .posix "/bin/bash" "/tmp/pki-executor-1f2e3d.sh"
    Linux.FileWrite.handler (List.mem_cons_of_mem _ List.mem_cons_self) (stagedParams "cGtp")
    "/var/lib/pki-executor/transfer/ca.req" "cGtp" quietShell [] (by decide) rfl rfl).mpr
    ⟨by decide, by decide, by decide⟩
  have he : Linux.FileWrite.handler.execute (stagedParams "cGtp") = perform
      (FileRelay.writeStage Linux.FileWrite.script "/var/lib/pki-executor/transfer/ca.req"
        "cGtp") := FileRelay.write_performed rfl (by decide) rfl rfl
  rw [he, queries_perform] at hdelivered ⊢
  exact ⟨_, rfl, hdelivered _ List.mem_cons_self⟩

/-- Every write that is accepted is delivered. -/
def DeliversWrites (shell : RealShell) (binary scriptPath : String) : Prop :=
  ∀ w ∈ relayWrites, ∀ (ctx : Params) (world : List ShellCall → ShellCall → ShellReply)
    (past : List ShellCall), (w.execute ctx).failed = false →
    ∀ c ∈ Event.queries ((w.execute ctx).run world past).trace,
      shell.Delivers binary scriptPath c

theorem not_deliversWrites {shell : RealShell} {binary scriptPath script path content : String}
    {w : CommandHandler} (hw : w ∈ relayWrites) {ctx : Params}
    (he : w.execute ctx = perform (FileRelay.writeStage script path content))
    (hpath : Str.len path ≤ 200) (hvalid : FileRelay.validContent content = true)
    (hroom : ¬ shell.HasRoom binary scriptPath path content) :
    ¬ DeliversWrites shell binary scriptPath := by
  intro h
  have haccept : (w.execute ctx).failed = false := by
    rw [he]
    rfl
  have hcall := h w hw ctx quietShell [] haccept
  rw [he, queries_perform, List.forall_mem_singleton] at hcall
  exact hroom ((FileRelay.delivers_iff hpath hvalid).mp hcall)

/-- A text of 128 KiB is too long for either shell. -/
theorem long_text_undelivered :
    ¬ DeliversWrites .posix "/bin/bash" "/tmp/pki-executor-1f2e3d.sh" ∧
      ¬ DeliversWrites .powerShell "powershell.exe"
        "C:\\Windows\\Temp\\pki-executor-1f2e3d.ps1" := by
  have hlen : Str.len (zeroText 131072) = 131072 := len_zeroText 131072
  have hvalid : FileRelay.validContent (zeroText 131072) = true := validContent_zeroText (by decide)
  have hcap : Str.len (zeroText 131072) ≤ relayCapB64 := by
    rw [hlen]
    decide
  constructor
  · obtain ⟨hp, hc⟩ := stagedParams_spec (zeroText 131072)
    have he : Linux.FileWrite.handler.execute (stagedParams (zeroText 131072)) = perform
        (FileRelay.writeStage Linux.FileWrite.script "/var/lib/pki-executor/transfer/ca.req"
          (zeroText 131072)) := FileRelay.write_accepted hp (by decide) hc hcap hvalid
    refine not_deliversWrites (List.mem_cons_of_mem _ List.mem_cons_self) he (by decide)
      hvalid ?_
    rintro ⟨-, -, hroom⟩
    rw [hlen] at hroom
    exact absurd hroom (by decide)
  · obtain ⟨hp, hc⟩ := transferParams_spec (zeroText 131072)
    have he : FileWrite.handler.execute (transferParams (zeroText 131072)) = perform
        (FileRelay.writeStage FileWrite.script "C:\\Transfer\\ca.req" (zeroText 131072)) :=
      FileRelay.write_accepted hp (by decide) hc hcap hvalid
    refine not_deliversWrites List.mem_cons_self he (by decide) hvalid ?_
    intro hroom
    have hle : Str.len (zeroText 131072) ≤ maxCommandLine := by
      have hsum : Str.len (zeroText 131072) + 62 + _ + _ + _ ≤ maxCommandLine := hroom
      omega
    rw [hlen] at hle
    exact absurd hle (by decide)

end PkiExecutor
