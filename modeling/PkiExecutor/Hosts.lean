/-
# `PkiExecutor.Hosts` — the entries of a hosts file and the block they stand in

`certsecure.write_hosts` reads entries from its parameter and writes them to
`/etc/hosts` between two marker lines.

`parse_hosts_entries_grammar` says what is read: exactly the texts whose lines
are an address and names, and of those the normal form, which reads as itself.

The script that writes the file is given as a function on its bytes,
`rewriteHosts`.  `hosts_converges_iff` says on which files writing twice is
writing once: those that do not end in a line without an end which the script
keeps.  The marker of the new block goes behind such a line, and from then on no
pattern matches it.
-/
import PkiExecutor.Catalog
import PkiExecutor.Lib.Text
import PkiExecutor.Lib.Words

namespace PkiExecutor

open Words (words strip)

namespace CertSecureWriteHosts

open CertSecure

/-- The trimmed lines that are not blank. -/
def nonBlank (lines : List String) : List String := (lines.map Str.trim).filter (!·.isEmpty)

/-- The trimmed pieces between line feeds that are not blank. -/
def hostLines (raw : String) : List String := nonBlank (Str.split raw '\n')

theorem nonBlank_cons (line : String) (lines : List String) : nonBlank (line :: lines) =
    if Str.trim line = "" then nonBlank lines else Str.trim line :: nonBlank lines := by
  rw [nonBlank, List.map_cons, List.filter_cons]
  simp [nonBlank]

/-- Cutting a text into lines or at its line feeds makes no difference to the
trimmed lines that are not blank. -/
theorem nonBlank_lines (raw : String) : nonBlank (Str.lines raw) = hostLines raw := by
  have hlines : ∀ ls : List (List Char), nonBlank ((Str.linesOf ls).map String.ofList) =
      nonBlank (ls.map String.ofList) := by
    intro ls
    induction ls with
    | nil => rfl
    | cons l ls ih =>
        cases ls with
        | nil =>
            by_cases hl : l = []
            · subst hl
              rfl
            · rw [Str.linesOf, if_neg hl]
        | cons m ms =>
            have htrim : Str.trim (String.ofList (Str.stripCr l)) = Str.trim (String.ofList l) := by
              unfold Str.stripCr
              split
              · rename_i hcr
                obtain ⟨ys, rfl⟩ := List.getLast?_eq_some_iff.mp hcr
                rw [Str.trim_eq, Str.trim_eq, String.toList_ofList, String.toList_ofList,
                  List.dropLast_concat, Words.strip_concat (by decide)]
              · rfl
            rw [Str.linesOf, List.map_cons, List.map_cons, nonBlank_cons, nonBlank_cons, htrim, ih]
            exact List.cons_ne_nil m ms
  exact hlines _

/-! ## The grammar -/

/-- An address and, after it, one or more names. -/
def Fields (fields : List String) : Prop :=
  ∃ ip names, fields = ip :: names ∧ validIpv4 ip = true ∧ names ≠ [] ∧
    ∀ n ∈ names, validDnsName n = true

/-- The fields of a line in normal form: one space between them. -/
def entryLine (line : String) : String := Str.join " " (Str.splitWhitespace line)

theorem parseLine_eq_ok_iff {line entry : String} :
    parseLine line = .ok entry ↔ Fields (Str.splitWhitespace line) ∧ entry = entryLine line := by
  unfold parseLine entryLine
  generalize Str.splitWhitespace line = fields
  constructor
  · intro h
    obtain ⟨_, hip, h⟩ := Prog.bind_eq_ok.mp h
    obtain ⟨_, hnames, h⟩ := Prog.bind_eq_ok.mp h
    obtain ⟨_, hdns, h⟩ := Prog.bind_eq_ok.mp h
    rw [ensure_eq_ok_iff] at hip hnames hdns
    cases fields with
    | nil => exact absurd hnames (by simp)
    | cons ip names =>
        have hne : names ≠ [] := by simpa using hnames
        refine ⟨⟨ip, names, rfl, hip, hne, List.all_eq_true.mp hdns⟩, ?_⟩
        rw [Str.join_cons hne]
        exact (Prog.ok.inj h).symm
  · rintro ⟨⟨ip, names, rfl, hip, hne, hdns⟩, rfl⟩
    have hnames : (!names.isEmpty) = true := by simpa using hne
    rw [Str.join_cons hne]
    refine Prog.bind_eq_ok.mpr ⟨(), ensure_eq_ok_iff.mpr hip, ?_⟩
    refine Prog.bind_eq_ok.mpr ⟨(), ensure_eq_ok_iff.mpr hnames, ?_⟩
    exact Prog.bind_eq_ok.mpr ⟨(), ensure_eq_ok_iff.mpr (List.all_eq_true.mpr hdns), rfl⟩

theorem parseLines_eq_ok_iff : ∀ {lines entries : List String}, parseLines lines = .ok entries ↔
    (∀ line ∈ nonBlank lines, Fields (Str.splitWhitespace line)) ∧
      entries = (nonBlank lines).map entryLine
  | [], entries => by
      rw [parseLines, nonBlank]
      constructor
      · intro h
        exact ⟨by simp, (Prog.ok.inj h).symm⟩
      · rintro ⟨-, rfl⟩
        rfl
  | line :: rest, entries => by
      rw [parseLines, nonBlank_cons]
      by_cases hb : Str.trim line = ""
      · rw [if_pos (by simp [hb]), if_pos hb]
        exact parseLines_eq_ok_iff
      · rw [if_neg (by simpa using hb), if_neg hb, List.forall_mem_cons, List.map_cons]
        constructor
        · intro h
          obtain ⟨entry, hentry, h⟩ := Prog.bind_eq_ok.mp h
          obtain ⟨others, hothers, h⟩ := Prog.bind_eq_ok.mp h
          obtain ⟨hf, rfl⟩ := parseLine_eq_ok_iff.mp hentry
          obtain ⟨hfs, rfl⟩ := parseLines_eq_ok_iff.mp hothers
          exact ⟨⟨hf, hfs⟩, (Prog.ok.inj h).symm⟩
        · rintro ⟨⟨hf, hfs⟩, rfl⟩
          refine Prog.bind_eq_ok.mpr ⟨_, parseLine_eq_ok_iff.mpr ⟨hf, rfl⟩, ?_⟩
          exact Prog.bind_eq_ok.mpr ⟨_, parseLines_eq_ok_iff.mpr ⟨hfs, rfl⟩, rfl⟩

theorem parseHostsEntries_eq_ok_iff {raw block : String} : parseHostsEntries raw = .ok block ↔
    (hostLines raw ≠ [] ∧ ∀ line ∈ hostLines raw, Fields (Str.splitWhitespace line)) ∧
      block = Str.join "\n" ((hostLines raw).map entryLine) := by
  rw [← nonBlank_lines, parseHostsEntries]
  constructor
  · intro h
    obtain ⟨entries, hentries, h⟩ := Prog.bind_eq_ok.mp h
    obtain ⟨_, hne, h⟩ := Prog.bind_eq_ok.mp h
    obtain ⟨hf, rfl⟩ := parseLines_eq_ok_iff.mp hentries
    rw [ensure_eq_ok_iff] at hne
    exact ⟨⟨by simpa using hne, hf⟩, (Prog.ok.inj h).symm⟩
  · rintro ⟨⟨hne, hf⟩, rfl⟩
    refine Prog.bind_eq_ok.mpr ⟨_, parseLines_eq_ok_iff.mpr ⟨hf, rfl⟩, ?_⟩
    exact Prog.bind_eq_ok.mpr ⟨(), ensure_eq_ok_iff.mpr (by simpa using hne), rfl⟩

/-! ## Characters -/

/-- A character of an address or a name. -/
def fieldChar (c : Char) : Bool := c.isAlphanum || c == '.' || c == '-'

theorem fieldChar_range {c : Char} (h : fieldChar c = true) : 45 ≤ c.toNat ∧ c.toNat ≤ 122 := by
  simp only [fieldChar, Bool.or_eq_true, beq_iff_eq] at h
  rcases h with (ha | rfl) | rfl
  · have hrange := Str.isAlphanum_range ha
    omega
  · decide
  · decide

theorem not_whitespace_of_fieldChar {c : Char} (h : fieldChar c = true) :
    Str.isWhitespace c = false := by
  have hc := fieldChar_range h
  simp only [Str.isWhitespace, Bool.or_eq_false_iff, Bool.and_eq_false_iff, decide_eq_false_iff_not,
    beq_eq_false_iff_ne]
  omega

theorem fieldChar_of_validIpv4 {ip : String} (h : validIpv4 ip = true) :
    ip ≠ "" ∧ ∀ c ∈ ip.toList, fieldChar c = true := by
  rw [validIpv4, Bool.and_eq_true, decide_eq_true_eq, List.all_eq_true] at h
  obtain ⟨hlen, hoctets⟩ := h
  constructor
  · rintro rfl
    exact absurd hlen (by decide)
  · intro c hc
    rcases Str.mem_of_split (d := '.') hc with rfl | ⟨octet, ho, hc⟩
    · rfl
    · have hvalid := hoctets octet ho
      simp only [validOctet, Bool.and_eq_true] at hvalid
      have hdigit : c.isDigit = true := Str.all_iff.mp hvalid.1.2 c hc
      simp [fieldChar, Char.isAlphanum, hdigit]

theorem fieldChar_of_validDnsName {name : String} (h : validDnsName name = true) :
    name ≠ "" ∧ ∀ c ∈ name.toList, fieldChar c = true := by
  have hbare : ∀ c ∈ ((Str.stripSuffix name ".").getD name).toList, fieldChar c = true := by
    simp only [validDnsName, Bool.and_eq_true, List.all_eq_true] at h
    intro c hc
    rcases Str.mem_of_split (d := '.') hc with rfl | ⟨label, hl, hc⟩
    · rfl
    · have hvalid := h.2 label hl
      simp only [validDnsLabel, Bool.and_eq_true] at hvalid
      have hlabel := Str.all_iff.mp hvalid.1.1.2 c hc
      rw [fieldChar, Bool.or_eq_true, Bool.or_eq_true]
      rw [Bool.or_eq_true] at hlabel
      exact hlabel.elim (fun ha => .inl (.inl ha)) .inr
  constructor
  · rintro rfl
    exact absurd h (by decide)
  · intro c hc
    cases hs : Str.stripSuffix name "." with
    | none =>
        rw [hs] at hbare
        exact hbare c hc
    | some bare =>
        rw [hs] at hbare
        rw [Str.toList_of_stripSuffix hs, List.mem_append] at hc
        rcases hc with hc | hc
        · exact hbare c hc
        · obtain rfl : c = '.' := by simpa using hc
          rfl

/-! ## The normal form -/

/-- Fields that are words of field characters, which is what the checks leave. -/
theorem unbroken_of_fields {fields : List String} (h : Fields fields) :
    ∀ f ∈ fields, f ≠ "" ∧ ∀ c ∈ f.toList, fieldChar c = true := by
  obtain ⟨ip, names, rfl, hip, -, hnames⟩ := h
  rw [List.forall_mem_cons]
  exact ⟨fieldChar_of_validIpv4 hip, fun n hn => fieldChar_of_validDnsName (hnames n hn)⟩

theorem words_of_fields {fields : List String} (h : Fields fields) :
    ∀ w ∈ fields.map String.toList, w ≠ [] ∧ ∀ c ∈ w, Str.isWhitespace c = false := by
  intro w hw
  obtain ⟨f, hf, rfl⟩ := List.mem_map.mp hw
  obtain ⟨hne, hchars⟩ := unbroken_of_fields h f hf
  refine ⟨fun he => hne (String.toList_inj.mp he), fun c hc => ?_⟩
  exact not_whitespace_of_fieldChar (hchars c hc)

theorem splitWhitespace_join {fields : List String} (h : Fields fields) :
    Str.splitWhitespace (Str.join " " fields) = fields := by
  have hwords : words Str.isWhitespace ([' '].intercalate (fields.map String.toList)) =
      fields.map String.toList := Words.words_intercalate (by decide) (words_of_fields h)
  rw [Str.splitWhitespace_eq, Str.toList_join]
  show (words Str.isWhitespace ([' '].intercalate _)).map String.ofList = fields
  rw [hwords, Str.map_ofList_toList]

theorem trim_join {fields : List String} (h : Fields fields) :
    Str.trim (Str.join " " fields) = Str.join " " fields := by
  rw [Str.trim_eq, Str.toList_join]
  exact congrArg String.ofList (Words.strip_intercalate (words_of_fields h))

theorem mem_join_fields {fields : List String} (h : Fields fields) :
    ∀ c ∈ (Str.join " " fields).toList, fieldChar c = true ∨ c = ' ' := by
  intro c hc
  rw [Str.toList_join] at hc
  rcases Words.mem_intercalate hc with hc | ⟨w, hw, hc⟩
  · exact .inr hc
  · obtain ⟨f, hf, rfl⟩ := List.mem_map.mp hw
    exact .inl ((unbroken_of_fields h f hf).2 c hc)

theorem join_fields_ne_empty {fields : List String} (h : Fields fields) :
    Str.join " " fields ≠ "" := by
  intro he
  have hempty : Str.splitWhitespace "" = [] := by decide
  have hfields := splitWhitespace_join h
  rw [he, hempty] at hfields
  obtain ⟨ip, names, rfl, -⟩ := h
  cases hfields

theorem mem_entry {lines : List String} (h : ∀ line ∈ lines, Fields (Str.splitWhitespace line)) :
    ∀ entry ∈ lines.map entryLine, ∀ c ∈ entry.toList, fieldChar c = true ∨ c = ' ' := by
  intro entry hentry
  obtain ⟨line, hline, rfl⟩ := List.mem_map.mp hentry
  exact mem_join_fields (h line hline)

theorem entry_ne_marker {lines : List String}
    (h : ∀ line ∈ lines, Fields (Str.splitWhitespace line)) :
    ∀ entry ∈ lines.map entryLine, entry ≠ hostsBegin ∧ entry ≠ hostsEnd := by
  intro entry hentry
  have hhash : '#' ∉ entry.toList := fun hc => absurd (mem_entry h entry hentry '#' hc) (by decide)
  constructor
  · rintro rfl
    exact hhash (by decide)
  · rintro rfl
    exact hhash (by decide)

theorem split_block {lines : List String} (hne : lines ≠ [])
    (h : ∀ line ∈ lines, Fields (Str.splitWhitespace line)) :
    Str.split (Str.join "\n" (lines.map entryLine)) '\n' = lines.map entryLine := by
  refine Str.split_join (by simpa using hne) ?_
  intro entry hentry hc
  exact absurd (mem_entry h entry hentry '\n' hc) (by decide)

theorem nonBlank_entries {lines : List String}
    (h : ∀ line ∈ lines, Fields (Str.splitWhitespace line)) :
    nonBlank (lines.map entryLine) = lines.map entryLine := by
  induction lines with
  | nil => rfl
  | cons line lines ih =>
      rw [List.forall_mem_cons] at h
      have htrim : Str.trim (entryLine line) = entryLine line := trim_join h.1
      have hne : entryLine line ≠ "" := join_fields_ne_empty h.1
      rw [List.map_cons, nonBlank_cons, htrim, if_neg hne, ih h.2]

theorem entryLine_entryLine {line : String} (h : Fields (Str.splitWhitespace line)) :
    Str.splitWhitespace (entryLine line) = Str.splitWhitespace line ∧
      entryLine (entryLine line) = entryLine line := by
  have hfields : Str.splitWhitespace (entryLine line) = Str.splitWhitespace line :=
    splitWhitespace_join h
  exact ⟨hfields, congrArg (Str.join " ") hfields⟩

theorem mem_block {lines : List String} (hne : lines ≠ [])
    (h : ∀ line ∈ lines, Fields (Str.splitWhitespace line)) :
    ∀ c ∈ (Str.join "\n" (lines.map entryLine)).toList,
      c.isAlphanum = true ∨ c ∈ ['.', '-', ' ', '\n'] := by
  intro c hc
  rcases Str.mem_of_split (d := '\n') hc with rfl | ⟨entry, hentry, hc⟩
  · exact .inr (by decide)
  · rw [split_block hne h] at hentry
    rcases mem_entry h entry hentry c hc with hfield | rfl
    · rw [fieldChar, Bool.or_eq_true, Bool.or_eq_true, beq_iff_eq, beq_iff_eq] at hfield
      rcases hfield with (halnum | rfl) | rfl
      · exact .inl halnum
      · exact .inr (by decide)
      · exact .inr (by decide)
    · exact .inr (by decide)

theorem parseHostsEntries_block {lines : List String} (hne : lines ≠ [])
    (h : ∀ line ∈ lines, Fields (Str.splitWhitespace line)) :
    parseHostsEntries (Str.join "\n" (lines.map entryLine)) =
      .ok (Str.join "\n" (lines.map entryLine)) := by
  have hlines : hostLines (Str.join "\n" (lines.map entryLine)) = lines.map entryLine := by
    rw [hostLines, split_block hne h, nonBlank_entries h]
  refine parseHostsEntries_eq_ok_iff.mpr ⟨⟨?_, ?_⟩, ?_⟩
  · rw [hlines]
    simpa using hne
  · rw [hlines]
    intro entry hentry
    obtain ⟨line, hline, rfl⟩ := List.mem_map.mp hentry
    rw [(entryLine_entryLine (h line hline)).1]
    exact h line hline
  · rw [hlines, List.map_map]
    refine congrArg (Str.join "\n") (List.map_congr_left fun line hline => ?_)
    exact (entryLine_entryLine (h line hline)).2.symm

/-- A text is read exactly where it has a line that is not blank and each such
line is an address and names.  What it is read as has one line for each of them
in order, the fields with a space between; it has no other characters than
fields have, no line of it is a marker, and it is read as itself. -/
theorem parse_hosts_entries_grammar (raw : String) :
    ((∃ block, parseHostsEntries raw = .ok block) ↔
      hostLines raw ≠ [] ∧ ∀ line ∈ hostLines raw, Fields (Str.splitWhitespace line)) ∧
    ∀ block, parseHostsEntries raw = .ok block →
      Str.split block '\n' = (hostLines raw).map entryLine ∧
      (∀ c ∈ block.toList, c.isAlphanum = true ∨ c ∈ ['.', '-', ' ', '\n']) ∧
      (∀ line ∈ Str.split block '\n', line ≠ hostsBegin ∧ line ≠ hostsEnd) ∧
      parseHostsEntries block = .ok block := by
  constructor
  · constructor
    · rintro ⟨block, h⟩
      exact (parseHostsEntries_eq_ok_iff.mp h).1
    · intro h
      exact ⟨_, parseHostsEntries_eq_ok_iff.mpr ⟨h, rfl⟩⟩
  · intro block h
    obtain ⟨⟨hne, hf⟩, rfl⟩ := parseHostsEntries_eq_ok_iff.mp h
    have hsplit := split_block hne hf
    refine ⟨hsplit, mem_block hne hf, ?_, parseHostsEntries_block hne hf⟩
    rw [hsplit]
    exact entry_ne_marker hf

theorem parse_hosts_entries_grammar_two :
    Str.split "10.0.0.1 a b.c." '\n' =
        (hostLines "  \r\n\t10.0.0.1\t a  b.c. \r\n").map entryLine ∧
      parseHostsEntries "10.0.0.1 a b.c." = .ok "10.0.0.1 a b.c." := by
  have h := (parse_hosts_entries_grammar "  \r\n\t10.0.0.1\t a  b.c. \r\n").2 "10.0.0.1 a b.c."
    rfl
  exact ⟨h.1, h.2.2.2⟩

/-! ## The file -/

/-- The UTF-8 bytes of a string. -/
def bytes (s : String) : List UInt8 := s.toList.flatMap String.utf8EncodeChar

/-- The contents of a file as its lines. -/
def fileLines (file : List UInt8) : Text UInt8 10 := .ofList file

/-- `sed "/^${first}\$/,/^${last}\$/d"`: no marker has a character that is special
in a pattern, so a line matches exactly if it is the marker. -/
def sedDelete (first last : String) (file : List UInt8) : List UInt8 :=
  ((fileLines file).deleteRanges (· == bytes first) (· == bytes last)).toList

/-- `printf '%s\n'` -/
def printfLine (s : String) : List UInt8 := bytes s ++ [10]

/-- What the script makes of `/etc/hosts`.  Under `set -u` a missing argument ends
it before anything is written. -/
def rewriteHosts (args : List String) (file : List UInt8) : List UInt8 :=
  match args with
  | first :: last :: block :: _ =>
      sedDelete first last file ++ (printfLine first ++ printfLine block ++ printfLine last)
  | _ => file

/-- What a call of the command makes of the file. -/
def writeHosts (block : String) (file : List UInt8) : List UInt8 :=
  ofScript script (rewriteHosts · file) file (stage block).call

theorem writeHosts_stage (block : String) (file : List UInt8) :
    writeHosts block file = rewriteHosts (stage block).args file := by
  have hscript : (stage block).script = script := rfl
  rw [writeHosts, ofScript_stage hscript]

/-- A line that begins a managed block. -/
def isBegin (line : List UInt8) : Bool := line == bytes hostsBegin

/-- A line that ends one. -/
def isEnd (line : List UInt8) : Bool := line == bytes hostsEnd

/-- What is left of a file before the block is appended. -/
def unmanaged (file : List UInt8) : Text UInt8 10 := (fileLines file).deleteRanges isBegin isEnd

/-- The lines of a block, as they stand in the file. -/
def blockLines (block : String) : List (List UInt8) := (Str.split block '\n').map bytes

theorem isBegin_begin : isBegin (bytes hostsBegin) = true := beq_self_eq_true _

theorem isEnd_end : isEnd (bytes hostsEnd) = true := beq_self_eq_true _

theorem isEnd_begin : isEnd (bytes hostsBegin) = false := by decide

theorem isBegin_end : isBegin (bytes hostsEnd) = false := by decide

theorem isBegin_nil : isBegin [] = false := by decide

theorem bytes_append (s t : String) : bytes (s ++ t) = bytes s ++ bytes t := by
  rw [bytes, String.toList_append, List.flatMap_append, bytes, bytes]

theorem printfLine_eq (block : String) :
    printfLine block = (blockLines block).flatMap (· ++ [10]) := by
  have hjoin : ∀ xs : List String, xs ≠ [] →
      printfLine (Str.join "\n" xs) = (xs.map bytes).flatMap (· ++ [10]) := by
    intro xs hne
    induction xs with
    | nil => exact absurd rfl hne
    | cons x xs ih =>
        rw [List.map_cons, List.flatMap_cons]
        by_cases hxs : xs = []
        · subst hxs
          simp [printfLine, Str.join]
        · rw [← ih hxs, Str.join_cons hxs, printfLine, bytes_append, bytes_append, printfLine]
          have hfeed : bytes "\n" = [10] := by decide
          simp [hfeed]
  conv => lhs; rw [← Str.join_split block '\n']
  exact hjoin _ (Str.split_ne_nil block '\n')

theorem toNat_of_mem_utf8 {c : Char} (hc : c.toNat ≤ 127) {b : UInt8}
    (hb : b ∈ String.utf8EncodeChar c) : b.toNat = c.toNat := by
  have hsize : c.utf8Size = 1 := Char.utf8Size_eq_one_iff.mpr hc
  rw [String.utf8EncodeChar_eq_singleton hsize, List.mem_singleton] at hb
  subst hb
  show c.val.toNat % 256 = c.toNat
  rw [Char.toNat_val]
  omega

theorem not_mem_bytes {s : String} {n : Nat} (h : ∀ c ∈ s.toList, c.toNat ≤ 127 ∧ c.toNat ≠ n) :
    ∀ b ∈ bytes s, b.toNat ≠ n := by
  intro b hb
  obtain ⟨c, hc, hb⟩ := List.mem_flatMap.mp hb
  rw [toNat_of_mem_utf8 (h c hc).1 hb]
  exact (h c hc).2

theorem mem_bytes_entry {entry : String} (h : ∀ c ∈ entry.toList, fieldChar c = true ∨ c = ' ') :
    ∀ b ∈ bytes entry, b ≠ 10 ∧ b ≠ 35 := by
  have hrange : ∀ c ∈ entry.toList, c.toNat ≤ 127 ∧ c.toNat ≠ 10 ∧ c.toNat ≠ 35 := by
    intro c hc
    rcases h c hc with hfield | rfl
    · have hlo := fieldChar_range hfield
      omega
    · decide
  intro b hb
  constructor
  · rintro rfl
    exact not_mem_bytes (n := 10) (fun c hc => ⟨(hrange c hc).1, (hrange c hc).2.1⟩) 10 hb rfl
  · rintro rfl
    exact not_mem_bytes (n := 35) (fun c hc => ⟨(hrange c hc).1, (hrange c hc).2.2⟩) 35 hb rfl

/-- An accepted block: what some parameter is read as. -/
def Accepted (block : String) : Prop := ∃ raw, parseHostsEntries raw = .ok block

theorem mem_blockLines {block : String} (h : Accepted block) {l : List UInt8}
    (hl : l ∈ blockLines block) : 10 ∉ l ∧ isBegin l = false ∧ isEnd l = false := by
  obtain ⟨raw, hraw⟩ := h
  obtain ⟨⟨hne, hf⟩, rfl⟩ := parseHostsEntries_eq_ok_iff.mp hraw
  rw [blockLines, split_block hne hf] at hl
  obtain ⟨entry, hentry, rfl⟩ := List.mem_map.mp hl
  have hbytes := mem_bytes_entry (mem_entry hf entry hentry)
  have hhash : ∀ marker : String, 35 ∈ bytes marker → (bytes entry == bytes marker) = false := by
    intro marker hm
    rw [beq_eq_false_iff_ne]
    intro he
    exact (hbytes 35 (he ▸ hm)).2 rfl
  exact ⟨fun h10 => (hbytes 10 h10).1 rfl, hhash _ (by decide), hhash _ (by decide)⟩

theorem written_unbroken {block : String} (h : Accepted block) :
    ∀ l ∈ bytes hostsBegin :: (blockLines block ++ [bytes hostsEnd]), (10 : UInt8) ∉ l := by
  rw [List.forall_mem_cons, List.forall_mem_append, List.forall_mem_singleton]
  exact ⟨by decide, fun l hl => (mem_blockLines h hl).1, by decide⟩

/-- The written file, line by line. -/
def written (block : String) (h : Accepted block) (t : Text UInt8 10) : Text UInt8 10 :=
  t.write (bytes hostsBegin) (blockLines block ++ [bytes hostsEnd]) (written_unbroken h)

theorem fileLines_writeHosts {block : String} (h : Accepted block) (file : List UInt8) :
    fileLines (writeHosts block file) = written block h (unmanaged file) := by
  have hbytes : writeHosts block file = (written block h (unmanaged file)).toList := by
    rw [written, Text.toList_write, List.flatMap_cons, List.flatMap_append, ← printfLine_eq,
      List.flatMap_singleton, writeHosts_stage]
    show sedDelete _ _ file ++ (printfLine _ ++ printfLine _ ++ printfLine _) = _
    rw [List.append_assoc (printfLine hostsBegin)]
    rfl
  rw [hbytes, fileLines, Text.ofList_toList]

theorem writeHosts_eq {block : String} (h : Accepted block) (file : List UInt8) :
    writeHosts block file = (written block h (unmanaged file)).toList := by
  rw [← fileLines_writeHosts h file, fileLines, Text.toList_ofList]

theorem unmanaged_not_begin (file : List UInt8) :
    (∀ l ∈ (unmanaged file).lines, isBegin l = false) ∧ isBegin (unmanaged file).rest = false := by
  constructor
  · intro l hl
    exact Text.not_opens_of_mem_kept hl
  · show isBegin (if _ then [] else _) = false
    split
    · decide
    · rename_i h
      exact Bool.eq_false_iff.mpr fun hb => h (by rw [hb, Bool.or_true])

/-- Where what is left of a file ends with an end of line, a block that has been
written is what the next write deletes. -/
theorem unmanaged_writeHosts {block : String} (h : Accepted block) {file : List UInt8}
    (hrest : (unmanaged file).rest = []) :
    unmanaged (writeHosts block file) = unmanaged file := by
  obtain ⟨hlines, -⟩ := unmanaged_not_begin file
  have hblock : ∀ l ∈ blockLines block, isEnd l = false := fun l hl => (mem_blockLines h hl).2.2
  rw [unmanaged, fileLines_writeHosts h]
  exact Text.deleteRanges_block hlines hrest isBegin_begin hblock isEnd_end _

theorem unmanaged_glued {block : String} (h : Accepted block) {file : List UInt8}
    (hrest : (unmanaged file).rest ≠ []) :
    unmanaged (writeHosts block file) = written block h (unmanaged file) := by
  obtain ⟨hlines, -⟩ := unmanaged_not_begin file
  rw [unmanaged, fileLines_writeHosts h]
  refine Text.deleteRanges_of_not_opens ?_ isBegin_nil
  show ∀ l ∈ (unmanaged file).lines ++ ((unmanaged file).rest ++ bytes hostsBegin) ::
    (blockLines block ++ [bytes hostsEnd]), isBegin l = false
  rw [List.forall_mem_append, List.forall_mem_cons, List.forall_mem_append,
    List.forall_mem_singleton]
  refine ⟨hlines, ?_, fun l hl => (mem_blockLines h hl).2.1, isBegin_end⟩
  -- the marker stands behind something, so the line is longer than the marker
  rw [isBegin, beq_eq_false_iff_ne]
  intro he
  exact hrest (List.append_left_eq_self.mp he)

/-! ## Convergence -/

/-- The file ends with the block, and no other block begins in it. -/
def EndsWithBlock (block : String) (file : List UInt8) : Prop :=
  ∃ front, (fileLines file).lines = front ++ bytes hostsBegin ::
      (blockLines block ++ [bytes hostsEnd]) ∧
    (fileLines file).rest = [] ∧ (fileLines file).lines.count (bytes hostsBegin) = 1

/-- After any write, another one makes what it makes of the file itself, which
ends with its block. -/
def Converges (file : List UInt8) : Prop :=
  ∀ first last, Accepted first → Accepted last →
    writeHosts last (writeHosts first file) = writeHosts last file ∧
      EndsWithBlock last (writeHosts last file)

/-- The file has no last line without an end, or one that a managed block ends
with: the line is its first marker, or it comes after one with no second marker
in between. -/
def Settled (file : List UInt8) : Prop :=
  (fileLines file).rest = [] ∨ (fileLines file).rest = bytes hostsBegin ∨
    ∃ before inside, (fileLines file).lines = before ++ bytes hostsBegin :: inside ∧
      bytes hostsEnd ∉ inside

theorem insideAfter_marker_iff {lines : List (List UInt8)} :
    Text.insideAfter isBegin isEnd false lines = true ↔
      ∃ before inside, lines = before ++ bytes hostsBegin :: inside ∧ bytes hostsEnd ∉ inside := by
  have hmarkers : ∀ l, isBegin l = true → isEnd l = false := by
    intro l hl
    rw [isBegin, beq_iff_eq] at hl
    subst hl
    exact isEnd_begin
  rw [Text.insideAfter_iff hmarkers]
  constructor
  · rintro ⟨before, l, inside, he, hl, hinside⟩
    rw [isBegin, beq_iff_eq] at hl
    subst hl
    refine ⟨before, inside, he, fun hm => ?_⟩
    exact absurd isEnd_end (Bool.eq_false_iff.mp (hinside _ hm))
  · rintro ⟨before, inside, he, hend⟩
    refine ⟨before, _, inside, he, isBegin_begin, fun m hm => ?_⟩
    rw [isEnd, beq_eq_false_iff_ne]
    rintro rfl
    exact hend hm

theorem settled_iff (file : List UInt8) : Settled file ↔ (unmanaged file).rest = [] := by
  have hrest : (unmanaged file).rest =
      if Text.insideAfter isBegin isEnd false (fileLines file).lines ||
        isBegin (fileLines file).rest then [] else (fileLines file).rest := rfl
  rw [Settled, ← insideAfter_marker_iff, hrest]
  split
  · rename_i h
    refine iff_of_true ?_ rfl
    rw [Bool.or_eq_true, isBegin, beq_iff_eq] at h
    exact .inr h.symm
  · rename_i h
    rw [Bool.or_eq_true, isBegin, beq_iff_eq, not_or] at h
    constructor
    · rintro (hr | hr | hr)
      · exact hr
      · exact absurd hr h.2
      · exact absurd hr h.1
    · exact .inl

/-- A settled file stays settled, with the same lines outside of its blocks. -/
theorem settled_writeHosts {block : String} (h : Accepted block) {file : List UInt8}
    (hs : Settled file) :
    Settled (writeHosts block file) ∧ unmanaged (writeHosts block file) = unmanaged file := by
  rw [settled_iff] at hs
  have hsame := unmanaged_writeHosts h hs
  rw [settled_iff, hsame]
  exact ⟨hs, rfl⟩

/-- However many blocks have been written, the next one makes what it makes of the
file they started from. -/
theorem writes_converge {last : String} (hl : Accepted last) {blocks : List String} :
    ∀ {file : List UInt8}, (∀ b ∈ blocks, Accepted b) → Settled file →
      writeHosts last (blocks.foldl (fun f b => writeHosts b f) file) = writeHosts last file := by
  induction blocks with
  | nil =>
      intro file _ _
      rfl
  | cons block blocks ih =>
      intro file h hs
      rw [List.forall_mem_cons] at h
      obtain ⟨hstill, hsame⟩ := settled_writeHosts h.1 hs
      rw [List.foldl_cons, ih h.2 hstill, writeHosts_eq hl, hsame, ← writeHosts_eq hl]

theorem endsWithBlock_writeHosts {block : String} (h : Accepted block) {file : List UInt8}
    (hs : Settled file) : EndsWithBlock block (writeHosts block file) := by
  rw [settled_iff] at hs
  obtain ⟨hfront, -⟩ := unmanaged_not_begin file
  have hlines : (fileLines (writeHosts block file)).lines = (unmanaged file).lines ++
      bytes hostsBegin :: (blockLines block ++ [bytes hostsEnd]) := by
    rw [fileLines_writeHosts h]
    show (unmanaged file).lines ++ ((unmanaged file).rest ++ bytes hostsBegin) :: _ = _
    rw [hs, List.nil_append]
  have hnone : ∀ ls : List (List UInt8), (∀ l ∈ ls, isBegin l = false) →
      ls.count (bytes hostsBegin) = 0 := by
    intro ls hls
    refine List.count_eq_zero.mpr ?_
    intro hm
    exact absurd isBegin_begin (Bool.eq_false_iff.mp (hls _ hm))
  refine ⟨(unmanaged file).lines, hlines, ?_, ?_⟩
  · rw [fileLines_writeHosts h]
    rfl
  · rw [hlines, List.count_append, List.count_cons_self, List.count_append, hnone _ hfront,
      hnone _ fun l hl => (mem_blockLines h hl).2.1,
      hnone _ (List.forall_mem_singleton.mpr isBegin_end)]

/-- Writing converges exactly on the files that are settled.  On another file the
last line keeps having no end, so the marker is written behind it on the same
line, and no later write finds the block. -/
theorem hosts_converges_iff (file : List UInt8) : Converges file ↔ Settled file := by
  constructor
  · intro h
    rw [settled_iff]
    by_contra hrest
    have ha : Accepted "10.0.0.1 a" := ⟨"10.0.0.1 a", rfl⟩
    have htwice := (h _ _ ha ha).1
    rw [writeHosts_eq ha (writeHosts _ file), unmanaged_glued ha hrest, writeHosts_eq ha file,
      Text.toList_inj] at htwice
    -- the second write adds lines and takes none away
    have hcount := congrArg (fun t => t.lines.length) htwice
    simp [written, Text.write] at hcount
  · intro hs first last hf hl
    constructor
    · have hone := writes_converge hl (List.forall_mem_singleton.mpr hf) hs
      rwa [List.foldl_cons, List.foldl_nil] at hone
    · exact endsWithBlock_writeHosts hl hs

/-- A hosts file without a final end of line does not converge. -/
theorem hosts_accumulate : ¬ Converges (bytes "127.0.0.1 localhost") := by
  intro h
  have htwice := (h "10.0.0.1 a" "10.0.0.2 b" ⟨"10.0.0.1 a", rfl⟩ ⟨"10.0.0.2 b", rfl⟩).1
  simp only [writeHosts_stage] at htwice
  exact absurd htwice (by decide)

end CertSecureWriteHosts

end PkiExecutor
