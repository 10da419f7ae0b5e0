/-
# `PkiExecutor.DnsServer` — the records that a plan leaves on the server

The script of `dns.apply_resources`, as a program over the state of an
authoritative server: per record it looks up what is there, throws where
something else is, and adds the value where nothing is.  The loop changes the
state that it looks at, so a record may meet what an earlier one has added.

What is particular to a server is a structure, `NameServer`: which spellings are
one name to it, what it makes of a network identifier, which additions it admits,
and how a value comes back that was put in.  Seen as a ledger every iteration is
one of three steps (`applyRecord_step`), and `apply_resources_safe` follows: no
value is lost, a run that completes leaves each record's value and no other under
its key, and running it again changes nothing.
-/
import Mathlib.Logic.Function.Basic
import PkiExecutor.Lib.Ledger
import PkiExecutor.Reverse

namespace PkiExecutor

open Ledger (Holds Keeps Request Settles Status Step)

namespace DnsApplyResources

/-! ## Values -/

/-- `TrimEnd('.')` on names; addresses are taken as they are. -/
def shown (kind : PlannedDnsKind) (value : String) : String :=
  match kind with
  | .a => value
  | .ptr => Str.trimEndMatches value '.'
  | .cname => Str.trimEndMatches value '.'

/-- `$actual[0] -ieq $expected` -/
def agrees (kind : PlannedDnsKind) (found value : String) : Bool :=
  Str.eqIgnoreAsciiCase (shown kind found) (shown kind value)

/-- The same address, or two spellings of one name. -/
def SameValue (kind : PlannedDnsKind) (found value : String) : Prop :=
  match kind with
  | .a => found = value
  | .ptr => sameName found value = true
  | .cname => sameName found value = true

theorem Numeric.eq_of_eqIgnoreAsciiCase {s t : String} (h : Numeric t)
    (he : Str.eqIgnoreAsciiCase s t = true) : s = t := by
  rw [Str.eqIgnoreAsciiCase, beq_iff_eq, h.lower] at he
  refine String.toList_inj.mp ?_
  have hlow : ∀ c ∈ s.toList, c.toLower = c := by
    intro c hc
    have hmem : c.toLower ∈ t.toList := he ▸ List.mem_map_of_mem hc
    have hval : c.toLower.val < 65 := by
      rcases h _ hmem with hd | hdot
      · have hle : c.toLower.val ≤ 57 := of_decide_eq_true (Bool.and_eq_true_iff.mp hd).2
        exact UInt32.lt_of_le_of_lt hle (by decide)
      · rw [hdot]
        decide
    exact ((Str.toLower_eq_iff (.inl hval)).mp rfl).symm
  rw [← he]
  exact ((List.map_congr_left hlow).trans (List.map_id _)).symm

theorem numeric_of_parseIpv4 {s : String} {octets : List Nat}
    (h : Str.parseIpv4 s = some octets) : Numeric s := by
  obtain ⟨hsplit, -, -⟩ := Str.split_of_parseIpv4 h
  have hjoin : Str.join "." (octets.map toString) = s := by
    rw [← hsplit]
    exact Str.join_split s '.'
  rw [← hjoin]
  exact numeric_join (numeric_texts octets)

/-- What the script takes for the value is the value. -/
theorem sameValue_of_agrees {record : PlannedDnsRecord} (h : record.Valid) {found : String}
    (ha : agrees record.kind found record.value = true) :
    SameValue record.kind found record.value := by
  have hkind := h.kind_ok
  unfold PlannedDnsRecord.validKind at hkind
  unfold agrees shown at ha
  unfold SameValue
  cases hk : record.kind with
  | a =>
      simp only [hk, Bool.and_eq_true] at hkind ha
      obtain ⟨octets, ho⟩ := Option.isSome_iff_exists.mp hkind.2
      exact (numeric_of_parseIpv4 ho).eq_of_eqIgnoreAsciiCase ha
  | ptr =>
      simp only [hk] at ha
      exact ha
  | cname =>
      simp only [hk] at ha
      exact ha

/-! ## The server -/

/-- Where a value stands: names as the server identifies them. -/
structure Key where
  zone : String
  name : String
  kind : PlannedDnsKind
  deriving DecidableEq, Repr

/-- What is particular to a server. -/
structure NameServer where
  /-- two names are one to the server if this is the same of both -/
  fold : String → String
  /-- the zone that `Add-DnsServerPrimaryZone` makes for a network; `none` where it fails -/
  networkZone : String → Option String
  /-- whether `Add-DnsServerResourceRecord…` puts the value in, or fails -/
  admits : (Key → List String) → Key → String → Bool
  /-- how a value is read that was put in -/
  spell : PlannedDnsKind → String → String
  spell_address : ∀ value, validIpv4Addr value = true → spell .a value = value
  spell_name : ∀ kind value, kind ≠ .a → sameName (spell kind value) value = true

/-- The zones it has and the values in them. -/
structure ServerState where
  zones : List String
  records : Key → List String
  /-- There is nothing in a zone that is not there. -/
  absent : ∀ key, key.zone ∉ zones → records key = []

variable (a : NameServer)

/-- Where the server keeps a name's values. -/
def NameServer.key (kind : PlannedDnsKind) (zone name : String) : Key :=
  ⟨a.fold zone, a.fold name, kind⟩

/-- `Get-DnsServerZone` finds the zone. -/
def ServerState.hasZone (s : ServerState) (zone : String) : Bool := s.zones.contains (a.fold zone)

/-- `Add-DnsServerPrimaryZone`: the new zone is empty. -/
def ServerState.createZone (s : ServerState) (zone : String) : ServerState where
  zones := a.fold zone :: s.zones
  records := s.records
  absent key hk := s.absent key fun hm => hk (List.mem_cons_of_mem _ hm)

/-- `Get-DnsServerResourceRecord`; an error is silent, so that nothing is found in a
zone that is not there. -/
def ServerState.get (s : ServerState) (kind : PlannedDnsKind) (zone name : String) :
    List String := s.records (a.key kind zone name)

/-- `Add-DnsServerResourceRecord…`, after what is there. -/
def ServerState.add (s : ServerState) (kind : PlannedDnsKind) (zone name value : String) :
    Option ServerState :=
  if h : a.fold zone ∈ s.zones then
    if a.admits s.records (a.key kind zone name) value then
      some
        { zones := s.zones
          records := Function.update s.records (a.key kind zone name)
            (s.get a kind zone name ++ [a.spell kind value])
          absent := by
            intro key hk
            have hne : key ≠ a.key kind zone name := by
              rintro rfl
              exact hk h
            rw [Function.update_of_ne hne]
            exact s.absent key hk }
    else none
  else none

/-! ## The script -/

/-- Why the loop stops. -/
inductive Failure
  | conflict (message : String)
  | zoneNotAdded
  | recordNotAdded
  deriving DecidableEq, Repr

/-- One entry of the readback. -/
structure Applied where
  id : String
  kind : PlannedDnsKind
  status : Status
  deriving DecidableEq, Repr

/-- `throw "DNS conflict for …"` -/
def conflict (record : PlannedDnsRecord) (actual : List String) : Failure :=
  let subject := match record.kind with
    | .ptr => "PTR " ++ record.name
    | .a => "A " ++ record.name ++ "." ++ record.zone
    | .cname => "CNAME " ++ record.name ++ "." ++ record.zone
  .conflict ("DNS conflict for " ++ subject ++ ": expected " ++ record.value ++ "; found " ++
    Str.join "," actual)

/-- The name under which a record is looked up and added. -/
def ownerName (record : PlannedDnsRecord) : String :=
  match record.kind with
  | .ptr => relativeName record.zone record.name
  | .a => record.name
  | .cname => record.name

/-- The part that the three kinds share. -/
def settle (s : ServerState) (record : PlannedDnsRecord) : ServerState × Except Failure Status :=
  let existing := s.get a record.kind record.zone (ownerName record)
  let actual := existing.map (shown record.kind)
  let identical := match existing with
    | [found] => agrees record.kind found record.value
    | _ => false
  if existing ≠ [] ∧ identical = false then (s, .error (conflict record actual))
  else if existing = [] then
    match s.add a record.kind record.zone (ownerName record) record.value with
    | some s' => (s', .ok .created)
    | none => (s, .error .recordNotAdded)
  else (s, .ok .retained)

/-- The words in which the branches of the script differ: the type of record, the name that
is looked up, how what is found and what is expected are read and compared, and the cmdlet. -/
structure Branch where
  rrType : String
  owner : String
  found : String
  expected : String
  agrees : String
  subject : String
  cmdlet : String

/-- The branch of a kind. -/
def branch : PlannedDnsKind → Branch
  | .a => ⟨"A", "$name", "IPv4Address.IPAddressToString", "", "-eq $value",
      "A $name.$\x7bzone\x7d",
      "Add-DnsServerResourceRecordA -ZoneName $zone -Name $name -IPv4Address $value"⟩
  | .ptr => ⟨"PTR", "$relativeName", "PtrDomainName.TrimEnd('.')",
      "        $expected = $value.TrimEnd('.')\n", "-ieq $expected", "PTR $\x7bname\x7d",
      "Add-DnsServerResourceRecordPtr -ZoneName $zone -Name $relativeName -PtrDomainName $value"⟩
  | .cname => ⟨"CNAME", "$name", "HostNameAlias.TrimEnd('.')",
      "        $expected = $value.TrimEnd('.')\n", "-ieq $expected", "CNAME $name.$\x7bzone\x7d",
      "Add-DnsServerResourceRecordCName -ZoneName $zone -Name $name -HostNameAlias $value"⟩

/-- The statements of a branch that `settle` transcribes. -/
def Branch.text (b : Branch) : String :=
  "        $existing = @(Get-DnsServerResourceRecord -ZoneName $zone -Name " ++ b.owner ++
  " -RRType " ++ b.rrType ++ " -ErrorAction SilentlyContinue)\n" ++
  "        $actual = @($existing | ForEach-Object \x7b $_.RecordData." ++ b.found ++ " \x7d)\n" ++
  b.expected ++
  "        if ($existing.Count -gt 0 -and -not ($actual.Count -eq 1 -and $actual[0] " ++
  b.agrees ++ ")) \x7b\n" ++
  "            throw \"DNS conflict for " ++ b.subject ++ ": expected $value; " ++
  "found $($actual -join ',')\"\n" ++
  "        \x7d\n" ++
  "        if ($existing.Count -eq 0) \x7b\n" ++
  "            " ++ b.cmdlet ++ " | Out-Null\n" ++
  "            $status = 'created'\n" ++
  "        \x7d else \x7b $status = 'retained' \x7d\n"

/-- The text of the script has these statements for each kind. -/
theorem script_text (kind : PlannedDnsKind) :
    Str.containsStr script (branch kind).text = true := by
  cases kind
  all_goals
    unfold script Branch.text branch
    -- nested to the right, so that a character is not passed through every piece behind it
    simp only [-String.reduceAppend, String.append_assoc]
    repeat rewrite [← String.ofList_append]
  case ptr => exact Str.containsStr_ofList 1359 (by decide +kernel)
  case a => exact Str.containsStr_ofList 2084 (by decide +kernel)
  case cname => exact Str.containsStr_ofList 2754 (by decide +kernel)

/-- A PTR record's zone is created first where it is missing. -/
def ensureZone (s : ServerState) (record : PlannedDnsRecord) : Option ServerState :=
  match record.kind with
  | .ptr =>
      if s.hasZone a record.zone then some s
      else (a.networkZone (networkId record.zone)).map (s.createZone a)
  | .a => some s
  | .cname => some s

/-- One iteration. -/
def applyRecord (s : ServerState) (record : PlannedDnsRecord) :
    ServerState × Except Failure Status :=
  match ensureZone a s record with
  | none => (s, .error .zoneNotAdded)
  | some s' => settle a s' record

/-- The loop, which the first error ends. -/
def applyRecords : ServerState → List PlannedDnsRecord →
    ServerState × Except Failure (List Applied)
  | s, [] => (s, .ok [])
  | s, record :: records =>
      match applyRecord a s record with
      | (s', .error e) => (s', .error e)
      | (s', .ok status) =>
          let rest := applyRecords s' records
          (rest.1, rest.2.map (⟨record.id, record.kind, status⟩ :: ·))

/-! ## An iteration is a step of the ledger -/

/-- What a record asks for. -/
def request (record : PlannedDnsRecord) : Request Key String where
  key := a.key record.kind record.zone (ownerName record)
  fits found := agrees record.kind found record.value = true

variable {a} {s s' : ServerState} {record : PlannedDnsRecord}

theorem spell_agrees (h : record.Valid) :
    agrees record.kind (a.spell record.kind record.value) record.value = true := by
  have hkind := h.kind_ok
  unfold PlannedDnsRecord.validKind at hkind
  cases hk : record.kind with
  | a =>
      simp only [hk, Bool.and_eq_true] at hkind
      rw [a.spell_address record.value hkind.2]
      exact beq_self_eq_true _
  | ptr => exact a.spell_name .ptr record.value (by decide)
  | cname => exact a.spell_name .cname record.value (by decide)

theorem records_of_add {kind : PlannedDnsKind} {zone name value : String}
    (h : s.add a kind zone name value = some s') :
    s'.records = Function.update s.records (a.key kind zone name)
      (s.records (a.key kind zone name) ++ [a.spell kind value]) := by
  unfold ServerState.add at h
  split at h
  · simp only [Option.ite_none_right_eq_some, Option.some.injEq] at h
    obtain ⟨-, rfl⟩ := h
    rfl
  · cases h

theorem records_of_ensureZone (h : ensureZone a s record = some s') : s'.records = s.records := by
  unfold ensureZone at h
  split at h
  · split at h
    · cases h
      rfl
    · obtain ⟨zone, -, rfl⟩ := Option.map_eq_some_iff.mp h
      rfl
  · cases h
    rfl
  · cases h
    rfl

theorem settle_of_holds (h : Holds s.records (request a record)) :
    settle a s record = (s, .ok .retained) := by
  obtain ⟨found, hfound, hagrees⟩ := h
  have hget : s.get a record.kind record.zone (ownerName record) = [found] := hfound
  have hident : agrees record.kind found record.value = true := hagrees
  simp only [settle, hget, hident]
  rfl

theorem settle_step (h : record.Valid) :
    Step (request a record) s.records (settle a s record).1.records
      (settle a s record).2.toOption := by
  cases hget : s.get a record.kind record.zone (ownerName record) with
  | nil =>
      simp only [settle, hget, ne_eq, not_true_eq_false, false_and, if_false, if_true]
      cases hadd : s.add a record.kind record.zone (ownerName record) record.value with
      | none => exact .refused
      | some s' =>
          have hrecords := records_of_add hadd
          have hempty : s.records (request a record).key = [] := hget
          refine .created hempty ?_ (spell_agrees (a := a) h) fun k hk => ?_
          · show s'.records (a.key record.kind record.zone (ownerName record)) = _
            rw [hrecords, Function.update_self]
            exact congrArg (· ++ _) hget
          · have hne : k ≠ a.key record.kind record.zone (ownerName record) := hk
            show s'.records k = _
            rw [hrecords, Function.update_of_ne hne]
  | cons found others =>
      by_cases hholds : Holds s.records (request a record)
      · rw [settle_of_holds hholds]
        exact .retained hholds
      · -- several values, or one that does not agree
        have hident : (match found :: others with
            | [found] => agrees record.kind found record.value
            | _ => false) = false := by
          cases others with
          | nil =>
              rw [← Bool.not_eq_true]
              intro ha
              exact hholds ⟨found, hget, ha⟩
          | cons _ _ => rfl
        simp only [settle, hget, hident, ne_eq, reduceCtorEq, not_false_eq_true, and_self, if_true]
        exact .refused

/-- Whatever an iteration comes to, it is a step of the ledger. -/
theorem applyRecord_step (h : record.Valid) :
    Step (request a record) s.records (applyRecord a s record).1.records
      (applyRecord a s record).2.toOption := by
  unfold applyRecord
  cases hz : ensureZone a s record with
  | none => exact .refused
  | some s' =>
      have hstep := settle_step (a := a) (s := s') h
      rw [records_of_ensureZone hz] at hstep
      exact hstep

/-- A record whose value is there: its zone is there too, and nothing happens. -/
theorem applyRecord_of_holds (h : Holds s.records (request a record)) :
    applyRecord a s record = (s, .ok .retained) := by
  have hzone : s.hasZone a record.zone = true := by
    obtain ⟨found, hfound, -⟩ := h
    rw [ServerState.hasZone, List.contains_iff_mem]
    by_contra hnot
    rw [s.absent (request a record).key hnot] at hfound
    cases hfound
  have hensure : ensureZone a s record = some s := by
    unfold ensureZone
    rw [if_pos hzone]
    split
    · rfl
    · rfl
    · rfl
  rw [applyRecord, hensure]
  exact settle_of_holds h

/-! ## A run -/

variable {records : List PlannedDnsRecord}

theorem applyRecords_error {e : Failure} (h : applyRecord a s record = (s', .error e)) :
    applyRecords a s (record :: records) = (s', .error e) := by
  simp only [applyRecords, h]

theorem applyRecords_ok {status : Status} (h : applyRecord a s record = (s', .ok status)) :
    applyRecords a s (record :: records) = ((applyRecords a s' records).1,
      (applyRecords a s' records).2.map (⟨record.id, record.kind, status⟩ :: ·)) := by
  simp only [applyRecords, h]

/-- The statuses of a run that completes. -/
def statuses (result : Except Failure (List Applied)) : Option (List Status) :=
  result.toOption.map (·.map Applied.status)

theorem statuses_map_cons (applied : Applied) (result : Except Failure (List Applied)) :
    statuses (result.map (applied :: ·)) = (statuses result).map (applied.status :: ·) := by
  cases result with
  | error e => rfl
  | ok rest => rfl

theorem applyRecords_settles (h : ∀ record ∈ records, record.Valid) :
    Settles (records.map (request a)) s.records (applyRecords a s records).1.records
      (statuses (applyRecords a s records).2) := by
  induction records generalizing s with
  | nil => exact .nil
  | cons record records ih =>
      rw [List.forall_mem_cons] at h
      have hstep := applyRecord_step (a := a) (s := s) h.1
      rcases hr : applyRecord a s record with ⟨s', e | status⟩
      · rw [hr] at hstep
        rw [applyRecords_error hr]
        exact .refused hstep
      · rw [hr] at hstep
        rw [applyRecords_ok hr, statuses_map_cons]
        exact .cons hstep (ih h.2)

theorem applyRecords_of_holds (h : ∀ record ∈ records, Holds s.records (request a record)) :
    applyRecords a s records =
      (s, .ok (records.map fun record => ⟨record.id, record.kind, .retained⟩)) := by
  induction records with
  | nil => rfl
  | cons record records ih =>
      rw [List.forall_mem_cons] at h
      rw [applyRecords_ok (applyRecord_of_holds h.1), ih h.2]
      rfl

/-- Over any state of the server and for any accepted payload: the command runs the script
on the payload, and nothing else; a run loses and changes no value; if it completes, each
record's key has the record's value and no other, and a second run retains every record and
leaves the state as it is. -/
theorem apply_resources_safe (a : NameServer) (host : Host) (ctx : Params) (raw : String)
    (records : List PlannedDnsRecord) (h : parsePlannedRecords host ctx = .ok (raw, records))
    (s s' : ServerState) (result : Except Failure (List Applied))
    (hrun : applyRecords a s records = (s', result)) :
    (∀ (world : List ShellCall → ShellCall → ShellReply) (past : List ShellCall),
      Event.queries ((execute host ctx).run world past).trace = [⟨script, [raw]⟩]) ∧
    (∀ key, s.records key <+: s'.records key) ∧
      ∀ applied, result = .ok applied →
        (∀ record ∈ records, ∃ found,
          s'.records (a.key record.kind record.zone (ownerName record)) = [found] ∧
            SameValue record.kind found record.value) ∧
        applyRecords a s' records =
          (s', .ok (records.map fun record => ⟨record.id, record.kind, .retained⟩)) := by
  have hvalid := (plannedRecords_of_parse h).valid
  have hsettles := applyRecords_settles (a := a) (s := s) hvalid
  rw [hrun] at hsettles
  have hcall : execute host ctx = perform (stage host raw records) := by
    rw [execute, h]
    rfl
  refine ⟨fun world past => ?_, hsettles.keeps.front, ?_⟩
  · rw [hcall, queries_perform]
    rfl
  rintro applied rfl
  have hholds : ∀ record ∈ records, Holds s'.records (request a record) := fun record hm =>
    hsettles.holds rfl (request a record) (List.mem_map_of_mem hm)
  constructor
  · intro record hm
    obtain ⟨found, hfound, hagrees⟩ := hholds record hm
    exact ⟨found, hfound, sameValue_of_agrees (hvalid record hm) hagrees⟩
  · exact applyRecords_of_holds hholds

/-- A server that ignores case and a dot at the end, completes names with that dot,
has the one reverse network of the lab, and admits everything. -/
def labServer : NameServer where
  fold name := Str.toAsciiLowercase (Str.trimEndMatches name '.')
  networkZone id := if id = "192.168.1.0/24" then some "1.168.192.in-addr.arpa" else none
  admits _ _ _ := true
  spell kind value := match kind with
    | .a => value
    | .ptr => Str.trimEndMatches value '.' ++ "."
    | .cname => Str.trimEndMatches value '.' ++ "."
  spell_address _ _ := rfl
  spell_name kind value hk := by
    have hname : sameName (Str.trimEndMatches value '.' ++ ".") value = true := by
      have htrim : Str.trimEndMatches (Str.trimEndMatches value '.' ++ ".") '.' =
          Str.trimEndMatches value '.' := by
        have hdot : ".".toList = ['.'] := rfl
        rw [Str.trimEndMatches, String.toList_append, Str.trimEndMatches, String.toList_ofList,
          hdot, List.rdropWhile_concat_pos _ _ _ rfl, List.rdropWhile_idempotent]
      rw [sameName, htrim]
      exact beq_self_eq_true _
    cases kind with
    | a => exact absurd rfl hk
    | ptr => exact hname
    | cname => exact hname

/-- The lab's server before anything is planned. -/
def labState : ServerState where
  zones := ["encon.pki"]
  records _ := []
  absent _ _ := rfl

theorem apply_resources_lab :
    (∃ found, (applyRecords labServer labState [labRecord "192.168.1.92"]).1.records
        ⟨"1.168.192.in-addr.arpa", "92", .ptr⟩ = [found] ∧
        SameValue .ptr found "srv1.encon.pki.") ∧
      applyRecords labServer (applyRecords labServer labState [labRecord "192.168.1.92"]).1
          [labRecord "192.168.1.92"] =
        ((applyRecords labServer labState [labRecord "192.168.1.92"]).1,
          .ok [⟨"dns:ptr:dc:web", .ptr, .retained⟩]) := by
  have hresult : (applyRecords labServer labState [labRecord "192.168.1.92"]).2 =
      .ok [⟨"dns:ptr:dc:web", .ptr, .created⟩] := by decide
  have hkey : labServer.key .ptr "1.168.192.in-addr.arpa" (ownerName (labRecord "192.168.1.92")) =
      ⟨"1.168.192.in-addr.arpa", "92", .ptr⟩ := by decide
  obtain ⟨hheld, hagain⟩ := (apply_resources_safe labServer (labHost "192.168.1.92")
    [("records", labText "192.168.1.92")] _ _
    (labPayload_accepted (by decide) (by decide)) labState _ _ rfl).2.2 _ hresult
  refine ⟨?_, hagain⟩
  obtain ⟨found, hfound, hsame⟩ := hheld (labRecord "192.168.1.92") List.mem_cons_self
  exact ⟨found, hkey ▸ hfound, hsame⟩

end DnsApplyResources

end PkiExecutor
