/-
# `PkiExecutor.Reverse` — reverse zones and the names written in them

A reverse zone is read twice.  `validReverseZone` trims dots from its end, folds
its case and takes off the suffix; the script of `dns.apply_resources` folds the
case, deletes the suffix wherever it stands and cuts the rest at its dots.  From
the number of labels and the address of a PTR record the script then makes the
name it writes, and from the labels the network a missing zone is created for.

`reverse_zone_read_iff`: the two readings agree exactly if the zone does not end
in a dot.  `ptr_in_zone_iff`: the name written is the reverse name of the record's
address, and of no other, exactly if the address lies in the zone's network, the
labels are plain decimal numbers, and a zone that ends in a dot has three of them.
-/
import PkiExecutor.Commands.Dns
import PkiExecutor.Hosts
import PkiExecutor.Lib.DotNet

namespace PkiExecutor

namespace DnsApplyResources

/-! ## What the script makes of a zone and an address -/

/-- `$zone.ToLowerInvariant().Replace('.in-addr.arpa','').Split('.')`; there are
only ASCII letters in a zone that is accepted. -/
def prefixLabels (zone : String) : List String :=
  Str.split (DotNet.replace (Str.toAsciiLowercase zone) ".in-addr.arpa" "") '.'

/-- `$prefixCount` -/
def prefixCount (zone : String) : Nat := (prefixLabels zone).length

/-- `$relativeName` -/
def relativeName (zone name : String) : String :=
  Str.join "." (DotNet.slice (Str.split name '.') (prefixCount zone) 3).reverse

/-- `$networkId` -/
def networkId (zone : String) : String :=
  let prefixLabels := (prefixLabels zone).reverse
  let networkOctets := prefixLabels ++ List.replicate (4 - prefixLabels.length) "0"
  Str.join "." networkOctets ++ "/" ++ toString (prefixLabels.length * 8)

/-! ## What the validator makes of a zone -/

/-- The labels in front of the suffix. -/
def zoneLabels (zone : String) : Option (List String) :=
  (Str.stripSuffix (Str.toAsciiLowercase (Str.trimEndMatches zone '.')) ".in-addr.arpa").map
    (Str.split · '.')

/-- The zone passes both checks, and these are the labels that were checked. -/
structure ReverseZone (zone : String) (labels : List String) : Prop where
  name_ok : validDnsName zone = true
  labels_eq : zoneLabels zone = some labels
  count : 1 ≤ labels.length ∧ labels.length ≤ 3
  numbers : ∀ label ∈ labels, (Str.parseU8 label).isSome = true

theorem labels_of_validReverseZone {zone : String} (h : validReverseZone zone = true) :
    ∃ labels, zoneLabels zone = some labels ∧ (1 ≤ labels.length ∧ labels.length ≤ 3) ∧
      ∀ label ∈ labels, (Str.parseU8 label).isSome = true := by
  dsimp only [validReverseZone] at h
  split at h
  · cases h
  · rename_i pfx hp
    obtain ⟨hcount, hnumbers⟩ := Bool.and_eq_true_iff.mp h
    refine ⟨Str.split pfx '.', ?_, of_decide_eq_true hcount, List.all_eq_true.mp hnumbers⟩
    rw [zoneLabels, hp]
    rfl

theorem reverseZone_of_valid {zone : String} {labels : List String}
    (hn : validDnsName zone = true) (hr : validReverseZone zone = true)
    (hl : zoneLabels zone = some labels) : ReverseZone zone labels := by
  obtain ⟨checked, hc, hcount, hnumbers⟩ := labels_of_validReverseZone hr
  obtain rfl : labels = checked := Option.some.inj (hl.symm.trans hc)
  exact ⟨hn, hl, hcount, hnumbers⟩

/-! ## The dot at the end -/

/-- A name that is not empty and whose labels are valid does not end in a dot. -/
theorem getLast_of_labels {l : List Char}
    (h : ∀ label ∈ Str.split (String.ofList l) '.', validDnsLabel label = true) :
    l.getLast? ≠ some '.' := by
  intro hlast
  obtain ⟨m, rfl⟩ := List.getLast?_eq_some_iff.mp hlast
  -- the piece after the last dot would be an empty label
  have hempty : "" ∈ Str.split (String.ofList (m ++ ['.'])) '.' := by
    rw [Str.split, String.toList_ofList, List.splitOn_append_cons_self, List.map_append]
    exact List.mem_append_right _ List.mem_cons_self
  exact absurd (h "" hempty) (by decide)

theorem rdropWhile_dots {l : List Char} (h : l.getLast? ≠ some '.') :
    l.rdropWhile (· == '.') = l ∧ (l ++ ['.']).rdropWhile (· == '.') = l := by
  have hself : l.rdropWhile (· == '.') = l := by
    rw [List.rdropWhile_eq_self_iff]
    intro hne hdot
    exact h (by rw [List.getLast?_eq_some_getLast hne, beq_iff_eq.mp hdot])
  exact ⟨hself, (List.rdropWhile_concat_pos _ _ _ rfl).trans hself⟩

/-- A name is what is left of it without dots at its end, and one dot where it
ends in a dot. -/
theorem toList_trimEnd {zone : String} (h : validDnsName zone = true) :
    zone.toList = (Str.trimEndMatches zone '.').toList ++
        (if Str.endsWithChar zone '.' then ['.'] else []) ∧
      (Str.trimEndMatches zone '.').toList.getLast? ≠ some '.' := by
  rw [Str.trimEndMatches, String.toList_ofList]
  simp only [validDnsName, Bool.and_eq_true, List.all_eq_true] at h
  cases hs : Str.stripSuffix zone "." with
  | some bare =>
      rw [hs] at h
      have hlist : zone.toList = bare.toList ++ ['.'] := Str.toList_of_stripSuffix hs
      have hlast : bare.toList.getLast? ≠ some '.' := getLast_of_labels (by
        rw [String.ofList_toList]
        exact h.2)
      rw [Str.endsWithChar, hlist, (rdropWhile_dots hlast).2]
      simpa using hlast
  | none =>
      rw [hs] at h
      have hlast : zone.toList.getLast? ≠ some '.' := getLast_of_labels (by
        rw [String.ofList_toList]
        exact h.2)
      rw [Str.endsWithChar, (rdropWhile_dots hlast).1]
      simpa using hlast

namespace ReverseZone

variable {zone name : String} {labels : List String}

/-- The case-folded zone: the labels, the suffix, and the dot where there is one. -/
theorem toList_lower (h : ReverseZone zone labels) :
    (Str.toAsciiLowercase (Str.trimEndMatches zone '.')).toList =
        (Str.join "." labels).toList ++ ".in-addr.arpa".toList ∧
      (Str.toAsciiLowercase zone).toList = (Str.join "." labels).toList ++ ".in-addr.arpa".toList ++
        (if Str.endsWithChar zone '.' then ['.'] else []) := by
  obtain ⟨pfx, hp, rfl⟩ := Option.map_eq_some_iff.mp h.labels_eq
  have htrim := Str.toList_of_stripSuffix hp
  have hpfx : Str.join "." (Str.split pfx '.') = pfx := Str.join_split pfx '.'
  rw [hpfx]
  refine ⟨htrim, ?_⟩
  have hend : (if Str.endsWithChar zone '.' then ['.'] else []).map Char.toLower =
      if Str.endsWithChar zone '.' then ['.'] else [] := by
    split
    · rfl
    · rfl
  rw [Str.toAsciiLowercase, String.toList_ofList] at htrim ⊢
  rw [(toList_trimEnd h.name_ok).1, List.map_append, htrim, hend]

theorem no_plus (h : ReverseZone zone labels) : ∀ label ∈ labels, '+' ∉ label.toList := by
  intro label hl hplus
  obtain ⟨pfx, hp, rfl⟩ := Option.map_eq_some_iff.mp h.labels_eq
  have hmem : '+' ∈ (Str.toAsciiLowercase zone).toList := by
    rw [h.toList_lower.2, Str.join_split pfx '.', List.append_assoc]
    exact List.mem_append_left _ (Str.mem_of_mem_split hl hplus)
  rw [Str.toAsciiLowercase, String.toList_ofList, List.mem_map] at hmem
  obtain ⟨c, hc, hlow⟩ := hmem
  obtain rfl : c = '+' := (Str.toLower_eq_iff (.inl (by decide))).mp hlow
  exact absurd ((CertSecureWriteHosts.fieldChar_of_validDnsName h.name_ok).2 _ hc) (by decide)

theorem numeral (h : ReverseZone zone labels) : ∀ label ∈ labels, Str.Numeral 0 255 label := by
  intro label hl
  obtain ⟨n, hn⟩ := Option.isSome_iff_exists.mp (h.numbers label hl)
  refine (Str.numeral_iff_of_parse hn (Nat.zero_le n) (Str.le_of_parseUnsigned hn)).mpr ?_
  rw [Str.startsWithChar, beq_eq_false_iff_ne]
  intro hhead
  exact h.no_plus label hl (List.mem_of_head? hhead)

theorem digits (h : ReverseZone zone labels) :
    ∀ label ∈ labels, ∀ c ∈ label.toList, c.isDigit = true := by
  intro label hl
  exact Str.all_iff.mp (h.numeral label hl).2.1

theorem join_labels (h : ReverseZone zone labels) :
    Str.split (Str.join "." labels) '.' = labels := by
  obtain ⟨pfx, -, rfl⟩ := Option.map_eq_some_iff.mp h.labels_eq
  exact congrArg (Str.split · '.') (Str.join_split pfx '.')

theorem replace_suffix (h : ReverseZone zone labels) :
    (DotNet.replace (Str.toAsciiLowercase zone) ".in-addr.arpa" "").toList =
      (Str.join "." labels).toList ++ (if Str.endsWithChar zone '.' then ['.'] else []) := by
  have hsuffix : ".in-addr.arpa".toList = '.' :: 'i' :: "n-addr.arpa".toList := by decide
  have hi : 'i' ∉ (Str.join "." labels).toList := by
    intro hc
    rw [Str.toList_join] at hc
    rcases Words.mem_intercalate hc with hc | ⟨l, hl, hc⟩
    · exact absurd hc (by decide)
    · obtain ⟨label, hlabel, rfl⟩ := List.mem_map.mp hl
      exact absurd (h.digits label hlabel 'i' hc) (by decide)
  -- one dot is too short to hold the suffix again
  have hend : ∀ dotted : Bool, DotNet.replaceFrom ('.' :: 'i' :: "n-addr.arpa".toList) [] 0
      (if dotted then ['.'] else []) = if dotted then ['.'] else [] := by decide
  rw [DotNet.replace, String.toList_ofList, h.toList_lower.2, hsuffix]
  refine (DotNet.replaceFrom_append (by decide) _ hi).trans ?_
  have hempty : "".toList = [] := rfl
  rw [hempty, hend, List.append_nil]

/-- The script finds the labels that were checked, and behind the dot of a zone
that ends in one an empty label. -/
theorem prefixLabels_eq (h : ReverseZone zone labels) :
    prefixLabels zone = labels ++ (if Str.endsWithChar zone '.' then [""] else []) := by
  have hjoin := h.join_labels
  rw [Str.split] at hjoin
  rw [prefixLabels, Str.split, h.replace_suffix]
  split
  · rw [List.splitOn_append_cons_self, List.map_append, hjoin]
    rfl
  · rw [List.append_nil, List.append_nil, hjoin]

end ReverseZone

/-! ## One reading -/

/-- The script reads the zone as the validator does: as many labels, the address
without its leading octets, reversed, and a network of four numeric octets. -/
structure SameReading (zone name : String) (labels : List String) : Prop where
  count : prefixCount zone = labels.length
  relative : relativeName zone name =
    Str.join "." ((Str.split name '.').drop labels.length).reverse
  network : ∃ octets : List String, octets.length = 4 ∧
    (∀ octet ∈ octets, Str.Numeral 0 255 octet) ∧
    networkId zone = Str.join "." octets ++ "/" ++ toString (8 * labels.length)

theorem ReverseZone.prefixCount_eq {zone : String} {labels : List String}
    (h : ReverseZone zone labels) :
    prefixCount zone = labels.length + (if Str.endsWithChar zone '.' then 1 else 0) := by
  rw [prefixCount, h.prefixLabels_eq, List.length_append]
  split
  · rfl
  · rfl

theorem ReverseZone.sameReading {zone name : String} {labels : List String}
    (h : ReverseZone zone labels) (hn : validIpv4Addr name = true)
    (hz : Str.endsWithChar zone '.' = false) : SameReading zone name labels := by
  have hcount : prefixCount zone = labels.length := by
    rw [h.prefixCount_eq, hz]
    rfl
  have hlabels : prefixLabels zone = labels := by
    rw [h.prefixLabels_eq, hz]
    exact List.append_nil labels
  obtain ⟨os, hos⟩ := Option.isSome_iff_exists.mp hn
  obtain ⟨hsplit, hfour, -⟩ := Str.split_of_parseIpv4 hos
  have hlength : (Str.split name '.').length = 4 := by rw [hsplit, List.length_map, hfour]
  obtain ⟨hpos, hle⟩ := h.count
  refine ⟨hcount, ?_, labels.reverse ++ List.replicate (4 - labels.length) "0", ?_, ?_, ?_⟩
  · rw [relativeName, hcount, DotNet.slice_eq_drop hle (by omega)]
  · rw [List.length_append, List.length_reverse, List.length_replicate]
    omega
  · intro octet ho
    rcases List.mem_append.mp ho with ho | ho
    · exact h.numeral octet (List.mem_reverse.mp ho)
    · obtain rfl := List.eq_of_mem_replicate ho
      decide
  · rw [networkId, hlabels, List.length_reverse, Nat.mul_comm 8]

/-- The script reads a zone that passes the checks as the validator does exactly
if the zone does not end in a dot. -/
theorem reverse_zone_read_iff (zone name : String) (hz : validDnsName zone = true)
    (hr : validReverseZone zone = true) (hn : validIpv4Addr name = true) (labels : List String)
    (hl : zoneLabels zone = some labels) :
    SameReading zone name labels ↔ Str.endsWithChar zone '.' = false := by
  have h := reverseZone_of_valid hz hr hl
  constructor
  · intro hs
    have hcount := h.prefixCount_eq.symm.trans hs.count
    rw [← Bool.not_eq_true]
    intro hdot
    rw [if_pos hdot] at hcount
    omega
  · exact h.sameReading hn

theorem reverse_zone_read_lab :
    SameReading "1.168.192.IN-ADDR.arpa" "192.168.1.92" ["1", "168", "192"] :=
  (reverse_zone_read_iff "1.168.192.IN-ADDR.arpa" "192.168.1.92" (by decide)
    (by decide) (by decide) ["1", "168", "192"] (by decide)).mpr
    (by decide)

/-- With the dot that both checks admit, the script finds a label more, and the
network it would create the zone for begins with an empty octet. -/
theorem dotted_zone_misread :
    ¬ ∀ zone name : String, validDnsName zone = true → validReverseZone zone = true →
      validIpv4Addr name = true → ∀ labels, zoneLabels zone = some labels →
        SameReading zone name labels := by
  intro hall
  have hread := hall "1.168.192.in-addr.arpa." "192.168.1.92" (by decide)
    (by decide) (by decide) ["1", "168", "192"] (by decide)
  exact absurd hread.count (by decide)

example : networkId "1.168.192.in-addr.arpa." = ".192.168.1/32" := by decide

/-! ## The name of an address -/

/-- Four octets. -/
def IsAddress (octets : List Nat) : Prop := octets.length = 4 ∧ ∀ octet ∈ octets, octet ≤ 255

/-- The name under which an address is looked up. -/
def reverseName (octets : List Nat) : String :=
  Str.join "." (octets.reverse.map toString) ++ ".in-addr.arpa"

/-- The full name of what is written under `$relativeName` in `$zone`. -/
def writtenName (zone name : String) : String := relativeName zone name ++ "." ++ zone

/-- Two spellings of one name: case and dots at the end do not count. -/
def sameName (a b : String) : Bool :=
  Str.eqIgnoreAsciiCase (Str.trimEndMatches a '.') (Str.trimEndMatches b '.')

/-- A text of digits and dots. -/
def Numeric (s : String) : Prop := ∀ c ∈ s.toList, c.isDigit = true ∨ c = '.'

theorem numeric_join {labels : List String} (h : ∀ l ∈ labels, ∀ c ∈ l.toList, c.isDigit = true) :
    Numeric (Str.join "." labels) := by
  intro c hc
  rw [Str.toList_join] at hc
  rcases Words.mem_intercalate hc with rfl | ⟨l, hl, hc⟩
  · exact .inr rfl
  · obtain ⟨label, hlabel, rfl⟩ := List.mem_map.mp hl
    exact .inl (h label hlabel c hc)

theorem Numeric.lower {s : String} (h : Numeric s) : s.toList.map Char.toLower = s.toList := by
  refine (List.map_congr_left fun c hc => ?_).trans (List.map_id _)
  refine (Str.toLower_eq_iff (.inl ?_)).mpr rfl
  rcases h c hc with hd | rfl
  · have hle : c.val ≤ 57 := of_decide_eq_true (Bool.and_eq_true_iff.mp hd).2
    exact UInt32.lt_of_le_of_lt hle (by decide)
  · decide

theorem lower_suffix : ".in-addr.arpa".toList.map Char.toLower = ".in-addr.arpa".toList := by
  decide

theorem numeric_texts (octets : List Nat) :
    ∀ l ∈ octets.map toString, ∀ c ∈ l.toList, c.isDigit = true := by
  intro l hl c hc
  obtain ⟨n, -, rfl⟩ := List.mem_map.mp hl
  exact Str.isDigit_of_mem_toString hc

theorem fold_reverseName (octets : List Nat) :
    (Str.trimEndMatches (reverseName octets) '.').toList.map Char.toLower =
      (Str.join "." (octets.reverse.map toString)).toList ++ ".in-addr.arpa".toList := by
  have hlast : (reverseName octets).toList.getLast? ≠ some '.' := by
    rw [reverseName, String.toList_append, List.getLast?_append_of_ne_nil _ (by decide)]
    decide
  rw [Str.trimEndMatches, (rdropWhile_dots hlast).1, String.toList_ofList, reverseName,
    String.toList_append, List.map_append, (numeric_join (numeric_texts _)).lower, lower_suffix]

theorem ReverseZone.fold_written {zone rel : String} {labels : List String}
    (h : ReverseZone zone labels) (hrel : Numeric rel) :
    (Str.trimEndMatches (rel ++ "." ++ zone) '.').toList.map Char.toLower =
      rel.toList ++ '.' :: (Str.join "." labels).toList ++ ".in-addr.arpa".toList := by
  obtain ⟨hzone, hlast⟩ := toList_trimEnd h.name_ok
  have hlower := h.toList_lower.1
  rw [Str.toAsciiLowercase, String.toList_ofList] at hlower
  generalize (Str.trimEndMatches zone '.').toList = bare at hzone hlast hlower
  have hne : bare ≠ [] := by
    rintro rfl
    exact absurd hlower.symm (List.append_ne_nil_of_right_ne_nil _ (by decide))
  have hwhole : (rel.toList ++ '.' :: bare).getLast? ≠ some '.' := by
    rw [List.getLast?_append_of_ne_nil _ (List.cons_ne_nil _ _), List.getLast?_cons_of_ne_nil hne]
    exact hlast
  have htrim : (Str.trimEndMatches (rel ++ "." ++ zone) '.').toList =
      rel.toList ++ '.' :: bare := by
    rw [Str.trimEndMatches, String.toList_ofList, String.toList_append, String.toList_append, hzone]
    obtain ⟨hself, hdot⟩ := rdropWhile_dots hwhole
    split
    · simpa using hdot
    · simpa using hself
  rw [htrim, List.map_append, List.map_cons, hrel.lower, hlower, List.append_assoc]
  rfl

/-- The name written is the reverse name of an address exactly if the labels are
the address's octets, the last first. -/
theorem ReverseZone.sameName_iff {zone : String} {labels rel : List String} {octets : List Nat}
    (h : ReverseZone zone labels) (hne : rel ≠ []) (ho : octets ≠ [])
    (hrel : ∀ l ∈ rel, ∀ c ∈ l.toList, c.isDigit = true) :
    sameName (Str.join "." rel ++ "." ++ zone) (reverseName octets) = true ↔
      rel ++ labels = octets.reverse.map toString := by
  have hlabels : labels ≠ [] := fun he => by simpa [he] using h.count.1
  have hdot : ∀ ls : List String, (∀ l ∈ ls, ∀ c ∈ l.toList, c.isDigit = true) →
      ∀ l ∈ ls, '.' ∉ l.toList := by
    intro ls hls l hl hmem
    exact absurd (hls l hl '.' hmem) (by decide)
  have hleft : ∀ l ∈ rel ++ labels, ∀ c ∈ l.toList, c.isDigit = true := by
    intro l hl
    rcases List.mem_append.mp hl with hl | hl
    · exact hrel l hl
    · exact h.digits l hl
  have hcut : Str.split (Str.join "." (rel ++ labels)) '.' = rel ++ labels :=
    Str.split_join (List.append_ne_nil_of_left_ne_nil hne labels) (hdot _ hleft)
  have hcut' : Str.split (Str.join "." (octets.reverse.map toString)) '.' =
      octets.reverse.map toString :=
    Str.split_join (by simpa using ho) (hdot _ (numeric_texts _))
  rw [sameName, Str.eqIgnoreAsciiCase, beq_iff_eq, h.fold_written (numeric_join hrel),
    fold_reverseName, List.append_left_inj]
  have hjoin : (Str.join "." rel).toList ++ '.' :: (Str.join "." labels).toList =
      (Str.join "." (rel ++ labels)).toList := by
    rw [Str.join_append hlabels hne]
    simp
  rw [hjoin, String.toList_inj]
  constructor
  · intro he
    exact hcut.symm.trans ((congrArg (Str.split · '.') he).trans hcut')
  · intro he
    rw [he]

/-! ## The record lies in its zone -/

/-- The labels, reversed, are the leading octets of the address, and what is
written is the reverse name of this address alone. -/
structure LiesInZone (zone name : String) (labels : List String) (octets : List Nat) : Prop where
  leading : labels.reverse.map Str.parseU8 = (octets.take labels.length).map some
  named : ∀ other, IsAddress other →
    (sameName (writtenName zone name) (reverseName other) = true ↔ other = octets)

/-- The address is one of the zone's network, the labels are plain decimal
numbers, and a dot at the end of the zone does not change what is written. -/
structure FitsZone (zone : String) (labels : List String) (octets : List Nat) : Prop where
  network : labels.reverse.map Str.parseU8 = (octets.take labels.length).map some
  plain : ∀ label ∈ labels, (Str.parseU8 label).map toString = some label
  ended : Str.endsWithChar zone '.' = false ∨ labels.length = 3

/-- The octets that the script takes from the address. -/
def remaining (zone : String) (octets : List Nat) : List Nat :=
  DotNet.slice octets (prefixCount zone) 3

theorem writtenName_eq {zone name : String} {octets : List Nat}
    (hn : Str.parseIpv4 name = some octets) :
    writtenName zone name =
      Str.join "." ((remaining zone octets).reverse.map toString) ++ "." ++ zone := by
  obtain ⟨hsplit, -, -⟩ := Str.split_of_parseIpv4 hn
  rw [writtenName, relativeName, hsplit, remaining, DotNet.slice_map, List.map_reverse]

/-- Three labels and a dot make a range that counts down, from past the end: the
last octet is taken all the same.  With fewer labels an octet is lost. -/
theorem remaining_eq {zone : String} {labels : List String} {octets : List Nat}
    (h : ReverseZone zone labels) (ho : octets.length = 4) :
    remaining zone octets =
      octets.drop (if Str.endsWithChar zone '.' = false ∨ labels.length = 3 then labels.length
        else labels.length + 1) := by
  obtain ⟨hpos, hle⟩ := h.count
  rw [remaining, h.prefixCount_eq]
  cases hdot : Str.endsWithChar zone '.' with
  | false =>
      rw [if_neg Bool.false_ne_true, if_pos (.inl rfl)]
      exact DotNet.slice_eq_drop hle (by omega)
  | true =>
      rw [if_pos rfl]
      by_cases hthree : labels.length = 3
      · rw [if_pos (.inr hthree), hthree]
        match octets, ho with
        | [a, b, c, d], _ => rfl
      · rw [if_neg (by simpa using hthree)]
        exact DotNet.slice_eq_drop (by omega) (by omega)

/-- Labels are the decimal texts of octets if they read as the octets and are
written plainly. -/
theorem texts_eq_iff {labels : List String} {octets : List Nat}
    (ho : ∀ octet ∈ octets, octet ≤ 255) :
    labels = octets.map toString ↔ labels.map Str.parseU8 = octets.map some ∧
      ∀ label ∈ labels, (Str.parseU8 label).map toString = some label := by
  constructor
  · rintro rfl
    constructor
    · rw [List.map_map]
      exact List.map_congr_left fun n hn => Str.parseUnsigned_toString (ho n hn)
    · intro label hl
      obtain ⟨n, hn, rfl⟩ := List.mem_map.mp hl
      have hparse : Str.parseU8 (toString n) = some n := Str.parseUnsigned_toString (ho n hn)
      rw [hparse]
      rfl
  · rintro ⟨hvalues, hplain⟩
    have htexts : labels.map some = (octets.map toString).map some := by
      calc labels.map some
          = labels.map fun label => (Str.parseU8 label).map toString :=
            List.map_congr_left fun label hl => (hplain label hl).symm
        _ = (labels.map Str.parseU8).map (Option.map toString) := by
            rw [List.map_map]
            rfl
        _ = (octets.map toString).map some := by
            rw [hvalues, List.map_map, List.map_map]
            rfl
    exact List.map_injective_iff.mpr (fun _ _ he => Option.some.inj he) htexts

theorem exists_remaining {zone : String} {labels : List String} {octets : List Nat}
    (h : ReverseZone zone labels) (ho : octets.length = 4) :
    ∃ n, n ≤ 3 ∧ remaining zone octets = octets.drop n ∧
      (n = labels.length ↔ Str.endsWithChar zone '.' = false ∨ labels.length = 3) := by
  obtain ⟨-, hle⟩ := h.count
  refine ⟨_, ?_, remaining_eq h ho, ?_⟩
  · split
    · exact hle
    · omega
  · split
    · rename_i hended
      exact iff_of_true rfl hended
    · rename_i hended
      exact iff_of_false (Nat.succ_ne_self _) hended

/-- The name written is the reverse name of the address itself exactly if the
labels are the leading octets that were left out, as texts. -/
theorem written_iff {zone name : String} {labels : List String} {octets : List Nat}
    (h : ReverseZone zone labels) (hn : Str.parseIpv4 name = some octets) {other : List Nat}
    (hother : IsAddress other) :
    sameName (writtenName zone name) (reverseName other) = true ↔
      (remaining zone octets).reverse.map toString ++ labels = other.reverse.map toString := by
  obtain ⟨-, hfour, -⟩ := Str.split_of_parseIpv4 hn
  obtain ⟨n, hle, hrem, -⟩ := exists_remaining h hfour
  have hne : (remaining zone octets).reverse.map toString ≠ [] := by
    rw [hrem]
    intro he
    have hlen := congrArg List.length he
    simp only [List.length_map, List.length_reverse, List.length_drop, List.length_nil] at hlen
    omega
  have hsome : other ≠ [] := fun he => by simp [he, IsAddress] at hother
  rw [writtenName_eq hn]
  exact h.sameName_iff hne hsome (numeric_texts _)

theorem named_iff {zone name : String} {labels : List String} {octets : List Nat}
    (h : ReverseZone zone labels) (hn : Str.parseIpv4 name = some octets) :
    (∀ other, IsAddress other →
      (sameName (writtenName zone name) (reverseName other) = true ↔ other = octets)) ↔
      (remaining zone octets).reverse.map toString ++ labels = octets.reverse.map toString := by
  obtain ⟨-, hfour, hbytes⟩ := Str.split_of_parseIpv4 hn
  constructor
  · intro hall
    exact (written_iff h hn ⟨hfour, hbytes⟩).mp ((hall octets ⟨hfour, hbytes⟩).mpr rfl)
  · intro htexts other hother
    rw [written_iff h hn hother, htexts]
    have hinj := (List.map_injective_iff.mpr Str.toString_injective).comp List.reverse_injective
    exact ⟨fun he => hinj he.symm, fun he => by rw [he]⟩

theorem liesInZone_iff {zone name : String} {labels : List String} {octets : List Nat}
    (h : ReverseZone zone labels) (hn : Str.parseIpv4 name = some octets) :
    LiesInZone zone name labels octets ↔ FitsZone zone labels octets := by
  obtain ⟨-, hfour, hbytes⟩ := Str.split_of_parseIpv4 hn
  obtain ⟨n, hle, hrem, hended⟩ := exists_remaining h hfour
  have htake : ∀ m, ∀ octet ∈ octets.take m, octet ≤ 255 := fun m octet ho =>
    hbytes octet (List.mem_of_mem_take ho)
  -- what the labels have to be for the name to come out right
  have hnamed : (∀ other, IsAddress other →
      (sameName (writtenName zone name) (reverseName other) = true ↔ other = octets)) ↔
      labels.reverse = (octets.take n).map toString := by
    rw [named_iff h hn, hrem]
    have hsplit : octets.reverse.map toString =
        (octets.drop n).reverse.map toString ++ (octets.take n).reverse.map toString := by
      rw [← List.map_append, ← List.reverse_append, List.take_append_drop]
    rw [hsplit, List.append_right_inj, List.map_reverse]
    exact ⟨fun he => by rw [he, List.reverse_reverse], fun he => by rw [← he, List.reverse_reverse]⟩
  constructor
  · rintro ⟨hleading, hall⟩
    have htexts := hnamed.mp hall
    have hlen : n = labels.length := by
      have hlen := congrArg List.length htexts
      rw [List.length_reverse, List.length_map, List.length_take] at hlen
      omega
    have hplain := ((texts_eq_iff (htake n)).mp htexts).2
    exact ⟨hleading, fun label hl => hplain label (List.mem_reverse.mpr hl), hended.mp hlen⟩
  · rintro ⟨hnetwork, hplain, hend⟩
    obtain rfl := hended.mpr hend
    refine ⟨hnetwork, hnamed.mpr ((texts_eq_iff (htake _)).mpr ⟨hnetwork, ?_⟩)⟩
    intro label hl
    exact hplain label (List.mem_reverse.mp hl)

/-- Of every PTR record of an accepted payload: its zone's labels are the leading
octets of its address and the name written is that address's reverse name exactly
if the record fits its zone. -/
theorem ptr_in_zone_iff (host : Host) (ctx : Params) (raw : String)
    (records : List PlannedDnsRecord) (h : parsePlannedRecords host ctx = .ok (raw, records))
    (record : PlannedDnsRecord) (hm : record ∈ records) (hk : record.kind = .ptr) :
    ∃ labels octets, zoneLabels record.zone = some labels ∧
      Str.parseIpv4 record.name = some octets ∧
      (LiesInZone record.zone record.name labels octets ↔
        FitsZone record.zone labels octets) := by
  have hvalid := (plannedRecords_of_parse h).valid record hm
  have hkind := hvalid.kind_ok
  simp only [PlannedDnsRecord.validKind, hk, Bool.and_eq_true] at hkind
  obtain ⟨⟨hzone, hname⟩, -⟩ := hkind
  obtain ⟨labels, hlabels, -⟩ := labels_of_validReverseZone hzone
  obtain ⟨octets, hoctets⟩ := Option.isSome_iff_exists.mp hname
  exact ⟨labels, octets, hlabels, hoctets,
    liesInZone_iff (reverseZone_of_valid hvalid.zone_ok hzone hlabels) hoctets⟩

/-- A payload of one PTR record in the zone of 192.168.1.0/24. -/
def labText (name : String) : String :=
  "[\x7b\"id\":\"dns:ptr:dc:web\",\"kind\":\"PTR\",\"zone\":\"1.168.192.in-addr.arpa\"," ++
  "\"name\":\"" ++ name ++ "\",\"value\":\"srv1.encon.pki.\"\x7d]"

def labRecord (name : String) : PlannedDnsRecord :=
  ⟨"dns:ptr:dc:web", .ptr, "1.168.192.in-addr.arpa", name, "srv1.encon.pki."⟩

def labPayload (name : String) : Json :=
  .arr [.obj [("id", .str "dns:ptr:dc:web"), ("kind", .str "PTR"),
    ("zone", .str "1.168.192.in-addr.arpa"), ("name", .str name),
    ("value", .str "srv1.encon.pki.")]]

def labHost (name : String) : Host :=
  { Host.idle with
    fromStr := fun text => if text = labText name then some (labPayload name) else none }

theorem labRecord_valid {name : String} (hn : validIpv4Addr name = true) :
    (labRecord name).Valid := by
  have hid : PlannedDnsRecord.validId "dns:ptr:dc:web" = true := by decide
  have hdns : validDnsName "1.168.192.in-addr.arpa" = true := by decide
  refine ⟨hid, hdns, ?_⟩
  have hzone : validReverseZone "1.168.192.in-addr.arpa" = true := by decide
  have hvalue : validDnsName "srv1.encon.pki." = true := by decide
  show (validReverseZone "1.168.192.in-addr.arpa" && validIpv4Addr name &&
    validDnsName "srv1.encon.pki.") = true
  rw [hzone, hn, hvalue]
  rfl

theorem labPayload_accepted {name : String} (hn : validIpv4Addr name = true)
    (hl : Str.len (labText name) ≤ 32 * 1024) :
    parsePlannedRecords (labHost name) [("records", labText name)] =
      .ok (labText name, [labRecord name]) := by
  have hdecoded : decodeRecords (labHost name) (labText name) = some [labRecord name] := by
    have hread : (labHost name).fromStr (labText name) = some (labPayload name) := if_pos rfl
    rw [decodeRecords, hread]
    rfl
  refine parsePlannedRecords_of ⟨rfl, hdecoded, rfl, ?_⟩ hl
  intro record hm
  obtain rfl := List.mem_singleton.mp hm
  exact labRecord_valid hn

theorem ptr_in_zone_lab :
    LiesInZone "1.168.192.in-addr.arpa" "192.168.1.92" ["1", "168", "192"] [192, 168, 1, 92] := by
  obtain ⟨labels, octets, hl, ho, hiff⟩ := ptr_in_zone_iff (labHost "192.168.1.92")
    [("records", labText "192.168.1.92")] _ _
    (labPayload_accepted (by decide) (by decide)) (labRecord "192.168.1.92")
    List.mem_cons_self rfl
  have hlabels : zoneLabels "1.168.192.in-addr.arpa" = some ["1", "168", "192"] := by decide
  have hoctets : Str.parseIpv4 "192.168.1.92" = some [192, 168, 1, 92] := by decide
  obtain rfl : _ = labels := Option.some.inj (hlabels.symm.trans hl)
  obtain rfl : _ = octets := Option.some.inj (hoctets.symm.trans ho)
  refine hiff.mpr ⟨by decide, ?_, .inl (by decide)⟩
  have hplain : ["1", "168", "192"].all
      (fun label => (Str.parseU8 label).map toString == some label) = true := by decide
  intro label hm
  exact beq_iff_eq.mp (List.all_eq_true.mp hplain label hm)

/-- Nothing relates the two: the payload is accepted with an address of another
network, and what is written is the name of 192.168.1.5. -/
theorem ptr_of_another_address :
    ¬ ∀ (host : Host) (ctx : Params) (raw : String) (records : List PlannedDnsRecord),
      parsePlannedRecords host ctx = .ok (raw, records) →
        ∀ record ∈ records, record.kind = .ptr → ∀ labels octets,
          zoneLabels record.zone = some labels → Str.parseIpv4 record.name = some octets →
            LiesInZone record.zone record.name labels octets := by
  intro hall
  have hlies := hall (labHost "10.0.0.5") [("records", labText "10.0.0.5")] _ _
    (labPayload_accepted (by decide) (by decide)) (labRecord "10.0.0.5")
    List.mem_cons_self rfl ["1", "168", "192"] [10, 0, 0, 5] (by decide) (by decide)
  have hwritten : sameName (writtenName "1.168.192.in-addr.arpa" "10.0.0.5")
      (reverseName [192, 168, 1, 5]) = true := by decide
  have haddress : IsAddress [192, 168, 1, 5] := by
    refine ⟨rfl, ?_⟩
    simp
  exact absurd ((hlies.named _ haddress).mp hwritten) (by decide)

end DnsApplyResources

end PkiExecutor
