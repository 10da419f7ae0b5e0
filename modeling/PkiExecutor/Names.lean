/-
# `PkiExecutor.Names` — what counts as a name and as an address

Two validators are looked at over all strings.  A DNS name is a text of the grammar
`IsName` with or without a dot behind it: `validDnsName_iff`.  A domain is to have a
dot in it, and the dot at the end counts: `dotted_iff`.  An address is read by hand
for hosts entries and certificates and by the standard library everywhere else, and
the two readings differ on leading zeros: `validIpv4_agrees_iff`.
-/
import PkiExecutor.Catalog

namespace PkiExecutor

/-! ## Labels -/

/-- 1 to 63 letters, digits and hyphens, no hyphen at either end. -/
structure IsLabel (label : String) : Prop where
  nonempty : label ≠ ""
  short : label.toList.length ≤ 63
  chars : ∀ c ∈ label.toList, c.isAlphanum = true ∨ c = '-'
  head : label.toList.head? ≠ some '-'
  last : label.toList.getLast? ≠ some '-'

theorem utf8Size_of_labelChar {c : Char} (h : c.isAlphanum = true ∨ c = '-') : c.utf8Size = 1 := by
  rcases h with ha | rfl
  · exact Str.utf8Size_of_isAlphanum ha
  · decide

theorem validDnsLabel_iff {label : String} : validDnsLabel label = true ↔ IsLabel label := by
  have hlen : (∀ c ∈ label.toList, c.isAlphanum = true ∨ c = '-') →
      Str.len label = label.toList.length := by
    intro hchars
    exact Str.len_of_ascii fun c hc => utf8Size_of_labelChar (hchars c hc)
  simp only [validDnsLabel, Bool.and_eq_true, Bool.not_eq_true', decide_eq_true_eq, Str.all_iff,
    Bool.or_eq_true, beq_iff_eq, Str.startsWithChar, Str.endsWithChar, beq_eq_false_iff_ne]
  constructor
  · rintro ⟨⟨⟨⟨hne, hshort⟩, hchars⟩, hhead⟩, hlast⟩
    refine ⟨?_, ?_, hchars, hhead, hlast⟩
    · rintro rfl
      exact absurd hne (by decide)
    · rwa [← hlen hchars]
  · intro h
    refine ⟨⟨⟨⟨?_, ?_⟩, h.chars⟩, h.head⟩, h.last⟩
    · rw [← Bool.not_eq_true, String.isEmpty_iff]
      exact h.nonempty
    · rw [hlen h.chars]
      exact h.short

/-- A name without one dot at its end. -/
def bareName (name : String) : String := (Str.stripSuffix name ".").getD name

/-- The labels of a name, without the root's. -/
def labels (name : String) : List String := Str.split (bareName name) '.'

theorem labels_of_validDnsName {name : String} (h : validDnsName name = true) :
    ∀ label ∈ labels name, IsLabel label := by
  simp only [validDnsName, Bool.and_eq_true, List.all_eq_true] at h
  intro label hl
  exact validDnsLabel_iff.mp (h.2 label hl)

/-! ## Names -/

/-- Labels with a dot between one and the next. -/
inductive IsName : String → Prop
  | label {label : String} : IsLabel label → IsName label
  | dot {label rest : String} : IsLabel label → IsName rest → IsName (label ++ "." ++ rest)

theorem IsLabel.no_dot {label : String} (h : IsLabel label) : '.' ∉ label.toList := by
  intro hm
  exact absurd (h.chars '.' hm) (by decide)

theorem isName_iff_join {name : String} :
    IsName name ↔ ∃ ls, ls ≠ [] ∧ (∀ label ∈ ls, IsLabel label) ∧ name = Str.join "." ls := by
  constructor
  · intro h
    induction h with
    | @label label hl =>
        refine ⟨[label], by simp, ?_, (Str.join_singleton "." label).symm⟩
        intro x hx
        rwa [List.mem_singleton.mp hx]
    | @dot label rest hl _ ih =>
        obtain ⟨ls, hne, hls, rfl⟩ := ih
        refine ⟨label :: ls, by simp, ?_, (Str.join_cons hne).symm⟩
        rw [List.forall_mem_cons]
        exact ⟨hl, hls⟩
  · rintro ⟨ls, hne, hls, rfl⟩
    induction ls with
    | nil => exact absurd rfl hne
    | cons label ls ih =>
        rw [List.forall_mem_cons] at hls
        cases ls with
        | nil =>
            rw [Str.join_singleton]
            exact .label hls.1
        | cons next ls =>
            rw [Str.join_cons_cons]
            exact .dot hls.1 (ih (by simp) hls.2)

theorem isName_iff_split {name : String} :
    IsName name ↔ ∀ label ∈ Str.split name '.', IsLabel label := by
  constructor
  · intro h
    obtain ⟨ls, hne, hls, rfl⟩ := isName_iff_join.mp h
    have hsplit : Str.split (Str.join "." ls) '.' = ls :=
      Str.split_join hne fun label hl => (hls label hl).no_dot
    rwa [hsplit]
  · intro h
    exact isName_iff_join.mpr ⟨_, Str.split_ne_nil name '.', h, (Str.join_split name '.').symm⟩

namespace IsName

variable {name : String}

theorem utf8Size_eq (h : IsName name) : ∀ c ∈ name.toList, c.utf8Size = 1 := by
  induction h with
  | label hl =>
      intro c hc
      exact utf8Size_of_labelChar (hl.chars c hc)
  | dot hl _ ih =>
      intro c hc
      simp only [String.toList_append, List.mem_append] at hc
      rcases hc with (hlabel | hdot) | hrest
      · exact utf8Size_of_labelChar (hl.chars c hlabel)
      · obtain rfl : c = '.' := List.mem_singleton.mp hdot
        decide
      · exact ih c hrest

theorem getLast_ne_dot (h : IsName name) : ∃ c, name.toList.getLast? = some c ∧ c ≠ '.' := by
  induction h with
  | @label label hl =>
      have hne : label.toList ≠ [] := fun he => hl.nonempty (String.toList_eq_nil_iff.mp he)
      refine ⟨_, List.getLast?_eq_some_getLast hne, ?_⟩
      intro he
      exact hl.no_dot (he ▸ List.getLast_mem hne)
  | dot hl _ ih =>
      obtain ⟨c, hc, hdot⟩ := ih
      refine ⟨c, ?_, hdot⟩
      rw [String.toList_append, List.getLast?_append, hc, Option.some_or]

theorem ne_empty (h : IsName name) : name ≠ "" := by
  rintro rfl
  obtain ⟨c, hc, -⟩ := h.getLast_ne_dot
  cases hc

theorem bareName_eq (h : IsName name) : bareName name = name := by
  rw [bareName]
  cases hs : Str.stripSuffix name "." with
  | none => rfl
  | some bare =>
      obtain ⟨c, hc, hdot⟩ := h.getLast_ne_dot
      have hlist : name.toList = bare.toList ++ ['.'] := Str.toList_of_stripSuffix hs
      rw [hlist, List.getLast?_concat] at hc
      exact absurd (Option.some.inj hc).symm hdot

end IsName

theorem bareName_dot (name : String) : bareName (name ++ ".") = name := by
  rw [bareName, Str.stripSuffix_append, Option.getD_some]

theorem eq_bareName (name : String) : name = bareName name ∨ name = bareName name ++ "." := by
  rw [bareName]
  cases hs : Str.stripSuffix name "." with
  | none => exact .inl rfl
  | some bare =>
      refine .inr (String.toList_inj.mp ?_)
      rw [Str.toList_of_stripSuffix hs, Option.getD_some, String.toList_append]

theorem bare_valid_iff {name : String} :
    (!name.isEmpty && decide (Str.len name ≤ 253) && (Str.split name '.').all validDnsLabel) =
      true ↔ IsName name ∧ name.toList.length ≤ 253 := by
  have hlabels : (Str.split name '.').all validDnsLabel = true ↔ IsName name := by
    rw [List.all_eq_true, isName_iff_split]
    exact forall₂_congr fun label _ => validDnsLabel_iff
  rw [Bool.and_eq_true, Bool.and_eq_true, decide_eq_true_eq, hlabels]
  constructor
  · rintro ⟨⟨-, hlen⟩, hname⟩
    rw [Str.len_of_ascii hname.utf8Size_eq] at hlen
    exact ⟨hname, hlen⟩
  · rintro ⟨hname, hlen⟩
    refine ⟨⟨?_, ?_⟩, hname⟩
    · rw [Bool.not_eq_true', ← Bool.not_eq_true, String.isEmpty_iff]
      exact hname.ne_empty
    · rwa [Str.len_of_ascii hname.utf8Size_eq]

/-- Accepted are the names of the grammar of at most 253 characters, and the same with
one dot behind them. -/
theorem validDnsName_iff (s : String) : validDnsName s = true ↔
    ∃ name, IsName name ∧ name.toList.length ≤ 253 ∧ (s = name ∨ s = name ++ ".") := by
  have hbare : validDnsName s = true ↔ IsName (bareName s) ∧ (bareName s).toList.length ≤ 253 :=
    bare_valid_iff
  rw [hbare]
  constructor
  · rintro ⟨hname, hlen⟩
    exact ⟨bareName s, hname, hlen, eq_bareName s⟩
  · rintro ⟨name, hname, hlen, rfl | rfl⟩
    · rw [hname.bareName_eq]
      exact ⟨hname, hlen⟩
    · rw [bareName_dot]
      exact ⟨hname, hlen⟩

/-- One dot is taken off the end, and no more. -/
example : validDnsName "pki.." = false := by decide

/-! ## Domains -/

/-- At least two labels. -/
def Dotted (domain : String) : Prop :=
  2 ≤ (labels domain).length ∧ ∀ label ∈ labels domain, IsLabel label

/-- A text falls into more than one piece exactly if the separator is in it. -/
theorem two_pieces_iff {s : String} {c : Char} :
    2 ≤ (Str.split s c).length ↔ Str.containsChar s c = true := by
  rw [Str.containsChar, List.contains_iff_mem]
  constructor
  · intro h
    by_contra hc
    rw [Str.split, List.splitOn_eq_singleton hc, List.length_map, List.length_singleton] at h
    exact absurd h (by decide)
  · intro hc
    cases hs : Str.split s c with
    | nil => exact absurd hs (Str.split_ne_nil s c)
    | cons piece rest =>
        cases rest with
        | cons _ _ => simp
        | nil =>
            -- one piece is the whole text, and no piece holds the separator
            have hwhole : piece = s := by
              have hjoin := Str.join_split s c
              rw [hs] at hjoin
              refine String.toList_inj.mp ?_
              rw [← hjoin, Str.toList_join]
              simp
            have hpiece : piece.toList ∈ s.toList.splitOn c := by
              have hlists := congrArg (List.map String.toList) hs
              rw [Str.split, Str.map_toList_ofList] at hlists
              rw [hlists]
              exact List.mem_singleton_self piece.toList
            subst hwhole
            exact absurd hc (Words.not_mem_of_mem_splitOn hpiece)

/-- The commands that create or join a domain. -/
def domainHandlers : List CommandHandler := [DcInstallForest.handler, DomainJoin.handler]

theorem domainHandlers_valid {h : CommandHandler} (hh : h ∈ domainHandlers) {ctx : Params}
    {domain : String} (ha : (h.execute ctx).failed = false)
    (hd : param ctx "domainName" = some domain) : validDnsName domain = true := by
  have hvalid : validDomainName domain = true := by
    simp only [domainHandlers, List.mem_cons, List.not_mem_nil, or_false] at hh
    rcases hh with rfl | rfl
    · obtain ⟨_, d, _, _, _, hd', _, _, hv, -⟩ := (DcInstallForest.staged ctx).of_accepted ha
      obtain rfl : d = domain := Option.some.inj (hd'.symm.trans hd)
      exact hv
    · obtain ⟨_, d, _, _, hd', _, _, hv, -⟩ := (DomainJoin.staged ctx).of_accepted ha
      obtain rfl : d = domain := Option.some.inj (hd'.symm.trans hd)
      exact hv
  exact (Bool.and_eq_true_iff.mp hvalid).1

/-- An accepted domain has two labels exactly if it has a dot that is not its last
character. -/
theorem dotted_iff (h : CommandHandler) (hh : h ∈ domainHandlers) (ctx : Params) (domain : String)
    (ha : (h.execute ctx).failed = false) (hd : param ctx "domainName" = some domain) :
    Dotted domain ↔ Str.containsChar (bareName domain) '.' = true := by
  have hlabels := labels_of_validDnsName (domainHandlers_valid hh ha hd)
  rw [Dotted, labels, two_pieces_iff]
  exact and_iff_left hlabels

def joinParams (domain : String) : Params :=
  [("domainName", domain), ("username", "CORP\\joiner"), ("password", "S3cret")]

theorem dotted_example : Dotted "corp.example.com." :=
  (dotted_iff DomainJoin.handler (by simp [domainHandlers]) (joinParams "corp.example.com.")
    "corp.example.com." (by decide) rfl).mpr (by decide)

/-- A single label with a dot behind it is accepted. -/
theorem undotted_domain_accepted :
    ¬ ∀ h ∈ domainHandlers, ∀ (ctx : Params) (domain : String),
      (h.execute ctx).failed = false → param ctx "domainName" = some domain → Dotted domain := by
  intro h
  have hdotted : Dotted "corp." :=
    h DomainJoin.handler (by simp [domainHandlers]) (joinParams "corp.") "corp." (by decide) rfl
  exact absurd hdotted.1 (by decide)

/-! ## Addresses -/

/-- One to three digits, with a value of at most 255. -/
def OctetGroup (ds : List Char) : Prop :=
  1 ≤ ds.length ∧ ds.length ≤ 3 ∧ (∀ c ∈ ds, c.isDigit = true) ∧ Str.digitsValue ds ≤ 255

/-- More than one digit, the first a zero. -/
def Padded (ds : List Char) : Prop := ds.head? = some '0' ∧ ds.length ≠ 1

/-- Four such groups with dots between them, one of them with a zero in front. -/
def PaddedQuad (s : String) : Prop :=
  let groups := s.toList.splitOn '.'
  groups.length = 4 ∧ (∀ ds ∈ groups, OctetGroup ds) ∧ ∃ ds ∈ groups, Padded ds

instance (ds : List Char) : Decidable (OctetGroup ds) := inferInstanceAs (Decidable (_ ∧ _))

instance (ds : List Char) : Decidable (Padded ds) := inferInstanceAs (Decidable (_ ∧ _))

instance (s : String) : Decidable (PaddedQuad s) := inferInstanceAs (Decidable (_ ∧ _))

theorem parseU16_octetGroup {ds : List Char} (h : OctetGroup ds) :
    Str.parseU16 (String.ofList ds) = some (Str.digitsValue ds) := by
  obtain ⟨hne, -, hdigits, hle⟩ := h
  have hfits : Str.digitsValue ds ≤ 65535 := by omega
  rw [Str.parseU16, Str.parseUnsigned_digits (List.length_pos_iff.mp hne) hdigits, if_pos hfits]

theorem validOctet_iff {ds : List Char} :
    CertSecure.validOctet (String.ofList ds) = true ↔ OctetGroup ds := by
  have hlen : (∀ c ∈ ds, c.isDigit = true) → Str.len (String.ofList ds) = ds.length := by
    intro hdigits
    rw [Str.len_of_ascii, String.toList_ofList]
    intro c hc
    rw [String.toList_ofList] at hc
    exact utf8Size_of_labelChar (.inl (by simp [Char.isAlphanum, hdigits c hc]))
  have hempty : (String.ofList ds).isEmpty = false ↔ ds ≠ [] := by
    rw [← Bool.not_eq_true, String.isEmpty_iff, String.ofList_eq_empty_iff]
  simp only [CertSecure.validOctet, Bool.and_eq_true, Bool.not_eq_true', hempty, decide_eq_true_eq,
    Str.all_iff, String.toList_ofList]
  constructor
  · rintro ⟨⟨⟨hne, hshort⟩, hdigits⟩, hvalue⟩
    rw [hlen hdigits] at hshort
    rw [Str.parseU16, Str.parseUnsigned_digits hne hdigits] at hvalue
    split at hvalue
    · rename_i n hn
      rw [Option.ite_none_right_eq_some, Option.some.injEq] at hn
      obtain ⟨-, rfl⟩ := hn
      exact ⟨List.length_pos_iff.mpr hne, hshort, hdigits, of_decide_eq_true hvalue⟩
    · cases hvalue
  · intro h
    rw [hlen h.2.2.1, parseU16_octetGroup h]
    exact ⟨⟨⟨List.length_pos_iff.mp h.1, h.2.1⟩, h.2.2.1⟩, decide_eq_true h.2.2.2⟩

theorem ipv4Octet_eq_some_iff {ds : List Char} {n : Nat} :
    Str.ipv4Octet ds = some n ↔ (OctetGroup ds ∧ ¬ Padded ds) ∧ Str.digitsValue ds = n := by
  rw [Str.ipv4Octet, Option.ite_none_right_eq_some, Option.some.injEq, List.all_eq_true]
  refine and_congr_left fun _ => ?_
  simp only [OctetGroup, Padded, not_and, not_not]
  tauto

theorem validIpv4_iff {s : String} : CertSecure.validIpv4 s = true ↔
    (s.toList.splitOn '.').length = 4 ∧ ∀ ds ∈ s.toList.splitOn '.', OctetGroup ds := by
  simp only [CertSecure.validIpv4, Bool.and_eq_true, decide_eq_true_eq, List.all_eq_true,
    Str.split, List.length_map, List.forall_mem_map, validOctet_iff]

theorem mapM_ipv4Octet_iff : ∀ {groups : List (List Char)} {os : List Nat},
    groups.mapM Str.ipv4Octet = some os ↔
      (∀ ds ∈ groups, OctetGroup ds ∧ ¬ Padded ds) ∧ groups.map Str.digitsValue = os
  | [], os => by simp [eq_comm]
  | ds :: groups, os => by
      rw [List.mapM_cons, List.forall_mem_cons, List.map_cons]
      constructor
      · intro h
        obtain ⟨n, hn, h⟩ := Option.bind_eq_some_iff.mp h
        obtain ⟨ns, hns, h⟩ := Option.bind_eq_some_iff.mp h
        obtain ⟨hgroup, rfl⟩ := ipv4Octet_eq_some_iff.mp hn
        obtain ⟨hgroups, rfl⟩ := mapM_ipv4Octet_iff.mp hns
        exact ⟨⟨hgroup, hgroups⟩, Option.some.inj h⟩
      · rintro ⟨⟨hgroup, hgroups⟩, rfl⟩
        refine Option.bind_eq_some_iff.mpr ⟨_, ipv4Octet_eq_some_iff.mpr ⟨hgroup, rfl⟩, ?_⟩
        exact Option.bind_eq_some_iff.mpr ⟨_, mapM_ipv4Octet_iff.mpr ⟨hgroups, rfl⟩, rfl⟩

/-- The groups as the hand-written check reads them. -/
def octetsRead (s : String) : List (Option Nat) := (Str.split s '.').map Str.parseU16

/-- The hand-written check and the standard library's agree, on whether a text is an
address and on which, exactly if no group of a quad has a zero in front. -/
theorem validIpv4_agrees_iff (s : String) :
    (CertSecure.validIpv4 s = true ↔
      ∃ os, Str.parseIpv4 s = some os ∧ octetsRead s = os.map some) ↔ ¬ PaddedQuad s := by
  have hread : (∀ ds ∈ s.toList.splitOn '.', OctetGroup ds) →
      octetsRead s = ((s.toList.splitOn '.').map Str.digitsValue).map some := by
    intro hgroups
    rw [octetsRead, Str.split, List.map_map, List.map_map]
    exact List.map_congr_left fun ds hds => parseU16_octetGroup (hgroups ds hds)
  have hparse : (∃ os, Str.parseIpv4 s = some os ∧ octetsRead s = os.map some) ↔
      (s.toList.splitOn '.').length = 4 ∧
        ∀ ds ∈ s.toList.splitOn '.', OctetGroup ds ∧ ¬ Padded ds := by
    simp only [Str.parseIpv4, Option.ite_none_right_eq_some, mapM_ipv4Octet_iff]
    constructor
    · rintro ⟨os, ⟨hlen, hgroups, -⟩, -⟩
      exact ⟨hlen, hgroups⟩
    · rintro ⟨hlen, hgroups⟩
      exact ⟨_, ⟨hlen, hgroups, rfl⟩, hread fun ds hds => (hgroups ds hds).1⟩
  rw [validIpv4_iff, hparse, PaddedQuad]
  constructor
  · rintro hsame ⟨hlen, hgroups, ds, hds, hpad⟩
    exact ((hsame.mp ⟨hlen, hgroups⟩).2 ds hds).2 hpad
  · intro hpad
    constructor
    · rintro ⟨hlen, hgroups⟩
      refine ⟨hlen, fun ds hds => ⟨hgroups ds hds, fun hp => ?_⟩⟩
      exact hpad ⟨hlen, hgroups, ds, hds, hp⟩
    · rintro ⟨hlen, hgroups⟩
      exact ⟨hlen, fun ds hds => (hgroups ds hds).1⟩

/-- An address with a zero in front of a group passes the one check only. -/
theorem padded_address_accepted :
    ¬ ∀ s : String, CertSecure.validIpv4 s = true ↔
      ∃ os, Str.parseIpv4 s = some os ∧ octetsRead s = os.map some := by
  intro h
  obtain ⟨os, hparse, -⟩ := (h "010.0.0.1").mp (by decide)
  have hnone : Str.parseIpv4 "010.0.0.1" = none := by decide
  rw [hnone] at hparse
  cases hparse

end PkiExecutor
