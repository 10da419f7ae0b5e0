/-
# `PkiExecutor.Lib.Str` — strings as a systems language's standard library has them

Operations on strings, each defined on the list of characters: lengths count
UTF-8 bytes, white space is Unicode's, the case-folding operations are the ASCII
ones, slices are taken at byte offsets and fail off a character boundary, and
numbers are read the way an unsigned `parse` reads them (an optional `+`, then
digits, no overflow).

The section on the first character says what decides how a string reads as a word
of a command line; the last two are about decimal numerals, among them the octets
of an address, and about joins that are cut again.
-/
import Mathlib.Data.List.DropRight
import Mathlib.Data.List.Infix
import Mathlib.Data.List.TakeDrop
import Mathlib.Data.List.TakeWhile
import Mathlib.Tactic.Common
import PkiExecutor.Lib.Words

namespace PkiExecutor.Str

/-- Length in UTF-8 bytes. -/
def len (s : String) : Nat := s.utf8ByteSize

/-- Every character satisfies `p`. -/
def all (s : String) (p : Char → Bool) : Bool := s.toList.all p

/-- Some character satisfies `p`. -/
def any (s : String) (p : Char → Bool) : Bool := s.toList.any p

/-- `c` is one of the characters of `s`. -/
def containsChar (s : String) (c : Char) : Bool := s.toList.contains c

/-- `t` occurs in `s`. -/
def containsStr (s t : String) : Bool := decide (t.toList <:+: s.toList)

theorem containsStr_ofList {cs ds : List Char} (n : Nat) (h : ds <+: cs.drop n) :
    containsStr (String.ofList cs) (String.ofList ds) = true := by
  rw [containsStr, String.toList_ofList, String.toList_ofList]
  exact decide_eq_true (h.isInfix.trans (List.drop_suffix n cs).isInfix)

def startsWith (s t : String) : Bool := t.toList.isPrefixOf s.toList

def startsWithChar (s : String) (c : Char) : Bool := s.toList.head? == some c

def endsWithChar (s : String) (c : Char) : Bool := s.toList.getLast? == some c

/-- `s` without the suffix `t`, where it has it. -/
def stripSuffix (s t : String) : Option String :=
  if t.toList.isSuffixOf s.toList then
    some (String.ofList (s.toList.take (s.toList.length - t.toList.length)))
  else none

/-- `s` without every trailing `c`. -/
def trimEndMatches (s : String) (c : Char) : String := String.ofList (s.toList.rdropWhile (· == c))

/-- Unicode `White_Space`. -/
def isWhitespace (c : Char) : Bool :=
  let n := c.toNat
  (9 ≤ n && n ≤ 13) || n == 0x20 || n == 0x85 || n == 0xA0 || n == 0x1680
    || (0x2000 ≤ n && n ≤ 0x200A) || n == 0x2028 || n == 0x2029 || n == 0x202F
    || n == 0x205F || n == 0x3000

/-- `str::trim` -/
def trim (s : String) : String :=
  String.ofList ((s.toList.dropWhile isWhitespace).rdropWhile isWhitespace)

/-- The pieces between the occurrences of `c`. -/
def split (s : String) (c : Char) : List String := (s.toList.splitOn c).map String.ofList

/-- The parts before and after the first `c`. -/
def splitOnce (s : String) (c : Char) : Option (String × String) :=
  match s.toList.span (· != c) with
  | (_, []) => none
  | (a, _ :: b) => some (String.ofList a, String.ofList b)

/-- `str::split_whitespace` -/
def splitWhitespace (s : String) : List String :=
  ((s.toList.splitOnP isWhitespace).filter (· ≠ [])).map String.ofList

/-- A line that was ended by a line feed loses a carriage return before it. -/
def stripCr (l : List Char) : List Char := if l.getLast? = some '\r' then l.dropLast else l

/-- The pieces between line feeds as lines: the last piece is one only where it
is not empty, and only the others were ended by a line feed. -/
def linesOf : List (List Char) → List (List Char)
  | [] => []
  | [l] => if l = [] then [] else [l]
  | l :: ls => stripCr l :: linesOf ls

/-- `str::lines` -/
def lines (s : String) : List String := (linesOf (s.toList.splitOn '\n')).map String.ofList

/-- `slice::join` -/
def join (sep : String) (xs : List String) : String :=
  String.ofList (sep.toList.intercalate (xs.map String.toList))

def toAsciiLowercase (s : String) : String := String.ofList (s.toList.map Char.toLower)

def eqIgnoreAsciiCase (s t : String) : Bool :=
  s.toList.map Char.toLower == t.toList.map Char.toLower

/-- The first `n` bytes; `none` past the end or inside a character. -/
def takeBytes : Nat → List Char → Option (List Char)
  | 0, _ => some []
  | _ + 1, [] => none
  | n + 1, c :: cs =>
      if c.utf8Size ≤ n + 1 then (takeBytes (n + 1 - c.utf8Size) cs).map (c :: ·) else none

/-- `s[..n]`; `none` is the panic. -/
def sliceTo (s : String) (n : Nat) : Option String := (takeBytes n s.toList).map String.ofList

/-- `s[n..]`; `none` is the panic. -/
def sliceFrom (s : String) (n : Nat) : Option String :=
  (takeBytes n s.toList).map fun l => String.ofList (s.toList.drop l.length)

/-- The byte at an offset; `none` is the panic. -/
def byteAt (s : String) (n : Nat) : Option UInt8 := (s.toList.flatMap String.utf8EncodeChar)[n]?

/-! ## Numbers -/

/-- The number that digits spell. -/
def digitsValue (ds : List Char) : Nat := ds.foldl (fun n c => 10 * n + (c.toNat - 48)) 0

/-- `parse` at an unsigned type whose largest value is `max`. -/
def parseUnsigned (max : Nat) (s : String) : Option Nat :=
  let digits :=
    match s.toList with
    | '+' :: ds => ds
    | ds => ds
  if digits ≠ [] ∧ digits.all Char.isDigit ∧ digitsValue digits ≤ max then
    some (digitsValue digits)
  else none

def parseU8 : String → Option Nat := parseUnsigned 255

def parseU16 : String → Option Nat := parseUnsigned 65535

def parseU32 : String → Option Nat := parseUnsigned 4294967295

/-- One or more digits and nothing else, with a value from `lo` to `hi`. -/
def Numeral (lo hi : Nat) (s : String) : Prop :=
  s ≠ "" ∧ all s Char.isDigit = true ∧ lo ≤ digitsValue s.toList ∧ digitsValue s.toList ≤ hi

instance (lo hi : Nat) (s : String) : Decidable (Numeral lo hi s) :=
  inferInstanceAs (Decidable (_ ∧ _))

/-- One to three digits, at most 255, no leading zero unless it is the whole. -/
def ipv4Octet (ds : List Char) : Option Nat :=
  if 1 ≤ ds.length ∧ ds.length ≤ 3 ∧ ds.all Char.isDigit ∧ digitsValue ds ≤ 255
      ∧ (ds.head? = some '0' → ds.length = 1) then
    some (digitsValue ds)
  else none

/-- A dotted-quad IPv4 address, as its octets. -/
def parseIpv4 (s : String) : Option (List Nat) :=
  let octets := s.toList.splitOn '.'
  if octets.length = 4 then octets.mapM ipv4Octet else none

/-! ## Prefixes, infixes, joins -/

theorem startsWith_iff {s t : String} :
    startsWith s t = true ↔ t.toList <+: s.toList := by
  simp [startsWith]

theorem containsStr_false {s t : String} :
    containsStr s t = false ↔ ¬ t.toList <:+: s.toList := by
  simp [containsStr]

theorem all_iff {s : String} {p : Char → Bool} :
    all s p = true ↔ ∀ c ∈ s.toList, p c = true := by
  simp [all]

theorem all_of_containsChar {s : String} {p : Char → Bool} {c : Char} (hall : all s p = true)
    (h : containsChar s c = true) : p c = true :=
  all_iff.mp hall c (List.contains_iff_mem.mp h)

@[simp] theorem toList_join (sep : String) (xs : List String) :
    (join sep xs).toList = sep.toList.intercalate (xs.map String.toList) := by
  simp [join]

theorem join_singleton (sep x : String) : join sep [x] = x := by
  simp [join]

theorem join_cons_cons (sep x y : String) (ys : List String) :
    join sep (x :: y :: ys) = x ++ sep ++ join sep (y :: ys) := by
  refine String.toList_inj.mp ?_
  simp [List.intercalate]

theorem map_ofList_toList (xs : List String) : (xs.map String.toList).map String.ofList = xs := by
  rw [List.map_map]
  exact List.map_id'' (fun _ => String.ofList_toList) xs

theorem map_toList_ofList (ls : List (List Char)) :
    (ls.map String.ofList).map String.toList = ls := by
  rw [List.map_map]
  exact List.map_id'' (fun _ => String.toList_ofList) ls

/-! ## Lengths and slices -/

theorem len_append (s t : String) : len (s ++ t) = len s + len t := String.utf8ByteSize_append

/-- The widths of the characters, added up. -/
def widths : List Char → Nat
  | [] => 0
  | c :: cs => c.utf8Size + widths cs

theorem len_eq_widths (s : String) : len s = widths s.toList := by
  have h : ∀ cs : List Char, len (String.ofList cs) = widths cs := by
    intro cs
    induction cs with
    | nil => rfl
    | cons c cs ih =>
        rw [String.ofList_cons, len_append, ih, widths]
        exact congrArg (· + _) String.utf8ByteSize_singleton
  rw [← h, String.ofList_toList]

theorem isAlphanum_range {c : Char} (h : c.isAlphanum = true) : 48 ≤ c.toNat ∧ c.toNat ≤ 122 := by
  have hkinds : (c.isUpper || c.isLower || c.isDigit) = true := h
  simp only [Bool.or_eq_true] at hkinds
  rcases hkinds with (hupper | hlower) | hdigit
  · have hrange : 'A'.val ≤ c.val ∧ c.val ≤ 'Z'.val := of_decide_eq_true hupper
    have hlo : 65 ≤ c.toNat := hrange.1
    have hhi : c.toNat ≤ 90 := hrange.2
    omega
  · obtain ⟨hge, hle⟩ := Bool.and_eq_true_iff.mp hlower
    have hlo : 97 ≤ c.toNat := of_decide_eq_true hge
    have hhi : c.toNat ≤ 122 := of_decide_eq_true hle
    omega
  · obtain ⟨hge, hle⟩ := Bool.and_eq_true_iff.mp hdigit
    have hlo : 48 ≤ c.toNat := of_decide_eq_true hge
    have hhi : c.toNat ≤ 57 := of_decide_eq_true hle
    omega

theorem utf8Size_of_isAlphanum {c : Char} (h : c.isAlphanum = true) : c.utf8Size = 1 := by
  have hrange := isAlphanum_range h
  have hle : c.toNat ≤ 127 := by omega
  exact Char.utf8Size_eq_one_iff.mpr hle

theorem len_of_ascii {s : String} (h : ∀ c ∈ s.toList, c.utf8Size = 1) :
    len s = s.toList.length := by
  rw [len_eq_widths]
  generalize s.toList = cs at h ⊢
  induction cs with
  | nil => rfl
  | cons c cs ih =>
      rw [List.forall_mem_cons] at h
      rw [widths, ih h.2, h.1, List.length_cons, Nat.add_comm]

theorem takeBytes_of_ascii : ∀ (n : Nat) (cs : List Char), (∀ c ∈ cs, c.utf8Size = 1) →
    n ≤ cs.length → takeBytes n cs = some (cs.take n)
  | 0, cs, _, _ => by simp [takeBytes]
  | _ + 1, [], _, h => absurd h (Nat.not_succ_le_zero _)
  | n + 1, c :: cs, hc, h => by
      have h1 : c.utf8Size = 1 := hc c List.mem_cons_self
      have ih := takeBytes_of_ascii n cs (fun d hd => hc d (List.mem_cons_of_mem _ hd))
        (Nat.le_of_succ_le_succ h)
      simp [takeBytes, h1, ih]

theorem takeBytes_append (ds : List Char) : ∀ cs : List Char,
    takeBytes (widths cs) (cs ++ ds) = some cs
  | [] => by simp [takeBytes, widths]
  | c :: cs => by
      have hpos : 0 < c.utf8Size := Char.utf8Size_pos c
      obtain ⟨n, hn⟩ : ∃ n, c.utf8Size + widths cs = n + 1 :=
        ⟨_, (Nat.succ_pred_eq_of_pos (by omega)).symm⟩
      have hle : c.utf8Size ≤ n + 1 := by omega
      have hrest : n + 1 - c.utf8Size = widths cs := by omega
      rw [widths, hn, List.cons_append, takeBytes, if_pos hle, hrest, takeBytes_append ds cs]
      rfl

theorem sliceTo_append (s t : String) : sliceTo (s ++ t) (len s) = some s := by
  rw [sliceTo, len_eq_widths, String.toList_append, takeBytes_append, Option.map_some,
    String.ofList_toList]

theorem takeBytes_prefix : ∀ (n : Nat) (cs : List Char) {l : List Char},
    takeBytes n cs = some l → l <+: cs
  | 0, cs, _, h => by
      rw [takeBytes] at h
      cases h
      exact List.nil_prefix
  | n + 1, c :: cs, l, h => by
      unfold takeBytes at h
      split at h
      · obtain ⟨l', hl, rfl⟩ := Option.map_eq_some_iff.mp h
        exact List.cons_prefix_cons.mpr ⟨rfl, takeBytes_prefix _ cs hl⟩
      · cases h

theorem sliceTo_prefix {s t : String} {n : Nat} (h : sliceTo s n = some t) :
    t.toList <+: s.toList := by
  obtain ⟨l, hl, rfl⟩ := Option.map_eq_some_iff.mp h
  rw [String.toList_ofList]
  exact takeBytes_prefix n _ hl

/-! ## Letters, and the first of a character -/

theorem toLower_eq_iff {c d : Char} (hd : d.val < 65 ∨ 90 < d.val ∧ d.val < 97) :
    c.toLower = d ↔ c = d := by
  by_cases h : 'A'.val ≤ c.val ∧ c.val ≤ 'Z'.val
  · have h1 : 65 ≤ c.val.toNat := h.1
    have h2 : c.val.toNat ≤ 90 := h.2
    have hl : c.toLower.val.toNat = c.val.toNat + 32 := by
      have hmoved : c.toLower.val = c.val + ('a'.val - 'A'.val) := by
        show Char.val (if _ : c.val ≥ 'A'.val ∧ c.val ≤ 'Z'.val then _ else c) = _
        rw [dif_pos ⟨h.1, h.2⟩]
      rw [hmoved, UInt32.toNat_add]
      show (c.val.toNat + 32) % 2 ^ 32 = _
      omega
    have hd' : d.val.toNat < 65 ∨ 90 < d.val.toNat ∧ d.val.toNat < 97 := hd
    constructor
    · rintro rfl; omega
    · rintro rfl; omega
  · have hl : c.toLower = c := by
      show (if _ : c.val ≥ 'A'.val ∧ c.val ≤ 'Z'.val then _ else c) = c
      rw [dif_neg fun h' => h ⟨h'.1, h'.2⟩]
    rw [hl]

theorem toList_of_splitOnce {s a b : String} {c : Char} (h : splitOnce s c = some (a, b)) :
    s.toList = a.toList ++ c :: b.toList ∧ c ∉ a.toList := by
  unfold splitOnce at h
  rw [List.span_eq_takeWhile_dropWhile] at h
  split at h
  · cases h
  · rename_i l d r hd
    cases h
    obtain ⟨rfl, hdrop⟩ := Prod.mk.inj hd
    have hc : d = c := by
      have hhead := List.head_dropWhile_not (· != c) (l := s.toList) (by simp [hdrop])
      simpa [hdrop] using hhead
    refine ⟨?_, fun hm => ?_⟩
    · subst hc
      rw [String.toList_ofList, String.toList_ofList, ← hdrop, List.takeWhile_append_dropWhile]
    · rw [String.toList_ofList] at hm
      simpa using List.mem_takeWhile_imp hm

theorem splitOnce_eq {s a b : String} {c : Char} (hs : s.toList = a.toList ++ c :: b.toList)
    (hc : c ∉ a.toList) : splitOnce s c = some (a, b) := by
  have hfront : ∀ d ∈ a.toList, (d != c) = true := fun d hd => by
    rw [bne_iff_ne]
    rintro rfl
    exact hc hd
  have hcut : s.toList.span (· != c) = (a.toList, c :: b.toList) := by
    rw [List.span_eq_takeWhile_dropWhile, hs, List.takeWhile_append_of_pos hfront,
      List.dropWhile_append_of_pos hfront, List.takeWhile_cons_of_neg (by simp),
      List.dropWhile_cons_of_neg (by simp), List.append_nil]
  rw [splitOnce, hcut]
  simp only [String.ofList_toList]

/-! ## The first character -/

/-- The string begins with a dash. -/
def dashed (s : String) : Bool := startsWithChar s '-'

theorem dashed_iff {s : String} : dashed s = true ↔ s.toList.head? = some '-' := by
  simp [dashed, startsWithChar]

theorem not_dashed_of_head {s : String} {c : Char} (h : s.toList.head? = some c) (hc : c ≠ '-') :
    dashed s = false := by
  simp [dashed, startsWithChar, h, hc]

theorem not_dashed_of_isEmpty {s : String} (h : s.isEmpty = true) : dashed s = false := by
  rw [String.isEmpty_iff] at h
  subst h
  rfl

/-- A string of characters among which there is no dash does not begin with one. -/
theorem not_dashed_of_all {s : String} {p : Char → Bool} (h : all s p = true)
    (hp : p '-' = false) : dashed s = false := by
  cases hs : s.toList with
  | nil => simp [dashed, startsWithChar, hs]
  | cons c cs =>
      have hc : p c = true := all_iff.mp h c (by simp [hs])
      refine not_dashed_of_head (c := c) (by simp [hs]) ?_
      rintro rfl
      simp [hp] at hc

theorem not_dashed_of_startsWith {s t : String} (h : startsWith s t = true) (ht : t ≠ "")
    (hd : dashed t = false) : dashed s = false := by
  obtain ⟨r, hr⟩ := startsWith_iff.mp h
  cases hl : t.toList with
  | nil => exact absurd (String.toList_inj.mp (by simpa using hl)) ht
  | cons c cs =>
      have hc : c ≠ '-' := by simpa [dashed, startsWithChar, hl] using hd
      refine not_dashed_of_head (c := c) ?_ hc
      rw [← hr, hl]
      rfl

theorem not_dashed_of_parseUnsigned {max n : Nat} {s : String}
    (h : parseUnsigned max s = some n) : dashed s = false := by
  cases hs : s.toList with
  | nil => simp [dashed, startsWithChar, hs]
  | cons c cs =>
      refine not_dashed_of_head (c := c) (by simp [hs]) ?_
      rintro rfl
      simp [parseUnsigned, hs] at h

theorem chars_of_parseUnsigned {max n : Nat} {s : String} (h : parseUnsigned max s = some n) :
    ∀ c ∈ s.toList, c.isDigit = true ∨ c = '+' := by
  unfold parseUnsigned at h
  simp only [Option.ite_none_right_eq_some] at h
  obtain ⟨⟨-, hd, -⟩, -⟩ := h
  intro c hc
  split at hd
  · rename_i ds hs
    rw [hs] at hc
    rcases List.mem_cons.mp hc with rfl | hc
    · exact .inr rfl
    · exact .inl (List.all_eq_true.mp hd c hc)
  · exact .inl (List.all_eq_true.mp hd c hc)

theorem le_of_parseUnsigned {max n : Nat} {s : String} (h : parseUnsigned max s = some n) :
    n ≤ max := by
  unfold parseUnsigned at h
  simp only [Option.ite_none_right_eq_some, Option.some.injEq] at h
  obtain ⟨⟨-, -, hle⟩, rfl⟩ := h
  exact hle

/-- What an unsigned `parse` admits is a numeral, but for a leading plus sign. -/
theorem numeral_iff_of_parse {max lo hi n : Nat} {s : String} (h : parseUnsigned max s = some n)
    (hlo : lo ≤ n) (hhi : n ≤ hi) : Numeral lo hi s ↔ startsWithChar s '+' = false := by
  cases hs : s.toList with
  | nil => simp [parseUnsigned, hs] at h
  | cons c cs =>
      by_cases hc : c = '+'
      · subst hc
        have hnot : all s Char.isDigit ≠ true := fun ha =>
          absurd (all_iff.mp ha '+' (by simp [hs])) (by decide)
        exact iff_of_false (fun hn => hnot hn.2.1) (by simp [startsWithChar, hs])
      · have hparse : parseUnsigned max s =
            if c :: cs ≠ [] ∧ (c :: cs).all Char.isDigit = true ∧ digitsValue (c :: cs) ≤ max then
              some (digitsValue (c :: cs))
            else none := by
          simp only [parseUnsigned, hs]
          split
          · rename_i ds he
            exact absurd (List.cons.inj he).1 hc
          · rfl
        rw [hparse] at h
        split at h
        · rename_i hd
          obtain rfl : digitsValue (c :: cs) = n := Option.some.inj h
          have hne : s ≠ "" := fun he => by simp [he] at hs
          refine iff_of_true ⟨hne, ?_, ?_, ?_⟩ (by simp [startsWithChar, hs, hc])
          · rw [all, hs]
            exact hd.2.1
          · rwa [hs]
          · rwa [hs]
        · cases h

theorem not_dashed_of_parseIpv4 {s : String} {os : List Nat} (h : parseIpv4 s = some os) :
    dashed s = false := by
  cases hs : s.toList with
  | nil => simp [dashed, startsWithChar, hs]
  | cons c cs =>
      refine not_dashed_of_head (c := c) (by simp [hs]) ?_
      rintro rfl
      rw [parseIpv4, hs, List.splitOn_cons_eq_if_modifyHead] at h
      -- the first piece begins with the dash, so it is no octet
      cases hp : cs.splitOn '.' with
      | nil => exact List.splitOn_ne_nil _ _ hp
      | cons w ws =>
          simp [hp, ipv4Octet] at h

/-- A join begins with a dash exactly if its first entry does, entries being
non-empty. -/
theorem dashed_join {sep x : String} {xs : List String} (hx : x ≠ "") :
    dashed (join sep (x :: xs)) = dashed x := by
  cases hl : x.toList with
  | nil => exact absurd (String.toList_inj.mp (by simpa using hl)) hx
  | cons c cs =>
      have hj : (join sep (x :: xs)).toList.head? = some c := by
        cases xs <;> simp [List.intercalate, hl]
      simp only [dashed, startsWithChar, hj, hl, List.head?_cons]

theorem dashed_of_prefix {s t : String} (h : t.toList <+: s.toList) (ht : t ≠ "") :
    dashed s = dashed t := by
  obtain ⟨r, hr⟩ := h
  cases hl : t.toList with
  | nil => exact absurd (String.toList_inj.mp (by simpa using hl)) ht
  | cons c cs => simp [dashed, startsWithChar, ← hr, hl]

theorem join_split (s : String) (c : Char) : join (String.ofList [c]) (split s c) = s := by
  refine String.toList_inj.mp ?_
  rw [toList_join, split, map_toList_ofList, String.toList_ofList, List.intercalate_splitOn]

theorem join_ne_empty {sep x : String} {xs : List String} (hx : x ≠ "") :
    join sep (x :: xs) ≠ "" := by
  intro he
  cases hl : x.toList with
  | nil => exact hx (String.toList_inj.mp hl)
  | cons c cs =>
      have hlist := congrArg String.toList he
      rw [toList_join, List.map_cons, hl] at hlist
      cases xs <;> simp at hlist

theorem split_ne_nil (s : String) (c : Char) : split s c ≠ [] := by
  simp [split, List.splitOn_ne_nil]

/-- A string begins like the first piece of a split, where that is not empty. -/
theorem dashed_of_split {s x : String} {c : Char} {xs : List String} (h : split s c = x :: xs)
    (hx : x ≠ "") : dashed s = dashed x := by
  rw [← join_split s c, h]
  exact dashed_join hx

theorem dashed_trim {s : String} (h : dashed s = true) : dashed (trim s) = true := by
  rw [dashed_iff] at h
  cases hs : s.toList with
  | nil => simp [hs] at h
  | cons c cs =>
      obtain rfl : c = '-' := by simpa [hs] using h
      have hdrop : ('-' :: cs).dropWhile isWhitespace = '-' :: cs :=
        List.dropWhile_cons_of_neg (by decide)
      have hne : ('-' :: cs).rdropWhile isWhitespace ≠ [] := fun he =>
        absurd (List.rdropWhile_eq_nil_iff.mp he '-' List.mem_cons_self) (by decide)
      obtain ⟨d, ds, hd⟩ := List.exists_cons_of_ne_nil hne
      have hpre : d :: ds <+: '-' :: cs := hd ▸ List.rdropWhile_prefix _ _
      obtain ⟨rfl, -⟩ := List.cons_prefix_cons.mp hpre
      simp [dashed, startsWithChar, trim, hs, hdrop, hd]

/-! ## Decimal numerals -/

theorem digitChar_of_isDigit {d : Char} (h : d.isDigit = true) :
    d.toNat - 48 < 10 ∧ Nat.digitChar (d.toNat - 48) = d := by
  have hrange := Bool.and_eq_true_iff.mp h
  have hlo : 48 ≤ d.toNat := of_decide_eq_true hrange.1
  have hhi : d.toNat ≤ 57 := of_decide_eq_true hrange.2
  have hchars : ∀ n < 10, Nat.digitChar n = Char.ofNat (48 + n) := by decide
  refine ⟨by omega, ?_⟩
  rw [hchars _ (by omega), Nat.add_sub_cancel' hlo, Char.ofNat_toNat]

theorem digitsValue_concat (ds : List Char) (d : Char) :
    digitsValue (ds ++ [d]) = 10 * digitsValue ds + (d.toNat - 48) := by
  simp [digitsValue]

theorem digitsValue_pos {ds : List Char} (hne : ds ≠ []) (hd : ∀ d ∈ ds, d.isDigit = true)
    (hz : ds.head? ≠ some '0') : 0 < digitsValue ds := by
  induction ds using List.reverseRecOn with
  | nil => exact absurd rfl hne
  | append_singleton ds d ih =>
      rw [digitsValue_concat]
      cases ds with
      | nil =>
          obtain ⟨-, hchar⟩ := digitChar_of_isDigit (hd d (by simp))
          have hpos : d.toNat - 48 ≠ 0 := by
            intro h0
            rw [h0] at hchar
            exact hz (congrArg some hchar.symm)
          omega
      | cons c cs =>
          have hpos := ih (List.cons_ne_nil c cs) (fun x hx => hd x (List.mem_append_left _ hx)) hz
          omega

theorem toDigits_digitsValue {ds : List Char} (hne : ds ≠ []) (hd : ∀ d ∈ ds, d.isDigit = true)
    (hz : ds.head? = some '0' → ds.length = 1) : Nat.toDigits 10 (digitsValue ds) = ds := by
  induction ds using List.reverseRecOn with
  | nil => exact absurd rfl hne
  | append_singleton ds d ih =>
      obtain ⟨hlt, hchar⟩ := digitChar_of_isDigit (hd d (by simp))
      have hlast : Nat.toDigits 10 (d.toNat - 48) = [d] := by
        rw [Nat.toDigits_of_lt_base hlt, hchar]
      rw [digitsValue_concat]
      cases ds with
      | nil => exact (congrArg (Nat.toDigits 10) (Nat.zero_add _)).trans hlast
      | cons c cs =>
          have hds : ∀ x ∈ c :: cs, x.isDigit = true := fun x hx => hd x (List.mem_append_left _ hx)
          have hc : (c :: cs).head? ≠ some '0' := fun h0 => by simpa using hz h0
          have hpos := digitsValue_pos (List.cons_ne_nil c cs) hds hc
          have hfront := ih (List.cons_ne_nil c cs) hds fun h0 => absurd h0 hc
          rw [← Nat.toDigits_append_toDigits (by decide) hpos hlt, hfront, hlast]

theorem isDigit_of_mem_toString {n : Nat} {c : Char} (h : c ∈ (toString n).toList) :
    c.isDigit = true := by
  rw [Nat.toString_eq_ofList_toDigits, String.toList_ofList] at h
  exact Nat.isDigit_of_mem_toDigits (by decide) (by decide) h

theorem parseUnsigned_digits {max : Nat} {ds : List Char} (hne : ds ≠ [])
    (hd : ∀ c ∈ ds, c.isDigit = true) : parseUnsigned max (String.ofList ds) =
      if digitsValue ds ≤ max then some (digitsValue ds) else none := by
  have hstrip : ∀ cs : List Char, '+' ∉ cs → (match cs with | '+' :: ds => ds | ds => ds) = cs := by
    intro cs hcs
    split
    · exact absurd List.mem_cons_self hcs
    · rfl
  have hplus : '+' ∉ ds := fun hp => absurd (hd '+' hp) (by decide)
  have hdigits : ds.all Char.isDigit = true := List.all_eq_true.mpr hd
  simp only [parseUnsigned, String.toList_ofList, hstrip ds hplus]
  exact if_congr (by simp [hne, hdigits]) rfl rfl

theorem parseUnsigned_toString {max n : Nat} (h : n ≤ max) :
    parseUnsigned max (toString n) = some n := by
  have hvalue : digitsValue (Nat.toDigits 10 n) = n :=
    Nat.ofDigitChars_eq_foldl.symm.trans Nat.ofDigitChars_ten_toDigits
  have hdigits : ∀ c ∈ Nat.toDigits 10 n, c.isDigit = true := fun c hc =>
    Nat.isDigit_of_mem_toDigits (by decide) (by decide) hc
  rw [Nat.toString_eq_ofList_toDigits, parseUnsigned_digits Nat.toDigits_ne_nil hdigits, hvalue,
    if_pos h]

theorem toString_injective : Function.Injective (toString : Nat → String) := by
  intro m n h
  have hm := parseUnsigned_toString (Nat.le_max_left m n)
  have hn := parseUnsigned_toString (Nat.le_max_right m n)
  rw [h, hn] at hm
  exact (Option.some.inj hm).symm

theorem toString_of_ipv4Octet {ds : List Char} {n : Nat} (h : ipv4Octet ds = some n) :
    toString n = String.ofList ds ∧ n ≤ 255 := by
  unfold ipv4Octet at h
  split at h
  · rename_i hds
    obtain rfl := Option.some.inj h
    obtain ⟨hlo, -, hd, hle, hz⟩ := hds
    refine ⟨?_, hle⟩
    rw [Nat.toString_eq_ofList_toDigits,
      toDigits_digitsValue (fun h0 => by simp [h0] at hlo) (List.all_eq_true.mp hd) hz]
  · cases h

theorem texts_of_octets : ∀ {pieces : List (List Char)} {os : List Nat},
    pieces.mapM ipv4Octet = some os →
      pieces.map String.ofList = os.map toString ∧ os.length = pieces.length ∧ ∀ o ∈ os, o ≤ 255
  | [], os, h => by
      obtain rfl : [] = os := by simpa using h
      simp
  | p :: pieces, os, h => by
      rw [List.mapM_cons] at h
      obtain ⟨n, hn, h⟩ := Option.bind_eq_some_iff.mp h
      obtain ⟨ns, hns, h⟩ := Option.bind_eq_some_iff.mp h
      obtain rfl : n :: ns = os := Option.some.inj h
      obtain ⟨htext, hle⟩ := toString_of_ipv4Octet hn
      obtain ⟨htexts, hlen, hles⟩ := texts_of_octets hns
      refine ⟨?_, by simp [hlen], List.forall_mem_cons.mpr ⟨hle, hles⟩⟩
      rw [List.map_cons, List.map_cons, htext, htexts]

theorem split_of_parseIpv4 {s : String} {os : List Nat} (h : parseIpv4 s = some os) :
    split s '.' = os.map toString ∧ os.length = 4 ∧ ∀ o ∈ os, o ≤ 255 := by
  simp only [parseIpv4, Option.ite_none_right_eq_some] at h
  obtain ⟨htexts, hlen, hle⟩ := texts_of_octets h.2
  exact ⟨htexts, hlen.trans h.1, hle⟩

/-! ## Words, pieces and suffixes -/

theorem splitWhitespace_eq (s : String) :
    splitWhitespace s = (Words.words isWhitespace s.toList).map String.ofList := by
  have hfilter : (s.toList.splitOnP isWhitespace).filter (· ≠ []) =
      Words.words isWhitespace s.toList := by
    refine List.filter_congr ?_
    intro l _
    cases l <;> simp
  rw [splitWhitespace, hfilter]

theorem trim_eq (s : String) : trim s = String.ofList (Words.strip isWhitespace s.toList) :=
  rfl

theorem join_cons {sep x : String} {xs : List String} (h : xs ≠ []) :
    join sep (x :: xs) = x ++ sep ++ join sep xs := by
  obtain ⟨y, ys, rfl⟩ := List.exists_cons_of_ne_nil h
  refine String.toList_inj.mp ?_
  rw [toList_join, List.map_cons, List.map_cons, List.intercalate_cons_cons,
    String.toList_append, String.toList_append, toList_join, List.map_cons]

theorem join_append {sep : String} {ys : List String} (hy : ys ≠ []) : ∀ {xs : List String},
    xs ≠ [] → join sep (xs ++ ys) = join sep xs ++ sep ++ join sep ys
  | [], h => absurd rfl h
  | [x], _ => by
      have hone : join sep [x] = x := by
        refine String.toList_inj.mp ?_
        rw [toList_join, List.map_singleton, List.intercalate_singleton]
      rw [List.singleton_append, join_cons hy, hone]
  | x :: z :: xs, _ => by
      have ih : join sep (z :: xs ++ ys) = join sep (z :: xs) ++ sep ++ join sep ys :=
        join_append hy (List.cons_ne_nil z xs)
      have hne : z :: xs ++ ys ≠ [] := List.append_ne_nil_of_left_ne_nil (List.cons_ne_nil z xs) ys
      rw [List.cons_append, join_cons hne, ih, join_cons (List.cons_ne_nil z xs)]
      simp only [String.append_assoc]

/-- A character of a string is the separator or stands in a piece of the split. -/
theorem mem_of_split {s : String} {c d : Char} (h : c ∈ s.toList) :
    c = d ∨ ∃ piece ∈ split s d, c ∈ piece.toList := by
  rw [← join_split s d, toList_join, String.toList_ofList] at h
  rcases Words.mem_intercalate h with h | ⟨l, hl, hc⟩
  · exact .inl h
  · obtain ⟨piece, hp, rfl⟩ := List.mem_map.mp hl
    exact .inr ⟨piece, hp, hc⟩

theorem mem_of_mem_split {s piece : String} {c d : Char} (hp : piece ∈ split s d)
    (h : c ∈ piece.toList) : c ∈ s.toList := by
  rw [← join_split s d, toList_join]
  exact Words.mem_intercalate_of_mem (List.mem_map_of_mem hp) h

theorem toList_of_stripSuffix {s t r : String} (h : stripSuffix s t = some r) :
    s.toList = r.toList ++ t.toList := by
  unfold stripSuffix at h
  split at h
  · rename_i hsuffix
    obtain ⟨l, hl⟩ := List.isSuffixOf_iff_suffix.mp hsuffix
    obtain rfl := Option.some.inj h
    rw [String.toList_ofList, ← hl, List.length_append, Nat.add_sub_cancel, List.take_left]
  · cases h

theorem stripSuffix_append (s t : String) : stripSuffix (s ++ t) t = some s := by
  have hsuffix : t.toList.isSuffixOf (s ++ t).toList = true := by
    rw [String.toList_append]
    exact List.isSuffixOf_iff_suffix.mpr (List.suffix_append s.toList t.toList)
  rw [stripSuffix, if_pos hsuffix, String.toList_append, List.length_append, Nat.add_sub_cancel,
    List.take_left, String.ofList_toList]

/-! ## Cutting a join -/

theorem split_join {c : Char} {xs : List String} (hne : xs ≠ [])
    (h : ∀ x ∈ xs, c ∉ x.toList) : split (join (String.ofList [c]) xs) c = xs := by
  have hlists : ∀ l ∈ xs.map String.toList, c ∉ l := by
    intro l hl
    obtain ⟨x, hx, rfl⟩ := List.mem_map.mp hl
    exact h x hx
  have hsome : xs.map String.toList ≠ [] := by simpa using hne
  rw [split, toList_join, String.toList_ofList, List.splitOn_intercalate c hlists hsome,
    map_ofList_toList]

end PkiExecutor.Str
