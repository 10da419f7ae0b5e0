/-
# `PkiExecutor.Lib.DotNet` — texts and arrays as .NET and PowerShell have them

Operations that scripts perform on their arguments and that have no counterpart
in `Lib.Str`: replacing every occurrence of a text, indexing an array by a range,
writing a text in ASCII, and reading a file line by line.

Replacing is a scan from the left (`replaceFrom_append` is what happens at an
occurrence); a range whose end is below its start counts down, and an index past
the end of the array yields nothing; a line ends with a carriage return, a line
feed, or both in this order.
-/
import Mathlib.Data.List.Basic
import Mathlib.Tactic.Common

namespace PkiExecutor.DotNet

/-! ## Replacing -/

section Replace

variable {α : Type} [DecidableEq α]

/-- Every occurrence of `old`, from the left, becomes `new`.  The number is how
many elements still belong to the occurrence found last. -/
def replaceFrom (old new : List α) : Nat → List α → List α
  | _, [] => []
  | n + 1, _ :: l => replaceFrom old new n l
  | 0, a :: l =>
      if old.isPrefixOf (a :: l) then new ++ replaceFrom old new (old.length - 1) l
      else a :: replaceFrom old new 0 l

variable {old new : List α}

theorem replaceFrom_skip (rest : List α) : ∀ skipped : List α,
    replaceFrom old new skipped.length (skipped ++ rest) = replaceFrom old new 0 rest
  | [] => rfl
  | _ :: skipped => replaceFrom_skip rest skipped

/-- Up to an occurrence whose second element does not come earlier, nothing is
replaced. -/
theorem replaceFrom_append {a b : α} {w : List α} (hab : a ≠ b) (rest : List α) :
    ∀ {l : List α}, b ∉ l →
      replaceFrom (a :: b :: w) new 0 (l ++ a :: b :: w ++ rest) =
        l ++ new ++ replaceFrom (a :: b :: w) new 0 rest
  | [], _ => by
      have hpre : (a :: b :: w).isPrefixOf (a :: (b :: w ++ rest)) = true :=
        List.isPrefixOf_iff_prefix.mpr (List.prefix_append (a :: b :: w) rest)
      show replaceFrom _ new 0 (a :: (b :: w ++ rest)) = _
      rw [replaceFrom, if_pos hpre]
      exact congrArg (new ++ ·) (replaceFrom_skip rest (b :: w))
  | c :: l, h => by
      rw [List.mem_cons, not_or] at h
      have hpre : ¬ (a :: b :: w).isPrefixOf (c :: (l ++ a :: b :: w ++ rest)) = true := by
        intro hp
        obtain ⟨-, hp⟩ := List.cons_prefix_cons.mp (List.isPrefixOf_iff_prefix.mp hp)
        -- the second element of the occurrence is in `l`, or is the first of the next
        cases l with
        | nil => exact hab (List.cons_prefix_cons.mp hp).1.symm
        | cons d l => exact h.2 ((List.cons_prefix_cons.mp hp).1 ▸ List.mem_cons_self)
      have ih : replaceFrom (a :: b :: w) new 0 (l ++ a :: b :: w ++ rest) =
          l ++ new ++ replaceFrom (a :: b :: w) new 0 rest := replaceFrom_append hab rest h.2
      show replaceFrom _ new 0 (c :: (l ++ a :: b :: w ++ rest)) = _
      rw [replaceFrom, if_neg hpre, ih]
      rfl

end Replace

/-- `s.Replace(old, new)` -/
def replace (s old new : String) : String :=
  String.ofList (replaceFrom old.toList new.toList 0 s.toList)

/-! ## Ranges of indices -/

section Slice

variable {α β : Type}

/-- The numbers of `a..b`. -/
def range (a b : Nat) : List Nat :=
  if a ≤ b then List.range' a (b + 1 - a) else (List.range' b (a + 1 - b)).reverse

/-- `$xs[a..b]` -/
def slice (xs : List α) (a b : Nat) : List α := (range a b).filterMap fun i => xs[i]?

theorem filterMap_range' (xs : List α) : ∀ n a : Nat,
    (List.range' a n).filterMap (fun i => xs[i]?) = (xs.drop a).take n
  | 0, a => by simp
  | n + 1, a => by
      have ih := filterMap_range' xs n (a + 1)
      rw [List.range'_succ, List.filterMap_cons, ih]
      rcases Nat.lt_or_ge a xs.length with h | h
      · rw [List.getElem?_eq_getElem h, List.drop_eq_getElem_cons h]
        rfl
      · rw [List.getElem?_eq_none h, List.drop_eq_nil_of_le h, List.drop_eq_nil_of_le (by omega),
          List.take_nil, List.take_nil]

/-- A range that counts up and goes beyond the end is the rest of the array. -/
theorem slice_eq_drop {xs : List α} {a b : Nat} (hab : a ≤ b) (hb : xs.length ≤ b + 1) :
    slice xs a b = xs.drop a := by
  rw [slice, range, if_pos hab, filterMap_range', List.take_of_length_le]
  rw [List.length_drop]
  omega

theorem slice_map (f : α → β) (xs : List α) (a b : Nat) :
    slice (xs.map f) a b = (slice xs a b).map f := by
  rw [slice, slice, List.map_filterMap]
  simp only [List.getElem?_map]

end Slice

/-! ## Characters and encodings -/

/-- How many UTF-16 units a character takes. -/
def utf16Width (c : Char) : Nat := if c.toNat < 0x10000 then 1 else 2

/-- The length of a text in UTF-16 units. -/
def utf16Len : List Char → Nat
  | [] => 0
  | c :: cs => utf16Width c + utf16Len cs

theorem utf16Len_append (l m : List Char) : utf16Len (l ++ m) = utf16Len l + utf16Len m := by
  induction l with
  | nil => simp [utf16Len]
  | cons c l ih => simp only [List.cons_append, utf16Len, ih, Nat.add_assoc]

/-- What ASCII makes of a character: a question mark for each unit outside it. -/
def asciiOf (c : Char) : List Char :=
  if c.toNat < 128 then [c] else List.replicate (utf16Width c) '?'

/-- A text written with `-Encoding ASCII`. -/
def ascii (s : String) : String := String.ofList (s.toList.flatMap asciiOf)

theorem ascii_append (s t : String) : ascii (s ++ t) = ascii s ++ ascii t := by
  rw [ascii, String.toList_append, List.flatMap_append, String.ofList_append]
  rfl

theorem ascii_eq_self {s : String} (h : ∀ c ∈ s.toList, c.toNat < 128) : ascii s = s := by
  have hkept : s.toList.flatMap asciiOf = s.toList.flatMap fun c => [c] :=
    List.flatMap_congr fun c hc => if_pos (h c hc)
  rw [ascii, hkept, List.flatMap_singleton', String.ofList_toList]

/-- Writing in ASCII neither makes nor loses a character of ASCII but the question
mark. -/
theorem mem_ascii {s : String} {c : Char} (hc : c.toNat < 128) (hq : c ≠ '?') :
    c ∈ (ascii s).toList ↔ c ∈ s.toList := by
  rw [ascii, String.toList_ofList, List.mem_flatMap]
  constructor
  · rintro ⟨d, hd, h⟩
    rw [asciiOf] at h
    split at h
    · obtain rfl : c = d := by simpa using h
      exact hd
    · exact absurd (List.eq_of_mem_replicate h) hq
  · intro h
    exact ⟨c, h, by simp [asciiOf, hc]⟩

theorem ascii_eq_empty {s : String} : ascii s = "" ↔ s = "" := by
  have hwidth : ∀ c : Char, asciiOf c ≠ [] := by
    intro c
    unfold asciiOf utf16Width
    split
    · simp
    · split <;> simp
  rw [ascii, String.ofList_eq_empty_iff, List.flatMap_eq_nil_iff, ← String.toList_eq_nil_iff]
  constructor
  · intro h
    exact List.eq_nil_iff_forall_not_mem.mpr fun c hc => hwidth c (h c hc)
  · intro h
    simp [h]

/-! ## Lines -/

/-- The pieces between the line ends; the flag says that a carriage return has
just been read. -/
def cutLines : Bool → List Char → List (List Char)
  | _, [] => [[]]
  | cr, c :: cs =>
      if c = '\n' ∧ cr = true then cutLines false cs
      else if c = '\r' ∨ c = '\n' then [] :: cutLines (c == '\r') cs
      else (cutLines false cs).modifyHead (c :: ·)

/-- A character that ends a line. -/
def isBreak (c : Char) : Bool := c == '\r' || c == '\n'

/-- The lines of a text: what stands after the last line end is one only where it
is not empty. -/
def readLines (s : String) : List String :=
  let pieces := (cutLines false s.toList).map String.ofList
  if pieces.getLast? = some "" then pieces.dropLast else pieces

theorem cutLines_ne_nil : ∀ (cr : Bool) (cs : List Char), cutLines cr cs ≠ []
  | _, [] => by simp [cutLines]
  | cr, c :: cs => by
      rw [cutLines]
      split
      · exact cutLines_ne_nil false cs
      · split
        · simp
        · simpa using cutLines_ne_nil false cs

theorem not_break_of_mem_cutLines : ∀ {cr : Bool} {cs l : List Char}, l ∈ cutLines cr cs →
    ∀ c ∈ l, isBreak c = false
  | _, [], l, h => by
      obtain rfl : l = [] := by simpa [cutLines] using h
      simp
  | cr, d :: cs, l, h => by
      rw [cutLines] at h
      split at h
      · exact not_break_of_mem_cutLines h
      · split at h
        · rcases List.mem_cons.mp h with rfl | h
          · simp
          · exact not_break_of_mem_cutLines h
        · rename_i hd
          obtain ⟨p, ps, hp⟩ := List.exists_cons_of_ne_nil (cutLines_ne_nil false cs)
          have hpieces : ∀ x ∈ p :: ps, ∀ c ∈ x, isBreak c = false := fun x hx =>
            not_break_of_mem_cutLines (hp ▸ hx)
          rw [hp, List.modifyHead_cons] at h
          rcases List.mem_cons.mp h with rfl | h
          · intro c hc
            rcases List.mem_cons.mp hc with rfl | hc
            · rw [not_or] at hd
              simp [isBreak, hd.1, hd.2]
            · exact hpieces p List.mem_cons_self c hc
          · exact hpieces l (List.mem_cons_of_mem _ h)

/-- A line without an end inside is cut off at the carriage return and the line
feed after it. -/
theorem cutLines_append (rest : List Char) : ∀ {cr : Bool} {l : List Char},
    (∀ c ∈ l, isBreak c = false) →
      cutLines cr (l ++ '\r' :: '\n' :: rest) = l :: cutLines false rest
  | cr, [], _ => by
      simp [cutLines]
  | cr, c :: l, h => by
      rw [List.forall_mem_cons] at h
      have hc : c ≠ '\r' ∧ c ≠ '\n' := by simpa [isBreak] using h.1
      have ih : cutLines false (l ++ '\r' :: '\n' :: rest) = l :: cutLines false rest :=
        cutLines_append rest h.2
      rw [List.cons_append, cutLines, if_neg fun he => hc.2 he.1,
        if_neg fun he => he.elim hc.1 hc.2, ih]
      rfl

/-- A text of lines each of which is ended. -/
def crlfLines (lines : List String) : String :=
  String.ofList (lines.flatMap fun line => line.toList ++ ['\r', '\n'])

theorem cutLines_crlfLines : ∀ {lines : List String},
    (∀ line ∈ lines, ∀ c ∈ line.toList, isBreak c = false) →
      cutLines false (crlfLines lines).toList = lines.map String.toList ++ [[]]
  | [], _ => rfl
  | line :: lines, h => by
      rw [List.forall_mem_cons] at h
      have ih := cutLines_crlfLines h.2
      have htext : (crlfLines (line :: lines)).toList =
          line.toList ++ '\r' :: '\n' :: (crlfLines lines).toList := by
        simp [crlfLines]
      rw [htext, cutLines_append _ h.1, ih]
      rfl

/-- Such a text reads back as its lines exactly if none of them has an end
inside. -/
theorem readLines_crlfLines_iff {lines : List String} :
    readLines (crlfLines lines) = lines ↔ ∀ line ∈ lines, ∀ c ∈ line.toList, isBreak c = false := by
  constructor
  · intro h line hl c hc
    have hsub : ∀ x ∈ readLines (crlfLines lines),
        x ∈ (cutLines false (crlfLines lines).toList).map String.ofList := by
      intro x hx
      rw [readLines] at hx
      split at hx
      · exact List.dropLast_subset _ hx
      · exact hx
    obtain ⟨l, hl', rfl⟩ := List.mem_map.mp (hsub line (h.symm ▸ hl))
    rw [String.toList_ofList] at hc
    exact not_break_of_mem_cutLines hl' c hc
  · intro h
    have hcut : (cutLines false (crlfLines lines).toList).map String.ofList = lines ++ [""] := by
      rw [cutLines_crlfLines h, List.map_append, List.map_map]
      have hid : lines.map (String.ofList ∘ String.toList) = lines :=
        List.map_id'' (fun _ => String.ofList_toList) lines
      rw [hid]
      rfl
    rw [readLines, hcut, List.getLast?_concat, if_pos rfl, List.dropLast_concat]

/-- There is no line end in the text. -/
def Unbroken (s : String) : Prop := ∀ c ∈ s.toList, isBreak c = false

instance (s : String) : Decidable (Unbroken s) :=
  decidable_of_iff (s.toList.all (!isBreak ·) = true)
    (by simp only [Unbroken, List.all_eq_true, Bool.not_eq_true'])

theorem unbroken_append {s t : String} : Unbroken (s ++ t) ↔ Unbroken s ∧ Unbroken t := by
  rw [Unbroken, String.toList_append, List.forall_mem_append]
  rfl

theorem unbroken_ascii {s : String} : Unbroken (ascii s) ↔ Unbroken s := by
  have hbreak : ∀ {c : Char}, isBreak c = true → (c ∈ (ascii s).toList ↔ c ∈ s.toList) := by
    intro c hc
    rw [isBreak, Bool.or_eq_true, beq_iff_eq, beq_iff_eq] at hc
    rcases hc with rfl | rfl
    · exact mem_ascii (by decide) (by decide)
    · exact mem_ascii (by decide) (by decide)
  constructor
  · intro h c hc
    by_contra hb
    rw [Bool.not_eq_false] at hb
    exact absurd (h c ((hbreak hb).mpr hc)) (by simp [hb])
  · intro h c hc
    by_contra hb
    rw [Bool.not_eq_false] at hb
    exact absurd (h c ((hbreak hb).mp hc)) (by simp [hb])

theorem ascii_crlfLines (lines : List String) :
    ascii (crlfLines lines) = crlfLines (lines.map ascii) := by
  apply String.toList_injective
  rw [ascii, crlfLines, crlfLines, String.toList_ofList, String.toList_ofList, String.toList_ofList,
    List.flatMap_assoc, List.flatMap_map]
  refine List.flatMap_congr ?_
  intro line _
  rw [List.flatMap_append, ascii, String.toList_ofList]
  rfl

end PkiExecutor.DotNet
