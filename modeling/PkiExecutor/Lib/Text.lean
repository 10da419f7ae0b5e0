/-
# `PkiExecutor.Lib.Text` — texts as lines, and deleting ranges of them

A text is a list of elements, one of which ends lines.  `Text` is the text cut
up: the lines that are ended, and the rest after the last end, which is a line
only where it is not empty.  `ofList` and `toList` are inverse to each other, so
an operation on lines is an operation on texts.

A stream editor deletes the ranges from a line that opens one to the next line
that closes it, both with it, or to the end where none closes it.  A line that
is kept keeps its end, and a rest that is kept still has none: what is written
after it then stands on the same line.  A block that is written on lines of its
own is deleted whole again, `deleteRanges_block`; a text in which no line opens a
range is left alone, `deleteRanges_of_not_opens`.
-/
import Mathlib.Data.List.Infix
import Mathlib.Tactic.Common

namespace PkiExecutor

/-- A text whose lines are ended by `nl`. -/
@[ext] structure Text (α : Type) (nl : α) where
  /-- The lines that are ended, without their ends. -/
  lines : List (List α)
  /-- What stands after the last end. -/
  rest : List α
  lines_ok : ∀ l ∈ lines, nl ∉ l
  rest_ok : nl ∉ rest

namespace Text

variable {α : Type} {nl : α}

/-! ## Texts and lists -/

/-- The characters of a text. -/
def toList (t : Text α nl) : List α := t.lines.flatMap (· ++ [nl]) ++ t.rest

def empty : Text α nl := ⟨[], [], by simp, by simp⟩

/-- An end of line in front. -/
def consEnd (t : Text α nl) : Text α nl :=
  ⟨[] :: t.lines, t.rest, List.forall_mem_cons.mpr ⟨List.not_mem_nil, t.lines_ok⟩, t.rest_ok⟩

/-- Another element in front: it joins the first line. -/
def consChar (c : α) (hc : nl ≠ c) : Text α nl → Text α nl
  | ⟨[], rest, _, hrest⟩ => ⟨[], c :: rest, by simp, by simp [hc, hrest]⟩
  | ⟨l :: ls, rest, hlines, hrest⟩ => ⟨(c :: l) :: ls, rest, by
      rw [List.forall_mem_cons] at hlines ⊢
      exact ⟨by simp [hc, hlines.1], hlines.2⟩, hrest⟩

/-- The lines of some characters. -/
def ofList [DecidableEq α] : List α → Text α nl
  | [] => empty
  | c :: cs => if h : nl = c then (ofList cs).consEnd else (ofList cs).consChar c h

theorem toList_consEnd (t : Text α nl) : t.consEnd.toList = nl :: t.toList := rfl

theorem toList_consChar {c : α} (hc : nl ≠ c) : ∀ t : Text α nl,
    (t.consChar c hc).toList = c :: t.toList
  | ⟨[], _, _, _⟩ => rfl
  | ⟨_ :: _, _, _, _⟩ => rfl

section Cut

variable [DecidableEq α]

theorem toList_ofList : ∀ cs : List α, (ofList cs : Text α nl).toList = cs
  | [] => rfl
  | c :: cs => by
      rw [ofList]
      split
      · rename_i h
        rw [toList_consEnd, toList_ofList cs, h]
      · rw [toList_consChar, toList_ofList cs]

theorem lines_ofList_line {l : List α} (hl : nl ∉ l) (cs : List α) :
    (ofList (l ++ nl :: cs) : Text α nl).lines = l :: (ofList cs : Text α nl).lines ∧
      (ofList (l ++ nl :: cs) : Text α nl).rest = (ofList cs : Text α nl).rest := by
  induction l with
  | nil =>
      rw [List.nil_append, ofList, dif_pos rfl]
      exact ⟨rfl, rfl⟩
  | cons c l ih =>
      rw [List.mem_cons, not_or] at hl
      obtain ⟨hlines, hrest⟩ := ih hl.2
      rw [List.cons_append, ofList, dif_neg hl.1]
      generalize (ofList (l ++ nl :: cs) : Text α nl) = t at hlines hrest
      obtain ⟨ls, rest, _, _⟩ := t
      obtain rfl : ls = _ := hlines
      exact ⟨rfl, hrest⟩

theorem lines_ofList_rest {l : List α} (hl : nl ∉ l) :
    (ofList l : Text α nl).lines = [] ∧ (ofList l : Text α nl).rest = l := by
  induction l with
  | nil => exact ⟨rfl, rfl⟩
  | cons c l ih =>
      rw [List.mem_cons, not_or] at hl
      obtain ⟨hlines, hrest⟩ := ih hl.2
      rw [ofList, dif_neg hl.1]
      generalize (ofList l : Text α nl) = t at hlines hrest
      obtain ⟨ls, rest, _, _⟩ := t
      obtain rfl : ls = _ := hlines
      exact ⟨rfl, congrArg (c :: ·) hrest⟩

theorem ofList_toList (t : Text α nl) : ofList t.toList = t := by
  obtain ⟨lines, rest, hlines, hrest⟩ := t
  induction lines with
  | nil =>
      obtain ⟨hl, hr⟩ := lines_ofList_rest hrest
      exact Text.ext hl hr
  | cons l ls ih =>
      rw [List.forall_mem_cons] at hlines
      have hshape : (⟨l :: ls, rest, List.forall_mem_cons.mpr hlines, hrest⟩ : Text α nl).toList =
          l ++ nl :: (⟨ls, rest, hlines.2, hrest⟩ : Text α nl).toList := by
        simp [toList]
      obtain ⟨hl, hr⟩ := lines_ofList_line hlines.1 (⟨ls, rest, hlines.2, hrest⟩ : Text α nl).toList
      rw [← hshape, ih hlines.2] at hl hr
      exact Text.ext hl hr

theorem toList_inj {t u : Text α nl} : t.toList = u.toList ↔ t = u := by
  constructor
  · intro h
    rw [← ofList_toList t, h, ofList_toList u]
  · rintro rfl
    rfl

end Cut

/-! ## Lines written at the end -/

/-- The text with lines written after it: the first goes on where the rest ends. -/
def write (t : Text α nl) (l : List α) (ls : List (List α)) (h : ∀ m ∈ l :: ls, nl ∉ m) :
    Text α nl where
  lines := t.lines ++ (t.rest ++ l) :: ls
  rest := []
  lines_ok := by
    rw [List.forall_mem_cons] at h
    rw [List.forall_mem_append, List.forall_mem_cons]
    refine ⟨t.lines_ok, fun hm => ?_, h.2⟩
    exact (List.mem_append.mp hm).elim t.rest_ok h.1
  rest_ok := List.not_mem_nil

theorem toList_write (t : Text α nl) {l : List α} {ls : List (List α)}
    (h : ∀ m ∈ l :: ls, nl ∉ m) :
    (t.write l ls h).toList = t.toList ++ (l :: ls).flatMap (· ++ [nl]) := by
  simp [write, toList]

/-! ## Ranges -/

section Ranges

variable (opens closes : List α → Bool)

/-- The lines outside of the ranges; `inside` says whether a range is open.  A
line that opens a range is not looked at for closing it. -/
def kept : Bool → List (List α) → List (List α)
  | _, [] => []
  | true, l :: ls => kept (!closes l) ls
  | false, l :: ls => if opens l then kept true ls else l :: kept false ls

/-- Whether a range is open after the lines. -/
def insideAfter : Bool → List (List α) → Bool
  | inside, [] => inside
  | true, l :: ls => insideAfter (!closes l) ls
  | false, l :: ls => insideAfter (opens l) ls

variable {opens closes}

theorem mem_of_mem_kept {l : List α} : ∀ {inside : Bool} {ls : List (List α)},
    l ∈ kept opens closes inside ls → l ∈ ls
  | true, [], h | false, [], h => h
  | true, _ :: _, h => List.mem_cons_of_mem _ (mem_of_mem_kept h)
  | false, m :: ls, h => by
      rw [kept] at h
      split at h
      · exact List.mem_cons_of_mem m (mem_of_mem_kept h)
      · rcases List.mem_cons.mp h with rfl | h
        · exact List.mem_cons_self
        · exact List.mem_cons_of_mem m (mem_of_mem_kept h)

theorem not_opens_of_mem_kept {l : List α} : ∀ {inside : Bool} {ls : List (List α)},
    l ∈ kept opens closes inside ls → opens l = false
  | true, [], h | false, [], h => absurd h List.not_mem_nil
  | true, m :: ls, h => by
      have hkept : l ∈ kept opens closes (!closes m) ls := h
      exact not_opens_of_mem_kept hkept
  | false, m :: ls, h => by
      rw [kept] at h
      split at h
      · exact not_opens_of_mem_kept h
      · rename_i hm
        rcases List.mem_cons.mp h with rfl | h
        · exact Bool.eq_false_iff.mpr hm
        · exact not_opens_of_mem_kept h

theorem kept_append (ms : List (List α)) : ∀ (inside : Bool) (ls : List (List α)),
    kept opens closes inside (ls ++ ms) = kept opens closes inside ls ++
      kept opens closes (insideAfter opens closes inside ls) ms
  | true, [] | false, [] => rfl
  | true, l :: ls => kept_append ms (!closes l) ls
  | false, l :: ls => by
      rw [List.cons_append, kept, kept, insideAfter]
      by_cases hl : opens l = true
      · rw [if_pos hl, if_pos hl, hl]
        exact kept_append ms true ls
      · rw [if_neg hl, if_neg hl, kept_append ms false ls, Bool.eq_false_iff.mpr hl]
        rfl

theorem insideAfter_append (ms : List (List α)) : ∀ (inside : Bool) (ls : List (List α)),
    insideAfter opens closes inside (ls ++ ms) =
      insideAfter opens closes (insideAfter opens closes inside ls) ms
  | true, [] | false, [] => rfl
  | true, l :: ls => insideAfter_append ms (!closes l) ls
  | false, l :: ls => insideAfter_append ms (opens l) ls

theorem kept_of_not_opens {ls : List (List α)} (h : ∀ l ∈ ls, opens l = false) :
    kept opens closes false ls = ls ∧ insideAfter opens closes false ls = false := by
  induction ls with
  | nil => exact ⟨rfl, rfl⟩
  | cons l ls ih =>
      rw [List.forall_mem_cons] at h
      obtain ⟨hkept, hinside⟩ := ih h.2
      rw [kept, insideAfter, h.1, if_neg (by decide), hkept]
      exact ⟨rfl, hinside⟩

theorem kept_of_not_closes {ls : List (List α)} (h : ∀ l ∈ ls, closes l = false) :
    kept opens closes true ls = [] ∧ insideAfter opens closes true ls = true := by
  induction ls with
  | nil => exact ⟨rfl, rfl⟩
  | cons l ls ih =>
      rw [List.forall_mem_cons] at h
      rw [kept, insideAfter, h.1]
      exact ih h.2

/-- A range is open after the lines exactly if one of them opens a range and none
after it closes one. -/
theorem insideAfter_iff (hoc : ∀ l, opens l = true → closes l = false) {ls : List (List α)} :
    insideAfter opens closes false ls = true ↔
      ∃ before l inside, ls = before ++ l :: inside ∧ opens l = true ∧
        ∀ m ∈ inside, closes m = false := by
  constructor
  · intro h
    induction ls using List.reverseRecOn with
    | nil => cases h
    | append_singleton ls l ih =>
        rw [insideAfter_append] at h
        cases hi : insideAfter opens closes false ls with
        | true =>
            obtain ⟨before, k, inside, rfl, hk, hinside⟩ := ih hi
            have hl : closes l = false := by simpa [hi, insideAfter] using h
            refine ⟨before, k, inside ++ [l], by simp, hk, ?_⟩
            rw [List.forall_mem_append, List.forall_mem_singleton]
            exact ⟨hinside, hl⟩
        | false =>
            have hl : opens l = true := by simpa [hi, insideAfter] using h
            exact ⟨ls, l, [], rfl, hl, by simp⟩
  · rintro ⟨before, l, inside, rfl, hl, hinside⟩
    have hopen : insideAfter opens closes (insideAfter opens closes false before) [l] = true := by
      cases insideAfter opens closes false before with
      | true => simp [insideAfter, hoc l hl]
      | false => simp [insideAfter, hl]
    rw [List.append_cons, insideAfter_append, insideAfter_append, hopen]
    exact (kept_of_not_closes hinside).2

variable (opens closes)

/-- The text without its ranges. -/
def deleteRanges (t : Text α nl) : Text α nl where
  lines := kept opens closes false t.lines
  rest := if insideAfter opens closes false t.lines || opens t.rest then [] else t.rest
  lines_ok l hl := t.lines_ok l (mem_of_mem_kept hl)
  rest_ok := by
    split
    · exact List.not_mem_nil
    · exact t.rest_ok

variable {opens closes}

theorem deleteRanges_of_not_opens {t : Text α nl} (hlines : ∀ l ∈ t.lines, opens l = false)
    (hrest : opens t.rest = false) : t.deleteRanges opens closes = t := by
  obtain ⟨hkept, hinside⟩ : kept opens closes false t.lines = t.lines ∧
      insideAfter opens closes false t.lines = false := kept_of_not_opens hlines
  refine Text.ext hkept ?_
  show (if insideAfter opens closes false t.lines || opens t.rest then [] else t.rest) = t.rest
  rw [hinside, hrest]
  rfl

/-- A block that is opened, has no closing line inside, and is closed at its end
is deleted whole, where it stands on lines of its own. -/
theorem deleteRanges_block {t : Text α nl} (hlines : ∀ l ∈ t.lines, opens l = false)
    (hrest : t.rest = []) {b e : List α} {ls : List (List α)}
    (hb : opens b = true) (hls : ∀ l ∈ ls, closes l = false) (he : closes e = true)
    (h : ∀ m ∈ b :: (ls ++ [e]), nl ∉ m) :
    (t.write b (ls ++ [e]) h).deleteRanges opens closes = t := by
  obtain ⟨hkept, hinside⟩ : kept opens closes false t.lines = t.lines ∧
      insideAfter opens closes false t.lines = false := kept_of_not_opens hlines
  obtain ⟨hkeptIn, hinsideIn⟩ : kept opens closes true ls = [] ∧
      insideAfter opens closes true ls = true := kept_of_not_closes hls
  have hblock : kept opens closes false (b :: (ls ++ [e])) = [] := by
    rw [kept, if_pos hb, kept_append, hkeptIn, hinsideIn]
    rfl
  have hclosed : insideAfter opens closes false (b :: (ls ++ [e])) = false := by
    rw [insideAfter, hb, insideAfter_append, hinsideIn]
    simp [insideAfter, he]
  have hwritten : (t.write b (ls ++ [e]) h).lines = t.lines ++ b :: (ls ++ [e]) := by
    show t.lines ++ (t.rest ++ b) :: (ls ++ [e]) = _
    rw [hrest, List.nil_append]
  refine Text.ext ?_ ?_
  · show kept opens closes false (t.write b (ls ++ [e]) h).lines = t.lines
    rw [hwritten, kept_append, hkept, hinside, hblock, List.append_nil]
  · show (if insideAfter opens closes false (t.write b (ls ++ [e]) h).lines || opens [] then []
      else []) = t.rest
    rw [hrest, ite_self]

end Ranges

end Text

end PkiExecutor
