/-
# `PkiExecutor.Lib.Inf` — files of sections and keys

A file that is read line by line: a line in brackets opens a section, a line with
an equals sign sets a key, and there are blank lines.  `ofText` and `text` are
inverse to each other (`text_ofText`, `ofText_text`), so all that can come between
lines and the file they are written to is a line end inside one of them:
`read_crlfLines_iff`.
-/
import PkiExecutor.Lib.DotNet
import PkiExecutor.Lib.Str

namespace PkiExecutor.Inf

open DotNet (Unbroken crlfLines readLines)

/-- One line of a file. -/
inductive Line
  | blank
  | heading (name : String)
  | pair (key value : String)
  /-- none of these -/
  | other (text : String)
  deriving DecidableEq, Repr

/-- What stands between the brackets of a text. -/
def bracketed (s : String) : Option String :=
  match s.toList with
  | '[' :: rest => if rest.getLast? = some ']' then some (String.ofList rest.dropLast) else none
  | _ => none

namespace Line

def text : Line → String
  | blank => ""
  | heading name => "[" ++ name ++ "]"
  | pair key value => key ++ "=" ++ value
  | other s => s

/-- A line as it is read. -/
def ofText (s : String) : Line :=
  if s = "" then blank
  else
    match bracketed s with
    | some name => heading name
    | none =>
        match Str.splitOnce s '=' with
        | some (key, value) => pair key value
        | none => other s

/-- A line as reading a text yields it. -/
def Plain : Line → Prop
  | blank => True
  | heading _ => True
  | pair key _ => '=' ∉ key.toList ∧ key.toList ≠ [] ∧ key.toList.head? ≠ some '['
  | other s => ofText s = other s

end Line

open Line

theorem toList_of_bracketed {s name : String} (h : bracketed s = some name) :
    s.toList = '[' :: name.toList ++ [']'] := by
  unfold bracketed at h
  split at h
  · rename_i rest hrest
    split at h
    · rename_i hlast
      obtain rfl := Option.some.inj h
      obtain ⟨front, rfl⟩ := List.getLast?_eq_some_iff.mp hlast
      rw [hrest, List.dropLast_concat, String.toList_ofList, List.cons_append]
    · cases h
  · cases h

/-- Reading a text and writing it again. -/
theorem text_ofText (s : String) : (ofText s).text = s := by
  unfold ofText
  split
  · rename_i he
    exact he.symm
  · split
    · rename_i name hname
      apply String.toList_injective
      rw [toList_of_bracketed hname]
      simp [text]
    · split
      · rename_i key value hpair
        apply String.toList_injective
        rw [(Str.toList_of_splitOnce hpair).1]
        simp [text]
      · rfl

theorem ofText_text {l : Line} (h : l.Plain) : ofText l.text = l := by
  cases l with
  | blank => rfl
  | heading name =>
      have hlist : ("[" ++ name ++ "]").toList = '[' :: (name.toList ++ [']']) := by simp
      have hbracketed : bracketed ("[" ++ name ++ "]") = some name := by
        simp [bracketed, hlist]
      have hne : "[" ++ name ++ "]" ≠ "" := by
        intro he
        rw [he] at hlist
        cases hlist
      rw [text, ofText, if_neg hne, hbracketed]
  | pair key value =>
      obtain ⟨hkey, hnil, hhead⟩ := h
      have hlist : (key ++ "=" ++ value).toList = key.toList ++ '=' :: value.toList := by simp
      have hne : key ++ "=" ++ value ≠ "" := by
        intro he
        rw [he] at hlist
        simp at hlist
      have hbracketed : bracketed (key ++ "=" ++ value) = none := by
        rw [bracketed, hlist]
        split
        · rename_i rest hrest
          refine absurd ?_ hhead
          rw [← List.head?_append_of_ne_nil _ hnil, hrest, List.head?_cons]
        · rfl
      rw [text, ofText, if_neg hne, hbracketed]
      simp only [Str.splitOnce_eq hlist hkey]
  | other s => exact h

/-- The lines of a file. -/
def read (file : String) : List Line := (readLines file).map ofText

/-- Lines come back from the file they are written to exactly if none of them has
a line end inside. -/
theorem read_crlfLines_iff {lines : List Line} (h : ∀ l ∈ lines, l.Plain) :
    read (crlfLines (lines.map text)) = lines ↔ ∀ l ∈ lines, Unbroken l.text := by
  have htexts : read (crlfLines (lines.map text)) = lines ↔
      readLines (crlfLines (lines.map text)) = lines.map text := by
    constructor
    · intro hread
      have hid : ∀ s, (text ∘ ofText) s = s := text_ofText
      have htext := congrArg (List.map text) hread
      rw [read, List.map_map, List.map_id'' hid] at htext
      exact htext
    · intro hread
      have hback : ∀ l ∈ lines, (ofText ∘ text) l = id l := fun l hl => ofText_text (h l hl)
      rw [read, hread, List.map_map, List.map_congr_left hback, List.map_id]
  rw [htexts, DotNet.readLines_crlfLines_iff, List.forall_mem_map]
  rfl

end PkiExecutor.Inf
