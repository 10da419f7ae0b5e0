/-
# `PkiExecutor.Lib.CommandLine` — a process's arguments on one command line

Windows starts a process from one text, so a list of arguments is put into one
and taken apart again by the process.  This is how the standard library puts it
together: the program in quotes, then each argument after a blank; an argument
with blanks in it, or an empty one, is put in quotes, and backslashes are doubled
where a quote follows them.
-/
import PkiExecutor.Lib.DotNet

namespace PkiExecutor.CommandLine

/-- The rest of an argument after `n` backslashes, which count for nothing unless
a quote follows. -/
def escape (quoted : Bool) : Nat → List Char → List Char
  | n, [] => if quoted then List.replicate n '\\' ++ ['"'] else []
  | n, c :: cs =>
      if c = '\\' then c :: escape quoted (n + 1) cs
      else if c = '"' then List.replicate (n + 1) '\\' ++ c :: escape quoted 0 cs
      else c :: escape quoted 0 cs

/-- An argument that would come apart without quotes. -/
def needsQuotes (arg : List Char) : Bool := arg.isEmpty || arg.any fun c => c == ' ' || c == '\t'

/-- One argument as it stands on the command line. -/
def appendArg (arg : List Char) : List Char :=
  if needsQuotes arg then '"' :: escape true 0 arg else escape false 0 arg

/-- The program and its arguments in one line. -/
def commandLine (program : String) (args : List String) : List Char :=
  '"' :: program.toList ++ '"' :: args.flatMap fun arg => ' ' :: appendArg arg.toList

theorem escape_of_plain : ∀ {cs : List Char} (n : Nat), '\\' ∉ cs → '"' ∉ cs →
    escape false n cs = cs
  | [], _, _, _ => rfl
  | c :: cs, n, hb, hq => by
      rw [List.mem_cons, not_or] at hb hq
      rw [escape, if_neg (Ne.symm hb.1), if_neg (Ne.symm hq.1), escape_of_plain 0 hb.2 hq.2]

theorem appendArg_of_plain {arg : List Char} (hne : arg ≠ [])
    (h : ∀ c ∈ arg, c ≠ ' ' ∧ c ≠ '\t' ∧ c ≠ '\\' ∧ c ≠ '"') : appendArg arg = arg := by
  have hquotes : needsQuotes arg = false := by
    rw [needsQuotes, Bool.or_eq_false_iff]
    refine ⟨by simpa using hne, List.any_eq_false.mpr fun c hc => ?_⟩
    simp [(h c hc).1, (h c hc).2.1]
  have hback : '\\' ∉ arg := fun hc => (h _ hc).2.2.1 rfl
  have hquote : '"' ∉ arg := fun hc => (h _ hc).2.2.2 rfl
  rw [appendArg, hquotes]
  exact escape_of_plain 0 hback hquote

/-- The length of a command line in UTF-16 units: two quotes around the program,
and a blank in front of each argument. -/
theorem utf16Len_commandLine (program : String) (args : List String) :
    DotNet.utf16Len (commandLine program args) = DotNet.utf16Len program.toList + 2 +
      args.foldr (fun arg n => 1 + DotNet.utf16Len (appendArg arg.toList) + n) 0 := by
  have hargs : ∀ args : List String,
      DotNet.utf16Len (args.flatMap fun arg => ' ' :: appendArg arg.toList) =
        args.foldr (fun arg n => 1 + DotNet.utf16Len (appendArg arg.toList) + n) 0 := by
    intro args
    induction args with
    | nil => rfl
    | cons arg args ih =>
        rw [List.flatMap_cons, DotNet.utf16Len_append, ih]
        rfl
  have hquote : DotNet.utf16Width '"' = 1 := by decide
  rw [commandLine, List.cons_append, DotNet.utf16Len, DotNet.utf16Len_append, DotNet.utf16Len,
    hargs, hquote]
  omega

example : commandLine "cmd" ["/c", "a b\\", ""] = "\"cmd\" /c \"a b\\\\\" \"\"".toList := by
  decide

end PkiExecutor.CommandLine
