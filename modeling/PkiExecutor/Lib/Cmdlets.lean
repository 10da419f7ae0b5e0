/-
# `PkiExecutor.Lib.Cmdlets` — scripts of cmdlets, and what becomes of their errors

A script binds its arguments by position and runs pipelines of cmdlets, some of them
only if a variable is empty or is not.  A cmdlet may report an error.  What follows
is up to its `-ErrorAction` and else to the preference in force: under `Stop` the
script ends there, with a code that is not zero; otherwise it goes on, and a script
that comes to its end has the code zero.

`Block.text` is how a script is written and `Block.run` what it does.
`Block.run_induct` is the one rule about runs.  From it: where nothing says `Stop` no
error shows in the code (`exitCode_of_lax`), and where the preference is `Stop` and
no cmdlet says otherwise every error does (`exitCode_of_strict`).
-/
import PkiExecutor.Lib.Str

namespace PkiExecutor

/-- What is done about an error. -/
inductive ErrorAction
  | silentlyContinue
  | goOn
  | stop
  deriving DecidableEq, Repr

def ErrorAction.text : ErrorAction → String
  | silentlyContinue => "SilentlyContinue"
  | goOn => "Continue"
  | stop => "Stop"

/-- A cmdlet with its parameters as they are written, its own error action apart. -/
structure Cmdlet where
  name : String
  params : List String
  action : Option ErrorAction
  deriving DecidableEq, Repr

def Cmdlet.text (c : Cmdlet) : String :=
  Str.join " " (c.name :: c.params ++ match c.action with
    | some a => ["-ErrorAction", a.text]
    | none => [])

/-- The statements of a script, each before the rest. -/
inductive Block
  | done
  /-- the preference from here on -/
  | prefer (action : ErrorAction) (rest : Block)
  /-- a pipeline, between what is written around it -/
  | pipeline (before : String) (cmdlets : List Cmdlet) (behind : String) (rest : Block)
  /-- a pipeline whose value a variable gets -/
  | assign (var : String) (cmdlets : List Cmdlet) (rest : Block)
  /-- what is done only while a variable is empty -/
  | ifNot (var : String) (body rest : Block)
  /-- two ways, the first where a variable is not empty -/
  | ifElse (var : String) (yes no rest : Block)

/-- Cmdlets with pipes between them. -/
def pipelineText (cmdlets : List Cmdlet) : String :=
  Str.join " | " (cmdlets.map Cmdlet.text)

namespace Block

/-- The statements as they are written. -/
def statements : Block → List String
  | done => []
  | prefer action rest => ("$ErrorActionPreference = '" ++ action.text ++ "'") :: statements rest
  | pipeline before cmdlets behind rest =>
      (before ++ pipelineText cmdlets ++ behind) :: statements rest
  | assign var cmdlets rest => ("$" ++ var ++ " = " ++ pipelineText cmdlets) :: statements rest
  | ifNot var body rest =>
      ("if (-not $" ++ var ++ ") \x7b " ++ Str.join "; " (statements body) ++ " \x7d") ::
        statements rest
  | ifElse var yes no rest =>
      ("if ($" ++ var ++ ") \x7b " ++ Str.join "; " (statements yes) ++ " \x7d else \x7b " ++
        Str.join "; " (statements no) ++ " \x7d") :: statements rest

def text (b : Block) : String := Str.join "; " b.statements

end Block

/-! ## Runs -/

/-- How cmdlets behave, by their names: which report an error, and what they yield. -/
structure Behaviour where
  reports : String → Bool
  yields : String → String

/-- Where a script is: the preference in force, its variables, the cmdlets that reported
an error so far, and whether one of these errors ended it. -/
structure Progress where
  preference : ErrorAction
  vars : String → String
  errors : List String
  stopped : Bool

namespace Progress

/-- A cmdlet that reports an error stops the script by its own action or by the preference. -/
def invoke (b : Behaviour) (s : Progress) (c : Cmdlet) : Progress :=
  if s.stopped then s
  else if b.reports c.name then
    { s with errors := s.errors ++ [c.name], stopped := c.action.getD s.preference == .stop }
  else s

/-- The cmdlets of a pipeline. -/
def pipe (b : Behaviour) (s : Progress) (cmdlets : List Cmdlet) : Progress :=
  cmdlets.foldl (invoke b) s

/-- The value of a pipeline is that of its last cmdlet. -/
def assign (b : Behaviour) (s : Progress) (var : String) (cmdlets : List Cmdlet) : Progress :=
  { s with vars := Function.update s.vars var ((cmdlets.getLast?.map (b.yields ·.name)).getD "") }

end Progress

namespace Block

variable (b : Behaviour)

/-- A run; once stopped it changes neither the errors nor the fact. -/
def run : Block → Progress → Progress
  | done, s => s
  | prefer action rest, s => run rest { s with preference := action }
  | pipeline _ cmdlets _ rest, s => run rest (s.pipe b cmdlets)
  | assign var cmdlets rest, s => run rest ((s.pipe b cmdlets).assign b var cmdlets)
  | ifNot var body rest, s => run rest (if (s.vars var).isEmpty then run body s else s)
  | ifElse var yes no rest, s =>
      run rest (if (s.vars var).isEmpty then run no s else run yes s)

/-- Every cmdlet is one that `P` allows, every preference one that `Q` does. -/
def All (P : Cmdlet → Prop) (Q : ErrorAction → Prop) : Block → Prop
  | done => True
  | prefer action rest => Q action ∧ All P Q rest
  | pipeline _ cmdlets _ rest => (∀ c ∈ cmdlets, P c) ∧ All P Q rest
  | assign _ cmdlets rest => (∀ c ∈ cmdlets, P c) ∧ All P Q rest
  | ifNot _ body rest => All P Q body ∧ All P Q rest
  | ifElse _ yes no rest => All P Q yes ∧ All P Q no ∧ All P Q rest

variable {b} {P : Cmdlet → Prop} {Q : ErrorAction → Prop} {I : Progress → Prop}

theorem pipe_induct (hinvoke : ∀ s c, P c → I s → I (s.invoke b c)) {cmdlets : List Cmdlet}
    (h : ∀ c ∈ cmdlets, P c) {s : Progress} (hs : I s) : I (s.pipe b cmdlets) := by
  unfold Progress.pipe
  induction cmdlets generalizing s with
  | nil => exact hs
  | cons c cs ih =>
      rw [List.forall_mem_cons] at h
      exact ih h.2 (hinvoke s c h.1 hs)

/-- What every cmdlet and every change of the preference keeps, and what no variable
matters to, a run keeps. -/
theorem run_induct (hinvoke : ∀ s c, P c → I s → I (s.invoke b c))
    (hprefer : ∀ s a, Q a → I s → I { s with preference := a })
    (hvars : ∀ (s : Progress) vars, I s → I { s with vars := vars }) {block : Block}
    (h : block.All P Q) {s : Progress} (hs : I s) : I (block.run b s) := by
  induction block generalizing s with
  | done => exact hs
  | prefer action rest ih => exact ih h.2 (hprefer s action h.1 hs)
  | pipeline before cmdlets behind rest ih => exact ih h.2 (pipe_induct hinvoke h.1 hs)
  | assign var cmdlets rest ih => exact ih h.2 (hvars _ _ (pipe_induct hinvoke h.1 hs))
  | ifNot var body rest ihb ihr =>
      refine ihr h.2 ?_
      split
      · exact ihb h.1 hs
      · exact hs
  | ifElse var yes no rest ihy ihn ihr =>
      refine ihr h.2.2 ?_
      split
      · exact ihn h.2.1 hs
      · exact ihy h.1 hs

/-- Nothing says `Stop`. -/
def Lax : Block → Prop := All (·.action ≠ some .stop) (· ≠ .stop)

/-- Only `Stop` is said. -/
def Strict : Block → Prop := All (fun c => c.action = none ∨ c.action = some .stop) (· = .stop)

theorem not_stopped_of_lax {block : Block} (h : block.Lax) {s : Progress}
    (hs : s.preference ≠ .stop ∧ s.stopped = false) : (block.run b s).stopped = false := by
  refine (run_induct (b := b) (I := fun s => s.preference ≠ .stop ∧ s.stopped = false)
    ?_ ?_ ?_ h hs).2
  · rintro s c hc ⟨hp, hstop⟩
    rw [Progress.invoke, hstop, if_neg (by decide)]
    split
    · refine ⟨hp, ?_⟩
      cases ha : c.action with
      | none => simpa using hp
      | some a => simpa [ha] using hc
    · exact ⟨hp, hstop⟩
  · intro s a ha hs
    exact ⟨ha, hs.2⟩
  · intro s vars hs
    exact hs

theorem stopped_of_strict {block : Block} (h : block.Strict) {s : Progress}
    (hs : s.preference = .stop ∧ s.errors = []) (he : (block.run b s).errors ≠ []) :
    (block.run b s).stopped = true := by
  refine (run_induct (b := b)
    (I := fun s => s.preference = .stop ∧ (s.errors ≠ [] → s.stopped = true)) ?_ ?_ ?_ h
    ⟨hs.1, fun hne => absurd hs.2 hne⟩).2 he
  · rintro s c hc ⟨hp, hstop⟩
    rw [Progress.invoke]
    split
    · exact ⟨hp, hstop⟩
    · split
      · refine ⟨hp, fun _ => ?_⟩
        rcases hc with ha | ha
        · simp [ha, hp]
        · simp [ha]
      · exact ⟨hp, hstop⟩
  · intro s a ha hs
    exact ⟨ha, hs.2⟩
  · intro s vars hs
    exact hs

end Block

/-! ## Scripts -/

/-- A script: the parameters it declares, and its statements. -/
structure Script where
  params : List String
  body : Block

namespace Script

def text (s : Script) : String :=
  "param(" ++ Str.join "," (s.params.map ("[string]$" ++ ·)) ++ ") " ++ s.body.text

/-- The arguments by position; a parameter that gets none is empty. -/
def bind (params args : List String) : String → String := fun var =>
  ((params.zip args).lookup var).getD ""

/-- The script over its arguments. -/
def run (s : Script) (b : Behaviour) (args : List String) : Progress :=
  s.body.run b ⟨.goOn, bind s.params args, [], false⟩

/-- 1 after an error that has stopped the script. -/
def exitCode (s : Script) (b : Behaviour) (args : List String) : Int :=
  if (s.run b args).stopped then 1 else 0

variable {s : Script} {b : Behaviour} {args : List String}

theorem exitCode_of_lax (h : s.body.Lax) : s.exitCode b args = 0 := by
  have hstop : (s.run b args).stopped = false := Block.not_stopped_of_lax h ⟨nofun, rfl⟩
  rw [exitCode, hstop]
  rfl

theorem exitCode_of_strict {rest : Block} (hbody : s.body = .prefer .stop rest) (h : rest.Strict)
    (he : (s.run b args).errors ≠ []) : s.exitCode b args = 1 := by
  have hstop : (s.run b args).stopped = true := by
    rw [run, hbody] at he ⊢
    exact Block.stopped_of_strict h ⟨rfl, rfl⟩ he
  rw [exitCode, hstop]
  rfl

end Script

end PkiExecutor
