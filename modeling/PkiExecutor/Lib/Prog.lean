/-
# `PkiExecutor.Lib.Prog` — programs that talk to an observer and to the world

A program over two effects, as a tree: `tell m` shows a message to an observer
and goes on, `ask q` puts a query to the world and goes on with its answer.  It
ends with a value or with an error.  Nothing here fixes what messages, queries,
answers and errors are.

* `run` plays a program against a world.  A world answers from the whole history
  of queries, so every way a stateful world can behave is some world.
* `handle` is `match p with | Ok a => f a | Err e => g e`; `bind` is the case
  that passes errors on.  `run_handle` is the one rule about sequencing.
* `worldOf` is the world of a machine that serves queries one by one.
* `SameBut` relates two programs that differ in their queries only, and there
  only as a relation allows: `SameBut.run` says what an observer then sees.
* `Lockstep` relates two programs that go the same way but may tell and return
  different things, as far as relations allow: `Lockstep.run`.
-/
import Mathlib.Data.List.Forall2
import Mathlib.Tactic.Common

namespace PkiExecutor

/-- A program: finished, failed, telling the observer, or asking the world. -/
inductive Prog (M Q A E α : Type) : Type
  | ok (a : α)
  | fail (e : E)
  | tell (m : M) (k : Prog M Q A E α)
  | ask (q : Q) (k : A → Prog M Q A E α)

/-- One thing a run did. -/
inductive Event (M Q A : Type)
  | told (m : M)
  | asked (q : Q) (a : A)
  deriving DecidableEq, Repr

/-- What a run leaves behind. -/
structure Outcome (M Q A E α : Type) where
  trace : List (Event M Q A)
  result : Except E α

namespace Event

variable {M Q A : Type}

/-- The messages of a trace, in order. -/
def messages : List (Event M Q A) → List M
  | [] => []
  | .told m :: t => m :: messages t
  | .asked _ _ :: t => messages t

/-- The queries of a trace with their answers, in order. -/
def exchanges : List (Event M Q A) → List (Q × A)
  | [] => []
  | .told _ :: t => exchanges t
  | .asked q a :: t => (q, a) :: exchanges t

/-- The queries of a trace, in order. -/
def queries (t : List (Event M Q A)) : List Q := (exchanges t).map Prod.fst

@[simp] theorem messages_append (s t : List (Event M Q A)) :
    messages (s ++ t) = messages s ++ messages t := by
  induction s with
  | nil => rfl
  | cons e s ih => cases e <;> simp [messages, ih]

@[simp] theorem exchanges_append (s t : List (Event M Q A)) :
    exchanges (s ++ t) = exchanges s ++ exchanges t := by
  induction s with
  | nil => rfl
  | cons e s ih => cases e <;> simp [exchanges, ih]

end Event

namespace Prog

variable {M N Q A E F α β : Type}

/-- Go on with `f` from a value and with `g` from an error. -/
def handle : Prog M Q A E α → (α → Prog M Q A F β) → (E → Prog M Q A F β) → Prog M Q A F β
  | .ok a, f, _ => f a
  | .fail e, _, g => g e
  | .tell m k, f, g => .tell m (k.handle f g)
  | .ask q k, f, g => .ask q fun a => (k a).handle f g

/-- The program is an error and nothing else. -/
def failed : Prog M Q A E α → Bool
  | .fail _ => true
  | _ => false

/-- There is nothing left to do. -/
def finished : Prog M Q A E α → Bool
  | .ok _ => true
  | .fail _ => true
  | _ => false

/-- The query the program puts first, whatever the world: the one in front of
which it hears no answer. -/
def firstQuery : Prog M Q A E α → Option Q
  | .ok _ => none
  | .fail _ => none
  | .tell _ k => k.firstQuery
  | .ask q _ => some q

/-- Sequencing: an error ends the whole. -/
def bind (p : Prog M Q A E α) (f : α → Prog M Q A E β) : Prog M Q A E β := p.handle f .fail

instance : Monad (Prog M Q A E) where
  pure := .ok
  bind := bind

@[simp] theorem pure_eq (a : α) : (pure a : Prog M Q A E α) = .ok a := rfl

@[simp] theorem ok_bind (a : α) (f : α → Prog M Q A E β) : (Prog.ok a >>= f) = f a := rfl

@[simp] theorem fail_bind (e : E) (f : α → Prog M Q A E β) :
    ((Prog.fail e : Prog M Q A E α) >>= f) = .fail e := rfl

@[simp] theorem tell_bind (m : M) (k : Prog M Q A E α) (f : α → Prog M Q A E β) :
    (Prog.tell m k >>= f) = .tell m (k >>= f) := rfl

@[simp] theorem ask_bind (q : Q) (k : A → Prog M Q A E α) (f : α → Prog M Q A E β) :
    (Prog.ask q k >>= f) = .ask q fun a => k a >>= f := rfl

theorem bind_eq_ok {p : Prog M Q A E α} {f : α → Prog M Q A E β} {b : β} :
    p >>= f = .ok b ↔ ∃ a, p = .ok a ∧ f a = .ok b := by
  constructor
  · intro h
    cases p with
    | ok a => exact ⟨a, rfl, h⟩
    | fail e => cases h
    | tell m k => cases h
    | ask q k => cases h
  · rintro ⟨a, rfl, h⟩
    exact h

theorem bind_assoc (p : Prog M Q A E α) {γ : Type} (f : α → Prog M Q A E β)
    (g : β → Prog M Q A E γ) : p >>= f >>= g = p >>= fun a => f a >>= g := by
  induction p with
  | ok a | fail e => rfl
  | tell m k ih => simp only [tell_bind, ih]
  | ask q k ih => simp only [ask_bind, ih]

/-- Rename the messages. -/
def mapMsg (r : M → N) : Prog M Q A E α → Prog N Q A E α
  | .ok a => .ok a
  | .fail e => .fail e
  | .tell m k => .tell (r m) (k.mapMsg r)
  | .ask q k => .ask q fun a => (k a).mapMsg r

/-- Rename the error. -/
def mapErr (r : E → F) (p : Prog M Q A E α) : Prog M Q A F α := p.handle .ok fun e => .fail (r e)

@[simp] theorem firstQuery_mapErr (r : E → F) (p : Prog M Q A E α) :
    (p.mapErr r).firstQuery = p.firstQuery := by
  induction p with
  | ok a | fail e | ask q k => rfl
  | tell m k ih => exact ih

/-! ## Runs -/

/-- Play a program against a world, `past` being the queries put before. -/
def run (world : List Q → Q → A) : List Q → Prog M Q A E α → Outcome M Q A E α
  | _, .ok a => ⟨[], .ok a⟩
  | _, .fail e => ⟨[], .error e⟩
  | past, .tell m k =>
      let o := run world past k
      ⟨.told m :: o.trace, o.result⟩
  | past, .ask q k =>
      let a := world past q
      let o := run world (past ++ [q]) (k a)
      ⟨.asked q a :: o.trace, o.result⟩

/-- The run of a `handle`: that of the program, then that of the branch taken,
with the queries already put. -/
theorem run_handle (world : List Q → Q → A) (f : α → Prog M Q A F β)
    (g : E → Prog M Q A F β) (p : Prog M Q A E α) : ∀ past : List Q,
    run world past (p.handle f g) =
      let o := run world past p
      let o' := run world (past ++ Event.queries o.trace)
        (match o.result with | .ok a => f a | .error e => g e)
      ⟨o.trace ++ o'.trace, o'.result⟩ := by
  induction p with
  | ok a => intro past; simp [handle, run, Event.queries, Event.exchanges]
  | fail e => intro past; simp [handle, run, Event.queries, Event.exchanges]
  | tell m k ih =>
      intro past
      simp only [handle, run, ih past]
      rfl
  | ask q k ih =>
      intro past
      simp only [handle, run, ih (world past q) (past ++ [q])]
      simp [Event.queries, Event.exchanges]

theorem run_of_memoryless {world : List Q → Q → A} (hw : ∀ past q, world past q = world [] q)
    (p : Prog M Q A E α) : ∀ past : List Q, run world past p = run world [] p := by
  induction p with
  | ok a | fail e => intro past; rfl
  | tell m k ih =>
      intro past
      simp only [run, ih past]
  | ask q k ih =>
      intro past
      simp only [run, hw past, ih _ (past ++ [q]), ih _ ([] ++ [q])]

theorem run_mapErr (world : List Q → Q → A) (r : E → F) (p : Prog M Q A E α) (past : List Q) :
    run world past (p.mapErr r) =
      ⟨(run world past p).trace, (run world past p).result.mapError r⟩ := by
  unfold mapErr
  rw [run_handle]
  obtain ⟨t, r'⟩ := run world past p
  cases r' <;> simp [run, Except.mapError]

theorem run_mapMsg (world : List Q → Q → A) (r : M → N) (p : Prog M Q A E α) :
    ∀ past : List Q,
      Event.messages (run world past (p.mapMsg r)).trace
        = (Event.messages (run world past p).trace).map r ∧
      Event.exchanges (run world past (p.mapMsg r)).trace
        = Event.exchanges (run world past p).trace ∧
      (run world past (p.mapMsg r)).result = (run world past p).result := by
  induction p with
  | ok a | fail e => intro past; exact ⟨rfl, rfl, rfl⟩
  | tell m k ih =>
      intro past
      obtain ⟨hm, hx, hr⟩ := ih past
      exact ⟨by simp [mapMsg, run, Event.messages, hm], hx, hr⟩
  | ask q k ih =>
      intro past
      obtain ⟨hm, hx, hr⟩ := ih (world past q) (past ++ [q])
      exact ⟨hm, by simp [mapMsg, run, Event.exchanges, hx], hr⟩

/-- Play programs one after the other, the world remembering. -/
def runAll (world : List Q → Q → A) : List Q → List (Prog M Q A E α) → List (Outcome M Q A E α)
  | _, [] => []
  | past, p :: ps =>
      let o := run world past p
      o :: runAll world (past ++ Event.queries o.trace) ps

theorem mem_runAll {world : List Q → Q → A} {o : Outcome M Q A E α} :
    ∀ {ps : List (Prog M Q A E α)} {past : List Q}, o ∈ runAll world past ps →
      ∃ p ∈ ps, ∃ past', o = run world past' p
  | p :: ps, past, h => by
      rcases List.mem_cons.mp h with rfl | h
      · exact ⟨p, List.mem_cons_self, past, rfl⟩
      · obtain ⟨q, hq, past', ho⟩ := mem_runAll h
        exact ⟨q, List.mem_cons_of_mem _ hq, past', ho⟩

/-- Whatever the answers, the program tells a message of which `P` holds. -/
inductive Tells (P : M → Prop) : Prog M Q A E α → Prop
  | now {m : M} {k : Prog M Q A E α} : P m → Tells P (.tell m k)
  | later {m : M} {k : Prog M Q A E α} : Tells P k → Tells P (.tell m k)
  | ask {q : Q} {k : A → Prog M Q A E α} : (∀ a, Tells P (k a)) → Tells P (.ask q k)

/-! ## The world of a machine -/

/-- The state of a machine after some queries. -/
def stateAfter {S : Type} (serve : S → Q → S × A) (s : S) (past : List Q) : S :=
  past.foldl (fun s q => (serve s q).1) s

/-- The world that a machine is, from a state on. -/
def worldOf {S : Type} (serve : S → Q → S × A) (s : S) : List Q → Q → A := fun past q =>
  (serve (stateAfter serve s past) q).2

/-! ## Two programs that differ in their queries -/

/-- The same messages and the same end, query for query, with corresponding
queries related by `R` and the same answers expected after them. -/
inductive SameBut (R : Q → Q → Prop) : Prog M Q A E α → Prog M Q A E α → Prop
  | ok (a : α) : SameBut R (.ok a) (.ok a)
  | fail (e : E) : SameBut R (.fail e) (.fail e)
  | tell (m : M) {k k' : Prog M Q A E α} : SameBut R k k' → SameBut R (.tell m k) (.tell m k')
  | ask {q q' : Q} {k k' : A → Prog M Q A E α} :
      R q q' → (∀ a, SameBut R (k a) (k' a)) → SameBut R (.ask q k) (.ask q' k')

theorem SameBut.refl {R : Q → Q → Prop} (hR : ∀ q, R q q) (p : Prog M Q A E α) :
    SameBut R p p := by
  induction p with
  | ok a => exact .ok a
  | fail e => exact .fail e
  | tell m k ih => exact .tell m ih
  | ask q k ih => exact .ask (hR q) ih

theorem SameBut.bind {R : Q → Q → Prop} {p p' : Prog M Q A E α} {f f' : α → Prog M Q A E β}
    (h : SameBut R p p') (hf : ∀ a, SameBut R (f a) (f' a)) :
    SameBut R (p >>= f) (p' >>= f') := by
  induction h with
  | ok a => exact hf a
  | fail e => exact .fail e
  | tell m _ ih => exact .tell m ih
  | ask hq _ ih => exact .ask hq ih

/-- Under worlds that answer related histories alike, the two runs tell the same
messages, get the same answers and end the same way. -/
theorem SameBut.run {R : Q → Q → Prop} {world world' : List Q → Q → A}
    {p p' : Prog M Q A E α} (h : SameBut R p p')
    (hw : ∀ past past' q q', List.Forall₂ R past past' → R q q' →
      world past q = world' past' q') :
    ∀ past past', List.Forall₂ R past past' →
      Event.messages (p.run world past).trace = Event.messages (p'.run world' past').trace ∧
      List.Forall₂ (fun x x' => R x.1 x'.1 ∧ x.2 = x'.2)
        (Event.exchanges (p.run world past).trace)
        (Event.exchanges (p'.run world' past').trace) ∧
      (p.run world past).result = (p'.run world' past').result := by
  induction h with
  | ok a => intro past past' _; exact ⟨rfl, .nil, rfl⟩
  | fail e => intro past past' _; exact ⟨rfl, .nil, rfl⟩
  | tell m _ ih =>
      intro past past' hp
      obtain ⟨hm, hx, hr⟩ := ih past past' hp
      exact ⟨by simp [Prog.run, Event.messages, hm], hx, hr⟩
  | @ask q q' k k' hq _ ih =>
      intro past past' hp
      have ha : world past q = world' past' q' := hw past past' q q' hp hq
      have hp' : List.Forall₂ R (past ++ [q]) (past' ++ [q']) :=
        List.rel_append (R := R) hp (.cons hq .nil)
      obtain ⟨hm, hx, hr⟩ := ih (world past q) (past ++ [q]) (past' ++ [q']) hp'
      simp only [Prog.run, ← ha]
      exact ⟨hm, .cons ⟨hq, rfl⟩ hx, hr⟩

/-! ## Two programs that go the same way -/

section Lockstep

variable {γ δ : Type} {RM : M → N → Prop} {RE : E → F → Prop} {RV : α → β → Prop}

/-- Two ends: values that are related, or errors that are. -/
inductive SameEnd (RE : E → F → Prop) (RV : α → β → Prop) : Except E α → Except F β → Prop
  | ok {a : α} {b : β} : RV a b → SameEnd RE RV (.ok a) (.ok b)
  | error {e : E} {f : F} : RE e f → SameEnd RE RV (.error e) (.error f)

/-- Message for message and query for query the two go the same way, as long as
the queries get the same answers; what they tell and how they end is related. -/
inductive Lockstep (RM : M → N → Prop) (RE : E → F → Prop) (RV : α → β → Prop) :
    Prog M Q A E α → Prog N Q A F β → Prop
  | ok {a : α} {b : β} : RV a b → Lockstep RM RE RV (.ok a) (.ok b)
  | fail {e : E} {f : F} : RE e f → Lockstep RM RE RV (.fail e) (.fail f)
  | tell {m : M} {n : N} {k : Prog M Q A E α} {k' : Prog N Q A F β} :
      RM m n → Lockstep RM RE RV k k' → Lockstep RM RE RV (.tell m k) (.tell n k')
  | ask (q q' : Q) {k : A → Prog M Q A E α} {k' : A → Prog N Q A F β} :
      (∀ a, Lockstep RM RE RV (k a) (k' a)) → Lockstep RM RE RV (.ask q k) (.ask q' k')

theorem Lockstep.bind {p : Prog M Q A E α} {p' : Prog N Q A F β} {RW : γ → δ → Prop}
    {f : α → Prog M Q A E γ} {f' : β → Prog N Q A F δ} (h : Lockstep RM RE RV p p')
    (hf : ∀ a b, RV a b → Lockstep RM RE RW (f a) (f' b)) :
    Lockstep RM RE RW (p >>= f) (p' >>= f') := by
  induction h with
  | ok hv => exact hf _ _ hv
  | fail he => exact .fail he
  | tell hm _ ih => exact .tell hm ih
  | ask q q' _ ih => exact .ask q q' ih

/-- With the same answers in the same order, related messages are told and the
ends are related. -/
theorem Lockstep.run {p : Prog M Q A E α} {p' : Prog N Q A F β} (h : Lockstep RM RE RV p p')
    (answers : Nat → A) : ∀ past past' : List Q, past.length = past'.length →
      List.Forall₂ RM (Event.messages (p.run (fun past _ => answers past.length) past).trace)
        (Event.messages (p'.run (fun past _ => answers past.length) past').trace) ∧
      SameEnd RE RV (p.run (fun past _ => answers past.length) past).result
        (p'.run (fun past _ => answers past.length) past').result := by
  induction h with
  | ok hv => intro past past' _; exact ⟨.nil, .ok hv⟩
  | fail he => intro past past' _; exact ⟨.nil, .error he⟩
  | tell hm _ ih =>
      intro past past' hp
      obtain ⟨hms, hend⟩ := ih past past' hp
      exact ⟨.cons hm hms, hend⟩
  | ask q q' _ ih =>
      intro past past' hp
      have hp' : (past ++ [q]).length = (past' ++ [q']).length := by simp [hp]
      obtain ⟨hms, hend⟩ := ih (answers past.length) (past ++ [q]) (past' ++ [q']) hp'
      simp only [Prog.run, ← hp]
      exact ⟨hms, hend⟩

end Lockstep

end Prog

end PkiExecutor
