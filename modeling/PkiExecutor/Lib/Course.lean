/-
# `PkiExecutor.Lib.Course` — scripts that run at the same time

A script as a tree of its commands.  A command is taken at once: it finds a state, makes
something of it, and the script goes on from what it has found; or it fails and changes
nothing.  Between two commands others may do something.

`T.machine` runs any number of such scripts: one may be started, any of them may take its
next command or have it fail, and the others may act, in any order.

What a run can count on between its commands is its `Pact`: what everybody else may do to
the state (`rely`), and what each of its own commands does to it (`pledge`).
`p.Behaves pact Q E s` says of every way to play `p` from `s` among others who keep to the
pact that its commands keep to it as well, and that it ends as `Q` or, with an error, as
`E` says, and remains so.  There is a rule for each way to build a script.  Where the
pacts of the runs fit together (`Agrees`) they all behave so (`Agrees.behaves`), and what
everybody's pledge keeps holds in every reachable state (`Agrees.keeps`).
-/
import PkiExecutor.Lib.Machine
import PkiExecutor.Lib.Table

namespace PkiExecutor

variable {σ α β κ ε : Type}

/-- What is left of a script. -/
inductive Course (σ α : Type) : Type
  | value (a : α)
  | error (e : String)
  /-- what the command makes of a state, how the script goes on from what it has found
  there, and how if the command fails -/
  | command (run : σ → σ) (next : σ → Course σ α) (broken : String → Course σ α)

namespace Course

/-- One course after another. -/
def bind : Course σ α → (α → Course σ β) → Course σ β
  | .value a, f => f a
  | .error e, _ => .error e
  | .command run next broken, f =>
      .command run (fun s => (next s).bind f) fun e => (broken e).bind f

instance : Monad (Course σ) where
  pure := .value
  bind := bind

/-- A command that may find that it cannot do what it is to do. -/
def perform (f : σ → Except String (α × σ)) : Course σ α :=
  .command
    (fun s => match f s with
      | .ok (_, s') => s'
      | .error _ => s)
    (fun s => match f s with
      | .ok (a, _) => .value a
      | .error e => .error e)
    .error

/-- A command that only looks. -/
def look (f : σ → α) : Course σ α := perform fun s => .ok (f s, s)

/-- The error of a script as a value. -/
def caught : Course σ α → Course σ (Except String α)
  | .value a => .value (.ok a)
  | .error e => .value (.error e)
  | .command run next broken => .command run (fun s => (next s).caught) fun e => (broken e).caught

end Course

/-- What a run relies on, and what it promises. -/
structure Pact (σ : Type) where
  rely : σ → σ → Prop
  pledge : σ → σ → Prop
  rely_refl : ∀ s, rely s s
  rely_trans : ∀ {s s' s''}, rely s s' → rely s' s'' → rely s s''
  pledge_refl : ∀ s, pledge s s

/-- What others do leaves it true. -/
def Pact.Stable (pact : Pact σ) (P : σ → Prop) : Prop := ∀ s s', pact.rely s s' → P s → P s'

namespace Course

/-- How a script behaves among others. -/
def Behaves (pact : Pact σ) (Q : α → σ → Prop) (E : String → σ → Prop) : Course σ α → σ → Prop
  | .value a, s => ∀ s', pact.rely s s' → Q a s'
  | .error e, s => ∀ s', pact.rely s s' → E e s'
  | .command run next broken, s => ∀ s', pact.rely s s' →
      pact.pledge s' (run s') ∧ (next s').Behaves pact Q E (run s') ∧
        ∀ e, (broken e).Behaves pact Q E s'

section Rules

variable {pact : Pact σ} {P : σ → Prop} {Q Q' : α → σ → Prop} {E E' : String → σ → Prop}
  {p : Course σ α} {s s' : σ}

/-- Whatever the others have done, the script goes on to behave so. -/
theorem Behaves.stable (h : p.Behaves pact Q E s) (hr : pact.rely s s') :
    p.Behaves pact Q E s' := by
  cases p with
  | value a => exact fun s'' hr' => h s'' (pact.rely_trans hr hr')
  | error e => exact fun s'' hr' => h s'' (pact.rely_trans hr hr')
  | command run next broken => exact fun s'' hr' => h s'' (pact.rely_trans hr hr')

theorem Behaves.value {a : α} (hQ : pact.Stable (Q a)) (h : Q a s) :
    (Course.value a : Course σ α).Behaves pact Q E s := fun _ hr => hQ _ _ hr h

theorem Behaves.error {e : String} (hE : pact.Stable (E e)) (h : E e s) :
    (Course.error e : Course σ α).Behaves pact Q E s := fun _ hr => hE _ _ hr h

theorem Behaves.mono (hQ : ∀ a s, Q a s → Q' a s) (hE : ∀ e s, E e s → E' e s) :
    ∀ {p : Course σ α} {s : σ}, p.Behaves pact Q E s → p.Behaves pact Q' E' s
  | .value a, _, h => fun s' hr => hQ a s' (h s' hr)
  | .error e, _, h => fun s' hr => hE e s' (h s' hr)
  | .command _ _ _, _, h => fun s' hr =>
      have ⟨hpledge, hnext, hbroken⟩ := h s' hr
      ⟨hpledge, hnext.mono hQ hE, fun e => (hbroken e).mono hQ hE⟩

theorem Behaves.bind {R : β → σ → Prop} {f : α → Course σ β} :
    ∀ {p : Course σ α} {s : σ}, p.Behaves pact (fun a s => (f a).Behaves pact R E s) E s →
      (p.bind f).Behaves pact R E s
  | .value _, s, h => h s (pact.rely_refl s)
  | .error _, _, h => h
  | .command _ _ _, _, h => fun s' hr =>
      have ⟨hpledge, hnext, hbroken⟩ := h s' hr
      ⟨hpledge, hnext.bind, fun e => (hbroken e).bind⟩

theorem Behaves.caught {R : Except String α → σ → Prop} :
    ∀ {p : Course σ α} {s : σ},
      p.Behaves pact (fun a s => R (.ok a) s) (fun e s => R (.error e) s) s →
      p.caught.Behaves pact R E s
  | .value _, _, h => h
  | .error _, _, h => h
  | .command _ _ _, _, h => fun s' hr =>
      have ⟨hpledge, hnext, hbroken⟩ := h s' hr
      ⟨hpledge, hnext.caught, fun e => (hbroken e).caught⟩

/-- A command: what is known before it must be stable, and so must what it ends in. -/
theorem Behaves.perform {f : σ → Except String (α × σ)} (hP : pact.Stable P) (h : P s)
    (hQ : ∀ a, pact.Stable (Q a)) (hE : ∀ e, pact.Stable (E e)) (hfault : ∀ e s, P s → E e s)
    (hok : ∀ s a s', P s → f s = .ok (a, s') → pact.pledge s s' ∧ Q a s') :
    (Course.perform f).Behaves pact Q E s := by
  intro s' hr
  have hs' := hP s s' hr h
  have hbroken : ∀ e, (Course.error e : Course σ α).Behaves pact Q E s' :=
    fun e => .error (hE e) (hfault e s' hs')
  cases hf : f s' with
  | error e =>
      simp only [hf]
      exact ⟨pact.pledge_refl s', hbroken e, hbroken⟩
  | ok r =>
      obtain ⟨a, s''⟩ := r
      obtain ⟨hpledge, hend⟩ := hok s' a s'' hs' hf
      simp only [hf]
      exact ⟨hpledge, .value (hQ a) hend, hbroken⟩

theorem Behaves.look {f : σ → α} (hP : pact.Stable P) (h : P s) (hQ : ∀ a, pact.Stable (Q a))
    (hE : ∀ e, pact.Stable (E e)) (hfault : ∀ e s, P s → E e s) (hok : ∀ s, P s → Q (f s) s) :
    (Course.look f).Behaves pact Q E s := by
  refine .perform hP h hQ hE hfault ?_
  intro s a s' hs hf
  cases hf
  exact ⟨pact.pledge_refl s, hok s hs⟩

end Rules

end Course

/-! ## Runs that are interleaved -/

/-- The script of each run, by its number and by what was called, and what others do. -/
structure Team (σ κ ε α : Type) where
  course : Nat → κ → Course σ α
  other : ε → σ → σ

/-- The shared state, with the runs of a team. -/
structure TeamState (σ κ α : Type) where
  state : σ
  /-- what was called, and what is left of the run -/
  runs : List (κ × Course σ α)

/-- Whose turn it is: a run begins, goes on or fails, or others do something. -/
inductive TeamEvent (κ ε : Type)
  | call (c : κ)
  /-- run `i` takes its next command -/
  | next (i : Nat)
  /-- the next command of run `i` fails -/
  | broken (i : Nat) (e : String)
  | other (e : ε)

namespace Team

variable (T : Team σ κ ε α)

/-- One step of the team. -/
def step (t : TeamState σ κ α) : TeamEvent κ ε → Option (TeamState σ κ α)
  | .call c => some { t with runs := t.runs ++ [(c, T.course t.runs.length c)] }
  | .next i =>
      match t.runs[i]? with
      | some (c, .command run next _) =>
          some ⟨run t.state, t.runs.set i (c, next t.state)⟩
      | _ => none
  | .broken i e =>
      match t.runs[i]? with
      | some (c, .command _ _ broken) => some { t with runs := t.runs.set i (c, broken e) }
      | _ => none
  | .other e => some { t with state := T.other e t.state }

/-- The team as a machine. -/
def machine (start : σ) : Machine (TeamState σ κ α) (TeamEvent κ ε) := ⟨⟨start, []⟩, T.step⟩

/-- The pacts fit together; a run that has not begun finds what it begins with. -/
structure Agrees (pact : Nat → Pact σ) (Fresh : Nat → σ → Prop) (Q : Nat → κ → α → σ → Prop)
    (E : Nat → κ → String → σ → Prop) : Prop where
  apart : ∀ i j s s', i ≠ j → (pact i).pledge s s' → (pact j).rely s s'
  other : ∀ e j s, (pact j).rely s (T.other e s)
  fresh : ∀ i, (pact i).Stable (Fresh i)
  course : ∀ i c s, Fresh i s → (T.course i c).Behaves (pact i) (Q i c) (E i c) s

variable {T} {pact : Nat → Pact σ} {Fresh : Nat → σ → Prop} {Q : Nat → κ → α → σ → Prop}
  {E : Nat → κ → String → σ → Prop} {t t' : TeamState σ κ α}

/-- All runs behave, and those to come will find what they need. -/
structure Behaves (pact : Nat → Pact σ) (Fresh : Nat → σ → Prop) (Q : Nat → κ → α → σ → Prop)
    (E : Nat → κ → String → σ → Prop) (t : TeamState σ κ α) : Prop where
  runs : ∀ (i : Nat) (r : κ × Course σ α), t.runs[i]? = some r →
      r.2.Behaves (pact i) (Q i r.1) (E i r.1) t.state
  fresh : ∀ i, t.runs.length ≤ i → Fresh i t.state

namespace Agrees

theorem behaves_set (h : T.Agrees pact Fresh Q E) (hb : Behaves pact Fresh Q E t) {i : Nat}
    {c : κ} {p : Course σ α} (hi : i < t.runs.length) {s' : σ}
    (hpledge : (pact i).pledge t.state s')
    (hp : p.Behaves (pact i) (Q i c) (E i c) s') :
    Behaves pact Fresh Q E ⟨s', t.runs.set i (c, p)⟩ := by
  constructor
  · intro j r hr
    rcases Table.getElem?_set hr with ⟨rfl, rfl⟩ | ⟨hj, hr⟩
    · exact hp
    · exact (hb.runs j r hr).stable (h.apart i j _ _ (Ne.symm hj) hpledge)
  · intro j hj
    have hj : t.runs.length ≤ j := by simpa using hj
    exact h.fresh j _ _ (h.apart i j _ _ (by omega) hpledge) (hb.fresh j hj)

/-- One step: what it does to the state is what one run has promised, or others have
done it, or nothing. -/
theorem behaves_step (h : T.Agrees pact Fresh Q E) (hb : Behaves pact Fresh Q E t)
    {e : TeamEvent κ ε} (hs : T.step t e = some t') :
    Behaves pact Fresh Q E t' ∧ (t'.state = t.state ∨ (∃ i, (pact i).pledge t.state t'.state) ∨
      ∃ e, t'.state = T.other e t.state) := by
  cases e with
  | call c =>
      cases hs
      refine ⟨⟨fun i r hr => ?_, fun i hi => hb.fresh i ?_⟩, .inl rfl⟩
      · rcases Table.getElem?_concat hr with hr | ⟨rfl, rfl⟩
        · exact hb.runs i r hr
        · exact h.course _ c _ (hb.fresh _ (Nat.le_refl _))
      · rw [List.length_append] at hi
        exact Nat.le_of_add_right_le hi
  | next i =>
      simp only [step] at hs
      split at hs
      · rename_i c run next broken hr
        cases hs
        obtain ⟨hpledge, hnext, -⟩ := hb.runs i _ hr t.state ((pact i).rely_refl _)
        have hi := (List.getElem?_eq_some_iff.mp hr).1
        exact ⟨h.behaves_set hb hi hpledge hnext, .inr (.inl ⟨i, hpledge⟩)⟩
      · cases hs
  | broken i e =>
      simp only [step] at hs
      split at hs
      · rename_i c run next broken hr
        cases hs
        obtain ⟨-, -, hbroken⟩ := hb.runs i _ hr t.state ((pact i).rely_refl _)
        have hi := (List.getElem?_eq_some_iff.mp hr).1
        exact ⟨h.behaves_set hb hi ((pact i).pledge_refl _) (hbroken e), .inl rfl⟩
      · cases hs
  | other e =>
      cases hs
      refine ⟨⟨fun i r hr => (hb.runs i r hr).stable (h.other e i t.state), fun i hi => ?_⟩,
        .inr (.inr ⟨e, rfl⟩)⟩
      exact h.fresh i _ _ (h.other e i t.state) (hb.fresh i hi)

theorem behaves (h : T.Agrees pact Fresh Q E) {start : σ} (h0 : ∀ i, Fresh i start)
    (ht : (T.machine start).Reachable t) : Behaves pact Fresh Q E t := by
  refine Machine.invariant (I := fun t => Behaves pact Fresh Q E t) ?_ ?_ ht
  · exact ⟨fun i r hr => (by cases hr), fun i _ => h0 i⟩
  · exact fun t e t' _ hb hs => (h.behaves_step hb hs).1

theorem ended (h : T.Agrees pact Fresh Q E) {start : σ} (h0 : ∀ i, Fresh i start)
    (ht : (T.machine start).Reachable t) {i : Nat} {c : κ} {a : α}
    (hr : t.runs[i]? = some (c, .value a)) : Q i c a t.state :=
  (h.behaves h0 ht).runs i _ hr _ ((pact i).rely_refl _)

/-- What every pledge keeps, and what others do, holds in every reachable state. -/
theorem keeps (h : T.Agrees pact Fresh Q E) {start : σ} (h0 : ∀ i, Fresh i start) {I : σ → Prop}
    (hI : I start) (hpledge : ∀ i s s', (pact i).pledge s s' → I s → I s')
    (hother : ∀ e s, I s → I (T.other e s)) (ht : (T.machine start).Reachable t) : I t.state := by
  refine Machine.invariant (I := fun t : TeamState σ κ α => I t.state) hI ?_ ht
  intro t e t' ht hIt hs
  rcases (h.behaves_step (h.behaves h0 ht) hs).2 with hsame | ⟨i, hp⟩ | ⟨e, he⟩
  · rw [hsame]
    exact hIt
  · exact hpledge i _ _ hp hIt
  · rw [he]
    exact hother e _ hIt

end Agrees

end Team

end PkiExecutor
