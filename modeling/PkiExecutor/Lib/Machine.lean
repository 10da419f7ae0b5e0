/-
# `PkiExecutor.Lib.Machine` — machines that take steps

A machine has a state to start in and says what an event makes of a state, or
that the event cannot happen there.  What holds at the start and survives every
step holds in every reachable state (`invariant`); a machine whose steps are
steps of another, or nothing to it, reaches only states that the other reaches
(`Simulation.reachable`).  A record of what has happened neither adds nor loses
states (`withHistory`).

An unending run is for statements about what happens eventually.  Such a
statement needs an event that is bound to happen, and something that lasts until
it does: `Run.lasts`.
-/
import Mathlib.Data.List.GetD
import Mathlib.Order.Lattice.Nat
import Mathlib.Tactic.Common

namespace PkiExecutor

/-- A deterministic machine over events, some of which may be impossible in a state. -/
structure Machine (σ ε : Type) where
  init : σ
  /-- The state after an event; `none` where it cannot happen. -/
  step : σ → ε → Option σ

namespace Machine

variable {σ ε τ δ : Type}

/-- The state after a list of events. -/
def run (M : Machine σ ε) : σ → List ε → Option σ
  | s, [] => some s
  | s, e :: es => (M.step s e).bind fun s' => M.run s' es

/-- A state that some events lead to. -/
inductive Reachable (M : Machine σ ε) : σ → Prop
  | init : Reachable M M.init
  | step {s s' : σ} {e : ε} : Reachable M s → M.step s e = some s' → Reachable M s'

variable {M : Machine σ ε}

/-- What holds at the start and survives every step holds of every reachable
state; the state before the step may be taken to be reachable. -/
theorem invariant {I : σ → Prop} (h0 : I M.init)
    (hstep : ∀ s e s', M.Reachable s → I s → M.step s e = some s' → I s') {s : σ}
    (h : M.Reachable s) : I s := by
  induction h with
  | init => exact h0
  | step hs he ih => exact hstep _ _ _ hs ih he

theorem Reachable.run : ∀ {es : List ε} {s s' : σ}, M.Reachable s → M.run s es = some s' →
    M.Reachable s'
  | [], s, s', h, hr => by
      cases hr
      exact h
  | e :: es, s, s', h, hr => by
      obtain ⟨t, ht, hr⟩ := Option.bind_eq_some_iff.mp hr
      exact (h.step ht).run hr

theorem run_keeps {I : σ → Prop} (hstep : ∀ s e s', I s → M.step s e = some s' → I s') :
    ∀ {es : List ε} {s s' : σ}, I s → M.run s es = some s' → I s'
  | [], s, s', h, hr => by
      cases hr
      exact h
  | e :: es, s, s', h, hr => by
      obtain ⟨t, ht, hr⟩ := Option.bind_eq_some_iff.mp hr
      exact run_keeps hstep (hstep s e t h ht) hr

theorem run_append (es es' : List ε) : ∀ s : σ,
    M.run s (es ++ es') = (M.run s es).bind fun s' => M.run s' es' := by
  induction es with
  | nil => intro s; rfl
  | cons e es ih =>
      intro s
      show (M.step s e).bind _ = ((M.step s e).bind _).bind _
      rw [Option.bind_assoc]
      congr 1
      funext s'
      exact ih s'

/-! ## One machine seen through another -/

/-- Every step of `M` is, seen through `abs`, a step of `N` or none. -/
structure Simulation (M : Machine σ ε) (N : Machine τ δ) where
  abs : σ → τ
  init : abs M.init = N.init
  step : ∀ s e s', M.step s e = some s' →
    abs s' = abs s ∨ ∃ d, N.step (abs s) d = some (abs s')

theorem Simulation.reachable {N : Machine τ δ} (f : Simulation M N) {s : σ}
    (h : M.Reachable s) : N.Reachable (f.abs s) := by
  induction h with
  | init =>
      rw [f.init]
      exact .init
  | @step s s' e _ he ih =>
      rcases f.step s e s' he with heq | ⟨d, hd⟩
      · rw [heq]
        exact ih
      · exact ih.step hd

/-! ## History -/

section History

variable {γ : Type} {h : γ} {record : σ → ε → σ → γ → γ}

/-- The machine with a record of what has happened in it; it never reads it. -/
def withHistory (M : Machine σ ε) (h : γ) (record : σ → ε → σ → γ → γ) : Machine (σ × γ) ε :=
  ⟨(M.init, h), fun p e => (M.step p.1 e).map fun s' => (s', record p.1 e s' p.2)⟩

theorem step_withHistory {p p' : σ × γ} {e : ε}
    (hs : (M.withHistory h record).step p e = some p') :
    M.step p.1 e = some p'.1 ∧ p'.2 = record p.1 e p'.1 p.2 := by
  obtain ⟨s', hs', rfl⟩ := Option.map_eq_some_iff.mp hs
  exact ⟨hs', rfl⟩

/-- Recording adds no states. -/
def forgetHistory : Simulation (M.withHistory h record) M where
  abs := Prod.fst
  init := rfl
  step _ e _ hs := .inr ⟨e, (step_withHistory hs).1⟩

/-- Recording loses none. -/
theorem Reachable.recorded {s : σ} (hs : M.Reachable s) :
    ∃ g, (M.withHistory h record).Reachable (s, g) := by
  induction hs with
  | init => exact ⟨h, .init⟩
  | @step s s' e _ he ih =>
      obtain ⟨g, hg⟩ := ih
      refine ⟨record s e s' g, hg.step (e := e) ?_⟩
      show (M.step s e).map _ = _
      rw [he]
      rfl

end History

/-! ## Unending runs -/

/-- An unending run. -/
structure Run (M : Machine σ ε) where
  state : Nat → σ
  event : Nat → ε
  start : state 0 = M.init
  next : ∀ n, M.step (state n) (event n) = some (state (n + 1))

namespace Run

theorem reachable (r : M.Run) : ∀ n, M.Reachable (r.state n)
  | 0 => by
      rw [r.start]
      exact .init
  | n + 1 => (reachable r n).step (r.next n)

/-- What lasts until an event of the kind `T`, and such an event being bound to
happen, there is one that finds it still so. -/
theorem lasts {P : σ → Prop} {T : Nat → Prop} (r : M.Run) {n : Nat} (hP : P (r.state n))
    (hT : ∃ m, n ≤ m ∧ T m)
    (hkeep : ∀ k, n ≤ k → P (r.state k) → ¬ T k → P (r.state (k + 1))) :
    ∃ m, n ≤ m ∧ T m ∧ P (r.state m) := by
  classical
  obtain ⟨hn, hTm⟩ := Nat.find_spec hT
  refine ⟨Nat.find hT, hn, hTm, ?_⟩
  -- up to the first such event nothing has ended it
  have hbefore : ∀ k, n ≤ k → k ≤ Nat.find hT → P (r.state k) := by
    intro k hk
    induction k, hk using Nat.le_induction with
    | base => intro _; exact hP
    | succ k hk ih =>
        intro hlt
        have hnot : ¬ T k := fun h => Nat.find_min hT (by omega) ⟨hk, h⟩
        exact hkeep k hk (ih (by omega)) hnot
  exact hbefore _ hn le_rfl

/-- The run that plays some events and then repeats one that changes nothing. -/
def settling (events : List ε) (idle : ε) (hplay : (M.run M.init events).isSome = true)
    (hidle : ∀ s, M.step s idle = some s) : M.Run where
  state n := (M.run M.init (events.take n)).getD ((M.run M.init events).get hplay)
  event n := events.getD n idle
  start := rfl
  next n := by
    have hrun : M.run M.init events = some ((M.run M.init events).get hplay) :=
      (Option.some_get hplay).symm
    generalize (M.run M.init events).get hplay = s at hrun
    rcases Nat.lt_or_ge n events.length with h | h
    · have hsplit : events = events.take n ++ (events[n] :: events.drop (n + 1)) := by simp
      rw [hsplit, run_append] at hrun
      obtain ⟨t, ht, hrest⟩ := Option.bind_eq_some_iff.mp hrun
      obtain ⟨t', ht', -⟩ := Option.bind_eq_some_iff.mp hrest
      have htake : events.take (n + 1) = events.take n ++ [events[n]] := by simp
      have hnext : M.run M.init (events.take (n + 1)) = some t' := by
        rw [htake, run_append, ht]
        show (M.step t events[n]).bind (fun s' => some s') = some t'
        rw [ht']
        rfl
      rw [ht, hnext, List.getD_eq_getElem _ _ h]
      exact ht'
    · rw [List.take_of_length_le h, List.take_of_length_le (by omega), hrun,
        List.getD_eq_default _ _ h]
      exact hidle s

theorem settling_state {events : List ε} {idle : ε}
    {hplay : (M.run M.init events).isSome = true} {hidle : ∀ s, M.step s idle = some s} {n : Nat}
    (hn : events.length ≤ n) :
    (settling events idle hplay hidle).state n =
      (settling events idle hplay hidle).state events.length := by
  show (M.run M.init (events.take n)).getD _ = (M.run M.init (events.take events.length)).getD _
  rw [List.take_of_length_le hn, List.take_length]

theorem settling_forall {events : List ε} {idle : ε}
    {hplay : (M.run M.init events).isSome = true} {hidle : ∀ s, M.step s idle = some s}
    {φ : σ → Bool}
    (h : ∀ k, k ≤ events.length → (M.run M.init (events.take k)).map φ = some true) (n : Nat) :
    φ ((settling events idle hplay hidle).state n) = true := by
  have hevents : ∀ k, k ≤ events.length →
      φ ((settling events idle hplay hidle).state k) = true := by
    intro k hk
    obtain ⟨t, ht, hφ⟩ := Option.map_eq_some_iff.mp (h k hk)
    show φ ((M.run M.init (events.take k)).getD _) = true
    rw [ht]
    exact hφ
  rcases Nat.le_total n events.length with hn | hn
  · exact hevents n hn
  · rw [settling_state hn]
    exact hevents _ le_rfl

end Run

end Machine

end PkiExecutor
