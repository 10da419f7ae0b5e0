/-
# `PkiExecutor.Lib.LeadsTo` — what leads to what along an unending run

`r.LeadsTo N P Q`: whenever from the `N`-th state on `P` holds, `Q` holds then or
later.  An event that is bound to happen gives one such fact: what lasts until it
happens leads to what it makes of it (`leadsTo_of_event`), and where the event alone
says enough nothing has to last (`leadsTo_of_forced`).  Facts are chained (`trans`),
joined by cases (`or`) and repeated as long as a number gets smaller (`variant`).
-/
import PkiExecutor.Lib.Machine

namespace PkiExecutor.Machine.Run

variable {σ ε : Type} {M : Machine σ ε}

/-- From some point on, wherever `P` holds `Q` holds then or later. -/
def LeadsTo (r : M.Run) (N : Nat) (P Q : σ → Prop) : Prop :=
  ∀ n, N ≤ n → P (r.state n) → ∃ m, n ≤ m ∧ Q (r.state m)

variable {r : M.Run} {N : Nat} {P Q R : σ → Prop}

namespace LeadsTo

theorem trans (hpq : r.LeadsTo N P Q) (hqr : r.LeadsTo N Q R) : r.LeadsTo N P R := by
  intro n hn hP
  obtain ⟨m, hnm, hQ⟩ := hpq n hn hP
  obtain ⟨k, hmk, hR⟩ := hqr m (Nat.le_trans hn hnm) hQ
  exact ⟨k, Nat.le_trans hnm hmk, hR⟩

/-- What leads to the goal, or back to itself with a smaller number, leads to the goal. -/
theorem variant {f : σ → Nat}
    (h : ∀ v, r.LeadsTo N (fun s => P s ∧ f s = v) fun s => Q s ∨ P s ∧ f s < v) :
    r.LeadsTo N P Q := by
  have hvalue : ∀ v n, N ≤ n → P (r.state n) → f (r.state n) = v →
      ∃ m, n ≤ m ∧ Q (r.state m) := by
    intro v
    induction v using Nat.strong_induction_on with
    | _ v ih =>
        intro n hn hP hv
        obtain ⟨m, hnm, hQ | ⟨hP', hlt⟩⟩ := h v n hn ⟨hP, hv⟩
        · exact ⟨m, hnm, hQ⟩
        · obtain ⟨k, hmk, hQ⟩ := ih _ hlt m (Nat.le_trans hn hnm) hP' rfl
          exact ⟨k, Nat.le_trans hnm hmk, hQ⟩
  exact fun n hn hP => hvalue _ n hn hP rfl

end LeadsTo

/-- What every step keeps is kept from one state to every later one. -/
theorem keeps (hstep : ∀ n, N ≤ n → P (r.state n) → P (r.state (n + 1))) {n m : Nat} (hN : N ≤ n)
    (hnm : n ≤ m) (hP : P (r.state n)) : P (r.state m) := by
  induction m, hnm using Nat.le_induction with
  | base => exact hP
  | succ k hk ih => exact hstep k (Nat.le_trans hN hk) ih

theorem LeadsTo.and_stable (h : r.LeadsTo N P Q)
    (hstep : ∀ n, N ≤ n → R (r.state n) → R (r.state (n + 1))) :
    r.LeadsTo N (fun s => P s ∧ R s) fun s => Q s ∧ R s := by
  rintro n hn ⟨hP, hR⟩
  obtain ⟨m, hnm, hQ⟩ := h n hn hP
  exact ⟨m, hnm, hQ, keeps hstep hn hnm hR⟩

/-- An event that is bound to happen, after which `Q` holds wherever it finds the run. -/
theorem leadsTo_of_forced {T : Nat → Prop}
    (hT : ∀ n, N ≤ n → P (r.state n) → ∃ m, n ≤ m ∧ T m)
    (hdo : ∀ k, N ≤ k → T k → Q (r.state (k + 1))) : r.LeadsTo N P Q := by
  intro n hn hP
  obtain ⟨m, hnm, hTm⟩ := hT n hn hP
  exact ⟨m + 1, by omega, hdo m (Nat.le_trans hn hnm) hTm⟩

theorem leadsTo_of_event {T : Nat → Prop}
    (hT : ∀ n, N ≤ n → P (r.state n) → ∃ m, n ≤ m ∧ T m)
    (hkeep : ∀ k, N ≤ k → P (r.state k) → ¬ T k → P (r.state (k + 1)))
    (hdo : ∀ k, N ≤ k → P (r.state k) → T k → Q (r.state (k + 1))) : r.LeadsTo N P Q := by
  intro n hn hP
  obtain ⟨m, hnm, hTm, hPm⟩ :=
    r.lasts hP (hT n hn hP) fun k hk hPk hnot => hkeep k (Nat.le_trans hn hk) hPk hnot
  exact ⟨m + 1, by omega, hdo m (Nat.le_trans hn hnm) hPm hTm⟩

end PkiExecutor.Machine.Run
