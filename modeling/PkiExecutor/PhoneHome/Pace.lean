/-
# `PkiExecutor.PhoneHome.Pace` — how often the agent can dial

Whatever the network and the backend do, the agent sleeps after every return of
`connect_once`: at least a second, and five minutes where another agent has taken
its place.  So over any stretch of a run the number of dials is bounded by the
seconds that pass (`dials_paced`), and two agents with one identity cannot put each
other out more often than once in five minutes each.
-/
import Mathlib
import PkiExecutor.PhoneHome.Backoff

namespace PkiExecutor

namespace LoopState

variable {toText : OutboundProgress → Option String} {s s' : LoopState} {e : LoopEvent}

/-- The end of the sleep that is going on, or the present. -/
def free (s : LoopState) : Nat := s.now + s.pause

theorem pause_of_online (ho : s.online = true) : s.pause = 0 := by
  cases hc : s.control with
  | sleeping t => simp [online, hc] at ho
  | dialing | writing _ | selecting | pinging => simp [pause, hc]

theorem pause_of_dialing (hc : s.control = .dialing) : s.pause = 0 := by
  simp [pause, hc]

theorem free_of_returned {r : Option ConnectionEnd} (hs : s.step toText e = some s')
    (hr : s.returned e = some r) :
    s.pause = 0 ∧ s'.now = s.now ∧ s'.pause = (s.backoff r).2 * 1000 := by
  have hpause : s.pause = 0 := by
    rcases at_of_returned hr with ⟨hc, -⟩ | ho
    · exact pause_of_dialing hc
    · exact pause_of_online ho
  obtain ⟨t, rfl, hback, -, hnow⟩ := step_of_returned hs hr
  refine ⟨hpause, hnow, ?_⟩
  show t.now + (t.backoff r).2 * 1000 - t.now = _
  rw [hback, Nat.add_sub_cancel_left]

theorem free_of_not_returned (hs : s.step toText e = some s') (hr : s.returned e = none) :
    s.now ≤ s'.now ∧ s.free ≤ s'.free := by
  cases step_cases hs with
  | enqueue _ | arrive _ _ => exact ⟨Nat.le_refl _, Nat.le_refl _⟩
  | elapse ms =>
      refine ⟨Nat.le_add_right _ ms, ?_⟩
      cases hc : s.control with
      | sleeping t => simp only [free, pause, hc]; omega
      | dialing | writing _ | selecting | pinging => simp [free, pause, hc]
  | connected hc =>
      obtain ⟨ho, hnow⟩ := connected_socket toText s
      simp only [free, pause_of_dialing hc, pause_of_online ho, hnow]
      exact ⟨Nat.le_refl _, Nat.le_refl _⟩
  | refused hc => simp [returned, hc] at hr
  | @read item inbox hc hi =>
      rw [returned_read hc hi] at hr
      rw [received_eq, hr]
      exact ⟨Nat.le_refl _, Nat.le_refl _⟩
  | @recv msg rx hc hi =>
      obtain ⟨ho, -, hnow⟩ := sendProgress_socket toText { s with rx } msg
      simp only [free, pause_of_online (online_of_selecting hc), pause_of_online ho, hnow]
      exact ⟨Nat.le_refl _, Nat.le_refl _⟩
  | tick hc => simp [free, pause, hc]
  | accepted hc => simp [free, pause, hc]
  | pinged hc => simp [free, pause, hc]
  | parked hc =>
      rw [returned_wrote (online_of_writing hc)] at hr
      cases hr
  | pingLost hc =>
      rw [returned_wrote (online_of_pinging hc)] at hr
      cases hr
  | wake hc hn =>
      refine ⟨Nat.le_refl _, ?_⟩
      simp only [free, pause, hc]
      omega

/-- The delays of a return: five minutes after a takeover, else at least a second. -/
theorem backoff_secs (s : LoopState) (r : Option ConnectionEnd) :
    1 ≤ (s.backoff r).2 ∧ (r = some .superseded → (s.backoff r).2 = supersededDelaySecs) := by
  have hone : ∀ n, 1 ≤ reconnectDelay n := by
    intro n
    rw [← reconnectDelay_min]
    have hall : ∀ i < 5, 1 ≤ reconnectDelay i := by decide
    exact hall _ (by omega)
  cases r with
  | none => exact ⟨hone _, fun h => by cases h⟩
  | some c =>
      cases c with
      | normal => exact ⟨hone _, fun h => by cases h⟩
      | superseded => exact ⟨Nat.le_of_ble_eq_true rfl, fun _ => rfl⟩

end LoopState

/-! ## Counting -/

/-- `connect_once` gets an answer to its dial. -/
def LoopEvent.isDial : LoopEvent → Bool
  | .dialed _ => true
  | _ => false

/-- A connection that is up counts as one return to come. -/
def LoopState.open_ (s : LoopState) : Nat := if s.online then 1 else 0

theorem LoopState.dial_counts {toText : OutboundProgress → Option String} {s s' : LoopState}
    {e : LoopEvent} (hs : s.step toText e = some s') :
    (if e.isDial then 1 else 0) + s.open_ =
      (if (s.returned e).isSome then 1 else 0) + s'.open_ := by
  cases step_cases hs with
  | enqueue _ | elapse _ => rfl
  | arrive _ _ => rfl
  | connected hc =>
      have hoff : s.online = false := by simp [online, hc]
      simp [LoopEvent.isDial, returned, open_, hoff, (connected_socket toText s).1]
  | refused hc => simp [LoopEvent.isDial, returned, open_, online, hc, disconnect]
  | @read item inbox hc hi =>
      rw [returned_read hc hi, received_eq]
      cases hr : item.ended with
      | none => simp [LoopEvent.isDial, open_, online, hc]
      | some r => simp [LoopEvent.isDial, open_, online, hc, disconnect]
  | @recv msg rx hc hi =>
      simp [LoopEvent.isDial, returned, open_, online_of_selecting hc,
        (sendProgress_socket toText { s with rx } msg).1]
  | tick hc => simp [LoopEvent.isDial, returned, open_, online, hc]
  | accepted hc => simp [LoopEvent.isDial, returned, open_, online, hc]
  | parked hc => simp [LoopEvent.isDial, returned, open_, online, hc, disconnect]
  | pinged hc => simp [LoopEvent.isDial, returned, open_, online, hc]
  | pingLost hc => simp [LoopEvent.isDial, returned, open_, online, hc, disconnect]
  | wake hc _ => simp [LoopEvent.isDial, returned, open_, online, hc]

theorem mul_countP_le_sum {α : Type} {f : α → Bool} {g : α → Nat} {c : Nat} :
    ∀ {l : List α}, (∀ x ∈ l, f x = true → c ≤ g x) → c * l.countP f ≤ (l.map g).sum
  | [], _ => Nat.le_refl 0
  | x :: l, h => by
      rw [List.forall_mem_cons] at h
      have ih := mul_countP_le_sum h.2
      rw [List.map_cons, List.sum_cons]
      cases hx : f x with
      | false =>
          rw [List.countP_cons_of_neg (by simp [hx])]
          omega
      | true =>
          rw [List.countP_cons_of_pos hx, Nat.mul_succ]
          have := h.1 hx
          omega

/-! ## A stretch of a run -/

section Stretch

variable {toText : OutboundProgress → Option String} {q p : LoopState × LoopHistory}

/-- How long the loop slept after a return. -/
def Ended.Slept (x : Ended) : Prop :=
  1000 ≤ x.slept ∧ (x.superseded = true → x.slept = supersededDelaySecs * 1000)

/-- What has been recorded since `q`: the sleeps after all these returns but the last
one lie between then and now. -/
structure Since (q p : LoopState × LoopHistory) (newer : List Ended) : Prop where
  recorded : p.2.ended = newer ++ q.2.ended
  slept : ∀ x ∈ newer, x.Slept
  later : q.1.now ≤ p.1.now
  before : newer ≠ [] → q.1.now + (newer.tail.map Ended.slept).sum ≤ p.1.now
  all : newer ≠ [] → q.1.now + (newer.map Ended.slept).sum ≤ p.1.free

theorem since_step {newer : List Ended} (h : Since q p newer) {p' : LoopState × LoopHistory}
    {e : LoopEvent} (hs : (PkiExecutor.recorded toText).step p e = some p') :
    ∃ newer', Since q p' newer' := by
  obtain ⟨hstep, hrecord⟩ := Machine.step_withHistory hs
  cases hr : p.1.returned e with
  | none =>
      obtain ⟨hnow, hfree⟩ := LoopState.free_of_not_returned hstep hr
      have hended : p'.2.ended = p.2.ended := by
        rw [hrecord]
        simp only [LoopState.record, hr]
      refine ⟨newer, ⟨hended.trans h.recorded, h.slept, Nat.le_trans h.later hnow, ?_, ?_⟩⟩
      · exact fun hne => Nat.le_trans (h.before hne) hnow
      · exact fun hne => Nat.le_trans (h.all hne) hfree
  | some r =>
      obtain ⟨hpause, hnow, hsleep⟩ := LoopState.free_of_returned hstep hr
      obtain ⟨hone, hfive⟩ := p.1.backoff_secs r
      have hended : ∃ x : Ended, x.outcome = r ∧ x.slept = p'.1.pause ∧
          p'.2.ended = x :: p.2.ended := by
        rw [hrecord]
        simp only [LoopState.record, hr]
        exact ⟨_, rfl, rfl, rfl⟩
      obtain ⟨x, houtcome, hslept, hended⟩ := hended
      have hbefore : q.1.now + (newer.map Ended.slept).sum ≤ p.1.now := by
        by_cases hne : newer = []
        · subst hne
          exact h.later
        · have hall := h.all hne
          rwa [LoopState.free, hpause] at hall
      have hx : x.Slept := by
        refine ⟨by omega, fun hsup => ?_⟩
        have hr : r = some .superseded := by
          rw [Ended.superseded, houtcome] at hsup
          simpa using hsup
        rw [hslept, hsleep, hfive hr]
      refine ⟨x :: newer,
        ⟨?_, List.forall_mem_cons.mpr ⟨hx, h.slept⟩, ?_, fun _ => ?_, fun _ => ?_⟩⟩
      · rw [hended, h.recorded]
        rfl
      · rw [hnow]
        exact h.later
      · rw [hnow]
        exact hbefore
      · rw [List.map_cons, List.sum_cons, LoopState.free]
        omega

theorem since_run {es : List LoopEvent} (hrun : (PkiExecutor.recorded toText).run q es = some p) :
    ∃ newer, Since q p newer := by
  refine Machine.run_keeps (M := PkiExecutor.recorded toText)
    (I := fun p => ∃ newer, Since q p newer) ?_ ?_ hrun
  · rintro p e p' ⟨newer, h⟩ hs
    exact since_step h hs
  · exact ⟨[], rfl, by simp, Nat.le_refl _, by simp, by simp⟩

/-- The dials of a stretch are its returns, but for the connections at its ends. -/
theorem dials_run : ∀ {es : List LoopEvent} {q : LoopState × LoopHistory},
    (PkiExecutor.recorded toText).run q es = some p →
      es.countP LoopEvent.isDial + q.1.open_ + q.2.ended.length = p.2.ended.length + p.1.open_
  | [], q, h => by
      cases h
      simp [Nat.add_comm]
  | e :: es, q, h => by
      obtain ⟨t, ht, hrun⟩ := Option.bind_eq_some_iff.mp h
      obtain ⟨hstep, hrecord⟩ := Machine.step_withHistory ht
      have ih := dials_run hrun
      have hcount := LoopState.dial_counts hstep
      have hended : t.2.ended.length =
          (if (q.1.returned e).isSome then 1 else 0) + q.2.ended.length := by
        rw [hrecord]
        cases hr : q.1.returned e with
        | none => simp [LoopState.record, hr]
        | some r => simp [LoopState.record, hr, Nat.add_comm]
      rw [List.countP_cons]
      omega

end Stretch

/-- Over any stretch of a run there are at most two dials more than seconds, and one
takeover more than there are times five minutes. -/
theorem dials_paced (toText : OutboundProgress → Option String) (q p : LoopState × LoopHistory)
    (es : List LoopEvent) (hrun : (recorded toText).run q es = some p) :
    es.countP LoopEvent.isDial ≤ 2 + (p.1.now - q.1.now) / 1000 ∧
      p.2.ended.countP Ended.superseded ≤
        q.2.ended.countP Ended.superseded + 1 +
          (p.1.now - q.1.now) / (supersededDelaySecs * 1000) := by
  obtain ⟨newer, h⟩ := since_run hrun
  have hdials := dials_run hrun
  rw [h.recorded, List.length_append] at hdials
  have hopen : p.1.open_ ≤ 1 := by
    unfold LoopState.open_
    split
    · exact Nat.le_refl 1
    · exact Nat.zero_le 1
  rw [h.recorded, List.countP_append]
  cases newer with
  | nil =>
      simp only [List.length_nil, List.countP_nil, Nat.zero_add] at hdials ⊢
      refine ⟨by omega, ?_⟩
      rw [Nat.add_assoc]
      exact Nat.le_add_right _ _
  | cons x newer =>
      have hslept : ∀ y ∈ newer, y.Slept := fun y hy => h.slept y (List.mem_cons_of_mem _ hy)
      have hsum : q.1.now + (newer.map Ended.slept).sum ≤ p.1.now :=
        h.before (List.cons_ne_nil x newer)
      have hsecs : 1000 * newer.countP (fun _ => true) ≤ (newer.map Ended.slept).sum :=
        mul_countP_le_sum fun y hy _ => (hslept y hy).1
      have hfive : supersededDelaySecs * 1000 * newer.countP Ended.superseded ≤
          (newer.map Ended.slept).sum :=
        mul_countP_le_sum fun y hy hsup => Nat.le_of_eq ((hslept y hy).2 hsup).symm
      rw [List.countP_true] at hsecs
      have hhead : (x :: newer).countP Ended.superseded ≤ newer.countP Ended.superseded + 1 := by
        rw [List.countP_cons]
        split <;> omega
      have hminutes : newer.countP Ended.superseded ≤
          (p.1.now - q.1.now) / (supersededDelaySecs * 1000) := by
        rw [Nat.le_div_iff_mul_le (Nat.mul_pos (by decide) (by decide)), Nat.mul_comm]
        exact Nat.le_trans hfive (Nat.le_sub_of_add_le' hsum)
      rw [List.length_cons] at hdials
      omega

/-- Two takeovers, which take five minutes and more. -/
def duelEvents : List LoopEvent :=
  [.dialed true, .arrive takeover, .read, .elapse 300000, .wake, .dialed true, .arrive takeover,
    .read]

theorem dials_paced_duel :
    ∃ p, (recorded errorText).run (.initial, ⟨none, []⟩) duelEvents = some p ∧
      p.2.ended.countP Ended.superseded ≤ 1 + p.1.now / 300000 := by
  have hrun : ((recorded errorText).run (.initial, ⟨none, []⟩) duelEvents).isSome = true := by
    decide
  obtain ⟨p, hp⟩ := Option.isSome_iff_exists.mp hrun
  have h := (dials_paced errorText (.initial, ⟨none, []⟩) p duelEvents hp).2
  refine ⟨p, hp, ?_⟩
  simpa [LoopState.initial, supersededDelaySecs] using h

end PkiExecutor
