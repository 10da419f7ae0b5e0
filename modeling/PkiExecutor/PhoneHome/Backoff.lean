/-
# `PkiExecutor.PhoneHome.Backoff` — the delays and the health of connections

After a drop `run_forever` sleeps for one to thirty seconds, longer with each drop
in a row; a connection that was up for a minute starts the row anew.  The loop
keeps one counter, and one time for dialling and serving together.

Here the loop runs with a record of its returns: when the connection was
established, how long it was up, how long the loop then slept.
`backoff_follows_health` says that the delays are those which the record calls
for, as long as no dial or short connection that takes a minute in all comes
after a drop.
-/
import PkiExecutor.PhoneHome.Takeover

namespace PkiExecutor

/-! ## The record -/

/-- One return of `connect_once`; times are in milliseconds. -/
structure Ended where
  outcome : Option ConnectionEnd
  /-- how long `connect_once` took -/
  took : Nat
  /-- how long the connection was up, if it was established -/
  upFor : Option Nat
  /-- how long `run_forever` sleeps then -/
  slept : Nat
  deriving DecidableEq, Repr

/-- What is recorded of the loop's connections. -/
structure LoopHistory where
  /-- when the connection of this `connect_once` was established, if it was -/
  since : Option Nat
  /-- the returns so far, the last one first -/
  ended : List Ended

namespace Ended

/-- It was a takeover. -/
def superseded (x : Ended) : Bool := x.outcome == some .superseded

/-- The connection was established and then stayed up long enough. -/
def healthy (x : Ended) : Bool :=
  match x.upFor with
  | some ms => decide (healthyConnectionSecs * 1000 ≤ ms)
  | none => false

end Ended

/-- The drops so far, counted from the last healthy connection on, if there was
one, its own end included. -/
def drops : List Ended → Nat
  | [] => 0
  | x :: past => (if x.superseded then 0 else 1) + if x.healthy then 0 else drops past

/-- The drops in a row before the end of this connection. -/
def Ended.dropsBefore (x : Ended) (past : List Ended) : Nat := if x.healthy then 0 else drops past

/-- The end of every connection that took a minute in all is that of a healthy one,
or there are no drops for it to make forgotten. -/
def blameless : List Ended → Bool
  | [] => true
  | x :: past =>
      (decide (x.took < healthyConnectionSecs * 1000) || x.healthy || drops past == 0)
        && blameless past

/-- After every drop the delay is the one for the drops before it. -/
def Follows : List Ended → Prop
  | [] => True
  | x :: past =>
      (x.superseded = false →
        (reconnectDelaysSecs[min (x.dropsBefore past) 4]?).map (· * 1000) = some x.slept) ∧
        Follows past

namespace LoopState

/-- What is left of a sleep. -/
def pause (s : LoopState) : Nat :=
  match s.control with
  | .sleeping until_ => until_ - s.now
  | _ => 0

/-- What a step adds to the record. -/
def record (s : LoopState) (e : LoopEvent) (s' : LoopState) (h : LoopHistory) : LoopHistory where
  since :=
    match e with
    | .dialed true => some s.now
    | .wake => none
    | _ => h.since
  ended :=
    match s.returned e with
    | some r => ⟨r, s.now - s.started, h.since.map (s.now - ·), s'.pause⟩ :: h.ended
    | none => h.ended

end LoopState

/-- `run_forever` with the record of its returns. -/
def recorded (toText : OutboundProgress → Option String) :
    Machine (LoopState × LoopHistory) LoopEvent :=
  (runForever toText).withHistory ⟨none, []⟩ LoopState.record

/-! ## One step -/

namespace LoopState

variable {toText : OutboundProgress → Option String} {s s' : LoopState} {e : LoopEvent}
  {r : Option ConnectionEnd} {h : LoopHistory}

theorem sendProgress_clock (toText : OutboundProgress → Option String) (s : LoopState)
    (msg : OutboundProgress) :
    (s.sendProgress toText msg).attempt = s.attempt ∧
      (s.sendProgress toText msg).started = s.started := by
  unfold sendProgress
  split
  · exact ⟨rfl, rfl⟩
  · exact ⟨rfl, rfl⟩

theorem connected_clock (toText : OutboundProgress → Option String) (s : LoopState) :
    (s.connected toText).attempt = s.attempt ∧ (s.connected toText).started = s.started := by
  unfold connected
  split
  · exact ⟨rfl, rfl⟩
  · exact sendProgress_clock toText { s with inbox := [], pending := none } _

theorem at_of_returned (hr : s.returned e = some r) :
    s.control = .dialing ∧ r = none ∨ s.online = true := by
  cases e with
  | enqueue _ | arrive _ | elapse _ | recv | tick | wake => cases hr
  | dialed ok =>
      cases ok with
      | true => cases hr
      | false =>
          cases hc : s.control with
          | dialing =>
              have hnone : none = r := by simpa [returned, hc] using hr
              exact .inl ⟨rfl, hnone.symm⟩
          | writing _ | selecting | pinging | sleeping _ => simp [returned, hc] at hr
  | read =>
      cases hc : s.control with
      | selecting => exact .inr (online_of_selecting hc)
      | dialing | writing _ | pinging | sleeping _ => simp [returned, hc] at hr
  | wrote ok =>
      cases ok with
      | true => cases hr
      | false =>
          simp only [returned, Option.ite_none_right_eq_some] at hr
          exact .inr hr.1

/-- The record is of this state, and the counter counts the drops. -/
structure Recorded (s : LoopState) (h : LoopHistory) : Prop where
  started : s.started ≤ s.now
  dialing : s.control = .dialing → h.since = none
  online : s.online = true → ∃ t, h.since = some t ∧ s.started ≤ t ∧ t ≤ s.now
  established : ∀ x ∈ h.ended, x.superseded = true → x.upFor.isSome = true
  attempt : blameless h.ended = true → s.attempt = drops h.ended
  follows : blameless h.ended = true → Follows h.ended

namespace Recorded

theorem healthy_took (hw : s.Recorded h) (hat : s.control = .dialing ∨ s.online = true) {x : Ended}
    (hup : x.upFor = h.since.map (s.now - ·)) (hx : x.healthy = true) :
    s.started + healthyConnectionSecs * 1000 ≤ s.now := by
  rw [Ended.healthy, hup] at hx
  rcases hat with hc | ho
  · rw [hw.dialing hc] at hx
    cases hx
  · obtain ⟨t, ht, hle, hlt⟩ := hw.online ho
    have hlong : healthyConnectionSecs * 1000 ≤ s.now - t := by simpa [ht] using hx
    have hsum := Nat.add_le_add hle hlong
    rwa [Nat.add_sub_of_le hlt] at hsum

/-- The attempts that `run_forever` goes by are the drops before this return. -/
theorem attempts_eq (hw : s.Recorded h) (hat : s.control = .dialing ∨ s.online = true) {x : Ended}
    (htook : x.took = s.now - s.started) (hup : x.upFor = h.since.map (s.now - ·))
    (hb : blameless (x :: h.ended) = true) : s.attempts = x.dropsBefore h.ended := by
  simp only [blameless, Bool.and_eq_true, Bool.or_eq_true, decide_eq_true_eq, beq_iff_eq] at hb
  obtain ⟨hblame, hpast⟩ := hb
  have hstarted := hw.started
  rw [attempts, Ended.dropsBefore]
  by_cases hlong : s.started + healthyConnectionSecs * 1000 ≤ s.now
  · rw [if_pos hlong]
    rcases hblame with (hshort | hx) | hnone
    · rw [htook] at hshort
      omega
    · rw [if_pos hx]
    · rw [hnone, ite_self]
  · -- too short a time for a healthy connection
    have hx : ¬ x.healthy = true := fun hx => hlong (hw.healthy_took hat hup hx)
    rw [if_neg hlong, if_neg hx, hw.attempt hpast]

theorem backoff_attempts {past : List Ended} {took slept : Nat} {upFor : Option Nat}
    (hcount : s.attempts = Ended.dropsBefore ⟨r, took, upFor, slept⟩ past) :
    (s.backoff r).1 = drops (⟨r, took, upFor, slept⟩ :: past) := by
  rw [drops, ← Ended.dropsBefore, ← hcount]
  cases r with
  | none => exact Nat.add_comm _ 1
  | some c =>
      cases c with
      | normal => exact Nat.add_comm _ 1
      | superseded => exact (Nat.zero_add _).symm

theorem backoff_delay {took slept : Nat} {upFor : Option Nat}
    (hr : Ended.superseded ⟨r, took, upFor, slept⟩ = false) :
    (reconnectDelaysSecs[min s.attempts 4]?).map (· * 1000) = some ((s.backoff r).2 * 1000) := by
  have hdelay : reconnectDelaysSecs[min s.attempts 4]? = some (reconnectDelay s.attempts) :=
    List.getElem?_eq_getElem _
  rw [hdelay]
  cases r with
  | none => rfl
  | some c =>
      cases c with
      | normal => rfl
      | superseded => cases hr

theorem returned (hw : s.Recorded h) (hs : s.step toText e = some s')
    (hr : s.returned e = some r) : s'.Recorded (s.record e s' h) := by
  have hat := at_of_returned hr
  have hat' : s.control = .dialing ∨ s.online = true := hat.imp_left fun h => h.1
  have hsince : (s.record e s' h).since = h.since := by
    cases e with
    | wake => cases hr
    | dialed ok =>
        cases ok with
        | true => cases hr
        | false => rfl
    | enqueue _ | arrive _ | elapse _ | read | recv | tick | wrote _ => rfl
  obtain ⟨t, rfl, hback, hstarted, hnow⟩ := step_of_returned hs hr
  have hended : (s.record e (t.disconnect r) h).ended =
      ⟨r, s.now - s.started, h.since.map (s.now - ·), (t.disconnect r).pause⟩ :: h.ended := by
    simp only [record, hr]
  have hpause : (t.disconnect r).pause = (s.backoff r).2 * 1000 := by
    show t.now + (t.backoff r).2 * 1000 - t.now = _
    rw [hback]
    omega
  have hattempts : blameless (s.record e (t.disconnect r) h).ended = true →
      s.attempts = Ended.dropsBefore
        ⟨r, s.now - s.started, h.since.map (s.now - ·), (t.disconnect r).pause⟩ h.ended := by
    intro hb
    rw [hended] at hb
    exact hw.attempts_eq hat' rfl rfl hb
  constructor
  case started =>
    show t.started ≤ t.now
    rw [hstarted, hnow]
    exact hw.started
  case dialing =>
    intro hc
    cases hc
  case online =>
    intro ho
    cases ho
  case established =>
    rw [hended]
    refine List.forall_mem_cons.mpr ⟨fun hx => ?_, hw.established⟩
    rcases hat with ⟨-, rfl⟩ | ho
    · cases hx
    · obtain ⟨since, hsome, -⟩ := hw.online ho
      rw [hsome]
      rfl
  case attempt =>
    intro hb
    have hcount := hattempts hb
    show (t.backoff r).1 = _
    rw [hback, hended]
    exact backoff_attempts hcount
  case follows =>
    intro hb
    have hcount := hattempts hb
    rw [hended] at hb ⊢
    refine ⟨fun hx => ?_, hw.follows (Bool.and_eq_true_iff.mp hb).2⟩
    rw [← hcount]
    show _ = some (t.disconnect r).pause
    rw [hpause]
    exact backoff_delay hx

/-- A step in which the loop only goes on: the record stays, the counter too. -/
theorem goes_on (hw : s.Recorded h) (hattempt : s'.attempt = s.attempt)
    (hstarted : s'.started = s.started) (hnow : s.now ≤ s'.now)
    (hdialing : s'.control = .dialing → s.control = .dialing)
    (honline : s'.online = true → s.online = true) : s'.Recorded h where
  started := by
    rw [hstarted]
    exact Nat.le_trans hw.started hnow
  dialing hc := hw.dialing (hdialing hc)
  online ho := by
    obtain ⟨t, ht, hle, hlt⟩ := hw.online (honline ho)
    rw [hstarted]
    exact ⟨t, ht, hle, Nat.le_trans hlt hnow⟩
  established := hw.established
  attempt hb := hattempt.trans (hw.attempt hb)
  follows := hw.follows

theorem connected (hw : s.Recorded h) :
    (s.connected toText).Recorded ⟨some s.now, h.ended⟩ := by
  obtain ⟨hup, hnow⟩ := connected_socket toText s
  obtain ⟨hattempt, hstarted⟩ := connected_clock toText s
  constructor
  case started =>
    rw [hstarted, hnow]
    exact hw.started
  case dialing =>
    intro hc
    rw [LoopState.online, hc] at hup
    cases hup
  case online =>
    intro _
    rw [hstarted, hnow]
    exact ⟨s.now, rfl, hw.started, Nat.le_refl _⟩
  case established => exact hw.established
  case attempt => exact fun hb => hattempt.trans (hw.attempt hb)
  case follows => exact hw.follows

theorem not_returned (hw : s.Recorded h) (hs : s.step toText e = some s')
    (hr : s.returned e = none) : s'.Recorded (s.record e s' h) := by
  cases step_cases hs with
  | enqueue msg => exact hw.goes_on rfl rfl (Nat.le_refl _) id id
  | arrive item ho => exact hw.goes_on rfl rfl (Nat.le_refl _) id id
  | elapse ms => exact hw.goes_on rfl rfl (Nat.le_add_right _ ms) id id
  | connected hc => exact hw.connected
  | refused hc => simp [LoopState.returned, hc] at hr
  | @read item inbox hc hi =>
      have hrecord : s.record .read ({ s with inbox }.received item) h = h := by
        simp only [record, hr]
      rw [returned_read hc hi] at hr
      rw [hrecord, received_eq, hr]
      exact hw.goes_on rfl rfl (Nat.le_refl _) id id
  | @recv msg rx hc hi =>
      obtain ⟨hup, -, hnow⟩ := sendProgress_socket toText { s with rx } msg
      obtain ⟨hattempt, hstarted⟩ := sendProgress_clock toText { s with rx } msg
      refine hw.goes_on hattempt hstarted (Nat.le_of_eq hnow.symm) (fun hd => ?_)
        fun _ => online_of_selecting hc
      rw [LoopState.online, hd] at hup
      cases hup
  | tick hc =>
      exact hw.goes_on rfl rfl (Nat.le_refl _) (fun h => by cases h)
        fun _ => online_of_selecting hc
  | accepted hc =>
      exact hw.goes_on rfl rfl (Nat.le_refl _) (fun h => by cases h) fun _ => online_of_writing hc
  | parked hc =>
      rw [returned_wrote (online_of_writing hc)] at hr
      cases hr
  | pinged hc =>
      exact hw.goes_on rfl rfl (Nat.le_refl _) (fun h => by cases h) fun _ => online_of_pinging hc
  | pingLost hc =>
      rw [returned_wrote (online_of_pinging hc)] at hr
      cases hr
  | @wake until_ hc hn =>
      exact ⟨Nat.le_refl _, fun _ => rfl, fun ho => (by cases ho), hw.established, hw.attempt,
        hw.follows⟩

theorem step (hw : s.Recorded h) (hs : s.step toText e = some s') :
    s'.Recorded (s.record e s' h) := by
  cases hr : s.returned e with
  | none => exact hw.not_returned hs hr
  | some r => exact hw.returned hs hr

theorem initial : LoopState.initial.Recorded ⟨none, []⟩ :=
  ⟨Nat.le_refl _, fun _ => rfl, fun ho => (by cases ho), by simp, fun _ => rfl, fun _ => trivial⟩

end Recorded

end LoopState

variable {toText : OutboundProgress → Option String}

theorem recorded_of_reachable {p : LoopState × LoopHistory} (h : (recorded toText).Reachable p) :
    p.1.Recorded p.2 := by
  refine Machine.invariant (M := recorded toText) (I := fun p => p.1.Recorded p.2) .initial ?_ h
  intro p e p' _ hw hs
  obtain ⟨hstep, hrecord⟩ := Machine.step_withHistory hs
  rw [hrecord]
  exact hw.step hstep

/-- Recording changes nothing about the loop. -/
theorem recorded_reachable_iff {s : LoopState} :
    (∃ h, (recorded toText).Reachable (s, h)) ↔ (runForever toText).Reachable s := by
  constructor
  · rintro ⟨h, hp⟩
    exact Machine.forgetHistory.reachable hp
  · intro hs
    exact hs.recorded

/-! ## A stretch without connections -/

theorem reconnectDelay_min (attempt : Nat) :
    reconnectDelay (min attempt 4) = reconnectDelay attempt := by
  simp [reconnectDelay]

theorem reconnectDelay_mono {a b : Nat} (h : a ≤ b) : reconnectDelay a ≤ reconnectDelay b := by
  have hall : ∀ i < 5, ∀ j < 5, i ≤ j → reconnectDelay i ≤ reconnectDelay j := by decide
  rw [← reconnectDelay_min a, ← reconnectDelay_min b]
  exact hall _ (by omega) _ (by omega) (by omega)

theorem reconnectDelay_le (attempt : Nat) : reconnectDelay attempt ≤ 30 := by
  have hall : ∀ i < 5, reconnectDelay i ≤ 30 := by decide
  rw [← reconnectDelay_min]
  exact hall _ (by omega)

theorem Follows.of_append : ∀ {newer past : List Ended}, Follows (newer ++ past) → Follows past
  | [], _, h => h
  | _ :: _, _, h => Follows.of_append h.2

/-- A drop without a connection. -/
def Ended.Failed (x : Ended) : Prop := x.upFor = none ∧ x.superseded = false

theorem Ended.Failed.not_healthy {x : Ended} (h : x.Failed) : ¬ x.healthy = true := by
  rw [Ended.healthy, h.1]
  exact Bool.false_ne_true

theorem drops_stretch {older : List Ended} : ∀ {stretch : List Ended},
    (∀ x ∈ stretch, x.Failed) → drops (stretch ++ older) = stretch.length + drops older
  | [], _ => (Nat.zero_add _).symm
  | x :: stretch, h => by
      rw [List.forall_mem_cons] at h
      have ih : drops (stretch ++ older) = stretch.length + drops older := drops_stretch h.2
      rw [List.cons_append, drops, if_neg (by simp [h.1.2]), if_neg h.1.not_healthy, ih,
        List.length_cons]
      omega

theorem slept_of_failed {x : Ended} {stretch older : List Ended}
    (hf : Follows (x :: (stretch ++ older))) (hx : x.Failed) (h : ∀ y ∈ stretch, y.Failed) :
    x.slept = reconnectDelay (stretch.length + drops older) * 1000 := by
  have hslept := hf.1 hx.2
  have hdelay : ∀ n, reconnectDelaysSecs[min n 4]? = some (reconnectDelay n) := fun n =>
    List.getElem?_eq_getElem _
  rw [hdelay, Ended.dropsBefore, if_neg hx.not_healthy, drops_stretch h] at hslept
  exact (Option.some.inj hslept).symm

theorem stretch_sorted {older : List Ended} : ∀ {stretch : List Ended},
    Follows (stretch ++ older) → (∀ x ∈ stretch, x.Failed) →
      (stretch.Pairwise fun later earlier => earlier.slept ≤ later.slept) ∧
        ∀ x ∈ stretch, x.slept ≤ reconnectDelay (stretch.length + drops older) * 1000
  | [], _, _ => ⟨.nil, by simp⟩
  | x :: stretch, hf, h => by
      rw [List.forall_mem_cons] at h
      obtain ⟨hsorted, hle⟩ := stretch_sorted hf.2 h.2
      have hx := slept_of_failed hf h.1 h.2
      have hnext : reconnectDelay (stretch.length + drops older) ≤
          reconnectDelay ((x :: stretch).length + drops older) :=
        reconnectDelay_mono (by rw [List.length_cons]; omega)
      have hgrow := Nat.mul_le_mul_right 1000 hnext
      refine ⟨List.pairwise_cons.mpr ⟨fun y hy => ?_, hsorted⟩, List.forall_mem_cons.mpr ⟨?_, ?_⟩⟩
      · rw [hx]
        exact hle y hy
      · rw [hx]
        exact hgrow
      · intro y hy
        exact Nat.le_trans (hle y hy) hgrow

/-- In every run in which no `connect_once` takes a minute and makes drops
forgotten without a healthy connection, the delay after each drop is the one for
the drops before it, counted from the last healthy connection; and over a stretch
in which no connection is established the delays do not decrease, and stay at the
cap once they are there. -/
theorem backoff_follows_health (toText : OutboundProgress → Option String)
    (p : LoopState × LoopHistory) (h : (recorded toText).Reachable p)
    (hb : blameless p.2.ended = true) :
    (∀ newer x past, p.2.ended = newer ++ x :: past → x.superseded = false →
      (reconnectDelaysSecs[min (x.dropsBefore past) 4]?).map (· * 1000) = some x.slept) ∧
    ∀ newer stretch older, p.2.ended = newer ++ (stretch ++ older) →
      (∀ x ∈ stretch, x.upFor = none) →
      stretch.Pairwise fun later earlier => earlier.slept ≤ later.slept ∧
        (earlier.slept = 30 * 1000 → later.slept = 30 * 1000) := by
  have hw := recorded_of_reachable h
  have hf := hw.follows hb
  constructor
  · intro newer x past hsplit hx
    rw [hsplit] at hf
    exact hf.of_append.1 hx
  · intro newer stretch older hsplit hup
    have hfailed : ∀ x ∈ stretch, x.Failed := by
      intro x hx
      refine ⟨hup x hx, ?_⟩
      rw [Bool.eq_false_iff]
      intro hs
      have hmem : x ∈ p.2.ended := by
        rw [hsplit]
        exact List.mem_append_right _ (List.mem_append_left _ hx)
      have hsome := hw.established x hmem hs
      rw [hup x hx] at hsome
      cases hsome
    rw [hsplit] at hf
    obtain ⟨hsorted, hle⟩ := stretch_sorted hf.of_append hfailed
    have hcap : reconnectDelay (stretch.length + drops older) * 1000 ≤ 30 * 1000 :=
      Nat.mul_le_mul_right 1000 (reconnectDelay_le _)
    refine hsorted.imp_of_mem fun {later earlier} hl _ hles => ⟨hles, fun he => ?_⟩
    have hmax := Nat.le_trans (hle later hl) hcap
    rw [he] at hles
    exact Nat.le_antisymm hmax hles

/-- Two dials fail, and a connection is up for a minute. -/
def healthyEvents : List LoopEvent :=
  [.dialed false, .elapse 1000, .wake, .dialed false, .elapse 2000, .wake, .dialed true,
    .elapse 60000, .arrive .endOfStream, .read]

theorem backoff_follows_health_minute :
    ∃ p, (recorded errorText).run (.initial, ⟨none, []⟩) healthyEvents = some p ∧
      ∀ newer x past, p.2.ended = newer ++ x :: past → x.superseded = false →
        (reconnectDelaysSecs[min (x.dropsBefore past) 4]?).map (· * 1000) = some x.slept := by
  have hrun : ((recorded errorText).run (.initial, ⟨none, []⟩) healthyEvents).map
      (fun p => blameless p.2.ended) = some true := by decide
  obtain ⟨p, hp, hb⟩ := Option.map_eq_some_iff.mp hrun
  exact ⟨p, hp, (backoff_follows_health errorText p (Machine.Reachable.init.run hp) hb).1⟩

/-- A dial fails, and then one that takes a minute. -/
def slowDialEvents : List LoopEvent :=
  [.dialed false, .elapse 1000, .wake, .elapse 60000, .dialed false]

/-- After the slow dial the delays begin anew, though there was no connection. -/
theorem slow_dial_forgets :
    ¬ ∀ p, (recorded errorText).Reachable p → ∀ newer x past, p.2.ended = newer ++ x :: past →
      x.superseded = false →
        (reconnectDelaysSecs[min (x.dropsBefore past) 4]?).map (· * 1000) = some x.slept := by
  intro h
  have hrun : ((recorded errorText).run (.initial, ⟨none, []⟩) slowDialEvents).map
      (fun p => p.2.ended) = some [⟨none, 60000, none, 1000⟩, ⟨none, 0, none, 1000⟩] := by
    decide
  obtain ⟨p, hp, hended⟩ := Option.map_eq_some_iff.mp hrun
  have hdelay := h p (Machine.Reachable.init.run hp) [] _ _ hended rfl
  exact absurd hdelay (by decide)

end PkiExecutor
