/-
# `PkiExecutor.PhoneHome.Takeover` — what becomes of a takeover close

The backend closes a connection with code 4409 when another agent has taken over
the same machine.  `connect_once` sees the code only where it reads; `run_forever`
then sleeps 300 seconds instead of one to thirty, so that two agents do not evict
each other over and over.

From the moment the close has arrived every way to the end of the connection is
looked at.  `takeover_honoured_iff` says which of them are taken for a takeover:
those on which no write fails and nothing that ends the stream is read first.
-/
import PkiExecutor.PhoneHome.Loop

namespace PkiExecutor

/-- The close frame of a takeover. -/
def takeover : Incoming := .close (some closeSuperseded)

/-- What `connect_once` returns over a read, where it does. -/
def Incoming.ended : Incoming → Option (Option ConnectionEnd)
  | .endOfStream => some (some .normal)
  | .error => some none
  | .close (some code) => if code = closeSuperseded then some (some .superseded) else none
  | .close none => none
  | .text _ => none
  | .other => none

namespace LoopState

variable {toText : OutboundProgress → Option String}

/-! ## One connection -/

/-- What `connect_once` returns in the step, if it returns in it. -/
def returned (s : LoopState) : LoopEvent → Option (Option ConnectionEnd)
  | .dialed false => if s.control matches .dialing then some none else none
  | .read =>
      match s.control, s.inbox with
      | .selecting, item :: _ => item.ended
      | _, _ => none
  | .wrote false => if s.online then some (some .normal) else none
  | _ => none

/-- What `connect_once` returns from `s` on, in the last of the events, and the
state in which `run_forever` then is. -/
def connectOnce (toText : OutboundProgress → Option String) (s : LoopState) :
    List LoopEvent → Option (Option ConnectionEnd × LoopState)
  | [] => none
  | e :: es =>
      match s.returned e with
      | some r => if es.isEmpty then (s.step toText e).map (r, ·) else none
      | none => (s.step toText e).bind fun s' => connectOnce toText s' es

theorem sendProgress_socket (toText : OutboundProgress → Option String) (s : LoopState)
    (msg : OutboundProgress) :
    (s.sendProgress toText msg).online = true ∧ (s.sendProgress toText msg).inbox = s.inbox ∧
      (s.sendProgress toText msg).now = s.now := by
  unfold sendProgress
  split
  · exact ⟨rfl, rfl, rfl⟩
  · exact ⟨rfl, rfl, rfl⟩

theorem connected_socket (toText : OutboundProgress → Option String) (s : LoopState) :
    (s.connected toText).online = true ∧ (s.connected toText).now = s.now := by
  unfold connected
  split
  · exact ⟨rfl, rfl⟩
  · rename_i msg _
    obtain ⟨ho, -, hnow⟩ := sendProgress_socket toText
      { s with inbox := [], pending := none } msg
    exact ⟨ho, hnow⟩

theorem received_eq (s : LoopState) (item : Incoming) :
    s.received item = match item.ended with
      | some r => s.disconnect r
      | none => s := by
  cases item with
  | text _ | other | error | endOfStream => rfl
  | close code =>
      cases code with
      | none => rfl
      | some code =>
          simp only [received, Incoming.ended]
          split <;> rfl

theorem returned_read {s : LoopState} {item : Incoming} {inbox : List Incoming}
    (hc : s.control = .selecting) (hi : s.inbox = item :: inbox) :
    s.returned .read = item.ended := by
  simp [returned, hc, hi]

theorem returned_wrote {s : LoopState} (ho : s.online = true) :
    s.returned (.wrote false) = some (some .normal) := by
  simp [returned, ho]

theorem online_of_writing {s : LoopState} {msg : OutboundProgress}
    (hc : s.control = .writing msg) : s.online = true := by
  simp [online, hc]

theorem online_of_pinging {s : LoopState} (hc : s.control = .pinging) : s.online = true := by
  simp [online, hc]

/-- Where `connect_once` returns, `run_forever` deals with what it returns, by the
clock and the attempts it has. -/
theorem step_of_returned {s s' : LoopState} {e : LoopEvent} {r : Option ConnectionEnd}
    (hs : s.step toText e = some s') (hr : s.returned e = some r) :
    ∃ t : LoopState, s' = t.disconnect r ∧ t.backoff r = s.backoff r ∧ t.started = s.started ∧
      t.now = s.now := by
  cases step_cases hs with
  | enqueue _ | arrive _ _ | elapse _ | connected _ | recv _ _ | tick _ | accepted _ | pinged _
  | wake _ _ => cases hr
  | refused hc =>
      obtain rfl : none = r := by simpa [returned, hc] using hr
      exact ⟨_, rfl, rfl, rfl, rfl⟩
  | @read item inbox hc hi =>
      rw [returned_read hc hi] at hr
      refine ⟨{ s with inbox }, ?_, ?_, rfl, rfl⟩
      · rw [received_eq, hr]
      · cases r with
        | none => rfl
        | some c => cases c <;> rfl
  | parked hc =>
      rw [returned_wrote (online_of_writing hc)] at hr
      cases hr
      exact ⟨_, rfl, rfl, rfl, rfl⟩
  | pingLost hc =>
      rw [returned_wrote (online_of_pinging hc)] at hr
      cases hr
      exact ⟨_, rfl, rfl, rfl, rfl⟩

/-- Where it does not return, the connection is up as before, and a takeover
close that has not been read is still there. -/
theorem step_of_not_returned {s s' : LoopState} {e : LoopEvent}
    (hs : s.step toText e = some s') (hr : s.returned e = none) (ho : s.online = true)
    (hin : takeover ∈ s.inbox) : s'.online = true ∧ takeover ∈ s'.inbox := by
  cases step_cases hs with
  | enqueue _ | elapse _ => exact ⟨ho, hin⟩
  | arrive item _ => exact ⟨ho, List.mem_append_left _ hin⟩
  | connected hc | refused hc => simp [online, hc] at ho
  | @read item inbox hc hi =>
      rw [returned_read hc hi] at hr
      rw [received_eq, hr]
      refine ⟨ho, ?_⟩
      rw [hi, List.mem_cons] at hin
      rcases hin with rfl | hin
      · cases hr
      · exact hin
  | @recv msg rx _ _ =>
      obtain ⟨hup, hinbox, -⟩ := sendProgress_socket toText { s with rx } msg
      rw [hinbox]
      exact ⟨hup, hin⟩
  | tick _ | accepted _ | pinged _ => exact ⟨rfl, hin⟩
  | parked _ | pingLost _ =>
      rw [returned_wrote ho] at hr
      cases hr
  | wake hc _ => simp [online, hc] at ho

/-! ## The sleep after a takeover -/

/-- The next dial is not before that many seconds from now. -/
def Waits (toText : OutboundProgress → Option String) (s : LoopState) (secs : Nat) : Prop :=
  ∀ later s', (runForever toText).run s later = some s' → s'.control = .dialing →
    s.now + secs * 1000 ≤ s'.now

/-- The clock of the loop does not go back, and a sleep lasts until its end. -/
theorem step_sleeping {s s' : LoopState} {e : LoopEvent} {t : Nat}
    (h : s.control = .sleeping t ∨ t ≤ s.now) (hs : s.step toText e = some s') :
    s'.control = .sleeping t ∨ t ≤ s'.now := by
  have hother : s.control ≠ .sleeping t → t ≤ s.now := fun hne => h.resolve_left hne
  cases step_cases hs with
  | enqueue _ | arrive _ _ => exact h
  | elapse ms => exact h.imp_right fun hle => Nat.le_add_right_of_le hle
  | connected hc =>
      rw [(connected_socket toText s).2]
      exact .inr (hother (by simp [hc]))
  | refused hc => exact .inr (hother (by simp [hc]))
  | @read item inbox hc hi =>
      have hle := hother (by simp [hc])
      rw [received_eq]
      split
      · exact .inr hle
      · exact .inr hle
  | @recv msg rx hc _ =>
      rw [(sendProgress_socket toText { s with rx } msg).2.2]
      exact .inr (hother (by simp [hc]))
  | tick hc | accepted hc | parked hc | pinged hc | pingLost hc =>
      exact .inr (hother (by simp [hc]))
  | @wake until_ hc hn =>
      rcases h with h | h
      · rw [hc] at h
        cases h
        exact .inr hn
      · exact .inr h

theorem waits_of_superseded (t : LoopState) :
    (t.disconnect (some .superseded)).Waits toText supersededDelaySecs := by
  intro later s' hrun hc
  have hkeeps := Machine.run_keeps (M := runForever toText)
    (I := fun s => s.control = .sleeping (t.now + supersededDelaySecs * 1000) ∨
      t.now + supersededDelaySecs * 1000 ≤ s.now)
    (fun _ _ _ h hs => step_sleeping h hs) (.inl rfl) hrun
  rcases hkeeps with h | h
  · rw [hc] at h
    cases h
  · exact h

/-! ## Steps that do not lose the close -/

/-- A step that does not end the connection in front of a takeover close that is
waiting: no write fails, and no read takes an error or the end of the stream. -/
def Calm (s : LoopState) (e : LoopEvent) : Prop :=
  takeover ∈ s.inbox →
    match e with
    | .wrote ok => ok = true
    | .read => s.inbox.head? ≠ some .error ∧ s.inbox.head? ≠ some .endOfStream
    | _ => True

/-- Every step is of that kind. -/
def Calmly (toText : OutboundProgress → Option String) (s : LoopState) : List LoopEvent → Prop
  | [] => True
  | e :: es => s.Calm e ∧ ∀ s', s.step toText e = some s' → Calmly toText s' es

/-- With the close waiting, the connection ends as a takeover exactly in the steps
of that kind. -/
theorem returned_superseded_iff {s s' : LoopState} {e : LoopEvent} {r : Option ConnectionEnd}
    (hs : s.step toText e = some s') (hr : s.returned e = some r) (ho : s.online = true)
    (hin : takeover ∈ s.inbox) : r = some .superseded ↔ s.Calm e := by
  cases step_cases hs with
  | enqueue _ | arrive _ _ | elapse _ | connected _ | recv _ _ | tick _ | accepted _ | pinged _
  | wake _ _ => cases hr
  | refused hc => simp [online, hc] at ho
  | @read item inbox hc hi =>
      rw [returned_read hc hi] at hr
      have hcalm : s.Calm .read ↔ item ≠ .error ∧ item ≠ .endOfStream := by
        rw [Calm, imp_iff_right hin, hi]
        simp
      rw [hcalm]
      cases item with
      | text _ | other => cases hr
      | error | endOfStream =>
          obtain rfl := Option.some.inj hr
          simp
      | close code =>
          cases code with
          | none => cases hr
          | some code =>
              simp only [Incoming.ended, Option.ite_none_right_eq_some, Option.some.injEq] at hr
              obtain rfl := hr.2
              simp
  | parked _ | pingLost _ =>
      rw [returned_wrote ho] at hr
      obtain rfl := Option.some.inj hr
      simp [Calm, hin]

theorem calm_of_not_returned {s s' : LoopState} {e : LoopEvent}
    (hs : s.step toText e = some s') (hr : s.returned e = none) : s.Calm e := by
  intro _
  cases step_cases hs with
  | enqueue _ | arrive _ _ | elapse _ | connected _ | refused _ | recv _ _ | tick _ | wake _ _ =>
      trivial
  | accepted _ | pinged _ => rfl
  | @read item inbox hc hi =>
      rw [returned_read hc hi] at hr
      rw [hi]
      constructor
      · intro h
        cases h
        cases hr
      · intro h
        cases h
        cases hr
  | parked hc =>
      rw [returned_wrote (online_of_writing hc)] at hr
      cases hr
  | pingLost hc =>
      rw [returned_wrote (online_of_pinging hc)] at hr
      cases hr

theorem inbox_of_reachable {s : LoopState} (h : (runForever toText).Reachable s) :
    s.online = false → s.inbox = [] := by
  refine Machine.invariant (M := runForever toText) (I := fun s => s.online = false → s.inbox = [])
    (fun _ => rfl) ?_ h
  intro s e s' _ ih hs hoff
  cases step_cases hs with
  | enqueue _ | elapse _ => exact ih hoff
  | refused _ | parked _ | pingLost _ => rfl
  | wake hc _ => exact ih (by simp [online, hc])
  | arrive item ho =>
      have hup : s.online = false := hoff
      rw [ho] at hup
      cases hup
  | connected _ =>
      rw [(connected_socket toText s).1] at hoff
      cases hoff
  | @recv msg rx _ _ =>
      rw [(sendProgress_socket toText { s with rx } msg).1] at hoff
      cases hoff
  | @read item inbox hc hi =>
      rw [received_eq] at hoff ⊢
      cases hended : item.ended with
      | some r => rfl
      | none =>
          rw [hended] at hoff
          simp [online, hc] at hoff
  | tick _ | accepted _ | pinged _ => cases hoff

/-- A connection on which a takeover close is waiting returns it, whatever happens
until then, exactly if each step is of that kind. -/
theorem connectOnce_superseded_iff : ∀ {es : List LoopEvent} {s s' : LoopState}
    {r : Option ConnectionEnd}, s.online = true → takeover ∈ s.inbox →
    s.connectOnce toText es = some (r, s') →
    (r = some .superseded ↔ s.Calmly toText es) ∧ ∃ t : LoopState, s' = t.disconnect r
  | [], _, _, _, _, _, h => by cases h
  | e :: es, s, s', r, ho, hin, h => by
      cases hr : s.returned e with
      | some q =>
          simp only [connectOnce, hr, Option.ite_none_right_eq_some, List.isEmpty_iff,
            Option.map_eq_some_iff, Prod.mk.injEq] at h
          obtain ⟨rfl, t, ht, rfl, rfl⟩ := h
          refine ⟨?_, (step_of_returned ht hr).imp fun _ h => h.1⟩
          rw [returned_superseded_iff ht hr ho hin]
          exact ⟨fun hc => ⟨hc, fun _ _ => trivial⟩, fun hc => hc.1⟩
      | none =>
          simp only [connectOnce, hr] at h
          obtain ⟨t, ht, h⟩ := Option.bind_eq_some_iff.mp h
          obtain ⟨hot, hint⟩ := step_of_not_returned ht hr ho hin
          obtain ⟨hiff, hend⟩ := connectOnce_superseded_iff hot hint h
          refine ⟨hiff.trans ⟨fun hc => ⟨calm_of_not_returned ht hr, fun u hu => ?_⟩, ?_⟩, hend⟩
          · rw [ht] at hu
            cases hu
            exact hc
          · intro hc
            exact hc.2 t ht

end LoopState

/-- From any moment at which a takeover close has arrived on the socket, whatever
happens until the connection ends: it ends as a takeover, with the long wait
before the next dial, exactly if no step on the way loses the close. -/
theorem takeover_honoured_iff (toText : OutboundProgress → Option String) (s : LoopState)
    (hs : (runForever toText).Reachable s) (harrived : takeover ∈ s.inbox) (es : List LoopEvent)
    (r : Option ConnectionEnd) (s' : LoopState) (hend : s.connectOnce toText es = some (r, s')) :
    (r = some .superseded ∧ s'.Waits toText supersededDelaySecs) ↔ s.Calmly toText es := by
  have ho : s.online = true := by
    rw [← Bool.not_eq_false]
    intro hoff
    rw [LoopState.inbox_of_reachable hs hoff] at harrived
    cases harrived
  obtain ⟨hiff, t, rfl⟩ := LoopState.connectOnce_superseded_iff ho harrived hend
  rw [← hiff]
  constructor
  · intro h
    exact h.1
  · rintro rfl
    exact ⟨rfl, LoopState.waits_of_superseded t⟩

/-- A first connection on which a takeover close has arrived. -/
def takenOver : LoopState := { LoopState.initial with control := .selecting, inbox := [takeover] }

theorem takenOver_reachable (toText : OutboundProgress → Option String) :
    (runForever toText).Reachable takenOver := by
  have hup : (runForever toText).Reachable { LoopState.initial with control := .selecting } :=
    Machine.Reachable.init.step (e := .dialed true) rfl
  exact hup.step (e := .arrive takeover) rfl

/-- A frame and a ping that go through before the close is read. -/
def takeoverEvents : List LoopEvent :=
  [.enqueue ⟨"a", .error "no"⟩, .recv, .elapse 30000, .wrote true, .tick, .wrote true, .read]

theorem takeover_honoured_read : takenOver.Calmly errorText takeoverEvents :=
  (takeover_honoured_iff errorText takenOver (takenOver_reachable errorText)
    List.mem_cons_self takeoverEvents (some .superseded) _ rfl).mp
      ⟨rfl, LoopState.waits_of_superseded _⟩

/-- The close waits to be read when a keepalive ping fails: the connection is
taken for a dropped one. -/
theorem takeover_missed :
    ¬ ∀ s, (runForever errorText).Reachable s → takeover ∈ s.inbox → ∀ es r s',
      s.connectOnce errorText es = some (r, s') →
        r = some .superseded ∧ s'.Waits errorText supersededDelaySecs := by
  intro h
  have hsuperseded := (h takenOver (takenOver_reachable errorText) List.mem_cons_self
    [.tick, .wrote false] (some .normal) _ rfl).1
  cases hsuperseded

end PkiExecutor
