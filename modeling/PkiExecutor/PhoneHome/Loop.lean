/-
# `PkiExecutor.PhoneHome.Loop` — the loop that delivers frames

`run_forever` dials, serves the connection until it ends, sleeps and dials again;
`connect_once` is one connection: the parked frame first, then a select over the
socket, the queue and the keepalive timer; `send_progress` parks the frame whose
write failed (`phonehome.rs`).  Handler threads put frames into the queue at any
moment.

The machine here has a state between any two of these steps, and every outcome
of a dial, a read and a write is an event.  `frames_conserved` is what holds in
every state it reaches: the frames put into the queue are those accepted, the
one being written, the parked one and those still queued, in that order.  One
slot is enough to park in because nothing is parked while a connection is served.
-/
import PkiExecutor.Lib.Machine
import PkiExecutor.PhoneHome.Command

namespace PkiExecutor

/-- What a read of the socket yields. -/
inductive Incoming
  | text (text : String)
  /-- a close frame, with the code it carries -/
  | close (code : Option Nat)
  /-- any other frame -/
  | other
  | error
  | endOfStream
  deriving DecidableEq, Repr

/-- What `connect_once` returns. -/
inductive ConnectionEnd
  | normal
  | superseded
  deriving DecidableEq, Repr

/-- Where `run_forever` stands. -/
inductive Control
  /-- in `connect_once`, before the connection is up -/
  | dialing
  /-- in `send_progress`, at its write -/
  | writing (msg : OutboundProgress)
  /-- at the select -/
  | selecting
  /-- at the write of a keepalive ping -/
  | pinging
  /-- in the backoff, which ends at the given time -/
  | sleeping (until_ : Nat)

/-- The locals of `run_forever` and `connect_once`, the queue and the socket's
unread input; times are in milliseconds.  The last two fields are history. -/
structure LoopState where
  control : Control
  pending : Option OutboundProgress
  rx : List OutboundProgress
  attempt : Nat
  /-- when the current `connect_once` was called -/
  started : Nat
  now : Nat
  inbox : List Incoming
  /-- every frame put into the queue, in order -/
  enqueued : List OutboundProgress
  /-- every frame whose write succeeded, in order -/
  accepted : List OutboundProgress

/-- What can happen to the loop, in any order. -/
inductive LoopEvent
  /-- a handler thread sends a frame into the queue -/
  | enqueue (msg : OutboundProgress)
  /-- the socket has something to read -/
  | arrive (item : Incoming)
  | elapse (ms : Nat)
  | dialed (ok : Bool)
  /-- the select takes what the socket yields -/
  | read
  /-- the select takes a frame from the queue -/
  | recv
  /-- the select takes the keepalive timer -/
  | tick
  /-- the write under way ends -/
  | wrote (ok : Bool)
  | wake

/-! ## The steps -/

/-- The close code of a takeover. -/
def closeSuperseded : Nat := 4409

/-- The ladder of delays after drops. -/
def reconnectDelaysSecs : List Nat := [1, 2, 5, 10, 30]

def supersededDelaySecs : Nat := 300

def healthyConnectionSecs : Nat := 60

/-- The delay after a drop. -/
def reconnectDelay (attempt : Nat) : Nat :=
  reconnectDelaysSecs.get ⟨min attempt 4, by simp [reconnectDelaysSecs]⟩

namespace LoopState

/-- The attempts made so far, forgotten after a healthy connection. -/
def attempts (s : LoopState) : Nat :=
  if s.started + healthyConnectionSecs * 1000 ≤ s.now then 0 else s.attempt

/-- The attempts to go on with and the seconds to sleep, after a connection that
ended in this way; `none` is an error. -/
def backoff (s : LoopState) : Option ConnectionEnd → Nat × Nat
  | some .superseded => (s.attempts, supersededDelaySecs)
  | some .normal => (s.attempts + 1, reconnectDelay s.attempts)
  | none => (s.attempts + 1, reconnectDelay s.attempts)

/-- What `run_forever` does when `connect_once` has returned. -/
def disconnect (s : LoopState) (outcome : Option ConnectionEnd) : LoopState :=
  { s with
    attempt := (s.backoff outcome).1
    inbox := []
    control := .sleeping (s.now + (s.backoff outcome).2 * 1000) }

/-- `send_progress` up to its write; a frame that does not serialize is dropped. -/
def sendProgress (toText : OutboundProgress → Option String) (s : LoopState)
    (msg : OutboundProgress) : LoopState :=
  match toText msg with
  | none => { s with control := .selecting }
  | some _ => { s with control := .writing msg }

/-- The connection is up: the parked frame goes first. -/
def connected (toText : OutboundProgress → Option String) (s : LoopState) : LoopState :=
  match s.pending with
  | none => { s with inbox := [], control := .selecting }
  | some msg => sendProgress toText { s with inbox := [], pending := none } msg

/-- What the loop itself does about a read; the command in a text goes to a
thread of its own. -/
def received (s : LoopState) : Incoming → LoopState
  | .endOfStream => s.disconnect (some .normal)
  | .error => s.disconnect none
  | .close (some code) => if code = closeSuperseded then s.disconnect (some .superseded) else s
  | .close none => s
  | .text _ => s
  | .other => s

/-- The socket is there. -/
def online (s : LoopState) : Bool :=
  match s.control with
  | .dialing => false
  | .sleeping _ => false
  | _ => true

/-- One event of the loop; `none` where it cannot happen. -/
def step (toText : OutboundProgress → Option String) (s : LoopState) :
    LoopEvent → Option LoopState
  | .enqueue msg => some { s with rx := s.rx ++ [msg], enqueued := s.enqueued ++ [msg] }
  | .arrive item => if s.online then some { s with inbox := s.inbox ++ [item] } else none
  | .elapse ms => some { s with now := s.now + ms }
  | .dialed ok =>
      match s.control with
      | .dialing => some (if ok then s.connected toText else s.disconnect none)
      | _ => none
  | .read =>
      match s.control, s.inbox with
      | .selecting, item :: inbox => some ({ s with inbox }.received item)
      | _, _ => none
  | .recv =>
      match s.control, s.rx with
      | .selecting, msg :: rx => some (sendProgress toText { s with rx } msg)
      | _, _ => none
  | .tick =>
      match s.control with
      | .selecting => some { s with control := .pinging }
      | _ => none
  | .wrote ok =>
      match s.control with
      | .writing msg =>
          some (if ok then { s with accepted := s.accepted ++ [msg], control := .selecting }
            else { s with pending := some msg }.disconnect (some .normal))
      | .pinging =>
          some (if ok then { s with control := .selecting } else s.disconnect (some .normal))
      | _ => none
  | .wake =>
      match s.control with
      | .sleeping until_ =>
          if until_ ≤ s.now then some { s with control := .dialing, started := s.now } else none
      | _ => none

end LoopState

/-- The process at its start. -/
def LoopState.initial : LoopState :=
  { control := .dialing, pending := none, rx := [], attempt := 0, started := 0, now := 0,
    inbox := [], enqueued := [], accepted := [] }

/-- `run_forever`. -/
def runForever (toText : OutboundProgress → Option String) : Machine LoopState LoopEvent :=
  ⟨.initial, LoopState.step toText⟩

/-! ## What a step can be -/

/-- The steps, each with the point of the loop it is taken at. -/
inductive LoopState.Stepped (toText : OutboundProgress → Option String) (s : LoopState) :
    LoopEvent → LoopState → Prop
  | enqueue (msg : OutboundProgress) :
      Stepped toText s (.enqueue msg)
        { s with rx := s.rx ++ [msg], enqueued := s.enqueued ++ [msg] }
  | arrive (item : Incoming) : s.online = true →
      Stepped toText s (.arrive item) { s with inbox := s.inbox ++ [item] }
  | elapse (ms : Nat) : Stepped toText s (.elapse ms) { s with now := s.now + ms }
  | connected : s.control = .dialing → Stepped toText s (.dialed true) (s.connected toText)
  | refused : s.control = .dialing → Stepped toText s (.dialed false) (s.disconnect none)
  | read {item : Incoming} {inbox : List Incoming} : s.control = .selecting →
      s.inbox = item :: inbox → Stepped toText s .read ({ s with inbox }.received item)
  | recv {msg : OutboundProgress} {rx : List OutboundProgress} : s.control = .selecting →
      s.rx = msg :: rx → Stepped toText s .recv (sendProgress toText { s with rx } msg)
  | tick : s.control = .selecting → Stepped toText s .tick { s with control := .pinging }
  | accepted {msg : OutboundProgress} : s.control = .writing msg →
      Stepped toText s (.wrote true)
        { s with accepted := s.accepted ++ [msg], control := .selecting }
  | parked {msg : OutboundProgress} : s.control = .writing msg →
      Stepped toText s (.wrote false) ({ s with pending := some msg }.disconnect (some .normal))
  | pinged : s.control = .pinging →
      Stepped toText s (.wrote true) { s with control := .selecting }
  | pingLost : s.control = .pinging →
      Stepped toText s (.wrote false) (s.disconnect (some .normal))
  | wake {until_ : Nat} : s.control = .sleeping until_ → until_ ≤ s.now →
      Stepped toText s .wake { s with control := .dialing, started := s.now }

theorem LoopState.step_cases {toText : OutboundProgress → Option String} {s s' : LoopState}
    {e : LoopEvent} (h : s.step toText e = some s') : s.Stepped toText e s' := by
  cases e with
  | enqueue msg =>
      cases h
      exact .enqueue msg
  | arrive item =>
      simp only [step, Option.ite_none_right_eq_some, Option.some.injEq] at h
      obtain ⟨ho, rfl⟩ := h
      exact .arrive item ho
  | elapse ms =>
      cases h
      exact .elapse ms
  | dialed ok =>
      cases hc : s.control with
      | dialing =>
          simp only [step, hc, Option.some.injEq] at h
          obtain rfl := h
          cases ok with
          | true => exact .connected hc
          | false => exact .refused hc
      | writing _ | selecting | pinging | sleeping _ => simp [step, hc] at h
  | read =>
      cases hc : s.control with
      | selecting =>
          cases hi : s.inbox with
          | nil => simp [step, hc, hi] at h
          | cons item inbox =>
              have hread : s.step toText .read = some ({ s with inbox }.received item) := by
                simp [step, hc, hi]
              rw [hread] at h
              cases h
              exact .read hc hi
      | dialing | writing _ | pinging | sleeping _ => simp [step, hc] at h
  | recv =>
      cases hc : s.control with
      | selecting =>
          cases hr : s.rx with
          | nil => simp [step, hc, hr] at h
          | cons msg rx =>
              simp only [step, hc, hr, Option.some.injEq] at h
              obtain rfl := h
              exact .recv hc hr
      | dialing | writing _ | pinging | sleeping _ => simp [step, hc] at h
  | tick =>
      cases hc : s.control with
      | selecting =>
          simp only [step, hc, Option.some.injEq] at h
          obtain rfl := h
          exact .tick hc
      | dialing | writing _ | pinging | sleeping _ => simp [step, hc] at h
  | wrote ok =>
      cases hc : s.control with
      | writing msg =>
          simp only [step, hc, Option.some.injEq] at h
          obtain rfl := h
          cases ok with
          | true => exact .accepted hc
          | false => exact .parked hc
      | pinging =>
          simp only [step, hc, Option.some.injEq] at h
          obtain rfl := h
          cases ok with
          | true => exact .pinged hc
          | false => exact .pingLost hc
      | dialing | selecting | sleeping _ => simp [step, hc] at h
  | wake =>
      cases hc : s.control with
      | sleeping t =>
          simp only [step, hc, Option.ite_none_right_eq_some, Option.some.injEq] at h
          obtain ⟨ht, rfl⟩ := h
          exact .wake hc ht
      | dialing | writing _ | selecting | pinging => simp [step, hc] at h

/-! ## Conservation -/

namespace LoopState

/-- The frame being written, if any. -/
def inFlight (s : LoopState) : List OutboundProgress :=
  match s.control with
  | .writing msg => [msg]
  | _ => []

/-- Every frame the loop was given, from the accepted ones to the queued ones. -/
def frames (s : LoopState) : List OutboundProgress :=
  s.accepted ++ s.inFlight ++ s.pending.toList ++ s.rx

/-- No frame is lost, doubled or out of its order. -/
structure Inv (s : LoopState) : Prop where
  conserved : s.frames = s.enqueued
  /-- The slot is free while a connection is served. -/
  slot : s.online = true → s.pending = none

theorem Inv.disconnect {s : LoopState} (h : s.accepted ++ s.pending.toList ++ s.rx = s.enqueued)
    (outcome : Option ConnectionEnd) : (s.disconnect outcome).Inv where
  conserved := by
    show s.accepted ++ [] ++ s.pending.toList ++ s.rx = s.enqueued
    rw [List.append_nil, h]
  slot := by
    intro ho
    cases ho

theorem sendProgress_eq {toText : OutboundProgress → Option String}
    (ht : ∀ msg, (toText msg).isSome = true) (s : LoopState) (msg : OutboundProgress) :
    s.sendProgress toText msg = { s with control := .writing msg } := by
  obtain ⟨text, hm⟩ := Option.isSome_iff_exists.mp (ht msg)
  simp [sendProgress, hm]

theorem inFlight_of_selecting {s : LoopState} (hc : s.control = .selecting) : s.inFlight = [] := by
  simp [inFlight, hc]

theorem online_of_selecting {s : LoopState} (hc : s.control = .selecting) : s.online = true := by
  simp [online, hc]

theorem Inv.selecting {s : LoopState} (h : s.Inv) (hc : s.control = .selecting) :
    s.pending = none ∧ s.accepted ++ s.rx = s.enqueued := by
  have hp := h.slot (online_of_selecting hc)
  have hf := h.conserved
  rw [frames, inFlight_of_selecting hc, hp] at hf
  exact ⟨hp, by simpa using hf⟩

theorem Inv.dialing {s : LoopState} (h : s.Inv) (hc : s.control = .dialing) :
    s.accepted ++ s.pending.toList ++ s.rx = s.enqueued := by
  simpa [frames, inFlight, hc] using h.conserved

theorem Inv.writing {s : LoopState} (h : s.Inv) {msg : OutboundProgress}
    (hc : s.control = .writing msg) :
    s.pending = none ∧ s.accepted ++ msg :: s.rx = s.enqueued := by
  have hp : s.pending = none := h.slot (by simp [online, hc])
  exact ⟨hp, by simpa [frames, inFlight, hc, hp] using h.conserved⟩

theorem Inv.pinging {s : LoopState} (h : s.Inv) (hc : s.control = .pinging) :
    s.pending = none ∧ s.accepted ++ s.rx = s.enqueued := by
  have hp : s.pending = none := h.slot (by simp [online, hc])
  exact ⟨hp, by simpa [frames, inFlight, hc, hp] using h.conserved⟩

theorem Inv.connected {toText : OutboundProgress → Option String}
    (ht : ∀ msg, (toText msg).isSome = true) {s : LoopState}
    (h : s.accepted ++ s.pending.toList ++ s.rx = s.enqueued) : (s.connected toText).Inv := by
  cases hp : s.pending with
  | none =>
      have hf : s.accepted ++ s.rx = s.enqueued := by simpa [hp] using h
      exact ⟨by simpa [LoopState.connected, hp, frames, inFlight] using hf,
        fun _ => by simp [LoopState.connected, hp]⟩
  | some msg =>
      have hf : s.accepted ++ msg :: s.rx = s.enqueued := by simpa [hp] using h
      exact ⟨by simpa [LoopState.connected, hp, sendProgress_eq ht, frames, inFlight] using hf,
        fun _ => by simp [LoopState.connected, hp, sendProgress_eq ht]⟩

theorem Inv.received {s : LoopState} (h : s.Inv) (hc : s.control = .selecting) (item : Incoming) :
    (s.received item).Inv := by
  obtain ⟨hp, hf⟩ := h.selecting hc
  have hd : s.accepted ++ s.pending.toList ++ s.rx = s.enqueued := by simpa [hp] using hf
  cases item with
  | text text => exact h
  | other => exact h
  | error => exact .disconnect hd _
  | endOfStream => exact .disconnect hd _
  | close code =>
      cases code with
      | none => exact h
      | some code =>
          simp only [LoopState.received]
          split
          · exact .disconnect hd _
          · exact h

theorem Inv.initial : LoopState.initial.Inv := ⟨rfl, fun _ => rfl⟩

/-- Every step keeps the frames and the free slot. -/
theorem Inv.step {toText : OutboundProgress → Option String}
    (ht : ∀ msg, (toText msg).isSome = true) {s s' : LoopState} {e : LoopEvent} (h : s.Inv)
    (hs : s.step toText e = some s') : s'.Inv := by
  cases step_cases hs with
  | enqueue msg =>
      refine ⟨?_, h.slot⟩
      show s.accepted ++ s.inFlight ++ s.pending.toList ++ (s.rx ++ [msg]) = s.enqueued ++ [msg]
      rw [← List.append_assoc, ← h.conserved, frames]
  | arrive item ho => exact ⟨h.conserved, h.slot⟩
  | elapse ms => exact ⟨h.conserved, h.slot⟩
  | connected hc => exact .connected ht (h.dialing hc)
  | refused hc => exact .disconnect (h.dialing hc) none
  | @read item inbox hc hi =>
      have hrest : LoopState.Inv { s with inbox } := ⟨h.conserved, h.slot⟩
      exact hrest.received hc item
  | @recv msg rx hc hr =>
      obtain ⟨hp, hf⟩ := h.selecting hc
      rw [sendProgress_eq ht]
      exact ⟨by simpa [frames, inFlight, hp, hr] using hf, fun _ => hp⟩
  | tick hc =>
      obtain ⟨hp, hf⟩ := h.selecting hc
      exact ⟨by simpa [frames, inFlight, hp] using hf, fun _ => hp⟩
  | @accepted msg hc =>
      obtain ⟨hp, hf⟩ := h.writing hc
      exact ⟨by simpa [frames, inFlight, hp] using hf, fun _ => hp⟩
  | @parked msg hc =>
      obtain ⟨hp, hf⟩ := h.writing hc
      refine .disconnect ?_ _
      show s.accepted ++ [msg] ++ s.rx = s.enqueued
      rw [← hf, List.append_assoc]
      rfl
  | pinged hc =>
      obtain ⟨hp, hf⟩ := h.pinging hc
      exact ⟨by simpa [frames, inFlight, hp] using hf, fun _ => hp⟩
  | pingLost hc =>
      obtain ⟨hp, hf⟩ := h.pinging hc
      exact .disconnect (by simpa [hp] using hf) _
  | @wake until_ hc hn =>
      exact ⟨by simpa [frames, inFlight, hc] using h.conserved, fun ho => by cases ho⟩

/-- A parked frame stays parked, or is taken out of the slot and written. -/
def Keeps (s s' : LoopState) : Prop :=
  ∀ msg, s.pending = some msg →
    s'.pending = some msg ∨ s'.pending = none ∧ s'.control = .writing msg

theorem Inv.keeps {toText : OutboundProgress → Option String}
    (ht : ∀ msg, (toText msg).isSome = true) {s s' : LoopState} {e : LoopEvent} (h : s.Inv)
    (hs : s.step toText e = some s') : s.Keeps s' := by
  intro msg hm
  -- a parked frame means that no connection is served
  have hoff : s.online = false := by
    cases ho : s.online with
    | false => rfl
    | true =>
        rw [h.slot ho] at hm
        cases hm
  cases step_cases hs with
  | enqueue _ | elapse _ | refused _ | wake _ _ => exact .inl hm
  | connected hc => exact .inr (by simp [LoopState.connected, hm, sendProgress_eq ht])
  | arrive _ ho =>
      rw [ho] at hoff
      cases hoff
  | read hc _ | recv hc _ | tick hc | accepted hc | parked hc | pinged hc | pingLost hc =>
      simp [online, hc] at hoff

end LoopState

variable {toText : OutboundProgress → Option String}

theorem runForever_inv (ht : ∀ msg, (toText msg).isSome = true) {s : LoopState}
    (h : (runForever toText).Reachable s) : s.Inv :=
  Machine.invariant (M := runForever toText) .initial (fun _ _ _ _ hi hs => hi.step ht hs) h

/-- The frames of one job, in order. -/
def ofJob (jobId : String) (frames : List OutboundProgress) : List OutboundProgress :=
  frames.filter fun msg => msg.jobId == jobId

/-- In every state the loop reaches the frames put into the queue are those whose
write succeeded, the one being written, the parked one and those still queued; of
each job an initial stretch has been accepted; and no step puts a frame into a
slot that holds another. -/
theorem frames_conserved (toText : OutboundProgress → Option String)
    (ht : ∀ msg, (toText msg).isSome = true) (s : LoopState)
    (h : (runForever toText).Reachable s) :
    s.accepted ++ s.inFlight ++ s.pending.toList ++ s.rx = s.enqueued ∧
      (∀ jobId, ofJob jobId s.accepted <+: ofJob jobId s.enqueued) ∧
      ∀ e s', s.step toText e = some s' → s.Keeps s' := by
  have hinv := runForever_inv ht h
  have hframes : s.accepted ++ (s.inFlight ++ s.pending.toList ++ s.rx) = s.enqueued := by
    rw [← hinv.conserved, LoopState.frames]
    simp
  refine ⟨hinv.conserved, fun jobId => ?_, fun e s' hs => hinv.keeps ht hs⟩
  rw [← hframes]
  exact (List.prefix_append _ _).filter _

/-- The JSON of an error frame whose texts need no escapes. -/
def errorText (msg : OutboundProgress) : Option String :=
  some ("\x7b\"job_id\":\"" ++ msg.jobId ++ "\",\"state\":\x7b\"status\":\"error\",\"detail\":\"" ++
    msg.state.detail.getD "" ++ "\"\x7d\x7d")

/-- A write fails, its frame is parked, and the next connection sends it first. -/
def reconnectEvents : List LoopEvent :=
  [.enqueue ⟨"a", .error "no"⟩, .dialed true, .enqueue ⟨"b", .error "no"⟩, .recv, .wrote false,
    .elapse 1000, .wake, .dialed true, .wrote true, .recv]

theorem frames_conserved_reconnect :
    ∃ s, (runForever errorText).run .initial reconnectEvents = some s ∧
      s.accepted ++ s.inFlight ++ s.pending.toList ++ s.rx = s.enqueued := by
  have hrun : ((runForever errorText).run .initial reconnectEvents).isSome = true := by
    decide
  obtain ⟨s, hs⟩ := Option.isSome_iff_exists.mp hrun
  exact ⟨s, hs, (frames_conserved errorText (fun _ => rfl) s (Machine.Reachable.init.run hs)).1⟩

end PkiExecutor
