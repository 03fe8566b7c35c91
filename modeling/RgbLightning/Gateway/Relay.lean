import RgbLightning.Gateway.Buffers

/-!
# The start of a relay connection

The tasks of a connection share a bounded queue of messages for the websocket.  The
connection task first queues the frames to replay, then spawns the reader, which queues the
frames of new chunks, and then the writer, the only task that takes messages from the queue.
So the connection task waits for ever once the queue is full; `replay_deadlockFree_iff` says
when it does not.
-/

namespace RgbLightning.Gateway

open List Option ReplayFrame

/-- The capacity of the queue from the TCP side to the websocket. -/
def queueCapacity : ℕ := 64

/-- The text of a frame on the websocket. -/
structure Envelope where
  seq : ℕ
  payloadHex : Str
deriving DecidableEq

def ReplayFrame.envelope (frame : ReplayFrame) : Envelope :=
  ⟨frame.seq, frame.payloadHex⟩

/-- Where the connection task stands. -/
inductive Stage where
  /-- It has to queue these messages. -/
  | replaying (rest : List Envelope)
  /-- It has spawned the reader. -/
  | reading
  /-- It has spawned the writer as well, which ends the start of the connection. -/
  | relaying
deriving DecidableEq

/-- A connection: the stage of its task, the queue, and what the writer has sent. -/
structure RelayState where
  stage : Stage
  queue : List Envelope
  sent : List Envelope
deriving DecidableEq

inductive TaskStep where
  | connection
  | reader (message : Envelope)
  | writer

/-- A message is queued when there is space for it. -/
def RelayState.send (s : RelayState) (message : Envelope) (stage : Stage) : Option RelayState :=
  if s.queue.length < queueCapacity then
    some { s with stage := stage, queue := s.queue ++ [message] }
  else none

/-- The state after a step of a task, unless the task waits or does not run. -/
def RelayState.next (s : RelayState) : TaskStep → Option RelayState
  | .connection =>
    match s.stage with
    | .replaying (message :: rest) => s.send message (.replaying rest)
    | .replaying [] => some { s with stage := .reading }
    | .reading => some { s with stage := .relaying }
    | .relaying => some s
  | .reader message =>
    match s.stage with
    | .replaying _ => none
    | stage => s.send message stage
  | .writer =>
    match s.stage, s.queue with
    | .relaying, message :: queue =>
      some { s with queue := queue, sent := s.sent ++ [message] }
    | _, _ => none

/-- The state after steps of the tasks in any order, a task that waits staying where it is. -/
def relayAfter (frames : List ReplayFrame) (steps : List TaskStep) : RelayState :=
  Run.run (fun s step => (s.next step).getD s)
    ⟨.replaying (frames.map envelope), [], []⟩ steps

/-- The connection task waits for space in the queue. -/
def RelayState.waits (s : RelayState) : Bool :=
  match s.stage with
  | .replaying (_ :: _) => queueCapacity ≤ s.queue.length
  | _ => false

/-- The connection task waits for space that no step of a task frees. -/
def RelayState.Deadlocked (s : RelayState) : Prop :=
  s.waits = true ∧ ∀ step s', s.next step = some s' → queueCapacity ≤ s'.queue.length

/-- A connection task that waits does so for ever: the other tasks do not run yet. -/
theorem RelayState.deadlocked_iff {s : RelayState} :
  s.Deadlocked ↔ s.waits = true
  := by
  constructor
  · intro h
    apply h.1
  · intro h
    use h
    obtain ⟨stage, queue, sent⟩ := s
    intro step s' hnext
    match stage with
    | .replaying (message :: rest) =>
      have hfull : queueCapacity ≤ queue.length := by simpa [waits] using h
      cases step with
      | connection => simp [next, send, not_lt.mpr hfull] at hnext
      | reader message => cases hnext
      | writer => cases hnext
    | .replaying [] | .reading | .relaying => cases h

/-- What a step does: the connection task queues the next frame to replay or, when none is
left, spawns the reader; after that, messages are only added behind those queued before. -/
theorem RelayState.next_cases {s s' : RelayState} {step : TaskStep}
    (hnext : s.next step = some s') :
  (∃ message rest, s.stage = .replaying (message :: rest)
    ∧ s' = ⟨.replaying rest, s.queue ++ [message], s.sent⟩)
  ∨ (s.stage = .replaying [] ∧ s' = ⟨.reading, s.queue, s.sent⟩)
  ∨ ((∀ rest, s.stage ≠ .replaying rest) ∧ (∀ rest, s'.stage ≠ .replaying rest)
    ∧ ∃ new, s'.sent ++ s'.queue = s.sent ++ s.queue ++ new)
  := by
  obtain ⟨stage, queue, sent⟩ := s
  cases step with
  | connection =>
    match stage with
    | .replaying (message :: rest) =>
      simp only [next, send] at hnext
      split_ifs at hnext
      left
      exact ⟨message, rest, rfl, (some.inj hnext).symm⟩
    | .replaying [] =>
      right
      left
      exact ⟨rfl, (some.inj hnext).symm⟩
    | .reading | .relaying =>
      obtain rfl := some.inj hnext
      right
      right
      exact ⟨by simp, by simp, [], (append_nil _).symm⟩
  | reader message =>
    match stage with
    | .replaying rest => cases hnext
    | .reading | .relaying =>
      simp only [next, send] at hnext
      split_ifs at hnext
      obtain rfl := some.inj hnext
      right
      right
      exact ⟨by simp, by simp, [message], (append_assoc _ _ _).symm⟩
  | writer =>
    match stage, queue with
    | .relaying, message :: queue =>
      obtain rfl := some.inj hnext
      right
      right
      exact ⟨by simp, by simp, [], by simp⟩

/-- What every step keeps: the frames to replay are queued in order, before any new one. -/
structure Ordered (messages : List Envelope) (s : RelayState) : Prop where
  replaying : ∀ rest, s.stage = .replaying rest → s.sent = [] ∧ s.queue ++ rest = messages
  started : (∀ rest, s.stage ≠ .replaying rest) → ∃ new, s.sent ++ s.queue = messages ++ new

theorem Ordered.next {messages : List Envelope} {s s' : RelayState} {step : TaskStep}
    (h : Ordered messages s) (hnext : s.next step = some s') :
  Ordered messages s'
  := by
  obtain ⟨message, rest, hstage, rfl⟩ | ⟨hstage, rfl⟩ | ⟨hstage, hstage', new, hnew⟩
    := RelayState.next_cases hnext
  · obtain ⟨hsent, hqueue⟩ := h.replaying _ hstage
    constructor
    · intro rest' hrest
      obtain rfl := Stage.replaying.inj hrest
      use hsent
      rw [append_assoc, singleton_append, hqueue]
    · intro hnone
      cases hnone rest rfl
  · obtain ⟨hsent, hqueue⟩ := h.replaying _ hstage
    constructor
    · intro rest hrest
      cases hrest
    · intro _
      use []
      rw [hsent, nil_append, ← hqueue, append_nil, append_nil]
  · obtain ⟨before, hbefore⟩ := h.started hstage
    constructor
    · intro rest hrest
      cases hstage' rest hrest
    · intro _
      use before ++ new
      rw [hnew, hbefore, append_assoc]

theorem ordered_relayAfter (frames : List ReplayFrame) (steps : List TaskStep) :
  Ordered (frames.map envelope) (relayAfter frames steps)
  := by
  apply Run.run_invariant (G := fun _ _ => True)
  · intro s step h _
    cases hnext : s.next step with
    | none => apply h
    | some s' => apply h.next hnext
  · constructor
    · intro rest hrest
      use rfl
      rw [← Stage.replaying.inj hrest, nil_append]
    · intro hnone
      cases hnone _ rfl
  · apply Run.meets_of_forall
    intro _ _
    trivial

/-- A connection task only waits when there are more frames to replay than the queue holds. -/
theorem Ordered.lt_length_of_waits {messages : List Envelope} {s : RelayState}
    (h : Ordered messages s) (hwaits : s.waits = true) :
  queueCapacity < messages.length
  := by
  obtain ⟨stage, queue, sent⟩ := s
  match stage with
  | .replaying (message :: rest) =>
    have hfull : queueCapacity ≤ queue.length := by
      simpa [RelayState.waits] using hwaits
    obtain ⟨-, hqueue⟩ := h.replaying _ rfl
    change queue ++ message :: rest = messages at hqueue
    rw [← hqueue, length_append, length_cons]
    omega
  | .replaying [] | .reading | .relaying => cases hwaits

/-- The connection task fills the queue with the first frames to replay. -/
theorem relayAfter_connection {frames : List ReplayFrame} {n : ℕ} (hn : n ≤ frames.length)
    (hcapacity : n ≤ queueCapacity) :
  relayAfter frames (replicate n .connection)
    = ⟨.replaying ((frames.drop n).map envelope),
        (frames.take n).map envelope, []⟩
  := by
  induction n with
  | zero => rfl
  | succ n ih =>
    have hlt : n < frames.length := hn
    have hlength : ((frames.take n).map envelope).length < queueCapacity := by
      rw [length_map, length_take]
      omega
    rw [replicate_succ', relayAfter, Run.run_concat]
    change ((relayAfter frames (replicate n .connection)).next .connection).getD _ = _
    rw [ih hlt.le (Nat.le_of_succ_le hcapacity), drop_eq_getElem_cons hlt, map_cons]
    simp only [RelayState.next, RelayState.send, if_pos hlength, getD_some]
    rw [take_succ_eq_append_getElem hlt, map_append, map_singleton]

/-- For every content of the buffers and every last applied number, the start of a connection
is free of deadlock, and has queued the frames to replay in order and before any new one when
it ends, exactly when the frames to replay fit into the queue. -/
theorem replay_deadlockFree_iff (limits : ReplayLimits) (m : Moment)
    (buffers : Table Str ReplaySessionBuffer) (sessionId : Str) (lastAppliedSeq : Option ℕ) :
  (∀ steps,
      let frames := (replayStart limits m buffers sessionId lastAppliedSeq).1
      ¬(relayAfter frames steps).Deadlocked
      ∧ ((relayAfter frames steps).stage = .relaying →
          ∃ new, (relayAfter frames steps).sent ++ (relayAfter frames steps).queue
            = frames.map envelope ++ new))
  ↔ (replayStart limits m buffers sessionId lastAppliedSeq).1.length ≤ queueCapacity
  := by
  generalize (replayStart limits m buffers sessionId lastAppliedSeq).1 = frames
  constructor
  · intro h
    by_contra hlonger
    rw [not_le] at hlonger
    apply (h (replicate queueCapacity .connection)).1
    rw [RelayState.deadlocked_iff, relayAfter_connection hlonger.le le_rfl,
      drop_eq_getElem_cons hlonger]
    simp only [RelayState.waits, map_cons, length_map, length_take,
      decide_eq_true_iff]
    omega
  · intro hfits steps
    have hordered := ordered_relayAfter frames steps
    constructor
    · rw [RelayState.deadlocked_iff]
      intro hwaits
      have hlonger := hordered.lt_length_of_waits hwaits
      rw [length_map] at hlonger
      omega
    · intro hstage
      apply hordered.started
      intro rest hrest
      rw [hstage] at hrest
      cases hrest

/-- A session with one frame more than the queue holds. -/
def longSession : Table Str ReplaySessionBuffer :=
  (after (.ofEnv 1024 300 256) (emptyChunks 65)).buffers

/-- Its frames are within the default cap, and the connection of a client that has applied
none of them waits for ever. -/
theorem replay_deadlocks :
  (longSession.lookup (str "s")).map (fun buffer => buffer.frames.length) = some 65
  ∧ (relayAfter (replayStart (.ofEnv 1024 300 256) standstill longSession (str "s") none).1
      (replicate 64 .connection)).Deadlocked
  := by
  rw [RelayState.deadlocked_iff]
  decide +kernel

end RgbLightning.Gateway
