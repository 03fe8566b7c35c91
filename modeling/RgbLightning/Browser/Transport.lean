import RgbLightning.Browser.LivePayments

/-!
# The replay transport of the browser

The gateway numbers the frames of a session.  The browser hands a frame to the peer manager
if its number follows the last one that was applied, drops it if its number was applied
before, and gives up the connection if there is a gap.  A number counts as applied when the
two calls of the peer manager have succeeded; it is then written to the local storage, from
which the cursor is loaded when the page is reloaded or the session is opened again.

So a payload may be handed over twice (`handed_twice`).  `handed_consecutive` says when the
payloads of the whole history carry consecutive numbers.
-/

namespace RgbLightning.Transport

/-! ### Numbers -/

inductive ReplayFrameDisposition where
  | accept
  | dropDuplicate
  | gap (expectedNext : ℕ)
deriving DecidableEq

/-- The number of the next frame must be the one after the last applied. -/
def replayFrameDisposition (lastApplied frameSeq : ℕ) : ReplayFrameDisposition :=
  if frameSeq ≤ lastApplied then .dropDuplicate
  else if frameSeq > saturatingAdd lastApplied 1 then .gap (saturatingAdd lastApplied 1)
  else .accept

theorem eq_succ_of_accept {lastApplied frameSeq : ℕ}
    (h : replayFrameDisposition lastApplied frameSeq = .accept) :
  frameSeq = lastApplied + 1
  := by
  unfold replayFrameDisposition at h
  split_ifs at h with hle hgt
  rw [saturatingAdd] at hgt
  omega

/-- The largest integer that is passed to JavaScript as a number. -/
def maxSafeInteger : ℕ := 2 ^ 53 - 1

/-! ### The transport -/

/-- The text of a websocket message, parsed. -/
structure ReplayEnvelopeFrame where
  seq : ℕ
  payloadHex : Str
deriving DecidableEq

/-- What is reported when the peer is disconnected. -/
inductive TransportError where
  | replayEnvelopeFrameInvalid
  | replayEnvelopePayloadHexInvalid
  | replaySequenceGap (expectedNext got : ℕ)
  | inboundReplaySequenceGap (expectedNext got : ℕ)
  | websocketReadError
  | readEventFailed
  | processEventsFailed
deriving DecidableEq

inductive PeerInboundMessage where
  | payloadHex (payloadHex : Str) (replaySeq : Option ℕ)
  | transportError (error : TransportError)

/-- How the calls end that a hand-over makes: those of the peer manager, and the write of the
cursor. -/
structure HandOverFate where
  readEvent : Bool
  processEvents : Bool
  persist : Bool

/-- A transport of one session with its peer session.  `stored` is the persisted cursor,
`handed` lists the numbers of the payloads that were handed to the peer manager, `unsaved`
says whether the last of them is not the persisted cursor. -/
structure State where
  stored : Option ℕ
  lastInboundSeq : ℕ
  stop : Bool
  closed : Bool
  disconnected : Bool
  reported : List TransportError
  handed : List (Option ℕ)
  unsaved : Bool
deriving DecidableEq

/-- A session that has not been opened yet. -/
def State.unopened (stored : Option ℕ) : State :=
  ⟨stored, 0, true, true, true, [], [], false⟩

variable (s : State)

def State.disconnect (error : TransportError) : State :=
  { s with disconnected := true, reported := s.reported ++ [error] }

/-- The write of the cursor may fail, which is ignored. -/
def State.commit (seq : ℕ) (persist : Bool) : State :=
  { s with
    stored := if persist then some seq else s.stored
    lastInboundSeq := max seq s.lastInboundSeq
    unsaved := !persist }

/-- A payload is handed to the peer manager and, when both calls succeed, its number is
committed. -/
def State.handOver (replaySeq : Option ℕ) (fate : HandOverFate) : State :=
  let s := { s with handed := s.handed ++ [replaySeq], unsaved := true }
  if fate.readEvent then
    if fate.processEvents then
      match replaySeq with
      | some seq => s.commit seq fate.persist
      | none => s
    else s.disconnect .processEventsFailed
  else s.disconnect .readEventFailed

/-- The queue of inbound messages is empty before and after each call, so it is drained of
one message. -/
def State.drainInboundQueue (message : PeerInboundMessage) (fate : HandOverFate) : State :=
  match message with
  | .transportError error => s.disconnect error
  | .payloadHex _ replaySeq =>
    match replaySeq.map (replayFrameDisposition s.lastInboundSeq) with
    | some .dropDuplicate => s
    | some (.gap expectedNext) =>
      s.disconnect (.inboundReplaySequenceGap expectedNext (replaySeq.getD 0))
    | _ => s.handOver replaySeq fate

def State.onMessage (message : PeerInboundMessage) (fate : HandOverFate) : State :=
  if s.disconnected then s else s.drainInboundQueue message fate

/-- A frame is passed on with its number if that can be passed to JavaScript, and as plain
bytes otherwise. -/
def replayMessage (frame : ReplayEnvelopeFrame) (bytes : Bytes) : PeerInboundMessage :=
  .payloadHex (hexStr bytes) (if frame.seq ≤ maxSafeInteger then some frame.seq else none)

/-- The read loop has read a text, which may not be a frame. -/
def State.receive (text : Option ReplayEnvelopeFrame) (fate : HandOverFate) : State :=
  match text with
  | none => s.onMessage (.transportError .replayEnvelopeFrameInvalid) fate
  | some frame =>
    match replayFrameDisposition s.lastInboundSeq frame.seq with
    | .dropDuplicate => s
    | .gap expectedNext =>
      { s.onMessage (.transportError (.replaySequenceGap expectedNext frame.seq)) fate with
        closed := true, stop := true }
    | .accept =>
      match hexDecode (trim frame.payloadHex) with
      | none => s.onMessage (.transportError .replayEnvelopePayloadHexInvalid) fate
      | some bytes => s.onMessage (replayMessage frame bytes) fate

/-- How reading from the websocket ends: with an error, or at the end of the stream. -/
inductive ReadEnd where
  | error
  | ended

/-- The read loop reconnects, and keeps its cursor, or gives up. -/
def State.broken (readEnd : ReadEnd) (reconnected : Bool) (fate : HandOverFate) : State :=
  if reconnected then { s with closed := false }
  else
    let s := { s with closed := true, stop := true }
    match readEnd with
    | .error => s.onMessage (.transportError .websocketReadError) fate
    | .ended => s

/-- The cursor an opened session starts with: the one given in its options, or else the
persisted one, which may not be readable. -/
def initialReplayLastAppliedCursor (replayLastAppliedSeq stored : Option ℕ) (reads : Bool) : ℕ :=
  (replayLastAppliedSeq.or (if reads then stored else none)).getD 0

/-- The session is opened, for the first time, after a reload of the page or after a
disconnection. -/
def State.openSession (replayLastAppliedSeq : Option ℕ) (reads : Bool) : State :=
  { s with
    lastInboundSeq := initialReplayLastAppliedCursor replayLastAppliedSeq s.stored reads
    stop := false
    closed := false
    disconnected := false }

inductive Event where
  | text (text : Option ReplayEnvelopeFrame) (fate : HandOverFate)
  | broken (readEnd : ReadEnd) (reconnected : Bool) (fate : HandOverFate)
  | openSession (replayLastAppliedSeq : Option ℕ) (reads : Bool)

/-- The read loop does nothing after it was stopped. -/
def step (s : State) : Event → State
  | .text text fate => if s.stop then s else s.receive text fate
  | .broken readEnd reconnected fate => if s.stop then s else s.broken readEnd reconnected fate
  | .openSession replayLastAppliedSeq reads => s.openSession replayLastAppliedSeq reads

/-- The session after a sequence of events, with a persisted cursor at the start. -/
def after (stored : Option ℕ) (events : List Event) : State :=
  Run.run step (State.unopened stored) events

/-! ### Consecutive numbers -/

/-- A number that is accepted can be passed to JavaScript, and when the session is opened the
last hand-over had succeeded and had been written, and the persisted cursor is loaded. -/
def Resumes (s : State) : Event → Prop
  | .text text _ => ∀ frame ∈ text,
      replayFrameDisposition s.lastInboundSeq frame.seq = .accept → frame.seq ≤ maxSafeInteger
  | .broken _ _ _ => True
  | .openSession replayLastAppliedSeq reads =>
    s.unsaved = false
    ∧ initialReplayLastAppliedCursor replayLastAppliedSeq s.stored reads = s.stored.getD 0

instance (s : State) : ∀ e : Event, Decidable (Resumes s e)
  | .text text _ => inferInstanceAs (Decidable (∀ frame ∈ text,
      replayFrameDisposition s.lastInboundSeq frame.seq = .accept → frame.seq ≤ maxSafeInteger))
  | .broken _ _ _ => inferInstanceAs (Decidable True)
  | .openSession replayLastAppliedSeq reads => inferInstanceAs (Decidable (s.unsaved = false
      ∧ initialReplayLastAppliedCursor replayLastAppliedSeq s.stored reads = s.stored.getD 0))

/-- What holds of a session that started after the number `start`. -/
structure Consecutive (start : ℕ) (s : State) : Prop where
  handed : s.handed = (List.range' (start + 1) s.handed.length).map some
  stored_le : s.stored.getD 0 ≤ start + s.handed.length
  saved : s.unsaved = false → s.stored.getD 0 = start + s.handed.length
  cursor : s.disconnected = false → s.lastInboundSeq = start + s.handed.length

variable {start : ℕ} {s : State}

section Consecutive

variable (h : Consecutive start s)
include h

theorem Consecutive.disconnect (error : TransportError) :
  Consecutive start (s.disconnect error)
  where
  handed := h.handed
  stored_le := h.stored_le
  saved := h.saved
  cursor := by intros; contradiction

omit h in
theorem consecutive_commit
    (hhanded : s.handed = (List.range' (start + 1) s.handed.length).map some)
    (hle : s.stored.getD 0 ≤ start + s.handed.length) {seq : ℕ}
    (hseq : seq = start + s.handed.length) (hcursor : s.lastInboundSeq ≤ seq) (persist : Bool) :
  Consecutive start (s.commit seq persist)
  := by
  have hmax : max seq s.lastInboundSeq = start + s.handed.length := by omega
  cases persist with
  | true => exact ⟨hhanded, hseq.le, fun _ => hseq, fun _ => hmax⟩
  | false => exact ⟨hhanded, hle, by intros; contradiction, fun _ => hmax⟩

theorem Consecutive.handOver (hconnected : s.disconnected = false) (fate : HandOverFate) :
  Consecutive start (s.handOver (some (s.lastInboundSeq + 1)) fate)
  := by
  have hcursor := h.cursor hconnected
  have hle := h.stored_le
  have hlength : (s.handed ++ [some (s.lastInboundSeq + 1)]).length = s.handed.length + 1 := by
    rw [List.length_append, List.length_singleton]
  have hhanded : s.handed ++ [some (s.lastInboundSeq + 1)]
      = (List.range' (start + 1) (s.handed ++ [some (s.lastInboundSeq + 1)]).length).map some := by
    rw [hlength, List.range'_concat, List.map_append, ← h.handed, hcursor, List.map_singleton]
    congr 3
    omega
  unfold State.handOver
  split_ifs with hread hprocess
  · apply consecutive_commit hhanded
    · change s.stored.getD 0 ≤ start + (s.handed ++ [_]).length
      omega
    · rw [hlength, hcursor]
      rfl
    · apply Nat.le_succ
  -- a call of the peer manager fails: the number is not committed, and the peer is disconnected
  · refine ⟨hhanded, ?_, by intros; contradiction, by intros; contradiction⟩
    change s.stored.getD 0 ≤ start + (s.handed ++ [_]).length
    omega
  · refine ⟨hhanded, ?_, by intros; contradiction, by intros; contradiction⟩
    change s.stored.getD 0 ≤ start + (s.handed ++ [_]).length
    omega

theorem Consecutive.onError (error : TransportError) (fate : HandOverFate) :
  Consecutive start (s.onMessage (.transportError error) fate)
  := by
  unfold State.onMessage
  split_ifs
  · apply h
  · apply h.disconnect

/-- The payload with the next number is handed over, unless the peer is disconnected. -/
theorem Consecutive.onPayload (payloadHex : Str) (fate : HandOverFate) :
  Consecutive start (s.onMessage (.payloadHex payloadHex (some (s.lastInboundSeq + 1))) fate)
  := by
  unfold State.onMessage
  split_ifs with hdisconnected
  · apply h
  · simp only [State.drainInboundQueue, Option.map_some]
    split
    · apply h
    · apply h.disconnect
    · apply h.handOver (Bool.eq_false_of_not_eq_true hdisconnected)

theorem Consecutive.stopped (closed stop : Bool) :
  Consecutive start { s with closed := closed, stop := stop }
  := ⟨h.handed, h.stored_le, h.saved, h.cursor⟩

theorem Consecutive.receive {text : Option ReplayEnvelopeFrame} (fate : HandOverFate)
    (hsafe : ∀ frame ∈ text,
      replayFrameDisposition s.lastInboundSeq frame.seq = .accept → frame.seq ≤ maxSafeInteger) :
  Consecutive start (s.receive text fate)
  := by
  unfold State.receive
  cases text with
  | none => apply h.onError
  | some frame =>
    simp only
    split
    · apply h
    · apply (h.onError _ fate).stopped
    · rename_i haccept
      split
      · apply h.onError
      · rw [replayMessage, if_pos (hsafe frame rfl haccept), eq_succ_of_accept haccept]
        apply h.onPayload

theorem Consecutive.step {e : Event} (hresumes : Resumes s e) :
  Consecutive start (step s e)
  := by
  cases e with
  | text text fate =>
    simp only [Transport.step]
    split_ifs
    · apply h
    · apply h.receive fate hresumes
  | broken readEnd reconnected fate =>
    simp only [Transport.step, State.broken]
    split_ifs
    · apply h
    · apply h.stopped
    · cases readEnd with
      | error => apply (h.stopped true true).onError
      | ended => apply h.stopped
  | openSession replayLastAppliedSeq reads =>
    obtain ⟨hsaved, hcursor⟩ := hresumes
    refine ⟨h.handed, h.stored_le, h.saved, ?_⟩
    intro _
    apply hcursor.trans (h.saved hsaved)

/-- A frame with a number that was handed over, or that the session started after, is dropped
or reaches a peer that is disconnected. -/
theorem Consecutive.duplicate {frame : ReplayEnvelopeFrame}
    (hframe : frame.seq ≤ start + s.handed.length) (fate : HandOverFate) :
  (Transport.step s (.text (some frame) fate)).disconnected = s.disconnected
  := by
  cases hdisconnected : s.disconnected with
  | true =>
    have hsame : ∀ message, s.onMessage message fate = s :=
      fun message => if_pos hdisconnected
    simp only [Transport.step, State.receive, hsame]
    split_ifs
    · apply hdisconnected
    split
    · apply hdisconnected
    · apply hdisconnected
    · split
      · apply hdisconnected
      · apply hdisconnected
  | false =>
    have hdrop : replayFrameDisposition s.lastInboundSeq frame.seq = .dropDuplicate := by
      rw [replayFrameDisposition, if_pos]
      rw [h.cursor hdisconnected]
      apply hframe
    simp only [Transport.step, State.receive, hdrop, ite_self]
    apply hdisconnected

end Consecutive

/-- For every sequence of frames, malformed ones, duplicates and gaps among them, failures of
the websocket and openings of the session: if whenever the session is opened the last
hand-over had succeeded and had been written and the persisted cursor is the one that is
loaded, and the numbers accepted can be passed to JavaScript, then the payloads handed to the
peer manager carry the numbers that follow the cursor loaded first, the persisted cursor is
at most the last of them, and a duplicate frame disconnects nobody. -/
theorem handed_consecutive (stored : Option ℕ) (events : List Event)
    (hresumes : Run.Meets step Resumes (.unopened stored) events) :
  (after stored events).handed
      = (List.range' (stored.getD 0 + 1) (after stored events).handed.length).map some
  ∧ (after stored events).stored.getD 0 ≤ stored.getD 0 + (after stored events).handed.length
  ∧ ∀ frame fate, frame.seq ≤ stored.getD 0 + (after stored events).handed.length →
      (step (after stored events) (.text (some frame) fate)).disconnected
        = (after stored events).disconnected
  := by
  have hinit : Consecutive (stored.getD 0) (.unopened stored) :=
    ⟨rfl, le_rfl, fun _ => rfl, by intros; contradiction⟩
  have h : Consecutive (stored.getD 0) (after stored events) := by
    apply Run.run_invariant _ hinit hresumes
    intro s e hs he
    apply hs.step he
  use h.handed, h.stored_le
  intro frame fate hframe
  apply h.duplicate hframe

/-- All calls of a hand-over succeed. -/
def succeeds : HandOverFate := ⟨true, true, true⟩

/-- A session with a frame, its duplicate, a lost websocket, the next frame and a reload. -/
def longSession : List Event :=
  [.openSession none true, .text (some ⟨6, str "aa"⟩) succeeds,
    .text (some ⟨6, str "aa"⟩) succeeds, .broken .ended true succeeds,
    .text (some ⟨7, str "bb"⟩) succeeds, .openSession none true,
    .text (some ⟨8, str "cc"⟩) succeeds]

theorem handed_consecutive_longSession :
  Run.Meets step Resumes (.unopened (some 5)) longSession
  ∧ (after (some 5) longSession).handed = [some 6, some 7, some 8]
  := by
  have hresumes : Run.Meets step Resumes (.unopened (some 5)) longSession := by decide +kernel
  obtain ⟨h, -⟩ := handed_consecutive (some 5) longSession hresumes
  use hresumes
  rw [h]
  decide +kernel

/-- The peer manager takes a payload and fails to process it.  After a reload it is handed the
payload again. -/
theorem handed_twice :
  (after none [.openSession none true, .text (some ⟨1, str "aa"⟩) ⟨true, false, true⟩,
      .openSession none true, .text (some ⟨1, str "aa"⟩) succeeds]).handed
    = [some 1, some 1]
  := by
  decide +kernel

end RgbLightning.Transport
