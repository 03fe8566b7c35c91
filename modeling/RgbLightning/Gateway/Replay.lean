import RgbLightning.Text
import RgbLightning.Lib.Run
import Mathlib.Data.List.Sort

/-!
# The replay buffers of the proxy gateway

The gateway relays websockets to TCP.  With replay enabled, every chunk read from TCP is
numbered within the replay session of its connection and kept in the session's buffer, and a
connection that is opened again for the session is sent the buffered frames above the last
number its client applied.

`enforceReplaySessionCap` runs before every use of the map of buffers: when the map is full
it evicts the sessions touched least recently.  A `GatewayState` is the map together with the
open connections.  Its steps are the critical sections of the buffers' lock, in any
interleaving.
-/

namespace RgbLightning.Gateway

/-! ### Buffers -/

/-- A numbered chunk. -/
@[ext] structure ReplayFrame where
  seq : ℕ
  payloadHex : Str
  queuedAtUnix : ℕ
deriving DecidableEq

@[ext] structure ReplaySessionBuffer where
  nextSeq : ℕ
  frames : List ReplayFrame
  lastTouchedUnix : ℕ
deriving DecidableEq

/-- The limits of the buffers, both caps positive. -/
structure ReplayLimits where
  maxFrames : ℕ
  ttlSecs : ℕ
  maxSessions : ℕ
  maxFrames_pos : 0 < maxFrames
  maxSessions_pos : 0 < maxSessions

theorem raised_pos (n : ℕ) {m : ℕ} (hm : 0 < m) :
  0 < max n m
  := by
  apply lt_max_of_lt_right hm

/-- The limits the gateway takes from its environment. -/
def ReplayLimits.ofEnv (maxFrames ttlSecs maxSessions : ℕ) : ReplayLimits where
  maxFrames := max maxFrames 64
  ttlSecs := max ttlSecs 30
  maxSessions := max maxSessions 8
  maxFrames_pos := raised_pos maxFrames (Nat.succ_pos 63)
  maxSessions_pos := raised_pos maxSessions (Nat.succ_pos 7)

/-- A session id is a short word of letters, digits, `_` and `-`. -/
def isValidReplaySessionId (value : Str) : Bool :=
  value ≠ [] ∧ value.length ≤ 64 ∧
    value.all fun c =>
      (48 ≤ c ∧ c ≤ 57) ∨ (65 ≤ c ∧ c ≤ 90) ∨ (97 ≤ c ∧ c ≤ 122) ∨ c = 95 ∨ c = 45

/-- The frames young enough to be kept. -/
def retainYoung (ttlSecs now : ℕ) (frames : List ReplayFrame) : List ReplayFrame :=
  frames.filter fun frame => now - frame.queuedAtUnix ≤ ttlSecs

/-- Frames are popped from the front while there are more than `cap` of them. -/
def popOverflow (cap : ℕ) : List ReplayFrame → List ReplayFrame
  | [] => []
  | frame :: frames =>
    if cap < (frame :: frames).length then popOverflow cap frames else frame :: frames

/-- What a critical section finds outside the buffers: the readings of the clock, the first
by the enforcement of the session cap, and the order in which the hash map is iterated. -/
structure Moment where
  enforcedAt : ℕ
  now : ℕ
  iteration : Str → ℕ

/-- The sessions by the time they were touched last, in the order of iteration where these
times agree. -/
def oldestFirst (m : Moment) (state : Table Str ReplaySessionBuffer) : List Str :=
  let entries := (state.entries.map fun e => (e.1, e.2.lastTouchedUnix)).insertionSort
    fun a b => m.iteration a.1 ≤ m.iteration b.1
  (entries.insertionSort fun a b => a.2 ≤ b.2).map Prod.fst

variable (limits : ReplayLimits)

/-- The sessions the enforcement of the cap removes: none while there is room for one more,
otherwise as many as it takes. -/
def evictions (m : Moment) (state : Table Str ReplaySessionBuffer) :
    List Str :=
  let maxSessions := max limits.maxSessions 1
  if state.size < maxSessions then []
  else (oldestFirst m state).take (max (state.size - (maxSessions - 1)) 1)

/-- The frames of a session that stays are dropped by age and by number. -/
def ReplaySessionBuffer.cleanUp (now : ℕ) (buffer : ReplaySessionBuffer) :
    ReplaySessionBuffer :=
  { buffer with
    frames := popOverflow (max limits.maxFrames 1)
      (retainYoung limits.ttlSecs now buffer.frames) }

def enforceReplaySessionCap (m : Moment) (state : Table Str ReplaySessionBuffer) :
    Table Str ReplaySessionBuffer :=
  if state.size < max limits.maxSessions 1 then state
  else
    Table.map ((evictions limits m state).foldl (fun t key => t.erase key) state)
      (ReplaySessionBuffer.cleanUp limits m.enforcedAt)

/-- The buffer of a session as a critical section finds it after the enforcement: a new one
if the session has none, touched, and without the frames that are too old. -/
def entry (m : Moment) (state : Table Str ReplaySessionBuffer) (sessionId : Str) :
    ReplaySessionBuffer :=
  let found := (state.lookup sessionId).getD ⟨1, [], m.now⟩
  { found with
    lastTouchedUnix := m.now
    frames := retainYoung limits.ttlSecs m.now found.frames }

/-- The start of a connection: the frames to replay, and the buffers. -/
def replayStart (m : Moment) (state : Table Str ReplaySessionBuffer) (sessionId : Str)
    (lastAppliedSeq : Option ℕ) :
    List ReplayFrame × Table Str ReplaySessionBuffer :=
  let state := enforceReplaySessionCap limits m state
  let buffer := entry limits m state sessionId
  (buffer.frames.filter fun frame => lastAppliedSeq.getD 0 < frame.seq,
    state.insert sessionId buffer)

/-- A buffer with a chunk numbered and queued. -/
def ReplaySessionBuffer.push (now : ℕ) (chunk : Bytes) (buffer : ReplaySessionBuffer) :
    ReplayFrame × ReplaySessionBuffer :=
  let frame : ReplayFrame := ⟨buffer.nextSeq, hexStr chunk, now⟩
  (frame,
    { buffer with
      nextSeq := saturatingAdd buffer.nextSeq 1
      frames := popOverflow limits.maxFrames (buffer.frames ++ [frame]) })

def replayChunk (m : Moment) (state : Table Str ReplaySessionBuffer) (sessionId : Str)
    (chunk : Bytes) : ReplayFrame × Table Str ReplaySessionBuffer :=
  let state := enforceReplaySessionCap limits m state
  let (frame, buffer) := (entry limits m state sessionId).push limits m.now chunk
  (frame, state.insert sessionId buffer)

/-! ### Connections -/

/-- What a connection asks for in its query. -/
structure ReplayRelayConfig where
  enabled : Bool
  sessionId : Option Str
  lastAppliedSeq : Option ℕ
deriving DecidableEq

/-- The session a connection replays, if any. -/
def ReplayRelayConfig.session (relay : ReplayRelayConfig) : Option Str :=
  if relay.enabled then relay.sessionId else none

/-- A frame queued for the websocket of a connection: replayed at its start or, new, read by
its reader. -/
structure Queued where
  connection : ℕ
  session : Str
  frame : ReplayFrame
  isNew : Bool
deriving DecidableEq

/-- The gateway, with the logs of the frames queued and of the sessions evicted so far. -/
structure GatewayState where
  buffers : Table Str ReplaySessionBuffer
  connections : Table ℕ ReplayRelayConfig
  queued : List Queued
  evicted : List Str
  clock : ℕ

def GatewayState.init : GatewayState :=
  ⟨∅, ∅, [], [], 0⟩

inductive Event where
  /-- A websocket is connected to its target. -/
  | connect (connection : ℕ) (relay : ReplayRelayConfig) (m : Moment)
  /-- The reader of a connection has read a chunk. -/
  | chunk (connection : ℕ) (bytes : Bytes) (m : Moment)
  /-- The reader of a connection has ended. -/
  | close (connection : ℕ)

/-- The gateway after the start of a connection that replays a session. -/
def GatewayState.start (g : GatewayState) (connection : ℕ) (relay : ReplayRelayConfig)
    (sessionId : Str) (m : Moment) : GatewayState :=
  let (frames, buffers) := replayStart limits m g.buffers sessionId relay.lastAppliedSeq
  { buffers := buffers
    connections := g.connections.insert connection relay
    queued := g.queued ++ frames.map fun frame => ⟨connection, sessionId, frame, false⟩
    evicted := g.evicted ++ evictions limits m g.buffers
    clock := m.now }

/-- The gateway after a chunk of a connection that replays a session. -/
def GatewayState.number (g : GatewayState) (connection : ℕ) (sessionId : Str) (bytes : Bytes)
    (m : Moment) : GatewayState :=
  let (frame, buffers) := replayChunk limits m g.buffers sessionId bytes
  { g with
    buffers := buffers
    queued := g.queued ++ [⟨connection, sessionId, frame, true⟩]
    evicted := g.evicted ++ evictions limits m g.buffers
    clock := m.now }

/-- A connection whose session id is refused is not opened, and connections that replay no
session leave the buffers alone.  The reader checks the id again, which is the accepted one. -/
def step (g : GatewayState) : Event → GatewayState
  | .connect connection relay m =>
    if connection ∈ g.connections then g
    else
      match relay.session with
      | none => { g with connections := g.connections.insert connection relay }
      | some sessionId =>
        if isValidReplaySessionId sessionId then g.start limits connection relay sessionId m
        else g
  | .chunk connection bytes m =>
    match (g.connections.lookup connection).bind ReplayRelayConfig.session with
    | none => g
    | some sessionId => g.number limits connection sessionId bytes m
  | .close connection => { g with connections := g.connections.erase connection }

def after (events : List Event) : GatewayState :=
  Run.run (step limits) GatewayState.init events

variable (limits : ReplayLimits)

/-- What an event does: it opens or closes a connection and leaves the buffers alone, or it
starts a session, or numbers a chunk of a connection that is open. -/
theorem step_cases (g : GatewayState) (e : Event) :
  (∃ connections, step limits g e = { g with connections := connections } ∧
    ∀ c relay, connections.lookup c = some relay →
      g.connections.lookup c = some relay ∨ relay.session = none)
  ∨ (∃ connection relay sessionId m, e = .connect connection relay m
    ∧ relay.session = some sessionId
    ∧ step limits g e = g.start limits connection relay sessionId m)
  ∨ (∃ connection bytes m relay sessionId, e = .chunk connection bytes m
    ∧ g.connections.lookup connection = some relay ∧ relay.session = some sessionId
    ∧ step limits g e = g.number limits connection sessionId bytes m)
  := by
  have hsame : ∃ connections, g = { g with connections := connections } ∧
      ∀ c relay, connections.lookup c = some relay →
        g.connections.lookup c = some relay ∨ relay.session = none :=
    ⟨g.connections, rfl, fun _ _ h => Or.inl h⟩
  cases e with
  | connect connection relay m =>
    simp only [step]
    split_ifs with hmem
    · left
      apply hsame
    split
    · rename_i hnone
      left
      use g.connections.insert connection relay, rfl
      intro c relay' h
      rw [Table.lookup_insert_eq] at h
      split_ifs at h with hc
      · right
        rw [← Option.some.inj h, hnone]
      · left
        apply h
    · rename_i sessionId hsome
      split_ifs
      · right
        left
        use connection, relay, sessionId, m
      · left
        apply hsame
  | chunk connection bytes m =>
    simp only [step]
    split
    · left
      apply hsame
    · rename_i sessionId hsome
      obtain ⟨relay, hrelay, hsession⟩ := Option.bind_eq_some_iff.mp hsome
      right
      right
      use connection, bytes, m, relay, sessionId
  | close connection =>
    left
    use g.connections.erase connection, rfl
    intro c relay h
    left
    apply Table.lookup_of_lookup_erase h

/-! ### What the enforcement of the cap leaves -/

/-- A session that is not evicted stays, with its frames cleaned up or as it is; an evicted
one is gone. -/
theorem lookup_enforceReplaySessionCap (m : Moment) (state : Table Str ReplaySessionBuffer)
    (k : Str) :
  (enforceReplaySessionCap limits m state).lookup k
    = if state.size < max limits.maxSessions 1 then state.lookup k
      else if k ∈ evictions limits m state then none
      else (state.lookup k).map (ReplaySessionBuffer.cleanUp limits m.enforcedAt)
  := by
  unfold enforceReplaySessionCap
  split_ifs with hroom hk
  · rfl
  · rw [Table.lookup_map, Table.lookup_foldl_erase, if_pos hk, Option.map_none]
  · rw [Table.lookup_map, Table.lookup_foldl_erase, if_neg hk]

theorem perm_oldestFirst (m : Moment) (state : Table Str ReplaySessionBuffer) :
  (oldestFirst m state).Perm state.keys
  := by
  have hsorted := (List.perm_insertionSort (fun a b : Str × ℕ => a.2 ≤ b.2) _).trans
    (List.perm_insertionSort (fun a b : Str × ℕ => m.iteration a.1 ≤ m.iteration b.1)
      (state.entries.map fun e => (e.1, e.2.lastTouchedUnix)))
  have h := hsorted.map Prod.fst
  rw [List.map_map] at h
  apply h

theorem mem_of_mem_evictions {limits : ReplayLimits} {m : Moment}
    {state : Table Str ReplaySessionBuffer} {k : Str} (h : k ∈ evictions limits m state) :
  k ∈ state
  := by
  simp only [evictions] at h
  split_ifs at h
  · cases h
  · apply AList.mem_keys.mpr
    apply (perm_oldestFirst m state).mem_iff.mp
    apply List.mem_of_mem_take h

/-! ### The ways frames are dropped -/

theorem popOverflow_suffix (cap : ℕ) (frames : List ReplayFrame) :
  popOverflow cap frames <:+ frames
  := by
  induction frames with
  | nil => apply List.suffix_rfl
  | cons frame frames ih =>
    unfold popOverflow
    split_ifs
    · apply ih.trans (List.suffix_cons frame frames)
    · apply List.suffix_rfl

theorem length_popOverflow_le (cap : ℕ) (frames : List ReplayFrame) :
  (popOverflow cap frames).length ≤ cap
  := by
  induction frames with
  | nil => apply Nat.zero_le
  | cons frame frames ih =>
    unfold popOverflow
    split_ifs with h
    · apply ih
    · apply not_lt.mp h

theorem retainYoung_sublist (ttlSecs now : ℕ) (frames : List ReplayFrame) :
  (retainYoung ttlSecs now frames).Sublist frames
  := by
  apply List.filter_sublist

theorem cleanUp_sublist (now : ℕ) (buffer : ReplaySessionBuffer) :
  (buffer.cleanUp limits now).frames.Sublist buffer.frames
  := by
  apply (popOverflow_suffix _ _).sublist.trans
  apply retainYoung_sublist

end RgbLightning.Gateway
