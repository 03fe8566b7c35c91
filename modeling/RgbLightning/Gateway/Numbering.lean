import RgbLightning.Gateway.Buffers

/-!
# The numbers of a session

`numbers_continue` says what the clients of a session rely on, and when: its chunks are
numbered 1, 2, 3, …, and a frame that is replayed is one that was numbered.

The enforcement of the session cap does not look at connections.  It runs at every chunk and
evicts whenever the map is full, even when no session is added: `numbers_restart` is a
session that starts again at 1 while its connection is open.
-/

namespace RgbLightning.Gateway

open GatewayState List ReplayFrame

/-! ### The condition -/

/-- No open connection belongs to a session that was evicted. -/
def Spared (g : GatewayState) : Prop :=
  ∀ e ∈ g.connections.entries, ∀ sessionId ∈ ReplayRelayConfig.session e.2,
    sessionId ∉ g.evicted
deriving Decidable

def NumbersLeft (g : GatewayState) : Prop :=
  ∀ e ∈ g.buffers.entries, ReplaySessionBuffer.nextSeq e.2 < u64Max
deriving Decidable

/-- An event before which the sessions have numbers left and after which no open connection
belongs to a session that was evicted. -/
def Spares (limits : ReplayLimits) (g : GatewayState) (e : Event) : Prop :=
  NumbersLeft g ∧ Spared (step limits g e)
deriving Decidable

/-! ### What is kept -/

/-- The frames numbered in a session, oldest first. -/
def GatewayState.numberedIn (g : GatewayState) (sessionId : Str) : List ReplayFrame :=
  (g.numbered.filter fun q => q.session = sessionId).map Queued.frame

theorem numberedIn_start (limits : ReplayLimits) (g : GatewayState) (connection : ℕ)
    (relay : ReplayRelayConfig) (sessionId : Str) (m : Moment) (k : Str) :
  (g.start limits connection relay sessionId m).numberedIn k = g.numberedIn k
  := by
  simp [GatewayState.start, numberedIn, numbered, filter_map,
    Function.comp_def]

theorem numberedIn_number (limits : ReplayLimits) (g : GatewayState) (connection : ℕ)
    (sessionId : Str) (bytes : Bytes) (m : Moment) (k : Str) :
  (g.number limits connection sessionId bytes m).numberedIn k
    = g.numberedIn k
      ++ if sessionId = k then [(replayChunk limits m g.buffers sessionId bytes).1] else []
  := by
  by_cases hk : sessionId = k
  · simp [GatewayState.number, numberedIn, numbered, hk]
  · simp [GatewayState.number, numberedIn, numbered, hk]

/-- What the clients of the sessions rely on: the chunks of a session are numbered from 1 on,
a new frame carries a larger number than every frame of its session queued before, and every
frame that is queued was numbered. -/
structure Numbered (g : GatewayState) : Prop where
  consecutive : ∀ sessionId, (g.numberedIn sessionId).map seq
    = range' 1 (g.numberedIn sessionId).length
  newer : g.queued.Pairwise fun q q' =>
    q.session = q'.session → q'.isNew = true → q.frame.seq < q'.frame.seq
  known : ∀ q ∈ g.queued, q.frame ∈ g.numberedIn q.session

structure Continues (frames : List ReplayFrame) (buffer : ReplaySessionBuffer) : Prop where
  next : buffer.nextSeq = frames.length + 1
  known : buffer.frames ⊆ frames

/-- The invariant: the buffers continue what was numbered, and a session without a buffer is
new or was evicted. -/
structure Continued (g : GatewayState) : Prop extends Numbered g where
  buffered : ∀ sessionId buffer, g.buffers.lookup sessionId = some buffer →
    Continues (g.numberedIn sessionId) buffer
  unbuffered : ∀ sessionId, g.buffers.lookup sessionId = none →
    sessionId ∈ g.evicted ∨ g.numberedIn sessionId = []

/-! ### The steps -/

variable {g : GatewayState} {k : Str} {buffer : ReplaySessionBuffer}

/-- After the enforcement, the sessions that stay are continued as before. -/
theorem Continued.buffered_enforce (h : Continued g) (limits : ReplayLimits) (m : Moment)
    (hlookup : (enforceReplaySessionCap limits m g.buffers).lookup k = some buffer) :
  Continues (g.numberedIn k) buffer
  := by
  rw [lookup_enforceReplaySessionCap] at hlookup
  split_ifs at hlookup
  · apply h.buffered k buffer hlookup
  · obtain ⟨before, hbefore, rfl⟩ := Option.map_eq_some_iff.mp hlookup
    have hcontinues := h.buffered k before hbefore
    use hcontinues.next
    apply Subset.trans (cleanUp_sublist limits m.enforcedAt before).subset hcontinues.known

/-- After the enforcement, a session without a buffer is new or was evicted. -/
theorem Continued.unbuffered_enforce (h : Continued g) (limits : ReplayLimits) (m : Moment)
    (hlookup : (enforceReplaySessionCap limits m g.buffers).lookup k = none) :
  k ∈ g.evicted ++ evictions limits m g.buffers ∨ g.numberedIn k = []
  := by
  rw [mem_append]
  rw [lookup_enforceReplaySessionCap] at hlookup
  split_ifs at hlookup with hroom hmem
  · apply (h.unbuffered k hlookup).imp_left Or.inl
  · left
    right
    apply hmem
  · apply (h.unbuffered k (Option.map_eq_none_iff.mp hlookup)).imp_left Or.inl

/-- The buffer a critical section finds for a session that was not evicted continues it. -/
theorem Continued.entry (h : Continued g) (limits : ReplayLimits) (m : Moment)
    (hk : k ∉ g.evicted ++ evictions limits m g.buffers) :
  Continues (g.numberedIn k) (entry limits m (enforceReplaySessionCap limits m g.buffers) k)
  := by
  have hfound : Continues (g.numberedIn k)
      (((enforceReplaySessionCap limits m g.buffers).lookup k).getD ⟨1, [], m.now⟩) := by
    cases hlookup : (enforceReplaySessionCap limits m g.buffers).lookup k with
    | none =>
      obtain hevicted | hnew := h.unbuffered_enforce limits m hlookup
      · contradiction
      · rw [hnew]
        exact ⟨rfl, nil_subset _⟩
    | some buffer => apply h.buffered_enforce limits m hlookup
  use hfound.next
  apply Subset.trans (retainYoung_sublist limits.ttlSecs m.now _).subset hfound.known

theorem NumbersLeft.lookup (h : NumbersLeft g) (hlookup : g.buffers.lookup k = some buffer) :
  buffer.nextSeq < u64Max
  := by
  apply h ⟨k, buffer⟩
  apply AList.mem_lookup_iff.mp hlookup

theorem NumbersLeft.entry (h : NumbersLeft g) (limits : ReplayLimits) (m : Moment) (k : Str) :
  (entry limits m (enforceReplaySessionCap limits m g.buffers) k).nextSeq < u64Max
  := by
  rw [Gateway.entry]
  cases hlookup : (enforceReplaySessionCap limits m g.buffers).lookup k with
  | none =>
    change 1 < u64Max
    decide
  | some buffer =>
    rw [lookup_enforceReplaySessionCap] at hlookup
    split_ifs at hlookup
    · apply h.lookup hlookup
    · obtain ⟨before, hbefore, rfl⟩ := Option.map_eq_some_iff.mp hlookup
      apply h.lookup hbefore

variable {sessionId : Str}

/-- A critical section that leaves a buffer which continues its session keeps the other
sessions continued. -/
theorem Continued.insert {g' : GatewayState} (h : Continued g) {limits : ReplayLimits} {m : Moment}
    (hnumbered : Numbered g') (hbuffers : g'.buffers
      = (enforceReplaySessionCap limits m g.buffers).insert sessionId buffer)
    (hevicted : g'.evicted = g.evicted ++ evictions limits m g.buffers)
    (hothers : ∀ k, k ≠ sessionId → g'.numberedIn k = g.numberedIn k)
    (hbuffer : Continues (g'.numberedIn sessionId) buffer) :
  Continued g'
  := by
  use hnumbered
  · intro k b hlookup
    rw [hbuffers, Table.lookup_insert_eq] at hlookup
    split_ifs at hlookup with hk
    · rw [hk, ← Option.some.inj hlookup]
      apply hbuffer
    · rw [hothers k hk]
      apply h.buffered_enforce limits m hlookup
  · intro k hlookup
    rw [hbuffers, Table.lookup_insert_eq] at hlookup
    split_ifs at hlookup with hk
    rw [hothers k hk, hevicted]
    apply h.unbuffered_enforce limits m hlookup

/-- The start of a connection numbers nothing and replays what was numbered. -/
theorem Continued.start (h : Continued g) (limits : ReplayLimits) (connection : ℕ)
    (relay : ReplayRelayConfig) {m : Moment}
    (hspared : sessionId ∉ g.evicted ++ evictions limits m g.buffers) :
  Continued (g.start limits connection relay sessionId m)
  := by
  have hentry := h.entry limits m hspared
  have hsame := numberedIn_start limits g connection relay sessionId m
  apply h.insert _ rfl rfl (fun k _ => hsame k)
  · rw [hsame]
    apply hentry
  constructor
  · intro k
    rw [hsame]
    apply h.consecutive
  · -- a replayed frame is not new
    rw [GatewayState.start, pairwise_append]
    refine ⟨h.newer, ?_, ?_⟩
    · apply Pairwise.map
      · intro frame frame' _ _ hnew
        cases hnew
      · apply pairwise_of_forall fun _ _ => trivial
    · intro q _ q' hq' _ hnew
      obtain ⟨frame, -, rfl⟩ := mem_map.mp hq'
      cases hnew
  · intro q hq
    rw [hsame]
    obtain hq | hq := mem_append.mp hq
    · apply h.known q hq
    · obtain ⟨frame, hframe, rfl⟩ := mem_map.mp hq
      apply hentry.known (mem_of_mem_filter hframe)

/-- The numbers of the frames of a session end with their count. -/
theorem Numbered.seq_le (h : Numbered g) {frame : ReplayFrame} (hframe : frame ∈ g.numberedIn k) :
  frame.seq ≤ (g.numberedIn k).length
  := by
  have hmem := mem_map_of_mem (f := seq) hframe
  rw [h.consecutive, mem_range'_1] at hmem
  omega

theorem Continued.number (h : Continued g) (limits : ReplayLimits) (connection : ℕ) (bytes : Bytes)
    {m : Moment} (hleft : NumbersLeft g)
    (hspared : sessionId ∉ g.evicted ++ evictions limits m g.buffers) :
  Continued (g.number limits connection sessionId bytes m)
  := by
  have hentry := h.entry limits m hspared
  have hnumbered := numberedIn_number limits g connection sessionId bytes m
  have hseq : (replayChunk limits m g.buffers sessionId bytes).1.seq
      = (g.numberedIn sessionId).length + 1 := hentry.next
  apply h.insert _ rfl rfl
  · intro k hk
    rw [hnumbered, if_neg hk.symm, append_nil]
  · rw [hnumbered, if_pos rfl]
    constructor
    · have hnext := hentry.next
      have hlt := hleft.entry limits m sessionId
      change saturatingAdd _ 1 = _
      rw [length_append, length_singleton, saturatingAdd]
      omega
    · apply Subset.trans (popOverflow_suffix _ _).subset
      apply append_subset.mpr
      use subset_append_of_subset_left _ hentry.known
      apply subset_append_right
  constructor
  · intro k
    rw [hnumbered]
    split_ifs with hk
    · subst hk
      rw [map_append, h.consecutive, length_append, length_singleton,
        range'_concat, map_singleton, hseq]
      simp [add_comm]
    · rw [append_nil]
      apply h.consecutive
  · rw [GatewayState.number, pairwise_append]
    refine ⟨h.newer, pairwise_singleton _ _, ?_⟩
    intro q hq q' hq' hsession _
    obtain rfl := mem_singleton.mp hq'
    change q.session = sessionId at hsession
    change q.frame.seq < (replayChunk limits m g.buffers sessionId bytes).1.seq
    have hle := h.seq_le (h.known q hq)
    rw [hsession] at hle
    omega
  · intro q hq
    rw [hnumbered]
    obtain hq | hq := mem_append.mp hq
    · apply mem_append_left
      apply h.known q hq
    · obtain rfl := mem_singleton.mp hq
      apply mem_append_right
      rw [if_pos rfl]
      apply mem_singleton_self

/-- After an event that spares it, an open connection's session was not evicted. -/
theorem Spared.session (h : Spared g) {connection : ℕ} {relay : ReplayRelayConfig}
    (hopen : g.connections.lookup connection = some relay)
    (hsession : relay.session = some sessionId) :
  sessionId ∉ g.evicted
  := by
  apply h ⟨connection, relay⟩ (AList.mem_lookup_iff.mp hopen) sessionId hsession

theorem Continued.step (h : Continued g) {limits : ReplayLimits} {e : Event}
    (hspares : Spares limits g e) :
  Continued (step limits g e)
  := by
  obtain ⟨hleft, hspared⟩ := hspares
  obtain ⟨connections, hstep, -⟩ | ⟨connection, relay, sessionId, m, rfl, hsession, hstep⟩
    | ⟨connection, bytes, m, relay, sessionId, rfl, hopen, hsession, hstep⟩
      := step_cases limits g e
  · rw [hstep]
    exact ⟨⟨h.consecutive, h.newer, h.known⟩, h.buffered, h.unbuffered⟩
  · rw [hstep] at hspared ⊢
    apply h.start limits connection relay
    apply hspared.session (AList.lookup_insert _) hsession
  · rw [hstep] at hspared ⊢
    apply h.number limits connection bytes hleft
    apply hspared.session hopen hsession

/-- If no session is evicted that has an open connection or is connected to later, and every
session has numbers left, the frames of every session are numbered 1, 2, 3, …, a new frame
carries a larger number than all frames of its session that were queued for a client before,
and a frame that is queued is one that was numbered. -/
theorem numbers_continue (limits : ReplayLimits) (events : List Event)
    (hspares : Run.Meets (step limits) (Spares limits) .init events) :
  (∀ sessionId, ((after limits events).numberedIn sessionId).map seq
    = range' 1 ((after limits events).numberedIn sessionId).length)
  ∧ ((after limits events).queued.Pairwise fun q q' =>
      q.session = q'.session → q'.isNew = true → q.frame.seq < q'.frame.seq)
  ∧ ∀ q ∈ (after limits events).queued,
      q.frame ∈ (after limits events).numberedIn q.session
  := by
  have hinit : Continued .init := by
    constructor
    · exact ⟨fun _ => rfl, Pairwise.nil, forall_mem_nil _⟩
    · intro sessionId buffer hlookup
      rw [init, AList.lookup_empty] at hlookup
      cases hlookup
    · intro sessionId _
      right
      rfl
  have h : Continued (after limits events) := by
    apply Run.run_invariant _ hinit hspares
    intro g e hg he
    apply hg.step he
  exact ⟨h.consecutive, h.newer, h.known⟩

/-- A client that reads one frame, loses its connection and returns. -/
def returningClient : List Event :=
  [.connect 0 ⟨true, some (str "s"), none⟩ standstill, .chunk 0 [7] standstill, .close 0,
    .connect 1 ⟨true, some (str "s"), some 0⟩ standstill, .chunk 1 [8] standstill]

theorem numbers_continue_returningClient :
  Run.Meets (step (.ofEnv 64 30 8)) (Spares (.ofEnv 64 30 8)) .init returningClient
  ∧ ((after (.ofEnv 64 30 8) returningClient).numberedIn (str "s")).map seq = [1, 2]
  := by
  have hspares : Run.Meets (step (.ofEnv 64 30 8)) (Spares (.ofEnv 64 30 8)) .init
      returningClient := by
    decide
  obtain ⟨h, -⟩ := numbers_continue (.ofEnv 64 30 8) returningClient hspares
  use hspares
  rw [h]
  decide

/-- Eight sessions, the most the smallest cap allows, and a second chunk of the one that was
touched least recently. -/
def busyGateway : List Event :=
  [.connect 0 ⟨true, some (str "s"), none⟩ ⟨0, 0, fun _ => 0⟩,
    .chunk 0 [7] ⟨0, 0, fun _ => 0⟩]
  ++ (range 7).map (fun n =>
      .connect (n + 1) ⟨true, some (decimalStr n), none⟩ ⟨1, 1, fun _ => 0⟩)
  ++ [.chunk 0 [8] ⟨1, 1, fun _ => 0⟩]

/-- The second chunk of a session is numbered 1 again while the connection that reads it has
been open all the time. -/
theorem numbers_restart :
  ((after (.ofEnv 64 30 8) busyGateway).numberedIn (str "s")).map
      (fun frame => (frame.seq, frame.payloadHex))
    = [(1, str "07"), (1, str "08")]
  ∧ (after (.ofEnv 64 30 8) busyGateway).connections.lookup 0
    = some ⟨true, some (str "s"), none⟩
  := by
  decide +kernel

end RgbLightning.Gateway
