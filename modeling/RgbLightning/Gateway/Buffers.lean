import RgbLightning.Gateway.Replay

/-!
# Bounds of the replay buffers

`buffers_bounded` is the invariant of the buffers over every sequence of events.  The next
number of a session stops at `u64Max`, and from then on all frames carry it
(`number_repeats_at_max`).
-/

namespace RgbLightning.Gateway

open List ReplayFrame

/-- The frames carry consecutive numbers that end just below the next one. -/
def ReplaySessionBuffer.Consecutive (buffer : ReplaySessionBuffer) : Prop :=
  ∃ first, buffer.frames.map seq = range' first buffer.frames.length
    ∧ first + buffer.frames.length = buffer.nextSeq

def GatewayState.numbered (g : GatewayState) : List Queued :=
  g.queued.filter Queued.isNew

/-- The clock does not run backwards. -/
def ClockAdvances (g : GatewayState) : Event → Prop
  | .connect _ _ m => g.clock ≤ m.enforcedAt ∧ m.enforcedAt ≤ m.now
  | .chunk _ _ m => g.clock ≤ m.enforcedAt ∧ m.enforcedAt ≤ m.now
  | .close _ => True

instance (g : GatewayState) : ∀ e : Event, Decidable (ClockAdvances g e)
  | .connect _ _ m => inferInstanceAs (Decidable (g.clock ≤ m.enforcedAt ∧ m.enforcedAt ≤ m.now))
  | .chunk _ _ m => inferInstanceAs (Decidable (g.clock ≤ m.enforcedAt ∧ m.enforcedAt ≤ m.now))
  | .close _ => inferInstanceAs (Decidable True)

/-! ### The number of sessions -/

theorem size_enforceReplaySessionCap_lt (limits : ReplayLimits) (m : Moment)
    (state : Table Str ReplaySessionBuffer) :
  (enforceReplaySessionCap limits m state).size < limits.maxSessions
  := by
  have hpos := limits.maxSessions_pos
  have hmax : max limits.maxSessions 1 = limits.maxSessions := Nat.max_eq_left hpos
  unfold enforceReplaySessionCap
  split_ifs with hroom
  · rw [hmax] at hroom
    apply hroom
  have hperm := perm_oldestFirst m state
  have hnodup : (evictions limits m state).Nodup := by
    simp only [evictions, if_neg hroom]
    apply (hperm.nodup_iff.mpr state.keys_nodup).sublist (take_sublist _ _)
  have hlength : (evictions limits m state).length = state.size - (limits.maxSessions - 1) := by
    rw [hmax] at hroom
    simp only [evictions, hmax, if_neg hroom, length_take, hperm.length_eq]
    change min _ state.size = _
    omega
  have hsize := Table.size_foldl_erase hnodup fun k hk => mem_of_mem_evictions hk
  rw [Table.size_map]
  omega

/-! ### The frames of a session -/

variable {frames : List ReplayFrame}

/-- In a list in which a property, once true, stays true, the elements that satisfy it are
its end. -/
theorem filter_suffix {p : ReplayFrame → Bool}
    (h : frames.Pairwise fun a b => p a = true → p b = true) :
  frames.filter p <:+ frames
  := by
  induction frames with
  | nil => apply suffix_rfl
  | cons frame frames ih =>
    obtain ⟨hhead, htail⟩ := pairwise_cons.mp h
    by_cases hp : p frame = true
    · rw [filter_eq_self.mpr]
      intro f hf
      obtain rfl | hf := mem_cons.mp hf
      · apply hp
      · apply hhead f hf hp
    · rw [filter_cons_of_neg hp]
      apply (ih htail).trans (suffix_cons frame frames)

/-- What holds of the buffer of a session when the clock shows `clock` and `n` chunks were
numbered. -/
structure WellKept (limits : ReplayLimits) (clock n : ℕ) (buffer : ReplaySessionBuffer) :
    Prop where
  length_le : buffer.frames.length ≤ limits.maxFrames
  ordered : buffer.frames.Pairwise fun a b => a.queuedAtUnix ≤ b.queuedAtUnix
  queued : ∀ frame ∈ buffer.frames, frame.queuedAtUnix ≤ clock
  nextSeq_le : buffer.nextSeq ≤ n + 1
  consecutive : n < u64Max → buffer.Consecutive

variable {buffer : ReplaySessionBuffer}

theorem ReplaySessionBuffer.Consecutive.suffix (h : buffer.Consecutive)
    (hsuffix : frames <:+ buffer.frames) (touched : ℕ) :
  ReplaySessionBuffer.Consecutive ⟨buffer.nextSeq, frames, touched⟩
  := by
  obtain ⟨first, hnumbers, hnext⟩ := h
  obtain ⟨dropped, hsplit⟩ := hsuffix
  rw [← hsplit, map_append, length_append, ← range'_append_1] at hnumbers
  rw [← hsplit, length_append, ← add_assoc] at hnext
  use first + dropped.length
  apply And.intro _ hnext
  apply (append_inj hnumbers _).2
  rw [length_map, length_range']

variable {limits : ReplayLimits} {clock n : ℕ}

section WellKept

variable (h : WellKept limits clock n buffer)
include h

theorem WellKept.suffix (hsuffix : frames <:+ buffer.frames) (touched : ℕ) :
  WellKept limits clock n ⟨buffer.nextSeq, frames, touched⟩
  := by
  constructor
  · apply hsuffix.length_le.trans h.length_le
  · apply h.ordered.sublist hsuffix.sublist
  · intro frame hframe
    apply h.queued frame (hsuffix.subset hframe)
  · apply h.nextSeq_le
  · intro hn
    apply (h.consecutive hn).suffix hsuffix

theorem WellKept.later {clock' n' : ℕ} (hclock : clock ≤ clock') (hn : n ≤ n') :
  WellKept limits clock' n' buffer
  where
  length_le := h.length_le
  ordered := h.ordered
  queued frame hframe := (h.queued frame hframe).trans hclock
  nextSeq_le := h.nextSeq_le.trans (Nat.succ_le_succ hn)
  consecutive hlt := h.consecutive (hn.trans_lt hlt)

/-- The frames that are too old are the first ones. -/
theorem WellKept.retainYoung_suffix (ttlSecs now : ℕ) :
  retainYoung ttlSecs now buffer.frames <:+ buffer.frames
  := by
  apply filter_suffix
  apply h.ordered.imp
  intro a b hab ha
  rw [decide_eq_true_iff] at ha ⊢
  omega

theorem WellKept.cleanUp (now : ℕ) :
  WellKept limits clock n (buffer.cleanUp limits now)
  := by
  apply h.suffix
  apply (popOverflow_suffix _ _).trans
  apply h.retainYoung_suffix

end WellKept

theorem wellKept_new (limits : ReplayLimits) (clock n touched : ℕ) :
  WellKept limits clock n ⟨1, [], touched⟩
  where
  length_le := Nat.zero_le _
  ordered := Pairwise.nil
  queued := forall_mem_nil _
  nextSeq_le := Nat.le_add_left 1 n
  consecutive _ := ⟨1, rfl, rfl⟩

/-- A chunk keeps a buffer well kept.  The next number is not yet `u64Max` unless that many
chunks have been numbered. -/
theorem WellKept.push {now : ℕ} (h : WellKept limits now n buffer) (chunk : Bytes) :
  WellKept limits now (n + 1) (buffer.push limits now chunk).2
  := by
  have hsuffix := popOverflow_suffix limits.maxFrames
    (buffer.frames ++ [⟨buffer.nextSeq, hexStr chunk, now⟩])
  have hle : saturatingAdd buffer.nextSeq 1 ≤ n + 1 + 1 := by
    have := h.nextSeq_le
    simp only [saturatingAdd]
    omega
  constructor
  · apply length_popOverflow_le
  · apply Pairwise.sublist hsuffix.sublist
    rw [pairwise_append]
    use h.ordered, pairwise_singleton _ _
    intro a ha b hb
    rw [mem_singleton.mp hb]
    apply h.queued a ha
  · intro frame hframe
    obtain hframe | hframe := mem_append.mp (hsuffix.subset hframe)
    · apply h.queued frame hframe
    · rw [mem_singleton.mp hframe]
  · apply hle
  · intro hn
    obtain ⟨first, hnumbers, hnext⟩ := h.consecutive (Nat.lt_of_succ_lt hn)
    have hsum : saturatingAdd buffer.nextSeq 1 = buffer.nextSeq + 1 := by
      have := h.nextSeq_le
      simp only [saturatingAdd]
      omega
    have hpushed : ReplaySessionBuffer.Consecutive ⟨saturatingAdd buffer.nextSeq 1,
        buffer.frames ++ [⟨buffer.nextSeq, hexStr chunk, now⟩], buffer.lastTouchedUnix⟩ := by
      use first
      simp only [map_append, hnumbers, length_append, length_singleton,
        ← range'_append_1, hnext, hsum]
      apply And.intro rfl
      omega
    apply hpushed.suffix hsuffix

/-! ### The invariant -/

structure Bounded (limits : ReplayLimits) (g : GatewayState) : Prop where
  size_le : g.buffers.size ≤ limits.maxSessions
  wellKept : ∀ sessionId buffer, g.buffers.lookup sessionId = some buffer →
    WellKept limits g.clock g.numbered.length buffer

variable {g : GatewayState}

section Bounded

variable (h : Bounded limits g)
include h

theorem Bounded.enforce (m : Moment) {sessionId : Str}
    (hlookup : (enforceReplaySessionCap limits m g.buffers).lookup sessionId = some buffer) :
  WellKept limits g.clock g.numbered.length buffer
  := by
  rw [lookup_enforceReplaySessionCap] at hlookup
  split_ifs at hlookup
  · apply h.wellKept sessionId buffer hlookup
  · obtain ⟨before, hbefore, rfl⟩ := Option.map_eq_some_iff.mp hlookup
    apply (h.wellKept sessionId before hbefore).cleanUp

theorem Bounded.entry (m : Moment) (sessionId : Str) :
  WellKept limits g.clock g.numbered.length
    (entry limits m (enforceReplaySessionCap limits m g.buffers) sessionId)
  := by
  have hfound : WellKept limits g.clock g.numbered.length
      (((enforceReplaySessionCap limits m g.buffers).lookup sessionId).getD ⟨1, [], m.now⟩) := by
    cases hlookup : (enforceReplaySessionCap limits m g.buffers).lookup sessionId with
    | none => apply wellKept_new
    | some buffer => apply h.enforce m hlookup
  apply hfound.suffix (hfound.retainYoung_suffix limits.ttlSecs m.now)

/-- A critical section that leaves a well-kept buffer for its session keeps the bounds. -/
theorem Bounded.insert {g' : GatewayState} (m : Moment) {sessionId : Str} (hbuffers : g'.buffers
      = (enforceReplaySessionCap limits m g.buffers).insert sessionId buffer)
    (hclock : g.clock ≤ g'.clock) (hnumbered : g.numbered.length ≤ g'.numbered.length)
    (hbuffer : WellKept limits g'.clock g'.numbered.length buffer) :
  Bounded limits g'
  := by
  constructor
  · have hlt := size_enforceReplaySessionCap_lt limits m g.buffers
    rw [hbuffers]
    by_cases hmem : sessionId ∈ enforceReplaySessionCap limits m g.buffers
    · rw [Table.size_insert_of_mem _ _ hmem]
      apply hlt.le
    · rw [Table.size_insert_of_notMem _ _ hmem]
      apply hlt
  · intro k b hlookup
    rw [hbuffers, Table.lookup_insert_eq] at hlookup
    split_ifs at hlookup with hk
    · rw [← Option.some.inj hlookup]
      apply hbuffer
    · apply (h.enforce m hlookup).later hclock hnumbered

theorem Bounded.start (connection : ℕ) (relay : ReplayRelayConfig) (sessionId : Str) {m : Moment}
    (hclock : g.clock ≤ m.now) :
  Bounded limits (g.start limits connection relay sessionId m)
  := by
  have hnumbered : (g.start limits connection relay sessionId m).numbered = g.numbered := by
    simp [GatewayState.start, GatewayState.numbered, filter_map, Function.comp_def]
  apply h.insert m rfl hclock (by rw [hnumbered])
  rw [hnumbered]
  apply (h.entry m sessionId).later hclock le_rfl

theorem Bounded.number (connection : ℕ) (sessionId : Str) (bytes : Bytes) {m : Moment}
    (hclock : g.clock ≤ m.now) :
  Bounded limits (g.number limits connection sessionId bytes m)
  := by
  have hnumbered : (g.number limits connection sessionId bytes m).numbered.length
      = g.numbered.length + 1 := by
    simp [GatewayState.number, GatewayState.numbered]
  apply h.insert m rfl hclock (by rw [hnumbered]; apply Nat.le_succ)
  rw [hnumbered]
  apply ((h.entry m sessionId).later hclock le_rfl).push

theorem Bounded.step {e : Event} (hclock : ClockAdvances g e) :
  Bounded limits (step limits g e)
  := by
  obtain ⟨connections, hstep, -⟩ | ⟨connection, relay, sessionId, m, rfl, -, hstep⟩
    | ⟨connection, bytes, m, relay, sessionId, rfl, -, -, hstep⟩ := step_cases limits g e
  · rw [hstep]
    exact ⟨h.size_le, h.wellKept⟩
  · rw [hstep]
    apply h.start connection relay sessionId (hclock.1.trans hclock.2)
  · rw [hstep]
    apply h.number connection sessionId bytes (hclock.1.trans hclock.2)

end Bounded

/-- A moment at which no time has passed. -/
def standstill : Moment :=
  ⟨0, 0, fun _ => 0⟩

/-- The start of a connection for one session, and `n` empty chunks read by its reader. -/
def emptyChunks (n : ℕ) : List Event :=
  .connect 0 ⟨true, some (str "s"), none⟩ standstill
    :: replicate n (.chunk 0 [] standstill)

/-- Over every sequence of events under a clock that does not run backwards there are at most
`maxSessions` sessions, each with at most `maxFrames` frames, and while fewer than `u64Max`
chunks were numbered the frames of a session carry consecutive numbers that end just below
the session's next number. -/
theorem buffers_bounded (limits : ReplayLimits) (events : List Event)
    (hclock : Run.Meets (step limits) ClockAdvances .init events) :
  (after limits events).buffers.size ≤ limits.maxSessions
  ∧ ∀ sessionId buffer, (after limits events).buffers.lookup sessionId = some buffer →
      buffer.frames.length ≤ limits.maxFrames
      ∧ ((after limits events).numbered.length < u64Max → buffer.Consecutive)
  := by
  have hinit : Bounded limits .init := by
    constructor
    · apply Nat.zero_le
    · intro sessionId buffer hlookup
      rw [GatewayState.init, AList.lookup_empty] at hlookup
      cases hlookup
  have h : Bounded limits (after limits events) := by
    apply Run.run_invariant _ hinit hclock
    intro g e hg he
    apply hg.step he
  use h.size_le
  intro sessionId buffer hlookup
  have hkept := h.wellKept sessionId buffer hlookup
  use hkept.length_le, hkept.consecutive

theorem buffers_bounded_twoChunks :
  Run.Meets (step (.ofEnv 64 30 8)) ClockAdvances .init (emptyChunks 2)
  ∧ ∃ buffer, (after (.ofEnv 64 30 8) (emptyChunks 2)).buffers.lookup (str "s") = some buffer
      ∧ buffer.frames.map seq = [1, 2] ∧ buffer.Consecutive
  := by
  have hclock : Run.Meets (step (.ofEnv 64 30 8)) ClockAdvances .init (emptyChunks 2) := by
    decide
  have hlookup : (after (.ofEnv 64 30 8) (emptyChunks 2)).buffers.lookup (str "s")
      = some ⟨3, [⟨1, [], 0⟩, ⟨2, [], 0⟩], 0⟩ := by
    decide
  obtain ⟨-, h⟩ := buffers_bounded (.ofEnv 64 30 8) (emptyChunks 2) hclock
  refine ⟨hclock, _, hlookup, rfl, ?_⟩
  apply (h _ _ hlookup).2
  decide

/-! ### The end of the numbers -/

/-- The gateway after `n` chunks of its only session, the last of which was numbered
`last`. -/
structure Counted (g : GatewayState) (n : ℕ) (last : Option ℕ) : Prop where
  connection : g.connections.lookup 0 = some ⟨true, some (str "s"), none⟩
  size : g.buffers.size = 1
  clock : g.clock = 0
  buffer : ∃ b, g.buffers.lookup (str "s") = some b ∧ b.nextSeq = min (n + 1) u64Max
    ∧ (b.frames.map seq).getLast? = last

theorem getLast?_popOverflow_concat {cap : ℕ} (hcap : 0 < cap) (frames : List ReplayFrame)
    (frame : ReplayFrame) :
  (popOverflow cap (frames ++ [frame])).getLast? = some frame
  := by
  induction frames with
  | nil =>
    have hlength : ¬cap < [frame].length := by
      rw [length_singleton]
      omega
    rw [nil_append, popOverflow, if_neg hlength]
    rfl
  | cons f frames ih =>
    rw [cons_append, popOverflow]
    split_ifs
    · apply ih
    · rw [← cons_append]
      apply getLast?_concat

theorem Counted.chunk (hcap : 1 < limits.maxSessions) {last : Option ℕ} (h : Counted g n last) :
  Counted (step limits g (.chunk 0 [] standstill)) (n + 1) (some (min (n + 1) u64Max))
  := by
  obtain ⟨b, hlookup, hnext, -⟩ := h.buffer
  have hmem : str "s" ∈ g.buffers := Table.mem_iff_lookup.mpr ⟨b, hlookup⟩
  have hroom : enforceReplaySessionCap limits standstill g.buffers = g.buffers := by
    rw [enforceReplaySessionCap, if_pos]
    rw [h.size]
    apply lt_max_of_lt_left hcap
  have hyoung : retainYoung limits.ttlSecs 0 b.frames = b.frames := by
    apply filter_eq_self.mpr
    intro frame _
    rw [Nat.zero_sub, decide_eq_true_iff]
    apply Nat.zero_le
  have hentry : entry limits standstill g.buffers (str "s") = ⟨b.nextSeq, b.frames, 0⟩ := by
    simp only [entry, hlookup, Option.getD_some, standstill, hyoung]
  have hstep : step limits g (.chunk 0 [] standstill)
      = g.number limits 0 (str "s") [] standstill := by
    simp only [step, h.connection]
    rfl
  have hbuffers : (g.number limits 0 (str "s") [] standstill).buffers
      = g.buffers.insert (str "s") (ReplaySessionBuffer.push limits 0 []
          ⟨b.nextSeq, b.frames, 0⟩).2 := by
    simp only [GatewayState.number, replayChunk, hroom, hentry]
    rfl
  rw [hstep]
  constructor
  · apply h.connection
  · rw [hbuffers, Table.size_insert_of_mem _ _ hmem, h.size]
  · rfl
  · refine ⟨_, hbuffers ▸ AList.lookup_insert _, ?_, ?_⟩
    · simp only [ReplaySessionBuffer.push, saturatingAdd, hnext]
      omega
    · simp only [ReplaySessionBuffer.push, getLast?_map,
        getLast?_popOverflow_concat limits.maxFrames_pos, Option.map_some, hnext]

/-- The number of the last of `n` chunks. -/
def lastNumber : ℕ → Option ℕ
  | 0 => none
  | n + 1 => some (min (n + 1) u64Max)

theorem counted_connect :
  Counted (after (.ofEnv 64 30 8) (emptyChunks 0)) 0 (lastNumber 0)
  where
  connection := by decide
  size := by decide
  clock := rfl
  buffer := ⟨⟨1, [], 0⟩, by decide, by decide, rfl⟩

theorem emptyChunks_succ (n : ℕ) :
  emptyChunks (n + 1) = emptyChunks n ++ [.chunk 0 [] standstill]
  := by
  rw [emptyChunks, replicate_succ', ← cons_append]
  rfl

/-- The number of the last frame is the number of chunks until it reaches the largest
number. -/
theorem counted_emptyChunks (n : ℕ) :
  Counted (after (.ofEnv 64 30 8) (emptyChunks n)) n (lastNumber n)
  := by
  induction n with
  | zero => apply counted_connect
  | succ n ih =>
    rw [emptyChunks_succ, after, Run.run_concat]
    apply Counted.chunk _ ih
    decide

theorem clockAdvances_emptyChunks (n : ℕ) :
  Run.Meets (step (.ofEnv 64 30 8)) ClockAdvances .init (emptyChunks n)
  := by
  induction n with
  | zero => exact ⟨⟨le_rfl, le_rfl⟩, trivial⟩
  | succ n ih =>
    rw [emptyChunks_succ, Run.meets_append]
    have hclock := (counted_emptyChunks n).clock
    exact ⟨ih, ⟨hclock.le, le_rfl⟩, trivial⟩

theorem ReplaySessionBuffer.Consecutive.getLast?_lt (h : buffer.Consecutive) {last : ℕ}
    (hlast : (buffer.frames.map seq).getLast? = some last) :
  last < buffer.nextSeq
  := by
  obtain ⟨first, hnumbers, hnext⟩ := h
  have hmem := mem_of_getLast? hlast
  rw [hnumbers, mem_range'_1] at hmem
  omega

/-- When the next number has reached the largest one, the frame of the next chunk carries a
number that is not below it. -/
theorem number_repeats_at_max :
  Run.Meets (step (.ofEnv 64 30 8)) ClockAdvances .init (emptyChunks u64Max)
  ∧ ∃ b, (after (.ofEnv 64 30 8) (emptyChunks u64Max)).buffers.lookup (str "s") = some b
      ∧ ¬b.Consecutive
  := by
  have hmax : u64Max = u64Max - 1 + 1 := rfl
  use clockAdvances_emptyChunks u64Max
  obtain ⟨b, hlookup, hnext, hlast⟩ := (counted_emptyChunks u64Max).buffer
  use b, hlookup
  intro hconsecutive
  rw [hmax, lastNumber] at hlast
  have hlt := hconsecutive.getLast?_lt hlast
  rw [hnext] at hlt
  omega

end RgbLightning.Gateway
