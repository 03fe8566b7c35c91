import RgbLightning.Apay.NextIndex

/-!
# The next hash index of a browser recipient

The browser node reads and writes the index of a host as the native one does.  It differs in
what surrounds the call: it needs a usable channel with the host, its request ids are
counted, from the start again after a reload, a request with the id of one that waits takes
the place of the older one, and a disconnect ends the calls that wait for the peer.

Again the index can go back (`browserIndex_goes_back`), except in an `Orderly` run
(`browserIndex_advances`).
-/

namespace RgbLightning

open Run ApayClient

/-- The persisted indices, the calls and the counter of request ids of a browser node. -/
structure BrowserApay extends ApayClient where
  requestIdCounter : ℕ := 0

/-- A request id, from the node ids and the counter. -/
def newRequestId (localNodeId hostNodeId : PublicKey) (n : ℕ) : Str :=
  str "apay-" ++ (hexStr localNodeId.toList).take 8 ++ str "-"
    ++ (hexStr hostNodeId.toList).take 8 ++ str "-" ++ decimalStr n

inductive BrowserApay.Event where
  /-- A call reads the index and queues its batch.  `usable` says whether there is a usable
  channel with the host, and `signs` whether the batch can be signed. -/
  | start (hostNodeId : PublicKey) (usable : Bool) (read : ReadFate) (signs : Bool)
  /-- The host accepts the batch of a call. -/
  | accept (call : ℕ)
  /-- A reply arrives. -/
  | reply (sender : PublicKey) (requestId : Str) (reply : ApayReply)
  /-- A call whose reply is there goes on; `graph` says whether there still is an LDK object
  graph to store the index with. -/
  | resume (call : ℕ) (graph : Bool) (write : WriteFate)
  /-- A call stops waiting. -/
  | timeout (call : ℕ)
  | peerDisconnected (peer : PublicKey)
  /-- The page is reloaded. -/
  | reload

/-- The call ends if it still waits. -/
def ApayCall.dropWaiting (c : ApayCall) : ApayCall :=
  if c.phase = .waiting then { c with phase := .finished false } else c

namespace BrowserApay

section Client

variable (deriveHash : ℕ → Except JsonRpcErrorWire PaymentHash) (localNodeId : PublicKey)
variable (s : BrowserApay)

/-- The counter after the next request id. -/
def nextCounter : ℕ :=
  (s.requestIdCounter + 1) % (u64Max + 1)

/-- The new call, if its batch can be prepared and signed. -/
def newCall (hostNodeId : PublicKey) (usable : Bool) (read : ReadFate) (signs : Bool) :
    Option ApayCall :=
  if usable then
    match s.prepareApayOrderParams deriveHash read hostNodeId with
    | .error _ => none
    | .ok params =>
      if params.hashes ≠ [] ∧ signs then
        some
          { hostNodeId
            requestId := newRequestId localNodeId hostNodeId s.nextCounter
            params }
      else none
  else none

/-- Queues the request of a call.  A call that waits for a reply with the same id is
dropped. -/
def queueAsyncOrderNew (c : ApayCall) : BrowserApay :=
  { s with
    calls := s.calls.map (fun c' =>
        if ApayClient.Pending c.hostNodeId c.requestId c' then c'.dropWaiting else c') ++ [c]
    requestIdCounter := s.nextCounter }

def step : Event → BrowserApay
  | .start hostNodeId usable read signs =>
    match s.newCall deriveHash localNodeId hostNodeId usable read signs with
    | none => s
    | some c => s.queueAsyncOrderNew c
  | .accept k => { s with toApayClient := s.change k fun c => { c with accepted := true } }
  | .reply sender requestId reply =>
    { s with
      calls := s.calls.map fun c =>
        if ApayClient.Pending sender requestId c then { c with phase := .answered reply }
        else c }
  | .resume k graph write =>
    match s.calls[k]? with
    | none => s
    | some c =>
      let (rows, c) := s.proceed (if graph then write else .fails) c
      { s with rows, calls := s.calls.set k c }
  | .timeout k => { s with toApayClient := s.change k ApayCall.dropWaiting }
  | .peerDisconnected peer =>
    { s with
      calls := s.calls.map fun c => if c.hostNodeId = peer then c.dropWaiting else c }
  | .reload =>
    { rows := s.rows
      calls := s.calls.map fun c =>
        match c.phase with
        | .finished _ => c
        | _ => { c with phase := .finished false } }

def started (e : Event) : List ApayCall :=
  (s.step deriveHash localNodeId e).calls.drop s.calls.length

/-- A call to a host starts when the replies to all batches that the host has accepted are
stored, and an index that is stored lies above what was there. -/
def Orderly : Event → Prop
  | .start host _ _ _ =>
    ∀ c ∈ s.calls, c.hostNodeId = host → c.accepted = true → c.phase = .finished true
  | .resume k graph write =>
    ∀ c ∈ s.calls[k]?, s.StoresAbove (if graph then write else .fails) c
  | _ => True

end Client

variable {deriveHash : ℕ → Except JsonRpcErrorWire PaymentHash} {localNodeId : PublicKey}

theorem newCall_eq_some {s : BrowserApay} {host : PublicKey} {usable : Bool}
    {read : ReadFate} {signs : Bool} {c : ApayCall}
    (h : s.newCall deriveHash localNodeId host usable read signs = some c) :
  c.hostNodeId = host ∧ c.phase = .waiting
    ∧ ∃ n, s.nextIndex host = .ok n ∧ ∀ i ∈ c.indices, n ≤ i
  := by
  unfold newCall at h
  split_ifs at h
  split at h
  next => cases h
  next params hparams =>
    split_ifs at h
    obtain rfl := Option.some.inj h
    exact ⟨rfl, rfl, prepareApayOrderParams_eq_ok hparams⟩

theorem follows_dropWaiting (c : ApayCall) :
  Follows c c.dropWaiting
  := by
  unfold ApayCall.dropWaiting
  split_ifs
  · exact ⟨rfl, rfl, fun h => by cases h⟩
  · apply follows_refl

/-- What an event does: it starts a call while others go on, it lets calls go on without
storing an index, or it stores the index of a reply. -/
theorem step_cases (s : BrowserApay) (e : Event) :
  (∃ host usable read signs c s', e = .start host usable read signs
      ∧ s.newCall deriveHash localNodeId host usable read signs = some c
      ∧ s.Continues s'
      ∧ (s.step deriveHash localNodeId e).toApayClient
        = { s' with calls := s'.calls ++ (some c).toList })
    ∨ s.Continues (s.step deriveHash localNodeId e).toApayClient
    ∨ ∃ k graph write c orderState, e = .resume k graph write ∧ s.calls[k]? = some c
      ∧ c.phase = .answered (.ok (some orderState))
      ∧ (if graph then write else .fails) ≠ WriteFate.fails
      ∧ validateAsyncPaymentsNextHashIndex orderState.nextIndexExpected = .ok ()
      ∧ (s.step deriveHash localNodeId e).toApayClient
        = ⟨s.rows.insert (nextIndexKey c.hostNodeId) (decimalStr orderState.nextIndexExpected),
          s.calls.set k { c with phase := .finished true }⟩
  := by
  have hrefl : s.Continues s.toApayClient :=
    ⟨rfl, rfl, fun c hc => ⟨c, hc, follows_refl c⟩⟩
  cases e with
  | start host usable read signs =>
    rw [step]
    cases hnew : s.newCall deriveHash localNodeId host usable read signs with
    | none => exact .inr (.inl hrefl)
    | some c =>
      let s' : ApayClient :=
        { s.toApayClient with
          calls := s.calls.map fun c' =>
            if ApayClient.Pending c.hostNodeId c.requestId c' then c'.dropWaiting else c' }
      refine .inl ⟨host, usable, read, signs, c, s', rfl, hnew, ?_, rfl⟩
      apply s.continues_map
      intro c'
      split_ifs
      · apply follows_dropWaiting
      · apply follows_refl
  | accept k => exact .inr (.inl (s.continues_change k fun c => ⟨rfl, rfl, id⟩))
  | reply sender requestId reply =>
    refine .inr (.inl (s.continues_map ?_))
    intro c
    split_ifs
    · exact ⟨rfl, rfl, fun h => by cases h⟩
    · apply follows_refl
  | timeout k => exact .inr (.inl (s.continues_change k follows_dropWaiting))
  | peerDisconnected peer =>
    refine .inr (.inl (s.continues_map ?_))
    intro c
    split_ifs
    · apply follows_dropWaiting
    · apply follows_refl
  | reload =>
    refine .inr (.inl (s.continues_map ?_))
    intro c
    split
    · apply follows_refl
    · exact ⟨rfl, rfl, fun h => by cases h⟩
  | resume k graph write =>
    rw [step]
    rcases hk : s.calls[k]? with _ | c
    · exact .inr (.inl hrefl)
    · rcases s.proceed_cases (if graph then write else .fails) hk with
        h | ⟨orderState, hphase, hwrite, hvalid, h⟩
      · exact .inr (.inl h)
      · exact .inr (.inr ⟨k, graph, write, c, orderState, rfl, hk, hphase, hwrite, hvalid, h⟩)

/-- An orderly event keeps the indices of accepted batches below the persisted index, which
does not go back. -/
theorem sound_step {s : BrowserApay} (hs : s.Sound) {e : Event} (he : s.Orderly e) :
  (s.step deriveHash localNodeId e).Sound
    ∧ s.Advances (s.step deriveHash localNodeId e).toApayClient
  := by
  rcases s.step_cases e with ⟨host, usable, read, signs, c, s', rfl, hnew, hs', hstep⟩ |
    hcontinues | ⟨k, graph, write, c, orderState, rfl, hk, hphase, hwrite, hvalid, hstep⟩
  · obtain ⟨hsound, hadvances⟩ := hs.continues hs'
    rw [hstep]
    refine ⟨hsound.append fun c' hc' => ?_, hadvances⟩
    rw [Option.mem_some] at hc'
    rw [← hc']
    apply (newCall_eq_some hnew).2.1
  · apply hs.continues hcontinues
  · rw [hstep]
    apply hs.store (he c hk) hphase hwrite hvalid

/-- What an orderly event starts offers no index of a batch that the host has accepted. -/
theorem disjoint_started {s : BrowserApay} (hs : s.Sound) {e : Event} (he : s.Orderly e)
    {c : ApayCall} (hc : c ∈ s.calls) (haccepted : c.accepted = true) {c' : ApayCall}
    (hc' : c' ∈ s.started deriveHash localNodeId e) (hhost : c'.hostNodeId = c.hostNodeId) :
  ∀ i ∈ c.indices, i ∉ c'.indices
  := by
  unfold started at hc'
  rcases s.step_cases e with
    ⟨host, usable, read, signs, c0, s', rfl, hnew, ⟨-, hlength, -⟩, hstep⟩ |
    ⟨-, hlength, -⟩ | ⟨k, graph, write, c0, orderState, rfl, -, -, -, -, hstep⟩
  · rw [hstep, ← hlength, List.drop_left, Option.mem_toList] at hc'
    rw [hc'] at hnew
    obtain ⟨rfl, -, n, hn, hfrom⟩ := newCall_eq_some hnew
    rw [hhost] at hn
    apply hs.disjoint hc (he c hc hhost.symm haccepted) hn hfrom
  · rw [List.drop_eq_nil_of_le hlength.le] at hc'
    cases hc'
  · rw [hstep, List.drop_eq_nil_of_le (List.length_set).le] at hc'
    cases hc'

/-- Along an orderly run the persisted index of no host goes back, and no call offers an
index of a batch that the host had accepted when the call started. -/
theorem browserIndex_advances (deriveHash : ℕ → Except JsonRpcErrorWire PaymentHash)
    (localNodeId : PublicKey) (es : List Event)
    (h : Meets (step deriveHash localNodeId) Orderly {} es) :
  (∀ before after, es = before ++ after → ∀ host, ∃ m n,
      (run (step deriveHash localNodeId) {} before).nextIndex host = .ok m
        ∧ (run (step deriveHash localNodeId) {} es).nextIndex host = .ok n ∧ m ≤ n)
    ∧ ∀ before e after, es = before ++ e :: after →
      let s := run (step deriveHash localNodeId) {} before
      ∀ c ∈ s.calls, c.accepted = true → ∀ c' ∈ s.started deriveHash localNodeId e,
        c'.hostNodeId = c.hostNodeId → ∀ i ∈ c.indices, i ∉ c'.indices
  := by
  have hsound (before : List Event)
      (hmeets : Meets (step deriveHash localNodeId) Orderly {} before) :
      (run (step deriveHash localNodeId) {} before).Sound := by
    apply run_invariant (I := fun s : BrowserApay => s.Sound)
      (fun s e hs he => (sound_step hs he).1) sound_empty hmeets
  constructor
  · rintro before after rfl host
    obtain ⟨hbefore, hafter⟩ := meets_append.mp h
    obtain ⟨m, hm, -⟩ := hsound before hbefore host
    have hadvances := run_related (I := fun s : BrowserApay => s.Sound)
      (R := fun s s' => s.Advances s'.toApayClient)
      (fun s => s.advances_refl) (fun s s' s'' => advances_trans _ _ _)
      (fun s e hs he => (sound_step hs he).1) (fun s e hs he => (sound_step hs he).2)
      (hsound before hbefore) hafter
    obtain ⟨n, hn, hmn⟩ := hadvances host m hm
    refine ⟨m, n, hm, ?_, hmn⟩
    rw [run_append, hn]
  · rintro before e after rfl s c hc haccepted c' hc' hhost
    obtain ⟨hbefore, he, -⟩ := meets_append.mp h
    apply disjoint_started (hsound before hbefore) he hc haccepted hc' hhost

/-- A call that is not disturbed, and whose batch the host accepts. -/
def exchange (k : ℕ) (host : PublicKey) (requestId : Str) (nextIndex : ℕ) : List Event :=
  [.start host true .works true, .accept k,
    .reply host requestId
      (.ok (some ⟨1, "1", "active", nextIndex - 1, nextIndex, 200, 200⟩)),
    .resume k true .works]

/-- Node ids and hashes for the runs below. -/
def sampleNodeId (n : ℕ) : PublicKey := List.Vector.replicate 33 (UInt8.ofNat n)

def sampleDeriveHash (i : ℕ) : Except JsonRpcErrorWire PaymentHash :=
  .ok (List.Vector.replicate 32 (UInt8.ofNat i))

def sampleExchange (k nextIndex : ℕ) : List Event :=
  exchange k (sampleNodeId 2) (newRequestId (sampleNodeId 1) (sampleNodeId 2) (k + 1)) nextIndex

instance (s : ApayClient) (write : WriteFate) : ∀ c, Decidable (s.StoresAbove write c)
  | ⟨_, _, _, .answered (.ok (some _)), _⟩ => inferInstanceAs (Decidable (_ → _ → _ ∧ _))
  | ⟨_, _, _, .answered (.ok none), _⟩ | ⟨_, _, _, .answered (.error _), _⟩
  | ⟨_, _, _, .waiting, _⟩ | ⟨_, _, _, .finished _, _⟩ => .isTrue trivial

instance (s : BrowserApay) : ∀ e, Decidable (Orderly s e)
  | .start .. => inferInstanceAs (Decidable (∀ c ∈ s.calls, _))
  | .resume k _ _ => inferInstanceAs (Decidable (∀ c ∈ s.calls[k]?, _))
  | .accept _ | .reply .. | .timeout _ | .peerDisconnected _ | .reload => .isTrue trivial

/-- The theorem applies to two exchanges with a host that answers as it should. -/
theorem browserIndex_advances_twoCalls :
  ∃ m n, (run (step sampleDeriveHash (sampleNodeId 1)) {} (sampleExchange 0 201)).nextIndex
      (sampleNodeId 2) = .ok m
    ∧ (run (step sampleDeriveHash (sampleNodeId 1)) {}
      (sampleExchange 0 201 ++ sampleExchange 1 401)).nextIndex (sampleNodeId 2) = .ok n
    ∧ m ≤ n
  := (browserIndex_advances sampleDeriveHash (sampleNodeId 1) _ (by decide +kernel)).1 _ _ rfl
    (sampleNodeId 2)

/-- A host first answers a call as it should, and the next one with the index 1: the node
stores it, and then offers the hashes that the host has accepted again. -/
theorem browserIndex_goes_back :
  let s := run (step sampleDeriveHash (sampleNodeId 1)) {} (sampleExchange 0 201)
  let s' := run (step sampleDeriveHash (sampleNodeId 1)) s (sampleExchange 1 1)
  s.nextIndex (sampleNodeId 2) = .ok 201 ∧ s'.nextIndex (sampleNodeId 2) = .ok 1
    ∧ ∃ c ∈ s'.calls, c.accepted = true
      ∧ ∃ c' ∈ s'.started sampleDeriveHash (sampleNodeId 1)
          (.start (sampleNodeId 2) true .works true),
        c'.hostNodeId = c.hostNodeId ∧ 200 ∈ c.indices ∧ 200 ∈ c'.indices
  := by
  decide +kernel

end BrowserApay

end RgbLightning
