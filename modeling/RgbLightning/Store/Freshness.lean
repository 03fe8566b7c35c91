import RgbLightning.Store.Rules

/-!
# What the remote-first store reads

A read shows the local value of a key, and the value on the server if there is no local one
(`StoreWorld.visible`).  A mutation is acknowledged when the server has made it, whether or
not it was mirrored locally.  An older local value then hides it (`read_stale`); otherwise a
read returns the value of the last acknowledged mutation (`read_acknowledged`).
-/

namespace RgbLightning

open Prog StoreWorld Session Option

/-- The value a read shows. -/
def StoreWorld.visible (w : StoreWorld) (k : Key) : Option Bytes :=
  (w.rows.lookup k).or (w.remoteValue (vssKey k))

/-- The answer of a read that shows a value, or its absence. -/
def answerOf : Option Bytes → Except IoError Bytes
  | some v => .ok v
  | none => .error .keyNotFound

section Rules

variable {G : Guard storeInterface StoreWorld StoreFault} {C : StoreWorld → Prop}
variable {w w₀ : StoreWorld} {k : Key} {value : Option Bytes}

theorem SameCore.visible {w' : StoreWorld} (h : SameCore w w') (k : Key) :
  w'.visible k = w.visible k
  := by
  rw [StoreWorld.visible, StoreWorld.visible, h.rows, h.remoteValue]

/-! ### The requests of the remote-first store -/

theorem writeAsync_wp (remote : VssKvStore) {buf : Bytes}
    (hw : Attempted (vssKey k) (some buf) w₀ w)
    (hcrash : ∀ w', Attempted (vssKey k) (some buf) w₀ w' → C w'.reboot) :
  (remote.writeAsync k buf).wp storeMachine G C (AttemptPost (vssKey k) (some buf) w₀) w
  := putValue_wp hw hcrash

theorem removeAsync_wp (remote : VssKvStore) (hw : Attempted (vssKey k) none w₀ w)
    (hcrash : ∀ w', Attempted (vssKey k) none w₀ w' → C w'.reboot) :
  (remote.removeAsync k).wp storeMachine G C (AttemptPost (vssKey k) none w₀) w
  := by
  have hsame : ∀ w', SameCore w w' → Attempted (vssKey k) none w₀ w' :=
    fun w' hw' => hw.trans (hw'.attempted _ _)
  obtain ⟨herased, hnone⟩ := attempted_erase w (vssKey k)
  rw [VssKvStore.removeAsync, wp_bind]
  rcases hput : Objects.put w.policy w.server (KeyValue.toDelete ⟨vssKey k, -1, []⟩)
    with e | server
  · apply wp_put_rejected hput (hcrash w hw)
    · exact hsame
    · intro _
      exact hsame
  have hserver : server = w.server.erase (vssKey k) := by
    rw [Objects.put_toDelete, if_pos le_rfl] at hput
    split at hput
    · cases hput
    · exact (Except.ok.inj hput).symm
  rw [hserver] at hput
  apply wp_put_accepted hput (hcrash w hw)
  · intro w' hw'
    refine ⟨hw.trans (herased.trans (hw'.attempted _ _)), ?_⟩
    rw [hw'.remoteValue, hnone]
  · intro _
    exact hsame
  · intro e w' hw'
    exact hw.trans (herased.trans (hw'.attempted _ _))

/-- A mutation that is repeated until the server has made it. -/
theorem retryTransient_wp {vk : Str} {op : Store (Except IoError Unit)}
    (hop : ∀ w, Attempted vk value w₀ w →
      op.wp storeMachine G C (AttemptPost vk value w₀) w)
    (hcrash : ∀ w', Attempted vk value w₀ w' → C w'.reboot)
    (hstop : ∀ w', Attempted vk value w₀ w' → C w') (attempts : ℕ)
    (hw : Attempted vk value w₀ w) :
  (retryTransient op attempts).wp storeMachine G C (AttemptPost vk value w₀) w
  := by
  -- What follows a request leaves rows, pending map and server alone.
  have hthen : ∀ {o : StoreOp} {next : o.Ans → Store (Except IoError Unit)} {w1 : StoreWorld},
      o.touchesCore = false → Attempted vk value w₀ w1 →
      (∀ a w2, SameCore w1 w2 → Attempted vk value w₀ w2 →
        (next a).wp storeMachine G C (AttemptPost vk value w₀) w2) →
      (storeOp o >>= next).wp storeMachine G C (AttemptPost vk value w₀) w1 := by
    intro o next w1 ho hw1 hnext
    have hsame : ∀ w2, SameCore w1 w2 → Attempted vk value w₀ w2 :=
      fun w2 h => hw1.trans (h.attempted _ _)
    apply wp_leavesCore_then ho
    · intro w2 h
      apply hcrash w2 (hsame w2 h)
    · intro w2 h
      apply hstop w2 (hsame w2 h)
    · intro a w2 h
      apply hnext a w2 h (hsame w2 h)
  induction attempts generalizing w with
  | zero => exact ⟨fun _ => hcrash w hw, fun _ _ => hstop w hw⟩
  | succ attempts ih =>
    rw [retryTransient]
    apply wp_seq (hop w hw)
    rintro (e | _) w1 hw1
    · dsimp only
      split_ifs
      · apply hthen rfl hw1
        intro stopped w2 _ hw2
        split_ifs
        · apply hthen rfl hw2
          intro _ w3 _ hw3
          exact hw3
        · apply ih hw2
      · apply hthen rfl hw1
        intro _ w2 _ hw2
        exact hw2
    · apply hthen rfl hw1.1
      intro _ w2 hsame hw2
      refine ⟨hw2, ?_⟩
      rw [hsame.remoteValue, hw1.2]

end Rules

/-! ### Reads -/

/-- The answer of a read: what is visible, or a failure that does not claim that the value
is missing. -/
def ReadPost (value : Option Bytes) (r : Except IoError Bytes) : Prop :=
  r = answerOf value ∨ ∃ e, r = .error e ∧ e.kind ≠ .notFound

section Reads

variable {G : Guard storeInterface StoreWorld StoreFault} {C : StoreWorld → Prop}
variable {w : StoreWorld} {k : Key}

theorem readAsync_wp (remote : VssKvStore) (hcrash : C w.reboot) :
  (remote.readAsync k).wp storeMachine G C
    (fun r w' => ReadPost (w.remoteValue (vssKey k)) r ∧ w' = w) w
  := by
  rw [VssKvStore.readAsync, wp_bind]
  apply wp_getObject hcrash
  · intro object hobject
    have hvalue : w.remoteValue (vssKey k) = some object.value := by
      rw [remoteValue, hobject]
      rfl
    rw [hvalue]
    apply wp_localAnswer (k := id) (fun _ => rfl) hcrash
    · exact ⟨Or.inl rfl, rfl⟩
    · intro e
      exact ⟨Or.inr ⟨e.val, rfl, e.property⟩, rfl⟩
  · intro hnone
    have hvalue : w.remoteValue (vssKey k) = none := by
      rw [remoteValue, hnone]
      rfl
    rw [hvalue]
    exact ⟨Or.inl rfl, rfl⟩
  · rintro ⟨e, he⟩
    have hfails : ReadPost (w.remoteValue (vssKey k))
        (.error (vssFailure "VSS read failed: " e)) :=
      Or.inr ⟨_, rfl, by simp [vssFailure]⟩
    cases e with
    | noSuchKeyError => exact absurd rfl he
    | _ => exact ⟨hfails, rfl⟩

theorem remoteFirst_read_wp {s : RemoteFirstKvStore} (hs : s.remote.isSome)
    (hcrash : C w.reboot) :
  (s.read k).wp storeMachine G C (fun r w' => ReadPost (w.visible k) r ∧ w' = w) w
  := by
  obtain ⟨remote, hremote⟩ := isSome_iff_exists.mp hs
  rw [RemoteFirstKvStore.read, wp_bind]
  apply wp_localAnswer (k := id) (fun _ => rfl) hcrash
  · rw [StoreWorld.visible]
    rcases w.rows.lookup k with _ | v
    · rw [Option.none_or]
      simp only [id, IoError.keyNotFound, if_true, hremote]
      apply readAsync_wp remote hcrash
    · exact ⟨Or.inl rfl, rfl⟩
  · intro e
    simp only [id]
    rw [if_neg e.property]
    exact ⟨Or.inr ⟨e.val, rfl, e.property⟩, rfl⟩

theorem remoteFirst_read_calm {s : RemoteFirstKvStore} (hs : s.remote.isSome) (w : StoreWorld)
    (k : Key) :
  (s.read k).result storeMachine w [] = some (answerOf (w.visible k))
  := by
  obtain ⟨remote, hremote⟩ := isSome_iff_exists.mp hs
  have hread : (s.read k).wpCalm storeMachine (fun _ => False)
      (fun r _ => r = answerOf (w.visible k)) w := by
    rw [RemoteFirstKvStore.read, StoreWorld.visible, remoteValue]
    apply wp_calm_then rfl
    rcases hrow : w.rows.lookup k with _ | v
    · simp only [StoreFault.localAnswer, StoreFault.localError?, IoError.keyNotFound, if_true,
        hremote]
      rw [VssKvStore.readAsync]
      apply wp_calm_then rfl
      rcases hobject : w.server.lookup (vssKey k) with _ | object
      · simp only [Objects.get, hobject]
        rfl
      · simp only [Objects.get, hobject]
        apply wp_calm rfl
        rfl
    · rfl
  obtain ⟨r, hr, rfl⟩ := result_of_wp_calmly hread
  exact hr

end Reads

/-! ### Mutations -/

/-- A mutation is mirrored locally, or the local value does not hide it. -/
def MirrorAgrees : Guard storeInterface StoreWorld StoreFault
  | .localWrite k value, .go f, w =>
    f.localError? = none ∨ w.rows.lookup k = none ∨ w.rows.lookup k = some value
  | .localRemove k, .go f, w => f.localError? = none ∨ w.rows.lookup k = none
  | _, _, _ => True

section Mutations

variable {w : StoreWorld} {k : Key} {value : Option Bytes}

theorem visible_of_row (hremote : w.remoteValue (vssKey k) = value)
    (hrow : w.rows.lookup k = none ∨ w.rows.lookup k = value) :
  w.visible k = value
  := by
  rw [StoreWorld.visible, hremote]
  rcases hrow with h | h
  · rw [h, Option.none_or]
  · rw [h, Option.or_self]

theorem mirror_wp {o : StoreOp} {r : Except IoError Unit → o.Ans}
    (hexec : ∀ f, exec 0 f o w
      = some (some (r (f.transact w { w with rows := w.rows.assign k value }).1),
          (f.transact w { w with rows := w.rows.assign k value }).2))
    (hguard : ∀ f, MirrorAgrees o (.go f) w →
      f.localError? = none ∨ w.rows.lookup k = none ∨ w.rows.lookup k = value)
    (hremote : w.remoteValue (vssKey k) = value) :
  (storeOp o).wp storeMachine MirrorAgrees (fun _ => True) (fun _ w' => w'.visible k = value) w
  := by
  refine ⟨fun _ => trivial, fun f hf => ?_⟩
  simp only [hexec, getD_some, StoreFault.transact]
  rcases he : f.localError? with _ | e
  · apply visible_of_row
    · exact hremote
    · right
      rw [Table.lookup_assign_eq, if_pos rfl]
  · have h := hguard f hf
    rw [he] at h
    apply visible_of_row hremote (h.resolve_left (by simp))

variable {s : RemoteFirstKvStore}

theorem remoteFirst_mutate_wp {remote : VssKvStore} (hs : s.remote = some remote) {attempts : ℕ}
    {remoteOp : VssKvStore → Store (Except IoError Unit)} {localOp : Store (Except IoError Unit)}
    (hremoteOp : ∀ w₀ w, Attempted (vssKey k) value w₀ w →
      (remoteOp remote).wp storeMachine MirrorAgrees (fun _ => True)
        (AttemptPost (vssKey k) value w₀) w) (hlocalOp : ∀ w, w.remoteValue (vssKey k) = value →
      localOp.wp storeMachine MirrorAgrees (fun _ => True)
        (fun _ w' => w'.visible k = value) w) :
  (s.mutate k attempts remoteOp localOp).wp storeMachine MirrorAgrees (fun _ => True)
    (fun r w' => r = .ok () → w'.visible k = value) w
  := by
  have htrivial : ∀ w1 w2 : StoreWorld, SameCore w1 w2 → True := fun _ _ _ => trivial
  rw [RemoteFirstKvStore.mutate]
  apply wp_leavesCore_then rfl (htrivial w) (htrivial w)
  intro _ w1 _
  apply wp_leavesCore_then rfl (htrivial w1) (htrivial w1)
  intro _ w2 _
  rw [hs]
  dsimp only
  apply wp_seq (retryTransient_wp (hremoteOp w2) (fun _ _ => trivial)
    (fun _ _ => trivial) attempts ((SameCore.refl w2).attempted _ _))
  rintro (e | _) w3 hw3
  · apply wp_leavesCore_then rfl (htrivial w3) (htrivial w3)
    rintro _ w4 _ ⟨⟩
  dsimp only
  apply wp_seq (hlocalOp w3 hw3.2)
  intro _ w4 hw4
  apply wp_leavesCore_then rfl (htrivial w4) (htrivial w4)
  intro _ w5 hsame _
  rw [hsame.visible, hw4]

theorem remoteFirst_write_wp (hs : s.remote.isSome) (attempts : ℕ) (buf : Bytes) :
  (s.write attempts k buf).wp storeMachine MirrorAgrees (fun _ => True)
    (fun r w' => r = .ok () → w'.visible k = some buf) w
  := by
  obtain ⟨remote, hremote⟩ := isSome_iff_exists.mp hs
  apply remoteFirst_mutate_wp hremote
  · intro w₀ w hw
    apply writeAsync_wp remote hw (fun _ _ => trivial)
  · intro w hw
    have hguard : ∀ f, MirrorAgrees (.localWrite k buf) (.go f) w →
        f.localError? = none ∨ w.rows.lookup k = none ∨ w.rows.lookup k = some buf :=
      fun _ h => h
    apply mirror_wp (r := id) (fun _ => rfl) hguard hw

theorem remoteFirst_remove_wp (hs : s.remote.isSome) (attempts : ℕ) :
  (s.remove attempts k).wp storeMachine MirrorAgrees (fun _ => True)
    (fun r w' => r = .ok () → w'.visible k = none) w
  := by
  obtain ⟨remote, hremote⟩ := isSome_iff_exists.mp hs
  apply remoteFirst_mutate_wp hremote
  · intro w₀ w hw
    apply removeAsync_wp remote hw (fun _ _ => trivial)
  · intro w hw
    have hguard : ∀ f, MirrorAgrees (.localRemove k) (.go f) w →
        f.localError? = none ∨ w.rows.lookup k = none ∨ w.rows.lookup k = none :=
      fun _ h => Or.imp_right Or.inl h
    apply mirror_wp (r := id) (fun _ => rfl) hguard hw

end Mutations

/-! ### Sequences of calls -/

/-- The calls of the remote-first store, for a key. -/
inductive RemoteCall where
  | write (attempts : ℕ) (buf : Bytes)
  | remove (attempts : ℕ)
  | read

inductive RemoteAnswer where
  | mutated (r : Except IoError Unit)
  | read (r : Except IoError Bytes)

namespace RemoteCall

def body (s : RemoteFirstKvStore) (k : Key) : RemoteCall → Store RemoteAnswer
  | .write attempts buf => do
    let r ← s.write attempts k buf
    pure (.mutated r)
  | .remove attempts => do
    let r ← s.remove attempts k
    pure (.mutated r)
  | .read => do
    let r ← s.read k
    pure (.read r)

def value : RemoteCall → Option (Option Bytes)
  | .write _ buf => some (some buf)
  | .remove _ => some none
  | .read => none

end RemoteCall

def acknowledge (before : Option (Option Bytes)) (entry : Entry RemoteCall RemoteAnswer) :
    Option (Option Bytes) :=
  match entry.1.value, entry.2 with
  | none, _ => before
  | some value, some (.mutated (.ok _)) => some value
  | some _, _ => none

/-- The value of the last mutation, if it was acknowledged. -/
def acknowledged (history : List (Entry RemoteCall RemoteAnswer)) :
    Option (Option Bytes) :=
  history.foldl acknowledge none

theorem acknowledged_append (history : List (Entry RemoteCall RemoteAnswer))
    (entry : Entry RemoteCall RemoteAnswer) :
  acknowledged (history ++ [entry]) = acknowledge (acknowledged history) entry
  := List.foldl_append

section Sessions

variable {s : RemoteFirstKvStore} {k : Key}

/-- The value of the last mutation is visible, if it was acknowledged. -/
def Acknowledges (k : Key) (history : List (Entry RemoteCall RemoteAnswer))
    (w : StoreWorld) : Prop :=
  ∀ value, acknowledged history = some value → w.visible k = value

/-- After a mutation, only what it asked for can be acknowledged. -/
theorem acknowledges_append {c : RemoteCall} {value : Option Bytes} (hc : c.value = some value)
    (history : List (Entry RemoteCall RemoteAnswer)) (r : Option RemoteAnswer)
    (w : StoreWorld) (hw : r = some (.mutated (.ok ())) → w.visible k = value) :
  Acknowledges k (history ++ [(c, r)]) w
  := by
  intro value' h
  simp only [acknowledged_append, acknowledge, hc] at h
  rcases r with _ | ((_ | _) | _)
  · cases h
  · cases h
  · cases h
    apply hw rfl
  · cases h

theorem acknowledges_read (history : List (Entry RemoteCall RemoteAnswer))
    (r : Option RemoteAnswer) {w : StoreWorld} (hw : Acknowledges k history w) :
  Acknowledges k (history ++ [(.read, r)]) w
  := by
  intro value h
  rw [acknowledged_append] at h
  apply hw value h

theorem remoteCall_wp (hs : s.remote.isSome)
    (history : List (Entry RemoteCall RemoteAnswer)) (c : RemoteCall) (w : StoreWorld)
    (hw : Acknowledges k history w) :
  (c.body s k).wp storeMachine MirrorAgrees (Acknowledges k (history ++ [(c, none)]))
    (fun r => Acknowledges k (history ++ [(c, some r)])) w
  := by
  cases c with
  | write attempts buf =>
    rw [RemoteCall.body, wp_bind]
    apply wp_mono _ _ _ _ (remoteFirst_write_wp hs attempts buf)
    · intro w' _
      apply acknowledges_append rfl
      rintro ⟨⟩
    · intro r w' hw'
      apply acknowledges_append rfl
      rintro ⟨⟩
      apply hw' rfl
  | remove attempts =>
    rw [RemoteCall.body, wp_bind]
    apply wp_mono _ _ _ _ (remoteFirst_remove_wp hs attempts)
    · intro w' _
      apply acknowledges_append rfl
      rintro ⟨⟩
    · intro r w' hw'
      apply acknowledges_append rfl
      rintro ⟨⟩
      apply hw' rfl
  | read =>
    rw [RemoteCall.body]
    apply wp_seq (remoteFirst_read_wp hs _)
    · rintro r w' ⟨-, rfl⟩
      apply acknowledges_read _ _ hw
    · apply acknowledges_read _ _ hw

/-- A read that follows an acknowledged mutation, with no later mutation, answers what the
mutation asked for, or fails without claiming that the value is missing; it does not fail if
nothing interferes with it. -/
theorem read_acknowledged (hs : s.remote.isSome) (w : StoreWorld)
    (as : List (Action RemoteCall StoreFault))
    (has : AllowsAll storeMachine MirrorAgrees (fun _ _ => True) (RemoteCall.body s k)
      ⟨[], w⟩ as) {value : Option Bytes} :
  let final := run storeMachine (RemoteCall.body s k) ⟨[], w⟩ as
  acknowledged final.history = some value →
    (∀ (fs : List (Fate StoreFault)) (r : Except IoError Bytes),
      (s.read k).result storeMachine final.world fs = some r → ReadPost value r)
    ∧ (s.read k).result storeMachine final.world [] = some (answerOf value)
  := by
  intro final hack
  have hfinal : Acknowledges k final.history final.world := by
    apply run_invariant (I := Acknowledges k)
      (fun h c w _ => remoteCall_wp hs h c w) (fun _ _ h => h) as _ has
    rintro _ ⟨⟩
  have hvisible := hfinal value hack
  constructor
  · intro fs r hr
    have hread := exec_of_wp _ _ fs
      (remoteFirst_read_wp (G := anyFate) (C := fun _ => True) (w := final.world) (k := k) hs
        trivial) (admits_anyFate _ _ _)
    rw [← hvisible]
    exact (hread.1 r hr).1
  · rw [remoteFirst_read_calm hs, hvisible]

end Sessions

/-! ### Examples -/

def mirroredStore : RemoteFirstKvStore := ⟨some ⟨str "node"⟩⟩

def mirrorFailure : StoreFault := .localFails ⟨⟨.other, "mirror", none⟩, by decide⟩

/-- The manager is written, and after a restart it is written again, but there the mirror
fails. -/
def staleMirror : List (Action RemoteCall StoreFault) :=
  [.call (.write 1 [1]) [], .restart,
    .call (.write 1 [2]) (List.replicate 5 (.go .calm) ++ [.go mirrorFailure])]

/-- The second write is acknowledged, and a read returns the value of the first. -/
theorem read_stale :
  let final := run storeMachine (RemoteCall.body mirroredStore channelManagerKey)
    ⟨[], {}⟩ staleMirror
  acknowledged final.history = some (some [2])
    ∧ (mirroredStore.read channelManagerKey).result storeMachine final.world []
      = some (.ok [1])
  := by
  constructor <;> rfl

/-- The manager is written for the first time, but the mirror fails.  After a restart it is
read from the server. -/
def absentMirror : List (Action RemoteCall StoreFault) :=
  [.call (.write 1 [2]) (List.replicate 5 (.go .calm) ++ [.go mirrorFailure]), .restart]

theorem read_acknowledged_absentMirror :
  let final := run storeMachine (RemoteCall.body mirroredStore channelManagerKey)
    ⟨[], {}⟩ absentMirror
  final.world.rows.lookup channelManagerKey = none
    ∧ (mirroredStore.read channelManagerKey).result storeMachine final.world []
      = some (.ok [2])
  := by
  refine ⟨rfl, (read_acknowledged (s := mirroredStore) rfl {} absentMirror ?_ rfl).2⟩
  refine ⟨⟨trivial, ?_⟩, trivial, trivial⟩
  exact ⟨trivial, trivial, trivial, trivial, trivial, Or.inr (Or.inl rfl), trivial, trivial⟩

end RgbLightning
