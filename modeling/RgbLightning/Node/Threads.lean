import RgbLightning.Lib.Interleave
import RgbLightning.Node.Lightning

/-!
# Calls that run at the same time

The calls of the API and the handlers of events run in threads of one process.  They share
the records, each behind its mutex.  A call that reads a record, unlocks it, and sets an
entry afterwards may find an entry that it has never seen.  So an entry is touched, for a
call, once another call has changed it since the call began; what a call knows about an entry
is true of it or the entry is touched (`Threads.Knows`).

A discipline says which changes of an entry are permitted, and asks of a run that calls
change entries of the watched records only when these are not touched.  Along such a run
every entry changes as permitted (`Discipline.run_keeps`).
-/

namespace RgbLightning

open Prog Interleave Pool Option Function Set

/-! ### Entries of records -/

abbrev Cell.Entry : Cell → Type
  | .takerSwaps => SwapData
  | .makerSwaps => SwapData
  | .inboundPayments => PaymentInfo
  | .outboundPayments => PaymentInfo

namespace Cell

def entry : (c : Cell) → c.Content → PaymentHash → Option c.Entry
  | .takerSwaps, m, h => m.lookup h
  | .makerSwaps, m, h => m.lookup h
  | .inboundPayments, m, h => m.lookup h
  | .outboundPayments, m, h => m.lookup h

def keys : (c : Cell) → c.Content → List PaymentHash
  | .takerSwaps, m => m.keys
  | .makerSwaps, m => m.keys
  | .inboundPayments, m => m.keys
  | .outboundPayments, m => m.keys

instance decidableEqEntry : (c : Cell) → DecidableEq c.Entry
  | .takerSwaps | .makerSwaps => inferInstanceAs (DecidableEq SwapData)
  | .inboundPayments | .outboundPayments => inferInstanceAs (DecidableEq PaymentInfo)

def insert : (c : Cell) → c.Content → PaymentHash → c.Entry → c.Content
  | .takerSwaps, m, h, e => m.insert h e
  | .makerSwaps, m, h, e => m.insert h e
  | .inboundPayments, m, h, e => m.insert h e
  | .outboundPayments, m, h, e => m.insert h e

theorem entry_insert (c : Cell) (m : c.Content) (h h' : PaymentHash) (e : c.Entry) :
  c.entry (c.insert m h e) h' = if h' = h then some e else c.entry m h'
  := by
  cases c <;> apply Table.lookup_insert_eq

/-- The hashes under which two values of a record differ. -/
def changes (c : Cell) (m m' : c.Content) : List PaymentHash :=
  (c.keys m ++ c.keys m').filter fun h => c.entry m h ≠ c.entry m' h

theorem mem_keys {c : Cell} {m : c.Content} {h : PaymentHash} :
  h ∈ c.keys m ↔ (c.entry m h).isSome
  := by
  cases c <;> rw [keys, entry, AList.lookup_isSome, AList.mem_keys]

theorem mem_changes {c : Cell} {m m' : c.Content} {h : PaymentHash} :
  h ∈ c.changes m m' ↔ c.entry m h ≠ c.entry m' h
  := by
  rw [changes, List.mem_filter, decide_eq_true_eq, List.mem_append, mem_keys, mem_keys]
  constructor
  · apply And.right
  · intro hne
    refine ⟨?_, hne⟩
    by_contra hnone
    rw [not_or, not_isSome_iff_eq_none, not_isSome_iff_eq_none] at hnone
    apply hne
    rw [hnone.1, hnone.2]

end Cell

/-! ### The shared machine -/

variable {T : Type}

/-- The state that the threads share.  Which thread has a record locked, and which entries
are touched, is recorded. -/
structure Threads (T : Type) where
  world : World
  ln : LnState
  holder : Cell → Option T
  touched : T → Cell → PaymentHash → Bool

namespace Threads

def start (w : World) (ln : LnState) : Threads T :=
  ⟨w, ln, fun _ => none, fun _ _ _ => false⟩

def memory (s : Threads T) (c : Cell) : c.Content := (s.world.cells c).memory

def entry (s : Threads T) (c : Cell) (h : PaymentHash) : Option c.Entry :=
  c.entry (s.memory c) h

variable [DecidableEq T]

/-- Whether a thread has to wait with an operation. -/
def blocked (s : Threads T) (t : T) : NodeOp → Bool
  | .lock c => (s.holder c).isSome
  | .set c _ => s.holder c ≠ some t
  | .save c => s.holder c ≠ some t
  | .unlock c => s.holder c ≠ some t
  | _ => false

/-- The state after the panic of a thread: the mutexes it has locked are poisoned. -/
def panic (s : Threads T) (t : T) : Threads T :=
  { s with
    world := { s.world with
      cells := fun c =>
        if s.holder c = some t then (s.world.cells c).panic else s.world.cells c }
    holder := fun c => if s.holder c = some t then none else s.holder c }

/-- What the state keeps track of, after an operation of a thread that leaves the world `w`. -/
def after (s : Threads T) (t : T) (w : World) : NodeOp → Threads T
  | .lock c => { s with world := w, holder := update s.holder c (some t) }
  | .unlock c => { s with world := w, holder := update s.holder c none }
  | .set c v =>
    { s with
      world := w
      touched := fun t' c' h =>
        s.touched t' c' h || (decide (t' ≠ t ∧ c' = c) && decide (h ∈ c.changes (s.memory c) v)) }
  | _ => { s with world := w }

def exec (t : T) (f : Fault) :
    (o : lnInterface.Op) → Threads T → Option (Option (lnInterface.Ans o) × Threads T)
  | .inl o, s =>
    if s.blocked t o then none
    else
      match World.exec f o s.world with
      | (none, _) => some (none, s.panic t)
      | (some x, w) => some (some x, s.after t w o)
  | .inr .begin, s =>
    some (some (), { s with touched := update s.touched t fun _ _ => false })
  | .inr o, s =>
    match LnState.exec f o (s.world, s.ln) with
    | (x, w, ln) => some (x, { s with world := w, ln })

end Threads

abbrev threadMachine [DecidableEq T] : Shared lnInterface T (Threads T) Fault := ⟨Threads.exec⟩

/-! ### What a call knows -/

namespace Threads

/-- An entry satisfies `P`, or is touched. -/
def Knows (s : Threads T) (t : T) (c : Cell) (h : PaymentHash) (P : Option c.Entry → Prop) :
    Prop :=
  s.touched t c h = true ∨ P (s.entry c h)

/-- The entries outside `E` are the same for a call, or touched. -/
def Kept (t : T) (E : Set (Cell × PaymentHash)) (s s' : Threads T) : Prop :=
  ∀ c h, (c, h) ∉ E → s'.touched t c h = true ∨
    (s.touched t c h = false ∧ s'.entry c h = s.entry c h)

variable {s s' s'' : Threads T} {t : T} {E E' : Set (Cell × PaymentHash)}

theorem Kept.refl (s : Threads T) :
  Kept t E s s
  := by
  intro c h _
  cases htouched : s.touched t c h with
  | true => exact .inl rfl
  | false => exact .inr ⟨rfl, rfl⟩

theorem Kept.trans (h : Kept t E s s') (h' : Kept t E s' s'') :
  Kept t E s s''
  := by
  intro c hash hE
  rcases h' c hash hE with htouched | ⟨hno, heq⟩
  · exact .inl htouched
  · rcases h c hash hE with htouched | ⟨hno', heq'⟩
    · rw [hno] at htouched
      cases htouched
    · exact .inr ⟨hno', heq.trans heq'⟩

theorem Kept.mono (hE : E ⊆ E') (h : Kept t E s s') :
  Kept t E' s s'
  := fun c hash hmem => h c hash fun hmem' => hmem (hE hmem')

theorem Kept.after (h : Kept t E s' s'') (h' : Kept t ∅ s s') :
  Kept t E s s''
  := Kept.trans (h'.mono (empty_subset _)) h

theorem Kept.knows (h : Kept t E s s') {c : Cell} {hash : PaymentHash} (hE : (c, hash) ∉ E)
    {P : Option c.Entry → Prop} (hs : s.Knows t c hash P) :
  s'.Knows t c hash P
  := by
  rcases h c hash hE with htouched | ⟨hno, heq⟩
  · exact .inl htouched
  rcases hs with htouched | hP
  · rw [hno] at htouched
    cases htouched
  · right
    rw [heq]
    apply hP

theorem Kept.remembers (h : Kept t ∅ s s') {c : Cell} {hash : PaymentHash}
    {P : Option c.Entry → Prop} (hs : s.Knows t c hash P) :
  s'.Knows t c hash P
  := h.knows (notMem_empty _) hs

theorem Kept.of_memory (hmemory : ∀ c, s'.memory c = s.memory c)
    (htouched : s'.touched t = s.touched t) :
  Kept t E s s'
  := by
  intro c h hE
  rw [htouched, entry, hmemory, ← entry]
  apply Kept.refl s c h hE

theorem Knows.of_not_touched {c : Cell} {h : PaymentHash} {P : Option c.Entry → Prop}
    (hs : s.Knows t c h P) (hno : s.touched t c h = false) :
  P (s.entry c h)
  := by
  rcases hs with htouched | hP
  · rw [hno] at htouched
    cases htouched
  · apply hP

theorem Knows.mono {c : Cell} {h : PaymentHash} {P P' : Option c.Entry → Prop}
    (hs : s.Knows t c h P) (hP : ∀ e, P e → P' e) :
  s.Knows t c h P'
  := hs.imp_right (hP _)

end Threads

/-! ### Disciplines -/

/-- Which changes of an entry are permitted, in the watched records, and what is asked of the
operations of a run. -/
structure Discipline (T : Type) where
  watched : Cell → Bool
  keeps : (c : Cell) → Option c.Entry → Option c.Entry → Prop
  refl : ∀ c e, keeps c e e
  trans : ∀ c e e' e'', keeps c e e' → keeps c e' e'' → keeps c e e''
  asks : T → lnInterface.Op → Threads T → Prop

namespace Discipline

/-- The record that an operation changes, with its new value. -/
def written : lnInterface.Op → Option (Σ c : Cell, c.Content)
  | .inl (.set c v) => some ⟨c, v⟩
  | _ => none

/-- A call changes entries of the watched records only if they are not touched. -/
def Careful (D : Discipline T) (t : T) (s : Threads T) (o : lnInterface.Op) : Prop :=
  ∀ p ∈ written o, D.watched p.1 →
    ∀ h ∈ p.1.changes (s.memory p.1) p.2, s.touched t p.1 h = false
deriving Decidable

/-- What a discipline asks of the operations of a run. -/
def guard (D : Discipline T) : Interleave.Guard lnInterface T (Threads T) Fault :=
  fun t o _ s => D.Careful t s o ∧ D.asks t o s

/-- Every entry of the watched records has changed as permitted. -/
def Keeps (D : Discipline T) (s s' : Threads T) : Prop :=
  ∀ c, D.watched c → ∀ h, D.keeps c (s.entry c h) (s'.entry c h)

/-- What the other threads may do. -/
structure Rely (D : Discipline T) (t : T) (s s' : Threads T) : Prop where
  /-- A record is not changed while it is locked. -/
  held : ∀ c, s.holder c = some t → s'.holder c = some t ∧ s'.memory c = s.memory c
  kept : Threads.Kept t ∅ s s'
  keeps : D.Keeps s s'

variable {D : Discipline T} {s s' s'' : Threads T} {t : T}

theorem Keeps.refl (s : Threads T) :
  D.Keeps s s
  := fun c _ _ => D.refl c _

theorem Keeps.trans (h : D.Keeps s s') (h' : D.Keeps s' s'') :
  D.Keeps s s''
  := fun c hc hash => D.trans c _ _ _ (h c hc hash) (h' c hc hash)

theorem Rely.refl (t : T) (s : Threads T) :
  D.Rely t s s
  := ⟨fun _ h => ⟨h, rfl⟩, .refl s, .refl s⟩

theorem Rely.trans (t : T) (s s' s'' : Threads T) (h : D.Rely t s s') (h' : D.Rely t s' s'') :
  D.Rely t s s''
  := by
  refine ⟨fun c hc => ?_, h.kept.trans h'.kept, h.keeps.trans h'.keeps⟩
  obtain ⟨hc', hm⟩ := h.held c hc
  obtain ⟨hc'', hm'⟩ := h'.held c hc'
  exact ⟨hc'', hm'.trans hm⟩

theorem Rely.of_memory (hheld : ∀ c, s.holder c = some t → s'.holder c = some t)
    (hmemory : ∀ c, s'.memory c = s.memory c) (htouched : s'.touched t = s.touched t) :
  D.Rely t s s'
  := by
  refine ⟨fun c hc => ⟨hheld c hc, hmemory c⟩, .of_memory hmemory htouched, fun c _ h => ?_⟩
  rw [Threads.entry, Threads.entry, hmemory]
  apply D.refl

/-! ### Operations -/

variable [DecidableEq T]

/-- Whether an operation neither locks, changes, saves nor unlocks a record, nor begins a
call. -/
def free : lnInterface.Op → Bool
  | .inl (.lock _) => false
  | .inl (.set _ _) => false
  | .inl (.save _) => false
  | .inl (.unlock _) => false
  | .inr .begin => false
  | _ => true

end Discipline

/-- The operations of handlers that use no record leave the records alone. -/
theorem World.exec_cells {o : NodeOp} (ho : Discipline.free (.inl o)) {f : Fault}
    {w w' : World} {x : o.Ans} (hx : World.exec f o w = (some x, w')) :
  w'.cells = w.cells
  := by
  cases o with
  | lock c | set c v | save c | unlock c => cases ho
  | getCurrentTimestamp => cases f <;> cases hx <;> rfl
  | forwardInterceptedHtlc g =>
    simp only [World.exec] at hx
    split at hx <;> cases hx <;> rfl
  | updateRgbChannelAmount channelId offered received =>
    simp only [World.exec] at hx
    split at hx <;> cases hx
    rfl
  | remove k => cases f <;> cases hx <;> rfl
  | panic => cases hx
  | _ =>
    cases hx
    rfl

theorem LnState.exec_cells (f : Fault) (o : LnOp) (w : World × LnState) :
  (LnState.exec f o w).2.1.cells = w.1.cells
  := by
  obtain ⟨w, ln⟩ := w
  cases o with
  | bestBlockHeight => cases f <;> rfl
  | write k v => cases f <;> rfl
  | sendSpontaneousPayment p =>
    simp only [LnState.exec]
    split_ifs <;> rfl
  | _ => rfl

namespace Threads

variable [DecidableEq T] {s s' : Threads T} {t : T} {c : Cell} {f : Fault}

@[simp]
theorem memory_panic (s : Threads T) (t : T) (c : Cell) :
  (s.panic t).memory c = s.memory c
  := by
  simp only [memory, panic]
  split_ifs <;> rfl

omit [DecidableEq T] in
theorem memory_setLocked (s : Threads T) (c c' : Cell) (b : Bool) (holder : Cell → Option T) :
  memory { s with world := s.world.setLocked c b, holder } c' = s.memory c'
  := by
  simp only [memory, World.setLocked, World.setCell]
  by_cases hc : c' = c
  · subst hc
    rw [update_self]
  · rw [update_of_ne hc]

theorem exec_lock {x : Option c.Content}
    (hx : exec t f (.inl (.lock c)) s = some (x, s')) :
  (x = none ∧ s' = s.panic t) ∨
    (x = some (s.memory c) ∧ s.holder c = none
      ∧ s' = { s with
          world := s.world.setLocked c true
          holder := update s.holder c (some t) })
  := by
  simp only [exec] at hx
  split_ifs at hx with hblocked
  simp only [World.exec] at hx
  split_ifs at hx with hpoisoned
  · cases hx
    exact .inl ⟨rfl, rfl⟩
  · cases hx
    refine .inr ⟨rfl, ?_, rfl⟩
    simpa [blocked] using hblocked

theorem exec_unlock {x : Option Unit} (hx : exec t f (.inl (.unlock c)) s = some (x, s')) :
  s.holder c = some t ∧ s' = { s with
    world := s.world.setLocked c false
    holder := update s.holder c none }
  := by
  simp only [exec] at hx
  split_ifs at hx with hblocked
  cases hx
  refine ⟨?_, rfl⟩
  simpa [blocked] using hblocked

/-- The state after a thread has changed a record in memory. -/
def setMemory (s : Threads T) (t : T) (c : Cell) (v : c.Content) : Threads T :=
  s.after t (s.world.setMemory c v) (.set c v)

theorem memory_setMemory_self (s : Threads T) (t : T) (c : Cell) (v : c.Content) :
  (s.setMemory t c v).memory c = v
  := by
  simp only [memory, setMemory, after, World.setMemory, World.setCell, update_self]

theorem memory_setMemory_of_ne (s : Threads T) (t : T) {c c' : Cell} (hc : c' ≠ c)
    (v : c.Content) :
  (s.setMemory t c v).memory c' = s.memory c'
  := by
  simp only [memory, setMemory, after, World.setMemory, World.setCell,
    update_of_ne hc]

theorem touched_setMemory_self (s : Threads T) (t : T) (c : Cell) (v : c.Content) :
  (s.setMemory t c v).touched t = s.touched t
  := by
  funext c' h
  simp [setMemory, after]

/-- Changing a record touches what is changed for the other calls. -/
theorem kept_setMemory (s : Threads T) {t t' : T} (ht : t' ≠ t) (c : Cell) (v : c.Content) :
  Kept t' ∅ s (s.setMemory t c v)
  := by
  intro c' h _
  by_cases hc : c' = c
  · subst hc
    have htouched : (s.setMemory t c' v).touched t' c' h
        = (s.touched t' c' h || decide (h ∈ c'.changes (s.memory c') v)) := by
      simp [setMemory, after, ht]
    rw [htouched]
    by_cases hchanged : h ∈ c'.changes (s.memory c') v
    · left
      rw [decide_eq_true hchanged, Bool.or_true]
    · rw [decide_eq_false hchanged, Bool.or_false]
      rw [Cell.mem_changes, not_not] at hchanged
      rw [entry, memory_setMemory_self, ← hchanged]
      apply Kept.refl s c' h (notMem_empty _)
  · have htouched : (s.setMemory t c v).touched t' c' h = s.touched t' c' h := by
      simp [setMemory, after, hc]
    rw [htouched, entry, memory_setMemory_of_ne s t hc]
    apply Kept.refl s c' h (notMem_empty _)

theorem exec_set {v : c.Content} {x : Option Unit}
    (hx : exec t f (.inl (.set c v)) s = some (x, s')) :
  s.holder c = some t ∧ s' = s.setMemory t c v
  := by
  simp only [exec] at hx
  split_ifs at hx with hblocked
  cases hx
  refine ⟨?_, rfl⟩
  simpa [blocked] using hblocked

theorem exec_save {x : Option (Except IoError Unit)}
    (hx : exec t f (.inl (.save c)) s = some (x, s')) :
  s.holder c = some t ∧ ∃ w, (w = s.world ∨ w = s.world.saved c) ∧ s' = { s with world := w }
  := by
  simp only [exec] at hx
  split_ifs at hx with hblocked
  refine ⟨by simpa [blocked] using hblocked, ?_⟩
  cases f with
  | fails e =>
    cases hx
    exact ⟨_, .inl rfl, rfl⟩
  | calm | delay d | lost e =>
    cases hx
    exact ⟨_, .inr rfl, rfl⟩

/-- There is nothing to keep track of in an operation that uses no record. -/
theorem after_of_free {o : NodeOp} (ho : Discipline.free (.inl o)) (w : World) :
  s.after t w o = { s with world := w }
  := by
  cases o <;> first | rfl | cases ho

theorem exec_inr {o : LnOp} (ho : Discipline.free (.inr o)) :
  exec t f (.inr o) s = some ((LnState.exec f o (s.world, s.ln)).1,
    { s with
      world := (LnState.exec f o (s.world, s.ln)).2.1
      ln := (LnState.exec f o (s.world, s.ln)).2.2 })
  := by
  cases o <;> first | rfl | cases ho

end Threads

namespace Discipline

variable [DecidableEq T] {D : Discipline T} {s s' s'' : Threads T} {t : T} {c : Cell}
variable {α β : Type}

theorem Rely.panic {t' : T} (ht : t' ≠ t) (s : Threads T) :
  D.Rely t' s (s.panic t)
  := by
  apply Rely.of_memory _ (Threads.memory_panic s t) rfl
  intro c hc
  simp only [Threads.panic]
  rw [hc, if_neg]
  intro heq
  apply ht (some.inj heq)

/-- An operation that uses no record does what the other threads may do. -/
theorem exec_free {o : lnInterface.Op} (ho : free o) {f : Fault} {x : Option (lnInterface.Ans o)}
    (hx : Threads.exec t f o s = some (x, s')) :
  (∀ t', t' ≠ t → D.Rely t' s s') ∧ (x.isSome → D.Rely t s s')
  := by
  have hworld : ∀ t' w ln, w.cells = s.world.cells →
      D.Rely t' s { s with world := w, ln } := by
    intro t' w ln hcells
    refine Rely.of_memory (fun _ h => h) (fun c => ?_) rfl
    rw [Threads.memory, hcells, Threads.memory]
  cases o with
  | inl o =>
    simp only [Threads.exec] at hx
    split_ifs at hx
    rcases hw : World.exec f o s.world with ⟨_ | a, w⟩
    · rw [hw] at hx
      cases hx
      exact ⟨fun t' ht => Rely.panic ht s, fun h => (by cases h)⟩
    rw [hw] at hx
    dsimp only at hx
    rw [Threads.after_of_free ho] at hx
    cases hx
    have hcells := World.exec_cells ho hw
    exact ⟨fun t' _ => hworld t' w s.ln hcells, fun _ => hworld t w s.ln hcells⟩
  | inr o =>
    rw [Threads.exec_inr ho] at hx
    cases hx
    have hcells := LnState.exec_cells f o (s.world, s.ln)
    exact ⟨fun t' _ => hworld t' _ _ hcells, fun _ => hworld t _ _ hcells⟩

/-! ### Rules -/

/-- A thread that keeps to the discipline, with a condition on its result. -/
abbrev Ensures (D : Discipline T) (t : T) (p : Ln α) (Q : α → Threads T → Prop)
    (s : Threads T) : Prop :=
  rg threadMachine D.guard (fun _ => True) D.Rely t p Q s

variable {P Q : α → Threads T → Prop}

variable {k : α → Ln β}

theorem ensures_bind {p : Ln α} {Q : β → Threads T → Prop} (hp : D.Ensures t p P s)
    (hk : ∀ a s', P a s' → D.Ensures t (k a) Q s') :
  D.Ensures t (p >>= k) Q s
  := by
  apply rg_bind Rely.refl _ trivial
  apply rg_mono hk hp

theorem ensures_ret {a : α} (h : ∀ s', D.Rely t s s' → Q a s') :
  D.Ensures t (.ret a) Q s
  := fun s' hs _ => h s' hs

theorem ensures_done {a : α} :
  D.Ensures t (.ret a) (fun _ _ => True) s
  := fun _ _ _ => trivial

theorem ensures_then {p : Ln α} {a : α → β} (hp : D.Ensures t p (fun _ _ => True) s) :
  D.Ensures t (p >>= fun x => .ret (a x)) (fun _ _ => True) s
  := ensures_bind hp fun _ _ _ => ensures_done

theorem ensures_op {o : lnInterface.Op} {Q : lnInterface.Ans o → Threads T → Prop}
    (hop : ∀ f s1 x s2, D.Rely t s s1 → D.guard t o f s1 →
      Threads.exec t f o s1 = some (x, s2) →
        (∀ t', t' ≠ t → D.Rely t' s1 s2) ∧ ∀ a, x = some a → ∀ s3, D.Rely t s2 s3 → Q a s3) :
  D.Ensures t (perform o) Q s
  := by
  intro s1 hs _ f hg
  have h := hop f s1
  rcases hx : threadMachine.exec t f o s1 with _ | ⟨_ | a, s2⟩
  · trivial
  · exact ⟨trivial, (h _ _ hs hg hx).1⟩
  · obtain ⟨hothers, hnext⟩ := h _ _ hs hg hx
    exact ⟨trivial, hothers, fun s3 hs3 _ => hnext a rfl s3 hs3⟩

theorem ensures_free {p : Ln α} (hp : p.All fun o => free o)
    (hQ : ∀ a s', D.Rely t s s' → Q a s') :
  D.Ensures t p Q s
  := by
  apply rg_frame (A := D.Rely t s) (fun _ _ h h' => h'.trans t _ _ _ h) _ hp (Rely.refl t s)
  · intro a s' _ h
    apply hQ a s' h
  · intro o ho f s1 x s2 _ hs1 hx
    obtain ⟨hothers, hown⟩ := exec_free ho hx
    exact ⟨trivial, hothers, fun hsome => hs1.trans t _ _ _ (hown hsome)⟩

theorem ensures_lnOp_bind {o : LnOp} (ho : free (.inr o)) {k : o.Ans → Ln β}
    {Q : β → Threads T → Prop}
    (hk : ∀ a s', Threads.Kept t ∅ s s' → D.Ensures t (k a) Q s') :
  D.Ensures t (lnOp o >>= k) Q s
  := by
  apply ensures_bind (P := fun _ => Threads.Kept t ∅ s) _ hk
  refine ensures_free ⟨ho, fun _ => trivial⟩ fun _ s' hs' => ?_
  apply hs'.kept

theorem ensures_plain {p : Node α} (hp : Plain p) (hQ : ∀ a s', D.Rely t s s' → Q a s') :
  D.Ensures t p.inl Q s
  := by
  apply ensures_free _ hQ
  apply All.inl
  apply All.mono _ hp
  intro o ho
  cases o <;> first | rfl | cases ho

theorem ensures_nodePanic :
  D.Ensures t (nodePanic : Node α).inl Q s
  := fun s1 _ _ _ _ => ⟨trivial, fun _ ht => Rely.panic ht s1⟩

/-- The beginning of a call: no entry is touched. -/
theorem ensures_begin {Q : Unit → Threads T → Prop}
    (hQ : ∀ s1 s', D.asks t (.inr .begin) s1 →
      (∀ c h, s'.Knows t c h (· = s1.entry c h)) → Q () s') :
  D.Ensures t (lnOp .begin) Q s
  := by
  apply ensures_op (o := .inr .begin)
  intro f s1 x s2 _ hguard hx
  cases hx
  constructor
  · intro t' ht
    refine Rely.of_memory (fun _ h => h) (fun _ => rfl) ?_
    apply update_of_ne ht
  · rintro _ - s3 hs3
    apply hQ s1 s3 hguard.2
    intro c h
    apply hs3.kept.remembers
    exact .inr rfl

theorem ensures_lockCell {Q : c.Content → Threads T → Prop}
    (hQ : ∀ s', D.Rely t s s' → s'.holder c = some t → Q (s'.memory c) s') :
  D.Ensures t (lockCell c).inl Q s
  := by
  apply ensures_op (o := .inl (.lock c))
  intro f s1 x s2 hs _ hx
  rcases Threads.exec_lock hx with ⟨rfl, rfl⟩ | ⟨rfl, hfree, rfl⟩
  · exact ⟨fun t' ht => Rely.panic ht s1, fun _ h => (by cases h)⟩
  have hlock : ∀ t', D.Rely t' s1 { s1 with
      world := s1.world.setLocked c true
      holder := update s1.holder c (some t) } := by
    intro t'
    refine Rely.of_memory (fun c' hc' => ?_)
      (fun c' => Threads.memory_setLocked s1 c c' true _) rfl
    have hne : c' ≠ c := by
      rintro rfl
      rw [hfree] at hc'
      cases hc'
    dsimp only
    rw [update_of_ne hne, hc']
  refine ⟨fun t' _ => hlock t', ?_⟩
  rintro _ ⟨⟩ s3 hs3
  obtain ⟨hheld, hmemory⟩ := hs3.held c (update_self _ _ _)
  have hm : s1.memory c = s3.memory c := by
    rw [hmemory, Threads.memory_setLocked]
  rw [hm]
  apply hQ s3 _ hheld
  apply hs.trans t _ _ _ ((hlock t).trans t _ _ _ hs3)

theorem ensures_unlockCell {Q : Unit → Threads T → Prop}
    (hQ : ∀ s', Threads.Kept t ∅ s s' → Q () s') :
  D.Ensures t (unlockCell c).inl Q s
  := by
  apply ensures_op (o := .inl (.unlock c))
  intro f s1 x s2 hs _ hx
  obtain ⟨hheld, rfl⟩ := Threads.exec_unlock hx
  have hmemory := fun c' =>
    Threads.memory_setLocked s1 c c' false (update s1.holder c none)
  constructor
  · intro t' ht
    refine Rely.of_memory (fun c' hc' => ?_) hmemory rfl
    have hne : c' ≠ c := by
      rintro rfl
      rw [hheld] at hc'
      apply ht (some.inj hc').symm
    dsimp only
    rw [update_of_ne hne, hc']
  · rintro _ - s3 hs3
    apply hQ
    apply hs.kept.trans (Threads.Kept.trans (.of_memory hmemory rfl) hs3.kept)

theorem ensures_plain_bind {p : Node α} {Q : β → Threads T → Prop} (hp : Plain p)
    (hk : ∀ a s', Threads.Kept t ∅ s s' → D.Ensures t (k a) Q s') :
  D.Ensures t (p.inl >>= k) Q s
  := by
  apply ensures_bind (P := fun _ => Threads.Kept t ∅ s) _ hk
  apply ensures_plain hp
  intro _ s' hs'
  apply hs'.kept

theorem ensures_held_bind {p : Node α} {Q : β → Threads T → Prop} (hp : Plain p)
    (hheld : s.holder c = some t)
    (hk : ∀ a s', Threads.Kept t ∅ s s' → s'.holder c = some t → s'.memory c = s.memory c →
      D.Ensures t (k a) Q s') :
  D.Ensures t (p.inl >>= k) Q s
  := by
  apply ensures_bind (P := fun _ => D.Rely t s)
  · apply ensures_plain hp
    intro _ _ hs'
    apply hs'
  · intro a s' hs'
    obtain ⟨hheld', hmemory⟩ := hs'.held c hheld
    apply hk a s' hs'.kept hheld' hmemory

theorem ensures_held_lnOp_bind {o : LnOp} (ho : free (.inr o)) {k : o.Ans → Ln β}
    {Q : β → Threads T → Prop} (hheld : s.holder c = some t)
    (hk : ∀ a s', Threads.Kept t ∅ s s' → s'.holder c = some t → s'.memory c = s.memory c →
      D.Ensures t (k a) Q s') :
  D.Ensures t (lnOp o >>= k) Q s
  := by
  apply ensures_bind (P := fun _ => D.Rely t s)
  · refine ensures_free ⟨ho, fun _ => trivial⟩ fun _ s' hs' => ?_
    apply hs'
  · intro a s' hs'
    obtain ⟨hheld', hmemory⟩ := hs'.held c hheld
    apply hk a s' hs'.kept hheld' hmemory

/-- A record is locked, and the entries are those that are known. -/
theorem ensures_lock_bind {k : c.Content → Ln β} {Q : β → Threads T → Prop}
    (hk : ∀ s', Threads.Kept t ∅ s s' → s'.holder c = some t →
      D.Ensures t (k (s'.memory c)) Q s') :
  D.Ensures t ((lockCell c).inl >>= k) Q s
  := by
  apply ensures_bind (P := fun m s' => Threads.Kept t ∅ s s' ∧ s'.holder c = some t
    ∧ m = s'.memory c)
  · apply ensures_lockCell
    intro s' hs' hheld
    exact ⟨hs'.kept, hheld, rfl⟩
  · rintro _ s' ⟨hs', hheld, rfl⟩
    apply hk s' hs' hheld

theorem ensures_unlock_bind {k : Unit → Ln β} {Q : β → Threads T → Prop}
    (hk : ∀ s', Threads.Kept t ∅ s s' → D.Ensures t (k ()) Q s') :
  D.Ensures t ((unlockCell c).inl >>= k) Q s
  := by
  apply ensures_bind (P := fun _ => Threads.Kept t ∅ s) _ fun _ => hk
  apply ensures_unlockCell
  intro s' hs'
  apply hs'

theorem ensures_save {Q : Except IoError Unit → Threads T → Prop}
    (hQ : ∀ r s', D.Rely t s s' → Q r s') :
  D.Ensures t (nodeOp (.save c)).inl Q s
  := by
  apply ensures_op (o := .inl (.save c))
  intro f s1 x s2 hs _ hx
  obtain ⟨hheld, w, hw, rfl⟩ := Threads.exec_save hx
  have hsave : ∀ t', D.Rely t' s1 { s1 with world := w } := by
    intro t'
    refine Rely.of_memory (fun _ h => h) (fun c' => ?_) rfl
    rcases hw with rfl | rfl
    · rfl
    · simp only [Threads.memory, World.saved, World.setCell]
      by_cases hc : c' = c
      · subst hc
        rw [update_self]
      · rw [update_of_ne hc]
  refine ⟨fun t' _ => hsave t', fun r _ s3 hs3 => ?_⟩
  apply hQ
  apply hs.trans t _ _ _ ((hsave t).trans t _ _ _ hs3)

section Held

variable (hheld : s.holder c = some t)
include hheld

variable {E : Set PaymentHash}

/-- Changing entries of a locked record. -/
theorem ensures_setCell {v : c.Content} (hv : ∀ h, h ∉ E → c.entry v h = s.entry c h)
    (hkeeps : D.watched c → ∀ h ∈ E, s.touched t c h = false →
      D.keeps c (s.entry c h) (c.entry v h)) {Q : Unit → Threads T → Prop}
    (hQ : ∀ s', Threads.Kept t (Prod.mk c '' E) s s' → s'.holder c = some t → s'.memory c = v →
      Q () s') :
  D.Ensures t (setCell c v).inl Q s
  := by
  apply ensures_op (o := .inl (.set c v))
  intro f s1 x s2 hs hguard hx
  obtain ⟨hheld1, rfl⟩ := Threads.exec_set hx
  obtain ⟨-, hmemory⟩ := hs.held c hheld
  have hentry : ∀ h', s1.entry c h' = s.entry c h' := by
    intro h'
    rw [Threads.entry, hmemory, Threads.entry]
  constructor
  · intro t' ht
    refine ⟨fun c' hc' => ⟨hc', ?_⟩, Threads.kept_setMemory s1 ht c v, fun c' hc' h' => ?_⟩
    · apply Threads.memory_setMemory_of_ne
      rintro rfl
      rw [hheld1] at hc'
      apply ht (some.inj hc').symm
    by_cases hc : c' = c
    · subst hc
      rw [Threads.entry, Threads.entry, Threads.memory_setMemory_self, ← Threads.entry, hentry]
      by_cases hsame : s.entry c' h' = c'.entry v h'
      · rw [hsame]
        apply D.refl
      -- The entry is changed, so the guard says that it is not touched.
      have hE : h' ∈ E := by
        by_contra hE
        apply hsame (hv h' hE).symm
      apply hkeeps hc' h' hE
      have hno := hguard.1 ⟨c', v⟩ rfl hc' h' (by
        rw [Cell.mem_changes]
        rw [← hentry] at hsame
        apply hsame)
      rcases hs.kept c' h' (notMem_empty _) with htouched | ⟨hno', -⟩
      · rw [hno] at htouched
        cases htouched
      · apply hno'
    · rw [Threads.entry, Threads.entry, Threads.memory_setMemory_of_ne s1 t hc]
      apply D.refl
  · rintro _ - s3 hs3
    obtain ⟨hheld3, hmemory3⟩ := hs3.held c hheld1
    apply hQ s3 _ hheld3
    · rw [hmemory3, Threads.memory_setMemory_self]
    have hset : Threads.Kept t (Prod.mk c '' E) s1 (s1.setMemory t c v) := by
      intro c' h' hne
      rw [Threads.touched_setMemory_self]
      have hsame : (s1.setMemory t c v).entry c' h' = s1.entry c' h' := by
        by_cases hc : c' = c
        · subst hc
          rw [Threads.entry, Threads.memory_setMemory_self, hentry]
          apply hv
          intro hE
          apply hne (mem_image_of_mem _ hE)
        · rw [Threads.entry, Threads.memory_setMemory_of_ne s1 t hc, Threads.entry]
      rw [hsame]
      apply Threads.Kept.refl s1 c' h' hne
    apply Threads.Kept.trans (hs.kept.mono (empty_subset _))
    apply hset.trans (hs3.kept.mono (empty_subset _))

theorem ensures_set_bind {v : c.Content} {k : Unit → Ln β} {Q : β → Threads T → Prop}
    (hv : ∀ h, h ∉ E → c.entry v h = s.entry c h)
    (hkeeps : D.watched c → ∀ h ∈ E, s.touched t c h = false →
      D.keeps c (s.entry c h) (c.entry v h))
    (hk : ∀ s', Threads.Kept t (Prod.mk c '' E) s s' → s'.holder c = some t →
      s'.memory c = v → D.Ensures t (k ()) Q s') :
  D.Ensures t ((setCell c v).inl >>= k) Q s
  := by
  apply ensures_bind (P := fun _ s' => Threads.Kept t (Prod.mk c '' E) s s'
    ∧ s'.holder c = some t ∧ s'.memory c = v)
  · apply ensures_setCell hheld hv hkeeps
    intro s' hs' hheld' hmemory
    exact ⟨hs', hheld', hmemory⟩
  · rintro _ s' ⟨hs', hheld', hmemory⟩
    apply hk s' hs' hheld' hmemory

theorem ensures_save_bind {k : Except IoError Unit → Ln β} {Q : β → Threads T → Prop}
    (hk : ∀ r s', Threads.Kept t ∅ s s' → s'.holder c = some t → s'.memory c = s.memory c →
      D.Ensures t (k r) Q s') :
  D.Ensures t ((nodeOp (.save c)).inl >>= k) Q s
  := by
  apply ensures_bind (P := fun _ => D.Rely t s)
  · apply ensures_save
    intro _ _ hs'
    apply hs'
  · intro r s' hs'
    obtain ⟨hheld', hmemory⟩ := hs'.held c hheld
    apply hk r s' hs'.kept hheld' hmemory

theorem ensures_setAndSave {v : c.Content} (hv : ∀ h, h ∉ E → c.entry v h = s.entry c h)
    (hkeeps : D.watched c → ∀ h ∈ E, s.touched t c h = false →
      D.keeps c (s.entry c h) (c.entry v h)) {Q : Unit → Threads T → Prop}
    (hQ : ∀ s', Threads.Kept t (Prod.mk c '' E) s s' →
      (∀ h, s'.Knows t c h (· = c.entry v h)) → Q () s') :
  D.Ensures t (setCell c v >>= fun _ => saveCell c).inl Q s
  := by
  rw [inl_bind]
  apply ensures_set_bind hheld hv hkeeps
  intro s1 hs1 hheld1 hmemory1
  rw [saveCell, inl_bind]
  apply ensures_save_bind hheld1
  intro r s2 hs2 hheld2 hmemory2
  cases r with
  | ok _ =>
    apply ensures_unlockCell
    intro s3 hs3
    apply hQ s3
    · apply hs1.trans ((hs2.trans hs3).mono (empty_subset _))
    · intro h
      apply hs3.remembers
      right
      rw [Threads.entry, hmemory2, hmemory1]
  | error e => apply ensures_nodePanic

end Held

variable {h : PaymentHash}

theorem ensures_insertAndSave {e : c.Entry} (hheld : s.holder c = some t)
    (hkeeps : D.watched c → s.touched t c h = false → D.keeps c (s.entry c h) (some e))
    {Q : Unit → Threads T → Prop}
    (hQ : ∀ s', Threads.Kept t {(c, h)} s s' → s'.Knows t c h (· = some e) → Q () s') :
  D.Ensures t (setCell c (c.insert (s.memory c) h e) >>= fun _ => saveCell c).inl Q s
  := by
  have hself : c.entry (c.insert (s.memory c) h e) h = some e := by
    rw [Cell.entry_insert, if_pos rfl]
  apply ensures_setAndSave (E := {h}) hheld
  · intro h' hne
    rw [mem_singleton_iff] at hne
    rw [Cell.entry_insert, if_neg hne, Threads.entry]
  · rintro hwatched _ rfl
    rw [hself]
    apply hkeeps hwatched
  · intro s' hkept hknows
    rw [image_singleton] at hkept
    have hknows := hknows h
    rw [hself] at hknows
    apply hQ s' hkept hknows

/-- The same, for an entry that depends on the time. -/
theorem ensures_timedInsert {e : ℕ → c.Entry} (hheld : s.holder c = some t)
    (hkeeps : ∀ now, D.watched c → s.touched t c h = false →
      D.keeps c (s.entry c h) (some (e now))) {Q : Unit → Threads T → Prop}
    (hQ : ∀ now s', Threads.Kept t {(c, h)} s s' → s'.Knows t c h (· = some (e now)) →
      Q () s') :
  D.Ensures t (getCurrentTimestamp >>= fun now =>
    setCell c (c.insert (s.memory c) h (e now)) >>= fun _ => saveCell c).inl Q s
  := by
  rw [inl_bind]
  apply ensures_held_bind Plain.getCurrentTimestamp hheld
  intro now s1 hs1 hheld1 hmemory
  rw [← hmemory]
  apply ensures_insertAndSave hheld1
  · intro hwatched hno
    rcases hs1 c h (notMem_empty _) with htouched | ⟨hno', heq⟩
    · rw [hno] at htouched
      cases htouched
    · rw [heq]
      apply hkeeps now hwatched hno'
  · intro s' hkept
    apply hQ now s' (hkept.after hs1)

theorem ensures_readCell {Q : c.Content → Threads T → Prop}
    (hQ : ∀ m s', Threads.Kept t ∅ s s' → (∀ h, s'.Knows t c h (· = c.entry m h)) → Q m s') :
  D.Ensures t (readCell c).inl Q s
  := by
  rw [readCell, inl_bind]
  apply ensures_lock_bind
  intro s1 hs1 _
  rw [inl_bind]
  apply ensures_unlock_bind
  intro s2 hs2
  apply ensures_ret
  intro s3 hs3
  have hkept := hs2.trans hs3.kept
  apply hQ _ s3 (hs1.trans hkept)
  intro h
  apply hkept.remembers
  exact .inr rfl

theorem ensures_read_bind {k : c.Content → Ln β} {Q : β → Threads T → Prop}
    (hk : ∀ m s', Threads.Kept t ∅ s s' → (∀ h, s'.Knows t c h (· = c.entry m h)) →
      D.Ensures t (k m) Q s') :
  D.Ensures t ((readCell c).inl >>= k) Q s
  := by
  apply ensures_bind (P := fun m s' => Threads.Kept t ∅ s s'
    ∧ ∀ h, s'.Knows t c h (· = c.entry m h))
  · apply ensures_readCell
    intro m s' hs' hm
    exact ⟨hs', hm⟩
  · rintro m s' ⟨hs', hm⟩
    apply hk m s' hs' hm

theorem ensures_looked {g : c.Content → α} :
  D.Ensures t (readCell c >>= fun m => (pure (g m) : Node α)).inl
    (fun _ => Threads.Kept t ∅ s) s
  := by
  rw [inl_bind]
  apply ensures_read_bind
  intro m s' hs' _
  apply ensures_ret
  intro s'' hs''
  apply hs'.trans hs''.kept

theorem ensures_look_bind {g : c.Content → α} {Q : β → Threads T → Prop}
    (hk : ∀ a s', Threads.Kept t ∅ s s' → D.Ensures t (k a) Q s') :
  D.Ensures t ((readCell c >>= fun m => (pure (g m) : Node α)).inl >>= k) Q s
  := ensures_bind ensures_looked hk

/-! ### Records -/

theorem ensures_updateMakerSwapStatus {status : SwapStatus}
    (hs : D.watched .makerSwaps → s.Knows t .makerSwaps h fun e =>
      ∀ swap : SwapData, swap.status = status → D.keeps .makerSwaps e (some swap))
    {Q : Unit → Threads T → Prop} (hQ : ∀ s', Threads.Kept t {(.makerSwaps, h)} s s' →
      s'.Knows t .makerSwaps h (fun e => ∀ swap, e = some swap → swap.status = status) →
        Q () s') :
  D.Ensures t (updateMakerSwapStatus h status).inl Q s
  := by
  rw [updateMakerSwapStatus, inl_bind]
  apply ensures_lock_bind
  intro s1 hs1 hheld
  have hset : ∀ swap : ℕ → SwapData, (∀ now, (swap now).status = status) →
      D.Ensures t (getCurrentTimestamp >>= fun now =>
        setCell .makerSwaps ((s1.memory .makerSwaps).insert h (swap now)) >>= fun _ =>
          saveCell .makerSwaps).inl Q s1 := by
    intro swap hstatus
    apply ensures_timedInsert (c := .makerSwaps) hheld
    · intro now hwatched hno
      apply (hs1.remembers (hs hwatched)).of_not_touched hno _ (hstatus now)
    · intro now s' hs' hnow
      apply hQ s' (hs'.after hs1)
      apply hnow.mono
      rintro _ rfl _ ⟨⟩
      apply hstatus
  split
  · apply ensures_nodePanic
  · apply ensures_nodePanic
  · exact hset _ fun _ => rfl
  · exact hset _ fun _ => rfl

theorem ensures_upsertInboundPayment {status : HTLCStatus} {preimage : Option PaymentPreimage}
    {secret : Option PaymentSecret} {amtMsat : Option ℕ} {payeePubkey : PublicKey}
    {claimDeadlineHeight : Option ℕ}
    (hs : D.watched .inboundPayments → s.Knows t .inboundPayments h fun e =>
      ∀ payment : PaymentInfo, payment.status = status →
        D.keeps .inboundPayments e (some payment)) {Q : Unit → Threads T → Prop}
    (hQ : ∀ s', Threads.Kept t {(.inboundPayments, h)} s s' →
      s'.Knows t .inboundPayments h (fun e => ∀ payment, e = some payment →
        payment.status = status) → Q () s') :
  D.Ensures t (upsertInboundPayment h status preimage secret amtMsat payeePubkey
    claimDeadlineHeight).inl Q s
  := by
  rw [upsertInboundPayment, inl_bind]
  apply ensures_lock_bind
  intro s1 hs1 hheld
  have hs1' : D.watched .inboundPayments → s1.Knows t .inboundPayments h fun e =>
      ∀ payment : PaymentInfo, payment.status = status →
        D.keeps .inboundPayments e (some payment) :=
    fun hwatched => hs1.remembers (hs hwatched)
  split
  · apply ensures_timedInsert (c := .inboundPayments) hheld
    · intro now hwatched hno
      apply (hs1' hwatched).of_not_touched hno
      rfl
    · intro now s' hs' hnow
      apply hQ s' (hs'.after hs1)
      apply hnow.mono
      rintro _ rfl _ ⟨⟩
      rfl
  rw [inl_bind]
  apply ensures_held_bind Plain.getCurrentTimestamp hheld
  intro now s2 hs2 hheld2 hmemory2
  rw [inl_bind]
  apply ensures_held_bind (Plain.nodeOp rfl) hheld2
  intro idx s3 hs3 hheld3 hmemory3
  rw [← hmemory2, ← hmemory3]
  apply ensures_insertAndSave (c := .inboundPayments) hheld3
  · intro hwatched hno
    apply ((hs2.trans hs3).remembers (hs1' hwatched)).of_not_touched hno
    rfl
  · intro s' hs' hnow
    apply hQ s' (hs'.after (hs1.trans (hs2.trans hs3)))
    apply hnow.mono
    rintro _ rfl _ ⟨⟩
    rfl

/-! ### Runs -/

/-- Along a run that meets the discipline, every entry changes as permitted. -/
theorem run_keeps [Nontrivial T] {C : Type} {body : T → C → Ln α}
    (hbody : ∀ t c s, D.Ensures t (body t c) (fun _ _ => True) s) (w : World) (ln : LnState)
    (ms ms' : List (Move T C Fault))
    (hms : AllowsAll threadMachine D.guard (fun _ _ _ => True) body
      (idle (.start w ln)) (ms ++ ms')) :
  D.Keeps (run threadMachine body (idle (.start w ln)) ms).world
    (run threadMachine body (idle (.start w ln)) (ms ++ ms')).world
  := by
  obtain ⟨hms, hms'⟩ := allowsAll_append.mp hms
  have hsound := run_invariant (M := threadMachine) Rely.refl Rely.trans
    (fun t c s _ _ => hbody t c s) ms (idle_sound trivial) hms
  rw [run_append]
  apply run_related Rely.refl Rely.trans (fun t c s _ _ => hbody t c s) Keeps.refl
    (fun _ _ _ => Keeps.trans) _ ms' hsound hms'
  intro t s s' hothers
  obtain ⟨t', ht⟩ := exists_ne t
  apply (hothers t' ht).keeps

end Discipline

end RgbLightning
