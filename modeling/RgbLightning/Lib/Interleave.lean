import RgbLightning.Lib.Prog

/-!
# Threads that share a world

A pool runs programs in threads that share a world.  At every move a thread is spawned, or
one thread performs its next operation.  A shared machine answers the operation, stops the
thread, or blocks it until later.

`rg` is a logic of rely and guarantee for one thread.  The relation `R t` says what the
other threads may do to the world while the thread `t` is not running; every operation of
`t` must keep an invariant of the world and keep to the relations of all other threads.
`Pool.run_invariant` derives the invariant along every run of a pool whose threads all do
so.
-/

namespace Interleave

variable {S : Interface} {T W F C α β : Type}

/-- A machine shared by threads in `T`.  An operation of a thread is answered, or stops the
thread; `none` means that it is blocked. -/
structure Shared (S : Interface) (T W F : Type) where
  /-- The answer to an operation of a thread, and the world after it. -/
  exec : T → F → (o : S.Op) → W → Option (Option (S.Ans o) × W)

/-- A guard says which operations of which threads are considered. -/
abbrev Guard (S : Interface) (T W F : Type) : Type :=
  T → S.Op → F → W → Prop

/-! ### Rely and guarantee -/

/-- The thread `t` keeps the invariant `I` and the relations of the other threads, as long
as these keep to `R t`, and returns a result satisfying `Q`. -/
def rg (M : Shared S T W F) (G : Guard S T W F) (I : W → Prop) (R : T → W → W → Prop) (t : T) :
    Prog S α → (α → W → Prop) → W → Prop
  | .ret a, Q, w => ∀ w', R t w w' → I w' → Q a w'
  | .op o next, Q, w => ∀ w', R t w w' → I w' → ∀ f, G t o f w' →
      match M.exec t f o w' with
      | none => True
      | some (none, w'') => I w'' ∧ ∀ t', t' ≠ t → R t' w' w''
      | some (some x, w'') => I w'' ∧ (∀ t', t' ≠ t → R t' w' w'') ∧
          rg M G I R t (next x) Q w''

section Rules

variable {M : Shared S T W F} {G : Guard S T W F} {I : W → Prop} {R : T → W → W → Prop} {t : T}
variable (hrefl : ∀ t w, R t w w) (htrans : ∀ t w w' w'', R t w w' → R t w' w'' → R t w w'')
variable {p : Prog S α}
variable {Q : α → W → Prop}

include htrans in
/-- What the other threads may do does not matter. -/
theorem rg_stable {w w' : W} (hp : rg M G I R t p Q w) (hw : R t w w') :
  rg M G I R t p Q w'
  := by
  cases p with
  | ret a =>
    intro w'' h hI
    apply hp w'' (htrans t _ _ _ hw h) hI
  | op o next =>
    intro w'' h hI
    apply hp w'' (htrans t _ _ _ hw h) hI

variable {w : W}

include hrefl in
/-- A program, and then the rest, when the invariant holds and the first has returned. -/
theorem rg_then {k : α → Prog S β} {Q' : α → W → Prop} {Q : β → W → Prop}
    (hp : rg M G I R t p Q' w) (hI : I w) (hk : ∀ a w', I w' → Q' a w' → rg M G I R t (k a) Q w') :
  rg M G I R t (p >>= k) Q w
  := by
  induction p generalizing w with
  | ret a => apply hk a w hI (hp w (hrefl t w) hI)
  | op o next ih =>
    intro w' hw hI' f hg
    have h := hp w' hw hI' f hg
    rcases hx : M.exec t f o w' with _ | ⟨_ | x, w''⟩
    · trivial
    · simp only [hx] at h
      apply h
    · simp only [hx] at h
      obtain ⟨hI'', hothers, hnext⟩ := h
      exact ⟨hI'', hothers, ih x hnext hI''⟩

include hrefl in
theorem rg_bind {k : α → Prog S β} {Q : β → W → Prop}
    (hp : rg M G I R t p (fun a w' => rg M G I R t (k a) Q w') w) (hI : I w) :
  rg M G I R t (p >>= k) Q w
  := rg_then hrefl hp hI (fun _ _ _ h => h)

theorem rg_mono {Q Q' : α → W → Prop} (hQ : ∀ a w', Q a w' → Q' a w') (hp : rg M G I R t p Q w) :
  rg M G I R t p Q' w
  := by
  induction p generalizing w with
  | ret a =>
    intro w' hw hI
    apply hQ _ _ (hp w' hw hI)
  | op o next ih =>
    intro w' hw hI f hg
    have h := hp w' hw hI f hg
    rcases hx : M.exec t f o w' with _ | ⟨_ | x, w''⟩
    · trivial
    · simp only [hx] at h
      apply h
    · simp only [hx] at h
      obtain ⟨hI', hothers, hnext⟩ := h
      exact ⟨hI', hothers, ih x hnext⟩

/-- An operation and then a program, where an assertion that the other threads keep holds
before the operation. -/
theorem rg_step {A : W → Prop} (hA : ∀ w w', R t w w' → A w → A w') {o : S.Op}
    {next : S.Ans o → Prog S α} (hw : A w)
    (hop : ∀ f w x w', I w → A w → G t o f w → M.exec t f o w = some (x, w') →
      I w' ∧ (∀ t', t' ≠ t → R t' w w') ∧ ∀ a, x = some a → rg M G I R t (next a) Q w') :
  rg M G I R t (Prog.perform o >>= next) Q w
  := by
  intro w' h hI f hg
  rcases hx : M.exec t f o w' with _ | ⟨_ | x, w''⟩
  · trivial
  · obtain ⟨hI', hothers, -⟩ := hop f w' _ _ hI (hA _ _ h hw) hg hx
    exact ⟨hI', hothers⟩
  · obtain ⟨hI', hothers, hnext⟩ := hop f w' _ _ hI (hA _ _ h hw) hg hx
    exact ⟨hI', hothers, hnext x rfl⟩

theorem rg_any {o : S.Op} {next : S.Ans o → Prog S α}
    (hop : ∀ f w x w', I w → G t o f w → M.exec t f o w = some (x, w') →
      I w' ∧ (∀ t', t' ≠ t → R t' w w') ∧ ∀ a, x = some a → rg M G I R t (next a) Q w') :
  rg M G I R t (Prog.perform o >>= next) Q w
  := rg_step (A := fun _ => True) (fun _ _ _ h => h) trivial fun f w x w' hI _ => hop f w x w' hI

/-- A program of operations that all keep the invariant, the relations of the other threads,
and an assertion about the world that the other threads keep. -/
theorem rg_frame {A : W → Prop} (hA : ∀ w w', R t w w' → A w → A w') {P : S.Op → Prop}
    (hop : ∀ o, P o → ∀ f w x w', I w → A w → M.exec t f o w = some (x, w') →
      I w' ∧ (∀ t', t' ≠ t → R t' w w') ∧ (x.isSome → A w')) (hp : p.All P) (hw : A w)
    (hQ : ∀ a w', I w' → A w' → Q a w') :
  rg M G I R t p Q w
  := by
  induction p generalizing w with
  | ret a =>
    intro w' h hI
    apply hQ a w' hI (hA _ _ h hw)
  | op o next ih =>
    obtain ⟨ho, hnext⟩ := hp
    apply rg_step hA hw
    intro f w' x w'' hI hw' _ hx
    obtain ⟨hI', hothers, hw''⟩ := hop o ho f w' x w'' hI hw' hx
    refine ⟨hI', hothers, ?_⟩
    rintro a rfl
    apply ih a (hnext a) (hw'' rfl)

/-- An assertion that no step breaks, neither one of this thread nor one of another, still
holds when the program returns. -/
theorem rg_keeps {A : W → Prop} (hA : ∀ w w', R t w w' → A w → A w')
    (hown : ∀ w w', (∀ t', t' ≠ t → R t' w w') → A w → A w') (hp : rg M G I R t p Q w) (hw : A w) :
  rg M G I R t p (fun a w' => Q a w' ∧ A w') w
  := by
  induction p generalizing w with
  | ret a =>
    intro w' h hI
    exact ⟨hp w' h hI, hA _ _ h hw⟩
  | op o next ih =>
    intro w' h hI f hg
    have hstep := hp w' h hI f hg
    rcases hx : M.exec t f o w' with _ | ⟨_ | x, w''⟩
    · trivial
    · simp only [hx] at hstep
      apply hstep
    · simp only [hx] at hstep
      obtain ⟨hI', hothers, hnext⟩ := hstep
      exact ⟨hI', hothers, ih x hnext (hown _ _ hothers (hA _ _ h hw))⟩

end Rules

/-! ### Machines that keep a log -/

/-- The machine with a log, to which an operation that is answered adds what `events`
says. -/
def Shared.logged {E : Type} (M : Shared S T W F) (events : T → (o : S.Op) → S.Ans o → List E) :
    Shared S T (W × List E) F where
  exec t f o s :=
    (M.exec t f o s.1).map fun r => (r.1, r.2, s.2 ++ r.1.elim [] (events t o))

theorem Shared.logged_exec {E : Type} {M : Shared S T W F}
    {events : T → (o : S.Op) → S.Ans o → List E} {t : T} {f : F} {o : S.Op}
    {s s' : W × List E} {x : Option (S.Ans o)}
    (hx : (M.logged events).exec t f o s = some (x, s')) :
  M.exec t f o s.1 = some (x, s'.1) ∧ s'.2 = s.2 ++ x.elim [] (events t o)
  := by
  obtain ⟨⟨x', w'⟩, hexec, heq⟩ := Option.map_eq_some_iff.mp hx
  cases heq
  exact ⟨hexec, rfl⟩

/-! ### Pools -/

/-- The threads that are running, each with what is left of its program, and the world. -/
structure Pool (S : Interface) (T W α : Type) where
  thread : T → Option (Prog S α)
  world : W

/-- What happens next in a pool. -/
inductive Move (T C F : Type) where
  | spawn (t : T) (c : C) : Move T C F
  | step (t : T) (f : F) : Move T C F

variable [DecidableEq T]

namespace Pool

def setThread (s : Pool S T W α) (t : T) (p : Option (Prog S α)) (w : W) : Pool S T W α :=
  ⟨Function.update s.thread t p, w⟩

def move (M : Shared S T W F) (body : T → C → Prog S α) (s : Pool S T W α) :
    Move T C F → Pool S T W α
  | .spawn t c =>
    match s.thread t with
    | none => s.setThread t (some (body t c)) s.world
    | some _ => s
  | .step t f =>
    match s.thread t with
    | none => s
    | some (.ret _) => s.setThread t none s.world
    | some (.op o next) =>
      match M.exec t f o s.world with
      | none => s
      | some (none, w) => s.setThread t none w
      | some (some x, w) => s.setThread t (some (next x)) w

def run (M : Shared S T W F) (body : T → C → Prog S α) (s : Pool S T W α)
    (ms : List (Move T C F)) : Pool S T W α :=
  ms.foldl (move M body) s

/-- A move that spawns a thread as `pre` says, or performs an operation the guard admits. -/
def Allows (G : Guard S T W F) (pre : T → C → W → Prop) (s : Pool S T W α) :
    Move T C F → Prop
  | .spawn t c => pre t c s.world
  | .step t f => ∀ o next, s.thread t = some (.op o next) → G t o f s.world

/-- A sequence of moves, each allowed in the pool it is made in. -/
def AllowsAll (M : Shared S T W F) (G : Guard S T W F) (pre : T → C → W → Prop)
    (body : T → C → Prog S α) : Pool S T W α → List (Move T C F) → Prop
  | _, [] => True
  | s, m :: ms => Allows G pre s m ∧ AllowsAll M G pre body (move M body s m) ms

section Decidable

variable {G : Guard S T W F} {pre : T → C → W → Prop}
variable [∀ t o f w, Decidable (G t o f w)] [∀ t c w, Decidable (pre t c w)]

instance decidableAllows (s : Pool S T W α) : (m : Move T C F) → Decidable (Allows G pre s m)
  | .spawn t c => inferInstanceAs (Decidable (pre t c s.world))
  | .step t f =>
    match h : s.thread t with
    | none => isTrue (by rintro o next h'; rw [h] at h'; cases h')
    | some (.ret _) => isTrue (by rintro o next h'; rw [h] at h'; cases h')
    | some (.op o _) =>
      decidable_of_iff (G t o f s.world)
        ⟨by rintro hg o' next' h'; rw [h] at h'; cases h'; exact hg, fun hg => hg o _ h⟩

instance decidableAllowsAll (M : Shared S T W F) (body : T → C → Prog S α) :
    (s : Pool S T W α) → (ms : List (Move T C F)) → Decidable (AllowsAll M G pre body s ms)
  | _, [] => isTrue trivial
  | s, m :: ms =>
    have := decidableAllowsAll M body (move M body s m) ms
    inferInstanceAs (Decidable (_ ∧ _))

end Decidable

theorem run_append (M : Shared S T W F) (body : T → C → Prog S α) (s : Pool S T W α)
    (ms ms' : List (Move T C F)) :
  run M body s (ms ++ ms') = run M body (run M body s ms) ms'
  := List.foldl_append

variable {body : T → C → Prog S α}
variable {M : Shared S T W F}

theorem allowsAll_append {G : Guard S T W F} {pre : T → C → W → Prop} {s : Pool S T W α}
    {ms ms' : List (Move T C F)} :
  AllowsAll M G pre body s (ms ++ ms')
    ↔ AllowsAll M G pre body s ms ∧ AllowsAll M G pre body (run M body s ms) ms'
  := by
  induction ms generalizing s with
  | nil => simp [AllowsAll, run]
  | cons m ms ih =>
    rw [List.cons_append, AllowsAll, AllowsAll, ih, and_assoc]
    rfl

/-- Moves that spawn threads as allowed, when every operation is considered. -/
theorem allowsAll_any {pre : T → C → W → Prop} {ms : List (Move T C F)}
    (hms : ∀ t c, Move.spawn t c ∈ ms → ∀ w, pre t c w) (s : Pool S T W α) :
  AllowsAll M (fun _ _ _ _ => True) pre body s ms
  := by
  induction ms generalizing s with
  | nil => trivial
  | cons m ms ih =>
    refine ⟨?_, ih (fun t c h => hms t c (List.mem_cons_of_mem _ h)) _⟩
    cases m with
    | spawn t c => apply hms t c List.mem_cons_self
    | step t f =>
      intro _ _ _
      trivial

/-- The invariant holds, and every thread keeps it and the relations of the others. -/
structure Sound (M : Shared S T W F) (G : Guard S T W F) (I : W → Prop) (R : T → W → W → Prop)
    (s : Pool S T W α) : Prop where
  invariant : I s.world
  threads : ∀ t p, s.thread t = some p → rg M G I R t p (fun _ _ => True) s.world

section Soundness

variable {M : Shared S T W F} {G : Guard S T W F} {I : W → Prop} {R : T → W → W → Prop}
variable {pre : T → C → W → Prop} {body : T → C → Prog S α}
variable (hrefl : ∀ t w, R t w w) (htrans : ∀ t w w' w'', R t w w' → R t w' w'' → R t w w'')
variable {s : Pool S T W α}

theorem sound_setThread {t : T} {p : Option (Prog S α)} {w : W} (hI : I w)
    (hothers : ∀ t' p', t' ≠ t → s.thread t' = some p' →
      rg M G I R t' p' (fun _ _ => True) w)
    (hp : ∀ p', p = some p' → rg M G I R t p' (fun _ _ => True) w) :
  Sound M G I R (s.setThread t p w)
  := by
  refine ⟨hI, fun t' p' hp' => ?_⟩
  by_cases ht : t' = t
  · subst ht
    simp only [Pool.setThread, Function.update_self] at hp'
    apply hp p' hp'
  · simp only [Pool.setThread, Function.update_of_ne ht] at hp'
    apply hothers t' p' ht hp'

include hrefl htrans in
theorem move_sound (hbody : ∀ t c w, pre t c w → I w →
      rg M G I R t (body t c) (fun _ _ => True) w) (hs : Sound M G I R s) {m : Move T C F}
    (hm : Allows G pre s m) :
  Sound M G I R (move M body s m)
  := by
  cases m with
  | spawn t c =>
    simp only [move]
    split
    · apply sound_setThread hs.invariant (fun t' p' _ => hs.threads t' p')
      rintro p' ⟨⟩
      apply hbody t c _ hm hs.invariant
    · apply hs
  | step t f =>
    simp only [move]
    split
    · apply hs
    · apply sound_setThread hs.invariant (fun t' p' _ => hs.threads t' p')
      rintro p' ⟨⟩
    rename_i o next hthread
    have h := hs.threads t _ hthread s.world (hrefl t _) hs.invariant f (hm o next hthread)
    rcases hx : M.exec t f o s.world with _ | ⟨_ | x, w⟩
    · apply hs
    · simp only [hx] at h
      obtain ⟨hI, hothers⟩ := h
      apply sound_setThread hI
      · intro t' p' ht hp'
        apply rg_stable htrans (hs.threads t' p' hp') (hothers t' ht)
      · rintro p' ⟨⟩
    simp only [hx] at h
    obtain ⟨hI, hothers, hnext⟩ := h
    apply sound_setThread hI
    · intro t' p' ht hp'
      apply rg_stable htrans (hs.threads t' p' hp') (hothers t' ht)
    · rintro p' ⟨⟩
      apply hnext

include hrefl htrans in
/-- What holds along every run of a pool whose threads keep to the logic. -/
theorem run_invariant (hbody : ∀ t c w, pre t c w → I w →
      rg M G I R t (body t c) (fun _ _ => True) w) (ms : List (Move T C F)) (hs : Sound M G I R s)
    (hms : AllowsAll M G pre body s ms) :
  Sound M G I R (run M body s ms)
  := by
  induction ms generalizing s with
  | nil => apply hs
  | cons m ms ih =>
    obtain ⟨hm, hms⟩ := hms
    apply ih (move_sound hrefl htrans hbody hs hm) hms

include hrefl in
/-- What a move does to the world keeps to the relations of the threads that do not move. -/
theorem move_related (hs : Sound M G I R s) {m : Move T C F} (hm : Allows G pre s m) :
  ∃ t, ∀ t', t' ≠ t → R t' s.world (move M body s m).world
  := by
  cases m with
  | spawn t c =>
    use t
    intro t' _
    simp only [move]
    split <;> apply hrefl
  | step t f =>
    use t
    intro t' ht
    simp only [move]
    split
    · apply hrefl
    · apply hrefl
    rename_i o next hthread
    have h := hs.threads t _ hthread s.world (hrefl t _) hs.invariant f (hm o next hthread)
    rcases hx : M.exec t f o s.world with _ | ⟨_ | x, w⟩
    · apply hrefl
    · simp only [hx] at h
      apply h.2 t' ht
    · simp only [hx] at h
      apply h.2.1 t' ht

include hrefl htrans in
/-- What every run of such a pool does to the world, for a relation that holds between two
worlds as soon as all threads but one see what they may see. -/
theorem run_related (hbody : ∀ t c w, pre t c w → I w →
      rg M G I R t (body t c) (fun _ _ => True) w) {K : W → W → Prop} (hK : ∀ w, K w w)
    (hK' : ∀ w w' w'', K w w' → K w' w'' → K w w'')
    (hR : ∀ t w w', (∀ t', t' ≠ t → R t' w w') → K w w') (ms : List (Move T C F))
    (hs : Sound M G I R s) (hms : AllowsAll M G pre body s ms) :
  K s.world (run M body s ms).world
  := by
  induction ms generalizing s with
  | nil => apply hK
  | cons m ms ih =>
    obtain ⟨hm, hms⟩ := hms
    obtain ⟨t, hothers⟩ := move_related hrefl hs hm
    apply hK' _ _ _ (hR t _ _ hothers)
    apply ih (move_sound hrefl htrans hbody hs hm) hms

def idle (w : W) : Pool S T W α :=
  ⟨fun _ => none, w⟩

omit [DecidableEq T] in
theorem idle_sound {w : W} (hw : I w) :
  Sound M G I R (idle w : Pool S T W α)
  := by
  refine ⟨hw, fun t p hp => ?_⟩
  cases hp

end Soundness

/-! ### Restarts -/

/-- What happens next to a process: its pool makes a move, or it is restarted. -/
inductive Life (T C F X : Type) where
  | move (m : Move T C F) : Life T C F X
  | restart (x : X) : Life T C F X

variable {X : Type}

/-- The pool after an event of its life.  A restart ends all threads. -/
def live (M : Shared S T W F) (body : T → C → Prog S α) (restart : X → W → W)
    (s : Pool S T W α) : Life T C F X → Pool S T W α
  | .move m => s.move M body m
  | .restart x => idle (restart x s.world)

/-- The pool after a sequence of events. -/
def lives (M : Shared S T W F) (body : T → C → Prog S α) (restart : X → W → W)
    (s : Pool S T W α) (ls : List (Life T C F X)) : Pool S T W α :=
  ls.foldl (live M body restart) s

/-- What holds along every life of a process whose threads keep to the logic and whose
restarts keep the invariant. -/
theorem lives_invariant {I : W → Prop} {R : T → W → W → Prop} {pre : C → Prop}
    {restart : X → W → W} (hrefl : ∀ t w, R t w w)
    (htrans : ∀ t w w' w'', R t w w' → R t w' w'' → R t w w'') (hbody : ∀ t c w, pre c → I w →
      rg M (fun _ _ _ _ => True) I R t (body t c) (fun _ _ => True) w)
    (hrestart : ∀ x w, I w → I (restart x w)) (ls : List (Life T C F X)) {s : Pool S T W α}
    (hs : Sound M (fun _ _ _ _ => True) I R s) (hls : ∀ t c, Life.move (.spawn t c) ∈ ls → pre c) :
  Sound M (fun _ _ _ _ => True) I R (lives M body restart s ls)
  := by
  induction ls generalizing s with
  | nil => apply hs
  | cons l ls ih =>
    have hrest : ∀ t c, Life.move (.spawn t c) ∈ ls → pre c :=
      fun t c h => hls t c (List.mem_cons_of_mem l h)
    cases l with
    | move m =>
      have hm : Allows (fun _ _ _ _ => True) (fun _ c _ => pre c) s m := by
        cases m with
        | spawn t c => apply hls t c List.mem_cons_self
        | step t f =>
          intro _ _ _
          trivial
      apply ih (move_sound hrefl htrans hbody hs hm) hrest
    | restart x => apply ih (idle_sound (hrestart x s.world hs.invariant)) hrest

end Pool

end Interleave
