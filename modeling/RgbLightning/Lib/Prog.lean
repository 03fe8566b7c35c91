import Mathlib.Tactic

/-!
# Programs over an interface of operations

An interface is a set of operations, each with the type of its answers.  A program
`Prog S α` performs operations of the interface `S` one after the other, the next one
depending on the answers to the earlier ones, and returns an element of `α`.

A machine for `S` answers operations in a world.  The environment chooses, for every
operation, a fate: the machine performs the operation, possibly with a fault of the
environment's choice, or the process crashes before it and is started again.  `Prog.exec`
runs a program along a list of fates.

`Prog.wp` is the weakest precondition of a program for a postcondition on its result
and a crash condition on the world left behind when the program does not return.  Only
the fates a guard admits are considered.  `Prog.exec_of_wp` is its soundness.
-/

structure Interface where
  /-- The operations. -/
  Op : Type
  /-- The answers to an operation. -/
  Ans : Op → Type

/-- A program performing operations of the interface `S` and returning a value in `α`. -/
inductive Prog (S : Interface) (α : Type) : Type where
  | ret (a : α) : Prog S α
  | op (o : S.Op) (next : S.Ans o → Prog S α) : Prog S α

namespace Prog

variable {S : Interface} {α β γ : Type}

/-- The program that runs `p` and continues with `f` on its result. -/
def bind : Prog S α → (α → Prog S β) → Prog S β
  | .ret a, f => f a
  | .op o next, f => .op o (fun x => (next x).bind f)

instance : Monad (Prog S) where
  pure := .ret
  bind := Prog.bind

/-- The program performing a single operation. -/
def perform (o : S.Op) : Prog S (S.Ans o) :=
  .op o .ret

@[simp]
theorem pure_eq_ret (a : α) :
  (pure a : Prog S α) = .ret a
  := rfl

@[simp]
theorem ret_bind (a : α) (f : α → Prog S β) :
  (Prog.ret a >>= f) = f a
  := rfl

@[simp]
theorem op_bind (o : S.Op) (next : S.Ans o → Prog S α) (f : α → Prog S β) :
  (Prog.op o next >>= f) = .op o (fun x => next x >>= f)
  := rfl

@[simp]
theorem perform_bind (o : S.Op) (f : S.Ans o → Prog S β) :
  (perform o >>= f) = .op o f
  := rfl

theorem bind_assoc (p : Prog S α) (f : α → Prog S β) (g : β → Prog S γ) :
  (p >>= f >>= g) = (p >>= fun a => f a >>= g)
  := by
  induction p with
  | ret a => rfl
  | op o next ih =>
    rw [op_bind, op_bind, op_bind]
    congr 1
    funext x
    apply ih

/-- Every operation a program can perform satisfies `P`. -/
def All (P : S.Op → Prop) : Prog S α → Prop
  | .ret _ => True
  | .op o next => P o ∧ ∀ x, (next x).All P

theorem all_true (p : Prog S α) :
  p.All (fun _ => True)
  := by
  induction p with
  | ret a => trivial
  | op o next ih => exact ⟨trivial, ih⟩

variable {P : S.Op → Prop}

theorem All.mono {P' : S.Op → Prop} (h : ∀ o, P o → P' o) {p : Prog S α} (hp : p.All P) :
  p.All P'
  := by
  induction p with
  | ret a => trivial
  | op o next ih =>
    constructor
    · apply h o hp.1
    · intro x
      apply ih x (hp.2 x)

theorem All.bind {p : Prog S α} {f : α → Prog S β} (hp : p.All P) (hf : ∀ a, (f a).All P) :
  (p >>= f).All P
  := by
  induction p with
  | ret a => apply hf
  | op o next ih =>
    constructor
    · apply hp.1
    · intro x
      apply ih x (hp.2 x)

/-- What two attempts made one after the other perform. -/
theorem All.attempt {ε : Type} {x : ExceptT ε (Prog S) α} {f : α → ExceptT ε (Prog S) β}
    (hx : x.run.All P) (hf : ∀ a, (f a).run.All P) :
  (x >>= f).run.All P
  := by
  apply All.bind hx
  rintro (e | a)
  · trivial
  · apply hf a

end Prog

/-! ### Machines and executions -/

/-- A machine answering the operations of `S` in worlds of type `W`.  A fault in `F`
says how the environment interferes with an operation, `calm` that it does not.  No
answer means that the program panics at the operation. -/
structure Machine (S : Interface) (W F : Type) where
  /-- The answer to an operation, and the world after it. -/
  exec : F → (o : S.Op) → W → Option (S.Ans o) × W
  /-- The world after a crash: what the process kept in memory is lost. -/
  reboot : W → W
  /-- The absence of interference. -/
  calm : F

inductive Fate (F : Type) where
  | go (f : F) : Fate F
  | crash : Fate F
deriving DecidableEq, Repr

namespace Prog

variable {S : Interface} {α β : Type} {W F : Type}

/-- The fate of the next operation.  Once the list is used up the environment no
longer interferes. -/
def nextFate (M : Machine S W F) (fs : List (Fate F)) : Fate F :=
  fs.headD (.go M.calm)

/-- The execution of a program along a list of fates: its result, if it returns, the
world it leaves and the fates left over. -/
def exec (M : Machine S W F) : Prog S α → W → List (Fate F) → Option α × W × List (Fate F)
  | .ret a, w, fs => (some a, w, fs)
  | .op o next, w, fs =>
    match nextFate M fs with
    | .crash => (none, M.reboot w, fs.tail)
    | .go f =>
      match M.exec f o w with
      | (some x, w') => (next x).exec M w' fs.tail
      | (none, w') => (none, w', fs.tail)

variable {o : S.Op} {w : W} {fs : List (Fate F)}
variable {next : S.Ans o → Prog S α}
variable {M : Machine S W F}

theorem exec_op_crash (hf : nextFate M fs = .crash) :
  (Prog.op o next).exec M w fs = (none, M.reboot w, fs.tail)
  := by
  simp only [exec, hf]

theorem exec_op_stop {w' : W} {f : F} (hf : nextFate M fs = .go f)
    (hx : M.exec f o w = (none, w')) :
  (Prog.op o next).exec M w fs = (none, w', fs.tail)
  := by
  simp only [exec, hf, hx]

theorem exec_op_go {w' : W} {f : F} {x : S.Ans o} (hf : nextFate M fs = .go f)
    (hx : M.exec f o w = (some x, w')) :
  (Prog.op o next).exec M w fs = (next x).exec M w' fs.tail
  := by
  simp only [exec, hf, hx]

theorem exec_bind (M : Machine S W F) (p : Prog S α) (f : α → Prog S β) (w : W)
    (fs : List (Fate F)) :
  (p >>= f).exec M w fs = match p.exec M w fs with
    | (some a, w', fs') => (f a).exec M w' fs'
    | (none, w', fs') => (none, w', fs')
  := by
  induction p generalizing w fs with
  | ret a => rfl
  | op o next ih =>
    rw [op_bind, exec, exec]
    rcases nextFate M fs with g | _
    · rcases hx : M.exec g o w with ⟨_ | x, w'⟩
      · simp only [hx]
      · simp only [hx]
        apply ih
    · rfl

theorem exec_fates (M : Machine S W F) (p : Prog S α) (w : W) (fs : List (Fate F)) :
  (p.exec M w fs).2.2 <:+ fs
  := by
  induction p generalizing w fs with
  | ret a => apply List.suffix_refl
  | op o next ih =>
    have htail : fs.tail <:+ fs := List.tail_suffix fs
    rw [exec]
    rcases nextFate M fs with g | _
    · rcases hx : M.exec g o w with ⟨_ | x, w'⟩
      · simp only [hx]
        apply htail
      · simp only [hx]
        apply (ih x w' _).trans htail
    · apply htail

def result (M : Machine S W F) (p : Prog S α) (w : W) (fs : List (Fate F)) : Option α :=
  (p.exec M w fs).1

def world (M : Machine S W F) (p : Prog S α) (w : W) (fs : List (Fate F)) : W :=
  (p.exec M w fs).2.1

/-- A guard says which fates are considered, for an operation in a world. -/
abbrev Guard (S : Interface) (W F : Type) : Type :=
  S.Op → Fate F → W → Prop

/-- The fates a program meets along an execution all satisfy the guard. -/
def Admits (M : Machine S W F) (G : Guard S W F) : Prog S α → W → List (Fate F) → Prop
  | .ret _, _, _ => True
  | .op o next, w, fs =>
    G o (nextFate M fs) w ∧
      match nextFate M fs with
      | .crash => True
      | .go f =>
        match M.exec f o w with
        | (some x, w') => (next x).Admits M G w' fs.tail
        | (none, _) => True

theorem Admits.mono {G G' : Guard S W F} (hG : ∀ o f w, G o f w → G' o f w) (p : Prog S α) (w : W)
    (fs : List (Fate F)) (hp : p.Admits M G w fs) :
  p.Admits M G' w fs
  := by
  induction p generalizing w fs with
  | ret a => trivial
  | op o next ih =>
    rw [Admits] at hp ⊢
    obtain ⟨hg, hp⟩ := hp
    refine ⟨hG _ _ _ hg, ?_⟩
    rcases hf : nextFate M fs with g | _
    · rw [hf] at hp
      rcases hx : M.exec g o w with ⟨_ | x, w'⟩
      · simp only [hx]
      · simp only [hx] at hp ⊢
        exact ih x w' _ hp
    · trivial

/-- Whether the fates a program meets satisfy a guard can be decided by running it. -/
instance decidableAdmits (M : Machine S W F) (G : Guard S W F)
    [∀ o f w, Decidable (G o f w)] :
    (p : Prog S α) → (w : W) → (fs : List (Fate F)) → Decidable (p.Admits M G w fs)
  | .ret _, _, _ => .isTrue trivial
  | .op o next, w, fs =>
    match hf : nextFate M fs with
    | .crash => decidable_of_iff (G o .crash w) (by simp only [Admits, hf, and_true])
    | .go f =>
      match hx : M.exec f o w with
      | (some x, w') =>
        have := decidableAdmits M G (next x) w' fs.tail
        decidable_of_iff (G o (.go f) w ∧ (next x).Admits M G w' fs.tail)
          (by simp only [Admits, hf, hx])
      | (none, _) =>
        decidable_of_iff (G o (.go f) w) (by simp only [Admits, hf, hx, and_true])

/-! ### Weakest preconditions -/

/-- The weakest precondition of a program for the postcondition `Q`, the crash
condition `C`, and the fates admitted by `G`. -/
def wp (M : Machine S W F) (G : Guard S W F) (C : W → Prop) :
    Prog S α → (α → W → Prop) → W → Prop
  | .ret a, Q, w => Q a w
  | .op o next, Q, w =>
    (G o .crash w → C (M.reboot w)) ∧
      ∀ f, G o (.go f) w →
        match M.exec f o w with
        | (some x, w') => (next x).wp M G C Q w'
        | (none, w') => C w'

variable {M : Machine S W F} {G : Guard S W F} {C : W → Prop}

@[simp]
theorem wp_ret (a : α) (Q : α → W → Prop) (w : W) :
  (Prog.ret a).wp M G C Q w ↔ Q a w
  := Iff.rfl

theorem wp_op (o : S.Op) (next : S.Ans o → Prog S α) (Q : α → W → Prop) (w : W) :
  (Prog.op o next).wp M G C Q w ↔
    (G o .crash w → C (M.reboot w)) ∧
      ∀ f, G o (.go f) w →
        match M.exec f o w with
        | (some x, w') => (next x).wp M G C Q w'
        | (none, w') => C w'
  := Iff.rfl

/-- The weakest precondition of a sequence is that of its first part for the weakest
precondition of the second. -/
theorem wp_bind (p : Prog S α) (f : α → Prog S β) (Q : β → W → Prop) (w : W) :
  (p >>= f).wp M G C Q w ↔ p.wp M G C (fun a w' => (f a).wp M G C Q w') w
  := by
  induction p generalizing w with
  | ret a => rfl
  | op o next ih =>
    rw [op_bind, wp_op, wp_op]
    apply and_congr Iff.rfl
    apply forall_congr'
    intro g
    apply imp_congr Iff.rfl
    rcases M.exec g o w with ⟨_ | x, w'⟩
    · rfl
    · apply ih

variable {Q : α → W → Prop}

theorem wp_mono {C' : W → Prop} {Q' : α → W → Prop} (hC : ∀ w, C w → C' w)
    (hQ : ∀ a w, Q a w → Q' a w) (p : Prog S α) (w : W) (hp : p.wp M G C Q w) :
  p.wp M G C' Q' w
  := by
  induction p generalizing w with
  | ret a => apply hQ _ _ hp
  | op o next ih =>
    obtain ⟨hcrash, hgo⟩ := hp
    refine ⟨fun hg => hC _ (hcrash hg), fun g hg => ?_⟩
    have h := hgo g hg
    rcases hx : M.exec g o w with ⟨_ | x, w'⟩
    · rw [hx] at h
      apply hC _ h
    · rw [hx] at h
      apply ih x w' h

theorem wp_imp {Q Q' : α → W → Prop} {p : Prog S α} {w : W} (hp : p.wp M G C Q w)
    (hQ : ∀ a w', Q a w' → Q' a w') :
  p.wp M G C Q' w
  := wp_mono (fun _ h => h) hQ p w hp

/-- What the first part of a sequence achieves is enough for the second. -/
theorem wp_seq {Q : α → W → Prop} {Q' : β → W → Prop} {p : Prog S α} {f : α → Prog S β} {w : W}
    (hp : p.wp M G C Q w) (hf : ∀ a w', Q a w' → (f a).wp M G C Q' w') :
  (p >>= f).wp M G C Q' w
  := by
  rw [wp_bind]
  apply wp_imp hp hf

/-- The weakest precondition of two attempts made one after the other. -/
theorem wp_attempt {ε : Type} (x : ExceptT ε (Prog S) α) (f : α → ExceptT ε (Prog S) β)
    (Q : Except ε β → W → Prop) (w : W) :
  (x >>= f).run.wp M G C Q w ↔ x.run.wp M G C (fun r w' =>
    match r with
    | .ok a => (f a).run.wp M G C Q w'
    | .error e => Q (.error e) w') w
  := by
  apply (wp_bind _ _ _ _).trans
  constructor
  · apply wp_mono (fun _ h => h)
    rintro (e | a) w' h
    · apply h
    · apply h
  · apply wp_mono (fun _ h => h)
    rintro (e | a) w' h
    · apply h
    · apply h

/-- Every result a program can return satisfies `P`. -/
def Returns (P : α → Prop) : Prog S α → Prop
  | .ret a => P a
  | .op _ next => ∀ x, (next x).Returns P

theorem Returns.bind {P : β → Prop} (p : Prog S α) {f : α → Prog S β}
    (hf : ∀ a, (f a).Returns P) :
  (p >>= f).Returns P
  := by
  induction p with
  | ret a => apply hf
  | op o next ih =>
    intro x
    apply ih x

variable {p : Prog S α}

/-- What a program can return may be added to its postcondition. -/
theorem wp_returns {P : α → Prop} (hp : p.Returns P) (hQ : p.wp M G C Q w) :
  p.wp M G C (fun a w' => Q a w' ∧ P a) w
  := by
  induction p generalizing w with
  | ret a => exact ⟨hQ, hp⟩
  | op o next ih =>
    obtain ⟨hcrash, hgo⟩ := hQ
    refine ⟨hcrash, fun g hg => ?_⟩
    have h := hgo g hg
    rcases hx : M.exec g o w with ⟨_ | x, w'⟩
    · rw [hx] at h
      exact h
    · rw [hx] at h
      apply ih x (hp x) h

/-- A program of operations that all keep an invariant under the guard keeps it. -/
theorem wp_invariant {I : W → Prop} {P : S.Op → Prop}
    (hcrash : ∀ o w, P o → I w → G o .crash w → C (M.reboot w))
    (hop : ∀ o w f, P o → I w → G o (.go f) w →
      match M.exec f o w with
      | (some _, w') => I w'
      | (none, w') => C w') (hp : p.All P) (hw : I w) :
  p.wp M G C (fun _ => I) w
  := by
  induction p generalizing w with
  | ret a => apply hw
  | op o next ih =>
    obtain ⟨ho, hnext⟩ := hp
    refine ⟨hcrash o w ho hw, fun f hg => ?_⟩
    have h := hop o w f ho hw hg
    rcases hx : M.exec f o w with ⟨_ | x, w'⟩
    · rw [hx] at h
      apply h
    · rw [hx] at h
      apply ih x (hnext x) h

/-- A crash condition may be strengthened by what the guard says about the worlds in which a
program is interrupted. -/
theorem wp_interrupted {C' : W → Prop}
    (hcrash : ∀ o w, G o .crash w → C (M.reboot w) → C' (M.reboot w))
    (hstop : ∀ o f w w', G o (.go f) w → M.exec f o w = (none, w') → C w' → C' w') (p : Prog S α)
    (w : W) (hp : p.wp M G C Q w) :
  p.wp M G C' Q w
  := by
  induction p generalizing w with
  | ret a => exact hp
  | op o next ih =>
    obtain ⟨hp, hgo⟩ := hp
    refine ⟨fun hg => hcrash o w hg (hp hg), fun g hg => ?_⟩
    have h := hgo g hg
    rcases hx : M.exec g o w with ⟨_ | x, w'⟩
    · rw [hx] at h
      apply hstop o g w w' hg hx h
    · rw [hx] at h
      apply ih x w' h

/-- A program of operations that all keep to a relation between worlds keeps to it. -/
theorem wp_frame {R : W → W → Prop} (hrefl : ∀ w, R w w)
    (htrans : ∀ w w' w'', R w w' → R w' w'' → R w w'') {P : S.Op → Prop}
    (hop : ∀ o, P o → ∀ f w, R w (M.exec f o w).2) (hp : p.All P) (hQ : ∀ a w', R w w' → Q a w')
    (hstop : ∀ w', R w w' → C w') (hcrash : ∀ w', R w w' → C (M.reboot w')) :
  p.wp M G C Q w
  := by
  induction p generalizing w with
  | ret a => apply hQ a w (hrefl w)
  | op o next ih =>
    obtain ⟨ho, hnext⟩ := hp
    refine ⟨fun _ => hcrash w (hrefl w), fun f _ => ?_⟩
    have hw := hop o ho f w
    rcases hx : M.exec f o w with ⟨_ | x, w'⟩
    · rw [hx] at hw
      apply hstop w' hw
    rw [hx] at hw
    apply ih x (hnext x)
    · intro a w'' h
      apply hQ a w'' (htrans _ _ _ hw h)
    · intro w'' h
      apply hstop w'' (htrans _ _ _ hw h)
    · intro w'' h
      apply hcrash w'' (htrans _ _ _ hw h)

/-- Soundness: a program run from a world satisfying its weakest precondition, along
fates the guard admits, ends in its postcondition, or leaves a world satisfying the
crash condition. -/
theorem exec_of_wp (p : Prog S α) (w : W) (fs : List (Fate F)) (hp : p.wp M G C Q w)
    (hfs : p.Admits M G w fs) :
  (∀ a, p.result M w fs = some a → Q a (p.world M w fs)) ∧
    (p.result M w fs = none → C (p.world M w fs))
  := by
  induction p generalizing w fs with
  | ret a =>
    constructor
    · rintro _ ⟨⟩
      apply hp
    · rintro ⟨⟩
  | op o next ih =>
    obtain ⟨hcrash, hgo⟩ := hp
    rw [Admits] at hfs
    obtain ⟨hg, hadm⟩ := hfs
    rcases hf : nextFate M fs with g | _
    · rw [hf] at hg hadm
      have h := hgo g hg
      rcases hx : M.exec g o w with ⟨_ | x, w'⟩
      · rw [hx] at h
        rw [result, world, exec_op_stop hf hx]
        constructor
        · rintro _ ⟨⟩
        · intro _
          apply h
      · simp only [hx] at h hadm
        rw [result, world, exec_op_go hf hx]
        apply ih x w' fs.tail h hadm
    · rw [hf] at hg
      rw [result, world, exec_op_crash hf]
      constructor
      · rintro _ ⟨⟩
      · intro _
        apply hcrash hg

/-- Fates that are admitted at any time, for a guard that admits the absence of
interference. -/
theorem admits_of_forall (hG : ∀ o w, G o (.go M.calm) w) (p : Prog S α) (w : W)
    (fs : List (Fate F)) (hfs : ∀ f ∈ fs, ∀ o w, G o f w) :
  p.Admits M G w fs
  := by
  induction p generalizing w fs with
  | ret a => trivial
  | op o next ih =>
    have hnext : ∀ w, G o (nextFate M fs) w := by
      cases fs with
      | nil => apply hG
      | cons f fs => apply hfs f List.mem_cons_self
    have htail : ∀ f ∈ fs.tail, ∀ o w, G o f w :=
      fun f hf => hfs f (List.mem_of_mem_tail hf)
    rw [Admits]
    refine ⟨hnext w, ?_⟩
    rcases nextFate M fs with g | _
    · rcases hx : M.exec g o w with ⟨_ | x, w'⟩
      · simp only [hx]
      · simp only [hx]
        apply ih x w' _ htail
    · trivial

/-- The guard admitting every fate. -/
def anyFate : Guard S W F :=
  fun _ _ _ => True

instance (o : S.Op) (f : Fate F) (w : W) : Decidable ((anyFate : Guard S W F) o f w) :=
  .isTrue trivial

theorem admits_anyFate (p : Prog S α) (w : W) (fs : List (Fate F)) :
  p.Admits M anyFate w fs
  := admits_of_forall (fun _ _ => trivial) p w fs (fun _ _ _ _ => trivial)

/-- What a program establishes whether it returns or not, along all fates. -/
theorem world_of_wp {I : W → Prop} (hp : p.wp M anyFate I (fun _ => I) w) (fs : List (Fate F)) :
  I (p.world M w fs)
  := by
  obtain ⟨hret, hstop⟩ := exec_of_wp p w fs hp (admits_anyFate p w fs)
  rcases hr : p.result M w fs with _ | a
  · apply hstop hr
  · apply hret a hr

/-! ### Executions without interference -/

/-- The guard of executions without interference. -/
def calmly (M : Machine S W F) : Guard S W F :=
  fun _ fate _ => fate = .go M.calm

abbrev wpCalm (M : Machine S W F) (p : Prog S α) : (W → Prop) → (α → W → Prop) → W → Prop :=
  p.wp M (calmly M)

theorem wp_calm {w' : W} {x : S.Ans o} (hx : M.exec M.calm o w = (some x, w'))
    {Q : S.Ans o → W → Prop} (hQ : Q x w') :
  (perform o).wpCalm M C Q w
  := by
  constructor
  · rintro ⟨⟩
  · rintro f ⟨⟩
    rw [hx]
    exact hQ

theorem wp_calm_then {w' : W} {x : S.Ans o} (hx : M.exec M.calm o w = (some x, w'))
    (hnext : (next x).wpCalm M C Q w') :
  (perform o >>= next).wpCalm M C Q w
  := by
  rw [wpCalm, wp_bind]
  exact wp_calm hx hnext

/-- A program that cannot stop returns when nothing interferes with it. -/
theorem result_of_wp_calmly (hp : p.wpCalm M (fun _ => False) Q w) :
  ∃ a, p.result M w [] = some a ∧ Q a (p.world M w [])
  := by
  have hadm : p.Admits M (calmly M) w [] :=
    admits_of_forall (fun _ _ => rfl) p w [] (by simp)
  obtain ⟨hret, hstop⟩ := exec_of_wp p w [] hp hadm
  rcases hr : p.result M w [] with _ | a
  · exact (hstop hr).elim
  · exact ⟨a, rfl, hret a hr⟩

end Prog
