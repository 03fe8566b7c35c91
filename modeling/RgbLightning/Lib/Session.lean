import RgbLightning.Lib.Prog

/-!
# Sessions of a service

A service answers calls, each by a program of its own.  A session makes calls one after
the other, each along fates of the environment's choice, and restarts the process in
between.  Its state is the history of the calls made so far, each with the result it
returned or `none` if it did not return, and the world.

`Session.run_invariant` derives what holds along every session from what each call keeps.
-/

namespace Session

variable {S : Interface} {W F C R : Type}

/-- What happens next in a session. -/
inductive Action (C F : Type) where
  | call (c : C) (fates : List (Fate F)) : Action C F
  | restart : Action C F

/-- A call that was made, with its result. -/
abbrev Entry (C R : Type) : Type := C × Option R

structure State (W C R : Type) where
  history : List (Entry C R) := []
  world : W

def step (M : Machine S W F) (body : C → Prog S R) (s : State W C R) : Action C F → State W C R
  | .call c fs =>
    ⟨s.history ++ [(c, (body c).result M s.world fs)], (body c).world M s.world fs⟩
  | .restart => ⟨s.history, M.reboot s.world⟩

def run (M : Machine S W F) (body : C → Prog S R) (s : State W C R) (as : List (Action C F)) :
    State W C R :=
  as.foldl (step M body) s

/-- An action whose call satisfies `pre` and whose fates satisfy the guard. -/
def Allows (M : Machine S W F) (G : Prog.Guard S W F) (pre : C → W → Prop)
    (body : C → Prog S R) (s : State W C R) : Action C F → Prop
  | .call c fs => pre c s.world ∧ (body c).Admits M G s.world fs
  | .restart => True

/-- A sequence of actions, each allowed in the state it is made in. -/
def AllowsAll (M : Machine S W F) (G : Prog.Guard S W F) (pre : C → W → Prop)
    (body : C → Prog S R) : State W C R → List (Action C F) → Prop
  | _, [] => True
  | s, a :: as => Allows M G pre body s a ∧ AllowsAll M G pre body (step M body s a) as

/-- Whether a sequence of actions is allowed can be decided by running it. -/
instance decidableAllowsAll (M : Machine S W F) (G : Prog.Guard S W F) (pre : C → W → Prop)
    (body : C → Prog S R) [∀ o f w, Decidable (G o f w)] [∀ c w, Decidable (pre c w)] :
    (s : State W C R) → (as : List (Action C F)) → Decidable (AllowsAll M G pre body s as)
  | _, [] => .isTrue trivial
  | s, .restart :: as =>
    have := decidableAllowsAll M G pre body (step M body s .restart) as
    inferInstanceAs (Decidable (True ∧ _))
  | s, .call c fs :: as =>
    have := decidableAllowsAll M G pre body (step M body s (.call c fs)) as
    inferInstanceAs (Decidable ((pre c s.world ∧ (body c).Admits M G s.world fs) ∧ _))

theorem allowsAll_any (M : Machine S W F) (body : C → Prog S R) (s : State W C R)
    (as : List (Action C F)) :
  AllowsAll M Prog.anyFate (fun _ _ => True) body s as
  := by
  induction as generalizing s with
  | nil => trivial
  | cons a as ih =>
    refine ⟨?_, ih _⟩
    cases a with
    | call c fs => exact ⟨trivial, Prog.admits_anyFate _ _ _⟩
    | restart => trivial

theorem allowsAll_concat {M : Machine S W F} {G : Prog.Guard S W F} {pre : C → W → Prop}
    {body : C → Prog S R} {s : State W C R} {as : List (Action C F)} {a : Action C F}
    (has : AllowsAll M G pre body s (as ++ [a])) :
  AllowsAll M G pre body s as ∧ Allows M G pre body (run M body s as) a
  := by
  induction as generalizing s with
  | nil => exact ⟨trivial, has.1⟩
  | cons b as ih =>
    obtain ⟨hb, has⟩ := has
    obtain ⟨hfirst, hlast⟩ := ih has
    exact ⟨⟨hb, hfirst⟩, hlast⟩

variable {M : Machine S W F} {G : Prog.Guard S W F} {pre : C → W → Prop}
variable {body : C → Prog S R} {I : List (Entry C R) → W → Prop}

variable (hcall : ∀ h c w, pre c w → I h w →
    (body c).wp M G (I (h ++ [(c, none)])) (fun r => I (h ++ [(c, some r)])) w)
  (hreboot : ∀ h w, I h w → I h (M.reboot w))
include hcall hreboot

/-- A property every allowed call keeps, whether it returns or not, is kept by an allowed
action. -/
theorem step_invariant {s : State W C R} (hs : I s.history s.world) {a : Action C F}
    (ha : Allows M G pre body s a) :
  I (step M body s a).history (step M body s a).world
  := by
  cases a with
  | restart => apply hreboot _ _ hs
  | call c fs =>
    obtain ⟨hpre, hadm⟩ := ha
    obtain ⟨hret, hstop⟩ := Prog.exec_of_wp _ _ _ (hcall _ c _ hpre hs) hadm
    simp only [step]
    rcases hr : (body c).result M s.world fs with _ | r
    · apply hstop hr
    · apply hret r hr

/-- A property every allowed call keeps holds along every allowed sequence of actions. -/
theorem run_invariant (as : List (Action C F)) {s : State W C R} (hs : I s.history s.world)
    (has : AllowsAll M G pre body s as) :
  I (run M body s as).history (run M body s as).world
  := by
  induction as generalizing s with
  | nil => apply hs
  | cons a as ih =>
    obtain ⟨ha, has⟩ := has
    apply ih (step_invariant hcall hreboot hs ha) has

end Session
