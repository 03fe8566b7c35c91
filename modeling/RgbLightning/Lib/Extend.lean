import RgbLightning.Lib.Prog

/-!
# Interfaces with more operations

The sum of two interfaces has the operations of both.  A program over the first is one over
the sum (`Prog.inl`).  A machine for the first extends to one for the sum, whose worlds
have a second component that the operations of the first leave alone (`Machine.extend`).

`Prog.wp_inl` reduces the weakest precondition of such a program to that of the program it
comes from.
-/

/-- The operations of two interfaces. -/
abbrev Interface.sum (S S' : Interface) : Interface :=
  ⟨S.Op ⊕ S'.Op, Sum.elim S.Ans S'.Ans⟩

namespace Prog

variable {S S' : Interface} {α β : Type}

/-- A program that uses the operations of the first interface only. -/
def inl : Prog S α → Prog (S.sum S') α
  | .ret a => .ret a
  | .op o next => .op (.inl o) fun x => (next x).inl

@[simp]
theorem inl_bind (p : Prog S α) (f : α → Prog S β) :
  (p >>= f).inl = ((p.inl : Prog (S.sum S') α) >>= fun a => (f a).inl)
  := by
  induction p with
  | ret a => rfl
  | op o next ih =>
    rw [op_bind, inl, inl, op_bind]
    congr 1
    funext x
    apply ih

/-- The operations of a program over the first interface. -/
theorem All.inl {P : (S.sum S').Op → Prop} {p : Prog S α} (hp : p.All fun o => P (.inl o)) :
  (p.inl : Prog (S.sum S') α).All P
  := by
  induction p with
  | ret a => trivial
  | op o next ih => exact ⟨hp.1, fun x => ih x (hp.2 x)⟩

end Prog

/-- A machine for more operations, with more state. -/
def Machine.extend {S S' : Interface} {W X F : Type} (M : Machine S W F)
    (exec : F → (o : S'.Op) → W × X → Option (S'.Ans o) × (W × X)) (reboot : X → X) :
    Machine (S.sum S') (W × X) F where
  exec
    | f, .inl o, w => ((M.exec f o w.1).1, ((M.exec f o w.1).2, w.2))
    | f, .inr o, w => exec f o w
  reboot w := (M.reboot w.1, reboot w.2)
  calm := M.calm

namespace Prog

variable {S S' : Interface} {W X F α : Type} {M : Machine S W F}
variable {exec : F → (o : S'.Op) → W × X → Option (S'.Ans o) × (W × X)} {reboot : X → X}

/-- A program over the first interface leaves the second component alone. -/
theorem wp_inl {G : Guard (S.sum S') (W × X) F} {C : W × X → Prop} {Q : α → W × X → Prop}
    (p : Prog S α) (w : W) (x : X)
    (hp : p.wp M (fun o f w => G (.inl o) f (w, x)) (fun w => C (w, x) ∧ C (w, reboot x))
      (fun a w => Q a (w, x)) w) :
  p.inl.wp (M.extend exec reboot) G C Q (w, x)
  := by
  induction p generalizing w with
  | ret a => exact hp
  | op o next ih =>
    obtain ⟨hcrash, hgo⟩ := hp
    refine ⟨fun hg => (hcrash hg).2, fun f hg => ?_⟩
    have h := hgo f hg
    dsimp only [Machine.extend]
    rcases hx : M.exec f o w with ⟨_ | a, w'⟩
    · rw [hx] at h
      exact h.1
    · rw [hx] at h
      apply ih a w' h

end Prog
