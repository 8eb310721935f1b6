import SoftwareOnSilicon.Program

/-!
# Programs over more operations

A program over some operations is one over these and others (`Prog.inl`), and what
is proved of it carries over (`Prog.safe_inl`): the rules it has to keep are those
of its own operations.
-/

namespace Interleaving

variable {S E O O' H α : Type} {A : O → Type} {B : O' → Type}

/-- The same program, where there are other operations too. -/
def Prog.inl : Prog S E A α → Prog S E (Sum.elim A B) α
  | .ret s a => .ret s a
  | .fail s e => .fail s e
  | .op s o k => .op s (.inl o) fun a => (k a).inl

/-- The same code, where there are other operations too. -/
def Code.inl (c : Code S E A α) : Code S E (Sum.elim A B) α := ⟨fun s => (c.run s).inl⟩

@[simp] theorem Code.run_inl (c : Code S E A α) (s : S) :
    (c.inl : Code S E (Sum.elim A B) α).run s = (c.run s).inl := rfl

/-- The rules of the first operations. -/
def Rules.inl (ρ : Rules S E (Sum.elim A B) H) : Rules S E A H where
  step s o a h h' := ρ.step s (.inl o) a h h'
  node s o h := ρ.node s (.inl o) h
  error := ρ.error

/-- **A program is safe among other operations** if it keeps the rules of its own. -/
theorem Prog.safe_inl {ρ : Rules S E (Sum.elim A B) H} {Q : S → α → H → Prop}
    {p : Prog S E A α} {h : H} : (p.inl : Prog S E (Sum.elim A B) α).Safe ρ Q h
      ↔ p.Safe ρ.inl Q h := by
  induction p generalizing h with
  | ret s a => exact Iff.rfl
  | fail s e => exact Iff.rfl
  | op s o k ih =>
    exact and_congr_right fun _ => forall_congr' fun a => forall₂_congr fun h' _ => ih a

end Interleaving
