import Mathlib.Logic.Function.Basic

/-!
# Programs of atomic operations

A thread computes on a state of its own and, now and then, performs one
operation on memory it shares with other threads. Between two operations
nothing another thread does can be seen, so a thread is its sequence of
operations: `Prog` is the tree of the operations it may perform, each node
carrying the private state at that moment and branching on the answer the
operation receives.

What the operations do to the shared memory is not part of a program. It is
supplied by the logic below, as a relation on whatever part of the world a
proof needs to follow (`Rules.step`): nothing at all when a fact holds under
any answers, the whole memory when it does not.

`Prog.Safe` is the one judgment: every path of the program, under the
answers the rules allow, keeps an assertion at each operation, ends in its
postcondition, and stops only at errors the rules admit. The rest of the
module is its calculus.
-/

namespace Interleaving

/-- **A program**: it returns, stops at an error, or performs one operation
and goes on with the answer. Every constructor carries the private state. -/
inductive Prog (S E : Type) {O : Type} (A : O → Type) (α : Type) : Type where
  | ret (s : S) (a : α)
  | fail (s : S) (e : E)
  | op (s : S) (o : O) (k : A o → Prog S E A α)

/-- **Code**: a program for every private state it may be entered in. -/
structure Code (S E : Type) {O : Type} (A : O → Type) (α : Type) where
  /-- The program the code is, entered in a private state. -/
  run : S → Prog S E A α

variable {S E O H : Type} {A : O → Type} {α β : Type}

namespace Prog

/-- Run the continuation where the program returns. -/
def bind : Prog S E A α → (α → S → Prog S E A β) → Prog S E A β
  | .ret s a, f => f a s
  | .fail s e, _ => .fail s e
  | .op s o k, f => .op s o (fun x => (k x).bind f)

/-- The private state a program is in. -/
def state : Prog S E A α → S
  | .ret s _ => s
  | .fail s _ => s
  | .op s _ _ => s

@[simp] theorem state_ret (s : S) (a : α) :
    (Prog.ret s a : Prog S E A α).state = s := rfl

@[simp] theorem state_op (s : S) (o : O) (k : A o → Prog S E A α) :
    (Prog.op s o k).state = s := rfl

end Prog

namespace Code

instance : Monad (Code S E A) where
  pure a := ⟨fun s => .ret s a⟩
  bind c f := ⟨fun s => (c.run s).bind fun a => (f a).run⟩

/-- Look at the private state. -/
def look (f : S → α) : Code S E A α := ⟨fun s => .ret s (f s)⟩

/-- Change the private state. -/
def change (f : S → S) : Code S E A Unit := ⟨fun s => .ret (f s) ()⟩

/-- Stop the process with an error. -/
def abort (e : E) : Code S E A α := ⟨fun s => .fail s e⟩

/-- Perform one operation on the shared memory. -/
def perform (o : O) : Code S E A (A o) := ⟨fun s => .op s o fun a => .ret s a⟩

@[simp] theorem run_pure (a : α) (s : S) :
    (pure a : Code S E A α).run s = .ret s a := rfl

@[simp] theorem run_bind (c : Code S E A α) (f : α → Code S E A β) (s : S) :
    (c >>= f).run s = (c.run s).bind fun a => (f a).run := rfl

@[simp] theorem run_look (f : S → α) (s : S) :
    (look f : Code S E A α).run s = .ret s (f s) := rfl

@[simp] theorem run_change (f : S → S) (s : S) :
    (change f : Code S E A Unit).run s = .ret (f s) () := rfl

@[simp] theorem run_abort (e : E) (s : S) :
    (abort e : Code S E A α).run s = .fail s e := rfl

@[simp] theorem run_perform (o : O) (s : S) :
    (perform o : Code S E A (A o)).run s = .op s o fun a => .ret s a := rfl

@[simp] theorem run_ite (p : Prop) [Decidable p] (c d : Code S E A α) (s : S) :
    (if p then c else d).run s = if p then c.run s else d.run s := by
  split <;> rfl

end Code

/-! ## The judgment -/

/-- **What a proof knows of the world a program runs in.** -/
structure Rules (S E : Type) {O : Type} (A : O → Type) (H : Type) where
  /-- How the followed part of the world can change up to and through one
  operation that receives the given answer: what other threads do before
  it is part of it. -/
  step : S → (o : O) → A o → H → H → Prop
  /-- What holds whenever the operation is about to be performed. -/
  node : S → O → H → Prop
  /-- The errors that are admitted. -/
  error : S → E → H → Prop

/-- **Every path keeps the rules and ends in the postcondition.** -/
def Prog.Safe (ρ : Rules S E A H) (Q : S → α → H → Prop) :
    Prog S E A α → H → Prop
  | .ret s a, h => Q s a h
  | .fail s e, h => ρ.error s e h
  | .op s o k, h => ρ.node s o h ∧
      ∀ a h', ρ.step s o a h h' → (k a).Safe ρ Q h'

namespace Prog

variable {ρ : Rules S E A H} {Q Q' : S → α → H → Prop}

@[simp] theorem safe_ret (s : S) (a : α) (h : H) :
    (Prog.ret s a : Prog S E A α).Safe ρ Q h ↔ Q s a h := Iff.rfl

@[simp] theorem safe_fail (s : S) (e : E) (h : H) :
    (Prog.fail s e : Prog S E A α).Safe ρ Q h ↔ ρ.error s e h := Iff.rfl

/-- **Sequencing**: the second part is safe wherever the first may end. -/
theorem safe_bind (p : Prog S E A α) (f : α → S → Prog S E A β)
    {R : S → β → H → Prop} (h : H) :
    (p.bind f).Safe ρ R h
      ↔ p.Safe ρ (fun s a h' => (f a s).Safe ρ R h') h := by
  induction p generalizing h with
  | ret s a => exact Iff.rfl
  | fail s e => exact Iff.rfl
  | op s o k ih =>
    exact and_congr_right fun _ => forall_congr' fun a =>
      forall₂_congr fun h' _ => ih a h'

/-- **Transfer to other rules**, which may follow another part of the world:
a relation between the two parts that the steps of the new rules keep. -/
theorem Safe.transfer {H' : Type} {ρ' : Rules S E A H'} {Q' : S → α → H' → Prop}
    (R : H → H' → Prop) {p : Prog S E A α} {h : H} {h' : H'}
    (hp : p.Safe ρ Q h) (hR : R h h')
    (hnode : ∀ s o h h', R h h' → ρ.node s o h → ρ'.node s o h')
    (hstep : ∀ s o a h h' h'', R h h' → ρ.node s o h → ρ'.step s o a h' h'' →
      ∃ h₁, ρ.step s o a h h₁ ∧ R h₁ h'')
    (herror : ∀ s e h h', R h h' → ρ.error s e h → ρ'.error s e h')
    (hQ : ∀ s a h h', R h h' → Q s a h → Q' s a h') : p.Safe ρ' Q' h' := by
  induction p generalizing h h' with
  | ret s a => exact hQ s a h h' hR hp
  | fail s e => exact herror s e h h' hR hp
  | op s o k ih =>
    refine ⟨hnode s o h h' hR hp.1, fun a h'' ha => ?_⟩
    obtain ⟨h₁, h₁step, h₁R⟩ := hstep s o a h h' h'' hR hp.1 ha
    exact ih a (hp.2 a h₁ h₁step) h₁R

/-- **Consequence.** -/
theorem Safe.imp {p : Prog S E A α} {h : H} (hp : p.Safe ρ Q h)
    (hQ : ∀ s a h, Q s a h → Q' s a h) : p.Safe ρ Q' h := by
  refine hp.transfer (· = ·) rfl (fun _ _ _ _ hR hn => hR ▸ hn) ?_
    (fun _ _ _ _ hR he => hR ▸ he) (fun s a _ _ hR h => hR ▸ hQ s a _ h)
  rintro s o a h _ h'' rfl _ hs
  exact ⟨h'', hs, rfl⟩

/-- What is safe in two ways ends in both postconditions. -/
theorem Safe.and {p : Prog S E A α} {h : H} (hp : p.Safe ρ Q h) (hp' : p.Safe ρ Q' h) :
    p.Safe ρ (fun s a h => Q s a h ∧ Q' s a h) h := by
  induction p generalizing h with
  | ret s a => exact ⟨hp, hp'⟩
  | fail s e => exact hp
  | op s o k ih => exact ⟨hp.1, fun a h' ha => ih a (hp.2 a h' ha) (hp'.2 a h' ha)⟩

/-- **A safe program comes to an end**, where every operation is answered and no error is
admitted. -/
theorem Safe.exists_end {p : Prog S E A α} {h : H} (hp : p.Safe ρ Q h)
    (hanswer : ∀ s o h, ∃ a h', ρ.step s o a h h') (herror : ∀ s e h, ¬ ρ.error s e h) :
    ∃ s a h', Q s a h' := by
  induction p generalizing h with
  | ret s a => exact ⟨s, a, h, hp⟩
  | fail s e => exact absurd hp (herror s e h)
  | op s o k ih =>
    obtain ⟨a, h', ha⟩ := hanswer s o h
    exact ih a (hp.2 a h' ha)

end Prog

/-! ## Operations of a kind

What a program does can often be told from its operations alone, whatever they
answer. A program all of whose operations leave an assertion alone is safe
with it. -/

/-- **Every operation the program may perform is of a kind.** -/
def Prog.Only (P : O → Prop) : Prog S E A α → Prop
  | .ret _ _ => True
  | .fail _ _ => True
  | .op _ o k => P o ∧ ∀ a, (k a).Only P

theorem Prog.only_bind {P : O → Prop} {p : Prog S E A α} {f : α → S → Prog S E A β}
    (hp : p.Only P) (hf : ∀ a s, (f a s).Only P) : (p.bind f).Only P := by
  induction p with
  | ret s a => exact hf a s
  | fail s e => trivial
  | op s o k ih => exact ⟨hp.1, fun a => ih a (hp.2 a)⟩

theorem Prog.Only.imp {P P' : O → Prop} {p : Prog S E A α} (h : p.Only P)
    (himp : ∀ o, P o → P' o) : p.Only P' := by
  induction p with
  | ret s a => trivial
  | fail s e => trivial
  | op s o k ih => exact ⟨himp o h.1, fun a => ih a (h.2 a)⟩

theorem Prog.only_of_forall {P : O → Prop} (h : ∀ o, P o) (p : Prog S E A α) : p.Only P := by
  induction p with
  | ret s a => trivial
  | fail s e => trivial
  | op s o k ih => exact ⟨h o, ih⟩

theorem Prog.Only.of_bind {P : O → Prop} {p : Prog S E A α} {f : α → S → Prog S E A β}
    (h : (p.bind f).Only P) : p.Only P := by
  induction p with
  | ret s a => trivial
  | fail s e => trivial
  | op s o k ih => exact ⟨h.1, fun a => ih a (h.2 a)⟩

/-- **What the operations leave alone**, the program leaves alone. -/
theorem Prog.Only.safe {P : O → Prop} {ρ : Rules S E A H} {Ψ : H → Prop} {p : Prog S E A α} {h : H}
    (hp : p.Only P)
    (hop : ∀ s o h, P o → Ψ h → ρ.node s o h ∧ ∀ a h', ρ.step s o a h h' → Ψ h')
    (herror : ∀ s e h, Ψ h → ρ.error s e h) (hΨ : Ψ h) : p.Safe ρ (fun _ _ h => Ψ h) h := by
  induction p generalizing h with
  | ret s a => exact hΨ
  | fail s e => exact herror s e h hΨ
  | op s o k ih =>
    obtain ⟨hnode, hstep⟩ := hop s o h hp.1 hΨ
    exact ⟨hnode, fun a h' ha => ih a (hp.2 a) (hstep a h' ha)⟩

namespace Code

/-- Every operation the code may perform is of a kind. -/
def Only (P : O → Prop) (c : Code S E A α) : Prop := ∀ s, (c.run s).Only P

end Code

/-! ## Pre- and postconditions

Code that locks and releases something has to be told from its parts: what holds of the
private and the followed state before each of them, and after it. -/

namespace Code

/-- **Pre- and postconditions**, of the private and the followed state. -/
def Triple (ρ : Rules S E A H) (Ψ : S → H → Prop) (c : Code S E A α) (Ψ' : S → H → Prop) : Prop :=
  ∀ s h, Ψ s h → (c.run s).Safe ρ (fun s' _ h' => Ψ' s' h') h

variable {ρ : Rules S E A H} {Ψ Ψ' Ψ'' : S → H → Prop}

theorem triple_pure (a : α) : Triple ρ Ψ (pure a : Code S E A α) Ψ := fun _ _ hΨ => hΨ

theorem triple_look (f : S → α) : Triple ρ Ψ (look f : Code S E A α) Ψ := fun _ _ hΨ => hΨ

theorem triple_change {f : S → S} (hf : ∀ s h, Ψ s h → Ψ' (f s) h) :
    Triple ρ Ψ (change f : Code S E A Unit) Ψ' := hf

theorem triple_abort {e : E} (herror : ∀ s h, Ψ s h → ρ.error s e h) :
    Triple ρ Ψ (abort e : Code S E A α) Ψ' := herror

theorem triple_perform {o : O}
    (hop : ∀ s h, Ψ s h → ρ.node s o h ∧ ∀ a h', ρ.step s o a h h' → Ψ' s h') :
    Triple ρ Ψ (perform o : Code S E A (A o)) Ψ' := hop

theorem triple_bind {c : Code S E A α} {f : α → Code S E A β} (hc : Triple ρ Ψ c Ψ')
    (hf : ∀ a, Triple ρ Ψ' (f a) Ψ'') : Triple ρ Ψ (c >>= f) Ψ'' := by
  intro s h hΨ
  rw [run_bind, Prog.safe_bind]
  exact (hc s h hΨ).imp fun s' a h' hΨ' => hf a s' h' hΨ'

theorem triple_look_bind {f : S → α} {g : α → Code S E A β} (hg : ∀ a, Triple ρ Ψ (g a) Ψ') :
    Triple ρ Ψ (look f >>= g) Ψ' := triple_bind (triple_look f) hg

theorem triple_ite {p : Prop} [Decidable p] {c d : Code S E A α} (hc : Triple ρ Ψ c Ψ')
    (hd : Triple ρ Ψ d Ψ') : Triple ρ Ψ (if p then c else d) Ψ' := by
  split
  · exact hc
  · exact hd

end Code

/-! ## Undisturbed runs

A program that no other thread disturbs is a function of the memory it starts
with. -/

section Undisturbed

variable {W : Type} (exec : (o : O) → W → Option (A o × W))

/-- **Run a program alone**: its result, the private state and the memory it
ends with; `none` where it fails or waits. -/
def Prog.eval : Prog S E A α → W → Option (α × S × W)
  | .ret s a, w => some (a, s, w)
  | .fail _ _, _ => none
  | .op _ o k, w => (exec o w).bind fun x => (k x.1).eval x.2

theorem Prog.eval_bind (p : Prog S E A α) (f : α → S → Prog S E A β) (w : W) :
    (p.bind f).eval exec w
      = (p.eval exec w).bind fun x => (f x.1 x.2.1).eval exec x.2.2 := by
  induction p generalizing w with
  | ret s a => rfl
  | fail s e => rfl
  | op s o k ih =>
    simp only [Prog.bind, Prog.eval, Option.bind_assoc]
    exact Option.bind_congr fun x _ => ih x.1 x.2

/-- **What is safe holds of an undisturbed run**, if its operations are among
those the rules allow for. -/
theorem Prog.Safe.eval {ρ : Rules S E A W} {Q : S → α → W → Prop} {p : Prog S E A α}
    {w w' : W} {a : α} {s : S} (hp : p.Safe ρ Q w)
    (hstep : ∀ s o a w w', exec o w = some (a, w') → ρ.step s o a w w')
    (he : p.eval exec w = some (a, s, w')) : Q s a w' := by
  induction p generalizing w with
  | ret s a =>
    cases he
    exact hp
  | fail s e => cases he
  | op s o k ih =>
    obtain ⟨⟨x, w₁⟩, hx, hk⟩ := Option.bind_eq_some_iff.mp he
    exact ih x (hp.2 x w₁ (hstep s o x w w₁ hx)) hk

namespace Code

/-- Run code alone, from a private state. -/
def eval (c : Code S E A α) (s : S) (w : W) : Option (α × S × W) := (c.run s).eval exec w

@[simp] theorem eval_pure (a : α) (s : S) (w : W) :
    (pure a : Code S E A α).eval exec s w = some (a, s, w) := rfl

@[simp] theorem eval_bind (c : Code S E A α) (f : α → Code S E A β) (s : S) (w : W) :
    (c >>= f).eval exec s w
      = (c.eval exec s w).bind fun x => (f x.1).eval exec x.2.1 x.2.2 :=
  Prog.eval_bind ..

@[simp] theorem eval_look (f : S → α) (s : S) (w : W) :
    (look f : Code S E A α).eval exec s w = some (f s, s, w) := rfl

@[simp] theorem eval_change (f : S → S) (s : S) (w : W) :
    (change f : Code S E A Unit).eval exec s w = some ((), f s, w) := rfl

@[simp] theorem eval_abort (e : E) (s : S) (w : W) :
    (abort e : Code S E A α).eval exec s w = none := rfl

@[simp] theorem eval_ite (p : Prop) [Decidable p] (c d : Code S E A α) (s : S) (w : W) :
    (if p then c else d).eval exec s w = if p then c.eval exec s w else d.eval exec s w := by
  split <;> rfl

theorem eval_perform (o : O) (s : S) (w : W) :
    (perform o : Code S E A (A o)).eval exec s w = (exec o w).map fun x => (x.1, s, x.2) := by
  rw [eval, run_perform, Prog.eval, Option.map_eq_bind]
  rfl

end Code

end Undisturbed

/-! Where no operation ever waits, an undisturbed run always comes to an end. -/

section Unhindered

variable {W : Type} (exec : (o : O) → W → A o × W)

/-- **Run a program alone**: what it returns or the error it stops at, the private state and
the memory it ends with. -/
def Prog.result : Prog S E A α → W → Except E α × S × W
  | .ret s a, w => (.ok a, s, w)
  | .fail s e, w => (.error e, s, w)
  | .op _ o k, w => (k (exec o w).1).result (exec o w).2

/-- Go on where a run has returned. -/
def andThen : Except E α × S × W → (α → S → W → Except E β × S × W) → Except E β × S × W
  | (.ok a, s, w), f => f a s w
  | (.error e, s, w), _ => (.error e, s, w)

@[simp] theorem andThen_ok (a : α) (s : S) (w : W) (f : α → S → W → Except E β × S × W) :
    andThen (.ok a, s, w) f = f a s w := rfl

@[simp] theorem andThen_error (e : E) (s : S) (w : W) (f : α → S → W → Except E β × S × W) :
    andThen (.error e, s, w) f = (.error e, s, w) := rfl

theorem Prog.result_bind (p : Prog S E A α) (f : α → S → Prog S E A β) (w : W) :
    (p.bind f).result exec w
      = andThen (p.result exec w) fun a s w => (f a s).result exec w := by
  induction p generalizing w with
  | ret s a => rfl
  | fail s e => rfl
  | op s o k ih => exact ih _ _

namespace Code

/-- Run code alone, from a private state. -/
def result (c : Code S E A α) (s : S) (w : W) : Except E α × S × W := (c.run s).result exec w

@[simp] theorem result_pure (a : α) (s : S) (w : W) :
    (pure a : Code S E A α).result exec s w = (.ok a, s, w) := rfl

@[simp] theorem result_bind (c : Code S E A α) (f : α → Code S E A β) (s : S) (w : W) :
    (c >>= f).result exec s w
      = andThen (c.result exec s w) fun a s w => (f a).result exec s w :=
  Prog.result_bind ..

@[simp] theorem result_change (f : S → S) (s : S) (w : W) :
    (change f : Code S E A Unit).result exec s w = (.ok (), f s, w) := rfl

@[simp] theorem result_abort (e : E) (s : S) (w : W) :
    (abort e : Code S E A α).result exec s w = (.error e, s, w) := rfl

@[simp] theorem result_ite (p : Prop) [Decidable p] (c d : Code S E A α) (s : S) (w : W) :
    (if p then c else d).result exec s w
      = if p then c.result exec s w else d.result exec s w := by
  split <;> rfl

@[simp] theorem result_perform (o : O) (s : S) (w : W) :
    (perform o : Code S E A (A o)).result exec s w = (.ok (exec o w).1, s, (exec o w).2) := rfl

end Code

end Unhindered

end Interleaving
