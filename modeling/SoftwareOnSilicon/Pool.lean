import SoftwareOnSilicon.Program
import Mathlib.Logic.Relation
import Mathlib.Data.Fintype.Defs

/-!
# Pools of threads

A pool runs one program per thread over a world they share. A step of the
pool is one operation of one thread, so a run of the pool is an arbitrary
interleaving of the threads at the granularity of single operations. A thread
whose program has returned starts over (`Pool.loop`); an operation that cannot
be performed yet has no step; and a thread that has failed takes the whole
process with it, so a state with a failed thread has no step at all.

Whatever else may change the world – a thread that is not modelled, a peer –
is a relation `env` that a step may take instead.
-/

namespace Interleaving

/-- **A pool of threads**: what each thread's operations do to the world, and
the program each thread runs again and again. -/
structure Pool (ι : Type) (S : ι → Type) (E : Type) {O : Type} (A : O → Type)
    (W : Type) where
  /-- What an operation of a thread does, `none` while it waits. -/
  exec : ι → (o : O) → W → Option (A o × W)
  /-- The program a thread runs from a private state. -/
  loop : (i : ι) → S i → Prog (S i) E A Unit

variable {ι : Type} {S : ι → Type} {E O W : Type} {A : O → Type}

namespace Pool

/-- A state of the pool. -/
structure State (P : Pool ι S E A W) where
  world : W
  /-- What is left of each thread's program. -/
  thread : (i : ι) → Prog (S i) E A Unit

variable {P : Pool ι S E A W}

/-- No thread has failed. -/
def State.Up (σ : P.State) : Prop := ∀ i s e, σ.thread i ≠ .fail s e

variable [DecidableEq ι]

/-- Replace one thread's program. -/
def State.setThread (σ : P.State) (i : ι) (p : Prog (S i) E A Unit) : P.State :=
  { σ with thread := Function.update σ.thread i p }

@[simp] theorem State.setThread_world (σ : P.State) (i : ι)
    (p : Prog (S i) E A Unit) : (σ.setThread i p).world = σ.world := rfl

@[simp] theorem State.setThread_self (σ : P.State) (i : ι)
    (p : Prog (S i) E A Unit) : (σ.setThread i p).thread i = p :=
  Function.update_self ..

theorem State.setThread_of_ne (σ : P.State) {i j : ι} (h : j ≠ i)
    (p : Prog (S i) E A Unit) : (σ.setThread i p).thread j = σ.thread j :=
  Function.update_of_ne h ..

/-- **A step of the pool.** -/
inductive Step (env : P.State → W → Prop) : P.State → P.State → Prop
  /-- A thread performs its next operation. -/
  | op {σ : P.State} {i : ι} {s : S i} {o : O} {k : A o → Prog (S i) E A Unit}
      {a : A o} {w : W} (up : σ.Up) (node : σ.thread i = .op s o k)
      (exec : P.exec i o σ.world = some (a, w)) :
      Step env σ ({ σ with world := w }.setThread i (k a))
  /-- A thread that has returned starts over. -/
  | loop {σ : P.State} {i : ι} {s : S i} (up : σ.Up)
      (node : σ.thread i = .ret s ()) :
      Step env σ (σ.setThread i (P.loop i s))
  /-- Something else changes the world. -/
  | env {σ : P.State} {w : W} (up : σ.Up) (change : env σ w) :
      Step env σ { σ with world := w }

/-- **Reachability**: along steps that meet a condition. -/
def Reaches (env : P.State → W → Prop) (ok : P.State → P.State → Prop) :
    P.State → P.State → Prop :=
  Relation.ReflTransGen fun σ σ' => P.Step env σ σ' ∧ ok σ σ'

/-- **What every step keeps holds in every state reached.** -/
theorem Reaches.invariant {env : P.State → W → Prop}
    {ok : P.State → P.State → Prop} {I : P.State → Prop}
    (hstep : ∀ σ σ', I σ → P.Step env σ σ' → ok σ σ' → I σ')
    {σ₀ σ : P.State} (h : P.Reaches env ok σ₀ σ) (h₀ : I σ₀) : I σ := by
  induction h with
  | refl => exact h₀
  | tail _ hs ih => exact hstep _ _ ih hs.1 hs.2

/-- A run under stronger conditions is one under weaker ones. -/
theorem Reaches.mono {env env' : P.State → W → Prop} {ok ok' : P.State → P.State → Prop}
    (henv : ∀ σ w, env σ w → env' σ w) (hok : ∀ σ σ', ok σ σ' → ok' σ σ')
    {σ₀ σ : P.State} (h : P.Reaches env ok σ₀ σ) : P.Reaches env' ok' σ₀ σ := by
  induction h with
  | refl => exact .refl
  | tail _ hs ih =>
    refine ih.tail ⟨?_, hok _ _ hs.2⟩
    cases hs.1 with
    | op up node exec => exact .op up node exec
    | loop up node => exact .loop up node
    | env up change => exact .env up (henv _ _ change)

end Pool

end Interleaving
