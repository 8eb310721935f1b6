import SoftwareOnSilicon.Pool

/-!
# Pools that keep a history

A history variable records what the operations of a pool show of the world they are
performed in. `Pool.recorded` keeps it in the world, so that everything there is about pools
applies to it. It takes no part in what happens: a run with the history is a run, and every
run is one of them (`Reaches.forget`, `Reaches.exists_recorded`).
-/

namespace Interleaving

namespace Pool

variable {ι : Type} {S : ι → Type} {E O W Ev : Type} {A : O → Type}

/-- **The pool with a history** of what its operations show. -/
def recorded (P : Pool ι S E A W) (shows : ι → O → W → List Ev) :
    Pool ι S E A (W × List Ev) where
  exec i o x := (P.exec i o x.1).map fun y => (y.1, y.2, x.2 ++ shows i o x.1)
  loop := P.loop

variable {P : Pool ι S E A W} {shows : ι → O → W → List Ev}

/-- What an operation of the pool with a history is. -/
theorem recorded_exec {i : ι} {o : O} {x x' : W × List Ev} {a : A o}
    (h : (P.recorded shows).exec i o x = some (a, x')) :
    P.exec i o x.1 = some (a, x'.1) ∧ x'.2 = x.2 ++ shows i o x.1 := by
  obtain ⟨⟨a', w⟩, hexec, heq⟩ := Option.map_eq_some_iff.mp h
  obtain ⟨rfl, rfl⟩ := Prod.mk.inj heq
  exact ⟨hexec, rfl⟩

/-- The state without the history. -/
def State.forget (σ : (P.recorded shows).State) : P.State := ⟨σ.world.1, σ.thread⟩

/-- The state with a history. -/
def State.record (σ : P.State) (l : List Ev) : (P.recorded shows).State :=
  ⟨(σ.world, l), σ.thread⟩

variable [DecidableEq ι] {env : P.State → W → Prop}

/-- **A run with a history is a run.** -/
theorem Reaches.forget {ok : (P.recorded shows).State → (P.recorded shows).State → Prop}
    {σ₀ σ : (P.recorded shows).State}
    (h : (P.recorded shows).Reaches (fun σ x => env σ.forget x.1) ok σ₀ σ) :
    P.Reaches env (fun _ _ => True) σ₀.forget σ.forget := by
  induction h with
  | refl => exact .refl
  | tail _ hs ih =>
    refine ih.tail ⟨?_, trivial⟩
    cases hs.1 with
    | op up node exec => exact .op up node (recorded_exec exec).1
    | loop up node => exact .loop up node
    | env up change => exact .env up change

/-- **Every run has a history.** -/
theorem Reaches.exists_recorded (shows : ι → O → W → List Ev) {σ₀ σ : P.State}
    (h : P.Reaches env (fun _ _ => True) σ₀ σ) :
    ∃ l, (P.recorded shows).Reaches (fun σ x => env σ.forget x.1 ∧ x.2 = σ.world.2)
      (fun _ _ => True) (σ₀.record []) (σ.record l) := by
  induction h with
  | refl => exact ⟨[], .refl⟩
  | @tail σ _ _ hs ih =>
    obtain ⟨l, hl⟩ := ih
    cases hs.1 with
    | @op i s o k a w up node exec =>
      refine ⟨l ++ shows i o σ.world, hl.tail ⟨.op (σ := σ.record l) up node ?_, trivial⟩⟩
      show (P.exec i o σ.world).map _ = _
      rw [exec]
      rfl
    | loop up node => exact ⟨l, hl.tail ⟨.loop (σ := σ.record l) up node, trivial⟩⟩
    | env up change =>
      exact ⟨l, hl.tail ⟨.env (σ := σ.record l) up ⟨change, rfl⟩, trivial⟩⟩

end Pool

end Interleaving
