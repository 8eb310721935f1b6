import SoftwareOnSilicon.Pool

/-!
# Some threads of a pool

A few of the threads of a pool are a pool of their own, whose environment is what the others do
(`Pool.part`). A run of the whole pool is a run of the part (`Reaches.part`), so that what has
been proved of the part holds of the whole. What may be assumed of the others' operations can
be told from their programs (`Reaches.only`), and a fact about all states reached may be assumed
of every step (`Reaches.strengthen`).
-/

namespace Interleaving

namespace Pool

variable {ι κ : Type} {S : ι → Type} {E O W : Type} {A : O → Type}

/-- **The threads `f k` of a pool**, on their own. -/
def part (P : Pool ι S E A W) (f : κ → ι) : Pool κ (fun k => S (f k)) E A W where
  exec k := P.exec (f k)
  loop k := P.loop (f k)

variable {P : Pool ι S E A W}

/-- The state of these threads. -/
def State.part (σ : P.State) (f : κ → ι) : (P.part f).State := ⟨σ.world, fun k => σ.thread (f k)⟩

variable [DecidableEq ι] {f : κ → ι} {env : P.State → W → Prop} {ok : P.State → P.State → Prop}
  {σ₀ σ : P.State}

/-- A thread of the part goes on. -/
theorem State.part_setThread [DecidableEq κ] (hf : f.Injective) (k : κ)
    (p : Prog (S (f k)) E A Unit) : (σ.setThread (f k) p).part f = (σ.part f).setThread k p := by
  unfold State.part State.setThread
  congr 1
  exact Function.update_comp_eq_of_injective' σ.thread hf k p

/-- Another thread goes on. -/
theorem State.part_setThread_of_ne {i : ι} (hi : ∀ k, f k ≠ i) (p : Prog (S i) E A Unit) :
    (σ.setThread i p).part f = σ.part f := by
  unfold State.part State.setThread
  congr 1
  funext k
  exact Function.update_of_ne (hi k) ..

/-- **A run of the pool is a run of a part of it**, if what the others do is what its environment
may do. -/
theorem Reaches.part [DecidableEq κ] (hf : f.Injective) {env' : (P.part f).State → W → Prop}
    (henv : ∀ σ w, env σ w → env' (σ.part f) w)
    (hop : ∀ σ, P.Reaches env ok σ₀ σ → ∀ i s o k a w, (∀ k, f k ≠ i) → σ.thread i = .op s o k →
      P.exec i o σ.world = some (a, w) → env' (σ.part f) w)
    (h : P.Reaches env ok σ₀ σ) :
    (P.part f).Reaches env' (fun _ _ => True) (σ₀.part f) (σ.part f) := by
  induction h with
  | refl => exact .refl
  | @tail σ σ' hσ hs ih =>
    have hup : σ.Up → (σ.part f).Up := fun hup k => hup (f k)
    cases hs.1 with
    | @op i s o k a w up node exec =>
      by_cases hi : ∃ k, f k = i
      · obtain ⟨k, rfl⟩ := hi
        rw [State.part_setThread hf]
        exact ih.tail ⟨.op (σ := σ.part f) (hup up) node exec, trivial⟩
      · rw [State.part_setThread_of_ne fun k hk => hi ⟨k, hk⟩]
        have hchange := hop σ hσ i s o k a w (fun k hk => hi ⟨k, hk⟩) node exec
        exact ih.tail ⟨.env (hup up) hchange, trivial⟩
    | @loop i s up node =>
      by_cases hi : ∃ k, f k = i
      · obtain ⟨k, rfl⟩ := hi
        rw [State.part_setThread hf]
        exact ih.tail ⟨.loop (σ := σ.part f) (hup up) node, trivial⟩
      · rwa [State.part_setThread_of_ne fun k hk => hi ⟨k, hk⟩]
    | env up change => exact ih.tail ⟨.env (hup up) (henv _ _ change), trivial⟩

/-- **The operations of a kind** are those of the programs that are run. -/
theorem Reaches.only {K : ι → O → Prop} (hloop : ∀ i s, (P.loop i s).Only (K i))
    (h : P.Reaches env ok σ₀ σ) (h₀ : ∀ i, (σ₀.thread i).Only (K i)) :
    ∀ i, (σ.thread i).Only (K i) := by
  refine Reaches.invariant (I := fun σ => ∀ i, (σ.thread i).Only (K i)) ?_ h h₀
  rintro σ σ' hσ hstep - j
  cases hstep with
  | @op i s o k a w up node exec =>
    by_cases hj : j = i
    · subst hj
      have hi := hσ j
      rw [node] at hi
      rw [State.setThread_self]
      exact hi.2 a
    · rw [State.setThread_of_ne _ hj]
      exact hσ j
  | @loop i s up node =>
    by_cases hj : j = i
    · subst hj
      rw [State.setThread_self]
      exact hloop j s
    · rw [State.setThread_of_ne _ hj]
      exact hσ j
  | env up change => exact hσ j

/-- **A fact about all states reached** may be assumed of every step. -/
theorem Reaches.strengthen {I : P.State → Prop} (hI : ∀ σ, P.Reaches env ok σ₀ σ → I σ)
    (h : P.Reaches env ok σ₀ σ) : P.Reaches env (fun σ σ' => ok σ σ' ∧ I σ) σ₀ σ := by
  induction h with
  | refl => exact .refl
  | tail hσ hs ih => exact ih.tail ⟨hs.1, hs.2, hI _ hσ⟩

end Pool

end Interleaving
