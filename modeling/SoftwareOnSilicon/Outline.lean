import SoftwareOnSilicon.Pool

/-!
# Rely–guarantee outlines of a pool

To prove something of every run of a pool, each thread's program is shown to
be `Safe` on its own, under rules that let the other threads interfere before
every operation. What the threads know of one another is a state `H` that
follows the world – it may have more in it than the world has – and for each
thread the changes the others may make to it, `rely`, which may depend on the
private state the thread is in.

An `Outline` is that data. It carries the proofs that its assertions survive
interference, so that a safe program stays safe while the others run
(`Outline.safe_of_rely`). What remains of an outline's proof is that no step
of a thread changes what the others rely on, and then the assertions hold in
every state reached (`Outline.sound`).
-/

namespace Interleaving

namespace Pool

variable {ι : Type} {S : ι → Type} {E O W H : Type} {A : O → Type}

/-- **An outline**: for each thread, what it asserts before an operation, when
it starts over and when it fails, what its operations do to the followed
state, and what it relies on. -/
structure Outline (P : Pool ι S E A W) (H : Type) where
  /-- The followed state agrees with the world. -/
  follows : H → W → Prop
  step : (i : ι) → S i → (o : O) → A o → H → H → Prop
  node : (i : ι) → S i → O → H → Prop
  rest : (i : ι) → S i → H → Prop
  error : (i : ι) → S i → E → H → Prop
  /-- What the other threads may do while the thread is in a private state. -/
  rely : (i : ι) → S i → H → H → Prop
  refl : ∀ i s h, rely i s h h
  trans : ∀ i s h h' h'', rely i s h h' → rely i s h' h'' → rely i s h h''
  node_stable : ∀ i s o h h', rely i s h h' → node i s o h → node i s o h'
  rest_stable : ∀ i s h h', rely i s h h' → rest i s h → rest i s h'

namespace Outline

variable {P : Pool ι S E A W} (L : P.Outline H)

/-- The rules of a thread: the others interfere, then the operation happens. -/
def rules (i : ι) : Rules (S i) E A H where
  step s o a h h'' := ∃ h', L.rely i s h h' ∧ L.step i s o a h' h''
  node := L.node i
  error := L.error i

/-- What is left of a thread's program is safe. -/
def Safe (i : ι) (p : Prog (S i) E A Unit) (h : H) : Prop :=
  p.Safe (L.rules i) (fun s _ h => L.rest i s h) h

/-- All threads are safe where the followed state is. -/
def Keeps (σ : P.State) (h : H) : Prop :=
  L.follows h σ.world ∧ ∀ i, L.Safe i (σ.thread i) h

variable {L}

/-- The rule for one operation, given what is known before it and survives
interference. -/
theorem safe_perform {i : ι} {s : S i} {o : O} {h : H} {Q : S i → A o → H → Prop} (Ψ : H → Prop)
    (hΨ : Ψ h) (hstable : ∀ h h', L.rely i s h h' → Ψ h → Ψ h') (hnode : L.node i s o h)
    (hstep : ∀ a h h', Ψ h → L.step i s o a h h' → Q s a h') :
    ((Code.perform (E := E) (A := A) o).run s).Safe (L.rules i) Q h := by
  refine ⟨hnode, fun a h'' => ?_⟩
  rintro ⟨h', hr, hs⟩
  exact hstep a h' h'' (hstable h h' hr hΨ) hs

/-- **A safe program survives interference**, unless it has failed. -/
theorem safe_of_rely {i : ι} {p : Prog (S i) E A Unit} {h h' : H}
    (hup : ∀ s e, p ≠ .fail s e) (hp : L.Safe i p h) (hr : L.rely i p.state h h') :
    L.Safe i p h' := by
  cases p with
  | ret s a => exact L.rest_stable i s h h' hr hp
  | fail s e => exact absurd rfl (hup s e)
  | op s o k =>
    refine ⟨L.node_stable i s o h h' hr hp.1, fun a h'' => ?_⟩
    rintro ⟨h₁, hr', hstep⟩
    exact hp.2 a h'' ⟨h₁, L.trans i s _ _ _ hr hr', hstep⟩

/-- What a thread asserts before its next operation. -/
theorem Keeps.node {σ : P.State} {h : H} (hk : L.Keeps σ h) {i : ι} {s : S i} {o : O}
    {k : A o → Prog (S i) E A Unit} (hi : σ.thread i = .op s o k) : L.node i s o h := by
  have hs := hk.2 i
  rw [hi] at hs
  exact hs.1

/-- What a thread asserts when it starts over. -/
theorem Keeps.rest {σ : P.State} {h : H} (hk : L.Keeps σ h) {i : ι} {s : S i}
    (hi : σ.thread i = .ret s ()) : L.rest i s h := by
  have hs := hk.2 i
  rw [hi] at hs
  exact hs

/-- What a thread asserts when it has failed. -/
theorem Keeps.error {σ : P.State} {h : H} (hk : L.Keeps σ h) {i : ι} {s : S i} {e : E}
    (hi : σ.thread i = .fail s e) : L.error i s e h := by
  have hs := hk.2 i
  rw [hi] at hs
  exact hs

/-- A change of the environment that all threads rely on. -/
theorem Keeps.env {σ : P.State} {h h' : H} {w : W} (hk : L.Keeps σ h) (hup : σ.Up)
    (hw : L.follows h' w) (hr : ∀ j, L.rely j (σ.thread j).state h h') :
    L.Keeps { σ with world := w } h' :=
  ⟨hw, fun j => safe_of_rely (hup j) (hk.2 j) (hr j)⟩

variable [DecidableEq ι]

/-- An operation that the other threads rely on. -/
theorem Keeps.op {σ : P.State} {h h' : H} {i : ι} {s : S i} {o : O}
    {k : A o → Prog (S i) E A Unit} {a : A o} {w : W} (hk : L.Keeps σ h) (hup : σ.Up)
    (hi : σ.thread i = .op s o k) (hw : L.follows h' w) (hs : L.step i s o a h h')
    (hr : ∀ j, j ≠ i → L.rely j (σ.thread j).state h h') :
    L.Keeps ({ σ with world := w }.setThread i (k a)) h' := by
  refine ⟨hw, fun j => ?_⟩
  by_cases hj : j = i
  · subst hj
    have hsafe := hk.2 j
    rw [hi] at hsafe
    rw [State.setThread_self]
    exact hsafe.2 a h' ⟨h, L.refl j s h, hs⟩
  · rw [State.setThread_of_ne _ hj]
    exact safe_of_rely (hup j) (hk.2 j) (hr j hj)

/-- A thread that starts over. -/
theorem Keeps.loop {σ : P.State} {h : H} {i : ι} {s : S i} (hk : L.Keeps σ h)
    (hs : L.Safe i (P.loop i s) h) : L.Keeps (σ.setThread i (P.loop i s)) h := by
  refine ⟨hk.1, fun j => ?_⟩
  by_cases hj : j = i
  · subst hj
    rw [State.setThread_self]
    exact hs
  · rw [State.setThread_of_ne _ hj]
    exact hk.2 j

variable {env : P.State → W → Prop} {ok : P.State → P.State → Prop}

/-- **Soundness.** If every operation and every change of the environment is
one the other threads rely on, and every thread is safe when it starts over,
then all threads are safe in every state reached. -/
theorem sound
    (hop : ∀ (σ : P.State) (h : H) (i : ι) (s : S i) (o : O)
      (k : A o → Prog (S i) E A Unit) (a : A o) (w : W), L.Keeps σ h →
      σ.thread i = .op s o k → P.exec i o σ.world = some (a, w) →
      ok σ ({ σ with world := w }.setThread i (k a)) →
      ∃ h', L.follows h' w ∧ L.step i s o a h h' ∧ ∀ j, j ≠ i → L.rely j (σ.thread j).state h h')
    (henv : ∀ (σ : P.State) (h : H) (w : W), L.Keeps σ h → env σ w →
      ok σ { σ with world := w } → ∃ h', L.follows h' w ∧ ∀ j, L.rely j (σ.thread j).state h h')
    (hloop : ∀ i s h, L.rest i s h → L.Safe i (P.loop i s) h)
    {σ₀ σ : P.State} (hσ : P.Reaches env ok σ₀ σ) (h₀ : ∃ h, L.Keeps σ₀ h) :
    ∃ h, L.Keeps σ h := by
  refine Reaches.invariant (I := fun σ => ∃ h, L.Keeps σ h) ?_ hσ h₀
  rintro σ σ' ⟨h, hk⟩ hstep hok
  cases hstep with
  | @op i s o k a w up node exec =>
    obtain ⟨h', hw, hs, hr⟩ := hop σ h i s o k a w hk node exec hok
    exact ⟨h', hk.op up node hw hs hr⟩
  | @loop i s up node => exact ⟨h, hk.loop (hloop i s h (hk.rest node))⟩
  | @env w up change =>
    obtain ⟨h', hw, hr⟩ := henv σ h w hk change hok
    exact ⟨h', hk.env up hw hr⟩

end Outline

end Pool

end Interleaving
