import SoftwareOnSilicon.Outline

/-!
# Charts

A chart is the control flow of a program: its places, the operation that is
performed at each of them, and the place an answer leads to. A program has one
if it takes its way through it (`Charted`), and then a proof about the program
needs no more than an assertion for each place: that it allows the operation,
and that the step that follows leads to the assertion of the next place
(`Chart.Keeps`).

So code is walked through once, for the chart, and not once for every
assertion. The assertions of a thread of a pool have to survive interference
as well (`Outline.keeps_chart`).
-/

namespace Interleaving

variable {S E O P H : Type} {A : O → Type}

/-- **What follows an answer**: the program goes on at a place, or stops at an
error. -/
inductive Next (P S E : Type) where
  | goes (p : P) (s : S)
  | stops (e : E) (s : S)

/-- **A chart**: the places of a program, with what its own statements make of
the private state. -/
structure Chart (S E : Type) {O : Type} (A : O → Type) (P : Type) where
  op : P → O
  next : (p : P) → A (op p) → S → Next P S E
  /-- What is known of the private state at a place. -/
  valid : P → S → Prop

/-- **A program takes its way through a chart**, up to a place that depends on
the private state it ends with. -/
inductive Charted (C : Chart S E A P) (last : S → P) : Next P S E → Prog S E A Unit → Prop
  | ret {s : S} : Charted C last (.goes (last s) s) (.ret s ())
  | fail {s : S} {e : E} : Charted C last (.stops e s) (.fail s e)
  | op {p : P} {s : S} {k : A (C.op p) → Prog S E A Unit} (valid : C.valid p s)
      (follow : ∀ a, Charted C last (C.next p a s) (k a)) :
      Charted C last (.goes p s) (.op s (C.op p) k)

/-- **Sequencing**: the second part goes on where the first one ends. -/
theorem Charted.bind {C : Chart S E A P} {last last' : S → P} {x : Next P S E}
    {p : Prog S E A Unit} {f : Unit → S → Prog S E A Unit} (hp : Charted C last x p)
    (hf : ∀ s, Charted C last' (.goes (last s) s) (f () s)) : Charted C last' x (p.bind f) := by
  induction hp with
  | ret => exact hf _
  | fail => exact .fail
  | op valid _ ih => exact .op valid ih

/-- What is asserted where the program goes on, or stops. -/
def Next.Holds (ρ : Rules S E A H) (Φ : P → S → H → Prop) : Next P S E → H → Prop
  | .goes p s, h => Φ p s h
  | .stops e s, h => ρ.error s e h

/-- **An assertion for each place that the steps of the program keep.** -/
structure Chart.Keeps (C : Chart S E A P) (ρ : Rules S E A H) (Φ : P → S → H → Prop) : Prop where
  node : ∀ p s h, C.valid p s → Φ p s h → ρ.node s (C.op p) h
  step : ∀ p s (a : A (C.op p)) h h', C.valid p s → Φ p s h → ρ.step s (C.op p) a h h' →
    (C.next p a s).Holds ρ Φ h'

/-- **A charted program is safe** if the assertions of its places are kept. -/
theorem Chart.Keeps.safe {C : Chart S E A P} {ρ : Rules S E A H} {Φ : P → S → H → Prop}
    (hC : C.Keeps ρ Φ) {last : S → P} {x : Next P S E} {p : Prog S E A Unit} {h : H}
    (hp : Charted C last x p) (hx : x.Holds ρ Φ h) :
    p.Safe ρ (fun s _ h => Φ (last s) s h) h := by
  induction hp generalizing h with
  | ret => exact hx
  | fail => exact hx
  | op valid _ ih =>
    refine ⟨hC.node _ _ h valid hx, fun a h' ha => ?_⟩
    exact ih a (hC.step _ _ a h h' valid hx ha)

/-- **Assertions that survive interference** are kept if the operations keep them. -/
theorem Pool.Outline.keeps_chart {ι W : Type} {T : ι → Type} {Q : Pool ι T E A W}
    (L : Q.Outline H) (i : ι) {C : Chart (T i) E A P} {Φ : P → T i → H → Prop}
    (stable : ∀ p s h h', L.rely i s h h' → Φ p s h → Φ p s h')
    (node : ∀ p s h, C.valid p s → Φ p s h → L.node i s (C.op p) h)
    (step : ∀ p s (a : A (C.op p)) h h', C.valid p s → Φ p s h → L.step i s (C.op p) a h h' →
      (C.next p a s).Holds (L.rules i) Φ h') : C.Keeps (L.rules i) Φ where
  node := node
  step p s a h h'' valid hp := by
    rintro ⟨h', hr, hs⟩
    exact step p s a h' h'' valid (stable p s h h' hr hp) hs

/-- The operations of a charted program are those of the places. -/
theorem Charted.only {C : Chart S E A P} {last : S → P} {x : Next P S E} {p : Prog S E A Unit}
    (hp : Charted C last x p) {K : O → Prop} (hop : ∀ p, K (C.op p)) : p.Only K := by
  induction hp with
  | ret => trivial
  | fail => trivial
  | op _ _ ih => exact ⟨hop _, ih⟩

end Interleaving
