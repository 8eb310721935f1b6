import SoftwareOnSilicon.Outline
import SoftwareOnSilicon.Replay

/-!
# What a run shows

An observer of a pool sees some events of each operation: who performed it, in
which private state, and what it answered. `Traces` is a run together with
everything that has been observed so far.

An outline may follow what has been observed (`Outline.sound_traces`). What it
asserts is then something about each event and all those before it. A replay may record
it (`Script.record`).
-/

namespace Interleaving

namespace Pool

variable {ι : Type} {S : ι → Type} {E O W Ev : Type} {A : O → Type} {P : Pool ι S E A W}
  [DecidableEq ι]

/-- What is observed of an operation. -/
abbrev Observer (S : ι → Type) (A : O → Type) (Ev : Type) : Type :=
  (i : ι) → S i → (o : O) → A o → List Ev

/-- **A run, with what has been observed of it.** -/
inductive Traces (P : Pool ι S E A W) (env : P.State → W → Prop)
    (ok : P.State → P.State → Prop) (obs : Observer S A Ev) (σ₀ : P.State) :
    List Ev → P.State → Prop
  | start : Traces P env ok obs σ₀ [] σ₀
  | op {l : List Ev} {σ : P.State} {i : ι} {s : S i} {o : O}
      {k : A o → Prog (S i) E A Unit} {a : A o} {w : W}
      (before : Traces P env ok obs σ₀ l σ) (up : σ.Up) (node : σ.thread i = .op s o k)
      (exec : P.exec i o σ.world = some (a, w))
      (allowed : ok σ ({ σ with world := w }.setThread i (k a))) :
      Traces P env ok obs σ₀ (l ++ obs i s o a) ({ σ with world := w }.setThread i (k a))
  | loop {l : List Ev} {σ : P.State} {i : ι} {s : S i} (before : Traces P env ok obs σ₀ l σ)
      (up : σ.Up) (node : σ.thread i = .ret s ()) (allowed : ok σ (σ.setThread i (P.loop i s))) :
      Traces P env ok obs σ₀ l (σ.setThread i (P.loop i s))
  | env {l : List Ev} {σ : P.State} {w : W} (before : Traces P env ok obs σ₀ l σ) (up : σ.Up)
      (change : env σ w) (allowed : ok σ { σ with world := w }) :
      Traces P env ok obs σ₀ l { σ with world := w }

namespace Traces

variable {env : P.State → W → Prop} {ok : P.State → P.State → Prop} {obs : Observer S A Ev}
  {σ₀ σ : P.State} {l : List Ev}

/-- Every run can be observed. -/
theorem of_reaches (obs : Observer S A Ev) (h : P.Reaches env ok σ₀ σ) :
    ∃ l, Traces P env ok obs σ₀ l σ := by
  induction h with
  | refl => exact ⟨[], .start⟩
  | tail _ hs ih =>
    obtain ⟨l, hl⟩ := ih
    obtain ⟨hstep, hok⟩ := hs
    cases hstep with
    | op up node exec => exact ⟨_, hl.op up node exec hok⟩
    | loop up node => exact ⟨_, hl.loop up node hok⟩
    | env up change => exact ⟨_, hl.env up change hok⟩

end Traces

/-- **Soundness of an outline that follows what is observed**: its state goes with
the observations as `R` says. -/
theorem Outline.sound_traces {H : Type} {L : P.Outline H} {obs : Observer S A Ev}
    {env : P.State → W → Prop} {ok : P.State → P.State → Prop} (R : List Ev → H → Prop)
    (hop : ∀ (σ : P.State) (l : List Ev) (h : H) (i : ι) (s : S i) (o : O)
      (k : A o → Prog (S i) E A Unit) (a : A o) (w : W), R l h → L.Keeps σ h →
      σ.thread i = .op s o k → P.exec i o σ.world = some (a, w) →
      ok σ ({ σ with world := w }.setThread i (k a)) →
      ∃ h', R (l ++ obs i s o a) h' ∧ L.follows h' w ∧ L.step i s o a h h'
        ∧ ∀ j, j ≠ i → L.rely j (σ.thread j).state h h')
    (henv : ∀ (σ : P.State) (l : List Ev) (h : H) (w : W), R l h → L.Keeps σ h → env σ w →
      ok σ { σ with world := w } →
      ∃ h', R l h' ∧ L.follows h' w ∧ ∀ j, L.rely j (σ.thread j).state h h')
    (hloop : ∀ i s h, L.rest i s h → L.Safe i (P.loop i s) h)
    {σ₀ σ : P.State} {l : List Ev} (hσ : Traces P env ok obs σ₀ l σ)
    (h₀ : ∃ h, R [] h ∧ L.Keeps σ₀ h) : ∃ h, R l h ∧ L.Keeps σ h := by
  induction hσ with
  | start => exact h₀
  | @op l σ i s o k a w _ up node exec allowed ih =>
    obtain ⟨h, hR, hk⟩ := ih
    obtain ⟨h', hR', hw, hs, hr⟩ := hop σ l h i s o k a w hR hk node exec allowed
    exact ⟨h', hR', hk.op up node hw hs hr⟩
  | @loop l σ i s _ _ node _ ih =>
    obtain ⟨h, hR, hk⟩ := ih
    exact ⟨h, hR, hk.loop (hloop i s h (hk.rest node))⟩
  | @env l σ w _ up change allowed ih =>
    obtain ⟨h, hR, hk⟩ := ih
    obtain ⟨h', hR', hw, hr⟩ := henv σ l h w hR hk change allowed
    exact ⟨h', hR', hk.env up hw hr⟩

/-! ## Recording a replay -/

/-- What the next step of a thread shows. -/
def State.shows (obs : Observer S A Ev) (σ : P.State) (i : ι) : List Ev :=
  match σ.thread i with
  | .op s o _ => ((P.exec i o σ.world).map fun x => obs i s o x.1).getD []
  | _ => []

namespace Traces

variable {env : P.State → W → Prop} {ok : P.State → P.State → Prop} {obs : Observer S A Ev}
  {σ₀ σ σ' : P.State} {l : List Ev}

/-- The next step of a thread. -/
theorem next (h : Traces P env ok obs σ₀ l σ) {i : ι} (hup : σ.Up) (hσ : σ.next i = some σ')
    (hok : ok σ σ') : Traces P env ok obs σ₀ (l ++ σ.shows obs i) σ' := by
  unfold State.next at hσ
  unfold State.shows
  split at hσ
  case h_1 s hn =>
    obtain rfl := Option.some.inj hσ
    rw [hn, List.append_nil]
    exact h.loop hup hn hok
  case h_2 => cases hσ
  case h_3 s o k hn =>
    obtain ⟨⟨a, w⟩, hx, rfl⟩ := Option.map_eq_some_iff.mp hσ
    rw [hn]
    simp only [hx, Option.map_some, Option.getD_some]
    exact h.op hup hn hx hok

end Traces

namespace Script

variable {V : Type} [Fintype ι] (X : P.Script V) (obs : Observer S A Ev)

/-- Let a thread go on, and watch it. -/
def watch (i : ι) : ℕ → P.State × List Ev → Option (P.State × List Ev)
  | 0, x => some x
  | n + 1, x =>
    match x.1.next i with
    | none => some x
    | some σ' =>
      if x.1.up && X.check x.1 then watch i n (σ', x.2 ++ x.1.shows obs i) else none

/-- **Replay a schedule, and record what it shows.** -/
def record : List (Entry ι V) → P.State × List Ev → Option (P.State × List Ev)
  | [], x => some x
  | .go i n :: l, x => (X.watch obs i n x).bind (record l)
  | .act v :: l, x =>
    if x.1.up && X.may v x.1 && X.check x.1 then
      record l ({ x.1 with world := X.act v x.1.world }, x.2)
    else none

variable {X obs} {env : P.State → W → Prop} {ok : P.State → P.State → Prop} {σ₀ : P.State}

theorem watch_traces (hok : ∀ σ σ', X.check σ = true → ok σ σ') {i : ι} {n : ℕ}
    {x x' : P.State × List Ev} (hx : P.Traces env ok obs σ₀ x.2 x.1)
    (h : X.watch obs i n x = some x') : P.Traces env ok obs σ₀ x'.2 x'.1 := by
  induction n generalizing x with
  | zero => exact Option.some.inj h ▸ hx
  | succ n ih =>
    rw [watch] at h
    split at h
    case h_1 => exact Option.some.inj h ▸ hx
    case h_2 σ₁ hn =>
      split at h
      case isTrue hc =>
        rw [Bool.and_eq_true] at hc
        exact ih (hx.next (State.up_spec hc.1) hn (hok _ _ hc.2)) h
      case isFalse => cases h

/-- **What is recorded is a run.** -/
theorem record_traces (hact : ∀ v σ, X.may v σ = true → env σ (X.act v σ.world))
    (hok : ∀ σ σ', X.check σ = true → ok σ σ') {l : List (Entry ι V)}
    {x x' : P.State × List Ev} (hx : P.Traces env ok obs σ₀ x.2 x.1)
    (h : X.record obs l x = some x') : P.Traces env ok obs σ₀ x'.2 x'.1 := by
  induction l generalizing x with
  | nil => exact Option.some.inj h ▸ hx
  | cons e l ih =>
    cases e with
    | go i n =>
      obtain ⟨x₁, hgo, hl⟩ := Option.bind_eq_some_iff.mp h
      exact ih (watch_traces hok hx hgo) hl
    | act v =>
      rw [record] at h
      split at h
      case isTrue hc =>
        simp only [Bool.and_eq_true] at hc
        refine ih ?_ h
        exact hx.env (State.up_spec hc.1.1) (hact v _ hc.1.2) (hok _ _ hc.2)
      case isFalse => cases h

/-- A run of which a test succeeds. -/
theorem exists_of_record (env : P.State → W → Prop) (ok : P.State → P.State → Prop)
    (X : P.Script V) (obs : Observer S A Ev) (l : List (Entry ι V)) (σ₀ : P.State)
    (p : P.State × List Ev → Bool) (hact : ∀ v σ, X.may v σ = true → env σ (X.act v σ.world))
    (hok : ∀ σ σ', X.check σ = true → ok σ σ')
    (h : (X.record obs l (σ₀, [])).map p = some true) :
    ∃ σ es, P.Traces env ok obs σ₀ es σ ∧ p (σ, es) = true := by
  obtain ⟨x, hr, hp⟩ := Option.map_eq_some_iff.mp h
  exact ⟨x.1, x.2, record_traces hact hok .start hr, hp⟩

end Script

end Pool

end Interleaving
