import SoftwareOnSilicon.Pool

/-!
# Replaying a schedule

A run of a pool can be computed from a schedule that says which thread goes on
and when the environment acts. What a schedule leads to is reachable
(`replay_reaches`), so a fact about some reachable state can be shown by
computing one.
-/

namespace Interleaving

variable {ι : Type} {S : ι → Type} {E O W V : Type} {A : O → Type}

/-- The program has stopped at an error. -/
def Prog.failed {S α : Type} : Prog S E A α → Bool
  | .fail _ _ => true
  | _ => false

/-- The program has returned. -/
def Prog.returned {S α : Type} : Prog S E A α → Bool
  | .ret _ _ => true
  | _ => false

theorem Prog.returned_spec {S α : Type} {p : Prog S E A α} (h : p.returned = true) :
    ∃ a, p = .ret p.state a := by
  cases p with
  | ret s a => exact ⟨a, rfl⟩
  | fail s e => cases h
  | op s o k => cases h

/-- The program is about to perform an operation. -/
def Prog.performs {S α : Type} [DecidableEq O] (o : O) : Prog S E A α → Bool
  | .op _ o' _ => o' = o
  | _ => false

theorem Prog.performs_spec {S α : Type} [DecidableEq O] {o : O} {p : Prog S E A α}
    (h : p.performs o = true) : ∃ k, p = .op p.state o k := by
  cases p with
  | ret s a => cases h
  | fail s e => cases h
  | op s o' k =>
    obtain rfl : o' = o := of_decide_eq_true h
    exact ⟨k, rfl⟩

namespace Pool

/-- One entry of a schedule. -/
inductive Entry (ι V : Type) where
  /-- A thread goes on until it waits, for at most so many steps. -/
  | go (i : ι) (steps : ℕ)
  /-- The environment acts. -/
  | act (v : V)

/-- **What a schedule is replayed with**: what the environment does, where it
may, and a condition on the states a step is taken in. -/
structure Script (P : Pool ι S E A W) (V : Type) where
  act : V → W → W
  may : V → P.State → Bool
  check : P.State → Bool

variable {P : Pool ι S E A W}

/-- No thread has failed, as a test. -/
def State.up [Fintype ι] (σ : P.State) : Bool := decide (∀ i, (σ.thread i).failed = false)

theorem State.up_spec [Fintype ι] {σ : P.State} (h : σ.up = true) : σ.Up := fun i s e hf => by
  have hi := of_decide_eq_true h i
  rw [hf] at hi
  cases hi

variable [DecidableEq ι]

/-- The next step of a thread, `none` where it waits or has failed. -/
def State.next (σ : P.State) (i : ι) : Option P.State :=
  match σ.thread i with
  | .ret s () => some (σ.setThread i (P.loop i s))
  | .fail _ _ => none
  | .op _ o k =>
    (P.exec i o σ.world).map fun x => { σ with world := x.2 }.setThread i (k x.1)

theorem State.next_step {env : P.State → W → Prop} {σ σ' : P.State} {i : ι} (hup : σ.Up)
    (h : σ.next i = some σ') : P.Step env σ σ' := by
  unfold State.next at h
  split at h
  case h_1 s hn => exact Option.some.inj h ▸ .loop hup hn
  case h_2 => cases h
  case h_3 s o k hn =>
    obtain ⟨⟨a, w⟩, hx, rfl⟩ := Option.map_eq_some_iff.mp h
    exact .op hup hn hx

namespace Script

variable [Fintype ι] (X : P.Script V)

/-- Let a thread go on. -/
def go (i : ι) : ℕ → P.State → Option P.State
  | 0, σ => some σ
  | n + 1, σ =>
    match σ.next i with
    | none => some σ
    | some σ' => if σ.up && X.check σ then go i n σ' else none

/-- **Replay a schedule.** -/
def replay : List (Entry ι V) → P.State → Option P.State
  | [], σ => some σ
  | .go i n :: l, σ => (X.go i n σ).bind (replay l)
  | .act v :: l, σ =>
    if σ.up && X.may v σ && X.check σ then replay l { σ with world := X.act v σ.world }
    else none

variable {X} {env : P.State → W → Prop} {ok : P.State → P.State → Prop}

theorem go_reaches (hok : ∀ σ σ', X.check σ = true → ok σ σ') {i : ι} {n : ℕ}
    {σ₀ σ σ' : P.State} (hσ : P.Reaches env ok σ₀ σ) (h : X.go i n σ = some σ') :
    P.Reaches env ok σ₀ σ' := by
  induction n generalizing σ with
  | zero => exact Option.some.inj h ▸ hσ
  | succ n ih =>
    rw [go] at h
    split at h
    case h_1 => exact Option.some.inj h ▸ hσ
    case h_2 σ₁ hn =>
      split at h
      case isTrue hc =>
        rw [Bool.and_eq_true] at hc
        exact ih (hσ.tail ⟨State.next_step (State.up_spec hc.1) hn, hok _ _ hc.2⟩) h
      case isFalse => cases h

/-- **What a schedule leads to is reachable.** -/
theorem replay_reaches (hact : ∀ v σ, X.may v σ = true → env σ (X.act v σ.world))
    (hok : ∀ σ σ', X.check σ = true → ok σ σ') {l : List (Entry ι V)} {σ₀ σ σ' : P.State}
    (hσ : P.Reaches env ok σ₀ σ) (h : X.replay l σ = some σ') : P.Reaches env ok σ₀ σ' := by
  induction l generalizing σ with
  | nil => exact Option.some.inj h ▸ hσ
  | cons e l ih =>
    cases e with
    | go i n =>
      obtain ⟨σ₁, hgo, hl⟩ := Option.bind_eq_some_iff.mp h
      exact ih (go_reaches hok hσ hgo) hl
    | act v =>
      rw [replay] at h
      split at h
      case isTrue hc =>
        simp only [Bool.and_eq_true] at hc
        exact ih (hσ.tail ⟨.env (State.up_spec hc.1.1) (hact v σ hc.1.2), hok _ _ hc.2⟩) h
      case isFalse => cases h

/-- Every state of a replay meets the condition if the last one does. -/
theorem check_of_go {i : ι} {n : ℕ} {σ σ' : P.State} (h : X.go i n σ = some σ')
    (hc : X.check σ' = true) : X.check σ = true := by
  cases n with
  | zero => exact Option.some.inj h ▸ hc
  | succ n =>
    rw [go] at h
    split at h
    case h_1 => exact Option.some.inj h ▸ hc
    case h_2 =>
      split at h
      case isTrue hσ => exact ((Bool.and_eq_true ..).mp hσ).2
      case isFalse => cases h

theorem go_reaches_within (hok : ∀ σ σ', X.check σ = true → X.check σ' = true → ok σ σ')
    {i : ι} {n : ℕ} {σ₀ σ σ' : P.State} (hσ : P.Reaches env ok σ₀ σ)
    (h : X.go i n σ = some σ') (hc : X.check σ' = true) : P.Reaches env ok σ₀ σ' := by
  induction n generalizing σ with
  | zero => exact Option.some.inj h ▸ hσ
  | succ n ih =>
    have hcheck := check_of_go h hc
    rw [go] at h
    split at h
    case h_1 => exact Option.some.inj h ▸ hσ
    case h_2 σ₁ hn =>
      split at h
      case isTrue hu =>
        rw [Bool.and_eq_true] at hu
        exact ih (hσ.tail ⟨State.next_step (State.up_spec hu.1) hn,
          hok _ _ hcheck (check_of_go h hc)⟩) h
      case isFalse => cases h

theorem check_of_replay {l : List (Entry ι V)} {σ σ' : P.State} (h : X.replay l σ = some σ')
    (hc : X.check σ' = true) : X.check σ = true := by
  induction l generalizing σ with
  | nil => exact Option.some.inj h ▸ hc
  | cons e l ih =>
    cases e with
    | go i n =>
      obtain ⟨σ₁, hgo, hl⟩ := Option.bind_eq_some_iff.mp h
      exact check_of_go hgo (ih hl)
    | act v =>
      rw [replay] at h
      split at h
      case isTrue hσ => exact ((Bool.and_eq_true ..).mp hσ).2
      case isFalse => cases h

/-- **A replay is a run on a condition on both ends of a step.** -/
theorem replay_reaches_within (hact : ∀ v σ, X.may v σ = true → env σ (X.act v σ.world))
    (hok : ∀ σ σ', X.check σ = true → X.check σ' = true → ok σ σ') {l : List (Entry ι V)}
    {σ₀ σ σ' : P.State} (hσ : P.Reaches env ok σ₀ σ) (h : X.replay l σ = some σ')
    (hc : X.check σ' = true) : P.Reaches env ok σ₀ σ' := by
  induction l generalizing σ with
  | nil => exact Option.some.inj h ▸ hσ
  | cons e l ih =>
    cases e with
    | go i n =>
      obtain ⟨σ₁, hgo, hl⟩ := Option.bind_eq_some_iff.mp h
      exact ih (go_reaches_within hok hσ hgo (check_of_replay hl hc)) hl
    | act v =>
      rw [replay] at h
      split at h
      case isTrue hu =>
        simp only [Bool.and_eq_true] at hu
        exact ih (hσ.tail ⟨.env (State.up_spec hu.1.1) (hact v σ hu.1.2),
          hok _ _ hu.2 (check_of_replay h hc)⟩) h
      case isFalse => cases h

/-- A reachable state in which a test succeeds. -/
theorem exists_of_replay (env : P.State → W → Prop) (ok : P.State → P.State → Prop)
    (X : P.Script V) (l : List (Entry ι V)) (σ₀ : P.State)
    (p : P.State → Bool) (hact : ∀ v σ, X.may v σ = true → env σ (X.act v σ.world))
    (hok : ∀ σ σ', X.check σ = true → ok σ σ') (h : (X.replay l σ₀).map p = some true) :
    ∃ σ, P.Reaches env ok σ₀ σ ∧ p σ = true := by
  obtain ⟨σ, hr, hp⟩ := Option.map_eq_some_iff.mp h
  exact ⟨σ, replay_reaches hact hok .refl hr, hp⟩

/-- Two reachable states, where every state between them meets the condition. -/
theorem exists_of_replays (env : P.State → W → Prop) (ok : P.State → P.State → Prop)
    (X Y : P.Script V) (l l' : List (Entry ι V)) (σ₀ : P.State) (p : P.State → P.State → Bool)
    (hX : ∀ v σ, X.may v σ = true → env σ (X.act v σ.world))
    (hY : ∀ v σ, Y.may v σ = true → env σ (Y.act v σ.world))
    (hY' : ∀ σ σ', Y.check σ = true → Y.check σ' = true → ok σ σ')
    (h : ((X.replay l σ₀).bind fun σ =>
      (Y.replay l' σ).map fun σ' => Y.check σ' && p σ σ') = some true) :
    ∃ σ σ', P.Reaches env (fun _ _ => True) σ₀ σ ∧ P.Reaches env ok σ σ' ∧ p σ σ' = true := by
  obtain ⟨σ, hr, hb⟩ := Option.bind_eq_some_iff.mp h
  obtain ⟨σ', hr', hp⟩ := Option.map_eq_some_iff.mp hb
  rw [Bool.and_eq_true] at hp
  exact ⟨σ, σ', replay_reaches hX (fun _ _ _ => trivial) .refl hr,
    replay_reaches_within hY hY' .refl hr' hp.1, hp.2⟩

end Script

end Pool

end Interleaving
