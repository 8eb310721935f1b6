import SoftwareOnSilicon.Cycle
import SoftwareOnSilicon.Schedule

/-!
# The stop request and the poweron symbol

The destructor of an end calls `stop_notifier` from a thread of its own, and
waits until the communication thread has hung up. The request is the flag
`descendants_notified`, and it is one of the session variables that
`read_hook` overwrites as a whole when a poweron symbol is processed.

`stopping` is the pool of the two threads of one end; the peer is what the
environment puts on the wire. The request stays where it is exactly as long as
no poweron symbol is processed (`stop_request_kept`), and the peer's first
symbol is one (`stop_request_lost`).
-/

namespace SOS

open Interleaving Code

variable {D : DescriptorHelper} {r : Role}

/-! ## The two threads -/

/-- The threads of an end that is destructed. -/
inductive Thread where
  | communication
  | destructor
  deriving DecidableEq, Repr

instance : Fintype Thread where
  elems := {.communication, .destructor}
  complete t := by cases t <;> decide

/-- The private state of each: the destructor only knows whether
`stop_notifier` has returned. -/
abbrev Thread.Private : Thread → Type
  | .communication => Endpoint
  | .destructor => Bool

/-- The destructors: `~FPGA` calls `stop_notifier` before it waits, `~MCU` only
waits. -/
def destroy (r : Role) : Code Bool ErrorCode Op.Answer Unit := do
  match r with
  | .fpga => stopNotifier
  | .mcu => pure ()
  change fun _ => true

/-- **The pool of the two threads of an end.** -/
def stopping (D : DescriptorHelper) (r : Role) :
    Pool Thread Thread.Private ErrorCode Op.Answer World where
  exec _ o w := World.exec r o.access w
  loop
    | .communication, s => (eventLoop D r).run s
    | .destructor, false => (destroy r).run false
    | .destructor, true => .ret true ()

/-- Both processes have been started, and the end is to be destructed. -/
def stopping.start (D : DescriptorHelper) (r : Role) (obj : Role → ℕ → ℕ → Byte) :
    (stopping D r).State where
  world := World.start obj
  thread
    | .communication => .ret {} ()
    | .destructor => .ret false ()

/-- The flag is private to the end: nothing else writes it. -/
def FlagIntact (σ : (stopping D r).State) (w : World) : Prop :=
  (w.board r).notified = (σ.world.board r).notified

/-- **No poweron symbol is processed** while the stop request is set: where
`read_hook` is about to overwrite the session variables, it is not. -/
def NoLatePoweron (σ : (stopping D r).State) : Prop :=
  ∀ s k, σ.thread .communication = .op s ⟨.readHook, .storeNotified false⟩ k →
    (σ.world.board r).notified = false

/-! ## Who writes the flag -/

/-- What the two threads assert: only `read_hook` takes the request back. -/
def stoppingOutline (D : DescriptorHelper) (r : Role) : (stopping D r).Outline Unit where
  follows _ _ := True
  step _ _ _ _ _ _ := True
  node
    | .communication, s, o, _ => (o.access = .storeNotified false → o.site = .readHook)
        ∧ (o.access = .handshake → AtRest D s)
    | .destructor, _, o, _ => o.access ≠ .storeNotified false
  rest
    | .communication, s, _ => AtRest D s
    | .destructor, _, _ => True
  error _ _ _ _ := True
  rely _ _ _ _ := True
  refl _ _ _ := trivial
  trans _ _ _ _ _ _ _ := trivial
  node_stable _ _ _ _ _ _ h := h
  rest_stable _ _ _ _ _ h := h

/-- The communication thread asserts nothing else. -/
theorem stoppingGuard (D : DescriptorHelper) (r : Role) :
    Guard D True (fun _ => True) (fun _ _ _ => True) (fun _ => True)
      ((stoppingOutline D r).rules .communication) (fun _ _ => True) :=
  Guard.steady (fun _ _ _ _ _ => trivial)
    (fun _ _ _ ho _ => ⟨⟨ho.reset, fun hf => absurd hf ho.notTake⟩, fun _ _ _ => trivial⟩)
    (fun _ _ _ _ _ _ => trivial) (fun _ _ _ _ => trivial)

/-- `stop_notifier` only sets the flag. -/
theorem stopNotifier_sets {s : Bool} {Q : Bool → Unit → Unit → Prop} (hQ : Q s () ()) :
    (stopNotifier.run s).Safe ((stoppingOutline D r).rules .destructor) Q () := by
  rw [stopNotifier, run_bind, Prog.safe_bind]
  refine emitInterrupted_keeps (Ψ := fun _ => True) (fun o h ho _ => ?_) trivial fun _ _ => ?_
  · cases ho <;> exact ⟨(fun hf => by cases hf), fun _ _ _ => trivial⟩
  · exact ⟨(fun hf => by cases hf), fun _ _ _ => hQ⟩

theorem stoppingOutline_keeps (hD : D.Triples) {env : (stopping D r).State → World → Prop}
    {ok : (stopping D r).State → (stopping D r).State → Prop} {obj : Role → ℕ → ℕ → Byte}
    {σ : (stopping D r).State}
    (hσ : (stopping D r).Reaches env ok (stopping.start D r obj) σ) :
    (stoppingOutline D r).Keeps σ () := by
  have hloop : ∀ t s, (stoppingOutline D r).rest t s () →
      (stoppingOutline D r).Safe t ((stopping D r).loop t s) () := by
    intro t s hs
    cases t with
    | communication =>
      exact eventLoop_safe hD hs (fun _ => hs) (fun _ => ⟨by simp, fun _ => hs⟩)
        fun _ b _ _ => ⟨_, _, _, _, _, stoppingGuard D r, trivial, fun _ _ _ => trivial,
          fun _ _ _ _ => trivial, fun _ _ => trivial, fun s' _ hc _ =>
          ⟨⟨by simp, fun hf => by cases hf⟩, fun _ _ _ => (hs.take b).cycled hD hc⟩⟩
    | destructor =>
      cases s with
      | true => trivial
      | false =>
        cases r with
        | fpga => exact (Prog.safe_bind _ _ _).mpr (stopNotifier_sets trivial)
        | mcu => trivial
  obtain ⟨⟨⟩, hk⟩ := Pool.Outline.sound (L := stoppingOutline D r)
    (fun _ _ _ _ _ _ _ _ _ _ _ _ => ⟨(), trivial, trivial, fun _ _ => trivial⟩)
    (fun _ _ _ _ _ _ => ⟨(), trivial, fun _ => trivial⟩) (fun t s _ => hloop t s)
    hσ ⟨(), trivial, fun t => by cases t <;> first | exact AtRest.initial | trivial⟩
  exact hk

/-! ## Whether the request is kept -/

/-- What is not a handshake and not a store leaves the flag alone, at either end. -/
theorem World.exec_notified {r r' : Role} {a : Access} {w w' : World} {x : a.Answer}
    (hx : World.exec r a w = some (x, w')) (hn : a ≠ .storeNotified false)
    (hw : (w.board r').notified = true) : (w'.board r').notified = true := by
  by_cases ht : a = .handshake
  · subst ht
    obtain ⟨-, rfl⟩ := World.exec_handshake hx
    exact hw
  by_cases hg : ∃ b, a = .handshakeAck b
  · obtain ⟨b, rfl⟩ := hg
    obtain rfl := World.exec_handshakeAck hx
    exact hw
  obtain ⟨h', hb, rfl⟩ := World.exec_board ht (fun b hb => hg ⟨b, hb⟩) hx
  by_cases hr : r' = r
  · subst hr
    rw [World.setBoard_self]
    by_cases hs : a = .storeNotified true
    · subst hs
      obtain ⟨-, rfl⟩ := Prod.mk.inj (Option.some.inj hb)
      rfl
    · rw [Board.exec_notified hb fun b => by cases b <;> assumption]
      exact hw
  · rw [World.setBoard_of_ne _ hr]
    exact hw

/-- **A stop request is kept** as long as no poweron symbol is processed while
it is set. -/
theorem stop_request_kept (hD : D.Triples) (obj : Role → ℕ → ℕ → Byte)
    {σ σ' : (stopping D r).State}
    (hσ : (stopping D r).Reaches FlagIntact (fun σ _ => NoLatePoweron σ)
      (stopping.start D r obj) σ)
    (hn : (σ.world.board r).notified = true)
    (hσ' : (stopping D r).Reaches FlagIntact (fun σ _ => NoLatePoweron σ) σ σ') :
    (σ'.world.board r).notified = true := by
  -- the outline is kept all along, so that the flag may be followed step by step
  induction hσ' with
  | refl => exact hn
  | @tail σ₁ σ₂ hr hs ih =>
    have hk := stoppingOutline_keeps hD (Relation.ReflTransGen.trans hσ hr)
    obtain ⟨hstep, hlate⟩ := hs
    cases hstep with
    | loop => exact ih
    | env _ change => exact change.trans ih
    | @op t s o k a w _ node exec =>
      refine World.exec_notified exec (fun ho => ?_) ih
      obtain ⟨site, acc⟩ := o
      obtain rfl : acc = .storeNotified false := ho
      cases t with
      | communication =>
        obtain rfl : site = .readHook := (hk.node node).1 rfl
        exact absurd (ih.symm.trans (hlate s k node)) (by decide)
      | destructor => exact hk.node node rfl

/-! ## Schedules -/

/-- Whether the communication thread is about to overwrite the session variables
while the request is set, as a test. -/
def latePoweron (σ : (stopping D r).State) : Bool :=
  match σ.thread .communication with
  | .op _ o _ => o = ⟨.readHook, .storeNotified false⟩ && (σ.world.board r).notified
  | _ => false

theorem latePoweron_spec {σ : (stopping D r).State} (h : latePoweron σ = false) :
    NoLatePoweron σ := fun s k hk => by
  have hl : latePoweron σ = (σ.world.board r).notified := by
    rw [latePoweron, hk]
    exact Bool.true_and _
  exact hl.symm.trans h

/-- Replays of the two threads, the peer's bytes given. -/
def stoppingScript (D : DescriptorHelper) (r : Role) (check : (stopping D r).State → Bool) :
    (stopping D r).Script Byte where
  act b w := { w with wire := some (r, b) }
  may _ _ := true
  check := check

/-- The FPGA before anything happens. -/
def stopping.fpga : (stopping twoObjects .fpga).State :=
  stopping.start twoObjects .fpga fun _ _ _ => 0

/-- A cycle of the FPGA, which hears a byte. -/
def hearing (b : Byte) : List (Pool.Entry Thread Byte) := [.act b, .go .communication 100]

/-- The request is made after the second cycle, and the peer is idle. -/
theorem stop_request_kept_late : ∃ σ σ' : (stopping twoObjects .fpga).State,
    (stopping twoObjects .fpga).Reaches FlagIntact (fun σ _ => NoLatePoweron σ) stopping.fpga σ
    ∧ (stopping twoObjects .fpga).Reaches FlagIntact (fun σ _ => NoLatePoweron σ) σ σ'
    ∧ (σ'.world.board .fpga).notified = true := by
  let X := stoppingScript twoObjects .fpga fun σ => !latePoweron σ
  have hact : ∀ b σ, X.may b σ = true → FlagIntact σ (X.act b σ.world) := fun _ _ _ => rfl
  have hok : ∀ σ (_ : (stopping twoObjects .fpga).State), X.check σ = true → NoLatePoweron σ :=
    fun σ _ hc => latePoweron_spec (by simpa [X, stoppingScript] using hc)
  obtain ⟨σ, hσ, hp⟩ := Pool.Script.exists_of_replay _ _ X
    (hearing 0 ++ hearing 0xBE ++ [.go .destructor 60]) stopping.fpga
    (fun σ => (σ.world.board .fpga).notified && (X.replay (hearing 0xBB) σ).isSome) hact hok
    (by decide +kernel)
  rw [Bool.and_eq_true] at hp
  obtain ⟨σ', hl⟩ := Option.isSome_iff_exists.mp hp.2
  have hσ' := Pool.Script.replay_reaches hact hok .refl hl
  exact ⟨σ, σ', hσ, hσ', stop_request_kept twoObjects_triples _ hσ hp.1 hσ'⟩

/-- **A stop request may be lost**: it is made between the first cycle and the
second, which processes the peer's poweron symbol. The destructor then waits for
a shutdown that is never announced. -/
theorem stop_request_lost : ∃ σ σ' : (stopping twoObjects .fpga).State,
    (stopping twoObjects .fpga).Reaches FlagIntact (fun _ _ => True) stopping.fpga σ
    ∧ (σ.world.board .fpga).notified = true
    ∧ (stopping twoObjects .fpga).Reaches FlagIntact (fun _ _ => True) σ σ'
    ∧ (σ'.world.board .fpga).notified = false := by
  let X := stoppingScript twoObjects .fpga fun _ => true
  have hact : ∀ b σ, X.may b σ = true → FlagIntact σ (X.act b σ.world) := fun _ _ _ => rfl
  obtain ⟨σ, hσ, hp⟩ := Pool.Script.exists_of_replay _ _ X
    (hearing 0 ++ [.go .destructor 60]) stopping.fpga
    (fun σ => (σ.world.board .fpga).notified
      && ((X.replay (hearing 0xBE) σ).map fun σ' => (σ'.world.board .fpga).notified) == some false)
    hact (fun _ _ _ => trivial) (by decide +kernel)
  simp only [Bool.and_eq_true, beq_iff_eq] at hp
  obtain ⟨σ', hl, hn⟩ := Option.map_eq_some_iff.mp hp.2
  exact ⟨σ, σ', hσ, hp.1, Pool.Script.replay_reaches hact (fun _ _ _ => trivial) .refl hl, hn⟩

end SOS
