import SoftwareOnSilicon.Alternation
import SoftwareOnSilicon.Schedule

/-!
# The two endpoints agree

What the outline of the two ends says of every run of the link. While a byte
is under way both ends are between two cycles, and the byte is accounted for
(`Accounted`): what one end transfers the other has locked, the object that is
emitted is the one that is assembled, and what has been stored is what has been
fetched.
-/

namespace SOS

open Interleaving

variable {D : DescriptorHelper} {r : Role} {stop apart : Prop} {A B : Endpoint} {b : Byte}

/-- **With nothing under way but an acknowledge**: `B` has heard what `A` has
emitted. -/
structure Matched (A B : Endpoint) : Prop where
  forth : ∀ j, B.readLock j = true ↔ A.transfer j = true ∨ A.awaits j = true
  back : ∀ j, A.readLock j = true ↔ B.transfer j = true
  received : B.history.received = A.history.sent
  sent : A.history.received = B.history.sent

theorem Settled.matched (h : Settled D A B) : Matched A B where
  forth j := by rw [h.agree.forth.locks j, Bool.or_eq_true]
  back j := by rw [h.agree.back.locks j]; simp [Endpoint.awaits, h.heard]
  received := h.agree.forth.sent
  sent := h.agree.back.sent

theorem Flying.matched {B' : Endpoint} (h : Flying D r A B)
    (hh : Heard D { B with comIn := A.comOut } B') : Matched A B' := by
  cases hh with
  | first hb => exact ((h.first hb).1.load _).matched
  | byte hb received => exact ((h.hears hb _).2 B' received).matched

/-- **While a byte is under way** both ends are between two cycles. -/
theorem turnsOutline_flying {σ : (link D).State} {h : Turns}
    (hk : (turnsOutline D stop apart).Keeps σ h) (hw : σ.world.wire = some (r, b)) :
    ∃ A B, Between (σ.thread r.peer) A ∧ Between (σ.thread r) B ∧ b = A.comOut
      ∧ Flying D r.peer A B ∧ Plain A ∧ Plain B := by
  have hf : h.Follows stop apart σ.world := hk.1
  obtain ⟨b', hbyte, heq⟩ := Option.map_eq_some_iff.mp (hf.wire.symm.trans hw)
  obtain ⟨rfl, rfl⟩ := Prod.mk.inj heq
  have hidle : ∀ r, ¬ h.Busy r := fun r hb => absurd (hbyte.symm.trans hb.2) (by simp)
  obtain ⟨hB, hv⟩ := turnsOutline_state hk (hidle h.turn)
  obtain ⟨hb, hfly⟩ := hv.flying b' hbyte
  exact ⟨_, _, (turnsOutline_state hk (hidle h.turn.peer)).1, hB, hb, hfly, hv.plain _,
    hv.plain _⟩

/-- **No communication loop fails** where write requests do not overlap. -/
theorem turnsOutline_up {σ : (link D).State} {h : Turns}
    (hk : (turnsOutline D stop True).Keeps σ h) : σ.Up := fun _ _ _ hf =>
  (hk.error hf).2.1 trivial

/-- **The two endpoints agree**, whatever is requested at either end. Whenever
a byte is under way, it is accounted for, and when it has been heard the two
ends match. If the write requests of one object do not overlap, neither
communication loop fails. -/
theorem endpoints_agree (hD : D.Triples) (obj : Role → ℕ → ℕ → Byte) :
    (∀ σ, (link D).Reaches (fun σ w => LineIntact σ w ∧ NoStop σ w) (fun _ _ => True)
        (link.start D obj) σ →
      ∀ r b, σ.world.wire = some (r, b) → ∃ A B, Between (σ.thread r.peer) A
        ∧ Between (σ.thread r) B ∧ b = A.comOut ∧ Accounted D A B
        ∧ ∀ B', Heard D { B with comIn := b } B' → Matched A B')
    ∧ ∀ σ, (link D).Reaches (fun σ w => LineIntact σ w ∧ NoStop σ w ∧ Apart σ w)
        (fun _ _ => True) (link.start D obj) σ → σ.Up := by
  refine ⟨fun σ hσ r b hw => ?_, fun σ hσ => ?_⟩
  · obtain ⟨h, hk⟩ := turnsOutline_keeps False False hD
      (fun σ w he => ⟨he.1, fun _ => he.2, False.elim⟩) (fun hs => hs.elim) hσ
    obtain ⟨A, B, hA, hB, rfl, hfly, -⟩ := turnsOutline_flying hk hw
    exact ⟨A, B, hA, hB, rfl, hfly.accounted, fun B' hh => hfly.matched hh⟩
  · obtain ⟨h, hk⟩ := turnsOutline_keeps False True hD
      (fun σ w he => ⟨he.1, fun _ => he.2.1, fun _ => he.2.2⟩) (fun hs => hs.elim) hσ
    exact turnsOutline_up hk

/-! ## Schedules -/

namespace Event

/-- Whether it is no stop request. -/
def quiet : Event → Bool
  | .writeRequest _ _ => true
  | .stopRequest _ => false

/-- Whether the thread is in the middle of a `check_sync` of an object. -/
def peeking (p : Prog Endpoint ErrorCode Op.Answer Unit) (j : ℕ) : Bool :=
  match p with
  | .op _ o _ => o.peeks == some j
  | _ => false

/-- Whether a write request does not overlap with one of the other end. -/
def disjoint : Event → (link D).State → Bool
  | .writeRequest r j, σ => (σ.world.board r.peer).flag (.syncMe j)
      && !peeking (σ.thread r.peer) j && !(σ.thread r).state.readLock j
  | .stopRequest _, _ => true

theorem lineIntact (v : Event) (σ : (link D).State) : LineIntact σ (v.act σ.world) := by
  cases v <;> rfl

theorem noStop {v : Event} {σ : (link D).State} (hv : v.quiet = true) :
    NoStop σ (v.act σ.world) := by
  cases v with
  | stopRequest => cases hv
  | writeRequest r j =>
    intro r' hr'
    by_cases hr : r' = r
    · subst hr
      simpa [act, Board.setFlag] using hr'
    · simpa [act, World.setBoard_of_ne _ hr] using hr'

theorem apart_of_disjoint {v : Event} {σ : (link D).State} (hv : v.disjoint σ = true) :
    Apart σ (v.act σ.world) := by
  cases v with
  | stopRequest r =>
    exact ⟨fun r' i hf => stopRequest_flag.trans hf, fun r' i hf hf' =>
      absurd (hf.symm.trans (stopRequest_flag.symm.trans hf')) (by decide)⟩
  | writeRequest r j =>
    simp only [disjoint, Bool.and_eq_true, Bool.not_eq_true'] at hv
    obtain ⟨⟨hpeer, hpeek⟩, hlock⟩ := hv
    refine ⟨fun r' i hf => ?_, fun r' i hf hf' => ?_⟩
    · rw [writeRequest_flag]
      split <;> simp [hf]
    · rw [writeRequest_flag] at hf'
      split at hf'
      case isTrue h =>
        obtain ⟨rfl, rfl⟩ := h
        refine ⟨?_, ?_, hlock⟩
        · rw [writeRequest_flag, if_neg (by cases r' <;> simp [Role.peer])]
          exact hpeer
        · rintro ⟨s, site, k, hp⟩
          rw [hp] at hpeek
          simp [peeking, Op.peeks] at hpeek
      case isFalse => exact absurd (hf.symm.trans hf') (by decide)

end Event

/-- Replays with write requests that do not overlap, and no stop request. -/
def quietScript (D : DescriptorHelper) : (link D).Script Event :=
  script D (fun v σ => v.quiet && v.disjoint σ) fun _ => true

theorem quietScript_may (v : Event) (σ : (link D).State)
    (hv : (quietScript D).may v σ = true) :
    LineIntact σ (v.act σ.world) ∧ NoStop σ (v.act σ.world) ∧ Apart σ (v.act σ.world) := by
  have hv' : (v.quiet && v.disjoint σ) = true := hv
  rw [Bool.and_eq_true] at hv'
  exact ⟨v.lineIntact σ, Event.noStop hv'.1, Event.apart_of_disjoint hv'.2⟩

/-- Objects whose bytes tell the objects apart. -/
def distinctBytes : Role → ℕ → ℕ → Byte := fun _ j k => BitVec.ofNat 8 (3 * j + k + 7)

/-- A run in which both ends have received an object from the other, and one of
the two is on its way back. -/
theorem endpoints_agree_two : ∃ σ, (link twoObjects).Reaches
      (fun σ w => LineIntact σ w ∧ NoStop σ w ∧ Apart σ w) (fun _ _ => True)
      (link.start twoObjects distinctBytes) σ ∧ σ.Up
    ∧ ∃ A B, Between (σ.thread .fpga) A ∧ Between (σ.thread .mcu) B
      ∧ A.history.received = [(1, [0x0A, 0x0B, 0x0C])]
      ∧ B.history.received = [(0, [0x07, 0x08, 0x09])]
      ∧ B.sendLock = true ∧ Accounted twoObjects A B := by
  obtain ⟨σ, hσ, hp⟩ := Pool.Script.exists_of_replay
    (fun σ w => LineIntact σ w ∧ NoStop σ w ∧ Apart σ w) (fun _ _ => True)
    (quietScript twoObjects)
    (.act (.writeRequest .fpga 0) :: .act (.writeRequest .mcu 1) :: (rounds 6
      ++ .act (.writeRequest .mcu 0) :: (rounds 3 ++ [.go .fpga 1000])))
    (link.start twoObjects distinctBytes)
    (fun σ => σ.world.wire == some (.mcu, 0xBB)
      && (σ.thread .fpga).state.history.received == [(1, [0x0A, 0x0B, 0x0C])]
      && (σ.thread .mcu).state.history.received == [(0, [0x07, 0x08, 0x09])]
      && (σ.thread .mcu).state.sendLock)
    quietScript_may (fun _ _ _ => trivial) (by decide +kernel)
  obtain ⟨hagree, hup⟩ := endpoints_agree twoObjects_triples distinctBytes
  simp only [Bool.and_eq_true, beq_iff_eq] at hp
  obtain ⟨A, B, hA, hB, -, haccounted, -⟩ :=
    hagree σ (hσ.mono (fun _ _ h => ⟨h.1, h.2.1⟩) fun _ _ h => h) .mcu 0xBB hp.1.1.1
  exact ⟨σ, hσ, hup σ hσ, A, B, hA, hB, hA.state ▸ hp.1.1.2, hB.state ▸ hp.1.2,
    hB.state ▸ hp.2, haccounted⟩

end SOS
