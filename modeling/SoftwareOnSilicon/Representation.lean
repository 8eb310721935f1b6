import SoftwareOnSilicon.Cycle
import SoftwareOnSilicon.Schedule

/-!
# The representation invariant, against any peer

An endpoint keeps its invariant whatever it is sent and whatever happens to
its board. So the environment here may change everything at any moment: the
bytes on the wire, the flags, the objects. The other end is only one of the
things that may happen.

The invariant itself is `AtRest`; `Represented` is what it says of the locks,
the positions and the doubled counters. Its consequences are that no access is
outside of an object and that the defensive checks of the code are dead.
-/

namespace SOS

open Interleaving

variable {D : DescriptorHelper} {r : Role} {s : Endpoint}

/-- **What the locks, positions and counters say of one another.** -/
structure Represented (D : DescriptorHelper) (s : Endpoint) : Prop where
  exclusive : ∀ j, ¬ (s.transfer j = true ∧ s.readLock j = true)
  receiving : s.receiveLock = true → s.readLock s.readDestination = true
    ∧ s.readDestination < D.count ∧ 3 ∣ s.readDestinationPos
    ∧ s.readDestinationPos < D.objSize s.readDestination
  notReceiving : s.receiveLock = false → s.readDestinationPos = 0 ∧ s.readCount = 0
  sending : s.sendLock = true → s.transfer s.writeOrigin = true
    ∧ s.writeOriginPos ≤ D.objSize s.writeOrigin
  notSending : s.sendLock = false → s.writeOriginPos = 0
  readCount : s.readCount = s.read4minus1
  writeCount : s.writeCount = s.write3plus1

theorem Session.represented (hD : D.Triples) (h : Session D s) : Represented D s where
  exclusive j hj := absurd ((h.exclusive j hj.1).symm.trans hj.2) (by decide)
  receiving := h.receiving
  notReceiving hl := ⟨(h.notReceiving hl).1, (h.notReceiving hl).2.1⟩
  sending hl := by
    obtain ⟨-, g, hpos, hg⟩ := h.sending hl
    obtain ⟨htr, hlt⟩ := h.origin hl
    have hsize := (hD _ hlt).2
    have hcount := h.writeCount_eq
    have hle := h.writeCount_le
    exact ⟨htr, by omega⟩
  notSending hl := (h.notSending hl).1
  readCount := h.readCount_eq
  writeCount := h.writeCount_eq

/-- The checks that never fail. -/
def DefensiveCheck (e : ErrorCode) : Prop :=
  e ∈ [.previousReadobjectHasNotFinished, .previousObjectWriteHasNotBeenCompleted,
    .foundATransferObjectWhichIsReadlocked, .receivedATransferAcknowledgeOnReadlockedObject,
    .receivedADuplicateTransferAcknowledgeOnObjectInTransfer, .readlockPredatesAcknowledge,
    .bitsetDoesNotFitIntoChararray, .invalidDMAObjectId]

/-- None of them is among the errors of a cycle. -/
theorem CycleFault.not_defensive {allow : Answers} {e : ErrorCode}
    (h : CycleFault allow D s e) : ¬ DefensiveCheck e := by
  have hcode : ∀ e', e = e' → e' ∉ [ErrorCode.previousReadobjectHasNotFinished,
      .previousObjectWriteHasNotBeenCompleted, .foundATransferObjectWhichIsReadlocked,
      .receivedATransferAcknowledgeOnReadlockedObject,
      .receivedADuplicateTransferAcknowledgeOnObjectInTransfer,
      .readlockPredatesAcknowledge, .bitsetDoesNotFitIntoChararray,
      .invalidDMAObjectId] → ¬ DefensiveCheck e := by
    rintro _ rfl hn
    exact hn
  cases h with
  | receive _ fault =>
    cases fault with
    | hook _ h => cases h <;> exact hcode _ rfl (by decide)
    | object _ h => cases h; exact hcode _ rfl (by decide)
    | approve _ h => cases h <;> exact hcode _ rfl (by decide)
    | acknowledge _ _ h => cases h <;> exact hcode _ rfl (by decide)
  | emit _ fault => cases fault; exact hcode _ rfl (by decide)

/-! ## Under any interference -/

/-- Nothing is followed, and nothing relied on. -/
def anyOutline (D : DescriptorHelper) : (link D).Outline Unit where
  follows _ _ := True
  step _ _ _ _ _ _ := True
  node _ s o _ := o.access.Inside D s ∧ (o.access = .handshake → AtRest D s)
  rest _ s _ := AtRest D s
  error _ _ e _ := ¬ DefensiveCheck e
  rely _ _ _ _ := True
  refl _ _ _ := trivial
  trans _ _ _ _ _ _ _ := trivial
  node_stable _ _ _ _ _ _ h := h
  rest_stable _ _ _ _ _ h := h

/-- **The weakest guard**: it asserts nothing. -/
theorem anyGuard (D : DescriptorHelper) (r : Role) :
    Guard D True (fun _ => True) (fun _ _ _ => True) (fun e => ¬ DefensiveCheck e)
      ((anyOutline D).rules r) (fun _ _ => True) :=
  Guard.steady (fun _ _ _ he _ => he)
    (fun _ _ _ ho _ => ⟨⟨ho.inside, fun hf => absurd hf ho.notTake⟩, fun _ _ _ => trivial⟩)
    (fun _ _ _ _ _ _ => trivial) (fun _ _ _ _ => trivial)

theorem anyOutline_keeps (hD : D.Triples) {env : (link D).State → World → Prop}
    {ok : (link D).State → (link D).State → Prop} {obj : Role → ℕ → ℕ → Byte}
    {σ : (link D).State} (hσ : (link D).Reaches env ok (link.start D obj) σ) :
    (anyOutline D).Keeps σ () := by
  obtain ⟨⟨⟩, hk⟩ := Pool.Outline.sound (L := anyOutline D)
    (fun _ _ _ _ _ _ _ _ _ _ _ _ => ⟨(), trivial, trivial, fun _ _ => trivial⟩)
    (fun _ _ _ _ _ _ => ⟨(), trivial, fun _ => trivial⟩)
    (fun r s _ hs => eventLoop_safe hD hs (fun _ => hs) (fun _ => ⟨trivial, fun _ => hs⟩)
      fun _ b _ _ => ⟨_, _, _, _, _, anyGuard D r, trivial, fun _ _ _ => trivial,
        fun _ _ _ _ => trivial, fun _ he => he.not_defensive, fun s' _ hc _ =>
        ⟨⟨trivial, fun hf => by cases hf⟩, fun _ _ _ => (hs.take b).cycled hD hc⟩⟩)
    hσ ⟨(), trivial, fun _ => .initial⟩
  exact hk

/-- Between two cycles the invariant holds. -/
theorem anyOutline_atRest {σ : (link D).State} (hk : (anyOutline D).Keeps σ ())
    (hs : Between (σ.thread r) s) : AtRest D s := by
  obtain hs | ⟨site, k, hs⟩ := hs
  · exact hk.rest hs
  · exact (hk.node hs).2 rfl

/-- **The representation invariant holds against any peer**: whatever bytes
arrive and whatever happens to the board, between two cycles the members of an
endpoint fit together, every access to an object is inside of it, and no
defensive check fails. -/
theorem representation_invariant (hD : D.Triples) (obj : Role → ℕ → ℕ → Byte)
    {σ : (link D).State}
    (hσ : (link D).Reaches (fun _ _ => True) (fun _ _ => True) (link.start D obj) σ)
    (r : Role) :
    (∀ s, Between (σ.thread r) s → Represented D s)
    ∧ (∀ s site j i k, σ.thread r = .op s ⟨site, .load j i⟩ k →
        j < D.count ∧ i < D.objSize j)
    ∧ (∀ s site j i b k, σ.thread r = .op s ⟨site, .store j i b⟩ k →
        j < D.count ∧ i < D.objSize j)
    ∧ ∀ s e, σ.thread r = .fail s e → ¬ DefensiveCheck e := by
  have hk := anyOutline_keeps hD hσ
  refine ⟨fun s hs => ?_, fun s site j i k hs => ?_, fun s site j i b k hs => ?_,
    fun s e hs => hk.error hs⟩
  · exact (anyOutline_atRest hk hs).toSession.represented hD
  · obtain ⟨-, hj, hi, -⟩ := (hk.node hs).1
    exact ⟨hj, hi⟩
  · obtain ⟨-, hj, hi, -⟩ := (hk.node hs).1
    exact ⟨hj, hi⟩

/-- A run in which an endpoint is in the middle of a receive. -/
theorem representation_invariant_two : ∃ σ, (link twoObjects).Reaches (fun _ _ => True)
      (fun _ _ => True) twoObjects.start σ
    ∧ ∃ s, Between (σ.thread .mcu) s ∧ s.receiveLock = true ∧ Represented twoObjects s := by
  obtain ⟨σ, hσ, hp⟩ := Pool.Script.exists_of_replay (fun _ _ => True) (fun _ _ => True)
    (script twoObjects (fun _ _ => true) fun _ => true)
    (.act (.writeRequest .fpga 0) :: rounds 4) twoObjects.start
    (fun σ => between (σ.thread .mcu) && (σ.thread .mcu).state.receiveLock)
    (fun _ _ _ => trivial) (fun _ _ _ => trivial) (by decide +kernel)
  rw [Bool.and_eq_true] at hp
  have hbetween := between_spec hp.1
  have hinv := representation_invariant twoObjects_triples (fun _ _ _ => 0) hσ .mcu
  exact ⟨σ, hσ, _, hbetween, hp.2, hinv.1 _ hbetween⟩

end SOS
