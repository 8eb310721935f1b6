import SoftwareOnSilicon.Representation
import SoftwareOnSilicon.Upkeep

/-!
# The objects that are locked

`transfer_hook` takes a readlock for any id that a byte can ask for, and `read_object`,
`reads_pending` and all other loops look at the ids of the table. So an object that does not
exist is locked and acknowledged if it is asked for (`undescribed_locked`), and nothing
receives it or releases the lock.

What is locked is in the table as long as the requests that are taken are for objects of the
table (`locks_described`). This is about one end, whatever happens to its board and whatever
else arrives, and for tables of any sizes.
-/

namespace SOS

open Interleaving Code

variable {D : DescriptorHelper} {r : Role} {s : Endpoint} {b : Byte} {j : ℕ}

/-- A byte asks for a transfer of an object. -/
structure AsksFor (b : Byte) (j : ℕ) : Prop where
  request : b.getLsbD 7 = true
  code : ∀ st ∈ [State.poweron, .idle, .shutdown, .sighup], stateCode b ≠ st.code
  id : receiveTransferRequest (stateCode b) = j

/-- **An end that takes a byte is asked for an object of the table**, if the byte is taken for
such a request: it is not in the first cycle, nor after the sighup of the peer. -/
def AskedInside (D : DescriptorHelper) (s : Endpoint) (b : Byte) : Prop :=
  s.firstRun = false → s.vars.receivedSighup = false → ∀ j, AsksFor b j → j < numIds → j < D.count

/-- **What is locked is in the table.** -/
structure Inside (D : DescriptorHelper) (s : Endpoint) : Prop where
  locks : ∀ j, s.readLock j = true → j < D.count
  request : s.incomingRequest < numIds → s.incomingRequest < D.count
  acknowledge : s.peerAcknowledge = true → s.incomingRequest < D.count

namespace Inside

/-- A lock is released. -/
theorem unlock (hs : Inside D s) : Inside D { s with
    readLock := Function.update s.readLock s.readDestination false
    receiveLock := false } where
  locks j hj := by
    by_cases hd : j = s.readDestination
    · rw [hd] at hj
      exact absurd ((Function.update_self ..).symm.trans hj) (by decide)
    · exact hs.locks j ((Function.update_of_ne hd ..).symm.trans hj)
  request := hs.request
  acknowledge := hs.acknowledge

/-- A lock is taken. -/
theorem lock (hs : Inside D s) (hlt : s.incomingRequest < D.count) : Inside D
    { s with readLock := Function.update s.readLock s.incomingRequest true }.sendAcknowledge where
  locks j hj := by
    by_cases hr : j = s.incomingRequest
    · exact hr ▸ hlt
    · exact hs.locks j ((Function.update_of_ne hr ..).symm.trans hj)
  request := hs.request
  acknowledge _ := hlt

/-- The signal bits are read. -/
theorem receiveBits (hs : Inside D s) (data : Byte) : Inside D (s.receiveBits data) where
  locks := hs.locks
  request hlt := absurd hlt (lt_irrefl numIds)
  acknowledge hf := by cases hf

/-- **A cycle** locks an object of the table, if it locks one. -/
theorem upkeep {H : Type} {ρ : Rules Endpoint ErrorCode Op.Answer H}
    (herror : ∀ s e h, Inside D s → ρ.error s e h) (hnode : ∀ s o h, Inside D s → ρ.node s o h)
    (hasked : AskedInside D s s.comIn) : Upkeep ρ (fun _ s _ => Inside D s) s where
  error _ := herror
  untouched _ s s' _ hu hs := by
    obtain ⟨hlock, hrequest, hack⟩ := hu
    refine ⟨?_, ?_, ?_⟩
    · rw [hlock]
      exact hs.locks
    · rw [hrequest]
      exact hs.request
    · rw [hack, hrequest]
      exact hs.acknowledge
  plain _ s o h _ hs := ⟨hnode s o h hs, fun _ _ _ => hs⟩
  acquire _ s h hs := ⟨hnode s _ h hs, fun _ _ _ => hs⟩
  release _ s h hs := ⟨hnode s _ h hs, fun _ _ _ => hs⟩
  store _ _ _ s h hs := ⟨hnode s _ h hs, fun _ _ _ => hs⟩
  interrupted _ s h hs := ⟨hnode s _ h hs, fun _ h' _ => ⟨hnode s _ h' hs, fun _ _ _ => hs⟩⟩
  bits data _ _ hs := hs.receiveBits data
  request _ hfirst hsighup request hcode hs :=
    { locks := hs.locks
      request := hasked hfirst hsighup _ ⟨request, hcode, rfl⟩
      acknowledge := fun hf => by cases hf }
  lock _ _ lt hs := hs.lock (hs.request lt)
  unlock _ _ hs := hs.unlock

end Inside

/-! ## Described objects -/

/-- What an end knows of the byte it takes. -/
def Asked (D : DescriptorHelper) (s : Endpoint) : (o : Op) → o.Answer → Prop
  | ⟨_, .handshake⟩, b => AskedInside D s b
  | _, _ => True

/-- **The outline of one end**: it asserts that what is locked is in the table. -/
def insideOutline (D : DescriptorHelper) (r : Role) : (link D).Outline Unit where
  follows _ _ := True
  step i s o a _ _ := i = r → Asked D s o a
  node i s _ _ := i = r → Inside D s
  rest i s _ := i = r → Inside D s
  error i s _ _ := i = r → Inside D s
  rely _ _ _ _ := True
  refl _ _ _ := trivial
  trans _ _ _ _ _ _ _ := trivial
  node_stable _ _ _ _ _ _ h := h
  rest_stable _ _ _ _ _ h := h

/-- **A step that takes a byte** takes no request for an object that does not exist. -/
def TakesAsked (D : DescriptorHelper) (r : Role) (σ σ' : (link D).State) : Prop :=
  ∀ s site k b, σ.thread r = .op s ⟨site, .handshake⟩ k → σ.world.wire = some (r, b) →
    σ'.thread r = k b → AskedInside D s b

/-- **Only described objects are locked**, and what follows from it: `reads_pending` sees every
lock, `read_object` has a destination as long as there is one, and what is acknowledged exists
here. -/
structure LocksDescribed (D : DescriptorHelper) (s : Endpoint) : Prop where
  described : ∀ j, s.readLock j = true → j < D.count
  pending : (∃ j, s.readLock j = true) → s.readsPending D = true
  destination : (∃ j, s.readLock j = true) → ∃ i, D.ids.find? s.readLock = some i
  acknowledged : s.peerAcknowledge = true → s.incomingRequest < D.count

theorem Inside.locksDescribed (hs : Inside D s) : LocksDescribed D s where
  described := hs.locks
  pending := by
    rintro ⟨j, hj⟩
    exact List.any_eq_true.mpr ⟨j, DescriptorHelper.mem_ids.mpr (hs.locks j hj), hj⟩
  destination := by
    rintro ⟨j, hj⟩
    refine Option.isSome_iff_exists.mp (List.find?_isSome.mpr ⟨j, ?_, hj⟩)
    exact DescriptorHelper.mem_ids.mpr (hs.locks j hj)
  acknowledged := hs.acknowledge

theorem Inside.initial : Inside D {} where
  locks _ hf := by cases hf
  request hf := absurd hf (lt_irrefl numIds)
  acknowledge hf := by cases hf

/-- An `event_loop` of the end. -/
theorem insideOutline_safe (hs : Inside D s) :
    (insideOutline D r).Safe r ((eventLoop D r).run s) () := by
  simp only [Pool.Outline.Safe, eventLoop, run_bind, run_look, Prog.safe_bind, Prog.safe_ret]
  split
  case isFalse => exact fun _ => hs
  case isTrue =>
    simp only [run_bind, Prog.safe_bind]
    refine ⟨fun _ => hs, ?_⟩
    rintro b ⟨⟩ ⟨_, -, hasked⟩
    simp only [run_change, Prog.safe_ret]
    have hs' : Inside D { s with comIn := b } := { hs with }
    have hasked' : AskedInside D { s with comIn := b } b := hasked rfl
    refine ((Inside.upkeep ?_ ?_ hasked').cycle_safe hs').imp fun t _ h ht => ?_
    · exact fun _ _ _ ht _ => ht
    · exact fun _ _ _ ht _ => ht
    · exact ⟨fun _ => ht, fun _ _ _ => ⟨fun _ => ht, fun _ _ _ _ => ht⟩⟩

/-- **Only described objects are ever locked** at an end that takes no request for another one,
whatever happens to its board, whatever else arrives, and whatever the sizes are. -/
theorem locks_described (D : DescriptorHelper) (r : Role) (obj : Role → ℕ → ℕ → Byte)
    {σ : (link D).State}
    (hσ : (link D).Reaches (fun _ _ => True) (TakesAsked D r) (link.start D obj) σ) :
    LocksDescribed D (σ.thread r).state := by
  have hkeeps : ∃ h, (insideOutline D r).Keeps σ h := by
    refine Pool.Outline.sound (L := insideOutline D r) (fun σ _ i s o k a w _ node exec ok => ?_)
      (fun _ _ _ _ _ _ => ⟨(), trivial, fun _ => trivial⟩) (fun i s h hs => ?_) hσ
      ⟨(), trivial, fun i _ => .initial⟩
    · refine ⟨(), trivial, ?_, fun _ _ => trivial⟩
      rintro rfl
      obtain ⟨site, acc⟩ := o
      cases acc with
      | handshake =>
        obtain ⟨hwire, -⟩ := World.exec_handshake exec
        exact ok s site k a node hwire (Pool.State.setThread_self ..)
      | _ => trivial
    · by_cases hi : i = r
      · subst hi
        exact insideOutline_safe (hs rfl)
      · have honly := Prog.only_of_forall (P := fun _ => True) (fun _ => trivial)
          ((link D).loop i s)
        refine (honly.safe (Ψ := fun _ => True) (fun _ _ _ _ _ => ?_) ?_ trivial).imp ?_
        · exact ⟨fun hf => absurd hf hi, fun _ _ _ => trivial⟩
        · exact fun _ _ _ _ hf => absurd hf hi
        · exact fun _ _ _ _ hf => absurd hf hi
  obtain ⟨⟨⟩, hk⟩ := hkeeps
  refine Inside.locksDescribed ?_
  cases ht : σ.thread r with
  | ret s a => exact hk.rest ht rfl
  | fail s e => exact hk.error ht rfl
  | op s o k => exact hk.node ht rfl

/-! ## Schedules -/

/-- **Replays of the FPGA**, on a condition on the states a step is taken in: its peer hands over
any byte at any time. -/
def heard (D : DescriptorHelper) (check : (link D).State → Bool) : (link D).Script Byte where
  act b w := { w with wire := some (.fpga, b) }
  may _ _ := true
  check := check

/-- The byte under way asks for nothing outside of the table, as a test. -/
def asksInside (D : DescriptorHelper) (σ : (link D).State) : Bool :=
  σ.world.wire.all fun x =>
    !x.2.getLsbD 7 || decide (receiveTransferRequest (stateCode x.2) < D.count)
    || decide (numIds ≤ receiveTransferRequest (stateCode x.2))

theorem asksInside_spec {σ σ' : (link D).State} (h : asksInside D σ = true) :
    TakesAsked D r σ σ' := by
  intro s site k b _ hwire _ _ _ j hj hlt
  unfold asksInside at h
  rw [hwire, Option.all_some, hj.request, hj.id, Bool.not_true, Bool.false_or, Bool.or_eq_true,
    decide_eq_true_iff, decide_eq_true_iff] at h
  exact h.resolve_right (Nat.not_le_of_lt hlt)

/-- Object 1 is asked for, and locked. -/
theorem locks_described_one : ∃ σ, (link twoObjects).Reaches (fun _ _ => True)
      (TakesAsked twoObjects .fpga) twoObjects.start σ
    ∧ (σ.thread .fpga).state.readLock 1 = true
    ∧ LocksDescribed twoObjects (σ.thread .fpga).state := by
  obtain ⟨σ, hσ, hp⟩ := Pool.Script.exists_of_replay (fun _ _ => True)
    (TakesAsked twoObjects .fpga)
    (heard twoObjects (asksInside twoObjects))
    [.go .fpga 60, .act 0xBE, .go .fpga 60, .act 0x82, .go .fpga 60] twoObjects.start
    (fun σ => (σ.thread .fpga).state.readLock 1)
    (fun _ _ _ => trivial) (fun _ _ h => asksInside_spec h) (by decide +kernel)
  exact ⟨σ, hσ, hp, locks_described twoObjects .fpga _ hσ⟩

/-- **An object that does not exist is locked**: the table has two objects, and object 5 is asked
for. -/
theorem undescribed_locked : ∃ σ, (link twoObjects).Reaches (fun _ _ => True) (fun _ _ => True)
      twoObjects.start σ
    ∧ ∃ j, (σ.thread .fpga).state.readLock j = true ∧ ¬ j < twoObjects.count := by
  obtain ⟨σ, hσ, hp⟩ := Pool.Script.exists_of_replay (fun _ _ => True) (fun _ _ => True)
    (heard twoObjects fun _ => true)
    [.go .fpga 60, .act 0xBE, .go .fpga 60, .act 0x86, .go .fpga 60] twoObjects.start
    (fun σ => (σ.thread .fpga).state.readLock 5)
    (fun _ _ _ => trivial) (fun _ _ _ => trivial) (by decide +kernel)
  exact ⟨σ, hσ, 5, hp, by decide⟩

end SOS
