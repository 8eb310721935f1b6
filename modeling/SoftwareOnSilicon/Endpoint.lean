import Mathlib.Data.Fintype.Defs
import Mathlib.Data.Finset.Insert
import SoftwareOnSilicon.Program
import SoftwareOnSilicon.Symbol

/-!
# The state of a serial endpoint

An endpoint is the communication thread of an MCU or of an FPGA. Its members
are `Endpoint`: the session variables of `Serial`, the locks, positions and
counters of `BlockWiseTransfer`, and the four signal flags of the crossover.
No other thread touches them.

What other threads touch is the `Board`: the atomic flags of the switch
board, the bytes of the transferred objects, the mailbox of the REST layer,
and the two pieces of session state that the destructor's thread writes.
Every access to it is one operation `Op`, labelled with the function of the
source that performs it, which is all a reader needs of a program counter.

`FPGACrossover` and `MCUCrossover` are the same class with the roles of the
four flags exchanged, so the flags are kept from the endpoint's own point of
view: what is `fpga_updated` in the FPGA and `mcu_updated` in the MCU is
`ownUpdated` here.
-/

namespace SOS

open Interleaving

/-- Which end of the link an endpoint is. -/
inductive Role where
  | fpga
  | mcu
  deriving DecidableEq, Repr

instance : Fintype Role where
  elems := {.fpga, .mcu}
  complete r := by cases r <;> decide

/-- The other end. -/
def Role.peer : Role → Role
  | fpga => mcu
  | mcu => fpga

@[simp] theorem Role.peer_peer (r : Role) : r.peer.peer = r := by
  cases r <;> rfl

/-- The error codes the modelled functions report. Both `logic_error` and
`runtime_error` abort the process. -/
inductive ErrorCode where
  | hotplugAfterUnexpectedShutdown
  | previousTransferRequestsWereNotCleared
  | duplicateComShutdown
  | duplicateSighup
  | duplicateReadlockRequest
  | syncedObjectsAreNotSupposedToHaveaTransfer
  | acknowledgeReceivedWithoutAnyRequest
  | receivedATransferAcknowledgeOnReadlockedObject
  | receivedADuplicateTransferAcknowledgeOnObjectInTransfer
  | readlockPredatesAcknowledge
  | previousTransferHasNotBeenAcknowledged
  | syncedStatusHasNotBeenOverridenWhenReadlockWasAcquired
  | foundATransferObjectWhichIsReadlocked
  | previousObjectWriteHasNotBeenCompleted
  | previousReadobjectHasNotFinished
  | noIdleReceivedAndNoReceivelockObtained
  | bitsetDoesNotFitIntoChararray
  | notIdleAfterSighup
  | invalidDMAObjectId
  | serviceInterruptedByComShutdown
  | objectWriteCanceledByIncomingRead
  | pendingWriteRequest
  | illegalWriteStartId
  | illegalReadEndId
  | attemptedReadAfterEndOfBuffer
  | attemptedWriteAfterEndOfBuffer
  | combufferSizeIsMinimumWORDSIZE
  | combufferInAndOutSizeNotEqual
  deriving DecidableEq, Repr

/-! ## Descriptors -/

/-- **The descriptor table** of the objects mirrored on both ends. An object
is its id; what is left of its descriptor is its size. -/
structure DescriptorHelper where
  /-- `arr[j].obj_size`. -/
  objSize : ℕ → ℕ
  /-- `count`. -/
  count : ℕ
  /-- The table has `NUM_IDS` entries. -/
  count_le : count ≤ numIds

namespace DescriptorHelper

/-- The indices a loop over `descriptors.size()` visits. -/
def ids (D : DescriptorHelper) : List ℕ := List.range D.count

@[simp] theorem mem_ids {D : DescriptorHelper} {j : ℕ} :
    j ∈ D.ids ↔ j < D.count := List.mem_range

theorem lt_numIds (D : DescriptorHelper) {j : ℕ} (h : j < D.count) : j < numIds :=
  h.trans_le D.count_le

/-- **Every object is a positive number of three-byte groups.** -/
def Triples (D : DescriptorHelper) : Prop :=
  ∀ j < D.count, 0 < D.objSize j ∧ 3 ∣ D.objSize j

/-- The table of objects of the given sizes, as `cpp11_static_descriptors`
counts and measures them. The pointers it stores as well are left out: they
point into its parameter, which it takes by value. -/
def ofSizes (sizes : List ℕ) (h : sizes.length ≤ numIds) : DescriptorHelper where
  objSize j := sizes.getD j 0
  count := sizes.length
  count_le := h

end DescriptorHelper

/-! ## The shared memory -/

/-- The atomic flags: those of `ResolverSwitch` for each object, those of the
switch board, and the ones of the REST mailbox. -/
inductive Flag where
  | readAck (j : ℕ)
  | readFault (j : ℕ)
  | writeAck (j : ℕ)
  | writeFault (j : ℕ)
  | syncMe (j : ℕ)
  | triggerResolve
  | descriptorsUpdated
  | readEndUpdated
  | readEndAcknowledge
  | writeStartUpdated
  | writeStartAcknowledge
  deriving DecidableEq, Repr

/-- The functions that access the shared memory. `checkSync` is named by its
caller. -/
inductive Site where
  | handshake
  | handshakeAck
  | emitInit
  | emitInterrupted
  | emitReadlocked
  | emitTransfer
  | emitReceived
  | emitSent
  | triggerResolve
  | writeObject
  | readObject
  | readHook
  | stopNotifier
  | transfersPending
  | getFirstTransfer
  | incomingShutdownQuery
  | resolve
  | resolverEventLoop
  | readEnd
  | writeStart
  | restEventLoop
  deriving DecidableEq, Repr

/-- One access to the shared memory. -/
inductive Access where
  /-- `flag.test_and_set()`, answered by the old value. -/
  | testAndSet (f : Flag)
  /-- `flag.clear()`. -/
  | clear (f : Flag)
  /-- `while (flag.test_and_set()) yield();`. -/
  | acquire (f : Flag)
  /-- Read byte `i` of object `j`. -/
  | load (j i : ℕ)
  /-- Write byte `i` of object `j`. -/
  | store (j i : ℕ) (b : Byte)
  /-- Read `_vars.descendants_notified`. -/
  | loadNotified
  /-- Write `_vars.descendants_notified`. -/
  | storeNotified (b : Bool)
  /-- Read the word of `read_started_id`, and test bit `j`. -/
  | loadStarted (j : ℕ)
  /-- Read the word of `read_started_id`, to change bit `j`. -/
  | loadStartedWord (j : ℕ)
  /-- Write the word of `read_started_id`: `m` with bit `j` changed to `b`. -/
  | storeStarted (j : ℕ) (b : Bool) (m : BitVec numIds)
  /-- Take the token of the link, and with it the byte in the in buffer. -/
  | handshake
  /-- Hand the token on, and with it the byte in the out buffer. -/
  | handshakeAck (b : Byte)
  /-- Read `readEndId`. -/
  | loadReadEndId
  /-- Write `readEndId`. -/
  | storeReadEndId (j : ℕ)
  /-- Read `writeStartId`. -/
  | loadWriteStartId
  /-- Write `writeEndId`. -/
  | storeWriteEndId (j : ℕ)
  /-- Read `transferWriteStartOut[i]`. -/
  | loadWriteStart (i : ℕ)
  /-- Write `transferReadEndIn[i]`. -/
  | storeReadEnd (i : ℕ) (b : Byte)
  deriving DecidableEq, Repr

/-- What an access answers. -/
abbrev Access.Answer : Access → Type
  | .testAndSet _ => Bool
  | .load _ _ => Byte
  | .loadNotified => Bool
  | .loadStarted _ => Bool
  | .loadStartedWord _ => BitVec numIds
  | .handshake => Byte
  | .loadReadEndId => ℕ
  | .loadWriteStartId => ℕ
  | .loadWriteStart _ => Byte
  | _ => Unit

/-- **An operation**: an access, and the function that makes it. -/
structure Op where
  site : Site
  access : Access
  deriving DecidableEq, Repr

/-- What an operation answers. -/
abbrev Op.Answer (o : Op) : Type := o.access.Answer

/-- A word with one bit assigned, as `std::bitset` does it. -/
def withBit {n : ℕ} (m : BitVec n) (j : ℕ) (b : Bool) : BitVec n :=
  if b then m ||| BitVec.twoPow n j else m &&& ~~~BitVec.twoPow n j

theorem getLsbD_withBit {n : ℕ} (m : BitVec n) (j : ℕ) (b : Bool) (k : ℕ) :
    (withBit m j b).getLsbD k = if k = j then decide (j < n) && b else m.getLsbD k := by
  unfold withBit
  cases b with
  | true => grind
  | false => grind

/-- **The memory one end shares between its threads.** -/
structure Board where
  /-- The atomic flags; `true` is set. -/
  flag : Flag → Bool
  /-- The bytes of the objects. -/
  obj : ℕ → ℕ → Byte
  /-- `_vars.descendants_notified`. -/
  notified : Bool
  /-- `read_started_id`, which is one word. -/
  started : BitVec numIds
  readEndId : ℕ
  writeStartId : ℕ
  writeEndId : ℕ
  transferReadEndIn : ℕ → Byte
  transferWriteStartOut : ℕ → Byte

namespace Board

/-- The flags as the constructors leave them: everything set, apart from the
descriptor lock and the two acknowledges the emitters wait for. -/
def initialFlag : Flag → Bool
  | .descriptorsUpdated => false
  | .readEndAcknowledge => false
  | .writeStartAcknowledge => false
  | _ => true

/-- The board of a started process, the objects' contents given. -/
def initial (obj : ℕ → ℕ → Byte) : Board where
  flag := initialFlag
  obj := obj
  notified := false
  started := 0
  readEndId := numIds
  writeStartId := numIds
  writeEndId := numIds
  transferReadEndIn _ := 0
  transferWriteStartOut _ := 0

/-- Set or clear one flag. -/
def setFlag (h : Board) (f : Flag) (v : Bool) : Board :=
  { h with flag := Function.update h.flag f v }

@[simp] theorem setFlag_self (h : Board) (f : Flag) (v : Bool) : (h.setFlag f v).flag f = v := by
  simp [setFlag]

theorem setFlag_of_ne (h : Board) {f g : Flag} (v : Bool) (hg : g ≠ f) :
    (h.setFlag f v).flag g = h.flag g := by
  simp [setFlag, hg]

theorem setFlag_eq_self {h : Board} {f : Flag} {v : Bool} (hf : h.flag f = v) :
    h.setFlag f v = h := by
  unfold setFlag
  rw [← hf, Function.update_eq_self]

@[simp] theorem setFlag_obj (h : Board) (f : Flag) (v : Bool) :
    (h.setFlag f v).obj = h.obj := rfl

@[simp] theorem setFlag_writeStartId (h : Board) (f : Flag) (v : Bool) :
    (h.setFlag f v).writeStartId = h.writeStartId := rfl

@[simp] theorem setFlag_transferWriteStartOut (h : Board) (f : Flag) (v : Bool) :
    (h.setFlag f v).transferWriteStartOut = h.transferWriteStartOut := rfl

/-- **What an access does to the board**, with its answer; `none` while it
waits. The two handshakes concern the link and not the board. -/
def exec : (a : Access) → Board → Option (a.Answer × Board)
  | .testAndSet f, h => some (h.flag f, h.setFlag f true)
  | .clear f, h => some ((), h.setFlag f false)
  | .acquire f, h => if h.flag f then none else some ((), h.setFlag f true)
  | .load j i, h => some (h.obj j i, h)
  | .store j i b, h =>
    some ((), { h with obj := Function.update h.obj j (Function.update (h.obj j) i b) })
  | .loadNotified, h => some (h.notified, h)
  | .storeNotified b, h => some ((), { h with notified := b })
  | .loadStarted j, h => some (h.started.getLsbD j, h)
  | .loadStartedWord _, h => some (h.started, h)
  | .storeStarted j b m, h => some ((), { h with started := withBit m j b })
  | .handshake, _ => none
  | .handshakeAck _, _ => none
  | .loadReadEndId, h => some (h.readEndId, h)
  | .storeReadEndId j, h => some ((), { h with readEndId := j })
  | .loadWriteStartId, h => some (h.writeStartId, h)
  | .storeWriteEndId j, h => some ((), { h with writeEndId := j })
  | .loadWriteStart i, h => some (h.transferWriteStartOut i, h)
  | .storeReadEnd i b, h =>
    some ((), { h with transferReadEndIn := Function.update h.transferReadEndIn i b })

/-- An access changes no flag but its own. -/
theorem exec_flag {a : Access} {h h' : Board} {x : a.Answer} {f : Flag}
    (hx : exec a h = some (x, h')) (ht : a ≠ .testAndSet f) (hc : a ≠ .clear f)
    (ha : a ≠ .acquire f) : h'.flag f = h.flag f := by
  have hset : ∀ {g v}, f ≠ g → (h.setFlag g v).flag f = h.flag f := fun hne =>
    Function.update_of_ne hne ..
  cases a with
  | testAndSet g =>
    obtain ⟨rfl, rfl⟩ := Prod.mk.inj (Option.some.inj hx)
    exact hset fun hf => ht (hf ▸ rfl)
  | clear g =>
    obtain ⟨rfl, rfl⟩ := Prod.mk.inj (Option.some.inj hx)
    exact hset fun hf => hc (hf ▸ rfl)
  | acquire g =>
    rw [exec] at hx
    split at hx
    · cases hx
    · obtain ⟨rfl, rfl⟩ := Prod.mk.inj (Option.some.inj hx)
      exact hset fun hf => ha (hf ▸ rfl)
  | handshake => cases hx
  | handshakeAck => cases hx
  | _ =>
    obtain ⟨rfl, rfl⟩ := Prod.mk.inj (Option.some.inj hx)
    rfl

/-- A flag that is set stays set, unless it is cleared. -/
theorem exec_set {a : Access} {h h' : Board} {x : a.Answer} {f : Flag}
    (hx : exec a h = some (x, h')) (hc : a ≠ .clear f) (hf : h.flag f = true) :
    h'.flag f = true := by
  by_cases ht : a = .testAndSet f
  · subst ht
    obtain ⟨-, rfl⟩ := Prod.mk.inj (Option.some.inj hx)
    exact h.setFlag_self f true
  by_cases ha : a = .acquire f
  · subst ha
    rw [exec, if_pos hf] at hx
    cases hx
  · exact (exec_flag hx ht hc ha).trans hf

/-- Only a store changes the stop request. -/
theorem exec_notified {a : Access} {h h' : Board} {x : a.Answer}
    (hx : exec a h = some (x, h')) (hn : ∀ b, a ≠ .storeNotified b) :
    h'.notified = h.notified := by
  cases a with
  | acquire g =>
    rw [exec] at hx
    split at hx
    · cases hx
    · obtain ⟨rfl, rfl⟩ := Prod.mk.inj (Option.some.inj hx)
      rfl
  | storeNotified b => exact absurd rfl (hn b)
  | handshake => cases hx
  | handshakeAck => cases hx
  | _ =>
    obtain ⟨rfl, rfl⟩ := Prod.mk.inj (Option.some.inj hx)
    rfl

/-- Only a store changes the objects, and only the read-end command the copy and its id. -/
theorem exec_bytes {a : Access} {h h' : Board} {x : a.Answer} (hx : exec a h = some (x, h')) :
    ((∀ j i b, a ≠ .store j i b) → h'.obj = h.obj)
    ∧ ((∀ i b, a ≠ .storeReadEnd i b) → h'.transferReadEndIn = h.transferReadEndIn)
    ∧ ((∀ j, a ≠ .storeReadEndId j) → h'.readEndId = h.readEndId) := by
  cases a with
  | acquire g =>
    rw [exec] at hx
    split at hx
    · cases hx
    · obtain ⟨rfl, rfl⟩ := Prod.mk.inj (Option.some.inj hx)
      exact ⟨fun _ => rfl, fun _ => rfl, fun _ => rfl⟩
  | handshake => cases hx
  | handshakeAck => cases hx
  | store j i b =>
    obtain ⟨rfl, rfl⟩ := Prod.mk.inj (Option.some.inj hx)
    exact ⟨fun hs => absurd rfl (hs j i b), fun _ => rfl, fun _ => rfl⟩
  | storeReadEnd i b =>
    obtain ⟨rfl, rfl⟩ := Prod.mk.inj (Option.some.inj hx)
    exact ⟨fun _ => rfl, fun hs => absurd rfl (hs i b), fun _ => rfl⟩
  | storeReadEndId j =>
    obtain ⟨rfl, rfl⟩ := Prod.mk.inj (Option.some.inj hx)
    exact ⟨fun _ => rfl, fun _ => rfl, fun hs => absurd rfl (hs j)⟩
  | _ =>
    obtain ⟨rfl, rfl⟩ := Prod.mk.inj (Option.some.inj hx)
    exact ⟨fun _ => rfl, fun _ => rfl, fun _ => rfl⟩

end Board

/-! ## The private state -/

/-- `com_vars`, without `descendants_notified`, which is on the board. -/
structure ComVars where
  receivedIdle : Bool := false
  sentIdle : Bool := false
  receivedComShutdown : Bool := false
  sentComShutdown : Bool := false
  receivedSighup : Bool := false
  sentSighup : Bool := false
  acknowledgeRequested : Bool := false
  receivedRequest : Bool := false
  receivedAcknowledge : Bool := false

/-- **History variables**: what has gone over the link. The code writes them
where it makes the access they record and reads none of them. -/
structure History where
  /-- The bytes `write_object` has fetched for the send in progress. -/
  fetched : List Byte := []
  /-- The completed sends, with the bytes fetched for each. -/
  sent : List (ℕ × List Byte) := []
  /-- The payload symbols of the receive in progress. -/
  symbols : List Byte := []
  /-- The bytes `read_object` has stored for the receive in progress. -/
  stored : List Byte := []
  /-- The completed receives, with the bytes stored for each. -/
  received : List (ℕ × List Byte) := []
  /-- Whether the last symbol emitted comes from `write_object`. -/
  payload : Bool := false

/-- **The members of an endpoint.** -/
structure Endpoint where
  firstRun : Bool := true
  incomingRequest : ℕ := numIds
  waitingConfirmation : ℕ := numIds
  /-- The own request flag, sent as bit 7. -/
  ownUpdated : Bool := false
  /-- The peer's request flag, received as bit 7. -/
  peerUpdated : Bool := false
  /-- The peer's acknowledge of the own request, received as bit 6. -/
  ownAcknowledge : Bool := false
  /-- The acknowledge of the peer's request, sent as bit 6. -/
  peerAcknowledge : Bool := false
  vars : ComVars := {}
  receiveLock : Bool := false
  readDestinationPos : ℕ := 0
  readCount : ℕ := 0
  readDestination : ℕ := numIds
  sendLock : Bool := false
  writeOriginPos : ℕ := 0
  writeCount : ℕ := 0
  writeOrigin : ℕ := numIds
  readLock : ℕ → Bool := fun _ => false
  transfer : ℕ → Bool := fun _ => false
  writeAssembly : ℕ → Byte := fun _ => 0
  readAssembly : BitVec 24 := 0
  read4minus1 : ℕ := 0
  write3plus1 : ℕ := 0
  /-- The byte in the in buffer. -/
  comIn : Byte := 0
  /-- The byte in the out buffer. -/
  comOut : Byte := 0
  history : History := {}

/-- Code of the communication thread. -/
abbrev Comm (α : Type) : Type := Code Endpoint ErrorCode Op.Answer α

end SOS
