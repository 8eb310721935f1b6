import SoftwareOnSilicon.Serial

/-!
# What a cycle can do to a session

Each function of the cycle has one relation here that says everything it can
do to the private state, one constructor per outcome – `Hooked` for
`read_hook`, `Assembled` for `read_object`, `Approved` for `transfer_hook`,
`Acknowledged` for the acknowledge bit, `Emitted` for the `OUT` half – and one
that lists its errors with the condition of each (`HookFault` and so on).
Nothing here is about the code itself: that its functions have these outcomes
and no others is proved afterwards, and what is proved about runs is proved
from these relations.

`Session` is the representation invariant of an endpoint: which locks and
transfers go together, where the two positions are, how the doubled counters
agree. Every outcome keeps it, whatever byte has been received, which is what
the second half of the module shows.
-/

namespace SOS

open Interleaving

variable {D : DescriptorHelper} {r : Role} {data : Byte} {s s' : Endpoint}

/-! ## The symbol that is written -/

/-- The symbol `write` emits for a byte. -/
abbrev Endpoint.symbol (w : Byte) (s : Endpoint) : Byte :=
  groupSymbol s.ownUpdated s.peerAcknowledge s.writeAssembly w s.writeCount

/-- What `write` does to the private state. -/
theorem Endpoint.write_eq {w : Byte} (h : s.writeCount ≤ 3) :
    s.write w = { s with
      writeCount := if s.writeCount = 3 then 0 else s.writeCount + 1
      writeAssembly := if s.writeCount = 3 then s.writeAssembly
        else Function.update s.writeAssembly s.writeCount w
      comOut := s.symbol w } := by
  have hcases : s.writeCount = 0 ∨ s.writeCount = 1 ∨ s.writeCount = 2
      ∨ s.writeCount = 3 := by omega
  rcases hcases with h | h | h | h <;>
    simp [Endpoint.symbol, groupSymbol, Endpoint.write, Endpoint.writeByte, Endpoint.writeBits,
      writeAssemble, writeRecover, h]

/-- What `read` does to the private state. -/
theorem Endpoint.read_eq (h : s.readCount ≤ 3) :
    s.read data = { s with
      readAssembly := readShift s.readAssembly s.readCount (data.setWidth 24)
      readCount := if s.readCount = 3 then 0 else s.readCount + 1 } := by
  have hcases : s.readCount = 0 ∨ s.readCount = 1 ∨ s.readCount = 2
      ∨ s.readCount = 3 := by omega
  rcases hcases with h | h | h | h <;> simp [Endpoint.read, h]

/-! ## The outcomes -/

/-- The outcomes of `read_hook`. -/
inductive Hooked (data : Byte) (s : Endpoint) : Endpoint → Prop
  | poweron (code : stateCode data = State.poweron.code)
      (quiet : s.vars.acknowledgeRequested = false ∧ s.vars.receivedAcknowledge = false)
      (rest : s.receiveLock = false ∧ s.readCount = 0) :
      Hooked data s { s with vars := {} }
  | idle (code : stateCode data = State.idle.code) (b : Bool) :
      Hooked data s { s with vars.receivedIdle := b }
  | shutdown (code : stateCode data = State.shutdown.code)
      (first : s.vars.receivedComShutdown = false) :
      Hooked data s { s with vars.receivedComShutdown := true }
  | sighup (code : stateCode data = State.sighup.code)
      (first : s.vars.receivedSighup = false) :
      Hooked data s { s with vars.receivedSighup := true }
  | request (code : ∀ st ∈ [State.poweron, .idle, .shutdown, .sighup],
        stateCode data ≠ st.code) :
      Hooked data s
        { s with incomingRequest := receiveTransferRequest (stateCode data) }

/-- The errors of `read_hook`. -/
inductive HookFault (data : Byte) (s : Endpoint) : ErrorCode → Prop
  | poweron (code : stateCode data = State.poweron.code)
      (h : s.vars.acknowledgeRequested = true ∨ s.vars.receivedAcknowledge = true) :
      HookFault data s .previousTransferRequestsWereNotCleared
  | hotplug (code : stateCode data = State.poweron.code)
      (h : s.receiveLock = true ∨ s.readCount ≠ 0) :
      HookFault data s .hotplugAfterUnexpectedShutdown
  | afterSighup (code : ∀ st ∈ [State.poweron, .idle, .sighup], stateCode data ≠ st.code)
      (h : s.vars.receivedSighup = true) : HookFault data s .notIdleAfterSighup
  | shutdown (code : stateCode data = State.shutdown.code)
      (h : s.vars.receivedComShutdown = true) : HookFault data s .duplicateComShutdown
  | sighup (code : stateCode data = State.sighup.code)
      (h : s.vars.receivedSighup = true) : HookFault data s .duplicateSighup

/-- The object a payload symbol is received for. -/
inductive Receiving (D : DescriptorHelper) (s : Endpoint) : Endpoint → Prop
  | held (h : s.receiveLock = true) : Receiving D s s
  | first {j : ℕ} (h : s.receiveLock = false) (find : D.ids.find? s.readLock = some j) :
      Receiving D s { s with receiveLock := true, readDestination := j }

/-- The outcomes of `read_object`. -/
inductive Assembled (D : DescriptorHelper) (data : Byte) (s : Endpoint) :
    Endpoint → Prop
  | part {t : Endpoint} (receiving : Receiving D s t) (count : t.readCount < 3) :
      Assembled D data s { t with
        readAssembly := readShift t.readAssembly t.readCount (data.setWidth 24)
        readCount := t.readCount + 1
        read4minus1 := t.readCount + 1
        history.symbols := t.history.symbols ++ [data] }
  | group {t : Endpoint} {bytes : List Byte} (receiving : Receiving D s t)
      (count : t.readCount = 3)
      (flush : bitsetToBytearray 3
        (readShift t.readAssembly 3 (data.setWidth 24)) = some bytes)
      (more : t.readDestinationPos + 3 ≠ D.objSize t.readDestination) :
      Assembled D data s { t with
        readAssembly := 0
        readCount := 0
        read4minus1 := 0
        readDestinationPos := t.readDestinationPos + 3
        history.symbols := t.history.symbols ++ [data]
        history.stored := t.history.stored ++ bytes }
  | last {t : Endpoint} {bytes : List Byte} (receiving : Receiving D s t)
      (count : t.readCount = 3)
      (flush : bitsetToBytearray 3
        (readShift t.readAssembly 3 (data.setWidth 24)) = some bytes)
      (done : t.readDestinationPos + 3 = D.objSize t.readDestination) :
      Assembled D data s { t with
        readAssembly := 0
        readCount := 0
        read4minus1 := 0
        readDestinationPos := 0
        receiveLock := false
        readLock := Function.update t.readLock t.readDestination false
        history.symbols := []
        history.stored := []
        history.received := t.history.received
          ++ [(t.readDestination, t.history.stored ++ bytes)] }

/-- The error of `read_object`. -/
inductive AssembleFault (D : DescriptorHelper) (s : Endpoint) : ErrorCode → Prop
  | none (h : s.receiveLock = false) (find : D.ids.find? s.readLock = none) :
      AssembleFault D s .noIdleReceivedAndNoReceivelockObtained

/-- The outcomes of `transfer_hook`. -/
inductive Approved (s : Endpoint) : Endpoint → Prop
  | none (h : numIds ≤ s.incomingRequest) : Approved s s
  | own (h : s.incomingRequest = s.waitingConfirmation) : Approved s s
  | lock (lt : s.incomingRequest < numIds)
      (other : s.incomingRequest ≠ s.waitingConfirmation)
      (free : s.readLock s.incomingRequest = false)
      (idle : s.transfer s.incomingRequest = false) :
      Approved s { s with
        readLock := Function.update s.readLock s.incomingRequest true
        peerAcknowledge := if s.peerUpdated then true else s.peerAcknowledge }

/-- The errors of `transfer_hook`. -/
inductive ApproveFault (s : Endpoint) : ErrorCode → Prop
  | duplicate (lt : s.incomingRequest < numIds)
      (other : s.incomingRequest ≠ s.waitingConfirmation)
      (h : s.readLock s.incomingRequest = true) :
      ApproveFault s .duplicateReadlockRequest
  | synced (lt : s.incomingRequest < numIds)
      (other : s.incomingRequest ≠ s.waitingConfirmation)
      (h : s.transfer s.incomingRequest = true) :
      ApproveFault s .syncedObjectsAreNotSupposedToHaveaTransfer

/-- The outcomes of the acknowledge bit, where the awaited object is one the
endpoint may send. -/
inductive Acknowledged (s : Endpoint) : Endpoint → Prop
  | none (received : s.vars.receivedAcknowledge = false)
      (h : s.vars.acknowledgeRequested = false) : Acknowledged s s
  | accept (received : s.vars.receivedAcknowledge = true)
      (h : s.vars.acknowledgeRequested = true) :
      Acknowledged s { s with
        transfer := Function.update s.transfer s.waitingConfirmation true
        vars.acknowledgeRequested := false }

/-- The errors of the acknowledge bit. -/
inductive AcknowledgeFault (s : Endpoint) : ErrorCode → Prop
  | unrequested (received : s.vars.receivedAcknowledge = true)
      (h : s.vars.acknowledgeRequested = false) :
      AcknowledgeFault s .acknowledgeReceivedWithoutAnyRequest
  | missing (received : s.vars.receivedAcknowledge = false)
      (h : s.vars.acknowledgeRequested = true) :
      AcknowledgeFault s .previousTransferHasNotBeenAcknowledged

/-- The object a payload symbol is sent of. -/
inductive Sending (D : DescriptorHelper) (s : Endpoint) : Endpoint → Prop
  | held (h : s.sendLock = true) : Sending D s s
  | first {j : ℕ} (h : s.sendLock = false) (find : D.ids.find? s.transfer = some j) :
      Sending D s { s with sendLock := true, writeOrigin := j }

/-- The outcomes of `write_object`, for the byte that is fetched. -/
inductive Fed (D : DescriptorHelper) (s : Endpoint) : Endpoint → Prop
  | fetch (w : Byte) (count : s.writeCount < 3) :
      Fed D s { s with
        writeOriginPos := s.writeOriginPos + 1
        writeCount := s.writeCount + 1
        write3plus1 := s.writeCount + 1
        writeAssembly := Function.update s.writeAssembly s.writeCount w
        comOut := s.symbol w
        history.fetched := s.history.fetched ++ [w]
        history.payload := true }
  | close (count : s.writeCount = 3) (more : s.writeOriginPos ≠ D.objSize s.writeOrigin) :
      Fed D s { s with
        writeCount := 0
        write3plus1 := 0
        comOut := s.symbol 63
        history.payload := true }
  | last (count : s.writeCount = 3) (done : s.writeOriginPos = D.objSize s.writeOrigin) :
      Fed D s { s with
        writeOriginPos := 0
        writeCount := 0
        write3plus1 := 0
        sendLock := false
        transfer := Function.update s.transfer s.writeOrigin false
        comOut := s.symbol 63
        history.sent := s.history.sent ++ [(s.writeOrigin, s.history.fetched)]
        history.fetched := []
        history.payload := true }

/-- Which answers the board may give. -/
abbrev Answers : Type := Endpoint → (o : Op) → o.Answer → Prop

/-- The outcomes of the `OUT` half, after `waitingConfirmation` has been
reset. -/
inductive Emitted (allow : Answers) (D : DescriptorHelper) (r : Role) (s : Endpoint) :
    Endpoint → Prop
  | poweron (first : s.firstRun = true) : Emitted allow D r s s.sendPoweronRequest
  | request {j : ℕ} (first : s.firstRun = false) (rest : s.sendLock = false)
      (open_ : s.vars.sentComShutdown = false) (lt : j < D.count)
      (idle : s.transfer j = false) (free : s.readLock j = false) :
      Emitted allow D r s { s with
        waitingConfirmation := j
        vars.acknowledgeRequested := true
        ownUpdated := true
        comOut := stamp true s.peerAcknowledge 0 ^^^ transferCode j
        history.payload := false }
  | shutdown (first : s.firstRun = false) (rest : s.sendLock = false)
      (open_ : s.vars.sentComShutdown = false)
      (told : allow s ⟨.incomingShutdownQuery, .loadNotified⟩ true)
      (quiet : s.vars.acknowledgeRequested = false ∧ s.vars.receivedAcknowledge = false)
      (follow : r = .mcu → s.vars.receivedComShutdown = true) :
      Emitted allow D r s s.sendComshutdownRequest
  | payload {t t' : Endpoint} (first : s.firstRun = false) (sending : Sending D s t)
      (fed : Fed D t t') : Emitted allow D r s t'
  | sighup (first : s.firstRun = false) (rest : s.sendLock = false)
      (none : D.ids.find? s.transfer = none)
      (query : s.outgoingSighupQuery D r = true) (once : s.vars.sentSighup = false) :
      Emitted allow D r s s.sendSighupRequest
  | idle (first : s.firstRun = false) (rest : s.sendLock = false)
      (none : D.ids.find? s.transfer = none)
      (query : s.outgoingSighupQuery D r = true → s.vars.sentSighup = true) :
      Emitted allow D r s s.sendIdleRequest

/-- Every emission ends the first cycle. -/
theorem Emitted.firstRun {allow : Answers} (h : Emitted allow D r s s') :
    s'.firstRun = false := by
  cases h with
  | poweron => rfl
  | request first => exact first
  | shutdown first => exact first
  | payload first sending fed => cases sending <;> cases fed <;> exact first
  | sighup first => exact first
  | idle first => exact first

/-- The error of the `OUT` half: a write request of an object that is being
received. -/
inductive EmitFault (allow : Answers) (D : DescriptorHelper) (s : Endpoint) :
    ErrorCode → Prop
  | readlocked {j : ℕ} (first : s.firstRun = false) (rest : s.sendLock = false)
      (open_ : s.vars.sentComShutdown = false) (lt : j < D.count)
      (told : allow s ⟨.getFirstTransfer, .testAndSet (.syncMe j)⟩ false)
      (idle : s.transfer j = false) (locked : s.readLock j = true) :
      EmitFault allow D s .syncedStatusHasNotBeenOverridenWhenReadlockWasAcquired

/-- What the first part of the `IN` half does with a byte. -/
inductive Taken (D : DescriptorHelper) (data : Byte) (s : Endpoint) : Endpoint → Prop
  | hook {s' : Endpoint} (request : data.getLsbD 7 = true)
      (h : Hooked data (s.receiveBits data) s') : Taken D data s s'
  | object {s' : Endpoint} (request : data.getLsbD 7 = false)
      (h : Assembled D data (s.receiveBits data) s') : Taken D data s s'

/-- The outcomes of the `IN` half. -/
inductive Received (D : DescriptorHelper) (data : Byte) (s : Endpoint) : Endpoint → Prop
  | mk {s₁ s₂ s₃ : Endpoint} (taken : Taken D data s s₁) (approved : Approved s₁ s₂)
      (acknowledged : Acknowledged s₂ s₃) : Received D data s s₃

/-- The errors of the `IN` half. -/
inductive ReceiveFault (D : DescriptorHelper) (data : Byte) (s : Endpoint) :
    ErrorCode → Prop
  | hook {e : ErrorCode} (request : data.getLsbD 7 = true)
      (h : HookFault data (s.receiveBits data) e) : ReceiveFault D data s e
  | object {e : ErrorCode} (request : data.getLsbD 7 = false)
      (h : AssembleFault D (s.receiveBits data) e) : ReceiveFault D data s e
  | approve {s₁ : Endpoint} {e : ErrorCode} (taken : Taken D data s s₁)
      (h : ApproveFault s₁ e) : ReceiveFault D data s e
  | acknowledge {s₁ s₂ : Endpoint} {e : ErrorCode} (taken : Taken D data s s₁)
      (approved : Approved s₁ s₂) (h : AcknowledgeFault s₂ e) : ReceiveFault D data s e

/-- The state in which the `OUT` half of a cycle begins. -/
inductive Heard (D : DescriptorHelper) (s : Endpoint) : Endpoint → Prop
  | first (h : s.firstRun = true) : Heard D s s
  | byte {s' : Endpoint} (h : s.firstRun = false) (received : Received D s.comIn s s') :
      Heard D s s'

/-- **A cycle.** -/
inductive Cycled (allow : Answers) (D : DescriptorHelper) (r : Role) (s : Endpoint) :
    Endpoint → Prop
  | mk {t s' : Endpoint} (heard : Heard D s t)
      (emitted : Emitted allow D r { t with waitingConfirmation := numIds } s') :
      Cycled allow D r s s'

/-- The errors of a cycle. -/
inductive CycleFault (allow : Answers) (D : DescriptorHelper) (s : Endpoint) :
    ErrorCode → Prop
  | receive {e : ErrorCode} (h : s.firstRun = false)
      (fault : ReceiveFault D s.comIn s e) : CycleFault allow D s e
  | emit {t : Endpoint} {e : ErrorCode} (heard : Heard D s t)
      (fault : EmitFault allow D { t with waitingConfirmation := numIds } e) :
      CycleFault allow D s e

/-! ## The invariant -/

/-- **What a receiver has made of its symbols**: the complete groups have been
stored, and what is left of them is in the assembly. -/
structure Decodes (symbols stored : List Byte) (count : ℕ) (assembly : BitVec 24) : Prop where
  stored : stored = decodeSymbols symbols
  assembly : ∃ groups rest, symbols = groups ++ rest ∧ 4 ∣ groups.length
    ∧ rest.length = count ∧ assembly = overlay (fun n => rest.getD n 0) count

namespace Decodes

variable {symbols stored bytes : List Byte} {count : ℕ} {assembly : BitVec 24}

theorem empty : Decodes [] [] 0 0 := ⟨rfl, [], [], rfl, ⟨0, rfl⟩, rfl, rfl⟩

/-- A symbol that does not complete its group is overlaid. -/
theorem part (h : Decodes symbols stored count assembly) (hcount : count < 3) :
    Decodes (symbols ++ [data]) stored (count + 1)
      (readShift assembly count (data.setWidth 24)) := by
  obtain ⟨rfl, groups, rest, rfl, hdvd, rfl, rfl⟩ := h
  refine ⟨?_, groups, rest ++ [data], by simp, hdvd, by simp, ?_⟩
  · have hshort : (rest ++ [data]).length < 4 := by simp; omega
    have hshort' : rest.length < 4 := by omega
    rw [List.append_assoc, decodeSymbols_append hdvd, decodeSymbols_append hdvd,
      decodeSymbols_short hshort, decodeSymbols_short hshort']
  · rw [overlay]
    congr 1
    · exact overlay_congr fun i hi => by simp [List.getElem?_append_left hi]
    · simp

/-- **A symbol that completes its group**: what is stored is what it decodes to. -/
theorem group (h : Decodes symbols stored 3 assembly)
    (hflush : bitsetToBytearray 3 (readShift assembly 3 (data.setWidth 24)) = some bytes) :
    Decodes (symbols ++ [data]) (stored ++ bytes) 0 0 := by
  obtain ⟨rfl, groups, rest, rfl, hdvd, hrest, rfl⟩ := h
  refine ⟨?_, groups ++ (rest ++ [data]), [], by simp, ?_, rfl, rfl⟩
  · rw [List.append_assoc, decodeSymbols_append hdvd, decodeSymbols_append hdvd,
      decodeSymbols_group hrest hflush, decodeSymbols_short (by omega : rest.length < 4),
      List.append_nil]
  · rw [List.length_append, List.length_append, hrest]
    exact Nat.dvd_add hdvd ⟨1, rfl⟩

end Decodes

/-- **The representation invariant of an endpoint**, between any two parts of
a cycle. -/
structure Session (D : DescriptorHelper) (s : Endpoint) : Prop where
  exclusive : ∀ j, s.transfer j = true → s.readLock j = false
  transfer_lt : ∀ j, s.transfer j = true → j < D.count
  /-- A receive is for a readlocked object, and inside of it. -/
  receiving : s.receiveLock = true → s.readLock s.readDestination = true
    ∧ s.readDestination < D.count ∧ 3 ∣ s.readDestinationPos
    ∧ s.readDestinationPos < D.objSize s.readDestination
  notReceiving : s.receiveLock = false → s.readDestinationPos = 0 ∧ s.readCount = 0
    ∧ s.history.symbols = [] ∧ s.history.stored = []
  assembly : s.readCount = 0 → s.readAssembly = 0
  decodes : Decodes s.history.symbols s.history.stored s.readCount s.readAssembly
  readCount_eq : s.readCount = s.read4minus1
  readCount_le : s.readCount ≤ 3
  /-- A send is of the first acknowledged object, and inside of it. -/
  sending : s.sendLock = true → D.ids.find? s.transfer = some s.writeOrigin
    ∧ ∃ g, s.writeOriginPos = 3 * g + s.write3plus1 ∧ 3 * g < D.objSize s.writeOrigin
  notSending : s.sendLock = false → s.writeOriginPos = 0 ∧ s.write3plus1 = 0
    ∧ s.history.fetched = []
  writeCount_eq : s.writeCount = s.write3plus1
  writeCount_le : s.writeCount ≤ 3
  /-- An awaited object is neither sent nor received. -/
  requested : s.vars.acknowledgeRequested = true → s.waitingConfirmation < D.count
    ∧ s.transfer s.waitingConfirmation = false
    ∧ s.readLock s.waitingConfirmation = false ∧ s.sendLock = false

namespace Session

/-- A find over the descriptors is the first that qualifies. -/
theorem find_spec {p : ℕ → Bool} {j : ℕ} (h : D.ids.find? p = some j) :
    p j = true ∧ j < D.count :=
  ⟨List.find?_some h, DescriptorHelper.mem_ids.mp (List.mem_of_find?_eq_some h)⟩

theorem find_none {p : ℕ → Bool} (h : D.ids.find? p = none) {j : ℕ}
    (hj : j < D.count) : p j = false :=
  Bool.eq_false_iff.mpr
    (List.find?_eq_none.mp h j (DescriptorHelper.mem_ids.mpr hj))

theorem origin (h : Session D s) (hs : s.sendLock = true) :
    s.transfer s.writeOrigin = true ∧ s.writeOrigin < D.count :=
  find_spec (h.sending hs).1

/-- The fresh endpoint. -/
theorem initial : Session D {} where
  exclusive _ h := by cases h
  transfer_lt _ h := by cases h
  receiving h := by cases h
  notReceiving _ := ⟨rfl, rfl, rfl, rfl⟩
  assembly _ := rfl
  decodes := .empty
  readCount_eq := rfl
  readCount_le := by decide
  sending h := by cases h
  notSending _ := ⟨rfl, rfl, rfl⟩
  writeCount_eq := rfl
  writeCount_le := by decide
  requested h := by cases h

theorem receiveBits (h : Session D s) : Session D (s.receiveBits data) :=
  { h with }

theorem hooked (h : Session D s) (hk : Hooked data s s') : Session D s' := by
  cases hk with
  | poweron => exact { h with requested := fun hr => by cases hr }
  | idle => exact { h with }
  | shutdown => exact { h with }
  | sighup => exact { h with }
  | request => exact { h with }

theorem of_receiving (hD : D.Triples) (h : Session D s) (hr : Receiving D s s') :
    Session D s' ∧ s'.receiveLock = true := by
  cases hr with
  | held hl => exact ⟨h, hl⟩
  | @first j hl find =>
    obtain ⟨hlock, hj⟩ := find_spec find
    obtain ⟨hpos, -⟩ := h.notReceiving hl
    refine ⟨{ h with
      receiving := fun _ => ⟨hlock, hj, ?_, ?_⟩
      notReceiving := fun hf => by cases hf }, rfl⟩
    · simp [hpos]
    · simpa [hpos] using (hD j hj).1

theorem assembled (hD : D.Triples) (h : Session D s) (ha : Assembled D data s s') :
    Session D s' := by
  cases ha with
  | part receiving count =>
    obtain ⟨ht, hl⟩ := h.of_receiving hD receiving
    exact { ht with
      notReceiving := fun hf => absurd (hl.symm.trans hf) (by decide)
      assembly := fun h0 => absurd h0 (Nat.succ_ne_zero _)
      decodes := ht.decodes.part count
      readCount_eq := rfl
      readCount_le := count }
  | group receiving count flush more =>
    obtain ⟨ht, hl⟩ := h.of_receiving hD receiving
    obtain ⟨hlock, hlt, hdvd, hpos⟩ := ht.receiving hl
    have hsize := (hD _ hlt).2
    exact { ht with
      receiving := fun _ => ⟨hlock, hlt, by simpa using hdvd, by simp only; omega⟩
      notReceiving := fun hf => absurd (hl.symm.trans hf) (by decide)
      assembly := fun _ => rfl
      decodes := (count ▸ ht.decodes).group flush
      readCount_eq := rfl
      readCount_le := Nat.zero_le _ }
  | @last t bytes receiving count flush done =>
    obtain ⟨ht, hl⟩ := h.of_receiving hD receiving
    -- the object is unlocked, and no other one is locked
    have hsub : ∀ j, t.readLock j = false →
        Function.update t.readLock t.readDestination false j = false := by
      intro j hj
      by_cases hjd : j = t.readDestination <;> simp [hjd, hj]
    exact { ht with
      exclusive := fun j hj => hsub j (ht.exclusive j hj)
      receiving := fun hf => by cases hf
      notReceiving := fun _ => ⟨rfl, rfl, rfl, rfl⟩
      decodes := .empty
      assembly := fun _ => rfl
      readCount_eq := rfl
      readCount_le := Nat.zero_le _
      requested := fun hr =>
        have hq := ht.requested hr
        ⟨hq.1, hq.2.1, hsub _ hq.2.2.1, hq.2.2.2⟩ }

theorem approved (h : Session D s) (ha : Approved s s') : Session D s' := by
  cases ha with
  | none => exact h
  | own => exact h
  | lock lt other free idle =>
    have hne : ∀ j, j ≠ s.incomingRequest →
        Function.update s.readLock s.incomingRequest true j = s.readLock j :=
      fun j hj => Function.update_of_ne hj ..
    refine { h with exclusive := fun j hj => ?_, receiving := fun hl => ?_,
                    requested := fun hr => ?_ }
    · have hji : j ≠ s.incomingRequest := by
        rintro rfl
        exact absurd (idle.symm.trans hj) (by decide)
      exact (hne j hji).trans (h.exclusive j hj)
    · obtain ⟨hlock, hrest⟩ := h.receiving hl
      refine ⟨?_, hrest⟩
      by_cases hd : s.readDestination = s.incomingRequest
      · simp [hd]
      · exact (hne _ hd).trans hlock
    · obtain ⟨hlt, htr, hrl, hsl⟩ := h.requested hr
      exact ⟨hlt, htr, (hne _ other.symm).trans hrl, hsl⟩

theorem acknowledged (h : Session D s) (ha : Acknowledged s s') : Session D s' := by
  cases ha with
  | none => exact h
  | accept received hr =>
    obtain ⟨hlt, -, hrl, hsl⟩ := h.requested hr
    refine { h with exclusive := fun j hj => ?_, transfer_lt := fun j hj => ?_,
                    sending := fun hs => absurd (hsl.symm.trans hs) (by decide),
                    requested := fun hf => by cases hf }
    · by_cases hjw : j = s.waitingConfirmation
      · exact hjw ▸ hrl
      · exact h.exclusive j (by simpa [hjw] using hj)
    · by_cases hjw : j = s.waitingConfirmation
      · exact hjw ▸ hlt
      · exact h.transfer_lt j (by simpa [hjw] using hj)

theorem of_sending (hD : D.Triples) (h : Session D s)
    (hq : s.vars.acknowledgeRequested = false) (hs : Sending D s s') :
    Session D s' ∧ s'.sendLock = true ∧ s'.vars.acknowledgeRequested = false := by
  cases hs with
  | held hl => exact ⟨h, hl, hq⟩
  | @first j hl find =>
    obtain ⟨-, hj⟩ := find_spec find
    obtain ⟨hpos, hcount, -⟩ := h.notSending hl
    refine ⟨{ h with
      sending := fun _ => ⟨find, 0, ?_, (hD j hj).1⟩
      notSending := fun hf => by cases hf
      requested := fun hr => absurd (hq.symm.trans hr) (by decide) }, rfl, hq⟩
    simp [hpos, hcount]

theorem fed (hD : D.Triples) (h : Session D s) (hl : s.sendLock = true)
    (hq : s.vars.acknowledgeRequested = false) (hf : Fed D s s') : Session D s' := by
  obtain ⟨find, g, hpos, hg⟩ := h.sending hl
  have hcount := h.writeCount_eq
  have hnot : ∀ {p : Prop}, s.sendLock = false → p :=
    fun hf => absurd (hl.symm.trans hf) (by decide)
  have hreq : ∀ {p : Prop}, s.vars.acknowledgeRequested = true → p :=
    fun hr => absurd (hq.symm.trans hr) (by decide)
  cases hf with
  | fetch w count =>
    exact { h with
      sending := fun _ => ⟨find, g, by simp only; omega, hg⟩
      notSending := fun hf => hnot hf
      writeCount_eq := rfl
      writeCount_le := count
      requested := fun hr => hreq hr }
  | close count more =>
    have hsize := (hD _ (h.origin hl).2).2
    exact { h with
      sending := fun _ => ⟨find, g + 1, by simp only; omega, by simp only; omega⟩
      notSending := fun hf => hnot hf
      writeCount_eq := rfl
      writeCount_le := Nat.zero_le _
      requested := fun hr => hreq hr }
  | last count done =>
    -- the object is completed, and no other one begins
    have hsub : ∀ j, Function.update s.transfer s.writeOrigin false j = true →
        s.transfer j = true := by
      intro j hj
      by_cases hjo : j = s.writeOrigin
      · simp [hjo] at hj
      · simpa [hjo] using hj
    exact { h with
      exclusive := fun j hj => h.exclusive j (hsub j hj)
      transfer_lt := fun j hj => h.transfer_lt j (hsub j hj)
      sending := fun hf => by cases hf
      notSending := fun _ => ⟨rfl, rfl, rfl⟩
      writeCount_eq := rfl
      writeCount_le := Nat.zero_le _
      requested := fun hr => hreq hr }

theorem emitted {allow : Answers} (hD : D.Triples) (h : Session D s)
    (hq : s.vars.acknowledgeRequested = false) (he : Emitted allow D r s s') :
    Session D s' := by
  cases he with
  | poweron => exact { h with }
  | request first rest open_ lt idle free =>
    exact { h with requested := fun _ => ⟨lt, idle, free, rest⟩ }
  | shutdown => exact { h with }
  | payload first sending fed =>
    obtain ⟨ht, hl, hq'⟩ := h.of_sending hD hq sending
    exact ht.fed hD hl hq' fed
  | sighup => exact { h with }
  | idle => exact { h with }

theorem taken (hD : D.Triples) (h : Session D s) (ht : Taken D data s s') :
    Session D s' := by
  cases ht with
  | hook _ hk => exact h.receiveBits.hooked hk
  | object _ ha => exact h.receiveBits.assembled hD ha

theorem received (hD : D.Triples) (h : Session D s) (hr : Received D data s s') :
    Session D s' ∧ s'.vars.acknowledgeRequested = false := by
  obtain ⟨taken, approved, acknowledged⟩ := hr
  refine ⟨((h.taken hD taken).approved approved).acknowledged acknowledged, ?_⟩
  cases acknowledged with
  | none _ hq => exact hq
  | accept => rfl

end Session

/-- **The representation invariant between two cycles**: an object is awaited
exactly while an acknowledge is. -/
structure AtRest (D : DescriptorHelper) (s : Endpoint) : Prop extends Session D s where
  fresh : s.firstRun = true → s.vars.acknowledgeRequested = false
  confirmation : s.vars.acknowledgeRequested = false → s.waitingConfirmation = numIds

namespace AtRest

/-- The fresh endpoint. -/
theorem initial : AtRest D {} where
  toSession := .initial
  fresh _ := rfl
  confirmation _ := rfl

/-- The byte in the in buffer does not matter. -/
theorem take (h : AtRest D s) (b : Byte) : AtRest D { s with comIn := b } := { h with }

theorem heard (hD : D.Triples) (h : AtRest D s) (hh : Heard D s s') :
    Session D s' ∧ s'.vars.acknowledgeRequested = false := by
  cases hh with
  | first hf => exact ⟨h.toSession, h.fresh hf⟩
  | byte _ received => exact h.toSession.received hD received

/-- An endpoint between the two halves of a cycle awaits nothing. -/
theorem reset (h : Session D s) (hq : s.vars.acknowledgeRequested = false) :
    Session D { s with waitingConfirmation := numIds } :=
  { h with requested := fun hr => absurd (hq.symm.trans hr) (by decide) }

theorem of_emitted {allow : Answers} (hD : D.Triples) (h : Session D s)
    (hq : s.vars.acknowledgeRequested = false)
    (he : Emitted allow D r { s with waitingConfirmation := numIds } s') : AtRest D s' where
  toSession := (reset h hq).emitted hD hq he
  fresh hf := by
    cases he with
    | poweron => exact hq
    | request first => exact absurd (first.symm.trans hf) (by decide)
    | shutdown => exact hq
    | payload _ sending fed => cases sending <;> cases fed <;> exact hq
    | sighup => exact hq
    | idle => exact hq
  confirmation hr := by
    cases he with
    | poweron => rfl
    | request => cases hr
    | shutdown => rfl
    | payload _ sending fed => cases sending <;> cases fed <;> rfl
    | sighup => rfl
    | idle => rfl

/-- **Every cycle keeps the invariant**, whatever the byte received. -/
theorem cycled {allow : Answers} (hD : D.Triples) (h : AtRest D s)
    (hc : Cycled allow D r s s') : AtRest D s' := by
  obtain ⟨heard, emitted⟩ := hc
  obtain ⟨ht, hq⟩ := h.heard hD heard
  exact of_emitted hD ht hq emitted

end AtRest

end SOS
