import SoftwareOnSilicon.Cycle

/-!
# What any cycle keeps

A `Guard` is for tables whose sizes are multiples of three: it knows where in an object a cycle
is. An `Upkeep` asserts less, and so it holds for tables of any sizes. It has to be kept by
each operation, and by what a cycle makes of the locks and of the incoming request. The rest
of the private state does not matter to it.

An upkeep is told whether the descriptors are locked.
-/

namespace SOS

open Interleaving Code

variable {H α : Type}

/-- The operations of a cycle that lock nothing and write to no object. -/
inductive Op.Plain : Op → Prop
  | sync (site : Site) (j : ℕ) : Plain ⟨site, .testAndSet (.syncMe j)⟩
  | unsync (site : Site) (j : ℕ) : Plain ⟨site, .clear (.syncMe j)⟩
  | fault (j : ℕ) : Plain ⟨.emitReadlocked, .clear (.writeFault j)⟩
  | ack (site : Site) (j : ℕ) : Plain ⟨site, .clear (.writeAck j)⟩
  | received (j : ℕ) : Plain ⟨.emitReceived, .clear (.readAck j)⟩
  | assigning (site : Site) (j : ℕ) {o : Op} (ho : o.Assigning site j) : Plain o
  | started (i : ℕ) : Plain ⟨.emitInterrupted, .loadStarted i⟩
  | load (j i : ℕ) : Plain ⟨.writeObject, .load j i⟩
  | query : Plain ⟨.incomingShutdownQuery, .loadNotified⟩
  | notify (site : Site) (b : Bool) : Plain ⟨site, .storeNotified b⟩

/-- The members of an end that an upkeep may depend on are left alone. -/
structure Untouched (s s' : Endpoint) : Prop where
  readLock : s'.readLock = s.readLock
  incomingRequest : s'.incomingRequest = s.incomingRequest
  peerAcknowledge : s'.peerAcknowledge = s.peerAcknowledge

/-- **An upkeep** of a cycle that starts in a state: an assertion, while the descriptors are
locked or not, that every part of the cycle keeps. -/
structure Upkeep (ρ : Rules Endpoint ErrorCode Op.Answer H) (Φ : Bool → Endpoint → H → Prop)
    (start : Endpoint) : Prop where
  error : ∀ b s e h, Φ b s h → ρ.error s e h
  untouched : ∀ b s s' h, Untouched s s' → Φ b s h → Φ b s' h
  plain : ∀ b s o h, o.Plain → Φ b s h → ρ.node s o h ∧ ∀ a h', ρ.step s o a h h' → Φ b s h'
  acquire : ∀ site s h, Φ false s h → ρ.node s ⟨site, .acquire .descriptorsUpdated⟩ h
    ∧ ∀ (x : Unit) h', ρ.step s ⟨site, .acquire .descriptorsUpdated⟩ x h h' → Φ true s h'
  release : ∀ site s h, Φ true s h → ρ.node s ⟨site, .clear .descriptorsUpdated⟩ h
    ∧ ∀ (x : Unit) h', ρ.step s ⟨site, .clear .descriptorsUpdated⟩ x h h' → Φ false s h'
  store : ∀ j i v s h, Φ true s h → ρ.node s ⟨.readObject, .store j i v⟩ h
    ∧ ∀ (x : Unit) h', ρ.step s ⟨.readObject, .store j i v⟩ x h h' → Φ true s h'
  /-- A receive that is interrupted is reported as a fault first. -/
  interrupted : ∀ j s h, Φ false s h → ρ.node s ⟨.emitInterrupted, .clear (.readFault j)⟩ h
    ∧ ∀ (x : Unit) h', ρ.step s ⟨.emitInterrupted, .clear (.readFault j)⟩ x h h' →
      ρ.node s ⟨.emitInterrupted, .clear (.readAck j)⟩ h'
      ∧ ∀ (y : Unit) h'', ρ.step s ⟨.emitInterrupted, .clear (.readAck j)⟩ y h' h'' → Φ false s h''
  bits : ∀ data s h, Φ false s h → Φ false (s.receiveBits data) h
  /-- The byte that has been taken is a transfer request. -/
  request : ∀ h, start.firstRun = false → start.vars.receivedSighup = false →
    start.comIn.getLsbD 7 = true →
    (∀ st ∈ [State.poweron, .idle, .shutdown, .sighup], stateCode start.comIn ≠ st.code) →
    Φ false (start.receiveBits start.comIn) h → Φ false { start.receiveBits start.comIn with
      incomingRequest := receiveTransferRequest (stateCode start.comIn) } h
  lock : ∀ s h, s.incomingRequest < numIds → Φ false s h → Φ false { s with
    readLock := Function.update s.readLock s.incomingRequest true }.sendAcknowledge h
  unlock : ∀ s h, Φ false s h → Φ false { s with
    readLock := Function.update s.readLock s.readDestination false
    receiveLock := false } h

namespace Upkeep

variable {D : DescriptorHelper} {ρ : Rules Endpoint ErrorCode Op.Answer H}
  {Φ : Bool → Endpoint → H → Prop} {start s : Endpoint} {r : Role} {b : Bool} {h : H}

/-- What is between two operations of a cycle. -/
abbrev Keeps (ρ : Rules Endpoint ErrorCode Op.Answer H) (Φ : Bool → Endpoint → H → Prop)
    (c : Comm α) : Prop := Triple ρ (Φ false) c (Φ false)

variable (U : Upkeep ρ Φ start)

include U

/-! ## Statements -/

theorem plain_keeps {o : Op} (ho : o.Plain) :
    Triple ρ (Φ b) (perform o : Comm o.Answer) (Φ b) := triple_perform fun s h => U.plain b s o h ho

theorem acquire_keeps (site : Site) :
    Triple ρ (Φ false) (SOS.acquire site .descriptorsUpdated : Comm Unit) (Φ true) :=
  triple_perform (U.acquire site)

theorem release_keeps (site : Site) :
    Triple ρ (Φ true) (clear site .descriptorsUpdated : Comm Unit) (Φ false) :=
  triple_perform (U.release site)

theorem change_keeps {f : Endpoint → Endpoint} (hf : ∀ s, Untouched s (f s)) :
    Triple ρ (Φ b) (change f : Comm Unit) (Φ b) :=
  triple_change fun s h => U.untouched b s (f s) h (hf s)

theorem abort_keeps {e : ErrorCode} {Ψ : Endpoint → H → Prop} :
    Triple ρ (Φ b) (abort e : Comm α) Ψ := triple_abort fun s h => U.error b s e h

/-! ## `SyncProcessor` -/

theorem checkSync_keeps (site : Site) (j : ℕ) : Keeps ρ Φ (checkSync site j) := by
  refine triple_bind (U.plain_keeps (.sync site j)) fun _ => triple_ite ?_ (triple_pure _)
  exact triple_bind (U.plain_keeps (.unsync site j)) fun _ => triple_pure _

theorem assignStarted_keeps (site : Site) (j : ℕ) (v : Bool) :
    Keeps ρ Φ (assignStarted site j v) :=
  triple_bind (U.plain_keeps (.assigning site j .word)) fun m =>
    U.plain_keeps (.assigning site j (.assign v m))

theorem emitInit_keeps : Keeps ρ Φ emitInit :=
  triple_bind (U.acquire_keeps _) fun _ => U.release_keeps _

theorem emitInterrupted_keeps (js : List ℕ) : Keeps ρ Φ (emitInterrupted js) := by
  induction js with
  | nil => exact triple_pure ()
  | cons j js ih =>
    refine triple_bind (U.plain_keeps (.started j)) fun _ => triple_ite ?_ ih
    intro s h hΦ
    obtain ⟨hfault, hafter⟩ := U.interrupted j s h hΦ
    refine ⟨hfault, fun x h₁ hx => ?_⟩
    obtain ⟨hack, hafter⟩ := hafter x h₁ hx
    refine ⟨hack, fun y h₂ hy => ?_⟩
    exact triple_bind (U.assignStarted_keeps _ _ _) (fun _ => ih) s h₂ (hafter y h₂ hy)

theorem emitTransfer_keeps (j : ℕ) : Keeps ρ Φ (emitTransfer j) :=
  triple_bind (U.plain_keeps (.sync _ j)) fun _ => triple_pure ()

theorem emitReceived_keeps (j : ℕ) : Keeps ρ Φ (emitReceived j) :=
  triple_bind (U.assignStarted_keeps _ _ _) fun _ => U.plain_keeps (.received j)

theorem transfersPending_keeps (js : List ℕ) : Keeps ρ Φ (transfersPending js) := by
  induction js with
  | nil => exact triple_pure false
  | cons j js ih =>
    refine triple_bind (U.checkSync_keeps _ j) fun _ => triple_look_bind fun _ => ?_
    exact triple_ite (triple_pure true) ih

theorem comShutdownAction_keeps : Keeps ρ Φ (comShutdownAction r) := by
  cases r with
  | fpga => exact triple_pure ()
  | mcu => exact triple_bind (U.emitInterrupted_keeps _) fun _ => U.plain_keeps (.notify _ _)

theorem incomingShutdownQuery_keeps : Keeps ρ Φ (incomingShutdownQuery D r) := by
  have hquery : Keeps ρ Φ (shutdownQuery D) := by
    refine triple_bind (U.transfersPending_keeps _) fun _ => triple_ite (triple_pure _) ?_
    refine triple_look_bind fun _ => triple_ite (triple_pure _) ?_
    refine triple_look_bind fun _ => triple_ite (triple_pure _) ?_
    exact U.plain_keeps .query
  cases r with
  | fpga => exact hquery
  | mcu => exact triple_look_bind fun _ => triple_ite hquery (triple_pure _)

/-! ## `BlockWiseTransfer` -/

theorem readFlush_keeps : Keeps ρ Φ readFlush := by
  refine triple_look_bind fun x => ?_
  cases bitsetToBytearray 3 x with
  | none => exact U.abort_keeps
  | some bytes => exact triple_bind (U.change_keeps fun _ => ⟨rfl, rfl, rfl⟩) fun _ => triple_pure _

omit U in
theorem untouched_write {s' : Endpoint} (w : Byte) (hs : Untouched s s') :
    Untouched s (s'.write w) := by
  unfold Endpoint.write
  split <;> exact ⟨hs.readLock, hs.incomingRequest, hs.peerAcknowledge⟩

/-- **`write_object`** locks the descriptors for the byte that it fetches. -/
theorem writeObject_keeps : Keeps ρ Φ (writeObject D) := by
  have hend : ∀ (f : Endpoint → Endpoint), (∀ s, Untouched s (f s)) → Keeps ρ Φ (do
      change f
      change fun s : Endpoint => { s with history.payload := true }
      return true : Comm Bool) := fun f hf =>
    triple_bind (U.change_keeps hf) fun _ =>
      triple_bind (U.change_keeps fun _ => ⟨rfl, rfl, rfl⟩) fun _ => triple_pure true
  refine triple_look_bind fun _ => triple_ite ?_ (triple_pure false)
  refine triple_look_bind fun _ => triple_ite ?_ ?_
  · refine triple_bind (U.acquire_keeps _) fun _ => ?_
    refine triple_look_bind fun j => triple_look_bind fun i => ?_
    refine triple_bind (U.plain_keeps (.load j i)) fun data => ?_
    refine triple_bind (U.change_keeps fun _ => ⟨rfl, rfl, rfl⟩) fun _ => ?_
    exact triple_bind (U.release_keeps _) fun _ => hend _ fun s =>
      untouched_write data ⟨rfl, rfl, rfl⟩
  · refine triple_look_bind fun _ => triple_look_bind fun _ => ?_
    have hlast := hend (fun s => { s with write3plus1 := 0 }.write 63) fun s =>
      have hs : Untouched s { s with write3plus1 := 0 } := ⟨rfl, rfl, rfl⟩
      untouched_write 63 hs
    refine triple_ite ?_ hlast
    refine triple_look_bind fun j => triple_bind (U.plain_keeps (.ack _ j)) fun _ => ?_
    exact triple_bind (U.change_keeps fun _ => ⟨rfl, rfl, rfl⟩) fun _ => hlast

/-- The inner loop of `read_object`, under the lock. -/
theorem storeBytes_keeps (bytes : List Byte) :
    Triple ρ (Φ true) (storeBytes bytes) (Φ true) := by
  induction bytes with
  | nil => exact triple_pure ()
  | cons v bs ih =>
    refine triple_look_bind fun j => triple_look_bind fun i => ?_
    refine triple_bind (triple_perform (U.store j i v)) fun _ => ?_
    exact triple_bind (U.change_keeps fun _ => ⟨rfl, rfl, rfl⟩) fun _ => ih

theorem assembleSymbol_keeps (data : Byte) : Keeps ρ Φ (assembleSymbol D data) := by
  have hend : Keeps ρ Φ (do
      if (← look Endpoint.readDestinationPos) = D.objSize (← look Endpoint.readDestination) then
        change fun s : Endpoint => { s with
          readLock := Function.update s.readLock s.readDestination false
          receiveLock := false }
        emitReceived (← look Endpoint.readDestination)
        change fun s : Endpoint => { s with
          readDestinationPos := 0
          history.received := s.history.received ++ [(s.readDestination, s.history.stored)]
          history.stored := []
          history.symbols := [] }
      change fun s : Endpoint => { s with read4minus1 := 0 } : Comm Unit) := by
    refine triple_look_bind fun _ => triple_look_bind fun _ => ?_
    refine triple_ite ?_ (U.change_keeps fun _ => ⟨rfl, rfl, rfl⟩)
    refine triple_bind (triple_change U.unlock) fun _ => triple_look_bind fun j => ?_
    refine triple_bind (U.emitReceived_keeps j) fun _ => ?_
    refine triple_bind (U.change_keeps fun _ => ⟨rfl, rfl, rfl⟩) fun _ => ?_
    exact U.change_keeps fun _ => ⟨rfl, rfl, rfl⟩
  refine triple_look_bind fun _ => triple_ite ?_ U.abort_keeps
  refine triple_bind (U.change_keeps fun _ => ⟨rfl, rfl, rfl⟩) fun _ => triple_look_bind fun _ => ?_
  refine triple_ite (U.change_keeps fun _ => ⟨rfl, rfl, rfl⟩) (triple_look_bind fun _ => ?_)
  refine triple_ite (triple_bind U.readFlush_keeps fun bytes => ?_) (triple_pure _)
  refine triple_look_bind fun _ => triple_look_bind fun _ => ?_
  refine triple_ite ?_ hend
  refine triple_bind (U.acquire_keeps _) fun _ => triple_bind (U.storeBytes_keeps bytes) fun _ => ?_
  exact triple_bind (U.release_keeps _) fun _ => hend

theorem readObject_keeps (data : Byte) : Keeps ρ Φ (readObject D data) := by
  refine triple_look_bind fun _ => triple_ite ?_ (U.assembleSymbol_keeps data)
  refine triple_look_bind fun locks => ?_
  cases D.ids.find? locks with
  | none => exact U.assembleSymbol_keeps data
  | some j =>
    have hassemble : Keeps ρ Φ (do
        change fun s : Endpoint => { s with receiveLock := true, readDestination := j }
        assembleSymbol D data : Comm Unit) :=
      triple_bind (U.change_keeps fun _ => ⟨rfl, rfl, rfl⟩) fun _ => U.assembleSymbol_keeps data
    refine triple_look_bind fun _ => triple_ite ?_ hassemble
    exact triple_bind U.abort_keeps fun _ => hassemble

/-! ## The `IN` half -/

/-- **`read_hook`**: the request is that of the byte that has been taken. -/
theorem readHook_safe (hfirst : start.firstRun = false) (hbit : start.comIn.getLsbD 7 = true)
    (hΦ : Φ false (start.receiveBits start.comIn) h) :
    ((readHook r start.comIn).run (start.receiveBits start.comIn)).Safe ρ
      (fun s _ h => Φ false s h) h := by
  have hpoweron : Keeps ρ Φ (do
      access .readHook (.storeNotified false)
      change fun s : Endpoint => { s with vars := {} }
      clearReadReceive : Comm Unit) := by
    refine triple_bind (U.plain_keeps (.notify _ _)) fun _ => ?_
    refine triple_bind (U.change_keeps fun _ => ⟨rfl, rfl, rfl⟩) fun _ => ?_
    refine triple_look_bind fun _ => triple_look_bind fun _ => ?_
    exact triple_ite U.abort_keeps (triple_pure ())
  have hshutdown : Keeps ρ Φ (do
      if !(← look Endpoint.vars).receivedComShutdown then
        comShutdownAction r
        change fun s : Endpoint => { s with vars.receivedComShutdown := true }
      else
        abort .duplicateComShutdown : Comm Unit) := by
    refine triple_look_bind fun _ => triple_ite ?_ U.abort_keeps
    exact triple_bind U.comShutdownAction_keeps fun _ => U.change_keeps fun _ => ⟨rfl, rfl, rfl⟩
  by_cases h₁ : stateCode start.comIn = State.poweron.code
  · rw [readHook, if_pos h₁]
    refine triple_look_bind (fun _ => triple_look_bind fun _ => ?_) _ h hΦ
    exact triple_ite (triple_bind U.abort_keeps fun _ => hpoweron) hpoweron
  by_cases h₂ : stateCode start.comIn = State.idle.code
  · rw [readHook, if_neg h₁, if_pos h₂]
    refine triple_look_bind (fun _ => ?_) _ h hΦ
    exact triple_ite (U.change_keeps fun _ => ⟨rfl, rfl, rfl⟩) (triple_pure ())
  by_cases h₃ : stateCode start.comIn = State.shutdown.code
  · rw [readHook, if_neg h₁, if_neg h₂, if_pos h₃]
    refine triple_look_bind (fun _ => triple_ite ?_ hshutdown) _ h hΦ
    exact triple_bind U.abort_keeps fun _ => hshutdown
  by_cases h₄ : stateCode start.comIn = State.sighup.code
  · rw [readHook, if_neg h₁, if_neg h₂, if_neg h₃, if_pos h₄]
    refine triple_look_bind (fun _ => ?_) _ h hΦ
    exact triple_ite (U.change_keeps fun _ => ⟨rfl, rfl, rfl⟩) U.abort_keeps
  · -- none of the state codes: it is the code of an object
    rw [readHook, if_neg h₁, if_neg h₂, if_neg h₃, if_neg h₄, run_bind, run_look, Prog.safe_bind,
      Prog.safe_ret]
    have hsighup : (start.receiveBits start.comIn).vars.receivedSighup
        = start.vars.receivedSighup := rfl
    rw [hsighup]
    cases hs : start.vars.receivedSighup with
    | true => exact U.error false _ _ h hΦ
    | false => exact U.request h hfirst hs hbit (by simp [h₁, h₂, h₃, h₄]) hΦ

/-- `emit_readlocked` leaves the private state alone. -/
theorem emitReadlocked_safe (j : ℕ) (hΦ : Φ false s h) :
    ((emitReadlocked j).run s).Safe ρ (fun s' _ h' => s' = s ∧ Φ false s h') h := by
  refine SOS.emitReadlocked_keeps (fun o h ho => U.plain false s o h ?_) hΦ fun h' => ?_
  · cases ho with
    | sync => exact .sync _ j
    | fault => exact .fault j
    | ack => exact .ack _ j
  · exact SOS.assignStarted_keeps fun o h ho => U.plain false s o h (.assigning _ j ho)

theorem transferHook_keeps : Keeps ρ Φ transferHook := by
  intro s h hΦ
  simp only [transferHook, run_bind, run_look, Prog.safe_bind, Prog.safe_ret]
  split
  case isFalse => exact hΦ
  case isTrue lt =>
    simp only [run_bind, run_look, Prog.safe_bind, Prog.safe_ret]
    split
    case isFalse => exact hΦ
    case isTrue =>
      simp only [run_bind, run_look, Prog.safe_bind, Prog.safe_ret]
      split
      case isTrue => exact U.error false s _ h hΦ
      case isFalse =>
        simp only [run_bind, run_look, Prog.safe_bind, Prog.safe_ret]
        split
        case isFalse => exact U.error false s _ h hΦ
        case isTrue =>
          simp only [run_bind, run_look, Prog.safe_bind, Prog.safe_ret]
          refine (U.emitReadlocked_safe s.incomingRequest hΦ).imp ?_
          rintro s' _ h' ⟨rfl, hΦ'⟩
          exact U.lock s' h' lt hΦ'

theorem processAcknowledge_keeps : Keeps ρ Φ processAcknowledge := by
  have haccept : Keeps ρ Φ (do
      if !(← look Endpoint.readLock) (← look Endpoint.waitingConfirmation) then
        change fun s => { s with
          transfer := Function.update s.transfer s.waitingConfirmation true }
        emitTransfer (← look Endpoint.waitingConfirmation)
      else
        abort .readlockPredatesAcknowledge : Comm Unit) := by
    refine triple_look_bind fun _ => triple_look_bind fun _ => ?_
    refine triple_ite (triple_bind (U.change_keeps fun _ => ⟨rfl, rfl, rfl⟩) fun _ => ?_)
      U.abort_keeps
    exact triple_look_bind fun j => U.emitTransfer_keeps j
  have htransfer : Keeps ρ Φ (do
      if (← look Endpoint.transfer) (← look Endpoint.waitingConfirmation) then
        abort .receivedADuplicateTransferAcknowledgeOnObjectInTransfer
      if !(← look Endpoint.readLock) (← look Endpoint.waitingConfirmation) then
        change fun s => { s with
          transfer := Function.update s.transfer s.waitingConfirmation true }
        emitTransfer (← look Endpoint.waitingConfirmation)
      else
        abort .readlockPredatesAcknowledge : Comm Unit) := by
    refine triple_look_bind fun _ => triple_look_bind fun _ => ?_
    exact triple_ite (triple_bind U.abort_keeps fun _ => haccept) haccept
  have hack : Keeps ρ Φ acknowledgeHook := by
    refine triple_look_bind fun _ => triple_ite ?_ (triple_pure ())
    refine triple_look_bind fun _ => triple_look_bind fun _ => ?_
    exact triple_ite (triple_bind U.abort_keeps fun _ => htransfer) htransfer
  refine triple_look_bind fun _ => triple_ite ?_ ?_
  · refine triple_look_bind fun _ => triple_ite U.abort_keeps ?_
    exact triple_bind hack fun _ => U.change_keeps fun _ => ⟨rfl, rfl, rfl⟩
  · exact triple_look_bind fun _ => triple_ite U.abort_keeps (triple_pure _)

/-- **The `IN` half of a cycle.** -/
theorem receiveByte_safe (hfirst : start.firstRun = false) (hΦ : Φ false start h) :
    ((receiveByte D r).run start).Safe ρ (fun s _ h => Φ false s h) h := by
  have hend : Keeps ρ Φ (do transferHook; processAcknowledge : Comm Unit) :=
    triple_bind U.transferHook_keeps fun _ => U.processAcknowledge_keeps
  have hbits := U.bits start.comIn start h hΦ
  have hbit : (start.receiveBits start.comIn).vars.receivedRequest = start.comIn.getLsbD 7 := rfl
  simp only [receiveByte, run_bind, run_look, run_change, Prog.safe_bind, Prog.safe_ret, hbit]
  cases request : start.comIn.getLsbD 7 with
  | true =>
    rw [if_pos rfl, run_bind, Prog.safe_bind]
    exact (U.readHook_safe hfirst request hbits).imp fun s _ h hΦ => hend s h hΦ
  | false =>
    rw [if_neg (by decide), run_bind, Prog.safe_bind]
    exact (U.readObject_keeps start.comIn _ h hbits).imp fun s _ h hΦ => hend s h hΦ

/-! ## The `OUT` half -/

theorem getFirstTransfer_keeps (js : List ℕ) : Keeps ρ Φ (getFirstTransfer js) := by
  induction js with
  | nil => exact triple_pure false
  | cons j js ih =>
    have hsend : Keeps ρ Φ (do
        change fun s : Endpoint => { s with
          waitingConfirmation := j
          vars.acknowledgeRequested := true }
        sendTransferRequest j
        return true : Comm Bool) := by
      refine triple_bind (U.change_keeps fun _ => ⟨rfl, rfl, rfl⟩) fun _ => ?_
      refine triple_bind (triple_ite ?_ U.abort_keeps) fun _ => triple_pure true
      exact U.change_keeps fun _ => ⟨rfl, rfl, rfl⟩
    refine triple_bind (U.checkSync_keeps _ j) fun _ => triple_look_bind fun _ => ?_
    refine triple_ite (triple_look_bind fun _ => ?_) ih
    exact triple_ite (triple_bind U.abort_keeps fun _ => hsend) hsend

theorem getFirstSyncObject_keeps : Keeps ρ Φ (getFirstSyncObject D) := by
  refine triple_look_bind fun transfer => ?_
  cases D.ids.find? transfer with
  | none => exact triple_pure false
  | some j =>
    have hstart : Keeps ρ Φ (do
        change fun s : Endpoint => { s with sendLock := true, writeOrigin := j }
        return true : Comm Bool) :=
      triple_bind (U.change_keeps fun _ => ⟨rfl, rfl, rfl⟩) fun _ => triple_pure true
    have hpos : Keeps ρ Φ (do
        if (← look Endpoint.writeOriginPos) ≠ 0 then
          abort .previousObjectWriteHasNotBeenCompleted
        change fun s : Endpoint => { s with sendLock := true, writeOrigin := j }
        return true : Comm Bool) := by
      refine triple_look_bind fun _ => triple_ite ?_ hstart
      exact triple_bind U.abort_keeps fun _ => hstart
    refine triple_look_bind fun _ => triple_ite ?_ hpos
    exact triple_bind U.abort_keeps fun _ => hpos

theorem writeHook_keeps : Keeps ρ Φ (writeHook D r) := by
  have hunless : ∀ {c : Comm Bool}, Keeps ρ Φ c → Keeps ρ Φ (unlessSending c) := fun hc =>
    triple_look_bind fun _ => triple_ite hc (triple_pure _)
  refine triple_look_bind fun _ => triple_ite ?_ ?_
  · exact triple_bind (U.change_keeps fun _ => ⟨rfl, rfl, rfl⟩) fun _ => triple_pure true
  refine triple_bind (hunless ?_) fun _ => triple_ite (triple_pure true) ?_
  · exact triple_look_bind fun _ => triple_ite (U.getFirstTransfer_keeps _) (triple_pure false)
  refine triple_bind (hunless ?_) fun _ => triple_ite (triple_pure true) ?_
  · refine triple_bind U.incomingShutdownQuery_keeps fun _ => ?_
    refine triple_look_bind fun _ => triple_ite ?_ (triple_pure false)
    exact triple_bind (U.change_keeps fun _ => ⟨rfl, rfl, rfl⟩) fun _ => triple_pure true
  refine triple_bind (hunless U.getFirstSyncObject_keeps) fun _ =>
    triple_ite (triple_pure false) (hunless ?_)
  refine triple_look_bind fun _ => triple_look_bind fun _ => ?_
  refine triple_ite ?_ (triple_pure false)
  exact triple_bind (U.change_keeps fun _ => ⟨rfl, rfl, rfl⟩) fun _ => triple_pure true

theorem sendByte_keeps : Keeps ρ Φ (sendByte D r) := by
  refine triple_bind (U.change_keeps fun _ => ⟨rfl, rfl, rfl⟩) fun _ => ?_
  refine triple_bind U.writeHook_keeps fun _ => ?_
  refine triple_ite (triple_bind U.writeObject_keeps fun _ => ?_) (triple_pure ())
  exact triple_ite (U.change_keeps fun _ => ⟨rfl, rfl, rfl⟩) (triple_pure ())

/-- **A cycle** keeps what it starts with. -/
theorem cycle_safe (hΦ : Φ false start h) :
    ((cycle D r).run start).Safe ρ (fun s _ h => Φ false s h) h := by
  rw [cycle, run_bind, run_look, Prog.safe_bind, Prog.safe_ret]
  cases hfirst : start.firstRun with
  | true => exact triple_bind U.emitInit_keeps (fun _ => U.sendByte_keeps) start h hΦ
  | false =>
    rw [if_neg (by decide), run_bind, Prog.safe_bind]
    exact (U.receiveByte_safe hfirst hΦ).imp fun s _ h hΦ => U.sendByte_keeps s h hΦ

end Upkeep

end SOS
