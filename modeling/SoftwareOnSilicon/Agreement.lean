import SoftwareOnSilicon.Stream
import SoftwareOnSilicon.Link

/-!
# The two ends agree

After an end has heard a byte and before it emits the next, nothing is in
flight but an acknowledge, and the sessions of the two ends fit together:
`Half` says it for one direction – what one end sends and the other receives –
and `Agree` for both. An object that is awaited at the sender is already
readlocked at the receiver; every other readlock stands for an acknowledged
transfer, and the object in transit is at the same place at both ends.

The step of the protocol is that an end in such a state emits a symbol and the
other one hears it (`Agree.hears`). There is one case for each kind of symbol.
None of them runs into an error of the receiver, and each re-establishes the
agreement with the two ends exchanged.
-/

namespace SOS

open Interleaving

variable {D : DescriptorHelper} {r : Role} {allow : Answers} {A A' B B' : Endpoint} {b : Byte}

/-- The object whose acknowledge an endpoint awaits. -/
def Endpoint.awaits (s : Endpoint) (j : ℕ) : Bool :=
  s.vars.acknowledgeRequested && decide (j = s.waitingConfirmation)

/-- **One direction**: what `A` sends and `B` receives, with no symbol under
way from `A`. -/
structure Half (D : DescriptorHelper) (A B : Endpoint) : Prop where
  session : Session D A
  locks : ∀ j, B.readLock j = (A.transfer j || A.awaits j)
  stream : Stream A B
  /-- Payload is not marked as a request. -/
  quiet : A.vars.acknowledgeRequested = false → (∃ j, A.transfer j = true) →
    A.ownUpdated = false
  sent : B.history.received = A.history.sent
  told : B.vars.receivedComShutdown = A.vars.sentComShutdown
  hung : B.vars.receivedSighup = A.vars.sentSighup
  closed : A.vars.sentSighup = true →
    A.vars.sentComShutdown = true ∧ B.vars.sentComShutdown = true

/-- **The two ends agree.** -/
structure Agree (D : DescriptorHelper) (A B : Endpoint) : Prop where
  forth : Half D A B
  back : Half D B A

theorem Agree.symm (h : Agree D A B) : Agree D B A := ⟨h.back, h.forth⟩

/-- **An end that has not begun**: there is nothing in its session. -/
structure Fresh (s : Endpoint) : Prop where
  idle : ∀ j, s.transfer j = false
  unrequested : s.vars.acknowledgeRequested = false
  silent : s.peerAcknowledge = false
  open_ : s.vars.sentComShutdown = false
  unhung : s.vars.sentSighup = false

theorem Fresh.rest (h : Fresh A) (hA : Session D A) : A.sendLock = false := by
  by_contra hs
  have htr := (hA.origin (by simpa using hs)).1
  exact absurd ((h.idle _).symm.trans htr) (by decide)

/-- What has been heard, up to the acknowledge bit. -/
structure Ready (D : DescriptorHelper) (A B : Endpoint) : Prop where
  agree : Agree D A B
  acknowledge : B.vars.receivedAcknowledge = B.vars.acknowledgeRequested
  quiet : B.vars.receivedAcknowledge = true → B.ownUpdated = false
  reply : B.peerAcknowledge = A.vars.acknowledgeRequested

/-- What has been heard: nothing is awaited by `B`, and its reply is due. -/
structure Settled (D : DescriptorHelper) (A B : Endpoint) : Prop where
  agree : Agree D A B
  heard : B.vars.acknowledgeRequested = false
  reply : B.peerAcknowledge = A.vars.acknowledgeRequested

namespace Ready

/-- The acknowledge bit is expected exactly where it arrives. -/
theorem no_fault (h : Ready D A B) (e : ErrorCode) : ¬ AcknowledgeFault B e := by
  intro hf
  cases hf with
  | unrequested received hq =>
    exact absurd (received.symm.trans (h.acknowledge.trans hq)) (by decide)
  | missing received hq =>
    exact absurd (hq.symm.trans (h.acknowledge.symm.trans received)) (by decide)

/-- **The acknowledge** turns the awaited object into a transfer. -/
theorem acknowledged (h : Ready D A B) (ha : Acknowledged B B') : Settled D A B' := by
  obtain ⟨⟨forth, back⟩, -, hquiet, hreply⟩ := h
  cases ha with
  | none _ hq => exact ⟨⟨forth, back⟩, hq, hreply⟩
  | accept received hq =>
    refine ⟨⟨{ forth with stream := { forth.stream with } }, ?_⟩, rfl, hreply⟩
    refine { back with
      session := back.session.acknowledged (.accept received hq)
      locks := fun j => ?_
      stream := { back.stream with }
      quiet := fun _ _ => hquiet received }
    rw [back.locks j]
    by_cases hj : j = B.waitingConfirmation
    · simp [Endpoint.awaits, hq, hj]
    · simp [Endpoint.awaits, hj]

end Ready

/-! ## Hearing a symbol -/

theorem Approved.skip (h : A.incomingRequest = numIds) (ha : Approved A A') : A' = A := by
  cases ha with
  | none => rfl
  | own => rfl
  | lock lt => exact absurd lt (by omega)

/-- The three parts of the `IN` half, for a byte whose first part is known. -/
theorem hears_of_taken
    (hhook : b.getLsbD 7 = true → ∀ e, ¬ HookFault b (B.receiveBits b) e)
    (hobject : b.getLsbD 7 = false → ∀ e, ¬ AssembleFault D (B.receiveBits b) e)
    (htaken : ∀ B₁, Taken D b B B₁ → (∀ e, ¬ ApproveFault B₁ e)
      ∧ ∀ B₂, Approved B₁ B₂ → Ready D A B₂) :
    (∀ e, ¬ ReceiveFault D b B e) ∧ ∀ B', Received D b B B' → Settled D A B' := by
  refine ⟨fun e hf => ?_, fun B' hr => ?_⟩
  · cases hf with
    | hook request h => exact hhook request e h
    | object request h => exact hobject request e h
    | approve taken h => exact (htaken _ taken).1 e h
    | acknowledge taken approved h => exact ((htaken _ taken).2 _ approved).no_fault e h
  · obtain ⟨taken, approved, acknowledged⟩ := hr
    exact ((htaken _ taken).2 _ approved).acknowledged acknowledged

/-- A symbol that requests no transfer. -/
theorem hears_of_control (request : b.getLsbD 7 = true)
    (hfault : ∀ e, ¬ HookFault b (B.receiveBits b) e)
    (hhooked : ∀ B₁, Hooked b (B.receiveBits b) B₁ →
      B₁.incomingRequest = numIds ∧ Ready D A B₁) :
    (∀ e, ¬ ReceiveFault D b B e) ∧ ∀ B', Received D b B B' → Settled D A B' := by
  refine hears_of_taken (fun _ => hfault)
    (fun hf => absurd (request.symm.trans hf) (by decide)) fun B₁ taken => ?_
  cases taken with
  | object hf => exact absurd (request.symm.trans hf) (by decide)
  | hook _ h =>
    obtain ⟨hnone, hready⟩ := hhooked B₁ h
    refine ⟨fun e hf => ?_, fun B₂ ha => by rwa [ha.skip hnone]⟩
    cases hf <;> omega

/-! ### The code of a control symbol decides what happens -/

section Codes

variable {s s' : Endpoint} {e : ErrorCode}

theorem Hooked.of_idle (hc : stateCode b = State.idle.code) (h : Hooked b s s') :
    ∃ v, s' = { s with vars.receivedIdle := v } := by
  cases h with
  | poweron code => exact absurd (State.code_inj (hc.symm.trans code)) (by decide)
  | idle _ v => exact ⟨v, rfl⟩
  | shutdown code => exact absurd (State.code_inj (hc.symm.trans code)) (by decide)
  | sighup code => exact absurd (State.code_inj (hc.symm.trans code)) (by decide)
  | request code => exact absurd hc (code .idle (by decide))

theorem HookFault.of_idle (hc : stateCode b = State.idle.code) : ¬ HookFault b s e := by
  intro h
  cases h with
  | poweron code => exact absurd (State.code_inj (hc.symm.trans code)) (by decide)
  | hotplug code => exact absurd (State.code_inj (hc.symm.trans code)) (by decide)
  | afterSighup code => exact code .idle (by decide) hc
  | shutdown code => exact absurd (State.code_inj (hc.symm.trans code)) (by decide)
  | sighup code => exact absurd (State.code_inj (hc.symm.trans code)) (by decide)

theorem Hooked.of_poweron (hc : stateCode b = State.poweron.code) (h : Hooked b s s') :
    s' = { s with vars := {} } := by
  cases h with
  | poweron => rfl
  | idle code => exact absurd (State.code_inj (hc.symm.trans code)) (by decide)
  | shutdown code => exact absurd (State.code_inj (hc.symm.trans code)) (by decide)
  | sighup code => exact absurd (State.code_inj (hc.symm.trans code)) (by decide)
  | request code => exact absurd hc (code .poweron (by decide))

theorem HookFault.of_poweron (hc : stateCode b = State.poweron.code) (h : HookFault b s e) :
    (s.vars.acknowledgeRequested = true ∨ s.vars.receivedAcknowledge = true)
      ∨ (s.receiveLock = true ∨ s.readCount ≠ 0) := by
  cases h with
  | poweron _ h => exact .inl h
  | hotplug _ h => exact .inr h
  | afterSighup code => exact absurd hc (code .poweron (by decide))
  | shutdown code => exact absurd (State.code_inj (hc.symm.trans code)) (by decide)
  | sighup code => exact absurd (State.code_inj (hc.symm.trans code)) (by decide)

theorem Hooked.of_shutdown (hc : stateCode b = State.shutdown.code) (h : Hooked b s s') :
    s' = { s with vars.receivedComShutdown := true } := by
  cases h with
  | poweron code => exact absurd (State.code_inj (hc.symm.trans code)) (by decide)
  | idle code => exact absurd (State.code_inj (hc.symm.trans code)) (by decide)
  | shutdown => rfl
  | sighup code => exact absurd (State.code_inj (hc.symm.trans code)) (by decide)
  | request code => exact absurd hc (code .shutdown (by decide))

theorem HookFault.of_shutdown (hc : stateCode b = State.shutdown.code)
    (h : HookFault b s e) :
    s.vars.receivedSighup = true ∨ s.vars.receivedComShutdown = true := by
  cases h with
  | poweron code => exact absurd (State.code_inj (hc.symm.trans code)) (by decide)
  | hotplug code => exact absurd (State.code_inj (hc.symm.trans code)) (by decide)
  | afterSighup _ h => exact .inl h
  | shutdown _ h => exact .inr h
  | sighup code => exact absurd (State.code_inj (hc.symm.trans code)) (by decide)

theorem Hooked.of_sighup (hc : stateCode b = State.sighup.code) (h : Hooked b s s') :
    s' = { s with vars.receivedSighup := true } := by
  cases h with
  | poweron code => exact absurd (State.code_inj (hc.symm.trans code)) (by decide)
  | idle code => exact absurd (State.code_inj (hc.symm.trans code)) (by decide)
  | shutdown code => exact absurd (State.code_inj (hc.symm.trans code)) (by decide)
  | sighup => rfl
  | request code => exact absurd hc (code .sighup (by decide))

theorem HookFault.of_sighup (hc : stateCode b = State.sighup.code) (h : HookFault b s e) :
    s.vars.receivedSighup = true := by
  cases h with
  | poweron code => exact absurd (State.code_inj (hc.symm.trans code)) (by decide)
  | hotplug code => exact absurd (State.code_inj (hc.symm.trans code)) (by decide)
  | afterSighup code => exact absurd hc (code .sighup (by decide))
  | shutdown code => exact absurd (State.code_inj (hc.symm.trans code)) (by decide)
  | sighup _ h => exact h

theorem Hooked.of_request {j : ℕ} (hj : j < numIds) (hc : stateCode b = transferCode j)
    (h : Hooked b s s') : s' = { s with incomingRequest := j } := by
  obtain ⟨-, hreceive, hne⟩ := transferCode_spec hj
  cases h with
  | poweron code => exact absurd (hc.symm.trans code) (hne _)
  | idle code => exact absurd (hc.symm.trans code) (hne _)
  | shutdown code => exact absurd (hc.symm.trans code) (hne _)
  | sighup code => exact absurd (hc.symm.trans code) (hne _)
  | request => rw [hc, hreceive]

theorem HookFault.of_request {j : ℕ} (hj : j < numIds) (hc : stateCode b = transferCode j)
    (h : HookFault b s e) : s.vars.receivedSighup = true := by
  obtain ⟨-, -, hne⟩ := transferCode_spec hj
  cases h with
  | poweron code => exact absurd (hc.symm.trans code) (hne _)
  | hotplug code => exact absurd (hc.symm.trans code) (hne _)
  | afterSighup _ h => exact h
  | shutdown code => exact absurd (hc.symm.trans code) (hne _)
  | sighup code => exact absurd (hc.symm.trans code) (hne _)

end Codes

/-! ### One lemma for each kind of symbol -/

/-- The signal bits on their own change nothing the ends agree on. -/
theorem Agree.receiveBits (h : Agree D A B) : Agree D A (B.receiveBits b) where
  forth := { h.forth with stream := { h.forth.stream with } }
  back := { h.back with
    session := h.back.session.receiveBits
    locks := h.back.locks
    stream := { h.back.stream with }
    quiet := fun hq ht => by
      have hown := h.back.quiet hq ht
      simp [Endpoint.receiveBits, Endpoint.receiveSignals, Endpoint.readBits, hown] }

theorem receiveBits_ownUpdated (h : b.getLsbD 6 = true) :
    (B.receiveBits b).ownUpdated = false := by
  simp [Endpoint.receiveBits, Endpoint.receiveSignals, Endpoint.readBits, h]

/-- No object is in transfer where the first one is looked for in vain. -/
theorem Session.no_transfer (hA : Session D A) (none : D.ids.find? A.transfer = none)
    (j : ℕ) : A.transfer j = false := by
  by_contra h
  have hj : A.transfer j = true := by simpa using h
  exact absurd ((find_none none (hA.transfer_lt j hj)).symm.trans hj) (by decide)

/-! ### The two directions do not notice one another -/

/-- **What an end is as a sender**, with its signals. -/
structure SenderFrame (s s' : Endpoint) : Prop where
  transfer : s'.transfer = s.transfer := by rfl
  sendLock : s'.sendLock = s.sendLock := by rfl
  writeOrigin : s'.writeOrigin = s.writeOrigin := by rfl
  writeOriginPos : s'.writeOriginPos = s.writeOriginPos := by rfl
  writeCount : s'.writeCount = s.writeCount := by rfl
  writeAssembly : s'.writeAssembly = s.writeAssembly := by rfl
  fetched : s'.history.fetched = s.history.fetched := by rfl
  sent : s'.history.sent = s.history.sent := by rfl
  vars : s'.vars = s.vars := by rfl
  confirmation : s'.waitingConfirmation = s.waitingConfirmation := by rfl
  incoming : s'.incomingRequest = s.incomingRequest := by rfl
  ownUpdated : s'.ownUpdated = s.ownUpdated := by rfl
  peerAcknowledge : s'.peerAcknowledge = s.peerAcknowledge := by rfl

/-- **What an end is as a receiver**, with its signals. -/
structure ReceiverFrame (s s' : Endpoint) : Prop where
  readLock : s'.readLock = s.readLock := by rfl
  receiveLock : s'.receiveLock = s.receiveLock := by rfl
  readDestination : s'.readDestination = s.readDestination := by rfl
  readDestinationPos : s'.readDestinationPos = s.readDestinationPos := by rfl
  readCount : s'.readCount = s.readCount := by rfl
  readAssembly : s'.readAssembly = s.readAssembly := by rfl
  stored : s'.history.stored = s.history.stored := by rfl
  received : s'.history.received = s.history.received := by rfl
  vars : s'.vars = s.vars := by rfl
  confirmation : s'.waitingConfirmation = s.waitingConfirmation := by rfl
  ownUpdated : s'.ownUpdated = s.ownUpdated := by rfl
  peerAcknowledge : s'.peerAcknowledge = s.peerAcknowledge := by rfl

/-- Receiving a payload symbol is nothing to the sender. -/
theorem Assembled.sender (h : Assembled D b B B') : SenderFrame B B' := by
  cases h with
  | part receiving => cases receiving <;> exact {}
  | group receiving => cases receiving <;> exact {}
  | last receiving => cases receiving <;> exact {}

/-- Sending a payload symbol is nothing to the receiver. -/
theorem Fed.receiver {T : Endpoint} (hs : Sending D A T) (hf : Fed D T A') :
    ReceiverFrame A A' := by
  cases hs <;> cases hf <;> exact {}

/-- A direction depends on its sender and its receiver only. -/
theorem Half.of_frames (h : Half D A B) (hs : SenderFrame A A') (hr : ReceiverFrame B B')
    (session : Session D A') : Half D A' B' where
  session := session
  locks j := by
    rw [hr.readLock, hs.transfer, h.locks j, Endpoint.awaits, Endpoint.awaits, hs.vars,
      hs.confirmation]
  stream :=
    { lock := by rw [hr.receiveLock, hs.sendLock, h.stream.lock]
      object := by
        rw [hs.sendLock, hr.readDestination, hs.writeOrigin]
        exact h.stream.object
      position := by
        rw [hs.writeOriginPos, hr.readDestinationPos, hs.writeCount, h.stream.position]
      count := by rw [hr.readCount, hs.writeCount, h.stream.count]
      assembly := by
        rw [hr.readAssembly, hs.writeAssembly, hs.writeCount, h.stream.assembly]
      fetched := by
        rw [hs.fetched, hr.stored, hs.writeCount, hs.writeAssembly, h.stream.fetched] }
  quiet := by
    rw [hs.vars, hs.transfer, hs.ownUpdated]
    exact h.quiet
  sent := by rw [hr.received, hs.sent, h.sent]
  told := by rw [hr.vars, hs.vars, h.told]
  hung := by rw [hr.vars, hs.vars, h.hung]
  closed := by
    rw [hs.vars, hr.vars]
    exact h.closed

/-- The signal bits of a payload symbol. -/
theorem Fed.signals {T : Endpoint} (hs : Sending D A T) (hf : Fed D T A') :
    A'.comOut.getLsbD 7 = A.ownUpdated ∧ A'.comOut.getLsbD 6 = A.peerAcknowledge := by
  have hflags : T.ownUpdated = A.ownUpdated ∧ T.peerAcknowledge = A.peerAcknowledge := by
    cases hs <;> exact ⟨rfl, rfl⟩
  rw [← hflags.1, ← hflags.2]
  cases hf <;> exact groupSymbol_signals ..

namespace Settled

/-- An idle symbol is heard as nothing. -/
theorem hears_idle (h : Settled D B A) (none : ∀ j, A.transfer j = false) :
    (∀ e, ¬ ReceiveFault D A.sendIdleRequest.comOut B e)
      ∧ ∀ B', Received D A.sendIdleRequest.comOut B B' → Settled D A.sendIdleRequest B' := by
  have hcode : stateCode A.sendIdleRequest.comOut = State.idle.code :=
    (stateCode_stamp ..).trans (stateCode_code _)
  have hack : A.sendIdleRequest.comOut.getLsbD 6 = B.vars.acknowledgeRequested :=
    (stamp_acknowledge ..).trans h.reply
  obtain ⟨forth, back⟩ := (h.agree.symm).receiveBits (b := A.sendIdleRequest.comOut)
  refine hears_of_control (stamp_updated ..) (fun e => HookFault.of_idle hcode)
    fun B₁ hk => ?_
  obtain ⟨v, rfl⟩ := hk.of_idle hcode
  refine ⟨rfl, ⟨?_, ?_⟩, hack, fun hb => receiveBits_ownUpdated hb, h.heard.symm⟩
  · exact { forth with
      session := { forth.session with }
      locks := forth.locks
      stream := { forth.stream with }
      quiet := fun _ ⟨j, hj⟩ => absurd ((none j).symm.trans hj) (by decide) }
  · exact { back with
      session := { back.session with }
      stream := { back.stream with } }

/-- The poweron symbol meets a peer that has nothing to lose. -/
theorem hears_poweron (h : Settled D B A) (hA : Fresh A) (hB : Fresh B) :
    (∀ e, ¬ ReceiveFault D A.sendPoweronRequest.comOut B e)
      ∧ ∀ B', Received D A.sendPoweronRequest.comOut B B' →
        Settled D A.sendPoweronRequest B' := by
  have hcode : stateCode A.sendPoweronRequest.comOut = State.poweron.code :=
    (stateCode_stamp ..).trans (stateCode_code _)
  have hack : A.sendPoweronRequest.comOut.getLsbD 6 = false :=
    ((stamp_acknowledge ..).trans h.reply).trans hB.unrequested
  have hrest : B.receiveLock = false :=
    h.agree.symm.forth.stream.lock.trans (hA.rest h.agree.back.session)
  obtain ⟨forth, back⟩ := (h.agree.symm).receiveBits (b := A.sendPoweronRequest.comOut)
  refine hears_of_control (stamp_updated ..) (fun e hf => ?_) fun B₁ hk => ?_
  · rcases hf.of_poweron hcode with (hf | hf) | hf | hf
    · exact absurd (hB.unrequested.symm.trans hf) (by decide)
    · exact absurd (hack.symm.trans hf) (by decide)
    · exact absurd (hrest.symm.trans hf) (by decide)
    · exact hf (h.agree.forth.session.notReceiving hrest).2.1
  · obtain rfl := hk.of_poweron hcode
    refine ⟨rfl, ⟨?_, ?_⟩, rfl, (fun hb => by cases hb), h.heard.symm⟩
    · exact { forth with
        session := { forth.session with }
        locks := forth.locks
        stream := { forth.stream with }
        quiet := fun _ ⟨j, hj⟩ => absurd ((hA.idle j).symm.trans hj) (by decide)
        told := hA.open_.symm
        hung := hA.unhung.symm
        closed := fun hs => absurd (hA.unhung.symm.trans hs) (by decide) }
    · exact { back with
        session := { back.session with requested := fun hr => by cases hr }
        locks := fun j => (back.locks j).trans (by
          have hq : (B.receiveBits A.sendPoweronRequest.comOut).vars.acknowledgeRequested
            = false := hB.unrequested
          simp [Endpoint.awaits, hq])
        stream := { back.stream with }
        quiet := fun _ => back.quiet hB.unrequested
        told := back.told.trans hB.open_
        hung := back.hung.trans hB.unhung
        closed := fun hs => by cases hs }

/-- The announcement of a shutdown. -/
theorem hears_shutdown (h : Settled D B A) (none : ∀ j, A.transfer j = false)
    (open_ : A.vars.sentComShutdown = false) :
    (∀ e, ¬ ReceiveFault D A.sendComshutdownRequest.comOut B e)
      ∧ ∀ B', Received D A.sendComshutdownRequest.comOut B B' →
        Settled D A.sendComshutdownRequest B' := by
  have hcode : stateCode A.sendComshutdownRequest.comOut = State.shutdown.code :=
    (stateCode_stamp ..).trans (stateCode_code _)
  have hack : A.sendComshutdownRequest.comOut.getLsbD 6 = B.vars.acknowledgeRequested :=
    (stamp_acknowledge ..).trans h.reply
  obtain ⟨forth, back⟩ := (h.agree.symm).receiveBits (b := A.sendComshutdownRequest.comOut)
  have unhung : A.vars.sentSighup = false := by
    by_contra hs
    exact absurd (open_.symm.trans (forth.closed (by simpa using hs)).1) (by decide)
  refine hears_of_control (stamp_updated ..) (fun e hf => ?_) fun B₁ hk => ?_
  · rcases hf.of_shutdown hcode with hf | hf
    · exact absurd (unhung.symm.trans (forth.hung.symm.trans hf)) (by decide)
    · exact absurd (open_.symm.trans (forth.told.symm.trans hf)) (by decide)
  · obtain rfl := hk.of_shutdown hcode
    refine ⟨rfl, ⟨?_, ?_⟩, hack, fun hb => receiveBits_ownUpdated hb, h.heard.symm⟩
    · exact { forth with
        session := { forth.session with }
        locks := forth.locks
        stream := { forth.stream with }
        quiet := fun _ ⟨j, hj⟩ => absurd ((none j).symm.trans hj) (by decide)
        told := rfl
        closed := fun hs => absurd (unhung.symm.trans hs) (by decide) }
    · exact { back with
        session := { back.session with }
        locks := back.locks
        stream := { back.stream with }
        closed := fun hs => ⟨(back.closed hs).1, rfl⟩ }

/-- The end of the communication. -/
theorem hears_sighup (h : Settled D B A) (none : ∀ j, A.transfer j = false)
    (once : A.vars.sentSighup = false)
    (closed : A.vars.sentComShutdown = true ∧ B.vars.sentComShutdown = true) :
    (∀ e, ¬ ReceiveFault D A.sendSighupRequest.comOut B e)
      ∧ ∀ B', Received D A.sendSighupRequest.comOut B B' →
        Settled D A.sendSighupRequest B' := by
  have hcode : stateCode A.sendSighupRequest.comOut = State.sighup.code :=
    (stateCode_stamp ..).trans (stateCode_code _)
  have hack : A.sendSighupRequest.comOut.getLsbD 6 = B.vars.acknowledgeRequested :=
    (stamp_acknowledge ..).trans h.reply
  obtain ⟨forth, back⟩ := (h.agree.symm).receiveBits (b := A.sendSighupRequest.comOut)
  refine hears_of_control (stamp_updated ..) (fun e hf => ?_) fun B₁ hk => ?_
  · exact absurd (once.symm.trans (forth.hung.symm.trans (hf.of_sighup hcode))) (by decide)
  · obtain rfl := hk.of_sighup hcode
    refine ⟨rfl, ⟨?_, ?_⟩, hack, fun hb => receiveBits_ownUpdated hb, h.heard.symm⟩
    · exact { forth with
        session := { forth.session with }
        locks := forth.locks
        stream := { forth.stream with }
        quiet := fun _ ⟨j, hj⟩ => absurd ((none j).symm.trans hj) (by decide)
        hung := rfl
        closed := fun _ => closed }
    · exact { back with
        session := { back.session with }
        stream := { back.stream with } }

/-- A request of a transfer: the peer readlocks the object and will say so. -/
theorem hears_request {j : ℕ} (h : Settled D B A) (hB : AtRest D B) (rest : A.sendLock = false)
    (open_ : A.vars.sentComShutdown = false) (lt : j < D.count) (idle : A.transfer j = false)
    (free : A.readLock j = false) :
    (∀ e, ¬ ReceiveFault D (A.requesting j).comOut B e)
      ∧ ∀ B', Received D (A.requesting j).comOut B B' → Settled D (A.requesting j) B' := by
  have hj := D.lt_numIds lt
  obtain ⟨request, hbit, hcode⟩ := request_symbol hj true A.peerAcknowledge
  have hack : (A.requesting j).comOut.getLsbD 6 = B.vars.acknowledgeRequested :=
    hbit.trans h.reply
  have hcode' : stateCode (A.requesting j).comOut = transferCode j :=
    hcode.trans rfl
  have hA : ∀ i, A.awaits i = false := fun i => by simp [Endpoint.awaits, h.heard]
  have hlock : B.transfer j = false ∧ B.awaits j = false := by
    simpa [free] using h.agree.forth.locks j
  have unhung : A.vars.sentSighup = false := by
    by_contra hs
    exact absurd (open_.symm.trans (h.agree.back.closed (by simpa using hs)).1) (by decide)
  have hlocks : ∀ i, Function.update B.readLock j true i
      = (A.transfer i || (A.requesting j).awaits i) := fun i => by
    by_cases hi : i = j
    · simp [hi, Endpoint.awaits, Endpoint.requesting]
    · simp [hi, Endpoint.awaits, Endpoint.requesting, h.agree.back.locks i, h.heard]
  obtain ⟨forth, back⟩ := (h.agree.symm).receiveBits (b := (A.requesting j).comOut)
  refine hears_of_taken (fun _ e hf => ?_)
    (fun hf => absurd (request.symm.trans hf) (by decide)) fun B₁ taken => ?_
  · exact absurd (unhung.symm.trans (forth.hung.symm.trans (hf.of_request hj hcode'))) (by decide)
  cases taken with
  | object hf => exact absurd (request.symm.trans hf) (by decide)
  | hook _ hk =>
    -- the peer has the object neither readlocked nor in transfer, so that it will lock it
    have hs₁ := back.session.hooked hk
    obtain rfl := hk.of_request hj hcode'
    refine ⟨fun e hf => ?_, fun B₂ approved => ?_⟩
    · cases hf with
      | duplicate _ _ hl =>
        have hl' : B.readLock j = true := hl
        rw [h.agree.back.locks j, idle, hA j] at hl'
        cases hl'
      | synced _ _ ht => exact absurd (hlock.1.symm.trans ht) (by decide)
    · have hs₂ := hs₁.approved approved
      cases approved with
      | none hf => exact absurd hj (not_lt.mpr hf)
      -- a request of its own for this object would have been agreed on
      | own hw =>
        have hw' : j = B.waitingConfirmation := hw
        cases hq : B.vars.acknowledgeRequested with
        | true => exact absurd hlock.2 (by simp [Endpoint.awaits, hq, hw'])
        | false => exact absurd hj (by rw [hw', hB.confirmation hq]; exact lt_irrefl _)
      | lock _ other hl ht =>
        refine ⟨⟨?_, ?_⟩, hack, fun hb => receiveBits_ownUpdated hb, ?_⟩
        · exact { forth with
            session := { forth.session with requested := fun _ => ⟨lt, idle, free, rest⟩ }
            locks := hlocks
            stream := { forth.stream with }
            quiet := fun hq => by cases hq }
        · exact { back with
            session := hs₂
            locks := back.locks
            stream := { back.stream with } }
        · exact if_pos request

/-- A payload symbol: the other direction does not notice it. -/
theorem hears_payload {T : Endpoint} (hD : D.Triples) (h : Settled D B A)
    (sending : Sending D A T) (fed : Fed D T A') :
    (∀ e, ¬ ReceiveFault D A'.comOut B e)
      ∧ ∀ B', Received D A'.comOut B B' → Settled D A' B' := by
  obtain ⟨hT, hl, hq⟩ := h.agree.back.session.of_sending hD h.heard sending
  obtain ⟨horigin, -⟩ := hT.origin hl
  have hown : A.ownUpdated = false :=
    h.agree.back.quiet h.heard ⟨_, sending.frame.1 ▸ horigin⟩
  obtain ⟨hsignal, hack'⟩ := Fed.signals sending fed
  have request : A'.comOut.getLsbD 7 = false := hsignal.trans hown
  have hack : A'.comOut.getLsbD 6 = B.vars.acknowledgeRequested := hack'.trans h.reply
  have hlocks : B.readLock = A.transfer := funext fun j => by
    simp [h.agree.back.locks j, Endpoint.awaits, h.heard]
  -- both ends choose the same object
  have hfind : D.ids.find? B.readLock = D.ids.find? A.transfer := by rw [hlocks]
  obtain ⟨forth, back⟩ := (h.agree.symm).receiveBits (b := A'.comOut)
  refine hears_of_taken (fun hf => absurd (request.symm.trans hf) (by decide))
    (fun _ e hf => ?_) fun B₁ taken => ?_
  · obtain ⟨hr, hnone⟩ := hf
    cases sending with
    | held hs => exact absurd (hr.symm.trans (forth.stream.lock.trans hs)) (by decide)
    | first _ find => exact absurd (hnone.symm.trans (hfind.trans find)) (by simp)
  cases taken with
  | hook hf => exact absurd (request.symm.trans hf) (by decide)
  | object _ ha =>
    obtain ⟨hstream, hdelivered⟩ :=
      forth.stream.step forth.session h.heard hD hfind sending fed ha
    have hA' : ReceiverFrame A A' := fed.receiver sending
    have hB₁ := ha.sender
    refine ⟨fun e hf => ?_, fun B₂ approved => ?_⟩
    · have hnone : B₁.incomingRequest = numIds := hB₁.incoming
      cases hf <;> omega
    · obtain rfl := approved.skip hB₁.incoming
      refine ⟨⟨?_, back.of_frames hB₁ hA' (back.session.assembled hD ha)⟩, ?_, ?_, ?_⟩
      · have hreq : A'.vars.acknowledgeRequested = false := by rw [hA'.vars]; exact h.heard
        have hawait : ∀ j, A'.awaits j = false := fun j => by simp [Endpoint.awaits, hreq]
        refine
          { session := hT.fed hD hl hq fed
            locks := fun j => ?_
            stream := hstream
            quiet := fun _ _ => hA'.ownUpdated.trans hown
            sent := ?_
            told := ?_
            hung := ?_
            closed := ?_ }
        · rw [hawait, Bool.or_false]
          cases hdelivered with
          | part htr hrl => rw [htr, hrl]; exact congrFun hlocks j
          | last i bytes _ htr hrl =>
            rw [htr, hrl]
            exact congrFun (congrArg (Function.update · i false) hlocks) j
        · cases hdelivered with
          | part _ _ hs hr => rw [hs, hr]; exact forth.sent
          | last i bytes _ _ _ hs hr => rw [hs, hr]; exact congrArg (· ++ _) forth.sent
        · rw [hB₁.vars, hA'.vars]; exact forth.told
        · rw [hB₁.vars, hA'.vars]; exact forth.hung
        · rw [hB₁.vars, hA'.vars]; exact forth.closed
      · rw [hB₁.vars]; exact hack
      · rw [hB₁.vars, hB₁.ownUpdated]
        exact fun hb => receiveBits_ownUpdated hb
      · rw [hB₁.peerAcknowledge, hA'.vars]; exact h.heard.symm

end Settled

end SOS
