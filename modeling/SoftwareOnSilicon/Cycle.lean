import SoftwareOnSilicon.Session

/-!
# The functions of a cycle have these outcomes

For each function of the cycle, the code reaches the outcomes of its relation
and no others, and reports an error only under the error's condition. The
statements are in continuation form: whatever holds of every outcome holds
after the function.

The code is walked through once, for all the facts that are proved about it
later. What a fact follows of the world and asserts of it is the assertion `Φ`
of a `Guard`, whose fields say that the operations of a cycle keep it, given
what else is known where they are performed. The simplest ones assert nothing
about the private state (`Guard.steady`). Where the assertion changes with the
symbol that is emitted, it is that of a `Watch`, which ends at `write_object`.
-/

namespace SOS

open Interleaving Code

variable {H α : Type}

/-! ## What a cycle keeps -/

/-- **An access to an object is inside of it**: a load fetches the next byte of
the send in progress, a store puts one at the next position of the receive in
progress. -/
@[simp] def Access.Inside (D : DescriptorHelper) (s : Endpoint) : Access → Prop
  | .load j i => s.transfer j = true ∧ j < D.count ∧ i < D.objSize j
      ∧ j = s.writeOrigin ∧ i = s.writeOriginPos
  | .store j i _ => s.readLock j = true ∧ j < D.count ∧ i < D.objSize j
      ∧ j = s.readDestination ∧ i = s.readDestinationPos
  | _ => True

/-- The operations that concern neither an object nor a write request. The stop
request is passed on only where `stop` holds. -/
inductive Op.Quiet (stop : Prop) : Op → Prop
  | acquire (site : Site) : Quiet stop ⟨site, .acquire .descriptorsUpdated⟩
  | clear (site : Site) : Quiet stop ⟨site, .clear .descriptorsUpdated⟩
  | trigger : Quiet stop ⟨.triggerResolve, .clear .triggerResolve⟩
  | reset : Quiet stop ⟨.readHook, .storeNotified false⟩
  | tell (told : stop) : Quiet stop ⟨.stopNotifier, .storeNotified true⟩

/-- The operations of an assignment to `read_started_id`. -/
inductive Op.Assigning (site : Site) (j : ℕ) : Op → Prop
  | word : Assigning site j ⟨site, .loadStartedWord j⟩
  | assign (b : Bool) (m : BitVec numIds) : Assigning site j ⟨site, .storeStarted j b m⟩

/-- **An assignment keeps** what its operations keep. -/
theorem assignStarted_keeps {S : Type} {ρ : Rules S ErrorCode Op.Answer H} {s : S} {h : H}
    {Ψ : H → Prop} {site : Site} {j : ℕ} {b : Bool}
    (hop : ∀ o h, o.Assigning site j → Ψ h →
      ρ.node s o h ∧ ∀ a h', ρ.step s o a h h' → Ψ h') (hΨ : Ψ h) :
    ((assignStarted site j b).run s).Safe ρ (fun s' _ h' => s' = s ∧ Ψ h') h := by
  obtain ⟨hword, hΨ₁⟩ := hop _ h .word hΨ
  refine safe_assignStarted hword fun m h₁ hm => ?_
  obtain ⟨hassign, hΨ₂⟩ := hop _ h₁ (.assign b m) (hΨ₁ m h₁ hm)
  exact ⟨hassign, fun x h₂ hx => ⟨rfl, hΨ₂ x h₂ hx⟩⟩

/-- The operations of `emit_readlocked`, but for the assignment. -/
inductive Op.Canceling (j : ℕ) : Op → Prop
  | sync : Canceling j ⟨.emitReadlocked, .testAndSet (.syncMe j)⟩
  | fault : Canceling j ⟨.emitReadlocked, .clear (.writeFault j)⟩
  | ack : Canceling j ⟨.emitReadlocked, .clear (.writeAck j)⟩

/-- **`emit_readlocked` keeps** what its operations keep, and ends with the assignment. -/
theorem emitReadlocked_keeps {ρ : Rules Endpoint ErrorCode Op.Answer H} {s : Endpoint} {h : H}
    {Ψ : H → Prop} {Q : Endpoint → Unit → H → Prop} {j : ℕ}
    (hop : ∀ o h, o.Canceling j → Ψ h →
      ρ.node s o h ∧ ∀ a h', ρ.step s o a h h' → Ψ h') (hΨ : Ψ h)
    (hQ : ∀ h', Ψ h' → ((assignStarted .emitReadlocked j true).run s).Safe ρ Q h') :
    ((emitReadlocked j).run s).Safe ρ Q h := by
  obtain ⟨hsync, hΨ₁⟩ := hop _ h .sync hΨ
  refine safe_emitReadlocked hsync (fun h₁ hx => hQ h₁ (hΨ₁ true h₁ hx)) fun h₁ hx => ?_
  obtain ⟨hfault, hΨ₂⟩ := hop _ h₁ .fault (hΨ₁ false h₁ hx)
  refine ⟨hfault, fun x h₂ hx => ?_⟩
  obtain ⟨hack, hΨ₃⟩ := hop _ h₂ .ack (hΨ₂ x h₂ hx)
  exact ⟨hack, fun y h₃ hy => hQ h₃ (hΨ₃ y h₃ hy)⟩

/-- The operations of `emit_interrupted`. -/
inductive Op.Interrupting : Op → Prop
  | started (i : ℕ) : Interrupting ⟨.emitInterrupted, .loadStarted i⟩
  | fault (i : ℕ) : Interrupting ⟨.emitInterrupted, .clear (.readFault i)⟩
  | ack (i : ℕ) : Interrupting ⟨.emitInterrupted, .clear (.readAck i)⟩
  | word (i : ℕ) : Interrupting ⟨.emitInterrupted, .loadStartedWord i⟩
  | ended (i : ℕ) (b : Bool) (m : BitVec numIds) :
    Interrupting ⟨.emitInterrupted, .storeStarted i b m⟩

/-- **`emit_interrupted` keeps** what each of its operations keeps. -/
theorem emitInterrupted_keeps {S : Type} {ρ : Rules S ErrorCode Op.Answer H} {s : S} {h : H}
    {Ψ : H → Prop} {Q : S → Unit → H → Prop} {is : List ℕ}
    (hop : ∀ o h, o.Interrupting → Ψ h →
      ρ.node s o h ∧ ∀ a h', ρ.step s o a h h' → Ψ h') (hΨ : Ψ h)
    (hQ : ∀ h', Ψ h' → Q s () h') : ((emitInterrupted is).run s).Safe ρ Q h := by
  refine safe_emitInterrupted (fun i h hΨ => ?_) hΨ hQ
  obtain ⟨hstarted, hΨ₁⟩ := hop _ h (.started i) hΨ
  refine ⟨hstarted, hΨ₁ false, fun h₁ hx => ?_⟩
  obtain ⟨hfault, hΨ₂⟩ := hop _ h₁ (.fault i) (hΨ₁ true h₁ hx)
  refine ⟨hfault, fun x h₂ hx => ?_⟩
  obtain ⟨hack, hΨ₃⟩ := hop _ h₂ (.ack i) (hΨ₂ x h₂ hx)
  refine ⟨hack, fun y h₃ hy => ?_⟩
  refine assignStarted_keeps (fun o h ho hΨ => ?_) (hΨ₃ y h₃ hy)
  cases ho with
  | word => exact hop _ h (.word i) hΨ
  | assign b m => exact hop _ h (.ended i b m) hΨ

/-- **What an assertion may depend on**, of the private state. -/
structure Frame (s s' : Endpoint) : Prop where
  transfer : s'.transfer = s.transfer := by rfl
  readLock : s'.readLock = s.readLock := by rfl
  requested : s'.vars.acknowledgeRequested = s.vars.acknowledgeRequested := by rfl
  confirmation : s'.vars.acknowledgeRequested = true →
    s'.waitingConfirmation = s.waitingConfirmation := by exact fun _ => rfl
  sendLock : s'.sendLock = s.sendLock := by rfl
  writeOrigin : s'.writeOrigin = s.writeOrigin := by rfl
  writeOriginPos : s'.writeOriginPos = s.writeOriginPos := by rfl
  fetched : s'.history.fetched = s.history.fetched := by rfl
  receiveLock : s'.receiveLock = s.receiveLock := by rfl
  readDestination : s'.readDestination = s.readDestination := by rfl
  readDestinationPos : s'.readDestinationPos = s.readDestinationPos := by rfl
  stored : s'.history.stored = s.history.stored := by rfl

/-- The state in which a transfer of an object has been requested. -/
def Endpoint.requesting (j : ℕ) (s : Endpoint) : Endpoint :=
  { s with
    waitingConfirmation := j
    vars.acknowledgeRequested := true
    ownUpdated := true
    comOut := stamp true s.peerAcknowledge 0 ^^^ transferCode j
    history.payload := false }

/-- **A watch**: an assertion that every part of a cycle before `write_object` keeps,
where only objects for which `may` holds are requested. -/
structure Watch (D : DescriptorHelper) (stop : Prop) (may : ℕ → Prop) (allow : Answers)
    (error : ErrorCode → Prop) (ρ : Rules Endpoint ErrorCode Op.Answer H)
    (Φ : Endpoint → H → Prop) : Prop where
  error : ∀ s e h, error e → Φ s h → ρ.error s e h
  frame : ∀ s s' h, Frame s s' → Φ s h → Φ s' h
  quiet : ∀ s o h, o.Quiet stop → Φ s h →
    ρ.node s o h ∧ ∀ a h', ρ.step s o a h h' → Φ s h'
  interrupted : stop → ∀ s h, Φ s h → ((emitInterrupted (List.range numIds)).run s).Safe ρ
    (fun s' _ h' => s' = s ∧ Φ s h') h
  /-- A write request that is found may be turned into a transfer request. -/
  checkSync : ∀ site j s h, site = .getFirstTransfer ∨ site = .transfersPending →
    Φ s h → ((checkSync site j).run s).Safe ρ (fun s' b h' => s' = s ∧ Φ s h'
      ∧ (b = true → allow s ⟨site, .testAndSet (.syncMe j)⟩ false
        ∧ (site = .getFirstTransfer → s.readLock j = false → s.transfer j = false →
          Φ (s.requesting j) h'))) h
  notified : ∀ s h, Φ s h → ρ.node s ⟨.incomingShutdownQuery, .loadNotified⟩ h
    ∧ ∀ (b : Bool) h', ρ.step s ⟨.incomingShutdownQuery, .loadNotified⟩ b h h' →
      Φ s h' ∧ (b = true → allow s ⟨.incomingShutdownQuery, .loadNotified⟩ true)
  readlock : ∀ s h, Φ s h → Session D s → s.incomingRequest < numIds →
    s.incomingRequest ≠ s.waitingConfirmation → may s.incomingRequest →
    s.readLock s.incomingRequest = false → s.transfer s.incomingRequest = false →
    ((emitReadlocked s.incomingRequest).run s).Safe ρ (fun s' _ h' => s' = s ∧
      Φ { s with readLock := Function.update s.readLock s.incomingRequest true } h') h
  accept : ∀ s h, Φ s h → Session D s → s.vars.acknowledgeRequested = true →
    ((emitTransfer s.waitingConfirmation).run { s with
      transfer := Function.update s.transfer s.waitingConfirmation true }).Safe ρ
      (fun s' _ h' => s' = { s with
          transfer := Function.update s.transfer s.waitingConfirmation true }
        ∧ Φ { s' with vars.acknowledgeRequested := false } h') h
  sending : ∀ s s' h, Φ s h → Session D s → Sending D s s' → Φ s' h
  receiving : ∀ s s' h, Φ s h → Session D s → Receiving D s s' → Φ s' h
  store : ∀ s b h, Φ s h →
    (Access.store s.readDestination s.readDestinationPos b).Inside D s →
    ρ.node s ⟨.readObject, .store s.readDestination s.readDestinationPos b⟩ h
    ∧ ∀ (x : Unit) h',
      ρ.step s ⟨.readObject, .store s.readDestination s.readDestinationPos b⟩ x h h' →
      Φ { s with
        readDestinationPos := s.readDestinationPos + 1
        history.stored := s.history.stored ++ [b] } h'
  received : ∀ s h, Φ s h → s.readLock s.readDestination = true → s.receiveLock = true →
    s.readDestinationPos = D.objSize s.readDestination →
    s.history.stored = decodeSymbols s.history.symbols →
    ((emitReceived s.readDestination).run { s with
      readLock := Function.update s.readLock s.readDestination false
      receiveLock := false }).Safe ρ (fun s' _ h' => s' = { s with
          readLock := Function.update s.readLock s.readDestination false
          receiveLock := false }
        ∧ Φ { s' with readDestinationPos := 0, history.stored := [] } h') h

/-- **A guard**: an assertion that `write_object` keeps as well. -/
structure Guard (D : DescriptorHelper) (stop : Prop) (may : ℕ → Prop) (allow : Answers)
    (error : ErrorCode → Prop) (ρ : Rules Endpoint ErrorCode Op.Answer H)
    (Φ : Endpoint → H → Prop) : Prop extends Watch D stop may allow error ρ Φ where
  load : ∀ s h, Φ s h → (Access.load s.writeOrigin s.writeOriginPos).Inside D s →
    ρ.node s ⟨.writeObject, .load s.writeOrigin s.writeOriginPos⟩ h
    ∧ ∀ (w : Byte) h',
      ρ.step s ⟨.writeObject, .load s.writeOrigin s.writeOriginPos⟩ w h h' →
      Φ { s with
        writeOriginPos := s.writeOriginPos + 1
        history.fetched := s.history.fetched ++ [w] } h'
  sent : ∀ s h, Φ s h → Session D s → s.sendLock = true →
    s.writeOriginPos = D.objSize s.writeOrigin →
    ((emitSent s.writeOrigin).run s).Safe ρ (fun s' _ h' => s' = s ∧ Φ { s with
        transfer := Function.update s.transfer s.writeOrigin false
        sendLock := false
        writeOriginPos := 0
        history.fetched := [] } h') h

variable {D : DescriptorHelper} {stop : Prop} {may : ℕ → Prop} {allow : Answers}
  {error : ErrorCode → Prop} {ρ : Rules Endpoint ErrorCode Op.Answer H}
  {Φ : Endpoint → H → Prop} {r : Role} {s : Endpoint} {h : H} {data : Byte}

/-- A group of 24 bits fits into three bytes. -/
theorem bitsetToBytearray_isSome (x : BitVec 24) :
    ∃ b₀ b₁ b₂, bitsetToBytearray 3 x = some [b₀, b₁, b₂] := by
  have hmax : ¬ maxUnsignedInt 3 < x.toNat := by
    have := x.isLt
    have h3 : maxUnsignedInt 3 = 2 ^ 24 - 1 := by rfl
    omega
  exact ⟨_, _, _, by rw [bitsetToBytearray, if_neg hmax]; rfl⟩

/-- What a cycle may perform: neither of the handshakes, an access to an object
only inside of it, and the stop request only where `stop` holds. Only `read_hook`
takes it back. -/
structure Op.Ordinary (D : DescriptorHelper) (stop : Prop) (s : Endpoint) (o : Op) :
    Prop where
  inside : o.access.Inside D s
  notTake : o.access ≠ .handshake
  notGive : ∀ b, o.access ≠ .handshakeAck b
  told : o.access = .storeNotified true → stop
  reset : o.access = .storeNotified false → o.site = .readHook

theorem Op.Quiet.ordinary {o : Op} (ho : o.Quiet stop) : o.Ordinary D stop s := by
  cases ho <;>
    exact ⟨trivial, by simp, by simp, (fun hf => by first | assumption | cases hf), by simp⟩

theorem Op.Interrupting.ordinary {o : Op} (ho : o.Interrupting) (hstop : stop) :
    o.Ordinary D stop s := by
  cases ho <;> exact ⟨trivial, by simp, by simp, fun _ => hstop, by simp⟩

/-- **A steady guard**: an assertion about the followed state only, which every
operation of a cycle keeps. -/
theorem Guard.steady {Ψ : H → Prop} (herror : ∀ s e h, error e → Ψ h → ρ.error s e h)
    (hop : ∀ s o h, o.Ordinary D stop s → Ψ h →
      ρ.node s o h ∧ ∀ a h', ρ.step s o a h h' → Ψ h')
    (hsync : ∀ s site j h h', ρ.step s ⟨site, .testAndSet (.syncMe j)⟩ false h h' →
      allow s ⟨site, .testAndSet (.syncMe j)⟩ false)
    (hstop : ∀ s h h', ρ.step s ⟨.incomingShutdownQuery, .loadNotified⟩ true h h' →
      allow s ⟨.incomingShutdownQuery, .loadNotified⟩ true) :
    Guard D stop may allow error ρ (fun _ h => Ψ h) := by
  -- an operation of the cycle is an ordinary one, so it keeps what is asserted
  have hflag : ∀ (s : Endpoint) site f h, Ψ h →
      ρ.node s ⟨site, .testAndSet f⟩ h
      ∧ ∀ a h', ρ.step s ⟨site, .testAndSet f⟩ a h h' → Ψ h' := fun s site f h =>
    hop s ⟨site, .testAndSet f⟩ h ⟨trivial, by simp, by simp, by simp, by simp⟩
  have hclear : ∀ (s : Endpoint) site f h, Ψ h →
      ρ.node s ⟨site, .clear f⟩ h
      ∧ ∀ a h', ρ.step s ⟨site, .clear f⟩ a h h' → Ψ h' := fun s site f h =>
    hop s ⟨site, .clear f⟩ h ⟨trivial, by simp, by simp, by simp, by simp⟩
  have hstarted : ∀ (s : Endpoint) site j b h, Ψ h →
      ((assignStarted site j b).run s).Safe ρ (fun s' _ h' => s' = s ∧ Ψ h') h := by
    intro s site j b h hΨ
    refine assignStarted_keeps (fun o h ho hΨ => hop s o h ?_ hΨ) hΨ
    cases ho <;> exact ⟨trivial, by simp, by simp, by simp, by simp⟩
  refine
    { error := herror
      frame := fun _ _ _ _ hΨ => hΨ
      quiet := fun s o h ho => hop s o h ho.ordinary
      interrupted := fun hstop s h hΨ => emitInterrupted_keeps
        (fun o h ho => hop s o h (ho.ordinary hstop)) hΨ fun _ hΨ' => ⟨rfl, hΨ'⟩
      checkSync := fun site j s h _ hΨ => ?_
      notified := fun s h hΨ => ?_
      readlock := fun s h hΨ _ _ _ _ _ _ => ?_
      accept := fun s h hΨ _ _ => ?_
      sending := fun _ _ _ hΨ _ _ => hΨ
      receiving := fun _ _ _ hΨ _ _ => hΨ
      store := fun s b h hΨ hin => hop s _ h ⟨hin, by simp, by simp, by simp, by simp⟩ hΨ
      received := fun s h hΨ _ _ _ _ => ?_
      load := fun s h hΨ hin => hop s _ h ⟨hin, by simp, by simp, by simp, by simp⟩ hΨ
      sent := fun s h hΨ _ _ _ => ?_ }
  · refine safe_checkSync (hflag s site _ h hΨ).1
      (fun h' ha => ⟨rfl, (hflag s site _ h hΨ).2 _ h' ha, fun hf => by cases hf⟩)
      fun h' ha => ?_
    -- what has been peeked at is put back
    have hΨ' := (hflag s site _ h hΨ).2 _ h' ha
    refine ⟨(hclear s site _ h' hΨ').1, fun x h'' hx => ?_⟩
    have hΨ'' := (hclear s site _ h' hΨ').2 _ h'' hx
    exact ⟨rfl, hΨ'', fun _ => ⟨hsync s site j h h' ha, fun _ _ _ => hΨ''⟩⟩
  · obtain ⟨hnode, hstep⟩ := hop s ⟨.incomingShutdownQuery, .loadNotified⟩ h
      ⟨trivial, by simp, by simp, by simp, by simp⟩ hΨ
    exact ⟨hnode, fun b h' hb => ⟨hstep b h' hb, fun ht => hstop s h h' (ht ▸ hb)⟩⟩
  · refine emitReadlocked_keeps (fun o h ho hΨ => ?_) hΨ (hstarted s _ _ _)
    cases ho with
    | sync => exact hflag s _ _ h hΨ
    | fault | ack => exact hclear s _ _ h hΨ
  · exact safe_emitTransfer (hflag _ _ _ h hΨ).1
      fun a h' ha => ⟨rfl, (hflag _ _ _ h hΨ).2 a h' ha⟩
  · refine safe_emitReceived ((hstarted _ _ _ _ h hΨ).imp ?_)
    rintro s' _ h' ⟨rfl, hΨ'⟩
    exact ⟨(hclear _ _ _ h' hΨ').1, fun y h'' hy => ⟨rfl, (hclear _ _ _ h' hΨ').2 y h'' hy⟩⟩
  · exact safe_emitSent (hclear s _ _ h hΨ).1
      fun x h' hx => ⟨rfl, (hclear s _ _ h hΨ).2 x h' hx⟩

/-- `write_hook` has emitted a control symbol, or there is a payload symbol to
emit, or there is nothing to emit. -/
inductive Chosen (allow : Answers) (D : DescriptorHelper) (r : Role) (s : Endpoint) :
    Endpoint → Bool → Prop
  | control {s' : Endpoint} (h : Emitted allow D r s s') (payload : s'.history.payload = false) :
    Chosen allow D r s s' true
  | payload {t : Endpoint} (first : s.firstRun = false) (h : Sending D s t) :
      Chosen allow D r s t false
  | nothing (first : s.firstRun = false) (rest : s.sendLock = false)
      (none : D.ids.find? s.transfer = none)
      (query : s.outgoingSighupQuery D r = true → s.vars.sentSighup = true) :
      Chosen allow D r s s false

namespace Watch

variable (G : Watch D stop may allow error ρ Φ)

include G

/-! ## `SyncProcessor` -/

theorem acquire_safe {Q : Endpoint → Unit → H → Prop} {site : Site} (hΦ : Φ s h)
    (hQ : ∀ h', Φ s h' → Q s () h') :
    ((acquire site .descriptorsUpdated).run s).Safe ρ Q h := by
  obtain ⟨hnode, hstep⟩ := G.quiet s _ h (.acquire site) hΦ
  exact ⟨hnode, fun a h' ha => hQ h' (hstep a h' ha)⟩

theorem clear_safe {Q : Endpoint → Unit → H → Prop} {site : Site} {f : Flag}
    (ho : Op.Quiet stop ⟨site, .clear f⟩) (hΦ : Φ s h) (hQ : ∀ h', Φ s h' → Q s () h') :
    ((clear site f).run s).Safe ρ Q h := by
  obtain ⟨hnode, hstep⟩ := G.quiet s ⟨site, .clear f⟩ h ho hΦ
  exact ⟨hnode, fun a h' ha => hQ h' (hstep a h' ha)⟩

theorem access_safe {a : Access} {Q : Endpoint → a.Answer → H → Prop} {site : Site}
    (ho : Op.Quiet stop ⟨site, a⟩) (hΦ : Φ s h) (hQ : ∀ x h', Φ s h' → Q s x h') :
    ((access site a).run s).Safe ρ Q h := by
  obtain ⟨hnode, hstep⟩ := G.quiet s ⟨site, a⟩ h ho hΦ
  exact ⟨hnode, fun x h' hx => hQ x h' (hstep x h' hx)⟩

theorem stopNotifier_safe {Q : Endpoint → Unit → H → Prop} (hstop : stop) (hΦ : Φ s h)
    (hQ : ∀ h', Φ s h' → Q s () h') : (stopNotifier.run s).Safe ρ Q h := by
  rw [stopNotifier, run_bind, Prog.safe_bind]
  refine (G.interrupted hstop s h hΦ).imp ?_
  rintro s' _ h' ⟨rfl, hΦ'⟩
  exact G.access_safe (.tell hstop) hΦ' fun _ => hQ

theorem transfersPending_safe {Q : Endpoint → Bool → H → Prop} {js : List ℕ} (hΦ : Φ s h)
    (hQ : ∀ b h', Φ s h' → Q s b h') : ((transfersPending js).run s).Safe ρ Q h := by
  induction js generalizing h with
  | nil => exact hQ false h hΦ
  | cons j js ih =>
    rw [transfersPending, run_bind, Prog.safe_bind]
    refine (G.checkSync .transfersPending j s h (.inr rfl) hΦ).imp ?_
    rintro _ b h' ⟨rfl, hΦ', -⟩
    simp only [run_bind, run_look, Prog.safe_bind, Prog.safe_ret]
    split
    · exact hQ true h' hΦ'
    · exact ih hΦ'

/-! ## The `IN` half -/

theorem clearReadReceive_safe {Q : Endpoint → Unit → H → Prop} (hΦ : Φ s h)
    (hQ : s.receiveLock = false → s.readCount = 0 → Q s () h)
    (hE : s.receiveLock = true ∨ s.readCount ≠ 0 →
      error .hotplugAfterUnexpectedShutdown) :
    (clearReadReceive.run s).Safe ρ Q h := by
  by_cases hl : s.receiveLock = true ∨ s.readCount ≠ 0
  · simpa [clearReadReceive, Prog.bind, hl] using G.error _ _ _ (hE hl) hΦ
  · have hr : s.receiveLock = false := by simpa using fun hf => hl (.inl hf)
    have hc : s.readCount = 0 := by simpa using fun hf => hl (.inr hf)
    simpa [clearReadReceive, Prog.bind, hr, hc] using hQ hr hc

theorem readHook_safe {Q : Endpoint → Unit → H → Prop} (hΦ : Φ s h)
    (hstop : r = .mcu → stateCode data = State.shutdown.code → stop)
    (hQ : ∀ s' h', Hooked data s s' → Φ s' h' → Q s' () h')
    (hE : ∀ e, HookFault data s e → error e) :
    ((readHook r data).run s).Safe ρ Q h := by
  simp only [readHook]
  split_ifs with hp hi hs hg
  · by_cases hq : s.vars.acknowledgeRequested = true ∨ s.vars.receivedAcknowledge = true
    · simpa [Prog.bind, hq] using G.error _ _ _ (hE _ (.poweron hp hq)) hΦ
    · have ha : s.vars.acknowledgeRequested = false ∧ s.vars.receivedAcknowledge = false := by
        simpa using hq
      simp only [run_bind, run_look, Prog.bind, ha, Bool.or_self, Bool.false_eq_true,
        if_false, Prog.safe_bind, run_change]
      refine G.access_safe .reset hΦ fun _ h' hΦ' => ?_
      have hΦ'' : Φ { s with vars := {} } h' :=
        G.frame _ _ _ { requested := ha.1.symm, confirmation := fun hf => by cases hf } hΦ'
      exact G.clearReadReceive_safe hΦ'' (fun hl hc => hQ _ _ (.poweron hp ha ⟨hl, hc⟩) hΦ'')
        fun hl => hE _ (.hotplug hp hl)
  · cases hg : s.vars.receivedSighup
    · simp only [run_bind, run_look, Prog.bind, hg, Bool.false_eq_true, if_false]
      exact hQ _ _ (.idle hi s.vars.receivedIdle) hΦ
    · simpa [Prog.bind, hg] using hQ _ _ (.idle hi true) (G.frame _ _ _ {} hΦ)
  · cases hg : s.vars.receivedSighup
    · cases hx : s.vars.receivedComShutdown
      · simp only [run_bind, run_look, Prog.bind, hg, hx, Bool.false_eq_true, if_false,
          Bool.not_false, if_true, Prog.safe_bind, run_change]
        have hafter : ∀ h', Φ s h' →
            Q { s with vars.receivedComShutdown := true } () h' := fun h' hΦ' =>
          hQ _ _ (.shutdown hs hx) (G.frame _ _ _ {} hΦ')
        cases r
        · exact hafter h hΦ
        · exact G.stopNotifier_safe (hstop rfl hs) hΦ hafter
      · simpa [Prog.bind, hg, hx] using G.error _ _ _ (hE _ (.shutdown hs hx)) hΦ
    · simpa [Prog.bind, hg]
        using G.error _ _ _ (hE _ (.afterSighup (by simp [hs, State.code]) hg)) hΦ
  · cases hx : s.vars.receivedSighup
    · simpa [Prog.bind, hx] using hQ _ _ (.sighup hg hx) (G.frame _ _ _ {} hΦ)
    · simpa [Prog.bind, hx] using G.error _ _ _ (hE _ (.sighup hg hx)) hΦ
  · cases hx : s.vars.receivedSighup
    · simpa [Prog.bind, hx]
        using hQ _ _ (.request (by simp [hp, hi, hs, hg])) (G.frame _ _ _ {} hΦ)
    · simpa [Prog.bind, hx]
        using G.error _ _ _ (hE _ (.afterSighup (by simp [hp, hi, hg]) hx)) hΦ

omit G in
theorem readFlush_safe {Q : Endpoint → List Byte → H → Prop}
    (hQ : ∀ bytes, bitsetToBytearray 3 s.readAssembly = some bytes → bytes.length = 3 →
      Q { s with readAssembly := 0 } bytes h) : (readFlush.run s).Safe ρ Q h := by
  obtain ⟨b₀, b₁, b₂, hflush⟩ := bitsetToBytearray_isSome s.readAssembly
  simp only [readFlush, run_bind, run_look, Prog.bind, hflush, run_change, run_pure]
  exact hQ _ hflush rfl

/-- The stores of a group. -/
theorem storeBytes_safe {Q : Endpoint → Unit → H → Prop} {bytes : List Byte}
    (hlock : s.readLock s.readDestination = true) (hlt : s.readDestination < D.count)
    (hpos : s.readDestinationPos + bytes.length ≤ D.objSize s.readDestination) (hΦ : Φ s h)
    (hQ : ∀ s' h', s' = { s with
        readDestinationPos := s.readDestinationPos + bytes.length
        history.stored := s.history.stored ++ bytes } → Φ s' h' → Q s' () h') :
    ((storeBytes bytes).run s).Safe ρ Q h := by
  induction bytes generalizing s h with
  | nil => exact hQ s h (by simp) hΦ
  | cons b bs ih =>
    rw [List.length_cons] at hpos
    obtain ⟨hnode, hstep⟩ := G.store s b h hΦ ⟨hlock, hlt, by omega, rfl, rfl⟩
    rw [storeBytes]
    simp only [run_bind, run_look, Prog.safe_bind, Prog.safe_ret, run_change]
    refine ⟨hnode, fun x h' hx => ih hlock hlt ?_ (hstep x h' hx) ?_⟩
    · simpa only [Nat.add_assoc, Nat.add_comm 1] using hpos
    · rintro _ h'' rfl hΦ'
      refine hQ _ h'' ?_ hΦ'
      simp only [List.append_assoc, List.singleton_append, List.length_cons, Nat.add_assoc,
        Nat.add_comm 1]

theorem assembleSymbol_safe {Q : Endpoint → Unit → H → Prop} (hD : D.Triples)
    (hs : Session D s) (hl : s.receiveLock = true) (hΦ : Φ s h)
    (hpart : ∀ h', s.readCount < 3 → ∀ s', s' = { s with
        readAssembly := readShift s.readAssembly s.readCount (data.setWidth 24)
        readCount := s.readCount + 1
        read4minus1 := s.readCount + 1
        history.symbols := s.history.symbols ++ [data] } → Φ s' h' → Q s' () h')
    (hgroup : ∀ h' bytes, s.readCount = 3 →
      bitsetToBytearray 3 (readShift s.readAssembly 3 (data.setWidth 24)) = some bytes →
      s.readDestinationPos + 3 ≠ D.objSize s.readDestination → ∀ s', s' = { s with
        readAssembly := 0
        readCount := 0
        read4minus1 := 0
        readDestinationPos := s.readDestinationPos + 3
        history.symbols := s.history.symbols ++ [data]
        history.stored := s.history.stored ++ bytes } → Φ s' h' → Q s' () h')
    (hlast : ∀ h' bytes, s.readCount = 3 →
      bitsetToBytearray 3 (readShift s.readAssembly 3 (data.setWidth 24)) = some bytes →
      s.readDestinationPos + 3 = D.objSize s.readDestination → ∀ s', s' = { s with
        readAssembly := 0
        readCount := 0
        read4minus1 := 0
        readDestinationPos := 0
        receiveLock := false
        readLock := Function.update s.readLock s.readDestination false
        history.symbols := []
        history.stored := []
        history.received := s.history.received
          ++ [(s.readDestination, s.history.stored ++ bytes)] } → Φ s' h' → Q s' () h') :
    ((assembleSymbol D data).run s).Safe ρ Q h := by
  obtain ⟨hlock, hlt, hdvd, hpos⟩ := hs.receiving hl
  have hsize := (hD _ hlt).2
  have hcount := hs.readCount_eq
  have hread : s.read data = _ := Endpoint.read_eq hs.readCount_le
  -- a symbol inside a group is overlaid, and the fourth one flushes the three bytes
  by_cases h3 : s.readCount < 3
  · have hne : s.readCount ≠ 3 := by omega
    simp only [assembleSymbol, run_bind, run_look, Prog.bind, hl, if_true, run_change, hread,
      ← hcount, h3, hne, if_false]
    exact hpart h h3 _ (by simp only [hl]) (G.frame s _ h { receiveLock := hl.symm } hΦ)
  · have heq : s.readCount = 3 := by have := hs.readCount_le; omega
    simp only [assembleSymbol, run_bind, run_look, Prog.bind, hl, if_true, run_change, hread,
      ← hcount, heq, lt_irrefl, if_false, Prog.safe_bind]
    refine readFlush_safe fun bytes hflush hlen => ?_
    rw [if_pos hpos]
    simp only [run_bind, Prog.safe_bind]
    refine G.acquire_safe (G.frame s _ h { receiveLock := hl.symm } hΦ) fun h₁ h₁Φ => ?_
    refine G.storeBytes_safe hlock hlt (by simp only; omega) h₁Φ ?_
    rintro _ h₂ rfl h₂Φ
    refine G.clear_safe (.clear _) h₂Φ fun h₃ h₃Φ => ?_
    simp only [run_look, hlen, Prog.safe_ret] at h₃Φ ⊢
    -- the group may be the last one of the object
    by_cases done : s.readDestinationPos + 3 = D.objSize s.readDestination
    · rw [if_pos done]
      simp only [run_bind, run_change, run_look, Prog.safe_bind, Prog.safe_ret]
      have hdecodes := ((heq ▸ hs.decodes).group hflush).stored
      refine (G.received _ h₃ h₃Φ hlock rfl done hdecodes).imp ?_
      rintro _ _ h₄ ⟨rfl, h₄Φ⟩
      exact hlast h₄ bytes heq hflush done _ rfl (G.frame _ _ h₄ {} h₄Φ)
    · rw [if_neg done]
      simp only [run_change, Prog.safe_ret]
      exact hgroup h₃ bytes heq hflush done _ (by simp only [hl]) (G.frame _ _ h₃ {} h₃Φ)

/-- `read_object` receives for the object that holds the lock, or for the first
that may get it. -/
theorem readObject_safe {Q : Endpoint → Unit → H → Prop} (hD : D.Triples)
    (hs : Session D s) (hΦ : Φ s h)
    (hQ : ∀ s' h', Assembled D data s s' → Φ s' h' → Q s' () h')
    (hE : ∀ e, AssembleFault D s e → error e) :
    ((readObject D data).run s).Safe ρ Q h := by
  have hassemble : ∀ t, Receiving D s t → ((assembleSymbol D data).run t).Safe ρ Q h := by
    intro t hr
    obtain ⟨ht, hl⟩ := hs.of_receiving hD hr
    refine G.assembleSymbol_safe hD ht hl (G.receiving s t h hΦ hs hr) ?_ ?_ ?_
    · rintro h' h3 _ rfl hΦ'
      exact hQ _ h' (.part hr h3) hΦ'
    · rintro h' bytes h3 hb hm _ rfl hΦ'
      exact hQ _ h' (.group hr h3 hb hm) hΦ'
    · rintro h' bytes h3 hb hd _ rfl hΦ'
      exact hQ _ h' (.last hr h3 hb hd) hΦ'
  cases hl : s.receiveLock with
  | true =>
    simp only [readObject, run_bind, run_look, Prog.bind, hl, Bool.not_true,
      Bool.false_eq_true, if_false]
    exact hassemble s (.held hl)
  | false =>
    cases find : D.ids.find? s.readLock with
    | none =>
      simpa [readObject, assembleSymbol, Prog.bind, hl, find]
        using G.error _ _ _ (hE _ (.none hl find)) hΦ
    | some j =>
      have hpos : ¬ s.readDestinationPos ≠ 0 := by simpa using (hs.notReceiving hl).1
      simp only [readObject, run_bind, run_look, Prog.bind, hl, Bool.not_false, if_true, find,
        hpos, if_false, run_change]
      exact hassemble _ (.first hl find)

theorem transferHook_safe {Q : Endpoint → Unit → H → Prop} (hs : Session D s) (hΦ : Φ s h)
    (hmay : s.incomingRequest < numIds → may s.incomingRequest)
    (hQ : ∀ s' h', Approved s s' → Φ s' h' → Q s' () h')
    (hE : ∀ e, ApproveFault s e → error e) : (transferHook.run s).Safe ρ Q h := by
  by_cases lt : s.incomingRequest < numIds
  · by_cases other : s.incomingRequest = s.waitingConfirmation
    · simpa [transferHook, Prog.bind, lt, other] using hQ s h (.own other) hΦ
    · cases free : s.readLock s.incomingRequest
      · cases idle : s.transfer s.incomingRequest
        · simp only [transferHook, run_bind, run_look, Prog.bind, lt, ne_eq, other, free, idle,
            Bool.false_eq_true, if_false, if_true, not_false_eq_true, Bool.not_false,
            Prog.safe_bind]
          refine (G.readlock s h hΦ hs lt other (hmay lt) free idle).imp ?_
          rintro _ _ h' ⟨rfl, hΦ'⟩
          exact hQ _ h' (.lock lt other free idle) (G.frame _ _ h' {} hΦ')
        · simpa [transferHook, Prog.bind, lt, other, free, idle]
            using G.error _ _ _ (hE _ (.synced lt other idle)) hΦ
      · simpa [transferHook, Prog.bind, lt, other, free]
          using G.error _ _ _ (hE _ (.duplicate lt other free)) hΦ
  · simpa [transferHook, Prog.bind, lt] using hQ s h (.none (by omega)) hΦ

theorem processAcknowledge_safe {Q : Endpoint → Unit → H → Prop} (hs : Session D s)
    (hΦ : Φ s h) (hQ : ∀ s' h', Acknowledged s s' → Φ s' h' → Q s' () h')
    (hE : ∀ e, AcknowledgeFault s e → error e) : (processAcknowledge.run s).Safe ρ Q h := by
  cases ha : s.vars.receivedAcknowledge <;> cases hr : s.vars.acknowledgeRequested
  · simpa [processAcknowledge, Prog.bind, ha, hr] using hQ s h (.none ha hr) hΦ
  · simpa [processAcknowledge, Prog.bind, ha, hr] using G.error _ _ _ (hE _ (.missing ha hr)) hΦ
  · simpa [processAcknowledge, Prog.bind, ha, hr]
      using G.error _ _ _ (hE _ (.unrequested ha hr)) hΦ
  · obtain ⟨hlt, htr, hrl, -⟩ := hs.requested hr
    have lt : s.waitingConfirmation < numIds := D.lt_numIds hlt
    simp only [processAcknowledge, acknowledgeHook, run_bind, run_look, Prog.bind,
      ha, hr, lt, htr, hrl, Bool.not_true, Bool.not_false, Bool.false_eq_true, if_false,
      if_true, Prog.safe_bind, run_change]
    refine (G.accept s h hΦ hs hr).imp ?_
    rintro _ _ h' ⟨rfl, hΦ'⟩
    exact hQ _ h' (.accept ha hr) hΦ'

/-! ## The `OUT` half -/

theorem getFirstTransfer_safe {Q : Endpoint → Bool → H → Prop} {js : List ℕ}
    (hjs : ∀ j ∈ js, j < D.count) (hΦ : Φ s h) (h₀ : ∀ h', Φ s h' → Q s false h')
    (hQ : ∀ j h', j < D.count → s.transfer j = false → s.readLock j = false →
      Φ (s.requesting j) h' → Q (s.requesting j) true h')
    (hE : ∀ j, j < D.count → allow s ⟨.getFirstTransfer, .testAndSet (.syncMe j)⟩ false →
      s.transfer j = false → s.readLock j = true →
      error .syncedStatusHasNotBeenOverridenWhenReadlockWasAcquired) :
    ((getFirstTransfer js).run s).Safe ρ Q h := by
  induction js generalizing h with
  | nil => exact h₀ h hΦ
  | cons j js ih =>
    have ih' := fun h' => ih (h := h') fun i hi => hjs i (List.mem_cons_of_mem _ hi)
    have hj : j < D.count := hjs j List.mem_cons_self
    rw [getFirstTransfer, run_bind, Prog.safe_bind]
    refine (G.checkSync .getFirstTransfer j s h (.inl rfl) hΦ).imp ?_
    rintro s' b h' ⟨hs', hΦ', htold⟩
    subst hs'
    cases b with
    | false => simpa [Prog.bind] using ih' h' hΦ'
    | true =>
      obtain ⟨told, hrequest⟩ := htold rfl
      cases idle : s'.transfer j with
      | true => simpa [Prog.bind, idle] using ih' h' hΦ'
      | false =>
        cases free : s'.readLock j with
        | true =>
          simpa [Prog.bind, idle, free] using G.error _ _ _ (hE j hj told idle free) hΦ'
        | false =>
          simp only [run_bind, run_look, run_change, run_pure, sendTransferRequest, Prog.bind,
            idle, free, Bool.not_false, Bool.and_self, if_true, Bool.false_eq_true, if_false,
            D.lt_numIds hj]
          exact hQ j h' hj idle free (hrequest rfl free idle)

theorem shutdownQuery_safe {Q : Endpoint → Bool → H → Prop} (hΦ : Φ s h)
    (h₀ : ∀ h', Φ s h' → Q s false h')
    (h₁ : ∀ h', allow s ⟨.incomingShutdownQuery, .loadNotified⟩ true →
      s.vars.acknowledgeRequested = false ∧ s.vars.receivedAcknowledge = false →
      Φ s h' → Q s true h') : ((shutdownQuery D).run s).Safe ρ Q h := by
  rw [shutdownQuery, run_bind, Prog.safe_bind]
  refine G.transfersPending_safe hΦ fun pending h' hΦ' => ?_
  cases pending
  · cases hq : s.vars.acknowledgeRequested
    · cases ha : s.vars.receivedAcknowledge
      · simp only [run_bind, run_look, Prog.safe_bind, Prog.safe_ret, hq, ha,
          Bool.false_eq_true, if_false]
        obtain ⟨hnode, hstep⟩ := G.notified s h' hΦ'
        refine ⟨hnode, fun told h'' htold => ?_⟩
        obtain ⟨hΦ'', htell⟩ := hstep told h'' htold
        cases told
        · exact h₀ h'' hΦ''
        · exact h₁ h'' (htell rfl) ⟨hq, ha⟩ hΦ''
      · simpa [Prog.bind, hq, ha] using h₀ h' hΦ'
    · simpa [Prog.bind, hq] using h₀ h' hΦ'
  · simpa using h₀ h' hΦ'

theorem incomingShutdownQuery_safe {Q : Endpoint → Bool → H → Prop} (hΦ : Φ s h)
    (h₀ : ∀ h', Φ s h' → Q s false h')
    (h₁ : ∀ h', allow s ⟨.incomingShutdownQuery, .loadNotified⟩ true →
      s.vars.acknowledgeRequested = false ∧ s.vars.receivedAcknowledge = false →
      (r = .mcu → s.vars.receivedComShutdown = true) → Φ s h' → Q s true h') :
    ((incomingShutdownQuery D r).run s).Safe ρ Q h := by
  cases r with
  | fpga =>
    exact G.shutdownQuery_safe hΦ h₀ fun h' ht hq => h₁ h' ht hq (fun hr => by cases hr)
  | mcu =>
    cases hx : s.vars.receivedComShutdown with
    | false => simpa [incomingShutdownQuery, Prog.bind, hx] using h₀ h hΦ
    | true =>
      simp only [incomingShutdownQuery, run_bind, run_look, Prog.bind, hx, if_true]
      exact G.shutdownQuery_safe hΦ h₀ fun h' ht hq => h₁ h' ht hq fun _ => hx

omit G in
theorem run_unlessSending (rest : s.sendLock = false) (c : Comm Bool) :
    (unlessSending c).run s = c.run s := by
  simp [unlessSending, Prog.bind, rest]

/-- The second half of `write_hook`: start on the first acknowledged object, or
hang up. -/
theorem writeHook_tail_safe {Q : Endpoint → Bool → H → Prop} (hs : Session D s)
    (first : s.firstRun = false) (rest : s.sendLock = false) (hΦ : Φ s h)
    (hQ : ∀ s' b h', Chosen allow D r s s' b → Φ s' h' → Q s' b h') :
    ((do
      if ← unlessSending (getFirstSyncObject D) then
        return false
      unlessSending (do
        if (← look (Endpoint.outgoingSighupQuery D r))
            && !(← look Endpoint.vars).sentSighup then
          change Endpoint.sendSighupRequest
          return true
        return false) : Comm Bool).run s).Safe ρ Q h := by
  obtain ⟨hpos, -, -⟩ := hs.notSending rest
  simp only [run_bind, Prog.safe_bind, run_unlessSending rest]
  cases find : D.ids.find? s.transfer with
  | some j =>
    have hlock := hs.exclusive j (Session.find_spec find).1
    have hnot : ¬ s.writeOriginPos ≠ 0 := by simpa using hpos
    have hsend : Sending D s { s with sendLock := true, writeOrigin := j } :=
      .first rest find
    simp only [getFirstSyncObject, run_bind, run_look, Prog.safe_bind, Prog.safe_ret, find,
      hlock, Bool.false_eq_true, if_false, hnot, run_change, run_pure, if_true]
    exact hQ _ _ h (.payload first hsend) (G.sending _ _ h hΦ hs hsend)
  | none =>
    simp only [getFirstSyncObject, run_bind, run_look, Prog.safe_bind, Prog.safe_ret, find,
      run_pure, Bool.false_eq_true, if_false, run_unlessSending rest]
    cases query : s.outgoingSighupQuery D r
    · exact hQ _ _ h (.nothing first rest find
        fun hf => absurd (query.symm.trans hf) (by decide)) hΦ
    · cases once : s.vars.sentSighup
      · exact hQ _ _ h (.control (.sighup first rest find query once) rfl)
          (G.frame _ _ h {} hΦ)
      · exact hQ _ _ h (.nothing first rest find fun _ => once) hΦ

theorem writeHook_safe {Q : Endpoint → Bool → H → Prop} (hs : Session D s) (hΦ : Φ s h)
    (hQ : ∀ s' b h', Chosen allow D r s s' b → Φ s' h' → Q s' b h')
    (hE : ∀ e, EmitFault allow D s e → error e) : ((writeHook D r).run s).Safe ρ Q h := by
  cases first : s.firstRun with
  | true =>
    simpa [writeHook, Prog.bind, first]
      using hQ _ _ h (.control (.poweron first) rfl) (G.frame _ _ h {} hΦ)
  | false =>
    cases rest : s.sendLock with
    | true =>
      simpa [writeHook, unlessSending, Prog.bind, first, rest]
        using hQ s false h (.payload first (.held rest)) hΦ
    | false =>
      have hids : ∀ j ∈ D.ids, j < D.count := fun j => DescriptorHelper.mem_ids.mp
      have htail := fun h' (hΦ' : Φ s h') =>
        G.writeHook_tail_safe (r := r) hs first rest hΦ' hQ
      simp only [writeHook, run_bind, run_look, Prog.safe_bind, Prog.safe_ret, first,
        Bool.false_eq_true, if_false, run_unlessSending rest]
      cases hx : s.vars.sentComShutdown with
      | false =>
        simp only [Bool.not_false, if_true]
        refine G.getFirstTransfer_safe hids hΦ (fun h' hΦ' => ?_)
          (fun j h' hj idle free hΦ' =>
            hQ _ _ h' (.control (.request first rest hx hj idle free) rfl) hΦ')
          (fun j hj told idle locked => hE _ (.readlocked first rest hx hj told idle locked))
        simp only [run_bind, Prog.safe_bind, Bool.false_eq_true, if_false,
          run_unlessSending rest]
        refine G.incomingShutdownQuery_safe hΦ' htail fun h'' told quiet follow hΦ'' => ?_
        simp only [run_bind, run_look, Prog.safe_bind, Prog.safe_ret, hx, Bool.not_false,
          Bool.and_self, if_true, run_change, run_pure]
        exact hQ _ _ h'' (.control (.shutdown first rest hx told quiet follow) rfl)
          (G.frame _ _ h'' {} hΦ'')
      | true =>
        simp only [Bool.not_true, Bool.false_eq_true, if_false, run_pure, Prog.safe_ret,
          run_bind, Prog.safe_bind, run_unlessSending rest]
        refine G.incomingShutdownQuery_safe hΦ htail fun h'' _ _ _ hΦ'' => ?_
        simp only [run_look, Prog.safe_ret, hx, Bool.not_true, Bool.and_false,
          Bool.false_eq_true, if_false, run_pure]
        exact htail h'' hΦ''

/-- `write_object` for an object that is being sent: it fetches a byte, closes a group, or
completes the object. -/
theorem writeObject_safe {Q : Endpoint → Bool → H → Prop} (hD : D.Triples)
    (hs : Session D s) (hl : s.sendLock = true) (hΦ : Φ s h)
    (hload : ∀ h', Φ s h' → (Access.load s.writeOrigin s.writeOriginPos).Inside D s →
      ρ.node s ⟨.writeObject, .load s.writeOrigin s.writeOriginPos⟩ h'
      ∧ ∀ (w : Byte) h'',
        ρ.step s ⟨.writeObject, .load s.writeOrigin s.writeOriginPos⟩ w h' h'' →
        Φ { s with
          writeOriginPos := s.writeOriginPos + 1
          history.fetched := s.history.fetched ++ [w] } h'')
    (hfetch : ∀ (w : Byte) s' h', Fed D s s' → s' = { s with
        writeOriginPos := s.writeOriginPos + 1
        writeCount := s.writeCount + 1
        write3plus1 := s.writeCount + 1
        writeAssembly := Function.update s.writeAssembly s.writeCount w
        comOut := s.symbol w
        history.fetched := s.history.fetched ++ [w]
        history.payload := true } → Φ { s with
          writeOriginPos := s.writeOriginPos + 1
          history.fetched := s.history.fetched ++ [w] } h' → Q s' true h')
    (hclose : ∀ s', Fed D s s' → s' = { s with
        writeCount := 0
        write3plus1 := 0
        comOut := s.symbol 63
        history.payload := true } → Q s' true h)
    (hlast : ∀ s', Fed D s s' → s.writeCount = 3 → s.writeOriginPos = D.objSize s.writeOrigin →
      s' = { s with
        writeOriginPos := 0
        writeCount := 0
        write3plus1 := 0
        sendLock := false
        transfer := Function.update s.transfer s.writeOrigin false
        comOut := s.symbol 63
        history.sent := s.history.sent ++ [(s.writeOrigin, s.history.fetched)]
        history.fetched := []
        history.payload := true } →
      ((emitSent s.writeOrigin).run s).Safe ρ (fun t _ h' => t = s ∧ Q s' true h') h) :
    ((writeObject D).run s).Safe ρ Q h := by
  obtain ⟨htr, hlt⟩ := hs.origin hl
  obtain ⟨-, g, hpos, hg⟩ := hs.sending hl
  have hcount := hs.writeCount_eq
  have hdvd := (hD _ hlt).2
  by_cases h3 : s.write3plus1 < 3
  · have hne : s.writeCount ≠ 3 := by omega
    simp only [writeObject, run_bind, run_look, Prog.safe_bind, Prog.safe_ret, hl, if_true, h3]
    refine G.acquire_safe hΦ fun h₁ h₁Φ => ?_
    obtain ⟨hnode, hstep⟩ := hload h₁ h₁Φ ⟨htr, hlt, by omega, rfl, rfl⟩
    refine ⟨hnode, fun w h₂ hw => ?_⟩
    simp only [run_change, Prog.safe_ret]
    refine G.clear_safe (.clear _) (hstep w h₂ hw) fun h₃ h₃Φ => ?_
    simp only [run_pure, Prog.safe_ret]
    rw [Endpoint.write_eq (by simpa only using hs.writeCount_le)]
    have hfed := Fed.fetch (D := D) (s := s) w (by omega)
    refine hfetch w _ h₃ ?_ ?_ h₃Φ
    · simpa only [hne, if_false, ← hcount, hl, Endpoint.symbol] using hfed
    · simp only [hne, if_false, ← hcount, Endpoint.symbol]
  · have heq : s.writeCount = 3 := by have := hs.writeCount_le; omega
    by_cases done : s.writeOriginPos = D.objSize s.writeOrigin
    · simp only [writeObject, run_bind, run_look, Prog.safe_bind, Prog.safe_ret, hl, if_true, h3,
        if_false]
      rw [if_pos done]
      simp only [run_bind, run_look, Prog.safe_bind, Prog.safe_ret, run_change, run_pure]
      refine (hlast _ (Fed.last heq done) heq done rfl).imp ?_
      rintro t _ h' ⟨rfl, hQ⟩
      rw [Endpoint.write_eq (by simpa only using hs.writeCount_le)]
      simpa only [heq, if_true, Endpoint.symbol] using hQ
    · simp only [writeObject, run_bind, run_look, Prog.safe_bind, Prog.safe_ret, hl, if_true, h3,
        if_false]
      rw [if_neg done]
      simp only [run_bind, Prog.safe_bind, Prog.safe_ret, run_change, run_pure]
      rw [Endpoint.write_eq (by simpa only using hs.writeCount_le)]
      refine hclose _ ?_ ?_
      · simpa only [heq, if_true, hl, Endpoint.symbol] using Fed.close heq done
      · simp only [heq, if_true, Endpoint.symbol]

/-- The `OUT` half, up to a symbol of an object. -/
theorem sendByte_safe {Q : Endpoint → Unit → H → Prop} (hD : D.Triples)
    (hs : Session D s) (hq : s.vars.acknowledgeRequested = false) (hΦ : Φ s h)
    (hwrite : ∀ t h', s.firstRun = false → Sending D { s with waitingConfirmation := numIds } t →
      Session D t → t.sendLock = true → Φ t h' →
      ((writeObject D).run t).Safe ρ (fun s' b h'' => b = true ∧ Q s' () h'') h')
    (hQ : ∀ s' h', Emitted allow D r { s with waitingConfirmation := numIds } s' →
      s'.history.payload = false → Φ s' h' → Q s' () h')
    (hE : ∀ e, EmitFault allow D { s with waitingConfirmation := numIds } e → error e) :
    ((sendByte D r).run s).Safe ρ Q h := by
  have ht := AtRest.reset hs hq
  have hΦt : Φ { s with waitingConfirmation := numIds } h :=
    G.frame s _ h { confirmation := fun hr => absurd (hq.symm.trans hr) (by decide) } hΦ
  simp only [sendByte, run_bind, run_change, Prog.safe_bind, Prog.safe_ret]
  refine G.writeHook_safe ht hΦt (fun s' b h' hc hΦ' => ?_) hE
  cases hc with
  | control hc hp => exact hQ _ h' hc hp hΦ'
  | payload first hc =>
    obtain ⟨ht', hl, -⟩ := ht.of_sending hD hq hc
    simp only [Bool.not_false, if_true, run_bind, Prog.safe_bind]
    refine (hwrite _ h' first hc ht' hl hΦ').imp ?_
    rintro s'' _ h'' ⟨rfl, hQ'⟩
    simpa using hQ'
  | nothing first rest none query =>
    have hl : ¬ s.sendLock = true := by rw [show s.sendLock = false from rest]; decide
    simp only [Bool.not_false, if_true, run_bind, Prog.safe_bind, writeObject, run_look,
      Prog.safe_ret]
    rw [if_neg hl]
    simp only [run_pure, Prog.safe_ret, Bool.not_false, if_true, run_change]
    exact hQ _ h' (.idle first rest none query) rfl (G.frame _ _ h' {} hΦ')

/-! ## The cycle -/

theorem receiveByte_safe {Q : Endpoint → Unit → H → Prop} (hD : D.Triples)
    (hs : Session D s) (hΦ : Φ s h)
    (hstop : r = .mcu → s.comIn.getLsbD 7 = true → stateCode s.comIn = State.shutdown.code → stop)
    (hmay : ∀ s₁, Taken D s.comIn s s₁ → s₁.incomingRequest < numIds → may s₁.incomingRequest)
    (hQ : ∀ s' h', Received D s.comIn s s' → Φ s' h' → Q s' () h')
    (hE : ∀ e, ReceiveFault D s.comIn s e → error e) :
    ((receiveByte D r).run s).Safe ρ Q h := by
  have htail : ∀ s₁ h₁, Taken D s.comIn s s₁ → Φ s₁ h₁ →
      (transferHook.run s₁).Safe ρ (fun s _ h => (processAcknowledge.run s).Safe ρ Q h) h₁ := by
    intro s₁ h₁ taken h₁Φ
    have h₁s := hs.taken hD taken
    refine G.transferHook_safe h₁s h₁Φ (hmay s₁ taken) (fun s₂ h₂ approved h₂Φ => ?_)
      fun e hf => hE e (.approve taken hf)
    exact G.processAcknowledge_safe (h₁s.approved approved) h₂Φ
      (fun s₃ h₃ acknowledged => hQ s₃ h₃ ⟨taken, approved, acknowledged⟩)
      fun e hf => hE e (.acknowledge taken approved hf)
  have hbit : (s.receiveBits s.comIn).vars.receivedRequest = s.comIn.getLsbD 7 := rfl
  have hΦ₀ : Φ (s.receiveBits s.comIn) h := G.frame _ _ h {} hΦ
  simp only [receiveByte, run_bind, run_look, Prog.safe_bind, Prog.safe_ret, run_change, hbit]
  cases request : s.comIn.getLsbD 7 with
  | true =>
    simp only [if_true, run_bind, Prog.safe_bind]
    exact G.readHook_safe hΦ₀ (fun hr => hstop hr request)
      (fun s₁ h₁ hk => htail s₁ h₁ (.hook request hk)) fun e hf => hE e (.hook request hf)
  | false =>
    simp only [Bool.false_eq_true, if_false, run_bind, Prog.safe_bind]
    exact G.readObject_safe hD hs.receiveBits hΦ₀
      (fun s₁ h₁ ha => htail s₁ h₁ (.object request ha)) fun e hf => hE e (.object request hf)

/-- A cycle, up to a symbol of an object. -/
theorem cycle_safe {Q : Endpoint → Unit → H → Prop} (hD : D.Triples) (hs : AtRest D s)
    (hΦ : Φ s h)
    (hstop : r = .mcu → s.comIn.getLsbD 7 = true → stateCode s.comIn = State.shutdown.code → stop)
    (hmay : s.firstRun = false → ∀ s₁, Taken D s.comIn s s₁ → s₁.incomingRequest < numIds →
      may s₁.incomingRequest)
    (hwrite : ∀ t u h', Heard D s t → t.firstRun = false →
      Sending D { t with waitingConfirmation := numIds } u → Session D u → u.sendLock = true →
      Φ u h' → ((writeObject D).run u).Safe ρ (fun s' b h'' => b = true ∧ Q s' () h'') h')
    (hQ : ∀ s' h', Cycled allow D r s s' → s'.history.payload = false → Φ s' h' → Q s' () h')
    (hE : ∀ e, CycleFault allow D s e → error e) : ((cycle D r).run s).Safe ρ Q h := by
  have hout : ∀ t h₁, Heard D s t → Φ t h₁ → ((sendByte D r).run t).Safe ρ Q h₁ := by
    intro t h₁ heard h₁Φ
    obtain ⟨ht, hq⟩ := hs.heard hD heard
    exact G.sendByte_safe hD ht hq h₁Φ (fun u h' => hwrite t u h' heard)
      (fun s' h' emitted => hQ s' h' ⟨heard, emitted⟩)
      fun e hf => hE e (.emit heard hf)
  simp only [cycle, run_bind, run_look, Prog.safe_bind, Prog.safe_ret]
  cases first : s.firstRun with
  | true =>
    simp only [if_true, emitInit, run_bind, Prog.safe_bind]
    refine G.acquire_safe hΦ fun h₁ h₁Φ => ?_
    exact G.clear_safe (.clear _) h₁Φ fun h₂ => hout s h₂ (.first first)
  | false =>
    simp only [Bool.false_eq_true, if_false, run_bind, Prog.safe_bind]
    exact G.receiveByte_safe hD hs.toSession hΦ hstop (hmay first)
      (fun t h' hr => hout t h' (.byte first hr)) fun e hf => hE e (.receive first hf)

/-- The end of an `event_loop`: the token is handed on with the byte in the out
buffer. -/
theorem handOver_safe {Q : Endpoint → Unit → H → Prop} (hΦ : Φ s h)
    (hgive : ∀ h', Φ s h' → ρ.node s ⟨.handshakeAck, .handshakeAck s.comOut⟩ h'
      ∧ ∀ (x : Unit) h'', ρ.step s ⟨.handshakeAck, .handshakeAck s.comOut⟩ x h' h'' →
        Q s () h'') :
    ((do triggerResolve; access .handshakeAck (.handshakeAck (← look Endpoint.comOut)) :
      Comm Unit).run s).Safe ρ Q h := by
  simp only [triggerResolve, run_bind, Prog.safe_bind]
  exact G.clear_safe .trigger hΦ fun h' hΦ' => hgive h' hΦ'

end Watch

namespace Guard

variable (G : Guard D stop may allow error ρ Φ)

include G

/-- `write_object` keeps what is asserted. -/
theorem writeObject_safe {Q : Endpoint → Bool → H → Prop} (hD : D.Triples)
    (hs : Session D s) (hl : s.sendLock = true) (hΦ : Φ s h)
    (hQ : ∀ s' h', Fed D s s' → Φ s' h' → Q s' true h') :
    ((writeObject D).run s).Safe ρ Q h := by
  refine G.toWatch.writeObject_safe hD hs hl hΦ (fun h' hΦ' hin => G.load s h' hΦ' hin) ?_ ?_ ?_
  · rintro w _ h' hf rfl hΦ'
    exact hQ _ h' hf (G.frame _ _ h' {} hΦ')
  · rintro _ hf rfl
    exact hQ _ h hf (G.frame _ _ h {} hΦ)
  · rintro _ hf - done rfl
    refine (G.sent s h hΦ hs hl done).imp ?_
    rintro s' _ h' ⟨rfl, hΦ'⟩
    exact ⟨rfl, hQ _ h' hf (G.frame _ _ h' {} hΦ')⟩

theorem sendByte_safe {Q : Endpoint → Unit → H → Prop} (hD : D.Triples)
    (hs : Session D s) (hq : s.vars.acknowledgeRequested = false) (hΦ : Φ s h)
    (hQ : ∀ s' h', Emitted allow D r { s with waitingConfirmation := numIds } s' →
      Φ s' h' → Q s' () h')
    (hE : ∀ e, EmitFault allow D { s with waitingConfirmation := numIds } e → error e) :
    ((sendByte D r).run s).Safe ρ Q h :=
  G.toWatch.sendByte_safe hD hs hq hΦ
    (fun _ _ first sending ht hl hΦ' => G.writeObject_safe hD ht hl hΦ'
      fun s' h'' hf hΦ'' => ⟨rfl, hQ s' h'' (.payload first sending hf) hΦ''⟩)
    (fun s' h' emitted _ => hQ s' h' emitted) hE

/-- **What a cycle can do**, and what it keeps. -/
theorem cycle_safe {Q : Endpoint → Unit → H → Prop} (hD : D.Triples) (hs : AtRest D s)
    (hΦ : Φ s h)
    (hstop : r = .mcu → s.comIn.getLsbD 7 = true → stateCode s.comIn = State.shutdown.code → stop)
    (hmay : s.firstRun = false → ∀ s₁, Taken D s.comIn s s₁ → s₁.incomingRequest < numIds →
      may s₁.incomingRequest)
    (hQ : ∀ s' h', Cycled allow D r s s' → Φ s' h' → Q s' () h')
    (hE : ∀ e, CycleFault allow D s e → error e) : ((cycle D r).run s).Safe ρ Q h :=
  G.toWatch.cycle_safe hD hs hΦ hstop hmay
    (fun _ _ _ heard first sending ht hl hΦ' => G.writeObject_safe hD ht hl hΦ'
      fun s' h'' hf hΦ'' => ⟨rfl, hQ s' h'' ⟨heard, .payload first sending hf⟩ hΦ''⟩)
    (fun s' h' hc _ => hQ s' h' hc) hE

end Guard

/-- **An `event_loop`**, between any two handshakes: it keeps whatever guard
holds for the byte that is taken. -/
theorem eventLoop_safe {Q : Endpoint → Unit → H → Prop} (hD : D.Triples) (hs : AtRest D s)
    (hidle : s.handshakeQuery r = false → Q s () h)
    (hnode : s.handshakeQuery r = true → ρ.node s ⟨.handshake, .handshake⟩ h)
    (htake : s.handshakeQuery r = true →
      ∀ (b : Byte) h', ρ.step s ⟨.handshake, .handshake⟩ b h h' →
      ∃ stop may allow error Φ, Guard D stop may allow error ρ Φ ∧ Φ { s with comIn := b } h'
      ∧ (r = .mcu → b.getLsbD 7 = true → stateCode b = State.shutdown.code → stop)
      ∧ (s.firstRun = false → ∀ s₁, Taken D b { s with comIn := b } s₁ →
        s₁.incomingRequest < numIds → may s₁.incomingRequest)
      ∧ (∀ e, CycleFault allow D { s with comIn := b } e → error e)
      ∧ ∀ s' h'', Cycled allow D r { s with comIn := b } s' → Φ s' h'' →
        ρ.node s' ⟨.handshakeAck, .handshakeAck s'.comOut⟩ h''
        ∧ ∀ (x : Unit) h₃, ρ.step s' ⟨.handshakeAck, .handshakeAck s'.comOut⟩ x h'' h₃ →
          Q s' () h₃) :
    ((eventLoop D r).run s).Safe ρ Q h := by
  simp only [eventLoop, run_bind, run_look, Prog.safe_bind, Prog.safe_ret]
  cases query : s.handshakeQuery r with
  | false => simpa using hidle query
  | true =>
    simp only [if_true, run_bind, Prog.safe_bind]
    refine ⟨hnode query, fun b h' hb => ?_⟩
    obtain ⟨stop, may, allow, error, Φ, G, hΦ, hstop, hmay, hE, hgive⟩ := htake query b h' hb
    simp only [run_change, Prog.safe_ret]
    exact G.cycle_safe hD (hs.take b) hΦ hstop hmay
      (fun s' h'' hc hΦ' => G.handOver_safe hΦ' fun h₃ hΦ₃ => hgive s' h₃ hc hΦ₃) hE

end SOS
