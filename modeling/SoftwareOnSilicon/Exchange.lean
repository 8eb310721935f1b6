import SoftwareOnSilicon.Agreement

/-!
# One exchange after another

The two ends take turns. `Due` is what they have to do with one another when
one of them has heard the other and is about to emit, `Flying` when its symbol
is under way. Emitting leads from the first to the second (`Due.emitted`),
hearing from the second back to the first, the ends exchanged
(`Flying.heard`), and hearing never fails (`Flying.no_fault`).

Both are about agreement, and in addition about the two moments where the
ends differ: the first cycle of each, in which the MCU does not read the byte
of the FPGA, and the last one, in which the MCU answers the FPGA's sighup.

`Accounted` says in so many words what the two ends have in common while a
symbol is under way.
-/

namespace SOS

open Interleaving

variable {D : DescriptorHelper} {r : Role} {allow : Answers} {A A' B B' : Endpoint}

/-! ## What an emission leaves alone -/

/-- **The `OUT` half does not touch the receiver**, and its symbol carries the
acknowledge. -/
theorem Emitted.receiver (h : Emitted allow D r A A') :
    A'.readLock = A.readLock ∧ A'.receiveLock = A.receiveLock
      ∧ A'.readDestination = A.readDestination
      ∧ A'.history.received = A.history.received
      ∧ A'.comOut.getLsbD 6 = A.peerAcknowledge := by
  cases h with
  | poweron => exact ⟨rfl, rfl, rfl, rfl, stamp_acknowledge ..⟩
  | request _ _ _ lt =>
    exact ⟨rfl, rfl, rfl, rfl, (request_symbol (D.lt_numIds lt) ..).2.1⟩
  | shutdown => exact ⟨rfl, rfl, rfl, rfl, stamp_acknowledge ..⟩
  | payload _ sending fed =>
    have hf := fed.receiver sending
    exact ⟨hf.readLock, hf.receiveLock, hf.readDestination, hf.received,
      (fed.signals sending).2⟩
  | sighup => exact ⟨rfl, rfl, rfl, rfl, stamp_acknowledge ..⟩
  | idle => exact ⟨rfl, rfl, rfl, rfl, stamp_acknowledge ..⟩

/-- **The `OUT` half completes at most one send.** -/
theorem Emitted.progress (h : Emitted allow D r A A') (hA : Session D A) :
    (A'.transfer = A.transfer ∧ A'.history.sent = A.history.sent
      ∧ (A.sendLock = true → A'.writeOrigin = A.writeOrigin))
    ∨ ∃ j bytes, D.ids.find? A.transfer = some j ∧ A'.comOut.getLsbD 7 = A.ownUpdated
      ∧ A'.transfer = Function.update A.transfer j false
      ∧ A'.history.sent = A.history.sent ++ [(j, bytes)] ∧ A'.sendLock = false := by
  cases h with
  | poweron => exact .inl ⟨rfl, rfl, fun _ => rfl⟩
  | request => exact .inl ⟨rfl, rfl, fun _ => rfl⟩
  | shutdown => exact .inl ⟨rfl, rfl, fun _ => rfl⟩
  | @payload T _ _ sending fed =>
    have horigin : A.sendLock = true → T.writeOrigin = A.writeOrigin := fun hs => by
      cases sending with
      | held => rfl
      | first hf => exact absurd (hf.symm.trans hs) (by decide)
    cases fed with
    | fetch => exact .inl ⟨sending.frame.1, sending.frame.2, horigin⟩
    | close => exact .inl ⟨sending.frame.1, sending.frame.2, horigin⟩
    | last count done =>
      refine .inr ⟨T.writeOrigin, T.history.fetched, ?_,
        (Fed.signals sending (.last count done)).1, ?_, ?_, rfl⟩
      · cases sending with
        | held hs => exact (hA.sending hs).1
        | first _ find => exact find
      · simp only [sending.frame.1]
      · simp only [sending.frame.2]
  | sighup => exact .inl ⟨rfl, rfl, fun _ => rfl⟩
  | idle => exact .inl ⟨rfl, rfl, fun _ => rfl⟩

/-- An end that emits payload has an object in transfer. -/
theorem Sending.busy {T : Endpoint} (h : Sending D A T) (hA : Session D A) :
    ∃ j, A.transfer j = true := by
  cases h with
  | held hl => exact ⟨_, (hA.origin hl).1⟩
  | first _ find => exact ⟨_, (Session.find_spec find).1⟩

/-- Hearing does not touch the first-run flag. -/
theorem Received.firstRun {b : Byte} (h : Received D b B B') : B'.firstRun = B.firstRun := by
  obtain ⟨taken, approved, acknowledged⟩ := h
  have htaken : ∀ {B₁}, Taken D b B B₁ → B₁.firstRun = B.firstRun := by
    rintro B₁ (⟨_, hk⟩ | ⟨_, ha⟩)
    · cases hk <;> rfl
    · cases ha with
      | part receiving => cases receiving <;> rfl
      | group receiving => cases receiving <;> rfl
      | last receiving => cases receiving <;> rfl
  rw [← htaken taken]
  cases approved <;> cases acknowledged <;> rfl

/-! ## An end at which nothing is under way -/

/-- Nothing is sent, received or awaited. -/
structure Silent (s : Endpoint) : Prop where
  idle : ∀ j, s.transfer j = false
  free : ∀ j, s.readLock j = false
  unrequested : s.vars.acknowledgeRequested = false

/-- If nothing is under way at one end, nothing is at the other. -/
theorem Agree.silent (h : Agree D A B) (hA : Silent A) : Silent B := by
  have hback : ∀ j, B.transfer j = false ∧ B.awaits j = false := fun j => by
    have hj := h.back.locks j
    rw [hA.free j] at hj
    simpa using hj.symm
  refine ⟨fun j => (hback j).1, fun j => ?_, ?_⟩
  · rw [h.forth.locks j, hA.idle j, Endpoint.awaits, hA.unrequested]
    rfl
  · simpa [Endpoint.awaits] using (hback B.waitingConfirmation).2

/-! ## The two ends while a symbol is under way -/

/-- **The symbol under way is accounted for**: `A` has emitted it and `B` has
not heard it yet. -/
structure Accounted (D : DescriptorHelper) (A B : Endpoint) : Prop where
  /-- What `A` has locked is what `B` transfers, or is about to be told it may. -/
  acknowledged : ∀ j, A.readLock j = true ↔ B.transfer j = true
    ∨ (A.comOut.getLsbD 6 = true ∧ j = B.waitingConfirmation)
  /-- What `B` has locked is what `A` transfers, and the object whose last
  symbol is under way. -/
  locked : (B.readLock = A.transfer ∧ B.history.received = A.history.sent)
    ∨ ∃ j bytes, A.comOut.getLsbD 7 = false ∧ A.transfer j = false
      ∧ D.ids.find? B.readLock = some j ∧ B.readLock = Function.update A.transfer j true
      ∧ A.history.sent = B.history.received ++ [(j, bytes)]
  delivered : A.history.received = B.history.sent
  /-- What `A` emits is what `B` assembles. -/
  emitting : A.sendLock = true → D.ids.find? A.transfer = some A.writeOrigin
    ∧ D.ids.find? B.readLock = some A.writeOrigin
    ∧ (B.receiveLock = true → B.readDestination = A.writeOrigin)
  /-- What `A` assembles is what `B` emits. -/
  assembling : B.sendLock = true → D.ids.find? B.transfer = some B.writeOrigin
    ∧ D.ids.find? A.readLock = some B.writeOrigin
    ∧ A.receiveLock = true ∧ A.readDestination = B.writeOrigin

/-- **Payload is not marked as a request**: not while an object is being sent,
and not on the symbol under way. -/
structure Plain (s : Endpoint) : Prop where
  quiet : s.sendLock = true → s.ownUpdated = false
  symbol : s.history.payload = true → s.comOut.getLsbD 7 = false

/-- **An end is due to emit**: it has heard the other one. -/
structure Due (D : DescriptorHelper) (r : Role) (A B : Endpoint) : Prop where
  settled : Settled D B A
  peer : AtRest D B
  first : A.firstRun = true → Fresh A ∧ Fresh B
  order : B.firstRun = true → A.firstRun = true
  unhung : A.vars.sentSighup = false
  /-- Only the MCU emits once its peer has hung up, and then nothing is left. -/
  hung : B.vars.sentSighup = true → r = .mcu ∧ Silent A

/-- **A symbol is under way**: `A`, of the given role, has emitted it. -/
structure Flying (D : DescriptorHelper) (r : Role) (A B : Endpoint) : Prop where
  sender : AtRest D A
  hears : B.firstRun = false → ∀ x, (∀ e, ¬ ReceiveFault D A.comOut { B with comIn := x } e)
    ∧ ∀ B', Received D A.comOut { B with comIn := x } B' → Settled D A B'
  first : B.firstRun = true → Settled D A B ∧ Fresh A ∧ Fresh B
  order : A.firstRun = true → B.firstRun = true
  asks : ∀ x B₁, B.firstRun = false → Taken D A.comOut { B with comIn := x } B₁ →
    B₁.incomingRequest < numIds → A.awaits B₁.incomingRequest = true
  accounted : Accounted D A B
  plain : Plain A
  /-- Who hangs up has nothing left. -/
  hung : A.vars.sentSighup = true →
    Silent A ∧ Silent B ∧ A.comOut.getLsbD 7 = true ∧ stateCode A.comOut = State.sighup.code
  /-- The MCU answers sighup by sighup. -/
  reply : r = .mcu → A.vars.sentSighup = B.vars.sentSighup
  waiting : r = .fpga → B.vars.sentSighup = false

/-! ## Emitting -/

/-- **The stop request finds nothing in transfer**: the answers under which an
end announces the shutdown. -/
def Draining (D : DescriptorHelper) (allow : Answers) : Prop :=
  ∀ s, allow s ⟨.incomingShutdownQuery, .loadNotified⟩ true →
    s.vars.sentComShutdown = false → ∀ j < D.count, s.transfer j = false

namespace Settled

/-- The byte in the in buffer does not matter. -/
theorem take (h : Settled D B A) (x : Byte) : Settled D { B with comIn := x } A where
  agree :=
    { forth := { h.agree.forth with
        session := { h.agree.forth.session with }
        locks := h.agree.forth.locks
        stream := { h.agree.forth.stream with } }
      back := { h.agree.back with stream := { h.agree.back.stream with } } }
  heard := h.heard
  reply := h.reply

theorem load (h : Settled D B A) (x : Byte) : Settled D B { A with comIn := x } where
  agree :=
    { forth := { h.agree.forth with stream := { h.agree.forth.stream with } }
      back := { h.agree.back with
        session := { h.agree.back.session with }
        locks := h.agree.back.locks
        stream := { h.agree.back.stream with } } }
  heard := h.heard
  reply := h.reply

/-- Two ends before their first cycle. -/
theorem initial : Settled D {} {} := by
  have half : Half D ({} : Endpoint) {} :=
    { session := .initial
      locks := fun _ => rfl
      stream := .of_rest (D := D) .initial .initial rfl rfl
      quiet := fun _ _ => rfl
      sent := rfl
      told := rfl
      hung := rfl
      closed := fun hs => by cases hs }
  exact ⟨⟨half, half⟩, rfl, rfl⟩

/-- An end that has heard awaits nothing, whatever it awaited before. -/
theorem reset (h : Settled D B A) : Settled D B { A with waitingConfirmation := numIds } where
  agree :=
    { forth := { h.agree.forth with stream := { h.agree.forth.stream with } }
      back := { h.agree.back with
        session := AtRest.reset h.agree.back.session h.heard
        locks := fun j => by
          have hj := h.agree.back.locks j
          simp only [Endpoint.awaits, h.heard, Bool.false_and] at hj ⊢
          exact hj
        stream := { h.agree.back.stream with } } }
  heard := h.heard
  reply := h.reply

/-- Both ends have announced the shutdown before one of them hangs up. -/
theorem closed (h : Settled D B A) (query : A.outgoingSighupQuery D r = true) :
    A.vars.sentComShutdown = true ∧ B.vars.sentComShutdown = true := by
  cases r with
  | fpga =>
    simp only [Endpoint.outgoingSighupQuery, Bool.and_eq_true] at query
    exact ⟨query.1.1.1, h.agree.forth.told.symm.trans query.1.1.2⟩
  | mcu =>
    simp only [Endpoint.outgoingSighupQuery, Bool.and_eq_true] at query
    exact (h.agree.forth.closed (h.agree.forth.hung.symm.trans query.1.1)).symm

/-- A payload symbol is not marked as a request. -/
theorem quiet (h : Settled D B A) {T : Endpoint} (sending : Sending D A T) :
    A.ownUpdated = false :=
  h.agree.back.quiet h.heard (sending.busy h.agree.back.session)

/-- An object that is asked for is awaited. -/
theorem asks {B₁ : Endpoint} (h : Settled D B A) (he : Emitted allow D r A A')
    (ht : Taken D A'.comOut B B₁) (lt : B₁.incomingRequest < numIds) :
    A'.awaits B₁.incomingRequest = true := by
  have hnone : ∀ {p : Prop}, (B.receiveBits A'.comOut).incomingRequest < numIds → p :=
    fun hlt => absurd hlt (lt_irrefl _)
  have hstate : ∀ {st : State} {s : Endpoint}, stateCode (s.sendState st).comOut = st.code :=
    (stateCode_stamp ..).trans (stateCode_code _)
  cases ht with
  | object request ha => exact hnone (ha.sender.incoming ▸ lt)
  | hook request hk =>
    cases he with
    | poweron => obtain rfl := hk.of_poweron hstate; exact hnone lt
    | request _ _ _ hj =>
      have hj' := D.lt_numIds hj
      obtain rfl := hk.of_request hj' (request_symbol hj' true A.peerAcknowledge).2.2
      simp [Endpoint.awaits]
    | shutdown => obtain rfl := hk.of_shutdown hstate; exact hnone lt
    | payload _ sending fed =>
      exact absurd (request.symm.trans ((fed.signals sending).1.trans (h.quiet sending)))
        (by decide)
    | sighup => obtain rfl := hk.of_sighup hstate; exact hnone lt
    | idle => obtain ⟨v, rfl⟩ := hk.of_idle hstate; exact hnone lt

/-- **Whatever is emitted is heard**, without an error, and the ends agree
again. -/
theorem emitted (hD : D.Triples) (hdrain : Draining D allow) (h : Settled D B A)
    (hB : AtRest D B) (hfirst : A.firstRun = true → Fresh A ∧ Fresh B)
    (he : Emitted allow D r A A') :
    (∀ e, ¬ ReceiveFault D A'.comOut B e)
      ∧ ∀ B', Received D A'.comOut B B' → Settled D A' B' := by
  have hA := h.agree.back.session
  cases he with
  | poweron first => exact h.hears_poweron (hfirst first).1 (hfirst first).2
  | request _ rest open_ lt idle free => exact h.hears_request hB rest open_ lt idle free
  | shutdown _ _ open_ told =>
    refine h.hears_shutdown (fun j => ?_) open_
    by_contra hj
    have hlt := hA.transfer_lt j (by simpa using hj)
    exact hj (hdrain _ told open_ j hlt)
  | payload _ sending fed => exact h.hears_payload hD sending fed
  | sighup _ _ none query once =>
    exact h.hears_sighup (hA.no_transfer none) once (h.closed query)
  | idle _ _ none => exact h.hears_idle (hA.no_transfer none)

/-- The symbol that has been emitted is accounted for. -/
theorem accounted (h : Settled D B A) (he : Emitted allow D r A A') (hA' : AtRest D A') :
    Accounted D A' B := by
  obtain ⟨hlock, hreceive, hdest, hreceived, hack⟩ := he.receiver
  have hlocks : B.readLock = A.transfer := funext fun j => by
    simp [h.agree.back.locks j, Endpoint.awaits, h.heard]
  have hbusy : B.sendLock = true → A.readLock = B.transfer := fun hs => funext fun j => by
    have hq : B.vars.acknowledgeRequested = false := by
      by_contra hq
      have := (h.agree.forth.session.requested (by simpa using hq)).2.2.2
      exact absurd (hs.symm.trans this) (by decide)
    simp [h.agree.forth.locks j, Endpoint.awaits, hq]
  refine
    { acknowledged := fun j => ?_
      locked := ?_
      delivered := hreceived.trans h.agree.forth.sent
      emitting := fun hs => ?_
      assembling := fun hs => ?_ }
  · rw [hlock, hack, h.reply, h.agree.forth.locks j, Endpoint.awaits]
    simp
  · rcases he.progress h.agree.back.session with
      ⟨htr, hsent, -⟩ | ⟨j, bytes, hfind, hbit, htr, hsent, -⟩
    · exact .inl ⟨hlocks.trans htr.symm, h.agree.back.sent.trans hsent.symm⟩
    · have hj := (Session.find_spec hfind).1
      refine .inr ⟨j, bytes, ?_, ?_, ?_, ?_, ?_⟩
      · exact hbit.trans (h.agree.back.quiet h.heard ⟨j, hj⟩)
      · rw [htr, Function.update_self]
      · rw [hlocks, hfind]
      · rw [hlocks, htr, Function.update_idem, ← hj, Function.update_eq_self]
      · rw [hsent, h.agree.back.sent]
  · have hfind := (hA'.sending hs).1
    rcases he.progress h.agree.back.session with ⟨htr, -, horigin⟩ | ⟨_, _, _, _, _, _, hf⟩
    · refine ⟨hfind, by rw [hlocks, ← htr, hfind], fun hr => ?_⟩
      have hsend := h.agree.back.stream.lock.symm.trans hr
      rw [h.agree.back.stream.object hsend, horigin hsend]
    · exact absurd (hs.symm.trans hf) (by decide)
  · have hfind := (h.agree.forth.session.sending hs).1
    refine ⟨hfind, by rw [hlock, hbusy hs, hfind], ?_, ?_⟩
    · rw [hreceive, h.agree.forth.stream.lock, hs]
    · rw [hdest, h.agree.forth.stream.object hs]

theorem plain (h : Settled D B A) (hfirst : A.firstRun = true → Fresh A)
    (he : Emitted allow D r A A') : Plain A' := by
  have hrest : A.sendLock = false → ∀ {p : Prop}, A.sendLock = true → p := fun hf _ ht =>
    absurd (hf.symm.trans ht) (by decide)
  have hnot : ∀ {p : Prop}, false = true → p := fun hf => by cases hf
  cases he with
  | poweron first => exact ⟨hrest ((hfirst first).rest h.agree.back.session), hnot⟩
  | request _ rest => exact ⟨hrest rest, hnot⟩
  | shutdown _ rest => exact ⟨hrest rest, hnot⟩
  | payload _ sending fed =>
    exact ⟨fun _ => (fed.receiver sending).ownUpdated.trans (h.quiet sending),
      fun _ => (fed.signals sending).1.trans (h.quiet sending)⟩
  | sighup _ rest => exact ⟨hrest rest, hnot⟩
  | idle _ rest => exact ⟨hrest rest, hnot⟩

/-- A shutdown symbol is one that has been announced. -/
theorem announced (h : Settled D B A) (he : Emitted allow D r A A')
    (request : A'.comOut.getLsbD 7 = true)
    (code : stateCode A'.comOut = State.shutdown.code) :
    allow A ⟨.incomingShutdownQuery, .loadNotified⟩ true := by
  have hstate : ∀ {u a : Bool} {st : State}, stateCode (stamp u a st.code) = State.shutdown.code →
      st = .shutdown := fun hc =>
    State.code_inj (((stateCode_stamp ..).trans (stateCode_code _)).symm.trans hc)
  cases he with
  | poweron => exact absurd (hstate code) (by decide)
  | request _ _ _ lt =>
    have hj := D.lt_numIds lt
    have hcode := (request_symbol hj true A.peerAcknowledge).2.2
    exact absurd (hcode.symm.trans code) ((transferCode_spec hj).2.2 _)
  | shutdown _ _ _ told => exact told
  | payload _ sending fed =>
    have hown := (fed.signals sending).1.trans (h.quiet sending)
    exact absurd (request.symm.trans hown) (by decide)
  | sighup => exact absurd (hstate code) (by decide)
  | idle => exact absurd (hstate code) (by decide)

end Settled

/-- Nothing is under way at an end that may hang up. -/
theorem Settled.silent (h : Settled D B A) (query : A.outgoingSighupQuery D r = true) :
    Silent A := by
  have hpending : A.readsPending D = false ∧ A.writesPending D = false := by
    cases r <;>
      simp only [Endpoint.outgoingSighupQuery, Bool.and_eq_true, Bool.not_eq_true'] at query <;>
      exact ⟨query.1.2, query.2⟩
  have hnone : ∀ {p : ℕ → Bool}, D.ids.any p = false → ∀ j < D.count, p j = false :=
    fun hp j hj => by
      simpa using List.any_eq_false.mp hp j (DescriptorHelper.mem_ids.mpr hj)
  refine ⟨fun j => ?_, fun j => ?_, h.heard⟩
  · by_contra hf
    have hj : A.transfer j = true := by simpa using hf
    exact hf (hnone hpending.2 j (h.agree.back.session.transfer_lt j hj))
  · by_contra hf
    refine hf (hnone hpending.1 j ?_)
    have hj := h.agree.forth.locks j
    rw [show A.readLock j = true by simpa using hf] at hj
    rcases Bool.or_eq_true _ _ |>.mp hj.symm with ht | ha
    · exact h.agree.forth.session.transfer_lt j ht
    · simp only [Endpoint.awaits, Bool.and_eq_true, decide_eq_true_eq] at ha
      exact ha.2 ▸ (h.agree.forth.session.requested ha.1).1

/-- An end that has nothing left hangs up if its peer has. -/
theorem Silent.query (h : Silent A) (hs : A.vars.receivedSighup = true) :
    A.outgoingSighupQuery D .mcu = true := by
  have hreads : A.readsPending D = false := by simp [Endpoint.readsPending, h.free]
  have hwrites : A.writesPending D = false := by simp [Endpoint.writesPending, h.idle]
  simp [Endpoint.outgoingSighupQuery, hs, hreads, hwrites]

/-- **The hang-up**: who has hung up has nothing left, and the MCU answers a
sighup at once. -/
theorem Emitted.hung (he : Emitted allow D r A A') (h : Due D r A B) :
    (A'.vars.sentSighup = true → Silent A' ∧ Silent B ∧ A'.comOut.getLsbD 7 = true
      ∧ stateCode A'.comOut = State.sighup.code)
    ∧ (r = .mcu → A'.vars.sentSighup = B.vars.sentSighup) := by
  have hsame : A'.vars.sentSighup = A.vars.sentSighup → B.vars.sentSighup = false →
      (A'.vars.sentSighup = true → Silent A' ∧ Silent B ∧ A'.comOut.getLsbD 7 = true
        ∧ stateCode A'.comOut = State.sighup.code)
      ∧ (r = .mcu → A'.vars.sentSighup = B.vars.sentSighup) := fun heq hB =>
    ⟨fun hf => absurd ((h.unhung.symm.trans heq.symm).trans hf) (by decide),
      fun _ => heq.trans (h.unhung.trans hB.symm)⟩
  have hopen : A.vars.sentComShutdown = false → B.vars.sentSighup = false := fun hc => by
    by_contra hs
    exact absurd (hc.symm.trans (h.settled.agree.forth.closed (by simpa using hs)).2) (by decide)
  have hA := h.settled.agree.back.session
  cases he with
  | poweron first => exact hsame rfl (h.first first).2.unhung
  | request _ _ open_ => exact hsame rfl (hopen open_)
  | shutdown _ _ open_ => exact hsame rfl (hopen open_)
  | payload _ sending fed =>
    refine hsame (congrArg ComVars.sentSighup (fed.receiver sending).vars) ?_
    by_contra hs
    obtain ⟨j, hj⟩ := sending.busy hA
    exact absurd (((h.hung (by simpa using hs)).2.idle j).symm.trans hj) (by decide)
  | sighup _ _ none query =>
    have hsilent := h.settled.silent query
    refine ⟨fun _ => ⟨{ hsilent with }, h.settled.agree.symm.silent hsilent,
      stamp_updated .., ?_⟩, ?_⟩
    · exact (stateCode_stamp ..).trans (stateCode_code _)
    · rintro rfl
      simp only [Endpoint.outgoingSighupQuery, Bool.and_eq_true] at query
      exact query.1.1.symm.trans h.settled.agree.forth.hung
  | idle _ _ none query =>
    refine hsame rfl ?_
    by_contra hs
    have hs' : B.vars.sentSighup = true := by simpa using hs
    obtain ⟨rfl, hsilent⟩ := h.hung hs'
    have := query (hsilent.query (h.settled.agree.forth.hung.trans hs'))
    exact absurd (h.unhung.symm.trans this) (by decide)

/-- **An end that is due emits**, and its symbol is under way. -/
theorem Due.emitted (hD : D.Triples) (hdrain : Draining D allow) (h : Due D r A B)
    (he : Emitted allow D r { A with waitingConfirmation := numIds } A') :
    Flying D r A' B := by
  have hA' : AtRest D A' := .of_emitted hD h.settled.agree.back.session h.settled.heard he
  have hfirst : A.firstRun = true → Fresh { A with waitingConfirmation := numIds } ∧ Fresh B :=
    fun ha => ⟨{ (h.first ha).1 with }, (h.first ha).2⟩
  have h₀ : Due D r { A with waitingConfirmation := numIds } B :=
    { h with
      settled := h.settled.reset
      first := hfirst
      hung := fun hs => ⟨(h.hung hs).1, { (h.hung hs).2 with }⟩ }
  obtain ⟨hhung, hreply⟩ := he.hung h₀
  refine
    { sender := hA'
      hears := fun _ x => (h₀.settled.take x).emitted hD hdrain (h.peer.take x)
        (fun ha => ⟨(hfirst ha).1, { (hfirst ha).2 with }⟩) he
      first := fun hb => ?_
      order := fun ha => absurd (he.firstRun.symm.trans ha) (by decide)
      asks := fun x _ _ ht => (h₀.settled.take x).asks he ht
      accounted := h₀.settled.accounted he hA'
      plain := h₀.settled.plain (fun ha => (hfirst ha).1) he
      hung := hhung
      reply := hreply
      waiting := fun hr => ?_ }
  · obtain ⟨hfresh, hB⟩ := hfirst (h.order hb)
    -- the first symbol of an end is the poweron symbol
    have hfirst := h.order hb
    cases he with
    | poweron =>
      obtain ⟨forth, back⟩ := h₀.settled.agree
      refine ⟨⟨⟨?_, ?_⟩, hB.unrequested, hB.silent.trans h.settled.heard.symm⟩,
        { hfresh with }, hB⟩
      · exact { back with
          session := { back.session with }
          locks := back.locks
          stream := { back.stream with }
          quiet := fun _ ⟨j, hj⟩ => absurd ((hfresh.idle j).symm.trans hj) (by decide) }
      · exact { forth with stream := { forth.stream with } }
    | request first => exact absurd (first.symm.trans hfirst) (by decide)
    | shutdown first => exact absurd (first.symm.trans hfirst) (by decide)
    | payload first => exact absurd (first.symm.trans hfirst) (by decide)
    | sighup first => exact absurd (first.symm.trans hfirst) (by decide)
    | idle first => exact absurd (first.symm.trans hfirst) (by decide)
  · by_contra hs
    have := (h.hung (by simpa using hs)).1
    exact absurd (this.symm.trans hr) (by decide)

/-! ## Hearing -/

/-- Hearing does not hang up. -/
theorem Received.unhung {b : Byte} (h : Received D b B B') (hB : B.vars.sentSighup = false) :
    B'.vars.sentSighup = false := by
  obtain ⟨taken, approved, acknowledged⟩ := h
  have htaken : ∀ {B₁}, Taken D b B B₁ → B₁.vars.sentSighup = false := by
    rintro B₁ (⟨_, hk⟩ | ⟨_, ha⟩)
    · cases hk with
      | poweron => rfl
      | idle => exact hB
      | shutdown => exact hB
      | sighup => exact hB
      | request => exact hB
    · rw [ha.sender.vars]
      exact hB
  have h₁ := htaken taken
  cases approved <;> cases acknowledged <;> exact h₁

/-- **A symbol that is under way is heard**, and the other end is due. -/
theorem Flying.heard {x : Byte} (h : Flying D r A B) (hquery : B.handshakeQuery r.peer = true)
    (hx : x = A.comOut) (hh : Heard D { B with comIn := x } B') :
    Due D r.peer B' A := by
  cases hh with
  | first hb =>
    obtain ⟨hsettled, hA, hB⟩ := h.first hb
    exact
      { settled := hsettled.load x
        peer := h.sender
        first := fun _ => ⟨{ hB with }, hA⟩
        order := fun _ => hb
        unhung := hB.unhung
        hung := fun hs => absurd (hA.unhung.symm.trans hs) (by decide) }
  | byte hb received =>
    have hreceived : Received D A.comOut { B with comIn := x } B' := hx ▸ received
    have hsettled := (h.hears hb x).2 B' hreceived
    have hfirst : B'.firstRun = false := hreceived.firstRun.trans hb
    have hunhung : B.vars.sentSighup = false := by
      cases r with
      | fpga => exact h.waiting rfl
      | mcu => exact (Bool.not_eq_true' _).mp hquery
    refine
      { settled := hsettled
        peer := h.sender
        first := fun hf => absurd (hfirst.symm.trans hf) (by decide)
        order := fun ha => absurd (hb.symm.trans (h.order ha)) (by decide)
        unhung := hreceived.unhung hunhung
        hung := fun hs => ⟨?_, hsettled.agree.silent (h.hung hs).1⟩ }
    cases r with
    | fpga => rfl
    | mcu => exact absurd (hunhung.symm.trans ((h.reply rfl).symm.trans hs)) (by decide)

/-- **Hearing never fails.** -/
theorem Flying.no_fault {x : Byte} {e : ErrorCode} (h : Flying D r A B)
    (hx : x = A.comOut) (he : CycleFault allow D { B with comIn := x } e) :
    ∃ B', Heard D { B with comIn := x } B'
      ∧ EmitFault allow D { B' with waitingConfirmation := numIds } e := by
  cases he with
  | receive first fault => exact absurd (hx ▸ fault) ((h.hears first x).1 e)
  | emit heard fault => exact ⟨_, heard, fault⟩

/-- The two processes before their first cycle. -/
theorem Flying.initial : Flying D .mcu {} {} where
  sender := .initial
  hears hf := by cases hf
  first _ := ⟨.initial, ⟨fun _ => rfl, rfl, rfl, rfl, rfl⟩, ⟨fun _ => rfl, rfl, rfl, rfl, rfl⟩⟩
  order _ := rfl
  asks _ _ hf := by cases hf
  accounted :=
    { acknowledged := fun j => by simp
      locked := .inl ⟨rfl, rfl⟩
      delivered := rfl
      emitting := fun hs => by cases hs
      assembling := fun hs => by cases hs }
  plain := ⟨fun hs => (by cases hs), fun hs => by cases hs⟩
  hung hs := by cases hs
  reply _ := rfl
  waiting hf := by cases hf

end SOS
