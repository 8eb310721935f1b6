import SoftwareOnSilicon.Endpoints

/-!
# The stop request

The request flag of an end is set by every control symbol and taken back only
by an acknowledge, so what keeps payload from being marked as a request is that
the last control symbol before it was a transfer request, and acknowledged.
The announcement of the shutdown is not, and it is made whenever no write
request is left to find – also while acknowledged objects still wait for their
turn.

So all goes well as long as the stop request is not read while an object is in
transfer (`Drained`): payload is never taken for a command, and the link closes
with nothing left under way. Otherwise the next object is sent with its symbols
marked as requests.
-/

namespace SOS

open Interleaving

variable {D : DescriptorHelper} {r : Role} {stop apart : Prop} {s : Endpoint}

theorem turnsOutline_between {σ : (link D).State} {h : Turns}
    (hk : (turnsOutline D stop apart).Keeps σ h) (hs : Between (σ.thread r) s) :
    s = h.rest r ∧ h.Valid D stop apart := by
  obtain hs | ⟨site, k, hs⟩ := hs
  · have hr : Turns.AtRest D stop apart r s h := hk.rest hs
    exact ⟨hr.state, hr.valid⟩
  · have hn : Turns.Node D stop apart r s ⟨site, .handshake⟩ h := hk.node hs
    exact ⟨(hn.take rfl).1, hn.valid⟩

/-! ## Schedules with a stop request -/

/-- Replays in which write requests do not overlap, with stop requests. -/
def stopScript (D : DescriptorHelper) (check : (link D).State → Bool) : (link D).Script Event :=
  script D (fun v σ => v.disjoint σ) check

theorem stopScript_may {check : (link D).State → Bool} (v : Event) (σ : (link D).State)
    (hv : (stopScript D check).may v σ = true) :
    LineIntact σ (v.act σ.world) ∧ Apart σ (v.act σ.world) :=
  ⟨v.lineIntact σ, Event.apart_of_disjoint hv⟩

/-- `Drained` at one end, as a test. -/
def drainedAt (D : DescriptorHelper) (h : Board) (p : Prog Endpoint ErrorCode Op.Answer Unit) :
    Bool :=
  match p with
  | .op s o _ => o.access != .loadNotified || !h.notified || s.vars.sentComShutdown
      || D.ids.all fun j => !s.transfer j
  | _ => true

/-- `Drained`, as a test. -/
def drained (σ : (link D).State) : Bool :=
  drainedAt D (σ.world.board .fpga) (σ.thread .fpga)
    && drainedAt D (σ.world.board .mcu) (σ.thread .mcu)

theorem drained_spec {σ : (link D).State} (h : drained σ = true) : Drained σ := by
  intro r s site k hp hn ho j hj
  have hat : drainedAt D (σ.world.board r) (σ.thread r) = true := by
    rw [drained, Bool.and_eq_true] at h
    cases r
    · exact h.1
    · exact h.2
  rw [hp, drainedAt, hn, ho] at hat
  simpa using List.all_eq_true.mp hat j (DescriptorHelper.mem_ids.mpr hj)

/-- The run of one object, in the middle of which the stop request is made. -/
def stopDuring (n : ℕ) : List (Pool.Entry Role Event) :=
  .act (.writeRequest .fpga 0)
    :: (rounds 4 ++ .act (.stopRequest .fpga) :: (rounds n ++ [.go .fpga 1000]))

/-! ## Payload and commands -/

/-- **Payload is never taken for a command**, if the stop request is not read
while an object is in transfer: an end that is sending does not request
anything, and no payload symbol is marked as a request. -/
theorem payload_unmarked (hD : D.Triples) (obj : Role → ℕ → ℕ → Byte) {σ : (link D).State}
    (hσ : (link D).Reaches LineIntact (fun σ _ => Drained σ) (link.start D obj) σ) :
    (∀ r s, Between (σ.thread r) s → s.sendLock = true → s.ownUpdated = false)
    ∧ ∀ r b A B, σ.world.wire = some (r, b) → Between (σ.thread r.peer) A →
      Between (σ.thread r) B → A.history.payload = true →
      b.getLsbD 7 = false ∧ (B.receiveBits b).vars.receivedRequest = false := by
  obtain ⟨h, hk⟩ := turnsOutline_keeps True False hD
    (fun σ w he => ⟨he, fun hs => absurd trivial hs, False.elim⟩) (fun _ _ _ h => h) hσ
  refine ⟨fun r s hs hl => ?_, fun r b A B hw hA hB hp => ?_⟩
  · obtain ⟨rfl, hv⟩ := turnsOutline_between hk hs
    exact (hv.plain r).quiet hl
  · obtain ⟨A', B', hA', -, rfl, -, hplain, -⟩ := turnsOutline_flying hk hw
    obtain rfl : A = A' := hA.state.symm.trans hA'.state
    have hbit := hplain.symbol hp
    exact ⟨hbit, hbit⟩

/-- A run in which the stop request is made while payload is being sent. -/
theorem payload_unmarked_during : ∃ σ, (link twoObjects).Reaches LineIntact
      (fun σ _ => Drained σ) twoObjects.start σ
    ∧ ∃ A b, Between (σ.thread .fpga) A ∧ σ.world.wire = some (.mcu, b) ∧ A.sendLock = true
      ∧ A.history.payload = true ∧ (σ.world.board .fpga).notified = true
      ∧ A.ownUpdated = false ∧ b.getLsbD 7 = false := by
  obtain ⟨σ, hσ, hp⟩ := Pool.Script.exists_of_replay
    (fun σ w => LineIntact σ w ∧ Apart σ w) (fun σ _ => Drained σ)
    (stopScript twoObjects drained) (stopDuring 0) twoObjects.start
    (fun σ => σ.world.wire == some (.mcu, 0) && between (σ.thread .fpga)
      && between (σ.thread .mcu) && (σ.thread .fpga).state.sendLock
      && (σ.thread .fpga).state.history.payload && (σ.world.board .fpga).notified)
    stopScript_may (fun _ _ h => drained_spec h) (by decide +kernel)
  simp only [Bool.and_eq_true, beq_iff_eq] at hp
  obtain ⟨⟨⟨⟨⟨hw, hA⟩, hB⟩, hl⟩, hpayload⟩, hn⟩ := hp
  have hσ' := hσ.mono (fun _ _ h => h.1) fun _ _ h => h
  obtain ⟨hquiet, hsymbol⟩ := payload_unmarked twoObjects_triples (fun _ _ _ => 0) hσ'
  exact ⟨σ, hσ', _, 0, between_spec hA, hw, hl, hpayload, hn,
    hquiet _ _ (between_spec hA) hl,
    (hsymbol _ _ _ _ hw (between_spec hA) (between_spec hB) hpayload).1⟩

/-- The run of two objects that are both acknowledged when the first one is
sent and the stop request is made. -/
def stopBetween (n : ℕ) : List (Pool.Entry Role Event) :=
  .act (.writeRequest .fpga 0) :: .act (.writeRequest .fpga 1)
    :: (rounds 7 ++ .act (.stopRequest .fpga) :: (rounds n ++ [.go .fpga 1000]))

/-- **Payload taken for a command**: the second object is sent with its symbols
marked as requests. -/
theorem payload_marked : ∃ σ, (link twoObjects).Reaches
      (fun σ w => LineIntact σ w ∧ Apart σ w) (fun _ _ => True) twoObjects.start σ
    ∧ ∃ b, σ.world.wire = some (.mcu, b) ∧ b.getLsbD 7 = true
      ∧ Between (σ.thread .fpga) (σ.thread .fpga).state
      ∧ (σ.thread .fpga).state.sendLock = true ∧ (σ.thread .fpga).state.ownUpdated = true
      ∧ (σ.thread .fpga).state.history.payload = true
      ∧ ((σ.thread .mcu).state.receiveBits b).vars.receivedRequest = true := by
  obtain ⟨σ, hσ, hp⟩ := Pool.Script.exists_of_replay
    (fun σ w => LineIntact σ w ∧ Apart σ w) (fun _ _ => True)
    (stopScript twoObjects fun _ => true) (stopBetween 1) twoObjects.start
    (fun σ => σ.world.wire == some (.mcu, 0x80) && between (σ.thread .fpga)
      && (σ.thread .fpga).state.sendLock && (σ.thread .fpga).state.ownUpdated
      && (σ.thread .fpga).state.history.payload)
    stopScript_may (fun _ _ _ => trivial) (by decide +kernel)
  simp only [Bool.and_eq_true, beq_iff_eq] at hp
  exact ⟨σ, hσ, 0x80, hp.1.1.1.1, by decide, between_spec hp.1.1.1.2, hp.1.1.2, hp.1.2, hp.2,
    (show (0x80 : Byte).getLsbD 7 = true by decide)⟩

/-! ## The end of the communication -/

/-- **A graceful shutdown drains both directions**, if the stop request is not
read while an object is in transfer. When the FPGA hangs up, nothing is under
way at either end; the MCU answers with a sighup; and neither communication
loop fails. -/
theorem shutdown_drains (hD : D.Triples) (obj : Role → ℕ → ℕ → Byte) {σ : (link D).State}
    (hσ : (link D).Reaches (fun σ w => LineIntact σ w ∧ Apart σ w) (fun σ _ => Drained σ)
      (link.start D obj) σ) :
    σ.Up
    ∧ (∀ b F M, σ.world.wire = some (.mcu, b) → Between (σ.thread .fpga) F →
        Between (σ.thread .mcu) M → F.vars.sentSighup = true → Silent F ∧ Silent M)
    ∧ ∀ b F M, σ.world.wire = some (.fpga, b) → Between (σ.thread .fpga) F →
        Between (σ.thread .mcu) M → F.vars.sentSighup = true →
        Silent F ∧ Silent M ∧ b.getLsbD 7 = true ∧ stateCode b = State.sighup.code := by
  obtain ⟨h, hk⟩ := turnsOutline_keeps True True hD
    (fun σ w he => ⟨he.1, fun hs => absurd trivial hs, fun _ => he.2⟩) (fun _ _ _ h => h) hσ
  refine ⟨turnsOutline_up hk, fun b F M hw hF hM hs => ?_, fun b F M hw hF hM hs => ?_⟩
  · obtain ⟨F', M', hF', hM', rfl, hfly, -⟩ := turnsOutline_flying hk hw
    obtain rfl : F = F' := hF.state.symm.trans hF'.state
    obtain rfl : M = M' := hM.state.symm.trans hM'.state
    exact ⟨(hfly.hung hs).1, (hfly.hung hs).2.1⟩
  · obtain ⟨M', F', hM', hF', rfl, hfly, -⟩ := turnsOutline_flying hk hw
    obtain rfl : F = F' := hF.state.symm.trans hF'.state
    obtain rfl : M = M' := hM.state.symm.trans hM'.state
    obtain ⟨hM, hF, request, code⟩ := hfly.hung ((hfly.reply rfl).trans hs)
    exact ⟨hF, hM, request, code⟩

/-- A run in which the link closes. -/
theorem shutdown_drains_during : ∃ σ, (link twoObjects).Reaches
      (fun σ w => LineIntact σ w ∧ Apart σ w) (fun σ _ => Drained σ) twoObjects.start σ
    ∧ σ.Up ∧ ∃ b F M, σ.world.wire = some (.mcu, b) ∧ Between (σ.thread .fpga) F
      ∧ Between (σ.thread .mcu) M ∧ F.vars.sentSighup = true ∧ Silent F ∧ Silent M := by
  obtain ⟨σ, hσ, hp⟩ := Pool.Script.exists_of_replay
    (fun σ w => LineIntact σ w ∧ Apart σ w) (fun σ _ => Drained σ)
    (stopScript twoObjects drained) (stopDuring 3) twoObjects.start
    (fun σ => σ.world.wire == some (.mcu, 0xBD) && between (σ.thread .fpga)
      && between (σ.thread .mcu) && (σ.thread .fpga).state.vars.sentSighup)
    stopScript_may (fun _ _ h => drained_spec h) (by decide +kernel)
  simp only [Bool.and_eq_true, beq_iff_eq] at hp
  obtain ⟨⟨⟨hw, hF⟩, hM⟩, hs⟩ := hp
  obtain ⟨hup, hdrain, -⟩ := shutdown_drains twoObjects_triples (fun _ _ _ => 0) hσ
  exact ⟨σ, hσ, hup, _, _, _, hw, between_spec hF, between_spec hM, hs,
    hdrain _ _ _ hw (between_spec hF) (between_spec hM) hs⟩

/-- **An object is lost**: the FPGA hangs up while the MCU still has the second
object locked. -/
theorem shutdown_loses : ∃ σ, (link twoObjects).Reaches
      (fun σ w => LineIntact σ w ∧ Apart σ w) (fun _ _ => True) twoObjects.start σ
    ∧ (∃ b, σ.world.wire = some (.mcu, b) ∧ stateCode b = State.sighup.code)
      ∧ Between (σ.thread .fpga) (σ.thread .fpga).state
      ∧ (σ.thread .fpga).state.vars.sentSighup = true
      ∧ Between (σ.thread .mcu) (σ.thread .mcu).state
      ∧ (σ.thread .mcu).state.readLock 1 = true := by
  obtain ⟨σ, hσ, hp⟩ := Pool.Script.exists_of_replay
    (fun σ w => LineIntact σ w ∧ Apart σ w) (fun _ _ => True)
    (stopScript twoObjects fun _ => true) (stopBetween 5) twoObjects.start
    (fun σ => σ.world.wire == some (.mcu, 0xBD) && between (σ.thread .fpga)
      && (σ.thread .fpga).state.vars.sentSighup && between (σ.thread .mcu)
      && (σ.thread .mcu).state.readLock 1)
    stopScript_may (fun _ _ _ => trivial) (by decide +kernel)
  simp only [Bool.and_eq_true, beq_iff_eq] at hp
  exact ⟨σ, hσ, ⟨0xBD, hp.1.1.1.1, by decide⟩, between_spec hp.1.1.1.2, hp.1.1.2,
    between_spec hp.1.2, hp.2⟩

end SOS
