import SoftwareOnSilicon.Endpoints
import SoftwareOnSilicon.Representation
import SoftwareOnSilicon.Codec

/-!
# A peer that starts again

A peer that has been restarted announces itself by a poweron symbol. What the
end that hears it does is `com_hotplug_action`, which is `clear_read_receive`
at both ends: it stops the process if a receive is under way, and leaves
everything else as it is. So the session is as good as new exactly if nothing
was readlocked and nothing in transfer (`poweron_clears`), and then the two
ends go on as after their start.
-/

namespace SOS

open Interleaving Code

variable {D : DescriptorHelper} {r : Role} {s s' : Endpoint} {h h' : Board} {b : Byte}

/-- **The session of a fresh endpoint**: no lock is held, and all positions and
counters have their initial values. -/
structure Cleared (s : Endpoint) : Prop where
  readLock : ∀ j, s.readLock j = false
  transfer : ∀ j, s.transfer j = false
  receiveLock : s.receiveLock = false
  sendLock : s.sendLock = false
  readDestinationPos : s.readDestinationPos = 0
  writeOriginPos : s.writeOriginPos = 0
  readCount : s.readCount = 0
  read4minus1 : s.read4minus1 = 0
  writeCount : s.writeCount = 0
  write3plus1 : s.write3plus1 = 0
  readAssembly : s.readAssembly = 0

/-- A session without locks is clear. -/
theorem Session.cleared (hs : Session D s) (hr : ∀ j, s.readLock j = false)
    (ht : ∀ j, s.transfer j = false) : Cleared s := by
  have hreceive : s.receiveLock = false := by
    by_contra hl
    exact absurd ((hr _).symm.trans (hs.receiving (by simpa using hl)).1) (by decide)
  have hsend : s.sendLock = false := by
    by_contra hl
    exact absurd ((ht _).symm.trans (hs.origin (by simpa using hl)).1) (by decide)
  obtain ⟨hpos, hcount, -⟩ := hs.notReceiving hreceive
  obtain ⟨hpos', hcount', -⟩ := hs.notSending hsend
  exact ⟨hr, ht, hreceive, hsend, hpos, hpos', hcount, hs.readCount_eq.symm.trans hcount,
    hs.writeCount_eq.trans hcount', hcount', hs.assembly hcount⟩

/-! ## The cycle that hears the poweron symbol -/

/-- What is left of a cycle after its `IN` half. -/
def finishCycle (D : DescriptorHelper) (r : Role) : Comm Unit := do
  sendByte D r
  triggerResolve
  access .handshakeAck (.handshakeAck (← look Endpoint.comOut))

/-- The private state in which a poweron symbol is left behind. -/
def Endpoint.hotplugged (b : Byte) (s : Endpoint) : Endpoint :=
  { ({ s with comIn := b } : Endpoint).receiveBits b with vars := {} }

/-- The rules of an end that runs undisturbed. -/
def aloneRules : Rules Endpoint ErrorCode Op.Answer Board where
  step _ o a h h' := onBoard o h = some (a, h')
  node _ _ _ := True
  error _ _ _ := True

theorem aloneGuard : Guard D True (fun _ => True) (fun _ _ _ => True) (fun _ => True)
    aloneRules (fun _ _ => True) :=
  Guard.steady (fun _ _ _ _ _ => trivial) (fun _ _ _ _ _ => ⟨trivial, fun _ _ _ => trivial⟩)
    (fun _ _ _ _ _ _ => trivial) (fun _ _ _ _ => trivial)

/-- **The `IN` half on a poweron symbol**, where it does not fail: the session
variables are new, and the rest of the session is what it was. -/
theorem eval_receiveByte_poweron (hD : D.Triples) (hs : AtRest D s)
    (request : b.getLsbD 7 = true) (code : stateCode b = State.poweron.code)
    (he : (receiveByte D r).eval onBoard { s with comIn := b } h = some ((), s', h')) :
    s' = s.hotplugged b ∧ Session D s' := by
  have hsafe : ((receiveByte D r).run { s with comIn := b }).Safe aloneRules
      (fun s' _ _ => Received D b { s with comIn := b } s') h :=
    aloneGuard.receiveByte_safe hD (hs.take b).toSession trivial (fun _ _ _ => trivial)
      (fun _ _ _ => trivial) (fun _ _ received _ => received) fun _ _ => trivial
  have received := hsafe.eval onBoard (fun _ _ _ _ _ hx => hx) he
  refine ⟨?_, ((hs.take b).toSession.received hD received).1⟩
  obtain ⟨taken, approved, acknowledged⟩ := received
  cases taken with
  | object hf => exact absurd (request.symm.trans hf) (by decide)
  | hook _ hk =>
    obtain rfl := hk.of_poweron code
    obtain rfl := approved.skip rfl
    cases acknowledged with
    | none => rfl
    | accept received => cases received

/-! ## The run that follows -/

/-- **The peer that has started again**, after its first cycle. The history
variables are those of the line. -/
def Endpoint.restarted (s : Endpoint) : Endpoint :=
  { ({} : Endpoint).sendPoweronRequest with
    history := { sent := s.history.received, received := s.history.sent } }

/-- The link while an end replies to the poweron symbol of its peer. -/
def link.restarted (D : DescriptorHelper) (r : Role) (s : Endpoint) (w : World) :
    (link D).State where
  world := w
  thread i := if i = r then (finishCycle D r).run s else .ret s.restarted ()

/-- No stop request has been made, and no object is requested at both ends. -/
structure World.Calm (w : World) : Prop where
  wire : w.wire = none
  notified : ∀ r, (w.board r).notified = false
  disjoint : ∀ r j, (w.board r).flag (.syncMe j) = false →
    (w.board r.peer).flag (.syncMe j) = true

theorem Endpoint.restarted_atRest : AtRest D s.restarted :=
  { AtRest.initial (D := D) with fresh := fun hf => by cases hf }

/-- **The two ends agree again.** -/
theorem Cleared.due (hs : Session D s) (hc : Cleared s) (hv : s.vars = {})
    (hp : s.peerAcknowledge = false) (hf : s.firstRun = false) : Due D r s s.restarted := by
  have hrest := Endpoint.restarted_atRest (D := D) (s := s)
  have hawait : ∀ j, s.awaits j = false := fun j => by simp [Endpoint.awaits, hv]
  have forth : Half D s.restarted s :=
    { session := hrest.toSession
      locks := hc.readLock
      stream := .of_rest hrest.toSession hs rfl hc.receiveLock
      quiet := by rintro - ⟨_, hj⟩; cases hj
      sent := rfl
      told := congrArg ComVars.receivedComShutdown hv
      hung := congrArg ComVars.receivedSighup hv
      closed := fun hf => by cases hf }
  have back : Half D s s.restarted :=
    { session := hs
      locks := fun j => by rw [hc.transfer, hawait]; rfl
      stream := .of_rest hs hrest.toSession hc.sendLock rfl
      quiet := by rintro - ⟨j, hj⟩; exact absurd ((hc.transfer j).symm.trans hj) (by decide)
      sent := rfl
      told := (congrArg ComVars.sentComShutdown hv).symm
      hung := (congrArg ComVars.sentSighup hv).symm
      closed := fun hf => absurd ((congrArg ComVars.sentSighup hv).symm.trans hf) (by decide) }
  exact
    { settled := ⟨⟨forth, back⟩, congrArg ComVars.acknowledgeRequested hv, hp⟩
      peer := hrest
      first := fun hf' => absurd (hf.symm.trans hf') (by decide)
      order := fun hf => by cases hf
      unhung := congrArg ComVars.sentSighup hv
      hung := fun hf => by cases hf }

/-- **The outline holds where the run begins.** -/
theorem restarted_keeps (hD : D.Triples) {w : World} (hw : w.Calm) (hs : Session D s)
    (hc : Cleared s) (hv : s.vars = {}) (hp : s.peerAcknowledge = false)
    (hf : s.firstRun = false) :
    ∃ h, (turnsOutline D False True).Keeps (link.restarted D r s w) h := by
  let h : Turns :=
    { turn := r
      byte := none
      rest := fun _ => s.restarted
      pend := fun r j => !(w.board r).flag (.syncMe j)
      peek := fun _ => none }
  have hvalid : h.Valid D False True :=
    { plain := fun _ => ⟨fun hf => (by cases hf), fun hf => by cases hf⟩
      flying := fun b hb => by cases hb
      code := fun _ b hb => by cases hb
      disjoint := fun _ r j hj => by
        have hflag : (w.board r).flag (.syncMe j) = false := by simpa [h] using hj
        simp [h, hw.disjoint r j hflag]
      owns := fun _ r hb => ⟨fun j hj => (by cases hj), fun j _ => rfl⟩ }
  refine ⟨h,
    { wire := hw.wire
      notified := fun _ => hw.notified
      pend := fun _ r j hj => by simpa [h, link.restarted] using hj
      held := fun _ r j hj => .inl (by simpa [h, link.restarted] using hj)
      peeked := fun _ r j hj => by cases hj }, fun i => ?_⟩
  by_cases hi : i = r
  · subst hi
    -- the end that has processed the poweron symbol is in the midst of its cycle
    have hmid : Turns.Mid D False True i (fun _ => s.restarted) s h :=
      { valid := hvalid
        peek := rfl
        busy := ⟨rfl, rfl⟩
        rest := rfl
        owns := fun _ => ⟨fun j hj => by simp [Endpoint.awaits, hv] at hj,
          fun j _ => hc.readLock j⟩ }
    -- its peer is fresh, and it is as good as fresh itself
    have hdue : Due D i s s.restarted := hc.due hs hv hp hf
    have hthread : (link.restarted D i s w).thread i = (finishCycle D i).run s := if_pos rfl
    rw [hthread]
    show ((finishCycle D i).run s).Safe ((turnsOutline D False True).rules i)
      (fun s _ h => Turns.AtRest D False True i s h) h
    rw [finishCycle, run_bind, Prog.safe_bind]
    refine (turnsGuard D False True i _).sendByte_safe hD hs hdue.settled.heard hmid
      (fun s' h' emitted hm => ?_) fun e he => ?_
    · exact (turnsGuard D False True i _).handOver_safe hm fun h'' hm' =>
        turnsOutline_handOver hD hdue emitted hm'
    · cases he with
      | readlocked _ _ _ _ _ _ locked =>
        exact absurd ((hc.readLock _).symm.trans locked) (by decide)
  · have hthread : (link.restarted D r s w).thread i = .ret s.restarted () := if_neg hi
    rw [hthread]
    exact
      { valid := hvalid
        peek := rfl
        state := rfl
        session := Endpoint.restarted_atRest
        waiting := fun hb => hi hb.1.symm }

/-! ## A cleared session -/

/-- **When a restarted peer finds a session that is as good as new.** Whatever
an end has received before, if it processes a poweron symbol without an error,
then its session is clear afterwards – and the two ends go on without an error,
whatever is then transferred – exactly if no object was readlocked or in
transfer before. -/
theorem poweron_clears (hD : D.Triples) (obj : Role → ℕ → ℕ → Byte) {σ : (link D).State}
    (hσ : (link D).Reaches (fun _ _ => True) (fun _ _ => True) (link.start D obj) σ)
    (hb : Between (σ.thread r) s) (first : s.firstRun = false) (request : b.getLsbD 7 = true)
    (code : stateCode b = State.poweron.code)
    (he : (receiveByte D r).eval onBoard { s with comIn := b } h = some ((), s', h')) :
    (Cleared s' ∧ ∀ w : World, w.Calm → ∀ σ' : (link D).State,
      (link D).Reaches (fun σ w => LineIntact σ w ∧ NoStop σ w ∧ Apart σ w) (fun _ _ => True)
        (link.restarted D r s' w) σ' → σ'.Up)
    ↔ (∀ j, s.readLock j = false) ∧ ∀ j, s.transfer j = false := by
  have hrest : AtRest D s := anyOutline_atRest (anyOutline_keeps hD hσ) hb
  obtain ⟨rfl, hs'⟩ := eval_receiveByte_poweron hD hrest request code he
  refine ⟨fun ⟨hc, _⟩ => ⟨hc.readLock, hc.transfer⟩, fun ⟨hr, ht⟩ => ?_⟩
  have hc : Cleared (s.hotplugged b) := hs'.cleared hr ht
  refine ⟨hc, fun w hw σ' hσ' => ?_⟩
  obtain ⟨h, hk⟩ := turnsOutline_run hD
    (fun σ w he => ⟨he.1, fun _ => he.2.1, fun _ => he.2.2⟩) (fun hs => hs.elim) hσ'
    (restarted_keeps hD hw hs' hc rfl rfl first)
  exact turnsOutline_up hk

/-- Replays in which the peer is whoever puts bytes on the wire. -/
def deliveries (D : DescriptorHelper) : (link D).Script (Role × Byte) where
  act v w := { w with wire := some v }
  may _ _ := true
  check _ := true

/-- The MCU hears a request for the first object, and the four symbols of it. -/
def receivedOne : List (Pool.Entry Role (Role × Byte)) :=
  [.go .fpga 1000, .go .mcu 1000, .act (.mcu, 0x81), .go .mcu 1000,
    .act (.mcu, 0x15), .go .mcu 1000, .act (.mcu, 0x2A), .go .mcu 1000,
    .act (.mcu, 0x33), .go .mcu 1000, .act (.mcu, 0x0C), .go .mcu 1000]

/-- The boards a peer starts again with, while the reply is to be sent. -/
def World.again : World where
  board _ := .initial fun _ k => BitVec.ofNat 8 (k + 7)
  wire := none

theorem World.again_calm : World.again.Calm where
  wire := rfl
  notified _ := rfl
  disjoint _ _ _ := rfl

/-- The FPGA requests the second object as soon as it has started again. -/
def requestedAgain : List (Pool.Entry Role Event) :=
  .act (.writeRequest .fpga 1) :: .go .mcu 1000
    :: (List.replicate 6 [.go .fpga 1000, .go .mcu 1000]).flatten

/-- An MCU that has received an object goes on with a restarted FPGA: the other
object is then transferred. -/
theorem poweron_clears_received : ∃ σ, (link twoObjects).Reaches (fun _ _ => True)
      (fun _ _ => True) twoObjects.start σ
    ∧ ∃ s s' h', Between (σ.thread .mcu) s ∧ s.firstRun = false
      ∧ s.history.received = [(0, [0x56, 0xAC, 0xCC])]
      ∧ (receiveByte twoObjects .mcu).eval onBoard { s with comIn := 0xBE } (σ.world.board .mcu)
        = some ((), s', h')
      ∧ Cleared s'
      ∧ ∃ σ', (link twoObjects).Reaches (fun σ w => LineIntact σ w ∧ NoStop σ w ∧ Apart σ w)
          (fun _ _ => True) (link.restarted twoObjects .mcu s' .again) σ' ∧ σ'.Up
        ∧ (σ'.thread .mcu).state.history.received
          = [(0, [0x56, 0xAC, 0xCC]), (1, [0x07, 0x08, 0x09])] := by
  obtain ⟨σ, hl⟩ : ∃ σ, (deliveries twoObjects).replay receivedOne twoObjects.start = some σ :=
    Option.isSome_iff_exists.mp (by decide +kernel)
  have hσ : (link twoObjects).Reaches (fun _ _ => True) (fun _ _ => True) twoObjects.start σ :=
    Pool.Script.replay_reaches (fun _ _ _ => trivial) (fun _ _ _ => trivial) .refl hl
  have hthread : ∀ {α : Type} (f : (link twoObjects).State → α) (a : α),
      ((deliveries twoObjects).replay receivedOne twoObjects.start).map f = some a → f σ = a :=
    fun f a hf => by
      rw [hl] at hf
      exact Option.some.inj hf
  have hb := between_spec (hthread (fun σ => between (σ.thread .mcu)) true (by decide +kernel))
  have first := hthread (fun σ => (σ.thread .mcu).state.firstRun) false (by decide +kernel)
  have received := hthread (fun σ => (σ.thread .mcu).state.history.received)
    [(0, [0x56, 0xAC, 0xCC])] (by decide +kernel)
  -- the lock of the first object has been taken and put back
  have hr := hthread (fun σ => (σ.thread .mcu).state.readLock)
    (Function.update (Function.update (fun _ => false) 0 true) 0 false) rfl
  have ht := hthread (fun σ => (σ.thread .mcu).state.transfer) (fun _ => false) rfl
  have hagain := hthread (fun σ =>
    (((receiveByte twoObjects .mcu).eval onBoard
      { (σ.thread .mcu).state with comIn := 0xBE } (σ.world.board .mcu)).bind fun x =>
        (quietScript twoObjects).replay requestedAgain
          (link.restarted twoObjects .mcu x.2.1 .again)).map fun σ' =>
            (σ'.thread .mcu).state.history.received)
    (some [(0, [0x56, 0xAC, 0xCC]), (1, [0x07, 0x08, 0x09])]) (by decide +kernel)
  obtain ⟨σ', hx, received'⟩ := Option.map_eq_some_iff.mp hagain
  obtain ⟨⟨⟨⟩, s', h'⟩, he, hl'⟩ := Option.bind_eq_some_iff.mp hx
  have hσ' : (link twoObjects).Reaches (fun σ w => LineIntact σ w ∧ NoStop σ w ∧ Apart σ w)
      (fun _ _ => True) (link.restarted twoObjects .mcu s' .again) σ' :=
    Pool.Script.replay_reaches quietScript_may (fun _ _ _ => trivial) .refl hl'
  obtain ⟨hc, hup⟩ :=
    (poweron_clears twoObjects_triples _ hσ hb first (by decide) (by decide) he).mpr
      ⟨fun j => by simp [hr], fun j => congrFun ht j⟩
  exact ⟨σ, hσ, _, s', h', hb, first, received, he, hc, σ', hσ',
    hup _ World.again_calm σ' hσ', received'⟩

/-- The MCU after its first two cycles, the second of which hears a request for
the first object. -/
def requested : List (Pool.Entry Role (Role × Byte)) :=
  [.go .fpga 1000, .go .mcu 1000, .act (.mcu, 0x81), .go .mcu 1000]

/-- **A restarted peer may find an object readlocked**: the FPGA starts again
between its request and the first payload symbol. -/
theorem poweron_keeps_readlock : ∃ σ, (link twoObjects).Reaches (fun _ _ => True)
      (fun _ _ => True) twoObjects.start σ
    ∧ ∃ s s' h', Between (σ.thread .mcu) s ∧ s.firstRun = false
      ∧ (receiveByte twoObjects .mcu).eval onBoard { s with comIn := 0xBE } (σ.world.board .mcu)
        = some ((), s', h')
      ∧ s'.readLock 0 = true := by
  obtain ⟨σ, hσ, hp⟩ := Pool.Script.exists_of_replay (fun _ _ => True) (fun _ _ => True)
    (deliveries twoObjects) requested twoObjects.start
    (fun σ => between (σ.thread .mcu) && !(σ.thread .mcu).state.firstRun
      && (((receiveByte twoObjects .mcu).eval onBoard
          { (σ.thread .mcu).state with comIn := 0xBE } (σ.world.board .mcu)).map
        fun x => x.2.1.readLock 0) == some true)
    (fun _ _ _ => trivial) (fun _ _ _ => trivial) (by decide +kernel)
  simp only [Bool.and_eq_true, Bool.not_eq_true', beq_iff_eq] at hp
  obtain ⟨⟨⟨⟩, s', h'⟩, he, hlock⟩ := Option.map_eq_some_iff.mp hp.2
  exact ⟨σ, hσ, _, s', h', between_spec hp.1.1, hp.1.2, he, hlock⟩

end SOS
