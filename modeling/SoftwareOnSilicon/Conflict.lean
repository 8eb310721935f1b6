import Mathlib.Data.Fintype.Prod
import SoftwareOnSilicon.Endpoints
import SoftwareOnSilicon.Part
import SoftwareOnSilicon.Representation
import SoftwareOnSilicon.Requests
import SoftwareOnSilicon.Round

/-!
# Conflicting write requests

Write requests of one object may be accepted at both ends. What the code does about it is in two
places: `emit_readlocked` cancels the request of an end that has to receive the object, and
`getFirstTransfer` finds the request of an object that is being received.

Neither of them ends well. The resolver stops the process where it finds a request that has been
cancelled, and the communication thread does where it finds one whose object is locked
(`conflict_aborts`). So all goes well as long as the communication threads never look at a request
while its object is locked, or is about to be (`conflicts_resolved`): then a request that has been
accepted meanwhile waits until the object has been received.

`pair` is the pool of all four threads. Both the communication threads of the two ends and the two
threads of an end are parts of it.
-/

namespace SOS

open Interleaving Code

variable {D : DescriptorHelper} {r : Role} {i : Worker}

/-! ## The four threads -/

/-- **The pool of the threads of both ends.** -/
def pair (D : DescriptorHelper) :
    Pool (Role × Worker) (fun x => x.2.Private) ErrorCode Op.Answer World where
  exec x := (process D x.1).exec x.2
  loop x := (process D x.1).loop x.2

/-- Both processes have been started. -/
def pair.start (D : DescriptorHelper) (obj : Role → ℕ → ℕ → Byte) : (pair D).State where
  world := World.start obj
  thread x := (process.start D x.1 obj).thread x.2

/-- The communication threads of both ends. -/
def linkOf (σ : (pair D).State) : (link D).State := σ.part fun r => (r, .communication)

/-- The two threads of an end. -/
def endOf (r : Role) (σ : (pair D).State) : (process D r).State := σ.part fun i => (r, i)

/-- The flags of the mailboxes. -/
def Flag.isMail : Flag → Bool
  | readEndUpdated => true
  | readEndAcknowledge => true
  | writeStartUpdated => true
  | writeStartAcknowledge => true
  | _ => false

/-- **The REST layers** have nothing but the mailboxes, and no stop request is made. -/
structure RestActs (σ : (pair D).State) (w : World) : Prop where
  wire : w.wire = σ.world.wire
  obj : ∀ r, (w.board r).obj = (σ.world.board r).obj
  notified : ∀ r, (w.board r).notified = (σ.world.board r).notified
  flag : ∀ r f, f.isMail = false → (w.board r).flag f = (σ.world.board r).flag f

/-! ## The operations of the resolver -/

/-- The accesses that report no fault. -/
def Access.Faultless : Access → Prop
  | .clear (.readFault _) | .clear (.writeFault _) => False
  | _ => True

/-- The accesses that do not concern the link, either. -/
def Access.Harmless : Access → Prop
  | .handshake | .handshakeAck _ | .storeNotified _ => False
  | a => a.Faultless

/-- All that the resolver performs is harmless. -/
theorem only_resolverEventLoop (D : DescriptorHelper) :
    (resolverEventLoop D).Only fun o => o.access.Harmless := fun s =>
  (resolverEventLoop_charted s).only fun p => by cases p <;> trivial

/-! ## Compatible requests -/

/-- **Only write requests that are accepted** are made: of an object the switch board has, and
that has none yet. -/
def Accepted (σ : (pair D).State) : Prop :=
  ∀ r (s : Resolver) k, σ.thread (r, .resolver) = .op s ⟨.writeStart, .loadWriteStartId⟩ k →
    (σ.world.board r).writeStartId < numIds
      ∧ s.pendingWriteRequest (σ.world.board r).writeStartId = false

/-- **Requests that are compatible**: no communication thread finds the request of an object that
it is about to lock, or has locked. -/
structure Compatible (σ : (pair D).State) : Prop where
  accepted : Accepted σ
  uncrossed : ∀ r (s : Endpoint) j k,
    σ.thread (r, .communication) = .op s ⟨.emitReadlocked, .testAndSet (.syncMe j)⟩ k →
    (σ.world.board r).flag (.syncMe j) = true
  undisturbed : ∀ r (s : Endpoint) j k,
    σ.thread (r, .communication) = .op s ⟨.getFirstTransfer, .testAndSet (.syncMe j)⟩ k →
    (σ.world.board r).flag (.syncMe j) = false → s.readLock j = false

/-- **No conflict shows** in what an operation answers, and no shutdown is announced. -/
def Calm : (i : Worker) → i.Private → (o : Op) → o.Answer → Prop
  | .communication, _, ⟨_, .handshake⟩, b =>
    BitVec.getLsbD (w := 8) b 7 = true → stateCode b ≠ State.shutdown.code
  | .communication, _, ⟨.emitReadlocked, .testAndSet (.syncMe _)⟩, a => @Eq Bool a true
  | .communication, s, ⟨.getFirstTransfer, .testAndSet (.syncMe j)⟩, a =>
    @Eq Bool a false → s.readLock j = false
  | .resolver, _, ⟨.resolve, .testAndSet (.readFault _)⟩, a => @Eq Bool a true
  | .resolver, _, ⟨.resolve, .testAndSet (.writeFault _)⟩, a => @Eq Bool a true
  | .resolver, s, ⟨.writeStart, .loadWriteStartId⟩, id =>
    @LT.lt ℕ _ id numIds ∧ s.pendingWriteRequest id = false
  | _, _, _, _ => True

/-- No fault has been reported to a resolver. -/
def Faultless (w : World) : Prop :=
  ∀ r j, (w.board r).flag (.readFault j) = true ∧ (w.board r).flag (.writeFault j) = true

/-- **The outline of the four threads**, where no conflict shows: no fault is
reported, and so no resolver stops. -/
def calmOutline (D : DescriptorHelper) : (pair D).Outline Unit where
  follows _ w := Faultless w
  step x s o a _ _ := Calm x.2 s o a
  node _ _ o _ := o.access.Faultless
  rest
    | (_, .communication), s, _ => AtRest D s
    | (_, .resolver), _, _ => True
  error
    | (_, .communication), _, e, _ =>
      e ≠ .syncedStatusHasNotBeenOverridenWhenReadlockWasAcquired
    | (_, .resolver), _, _, _ => False
  rely _ _ _ _ := True
  refl _ _ _ := trivial
  trans _ _ _ _ _ _ _ := trivial
  node_stable _ _ _ _ _ _ h := h
  rest_stable _ _ _ _ _ h := h

/-! ### What the operations do -/

/-- No operation but a report changes that there is none. -/
theorem Faultless.exec {a : Access} {w w' : World} {x : a.Answer} (hw : Faultless w)
    (ha : a.Faultless) (hx : World.exec r a w = some (x, w')) : Faultless w' := by
  intro r' j
  have hread : a ≠ .clear (.readFault j) := fun hf => by
    subst hf
    exact ha
  have hwrite : a ≠ .clear (.writeFault j) := fun hf => by
    subst hf
    exact ha
  by_cases hr : r' = r
  · subst hr
    obtain hown | ⟨-, hboard⟩ := World.exec_own hx
    · exact ⟨Board.exec_set hown hread (hw r' j).1, Board.exec_set hown hwrite (hw r' j).2⟩
    · rw [hboard]
      exact hw r' j
  · rw [World.exec_other hx hr]
    exact hw r' j

/-- **What an operation answers** where the requests are compatible. -/
theorem Compatible.calm {σ : (pair D).State} {s : i.Private} {o : Op}
    {k : o.Answer → Prog i.Private ErrorCode Op.Answer Unit} {a : o.Answer} {w : World}
    (hc : Compatible σ) (hf : Faultless σ.world)
    (hcode : ∀ b, σ.world.wire = some (r, b) → b.getLsbD 7 = true →
      stateCode b ≠ State.shutdown.code)
    (node : σ.thread (r, i) = .op s o k) (exec : World.exec r o.access σ.world = some (a, w)) :
    Calm i s o a := by
  unfold Calm
  split
  case h_1 b => exact hcode b (World.exec_handshake exec).1
  case h_2 j a =>
    have ha : (σ.world.board r).flag (.syncMe j) = a := (Prod.mk.inj (Option.some.inj exec)).1
    exact ha.symm.trans (hc.uncrossed r _ j _ node)
  case h_3 j a =>
    have ha : (σ.world.board r).flag (.syncMe j) = a := (Prod.mk.inj (Option.some.inj exec)).1
    exact fun hfree => hc.undisturbed r _ j _ node (ha.trans hfree)
  case h_4 j a =>
    have ha : (σ.world.board r).flag (.readFault j) = a := (Prod.mk.inj (Option.some.inj exec)).1
    exact ha.symm.trans (hf r j).1
  case h_5 j a =>
    have ha : (σ.world.board r).flag (.writeFault j) = a := (Prod.mk.inj (Option.some.inj exec)).1
    exact ha.symm.trans (hf r j).2
  case h_6 id =>
    have hid : (σ.world.board r).writeStartId = id := (Prod.mk.inj (Option.some.inj exec)).1
    have haccept := hc.accepted r _ _ node
    rwa [hid] at haccept
  case h_7 => trivial

/-! ### The threads -/

/-- A guard of a communication thread. -/
theorem calmGuard (D : DescriptorHelper) (r : Role) :
    Guard D False (fun _ => True) (Calm .communication)
      (· ≠ .syncedStatusHasNotBeenOverridenWhenReadlockWasAcquired)
      ((calmOutline D).rules (r, .communication)) (fun _ _ => True) where
  error _ _ _ he _ := he
  frame _ _ _ _ _ := trivial
  quiet s o h ho _ := ⟨by cases ho <;> trivial, fun _ _ _ => trivial⟩
  interrupted hf := hf.elim
  checkSync site j s h _ _ := by
    refine safe_checkSync trivial (fun _ _ => ⟨rfl, trivial, by simp⟩) ?_
    rintro h' ⟨_, -, hcalm⟩
    refine ⟨trivial, fun _ _ _ => ⟨rfl, trivial, fun _ => ?_⟩⟩
    exact ⟨hcalm, fun _ _ _ => trivial⟩
  notified s h _ := ⟨trivial, fun _ _ _ => ⟨trivial, fun _ => trivial⟩⟩
  readlock s h _ _ _ _ _ _ _ := by
    refine safe_emitReadlocked trivial (fun _ _ => safe_assignStarted trivial
      fun _ _ _ => ⟨trivial, fun _ _ _ => ⟨rfl, trivial⟩⟩) ?_
    -- a request that is found would be canceled
    rintro h' ⟨_, -, hcalm⟩
    exact Bool.noConfusion (show false = true from hcalm)
  accept s h _ _ _ := safe_emitTransfer trivial fun _ _ _ => ⟨rfl, trivial⟩
  sending _ _ _ _ _ _ := trivial
  load s h _ _ := ⟨trivial, fun _ _ _ => trivial⟩
  sent s h _ _ _ _ := safe_emitSent trivial fun _ _ _ => ⟨rfl, trivial⟩
  receiving _ _ _ _ _ _ := trivial
  store s b h _ _ := ⟨trivial, fun _ _ _ => trivial⟩
  received s h _ _ _ _ _ :=
    safe_emitReceived (safe_assignStarted trivial fun _ _ _ => ⟨trivial, fun _ _ _ =>
      ⟨trivial, fun _ _ _ => ⟨rfl, trivial⟩⟩⟩)

/-- No error of a cycle but the one is about a request that is found locked. -/
theorem CycleFault.calm {s : Endpoint} {e : ErrorCode}
    (h : CycleFault (Calm .communication) D s e) :
    e ≠ .syncedStatusHasNotBeenOverridenWhenReadlockWasAcquired := by
  cases h with
  | receive _ fault =>
    cases fault with
    | hook _ h => cases h <;> decide
    | object _ h => cases h; decide
    | approve _ h => cases h <;> decide
    | acknowledge _ _ h => cases h <;> decide
  | emit _ fault =>
    cases fault with
    | readlocked _ _ _ _ told _ locked => exact absurd ((told rfl).symm.trans locked) (by decide)

/-- **A communication thread** finds no request of an object that it has locked. -/
theorem calm_comm_safe (hD : D.Triples) {s : Endpoint} (hs : AtRest D s) :
    (calmOutline D).Safe (r, .communication) ((eventLoop D r).run s) () := by
  refine eventLoop_safe hD hs (fun _ => hs) (fun _ => trivial) ?_
  rintro _ b h' ⟨_, -, hcode⟩
  exact ⟨_, _, _, _, _, calmGuard D r, trivial, fun _ request hf => hcode request hf,
    fun _ _ _ _ => trivial, fun _ he => he.calm, fun s' _ hc _ =>
    ⟨trivial, fun _ _ _ => (hs.take b).cycled hD hc⟩⟩

/-- **A resolver** finds no fault, and no request that it has to turn down. -/
theorem calm_round : (round D).Keeps ((calmOutline D).rules (r, .resolver)) fun _ _ _ => True where
  node p s h _ _ := by cases p <;> trivial
  step p s a h h' _ _ := by
    rintro ⟨_, -, hcalm⟩
    cases p with
    | readFault | writeFault =>
      obtain rfl : a = true := hcalm
      trivial
    | loadWriteStartId =>
      exact holds_loadWriteStartId D (fun _ _ => trivial) fun hf => absurd hcalm hf
    | triggerResolve | readAck | writeAck | writeStartUpdated => cases a <;> trivial
    | _ => trivial

/-! ## The runs of the parts -/

section Runs

variable {ok : (pair D).State → (pair D).State → Prop} {obj : Role → ℕ → ℕ → Byte}
  {σ : (pair D).State}

/-- The resolvers perform harmless operations only. -/
theorem resolver_only (hσ : (pair D).Reaches RestActs ok (pair.start D obj) σ) :
    (σ.thread (r, .resolver)).Only fun o => o.access.Harmless := by
  have honly := hσ.only (K := fun x o => x.2 = .resolver → o.access.Harmless)
    (fun x s => ?_) (fun x => ?_) (r, .resolver)
  · exact honly.imp fun _ ho => ho rfl
  · obtain ⟨r, i⟩ := x
    cases i with
    | communication => exact Prog.only_of_forall (fun _ hf => by cases hf) _
    | resolver => exact (only_resolverEventLoop D s).imp fun _ ho _ => ho
  · obtain ⟨r, i⟩ := x
    cases i <;> trivial

/-- What is harmless is not noticed by the link. -/
theorem World.exec_harmless {a : Access} {w w' : World} {x : a.Answer}
    (ho : a.Harmless) (hx : World.exec r a w = some (x, w')) :
    w'.wire = w.wire ∧ ∀ r', (w'.board r').notified = (w.board r').notified := by
  have htake : a ≠ .handshake := fun hf => by
    subst hf
    exact ho
  have hgive : ∀ b, a ≠ .handshakeAck b := fun b hf => by
    subst hf
    exact ho
  have htold : ∀ b, a ≠ .storeNotified b := fun b hf => by
    subst hf
    exact ho
  obtain ⟨h, hboard, rfl⟩ := World.exec_board htake hgive hx
  refine ⟨rfl, fun r' => ?_⟩
  by_cases hr : r' = r
  · subst hr
    rw [World.setBoard_self]
    exact Board.exec_notified hboard htold
  · rw [World.setBoard_of_ne w hr]

/-- **The communication threads of both ends** run as the link does. -/
theorem linkOf_reaches (hσ : (pair D).Reaches RestActs ok (pair.start D obj) σ) :
    (link D).Reaches (fun σ w => LineIntact σ w ∧ NoStop σ w) (fun _ _ => True)
      (link.start D obj) (linkOf σ) := by
  refine Pool.Reaches.part (f := fun r : Role => (r, Worker.communication))
    (fun _ _ hr => congrArg Prod.fst hr) (fun σ w he => ?_)
    (fun σ hσ x s o k a w hx node exec => ?_) hσ
  · exact ⟨he.wire, fun r hr => (he.notified r).symm.trans hr⟩
  · obtain ⟨r, i⟩ := x
    cases i with
    | communication => exact absurd rfl (hx r)
    | resolver =>
      have honly := resolver_only (r := r) hσ
      rw [node] at honly
      obtain ⟨hwire, hnotified⟩ := World.exec_harmless honly.1 exec
      exact ⟨hwire, fun r' hr => (hnotified r').symm.trans hr⟩

/-- **The two threads of an end** run as an end does. -/
theorem endOf_reaches (r : Role) (hσ : (pair D).Reaches RestActs ok (pair.start D obj) σ) :
    (process D r).Reaches Undisturbed (fun _ _ => True) (process.start D r obj) (endOf r σ) := by
  refine Pool.Reaches.part (f := fun i : Worker => (r, i))
    (fun _ _ hi => congrArg Prod.snd hi) (fun σ w he => ?_)
    (fun σ _ x s o k a w hx _ exec => ?_) hσ
  · refine ⟨he.obj r, fun f hf => he.flag r f ?_⟩
    cases f <;> first | rfl | cases hf
  · obtain ⟨r', i⟩ := x
    have hr : r ≠ r' := fun hf => hx i (by rw [hf])
    have hboard : w.board r = σ.world.board r := World.exec_other exec hr
    exact ⟨congrArg Board.obj hboard, fun f _ => congrArg (fun b => Board.flag b f) hboard⟩

/-- What the outline of the two ends says of these runs. -/
theorem linkOf_keeps (hD : D.Triples) (hσ : (pair D).Reaches RestActs ok (pair.start D obj) σ) :
    ∃ h, (turnsOutline D False False).Keeps (linkOf σ) h :=
  turnsOutline_keeps False False hD (fun _ _ he => ⟨he.1, fun _ => he.2, False.elim⟩)
    (fun hs => hs.elim) (linkOf_reaches hσ)

/-- The byte under way announces no shutdown. -/
def Unannounced (σ : (pair D).State) : Prop :=
  ∀ r b, σ.world.wire = some (r, b) → b.getLsbD 7 = true → stateCode b ≠ State.shutdown.code

/-- **No shutdown is announced** where no stop request is made. -/
theorem unannounced (hD : D.Triples) (hσ : (pair D).Reaches RestActs ok (pair.start D obj) σ) :
    Unannounced σ := by
  intro r b hw
  obtain ⟨h, hk⟩ := linkOf_keeps hD hσ
  have hf : h.Follows False False σ.world := hk.1
  obtain ⟨b', hbyte, heq⟩ := Option.map_eq_some_iff.mp (hf.wire.symm.trans hw)
  obtain ⟨rfl, rfl⟩ := Prod.mk.inj heq
  have hidle : ¬ h.Busy h.turn := fun hb => absurd (hbyte.symm.trans hb.2) (by simp)
  exact (turnsOutline_state hk hidle).2.code not_false b' hbyte

/-- **Every run of compatible requests is calm.** -/
theorem calmOutline_keeps (hD : D.Triples)
    (hσ : (pair D).Reaches RestActs (fun σ _ => Compatible σ) (pair.start D obj) σ) :
    (calmOutline D).Keeps σ () := by
  have hkeeps : ∃ h, (calmOutline D).Keeps σ h := by
    have hrun := hσ.strengthen fun _ hσ' => unannounced hD hσ'
    refine Pool.Outline.sound ?_ ?_ ?_ hrun ⟨(), ?_, ?_⟩
    · rintro σ ⟨⟩ ⟨r, i⟩ s o k a w hk node exec ⟨hc, hquiet⟩
      exact ⟨(), Faultless.exec hk.1 (hk.node node) exec,
        hc.calm hk.1 (hquiet r) node exec, fun _ _ => trivial⟩
    · rintro σ ⟨⟩ w hk henv -
      refine ⟨(), fun r j => ?_, fun _ => trivial⟩
      obtain ⟨hread, hwrite⟩ := hk.1 r j
      exact ⟨(henv.flag r _ rfl).trans hread, (henv.flag r _ rfl).trans hwrite⟩
    · rintro ⟨r, i⟩ s ⟨⟩ hrest
      cases i with
      | communication => exact calm_comm_safe hD hrest
      | resolver => exact calm_round.safe (resolverEventLoop_charted s) trivial
    · exact fun _ _ => ⟨rfl, rfl⟩
    · rintro ⟨r, i⟩
      cases i with
      | communication => exact (AtRest.initial : AtRest D {})
      | resolver => trivial
  obtain ⟨⟨⟩, hk⟩ := hkeeps
  exact hk

end Runs

/-! ## Conflicts and their outcome -/

/-- The object is in transfer at an end. -/
def InTransfer (σ : (pair D).State) (r : Role) (j : ℕ) : Prop := Transfers (endOf r σ) j

/-- The object is locked at an end. -/
def Locked (σ : (pair D).State) (r : Role) (j : ℕ) : Prop :=
  (σ.thread (r, .communication)).state.readLock j = true

/-- **Conflicts are resolved.** -/
structure Resolved (σ : (pair D).State) : Prop where
  /-- No communication loop and no resolver has reached an error call. -/
  up : σ.Up
  /-- While a byte is under way, an object is in transfer at one end only, and the other one has
  locked it. -/
  one : ∀ x, σ.world.wire = some x → ∀ r j, InTransfer σ r j →
    Locked σ r.peer j ∧ ¬ InTransfer σ r.peer j
  /-- A request that has been accepted waits, or its object is in transfer, or its outcome has
  been signalled. -/
  kept : ∀ r j, ¬ PassingOn (endOf r σ) j → Pending (endOf r σ) j →
    (σ.world.board r).flag (.syncMe j) = false ∨ InTransfer σ r j
      ∨ (σ.world.board r).flag (.writeAck j) = false
  /-- It waits as long as the object is locked. -/
  deferred : ∀ r s, Between (σ.thread (r, .communication)) s → ∀ j, s.readLock j = true →
    s.transfer j = false ∧ s.awaits j = false

section Resolution

variable {ok : (pair D).State → (pair D).State → Prop} {obj : Role → ℕ → ℕ → Byte}
  {σ : (pair D).State}

/-- What an end transfers, the other one has locked and does not transfer. -/
theorem Accounted.one {A B : Endpoint} {j : ℕ} (h : Accounted D A B) (hA : AtRest D A)
    (hB : AtRest D B) : (A.transfer j = true → B.readLock j = true ∧ ¬ B.transfer j = true)
      ∧ (B.transfer j = true → A.readLock j = true ∧ ¬ A.transfer j = true) := by
  have hback : B.transfer j = true → A.readLock j = true := fun hj =>
    (h.acknowledged j).mpr (.inl hj)
  have hforth : A.transfer j = true → B.readLock j = true := by
    intro hj
    obtain ⟨hlock, -⟩ | ⟨k, bytes, -, -, -, hlock, -⟩ := h.locked
    · rw [hlock, hj]
    · rw [hlock, Function.update_apply]
      split
      · rfl
      · exact hj
  refine ⟨fun hj => ⟨hforth hj, fun hf => ?_⟩, fun hj => ⟨hback hj, fun hf => ?_⟩⟩
  · exact absurd ((hB.exclusive j hf).symm.trans (hforth hj)) (by decide)
  · exact absurd ((hA.exclusive j hf).symm.trans (hback hj)) (by decide)

/-- While an object is locked, it is neither in transfer nor asked for. -/
theorem Session.waits {s : Endpoint} {j : ℕ} (h : Session D s) (hj : s.readLock j = true) :
    s.transfer j = false ∧ s.awaits j = false := by
  constructor
  · by_contra hf
    exact absurd ((h.exclusive j (by simpa using hf)).symm.trans hj) (by decide)
  · by_contra hf
    obtain ⟨hrequested, rfl⟩ :
        s.vars.acknowledgeRequested = true ∧ j = s.waitingConfirmation := by
      simpa [Endpoint.awaits] using hf
    exact absurd ((h.requested hrequested).2.2.1.symm.trans hj) (by decide)

/-- Between two cycles a communication thread is at rest. -/
theorem atRest_of_pair (hD : D.Triples) {s : Endpoint}
    (hσ : (pair D).Reaches RestActs ok (pair.start D obj) σ)
    (hs : Between (σ.thread (r, .communication)) s) : AtRest D s :=
  anyOutline_atRest (anyOutline_keeps hD (linkOf_reaches hσ)) hs

/-- **One end transfers**, and the other one has locked the object. -/
theorem transfers_one (hD : D.Triples) (hσ : (pair D).Reaches RestActs ok (pair.start D obj) σ)
    {x : Role × Byte} (hw : σ.world.wire = some x) {j : ℕ} (hj : InTransfer σ r j) :
    Locked σ r.peer j ∧ ¬ InTransfer σ r.peer j := by
  obtain ⟨r', b⟩ := x
  obtain ⟨h, hk⟩ := linkOf_keeps hD hσ
  obtain ⟨A, B, hA, hB, -, hfly, -⟩ := turnsOutline_flying hk hw
  have hone := hfly.accounted.one (j := j) (atRest_of_pair hD hσ hA) (atRest_of_pair hD hσ hB)
  rw [← hA.state, ← hB.state] at hone
  obtain rfl | rfl : r = r' ∨ r = r'.peer := by cases r <;> cases r' <;> simp [Role.peer]
  · exact hone.2 hj
  · rw [Role.peer_peer]
    exact hone.1 hj

/-- **Conflicts are resolved** as long as the requests are compatible: no thread reaches an error
call, one end transfers an object, and a request of the other one waits until it has received
it. -/
theorem conflicts_resolved (hD : D.Triples) (obj : Role → ℕ → ℕ → Byte) {σ : (pair D).State}
    (hσ : (pair D).Reaches RestActs (fun σ _ => Compatible σ) (pair.start D obj) σ) :
    Resolved σ := by
  have hup : σ.Up := by
    rintro ⟨r, i⟩ s e hf
    have herror := (calmOutline_keeps hD hσ).error hf
    cases i with
    | resolver => exact herror
    | communication =>
      obtain ⟨h, hk⟩ := linkOf_keeps hD hσ
      exact herror (hk.error (i := r) hf).1
  refine
    { up := hup
      one := fun x hw r j hj => transfers_one hD hσ hw hj
      kept := fun r j hn hp => ?_
      deferred := fun r s hs j hj => ?_ }
  · obtain ⟨h, hk⟩ := custodyOutline_keeps False hD (fun hf => hf.elim) (endOf_reaches r hσ)
    exact hp.held hk (fun i => hup (r, i)) hn
  · exact (atRest_of_pair hD hσ hs).waits hj

end Resolution

/-! ## Schedules -/

/-- A write start of an end: the object, and the byte that all of its bytes are. -/
abbrev Request : Type := Role × ℕ × Byte

/-- The REST layer puts it into the mailbox. -/
def Request.act (v : Request) : World → World := Command.act v.1 (.writeStart v.2.1 v.2.2)

/-- The mailbox is all that it is put into. -/
theorem Request.restActs (v : Request) (σ : (pair D).State) : RestActs σ (v.act σ.world) := by
  obtain ⟨r, j, b⟩ := v
  have hboard : ∀ r', ((Request.act (r, j, b) σ.world).board r').obj = (σ.world.board r').obj
      ∧ ((Request.act (r, j, b) σ.world).board r').notified = (σ.world.board r').notified
      ∧ ∀ f, f.isMail = false →
        ((Request.act (r, j, b) σ.world).board r').flag f = (σ.world.board r').flag f := by
    intro r'
    by_cases hr : r' = r
    · subst hr
      simp only [act, Command.act, World.setBoard_self]
      refine ⟨rfl, rfl, fun f hf => Board.setFlag_of_ne _ _ ?_⟩
      rintro rfl
      cases hf
    · have hother : (Request.act (r, j, b) σ.world).board r' = σ.world.board r' :=
        World.setBoard_of_ne _ hr _
      rw [hother]
      exact ⟨rfl, rfl, fun _ _ => rfl⟩
  exact ⟨rfl, fun r => (hboard r).1, fun r => (hboard r).2.1, fun r => (hboard r).2.2⟩

/-- Whether the write start that the resolver is about to read is accepted. -/
def accepts (h : Board) (p : Prog Resolver ErrorCode Op.Answer Unit) : Bool :=
  match p with
  | .op s ⟨.writeStart, .loadWriteStartId⟩ _ =>
    h.writeStartId < numIds && !s.pendingWriteRequest h.writeStartId
  | _ => true

/-- Whether the communication thread is not about to find a request that is in conflict. -/
def compatible (h : Board) (p : Prog Endpoint ErrorCode Op.Answer Unit) : Bool :=
  match p with
  | .op _ ⟨.emitReadlocked, .testAndSet (.syncMe j)⟩ _ => h.flag (.syncMe j)
  | .op s ⟨.getFirstTransfer, .testAndSet (.syncMe j)⟩ _ => h.flag (.syncMe j) || !s.readLock j
  | _ => true

/-- Whether only write requests that are accepted are made, as a test. -/
def acceptedTest (σ : (pair D).State) : Bool :=
  decide (∀ r, accepts (σ.world.board r) (σ.thread (r, .resolver)) = true)

/-- Whether the requests are compatible, as a test. -/
def compatibleTest (σ : (pair D).State) : Bool :=
  acceptedTest σ
    && decide (∀ r, compatible (σ.world.board r) (σ.thread (r, .communication)) = true)

theorem acceptedTest_spec {σ : (pair D).State} (h : acceptedTest σ = true) : Accepted σ := by
  intro r s k hs
  have hr := of_decide_eq_true h r
  rw [hs] at hr
  simpa [accepts] using hr

theorem compatibleTest_spec {σ : (pair D).State} (h : compatibleTest σ = true) :
    Compatible σ := by
  rw [compatibleTest, Bool.and_eq_true] at h
  refine ⟨acceptedTest_spec h.1, fun r s j k hs => ?_, fun r s j k hs hf => ?_⟩
  · have hr := of_decide_eq_true h.2 r
    rw [hs] at hr
    exact hr
  · have hr := of_decide_eq_true h.2 r
    rw [hs] at hr
    simpa [compatible, hf] using hr

/-- **Replays of the four threads**, on a condition on the states a step is taken in. -/
def pair.script (D : DescriptorHelper) (check : (pair D).State → Bool) :
    (pair D).Script Request where
  act := Request.act
  may v σ := Command.may v.1 (.writeStart v.2.1 v.2.2) σ.world
  check := check

/-- The two ends of the two objects, their bytes all zero. -/
def twoObjects.pair : (pair twoObjects).State := pair.start twoObjects fun _ _ _ => 0

/-- A write request is accepted at an end. -/
def accepting (r : Role) (j : ℕ) : List (Pool.Entry (Role × Worker) Request) :=
  [.act (r, j, 7), .go (r, .resolver) 30]

/-- Each end runs so many cycles. -/
def cycles (n : ℕ) : List (Pool.Entry (Role × Worker) Request) :=
  (List.replicate n [.go (.fpga, .communication) 100, .go (.mcu, .communication) 100]).flatten

/-- A thread has stopped at an error. -/
def stoppedAt {S : Type} (e : ErrorCode) (p : Prog S ErrorCode Op.Answer Unit) : Bool :=
  match p with
  | .fail _ e' => e' = e
  | _ => false

theorem stoppedAt_spec {S : Type} {e : ErrorCode} {p : Prog S ErrorCode Op.Answer Unit}
    (h : stoppedAt e p = true) : p = .fail p.state e := by
  cases p with
  | ret s a => cases h
  | op s o k => cases h
  | fail s e' =>
    obtain rfl : e' = e := of_decide_eq_true h
    rfl

/-- **A conflict stops the process.** Where requests of object 0 have been accepted at both ends,
the one at the MCU is cancelled, and its resolver stops instead of releasing it. And where one is
accepted at the MCU while it receives the object, its communication thread stops. -/
theorem conflict_aborts :
    (∃ σ, (pair twoObjects).Reaches RestActs (fun σ _ => Accepted σ) twoObjects.pair σ
      ∧ ¬ Resolved σ ∧ ∃ s : Resolver,
        σ.thread (.mcu, .resolver) = .fail s .objectWriteCanceledByIncomingRead
        ∧ s.pendingWriteRequest 0 = true)
    ∧ ∃ σ, (pair twoObjects).Reaches RestActs (fun σ _ => Accepted σ) twoObjects.pair σ
      ∧ ¬ Resolved σ ∧ ∃ s : Endpoint, σ.thread (.mcu, .communication)
          = .fail s .syncedStatusHasNotBeenOverridenWhenReadlockWasAcquired
        ∧ s.readLock 0 = true := by
  constructor
  · obtain ⟨σ, hσ, hp⟩ := Pool.Script.exists_of_replay RestActs (fun σ _ => Accepted σ)
      (pair.script twoObjects acceptedTest)
      (accepting .fpga 0 ++ accepting .mcu 0 ++ cycles 2 ++ [.go (.mcu, .resolver) 30])
      twoObjects.pair
      (fun σ => stoppedAt .objectWriteCanceledByIncomingRead (σ.thread (.mcu, .resolver))
        && (σ.thread (.mcu, .resolver)).state.pendingWriteRequest 0)
      (fun v σ _ => v.restActs σ) (fun _ _ => acceptedTest_spec) (by decide +kernel)
    rw [Bool.and_eq_true] at hp
    have hfail := stoppedAt_spec hp.1
    exact ⟨σ, hσ, fun h => h.up _ _ _ hfail, _, hfail, hp.2⟩
  · obtain ⟨σ, hσ, hp⟩ := Pool.Script.exists_of_replay RestActs (fun σ _ => Accepted σ)
      (pair.script twoObjects acceptedTest)
      (accepting .fpga 0 ++ cycles 3 ++ accepting .mcu 0 ++ cycles 1) twoObjects.pair
      (fun σ => stoppedAt .syncedStatusHasNotBeenOverridenWhenReadlockWasAcquired
          (σ.thread (.mcu, .communication))
        && (σ.thread (.mcu, .communication)).state.readLock 0)
      (fun v σ _ => v.restActs σ) (fun _ _ => acceptedTest_spec) (by decide +kernel)
    rw [Bool.and_eq_true] at hp
    have hfail := stoppedAt_spec hp.1
    exact ⟨σ, hσ, fun h => h.up _ _ _ hfail, _, hfail, hp.2⟩

/-- A table of two objects, the second one of two groups. -/
def shortAndLong : DescriptorHelper := .ofSizes [3, 6] (by decide)

theorem shortAndLong_triples : shortAndLong.Triples := by
  have key : ∀ j : Fin 2, 0 < shortAndLong.objSize j ∧ 3 ∣ shortAndLong.objSize j := by decide
  exact fun j hj => key ⟨j, hj⟩

/-- The two ends of these objects, their bytes all zero. -/
def shortAndLong.pair : (pair shortAndLong).State := pair.start shortAndLong fun _ _ _ => 0

/-- A request of object 0 is accepted at the MCU while it receives the object, and sends the other
one. It waits until both are through, and is then transferred. -/
theorem conflicts_resolved_deferred :
    (∃ σ, (pair shortAndLong).Reaches RestActs (fun σ _ => Compatible σ) shortAndLong.pair σ
      ∧ Pending (endOf .mcu σ) 0 ∧ Locked σ .mcu 0 ∧ InTransfer σ .fpga 0 ∧ Resolved σ)
    ∧ ∃ σ, (pair shortAndLong).Reaches RestActs (fun σ _ => Compatible σ) shortAndLong.pair σ
      ∧ InTransfer σ .mcu 0 ∧ Resolved σ := by
  constructor
  · obtain ⟨σ, hσ, hp⟩ := Pool.Script.exists_of_replay RestActs (fun σ _ => Compatible σ)
      (pair.script shortAndLong compatibleTest)
      (accepting .fpga 0 ++ accepting .mcu 1 ++ cycles 4 ++ accepting .mcu 0) shortAndLong.pair
      (fun σ => (σ.thread (.mcu, .resolver)).state.pendingWriteRequest 0
        && (σ.thread (.mcu, .communication)).state.readLock 0
        && (σ.thread (.fpga, .communication)).state.transfer 0)
      (fun v σ _ => v.restActs σ) (fun _ _ => compatibleTest_spec) (by decide +kernel)
    simp only [Bool.and_eq_true] at hp
    exact ⟨σ, hσ, hp.1.1, hp.1.2, hp.2, conflicts_resolved shortAndLong_triples _ hσ⟩
  · obtain ⟨σ, hσ, hp⟩ := Pool.Script.exists_of_replay RestActs (fun σ _ => Compatible σ)
      (pair.script shortAndLong compatibleTest)
      (accepting .fpga 0 ++ accepting .mcu 1 ++ cycles 4 ++ accepting .mcu 0 ++ cycles 9)
      shortAndLong.pair (fun σ => (σ.thread (.mcu, .communication)).state.transfer 0)
      (fun v σ _ => v.restActs σ) (fun _ _ => compatibleTest_spec) (by decide +kernel)
    exact ⟨σ, hσ, hp, conflicts_resolved shortAndLong_triples _ hσ⟩

end SOS
