import Mathlib.Data.List.DropRight
import SoftwareOnSilicon.Representation
import SoftwareOnSilicon.Trace

/-!
# The order of the control symbols

What an end emits depends on the peer, on the write requests and on the moment
of the stop request. The order of its control symbols does not: against any peer
and any change of its board, every symbol it hands over is one that may follow
what it has heard and emitted before (`control_order`).

A session is what has happened since the last poweron symbol was processed. The
flags of `com_vars` say what has been heard and emitted in it, and that is the
whole argument (`Trail`).
-/

namespace SOS

open Interleaving Code

variable {D : DescriptorHelper} {r : Role} {s s' t : Endpoint} {b : Byte}

/-! ## What is observed -/

/-- **A turn of an end**: it takes a byte, in the private state before the cycle,
or hands one over, in the private state after it. -/
inductive Turn where
  | took (s : Endpoint) (b : Byte)
  | gave (s : Endpoint) (b : Byte)

namespace Turn

/-- The byte is processed as the symbol of a state. -/
def hears (st : State) : Turn → Bool
  | took s b => !s.firstRun && b.getLsbD 7 && stateCode b == st.code
  | gave _ _ => false

/-- The byte is the control symbol of a state. -/
def sends (st : State) : Turn → Bool
  | took _ _ => false
  | gave s b => !s.history.payload && stateCode b == st.code

/-- The byte is the control symbol of a transfer request. -/
def Requests : Turn → Prop
  | took _ _ => False
  | gave s b => s.history.payload = false ∧ ∃ j < numIds, stateCode b = transferCode j

/-- The private state in which a byte has been handed over. -/
def handedOver : Turn → Option Endpoint
  | took _ _ => none
  | gave s _ => some s

end Turn

/-- **The turns of the session**: those since the last processed poweron symbol. -/
def session (l : List Turn) : List Turn := l.rtakeWhile fun t => !t.hears .poweron

/-- The last symbol handed over belongs to an object that is not completed. -/
def Midway (l : List Turn) : Prop :=
  ∃ s, (l.filterMap Turn.handedOver).getLast? = some s ∧ s.history.payload = true
    ∧ s.history.fetched ≠ []

/-- **The symbol may follow the turns so far**, in the private state in which it is
handed over. -/
structure MayFollow (D : DescriptorHelper) (r : Role) (l : List Turn) (s : Endpoint)
    (b : Byte) : Prop where
  shutdown_once : (Turn.gave s b).sends .shutdown = true →
    ∀ t ∈ session l, t.sends .shutdown = false
  sighup_once : (Turn.gave s b).sends .sighup = true → ∀ t ∈ session l, t.sends .sighup = false
  no_request : (Turn.gave s b).Requests → ∀ t ∈ session l, t.sends .shutdown = false
  fpga_sighup : r = .fpga → (Turn.gave s b).sends .sighup = true →
    (∃ t ∈ session l, t.sends .shutdown = true) ∧ ∃ t ∈ session l, t.hears .shutdown = true
  mcu_sighup : r = .mcu → (Turn.gave s b).sends .sighup = true →
    ∃ t ∈ session l, t.hears .sighup = true
  free : (Turn.gave s b).sends .sighup = true → ∀ j < D.count,
    s.readLock j = false ∧ s.transfer j = false
  whole : s.history.payload = false → ¬ Midway l
  fpga_silent : r = .fpga → ∀ t ∈ l, t.sends .sighup = false

/-! ## What the flags say of the session -/

/-- **What the members of an end say of its turns.** -/
structure Trail (l : List Turn) (s : Endpoint) : Prop where
  sentShutdown : s.vars.sentComShutdown = true ↔ ∃ t ∈ session l, t.sends .shutdown = true
  sentSighup : s.vars.sentSighup = true ↔ ∃ t ∈ session l, t.sends .sighup = true
  heardShutdown : s.vars.receivedComShutdown = true → ∃ t ∈ session l, t.hears .shutdown = true
  heardSighup : s.vars.receivedSighup = true → ∃ t ∈ session l, t.hears .sighup = true
  midway : Midway l → s.sendLock = true
  fresh : s.firstRun = true → s.sendLock = false

theorem session_nil : session [] = [] := List.rtakeWhile_nil _

/-- A processed poweron symbol ends the session. -/
theorem session_poweron {l : List Turn} {t : Turn} (ht : t.hears .poweron = true) :
    session (l ++ [t]) = [] :=
  List.rtakeWhile_concat_neg _ _ _ (by simp [ht])

/-- Every other turn is one of the session. -/
theorem session_concat {l : List Turn} {t : Turn} (ht : t.hears .poweron = false) :
    session (l ++ [t]) = session l ++ [t] :=
  List.rtakeWhile_concat_pos _ _ _ (by simp [ht])

theorem midway_took {l : List Turn} : Midway (l ++ [.took s b]) ↔ Midway l := by
  unfold Midway
  rw [List.filterMap_append]
  show (∃ s, (_ ++ []).getLast? = some s ∧ _) ↔ _
  rw [List.append_nil]

theorem midway_gave {l : List Turn} :
    Midway (l ++ [.gave s b]) ↔ s.history.payload = true ∧ s.history.fetched ≠ [] := by
  unfold Midway
  rw [List.filterMap_append]
  show (∃ s', (_ ++ [s]).getLast? = some s' ∧ _) ↔ _
  rw [List.getLast?_concat]
  constructor
  · rintro ⟨s', hs, h⟩
    obtain rfl := Option.some.inj hs
    exact h
  · exact fun h => ⟨s, rfl, h⟩

namespace Trail

variable {l : List Turn}

theorem initial : Trail [] {} where
  sentShutdown := by simp [session_nil]
  sentSighup := by simp [session_nil]
  heardShutdown hf := by cases hf
  heardSighup hf := by cases hf
  midway := by
    rintro ⟨s, hs, -⟩
    cases hs
  fresh _ := rfl

/-- Only some of the members matter. -/
theorem frame (h : Trail l s) (hv : s'.vars.sentComShutdown = s.vars.sentComShutdown
      ∧ s'.vars.sentSighup = s.vars.sentSighup
      ∧ (s'.vars.receivedComShutdown = true → s.vars.receivedComShutdown = true)
      ∧ (s'.vars.receivedSighup = true → s.vars.receivedSighup = true))
    (hl : s'.sendLock = s.sendLock) (hf : s'.firstRun = s.firstRun) : Trail l s' where
  sentShutdown := hv.1 ▸ h.sentShutdown
  sentSighup := hv.2.1 ▸ h.sentSighup
  heardShutdown hr := h.heardShutdown (hv.2.2.1 hr)
  heardSighup hr := h.heardSighup (hv.2.2.2 hr)
  midway hm := hl.trans (h.midway hm)
  fresh hr := hl.trans (h.fresh (hf.symm.trans hr))

/-- A byte is taken that is not processed as a poweron symbol. -/
theorem took (h : Trail l s) (ht : (Turn.took s' b).hears .poweron = false) :
    Trail (l ++ [.took s' b]) s where
  sentShutdown := by
    rw [session_concat ht, h.sentShutdown]
    simp [Turn.sends]
  sentSighup := by
    rw [session_concat ht, h.sentSighup]
    simp [Turn.sends]
  heardShutdown hr := by
    obtain ⟨t, htl, h⟩ := h.heardShutdown hr
    exact ⟨t, session_concat ht ▸ List.mem_append_left _ htl, h⟩
  heardSighup hr := by
    obtain ⟨t, htl, h⟩ := h.heardSighup hr
    exact ⟨t, session_concat ht ▸ List.mem_append_left _ htl, h⟩
  midway hm := h.midway (midway_took.mp hm)
  fresh := h.fresh

/-- A session begins. -/
theorem restart (h : Trail l s) (ht : (Turn.took s' b).hears .poweron = true)
    (hv : t.vars = {}) (hl : t.sendLock = s.sendLock) (hf : t.firstRun = s.firstRun) :
    Trail (l ++ [.took s' b]) t where
  sentShutdown := by simp [session_poweron ht, hv]
  sentSighup := by simp [session_poweron ht, hv]
  heardShutdown hr := by
    rw [hv] at hr
    cases hr
  heardSighup hr := by
    rw [hv] at hr
    cases hr
  midway hm := hl.trans (h.midway (midway_took.mp hm))
  fresh hr := hl.trans (h.fresh (hf.symm.trans hr))

theorem approved (h : Trail l s) (ha : Approved s s') : Trail l s' := by
  cases ha with
  | none => exact h
  | own => exact h
  | lock => exact h.frame ⟨rfl, rfl, id, id⟩ rfl rfl

theorem acknowledged (h : Trail l s) (ha : Acknowledged s s') : Trail l s' := by
  cases ha with
  | none => exact h
  | accept => exact h.frame ⟨rfl, rfl, id, id⟩ rfl rfl

/-- The object of a payload symbol is chosen by the locks. -/
theorem assembled (h : Trail l s) (ha : Assembled D b s s') : Trail l s' := by
  have hreceiving : ∀ {t}, Receiving D s t → Trail l t := fun hr => by
    cases hr with
    | held => exact h
    | first => exact h.frame ⟨rfl, rfl, id, id⟩ rfl rfl
  cases ha with
  | part receiving => exact (hreceiving receiving).frame ⟨rfl, rfl, id, id⟩ rfl rfl
  | group receiving => exact (hreceiving receiving).frame ⟨rfl, rfl, id, id⟩ rfl rfl
  | last receiving => exact (hreceiving receiving).frame ⟨rfl, rfl, id, id⟩ rfl rfl

/-- What is heard in a byte, by its state code. -/
theorem hears_eq {st : State} (hf : s.firstRun = false) (request : b.getLsbD 7 = true) :
    (Turn.took s b).hears st = (stateCode b == st.code) := by
  simp [Turn.hears, hf, request]

/-- A symbol is processed. -/
theorem hooked {u : Endpoint} (h : Trail l s) (hf : u.firstRun = false)
    (request : b.getLsbD 7 = true) (hk : Hooked b (s.receiveBits b) s') :
    Trail (l ++ [.took u b]) s' := by
  have hbits : Trail l (s.receiveBits b) := h.frame ⟨rfl, rfl, id, id⟩ rfl rfl
  -- any symbol but poweron goes on with the session
  have hother : stateCode b ≠ State.poweron.code → (Turn.took u b).hears .poweron = false :=
    fun hne => (hears_eq hf request).trans (beq_eq_false_iff_ne.mpr hne)
  have hstate : ∀ {st : State}, stateCode b = st.code → st ≠ .poweron →
      (Turn.took u b).hears .poweron = false :=
    fun hc hne => hother fun hp => hne (State.code_inj (hc.symm.trans hp))
  have hthis : ∀ {st : State}, stateCode b = st.code → st ≠ .poweron →
      ∃ t ∈ session (l ++ [.took u b]), t.hears st = true := by
    intro st hc hne
    refine ⟨.took u b, ?_, (hears_eq hf request).trans (beq_iff_eq.mpr hc)⟩
    rw [session_concat (hstate hc hne)]
    exact List.mem_append_right _ (List.mem_singleton_self _)
  cases hk with
  | poweron code =>
    exact hbits.restart ((hears_eq hf request).trans (beq_iff_eq.mpr code)) rfl rfl rfl
  | idle code =>
    exact (hbits.took (hstate code (by decide))).frame ⟨rfl, rfl, id, id⟩ rfl rfl
  | shutdown code =>
    exact { hbits.took (hstate code (by decide)) with
      heardShutdown := fun _ => hthis code (by decide) }
  | sighup code =>
    exact { hbits.took (hstate code (by decide)) with
      heardSighup := fun _ => hthis code (by decide) }
  | request code =>
    exact (hbits.took (hother (code .poweron (by simp)))).frame ⟨rfl, rfl, id, id⟩ rfl rfl

/-- **The `IN` half of a cycle.** -/
theorem heard (h : Trail l s) (hh : Heard D { s with comIn := b } t) :
    Trail (l ++ [.took s b]) t := by
  cases hh with
  | first hf =>
    have hf' : s.firstRun = true := hf
    have ht : (Turn.took s b).hears .poweron = false := by simp [Turn.hears, hf']
    exact (h.took ht).frame ⟨rfl, rfl, id, id⟩ rfl rfl
  | byte hf received =>
    obtain ⟨taken, approved, acknowledged⟩ := received
    have hb : Trail l { s with comIn := b } := h.frame ⟨rfl, rfl, id, id⟩ rfl rfl
    refine Trail.acknowledged (Trail.approved ?_ approved) acknowledged
    cases taken with
    | hook request hk => exact hb.hooked hf request hk
    | object request ha =>
      have hbit : b.getLsbD 7 = false := request
      have ht : (Turn.took s b).hears .poweron = false := by
        rw [Turn.hears, hbit, Bool.and_false, Bool.false_and]
      have hbits : Trail (l ++ [.took s b]) (({ s with comIn := b } : Endpoint).receiveBits b) :=
        (hb.took ht).frame ⟨rfl, rfl, id, id⟩ rfl rfl
      exact hbits.assembled ha

/-- A byte is handed over: the flags follow what it is. -/
theorem gave (h : Trail l t) (hs : Session D s) (hf : s.firstRun = false)
    (hshutdown : s.vars.sentComShutdown
      = (t.vars.sentComShutdown || (Turn.gave s b).sends .shutdown))
    (hsighup : s.vars.sentSighup = (t.vars.sentSighup || (Turn.gave s b).sends .sighup))
    (hheard : s.vars.receivedComShutdown = t.vars.receivedComShutdown
      ∧ s.vars.receivedSighup = t.vars.receivedSighup) : Trail (l ++ [.gave s b]) s := by
  have hsession : session (l ++ [.gave s b]) = session l ++ [.gave s b] := session_concat rfl
  have hadd : ∀ {p : Turn → Prop}, (∃ t ∈ session l, p t) →
      ∃ t ∈ session (l ++ [.gave s b]), p t := by
    rintro p ⟨t, ht, hp⟩
    exact ⟨t, hsession ▸ List.mem_append_left _ ht, hp⟩
  refine ⟨?_, ?_, fun hr => hadd (h.heardShutdown (hheard.1 ▸ hr)),
    fun hr => hadd (h.heardSighup (hheard.2 ▸ hr)), fun hm => ?_,
    fun hr => absurd (hf.symm.trans hr) (by decide)⟩
  · rw [hshutdown, Bool.or_eq_true, h.sentShutdown, hsession]
    simp
  · rw [hsighup, Bool.or_eq_true, h.sentSighup, hsession]
    simp
  · obtain ⟨-, hfetched⟩ := midway_gave.mp hm
    by_contra hl
    exact hfetched (hs.notSending (by simpa using hl)).2.2

end Trail

/-! ## What is emitted -/

/-- A control symbol is what its state code says. -/
theorem sends_control {c : Byte} {st : State} (hp : s.history.payload = false)
    (hc : stateCode b = c) : (Turn.gave s b).sends st = (c == st.code) := by
  rw [Turn.sends, hp, hc, Bool.not_false, Bool.true_and]

/-- A payload symbol is no control symbol. -/
theorem sends_payload {st : State} (hp : s.history.payload = true) :
    (Turn.gave s b).sends st = false := by
  rw [Turn.sends, hp, Bool.not_true, Bool.false_and]

/-- A control symbol is handed over that is neither of the two final ones, and no
transfer request either. -/
theorem MayFollow.harmless {l : List Turn} (hshutdown : (Turn.gave s b).sends .shutdown = false)
    (hsighup : (Turn.gave s b).sends .sighup = false)
    (hrequest : (Turn.gave s b).Requests → ∀ t ∈ session l, t.sends .shutdown = false)
    (hwhole : s.history.payload = false → ¬ Midway l)
    (hsilent : r = .fpga → ∀ t ∈ l, t.sends .sighup = false) : MayFollow D r l s b where
  shutdown_once hf := absurd (hshutdown.symm.trans hf) (by decide)
  sighup_once hf := absurd (hsighup.symm.trans hf) (by decide)
  no_request := hrequest
  fpga_sighup _ hf := absurd (hsighup.symm.trans hf) (by decide)
  mcu_sighup _ hf := absurd (hsighup.symm.trans hf) (by decide)
  free hf := absurd (hsighup.symm.trans hf) (by decide)
  whole := hwhole
  fpga_silent := hsilent

/-- A flag that is clear has no turn in the session. -/
theorem Trail.unsent {l : List Turn} {st : State} {flag : Bool}
    (h : flag = true ↔ ∃ t ∈ session l, t.sends st = true) (hf : flag = false) :
    ∀ t ∈ session l, t.sends st = false := by
  intro t ht
  by_contra hs
  exact absurd (hf.symm.trans (h.mpr ⟨t, ht, by simpa using hs⟩)) (by decide)

/-- A control symbol is emitted between two objects only. -/
theorem Trail.whole {l : List Turn} (h : Trail l t) (hl : t.sendLock = false) : ¬ Midway l :=
  fun hm => absurd (hl.symm.trans (h.midway hm)) (by decide)

/-- No object is readlocked or in transfer where the sighup is sent. -/
theorem sighup_free (hq : s.outgoingSighupQuery D r = true) :
    ∀ j < D.count, s.readLock j = false ∧ s.transfer j = false := by
  have hnone : s.readsPending D = false ∧ s.writesPending D = false := by
    cases r <;> simp [Endpoint.outgoingSighupQuery] at hq <;> tauto
  intro j hj
  have hany : ∀ {p : ℕ → Bool}, D.ids.any p = false → p j = false := fun hp => by
    simpa using List.any_eq_false.mp hp j (DescriptorHelper.mem_ids.mpr hj)
  exact ⟨hany hnone.1, hany hnone.2⟩

/-- What is neither of the two final symbols may follow, and the flags stay. -/
theorem Trail.harmless {l : List Turn} (h : Trail l t) (hs : Session D s)
    (hf : s.firstRun = false) (hsent : s.vars.sentComShutdown = t.vars.sentComShutdown
      ∧ s.vars.sentSighup = t.vars.sentSighup)
    (hheard : s.vars.receivedComShutdown = t.vars.receivedComShutdown
      ∧ s.vars.receivedSighup = t.vars.receivedSighup)
    (hshutdown : (Turn.gave s b).sends .shutdown = false)
    (hsighup : (Turn.gave s b).sends .sighup = false)
    (hrequest : (Turn.gave s b).Requests → ∀ t ∈ session l, t.sends .shutdown = false)
    (hwhole : s.history.payload = false → ¬ Midway l)
    (hsilent : r = .fpga → ∀ t ∈ l, t.sends .sighup = false) :
    MayFollow D r l s b ∧ Trail (l ++ [.gave s b]) s := by
  refine ⟨.harmless hshutdown hsighup hrequest hwhole hsilent, h.gave hs hf ?_ ?_ hheard⟩
  · rw [hshutdown, hsent.1, Bool.or_false]
  · rw [hsighup, hsent.2, Bool.or_false]

/-- The control symbol of a state requests no transfer. -/
theorem not_requests {st : State} (hc : stateCode b = st.code) : ¬ (Turn.gave s b).Requests := by
  rintro ⟨-, j, hj, hcode⟩
  exact (transferCode_spec hj).2.2 st (hcode.symm.trans hc)

theorem stateCode_sendState {st : State} : stateCode (t.sendState st).comOut = st.code :=
  (stateCode_stamp ..).trans (stateCode_code _)

/-- **The shutdown symbol** may follow, and its flag is set. -/
theorem Trail.emittedShutdown {l : List Turn} (h : Trail l t)
    (hs : Session D t.sendComshutdownRequest) (first : t.firstRun = false)
    (rest : t.sendLock = false) (open_ : t.vars.sentComShutdown = false)
    (hsilent : r = .fpga → ∀ t ∈ l, t.sends .sighup = false) :
    MayFollow D r l t.sendComshutdownRequest t.sendComshutdownRequest.comOut
      ∧ Trail (l ++ [.gave t.sendComshutdownRequest t.sendComshutdownRequest.comOut])
        t.sendComshutdownRequest := by
  have hsends : ∀ {st : State},
      (Turn.gave t.sendComshutdownRequest t.sendComshutdownRequest.comOut).sends st
        = (State.shutdown.code == st.code) := sends_control rfl stateCode_sendState
  have hsighup : (Turn.gave t.sendComshutdownRequest t.sendComshutdownRequest.comOut).sends
      .sighup = false := hsends.trans (by decide)
  refine ⟨⟨fun _ => Trail.unsent h.sentShutdown open_,
      fun hf => absurd (hsighup.symm.trans hf) (by decide),
      fun hq => absurd hq (not_requests stateCode_sendState),
      fun _ hf => absurd (hsighup.symm.trans hf) (by decide),
      fun _ hf => absurd (hsighup.symm.trans hf) (by decide),
      fun hf => absurd (hsighup.symm.trans hf) (by decide),
      fun _ => h.whole rest, hsilent⟩, h.gave hs first ?_ ?_ ⟨rfl, rfl⟩⟩
  · rw [hsends]
    exact (Bool.or_true _).symm
  · rw [hsighup]
    exact (Bool.or_false _).symm

/-- **The sighup symbol** may follow, and its flag is set: `outgoing_sighup_query` has been
answered. -/
theorem Trail.emittedSighup {l : List Turn} (h : Trail l t) (hs : Session D t.sendSighupRequest)
    (first : t.firstRun = false) (rest : t.sendLock = false)
    (query : t.outgoingSighupQuery D r = true) (once : t.vars.sentSighup = false)
    (hsilent : r = .fpga → ∀ t ∈ l, t.sends .sighup = false) :
    MayFollow D r l t.sendSighupRequest t.sendSighupRequest.comOut
      ∧ Trail (l ++ [.gave t.sendSighupRequest t.sendSighupRequest.comOut])
        t.sendSighupRequest := by
  have hsends : ∀ {st : State},
      (Turn.gave t.sendSighupRequest t.sendSighupRequest.comOut).sends st
        = (State.sighup.code == st.code) := sends_control rfl stateCode_sendState
  have hshutdown : (Turn.gave t.sendSighupRequest t.sendSighupRequest.comOut).sends
      .shutdown = false := hsends.trans (by decide)
  refine ⟨⟨fun hf => absurd (hshutdown.symm.trans hf) (by decide),
      fun _ => Trail.unsent h.sentSighup once,
      fun hq => absurd hq (not_requests stateCode_sendState),
      fun hr _ => ?_, fun hr _ => ?_, fun _ => sighup_free query, fun _ => h.whole rest,
      hsilent⟩, h.gave hs first ?_ ?_ ⟨rfl, rfl⟩⟩
  · subst hr
    simp only [Endpoint.outgoingSighupQuery, Bool.and_eq_true] at query
    exact ⟨h.sentShutdown.mp query.1.1.1, h.heardShutdown query.1.1.2⟩
  · subst hr
    simp only [Endpoint.outgoingSighupQuery, Bool.and_eq_true] at query
    exact h.heardSighup query.1.1
  · rw [hshutdown]
    exact (Bool.or_false _).symm
  · rw [hsends]
    exact (Bool.or_true _).symm

/-- **The `OUT` half of a cycle**: what is emitted may follow, and the flags say so. -/
theorem Trail.emitted {allow : Answers} {l : List Turn} (h : Trail l t) (hs : Session D s)
    (hsilent : r = .fpga → ∀ t ∈ l, t.sends .sighup = false)
    (he : Emitted allow D r t s) :
    MayFollow D r l s s.comOut ∧ Trail (l ++ [.gave s s.comOut]) s := by
  cases he with
  | poweron first =>
    have hsends : ∀ {st : State}, (Turn.gave t.sendPoweronRequest t.sendPoweronRequest.comOut).sends
        st = (State.poweron.code == st.code) := sends_control rfl stateCode_sendState
    exact h.harmless hs rfl ⟨rfl, rfl⟩ ⟨rfl, rfl⟩ (hsends.trans (by decide))
      (hsends.trans (by decide)) (fun hq => absurd hq (not_requests stateCode_sendState))
      (fun _ => h.whole (h.fresh first)) hsilent
  | @request j first rest open_ lt =>
    obtain ⟨-, -, hcode⟩ := request_symbol (D.lt_numIds lt) true t.peerAcknowledge
    have hne := (transferCode_spec (D.lt_numIds lt)).2.2
    have hsends : ∀ {st : State}, (Turn.gave (t.requesting j) (t.requesting j).comOut).sends st
        = false := (sends_control rfl hcode).trans (beq_eq_false_iff_ne.mpr (hne _))
    exact h.harmless hs first ⟨rfl, rfl⟩ ⟨rfl, rfl⟩ hsends hsends
      (fun _ => Trail.unsent h.sentShutdown open_) (fun _ => h.whole rest) hsilent
  | shutdown first rest open_ => exact h.emittedShutdown hs first rest open_ hsilent
  | @payload u s first sending fed =>
    have hframe : s.history.payload = true ∧ s.firstRun = t.firstRun ∧ s.vars = t.vars := by
      cases sending <;> cases fed <;> exact ⟨rfl, rfl, rfl⟩
    obtain ⟨hpayload, hfirst, hvars⟩ := hframe
    exact h.harmless hs (hfirst.trans first) (hvars ▸ ⟨rfl, rfl⟩) (hvars ▸ ⟨rfl, rfl⟩)
      (sends_payload hpayload) (sends_payload hpayload)
      (fun hq => absurd (hpayload.symm.trans hq.1) (by decide))
      (fun hc => absurd (hpayload.symm.trans hc) (by decide)) hsilent
  | sighup first rest none query once => exact h.emittedSighup hs first rest query once hsilent
  | idle first rest =>
    have hsends : ∀ {st : State}, (Turn.gave t.sendIdleRequest t.sendIdleRequest.comOut).sends st
        = (State.idle.code == st.code) := sends_control rfl stateCode_sendState
    exact h.harmless hs first ⟨rfl, rfl⟩ ⟨rfl, rfl⟩ (hsends.trans (by decide))
      (hsends.trans (by decide)) (fun hq => absurd hq (not_requests stateCode_sendState))
      (fun _ => h.whole rest) hsilent

/-- The FPGA has not hung up, as long as it takes tokens. -/
def Unhung (r : Role) (l : List Turn) (s : Endpoint) : Prop :=
  r = .fpga → s.vars.sentSighup = false → ∀ t ∈ l, t.sends .sighup = false

/-- Its own flag tells the FPGA whether it has. -/
theorem Trail.unhung {l : List Turn} (h : Trail (l ++ [.gave s b]) s)
    (hl : r = .fpga → ∀ t ∈ l, t.sends .sighup = false) : Unhung r (l ++ [.gave s b]) s := by
  intro hr hs t ht
  rw [List.mem_append, List.mem_singleton] at ht
  obtain ht | rfl := ht
  · exact hl hr t ht
  · refine Trail.unsent h.sentSighup hs _ ?_
    rw [session_concat rfl]
    exact List.mem_append_right _ (List.mem_singleton_self _)

/-! ## Under any interference -/

/-- What an operation of an end shows. -/
def turns (r : Role) : Pool.Observer (fun _ : Role => Endpoint) Op.Answer Turn
  | i, s, ⟨_, .handshake⟩, b => if i = r then [.took s b] else []
  | i, s, ⟨_, .handshakeAck b⟩, _ => if i = r then [.gave s b] else []
  | _, _, _, _ => []

/-- Only the two handshakes are turns. -/
theorem turns_ordinary {i : Role} {o : Op} {a : o.Answer} (ht : o.access ≠ .handshake)
    (hg : ∀ b, o.access ≠ .handshakeAck b) : turns r i s o a = [] := by
  obtain ⟨site, acc⟩ := o
  cases acc with
  | handshake => exact absurd rfl ht
  | handshakeAck b => exact absurd rfl (hg b)
  | _ => rfl

/-- **What an end asserts about its turns.** -/
def orderOutline (D : DescriptorHelper) (r : Role) : (link D).Outline (List Turn) where
  follows _ _ := True
  step i s o a l l' := l' = l ++ turns r i s o a
  node i s o l := i = r → ∀ b, o.access = .handshakeAck b → MayFollow D r l s b
  rest i s l := AtRest D s ∧ (i = r → Trail l s ∧ Unhung r l s)
  error _ _ _ _ := True
  rely i _ l l' := i = r → l' = l
  refl _ _ _ _ := rfl
  trans _ _ _ _ _ h₁ h₂ hi := (h₂ hi).trans (h₁ hi)
  node_stable _ _ _ _ _ hr hn hi := by
    rw [hr hi]
    exact hn hi
  rest_stable _ _ _ _ hr hn := ⟨hn.1, fun hi => by
    rw [hr hi]
    exact hn.2 hi⟩

/-- **A cycle keeps to the order.** -/
theorem Trail.cycled {allow : Answers} {l : List Turn} (hD : D.Triples) (hs : AtRest D s)
    (h : Trail l s) (hu : Unhung r l s) (hq : s.handshakeQuery r = true)
    (hc : Cycled allow D r { s with comIn := b } s') :
    MayFollow D r (l ++ [.took s b]) s' s'.comOut
      ∧ Trail (l ++ [.took s b] ++ [.gave s' s'.comOut]) s'
      ∧ Unhung r (l ++ [.took s b] ++ [.gave s' s'.comOut]) s' := by
  have hs' : Session D s' := ((hs.take b).cycled hD hc).toSession
  cases hc with | @mk t _ heard emitted =>
  have ht : Trail (l ++ [.took s b]) { t with waitingConfirmation := numIds } :=
    (h.heard heard).frame ⟨rfl, rfl, id, id⟩ rfl rfl
  have hsilent : r = .fpga → ∀ t ∈ l ++ [.took s b], t.sends .sighup = false := by
    intro hr t ht
    rw [List.mem_append, List.mem_singleton] at ht
    obtain ht | rfl := ht
    · subst hr
      exact hu rfl (by simpa [Endpoint.handshakeQuery] using hq) t ht
    · rfl
  obtain ⟨hfollow, htrail⟩ := ht.emitted hs' hsilent emitted
  exact ⟨hfollow, htrail, htrail.unhung hsilent⟩

/-- **An end keeps to the order**, and the other one does not matter. -/
theorem order_safe (hD : D.Triples) {i : Role} {l : List Turn} (hs : AtRest D s)
    (ht : i = r → Trail l s ∧ Unhung r l s) :
    (orderOutline D r).Safe i ((eventLoop D i).run s) l := by
  refine eventLoop_safe hD hs (fun _ => ⟨hs, ht⟩) (fun _ _ b hf => by cases hf)
    fun query b l' hstep => ?_
  obtain ⟨l₁, hrely, rfl⟩ := hstep
  -- between the two handshakes nothing is observed
  have G : Guard D True (fun _ => True) (fun _ _ _ => True) (fun _ => True)
      ((orderOutline D r).rules i) (fun _ h => i = r → h = l ++ [.took s b]) := by
    refine Guard.steady (fun _ _ _ _ _ => trivial) (fun s' o h ho hΨ => ⟨?_, ?_⟩)
      (fun _ _ _ _ _ _ => trivial) (fun _ _ _ _ => trivial)
    · intro _ b' hb'
      exact absurd hb' (ho.notGive b')
    · rintro a h' ⟨h₁, hr, rfl⟩ hi
      rw [turns_ordinary ho.notTake ho.notGive, List.append_nil, hr hi]
      exact hΨ hi
  refine ⟨_, _, _, _, _, G, fun hi => ?_, fun _ _ _ => trivial, fun _ _ _ _ => trivial,
    fun _ _ => trivial, fun s' l₂ hc hΨ => ⟨fun hi b' hb' => ?_, fun x l₃ hstep => ?_⟩⟩
  · subst hi
    rw [hrely rfl]
    exact congrArg (l ++ ·) (if_pos rfl)
  · subst hi
    obtain rfl := Access.handshakeAck.inj hb'
    rw [hΨ rfl]
    exact ((ht rfl).1.cycled hD hs (ht rfl).2 query hc).1
  · obtain ⟨l₄, hrely, rfl⟩ := hstep
    refine ⟨(hs.take b).cycled hD hc, fun hi => ?_⟩
    subst hi
    rw [hrely rfl, hΨ rfl]
    have hgave : turns i i s' ⟨.handshakeAck, .handshakeAck s'.comOut⟩ x
        = [.gave s' s'.comOut] := if_pos rfl
    rw [hgave]
    exact ((ht rfl).1.cycled hD hs (ht rfl).2 query hc).2

/-- **The order of the control symbols.** In every run, against any peer and with
any write requests and stop requests, the symbol an end is about to hand over may
follow what it has heard and handed over before. -/
theorem control_order (hD : D.Triples) (obj : Role → ℕ → ℕ → Byte) (r : Role)
    {σ : (link D).State} {l : List Turn}
    (hσ : (link D).Traces (fun _ _ => True) (fun _ _ => True) (turns r) (link.start D obj) l σ)
    {s : Endpoint} {b : Byte} {k : Unit → Prog Endpoint ErrorCode Op.Answer Unit}
    (hs : σ.thread r = .op s ⟨.handshakeAck, .handshakeAck b⟩ k) : MayFollow D r l s b := by
  have hkeeps : ∃ h, l = h ∧ (orderOutline D r).Keeps σ h := by
    refine Pool.Outline.sound_traces (fun l h => l = h) ?_
      (fun _ _ h _ hR _ _ _ => ⟨h, hR, trivial, fun _ _ => rfl⟩)
      (fun i s l hs => order_safe hD hs.1 hs.2) hσ
      ⟨[], rfl, trivial, fun _ => ⟨.initial, fun _ => ⟨.initial, fun _ _ _ ht => by cases ht⟩⟩⟩
    rintro σ l _ i s o k a w rfl hk node exec _
    refine ⟨_, rfl, trivial, rfl, fun j hj hr => ?_⟩
    -- the turns of the other end are not observed
    obtain ⟨site, acc⟩ := o
    have hi : i ≠ r := fun hi => hj (hr.trans hi.symm)
    cases acc with
    | handshake => exact (congrArg (l ++ ·) (if_neg hi)).trans (List.append_nil l)
    | handshakeAck => exact (congrArg (l ++ ·) (if_neg hi)).trans (List.append_nil l)
    | _ => exact List.append_nil l
  obtain ⟨_, rfl, hk⟩ := hkeeps
  exact hk.node hs rfl b rfl

/-- An end is about to hand over the control symbol of a state, as a test. -/
def handing (r : Role) (st : State) (σ : (link D).State) : Bool :=
  match σ.thread r with
  | .op s ⟨.handshakeAck, .handshakeAck b⟩ _ => (Turn.gave s b).sends st
  | _ => false

theorem handing_spec {st : State} {σ : (link D).State} (h : handing r st σ = true) :
    ∃ s b k, σ.thread r = .op s ⟨.handshakeAck, .handshakeAck b⟩ k
      ∧ (Turn.gave s b).sends st = true := by
  unfold handing at h
  split at h
  case h_1 s b k hs => exact ⟨s, b, k, hs, h⟩
  case h_2 => cases h

/-- The FPGA is asked to stop, and hangs up. -/
theorem control_order_sighup : ∃ (σ : (link twoObjects).State) (l : List Turn),
    (link twoObjects).Traces (fun _ _ => True) (fun _ _ => True) (turns .fpga)
      (link.start twoObjects fun _ _ _ => 0) l σ
    ∧ ∃ s b k, σ.thread .fpga = .op s ⟨.handshakeAck, .handshakeAck b⟩ k
      ∧ (Turn.gave s b).sends .sighup = true ∧ MayFollow twoObjects .fpga l s b := by
  obtain ⟨σ, hσ, hp⟩ := Pool.Script.exists_of_replay (fun _ _ => True) (fun _ _ => True)
    (script twoObjects (fun _ _ => true) fun _ => true)
    (rounds 2 ++ [.act (.stopRequest .fpga)] ++ rounds 1 ++ [.go .fpga 5]) twoObjects.start
    (handing .fpga .sighup) (fun _ _ _ => trivial) (fun _ _ _ => trivial) (by decide +kernel)
  obtain ⟨l, hl⟩ := Pool.Traces.of_reaches (turns .fpga) hσ
  obtain ⟨s, b, k, hs, hsighup⟩ := handing_spec hp
  exact ⟨σ, l, hl, s, b, k, hs, hsighup, control_order twoObjects_triples _ .fpga hl hs⟩

end SOS
