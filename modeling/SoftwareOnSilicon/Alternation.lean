import SoftwareOnSilicon.Exchange
import SoftwareOnSilicon.Link

/-!
# Runs of the two ends

The exchanges of the two ends, put together into runs of the link. What is
followed of a run is `Turns`: whose turn it is, the byte under way, the
private state each end had when it last handed the token on, and for each end
the objects whose write request it has not got rid of yet. An end whose turn it
is not can do nothing to it, and the environment can only add write requests.

There is one outline for all that is proved of the two ends together. It has
two switches: whether a stop request may be made at all (`stop`), and whether
write requests of one object are known not to overlap (`apart`).
-/

namespace SOS

open Interleaving

variable {D : DescriptorHelper} {r : Role} {stop apart : Prop}

/-! ## The environment -/

/-- The line carries the bytes of the two ends only. -/
def LineIntact (σ : (link D).State) (w : World) : Prop := w.wire = σ.world.wire

/-- No stop request is made. -/
def NoStop (σ : (link D).State) (w : World) : Prop :=
  ∀ r, (w.board r).notified = true → (σ.world.board r).notified = true

/-- A thread is in the middle of a `check_sync` of an object. -/
def Peeking (p : Prog Endpoint ErrorCode Op.Answer Unit) (j : ℕ) : Prop :=
  ∃ s site k, p = .op s ⟨site, .clear (.syncMe j)⟩ k

/-- **Write requests of one object do not overlap.** The environment only makes
requests, and only of an object that is not requested at the other end and is
not being received at this one. -/
structure Apart (σ : (link D).State) (w : World) : Prop where
  only : ∀ r j, (σ.world.board r).flag (.syncMe j) = false →
    (w.board r).flag (.syncMe j) = false
  request : ∀ r j, (σ.world.board r).flag (.syncMe j) = true →
    (w.board r).flag (.syncMe j) = false → (w.board r.peer).flag (.syncMe j) = true
      ∧ ¬ Peeking (σ.thread r.peer) j ∧ (σ.thread r).state.readLock j = false

/-- **No object is in transfer** at an end that reads the stop request and has
not announced the shutdown. -/
def Drained (σ : (link D).State) : Prop :=
  ∀ r s site k, σ.thread r = .op s ⟨site, .loadNotified⟩ k →
    (σ.world.board r).notified = true → s.vars.sentComShutdown = false →
    ∀ j < D.count, s.transfer j = false

/-- The environment of a run, under the two switches. -/
structure Outside (stop apart : Prop) (σ : (link D).State) (w : World) : Prop where
  intact : LineIntact σ w
  quiet : ¬ stop → NoStop σ w
  apart : apart → Apart σ w

/-! ## What is followed -/

/-- **What the two communication threads know of one another.** -/
structure Turns where
  /-- The end that runs its cycle, or the one the byte under way is for. -/
  turn : Role
  /-- The byte under way. -/
  byte : Option Byte
  /-- The private state of each end when it last handed the token on. -/
  rest : Role → Endpoint
  /-- The write requests that have been made and neither turned into a transfer
  nor canceled. -/
  pend : Role → ℕ → Bool
  /-- The object whose flag `check_sync` has to put back. -/
  peek : Role → Option ℕ

namespace Turns

/-- The end is in the middle of its cycle. -/
def Busy (h : Turns) (r : Role) : Prop := h.turn = r ∧ h.byte = none

/-- What is awaited is pending, and what is pending is not received. -/
structure Owns (h : Turns) (r : Role) (s : Endpoint) : Prop where
  awaited : ∀ j, s.awaits j = true → h.pend r j = true
  free : ∀ j, h.pend r j = true → s.readLock j = false

/-- **What always holds of the two ends.** -/
structure Valid (D : DescriptorHelper) (stop apart : Prop) (h : Turns) : Prop where
  plain : ∀ r, Plain (h.rest r)
  flying : ∀ b, h.byte = some b → b = (h.rest h.turn.peer).comOut
    ∧ Flying D h.turn.peer (h.rest h.turn.peer) (h.rest h.turn)
  code : ¬ stop → ∀ b, h.byte = some b → b.getLsbD 7 = true →
    stateCode b ≠ State.shutdown.code
  disjoint : apart → ∀ r j, h.pend r j = true → h.pend r.peer j = false
  owns : apart → ∀ r, ¬ h.Busy r → h.Owns r (h.rest r)

/-- The followed state agrees with the world. -/
structure Follows (stop apart : Prop) (h : Turns) (w : World) : Prop where
  wire : w.wire = h.byte.map fun b => (h.turn, b)
  notified : ¬ stop → ∀ r, (w.board r).notified = false
  pend : apart → ∀ r j, (w.board r).flag (.syncMe j) = false → h.pend r j = true
  held : apart → ∀ r j, h.pend r j = true →
    (w.board r).flag (.syncMe j) = false ∨ h.peek r = some j
  peeked : apart → ∀ r j, h.peek r = some j → h.pend r j = true

/-- **What the other end and the environment may do.** -/
structure Rely (D : DescriptorHelper) (stop apart : Prop) (r : Role) (s : Endpoint)
    (h h' : Turns) : Prop where
  rest : h'.rest r = h.rest r
  peek : h'.peek r = h.peek r
  turn : h.turn = r → h'.turn = h.turn ∧ h'.byte = h.byte ∧ h'.rest = h.rest
  busy : ¬ h.Busy r → ¬ h'.Busy r
  valid : h.Valid D stop apart → h'.Valid D stop apart
  keep : ∀ j, h.pend r j = true → h'.pend r j = true
  fresh : apart → ∀ j, h'.pend r j = true → h.pend r j = true ∨ s.readLock j = false

/-- Before the first cycle: the FPGA begins. -/
def start : Turns where
  turn := .fpga
  byte := some 0
  rest _ := {}
  pend _ _ := false
  peek _ := none

/-- The token is handed on. -/
def give (h : Turns) (r : Role) (s : Endpoint) (b : Byte) : Turns :=
  { h with turn := r.peer, byte := some b, rest := Function.update h.rest r s }

/-- A write request is dealt with. -/
def drop (h : Turns) (r : Role) (j : ℕ) : Turns :=
  { h with pend := Function.update h.pend r (Function.update (h.pend r) j false) }

/-- `check_sync` is entered or left. -/
def setPeek (h : Turns) (r : Role) (x : Option ℕ) : Turns :=
  { h with peek := Function.update h.peek r x }

end Turns

/-- The object whose flag an operation puts back. -/
def Op.peeks (o : Op) : Option ℕ :=
  match o.access with
  | .clear (.syncMe j) => some j
  | _ => none

/-- The operations that do not concern what is followed. -/
def Op.Unnoticed (o : Op) : Prop :=
  match o.access with
  | .handshake | .handshakeAck _ | .loadNotified => False
  | .testAndSet (.syncMe _) | .clear (.syncMe _) | .acquire (.syncMe _) => False
  | _ => True

/-- The functions that deal with a write request, rather than look for one. -/
def Site.Settles (site : Site) : Prop := site = .emitReadlocked ∨ site = .emitTransfer

/-- Under which a stop request is found. -/
def Told (D : DescriptorHelper) (stop : Prop) (s : Endpoint) : Prop :=
  stop ∧ (s.vars.sentComShutdown = false → ∀ j < D.count, s.transfer j = false)

/-- **What an operation of an end does to what is followed.** -/
inductive Turns.Step (D : DescriptorHelper) (stop apart : Prop) (r : Role) (s : Endpoint) :
    (o : Op) → o.Answer → Turns → Turns → Prop
  | take {site : Site} {b : Byte} {h : Turns} (turn : h.turn = r) (byte : h.byte = some b) :
      Step D stop apart r s ⟨site, .handshake⟩ b h { h with byte := none }
  | give {site : Site} {b : Byte} {x : Unit} {h : Turns} :
      Step D stop apart r s ⟨site, .handshakeAck b⟩ x h (h.give r s b)
  | settle {site : Site} {j : ℕ} {a : Bool} {h : Turns} (hs : site.Settles) :
      Step D stop apart r s ⟨site, .testAndSet (.syncMe j)⟩ a h (h.drop r j)
  | miss {site : Site} {j : ℕ} {h : Turns} (hs : ¬ site.Settles) :
      Step D stop apart r s ⟨site, .testAndSet (.syncMe j)⟩ true h h
  | peek {site : Site} {j : ℕ} {h : Turns} (hs : ¬ site.Settles)
      (told : apart → h.pend r j = true) :
      Step D stop apart r s ⟨site, .testAndSet (.syncMe j)⟩ false h (h.setPeek r (some j))
  | putBack {site : Site} {j : ℕ} {x : Unit} {h : Turns} :
      Step D stop apart r s ⟨site, .clear (.syncMe j)⟩ x h (h.setPeek r none)
  | notified {site : Site} {b : Bool} {h : Turns} (told : b = true → Told D stop s) :
      Step D stop apart r s ⟨site, .loadNotified⟩ b h h
  | other {o : Op} {a : o.Answer} {h : Turns} (ho : o.Unnoticed) :
      Step D stop apart r s o a h h

/-- **What an end asserts before an operation.** -/
structure Turns.Node (D : DescriptorHelper) (stop apart : Prop) (r : Role) (s : Endpoint)
    (o : Op) (h : Turns) : Prop where
  valid : h.Valid D stop apart
  peek : h.peek r = o.peeks
  told : o.access = .storeNotified true → stop
  acquire : ∀ j, o.access ≠ .acquire (.syncMe j)
  take : o.access = .handshake →
    s = h.rest r ∧ AtRest D s ∧ s.handshakeQuery r = true ∧ ¬ h.Busy r
  busy : o.access ≠ .handshake → h.Busy r ∧ (apart → h.Owns r s)
  give : ∀ b, o.access = .handshakeAck b → b = s.comOut ∧ AtRest D s
    ∧ Flying D r s (h.rest r.peer)
    ∧ (¬ stop → b.getLsbD 7 = true → stateCode b ≠ State.shutdown.code)

/-- **What an end asserts between two cycles.** -/
structure Turns.AtRest (D : DescriptorHelper) (stop apart : Prop) (r : Role) (s : Endpoint)
    (h : Turns) : Prop where
  valid : h.Valid D stop apart
  peek : h.peek r = none
  state : s = h.rest r
  session : SOS.AtRest D s
  waiting : ¬ h.Busy r

namespace Turns

variable {s : Endpoint} {h h' h'' : Turns} {o : Op} {j : ℕ}

namespace Rely

theorem refl (r : Role) (s : Endpoint) (h : Turns) : Rely D stop apart r s h h where
  rest := rfl
  peek := rfl
  turn _ := ⟨rfl, rfl, rfl⟩
  busy hb := hb
  valid hv := hv
  keep _ hp := hp
  fresh _ _ hp := .inl hp

theorem trans (h₁ : Rely D stop apart r s h h') (h₂ : Rely D stop apart r s h' h'') :
    Rely D stop apart r s h h'' where
  rest := h₂.rest.trans h₁.rest
  peek := h₂.peek.trans h₁.peek
  turn ht := by
    obtain ⟨ht', hb, hr⟩ := h₁.turn ht
    obtain ⟨ht'', hb', hr'⟩ := h₂.turn (ht'.trans ht)
    exact ⟨ht''.trans ht', hb'.trans hb, hr'.trans hr⟩
  busy hb := h₂.busy (h₁.busy hb)
  valid hv := h₂.valid (h₁.valid hv)
  keep j hp := h₂.keep j (h₁.keep j hp)
  fresh ha j hp := by
    rcases h₂.fresh ha j hp with hp' | hf
    · exact h₁.fresh ha j hp'
    · exact .inr hf

/-- The end that is in its cycle stays in it. -/
theorem busy' (hr : Rely D stop apart r s h h') (hb : h.Busy r) :
    h'.Busy r ∧ h'.rest = h.rest := by
  obtain ⟨ht, hbyte, hrest⟩ := hr.turn hb.1
  exact ⟨⟨ht.trans hb.1, hbyte.trans hb.2⟩, hrest⟩

theorem owns (hr : Rely D stop apart r s h h') (ha : apart) (ho : h.Owns r s) :
    h'.Owns r s where
  awaited j hj := hr.keep j (ho.awaited j hj)
  free j hj := (hr.fresh ha j hj).elim (ho.free j) id

theorem node (hr : Rely D stop apart r s h h') (hn : Node D stop apart r s o h) :
    Node D stop apart r s o h' where
  valid := hr.valid hn.valid
  peek := hr.peek.trans hn.peek
  told := hn.told
  acquire := hn.acquire
  take ho := by
    obtain ⟨hs, hrest, hquery, hwait⟩ := hn.take ho
    exact ⟨hs.trans hr.rest.symm, hrest, hquery, hr.busy hwait⟩
  busy ho := by
    obtain ⟨hb, hown⟩ := hn.busy ho
    exact ⟨(hr.busy' hb).1, fun ha => hr.owns ha (hown ha)⟩
  give b ho := by
    obtain ⟨hb, hrest, hfly, hcode⟩ := hn.give b ho
    have hbusy := (hn.busy (by rw [ho]; simp)).1
    exact ⟨hb, hrest, (hr.busy' hbusy).2 ▸ hfly, hcode⟩

theorem atRest (hr : Rely D stop apart r s h h') (hn : Turns.AtRest D stop apart r s h) :
    Turns.AtRest D stop apart r s h' where
  valid := hr.valid hn.valid
  peek := hr.peek.trans hn.peek
  state := hn.state.trans hr.rest.symm
  session := hn.session
  waiting := hr.busy hn.waiting

end Rely

end Turns

/-- **The outline of the two ends.** -/
def turnsOutline (D : DescriptorHelper) (stop apart : Prop) : (link D).Outline Turns where
  follows h w := h.Follows stop apart w
  step r s o a h h' := Turns.Step D stop apart r s o a h h'
  node r s o h := Turns.Node D stop apart r s o h
  rest r s h := Turns.AtRest D stop apart r s h
  error r _ e h := e = .syncedStatusHasNotBeenOverridenWhenReadlockWasAcquired ∧ ¬ apart
    ∧ h.Busy r
  rely r s h h' := Turns.Rely D stop apart r s h h'
  refl r s h := .refl r s h
  trans _ _ _ _ _ h₁ h₂ := h₁.trans h₂
  node_stable _ _ _ _ _ hr hn := hr.node hn
  rest_stable _ _ _ _ hr hn := hr.atRest hn

/-! ## The guard of a cycle -/

/-- **What holds all through a cycle**, `R` being what the ends were before it. -/
structure Turns.Mid (D : DescriptorHelper) (stop apart : Prop) (r : Role)
    (R : Role → Endpoint) (s : Endpoint) (h : Turns) : Prop where
  valid : h.Valid D stop apart
  peek : h.peek r = none
  busy : h.Busy r
  rest : h.rest = R
  owns : apart → h.Owns r s

/-- Which answers the boards give. -/
def turnsAllow (D : DescriptorHelper) (stop apart : Prop) : Answers := fun s o _ =>
  (o = ⟨.incomingShutdownQuery, .loadNotified⟩ → Told D stop s)
  ∧ (apart → ∀ j, o = ⟨.getFirstTransfer, .testAndSet (.syncMe j)⟩ → s.readLock j = false)

theorem turnsAllow_draining : Draining D (turnsAllow D stop apart) := fun _ h hopen =>
  (h.1 rfl).2 hopen

namespace Turns

variable {R : Role → Endpoint} {s s' : Endpoint} {h h' : Turns} {o : Op} {j : ℕ}

theorem drop_self (h : Turns) (r : Role) (j : ℕ) : (h.drop r j).pend r j = false := by
  simp [drop]

theorem drop_pend {i : ℕ} {r' : Role} (hp : (h.drop r j).pend r' i = true) :
    h.pend r' i = true ∧ (r' = r → i ≠ j) := by
  by_cases hr : r' = r
  · subst hr
    by_cases hi : i = j
    · subst hi
      exact absurd ((h.drop_self r' i).symm.trans hp) (by decide)
    · exact ⟨by simpa [drop, hi] using hp, fun _ => hi⟩
  · exact ⟨by simpa [drop, hr] using hp, fun hf => absurd hf hr⟩

theorem drop_of_ne {i : ℕ} (hi : i ≠ j) : (h.drop r j).pend r i = h.pend r i := by
  simp [drop, hi]

theorem Valid.setPeek (hv : h.Valid D stop apart) (x : Option ℕ) :
    (h.setPeek r x).Valid D stop apart :=
  { hv with
    disjoint := hv.disjoint
    owns := fun ha r hb => { hv.owns ha r hb with } }

/-- An end that is in its cycle may deal with its own write requests. -/
theorem Valid.drop (hv : h.Valid D stop apart) (hb : h.Busy r) :
    (h.drop r j).Valid D stop apart :=
  { hv with
    disjoint := fun ha r' i hp => by
      have hpeer := hv.disjoint ha r' i (drop_pend hp).1
      by_contra hf
      exact absurd (hpeer.symm.trans (drop_pend (by simpa using hf)).1) (by decide)
    owns := fun ha r' hb' => by
      have hne : r' ≠ r := fun he => hb' (he ▸ hb)
      have ho := hv.owns ha r' hb'
      have hpend : (h.drop r j).pend r' = h.pend r' := Function.update_of_ne hne ..
      exact ⟨fun i hi => hpend ▸ ho.awaited i hi, fun i hi => ho.free i (hpend ▸ hi)⟩ }

/-- The token may be taken. -/
theorem Valid.taken {b : Byte} (hv : h.Valid D stop apart) (hb : h.byte = some b) :
    Valid D stop apart { h with byte := none } :=
  { hv with
    flying := fun b hb => by cases hb
    code := fun _ b hb => by cases hb
    disjoint := hv.disjoint
    owns := fun ha r' _ =>
      { hv.owns ha r' (fun hf => absurd (hb.symm.trans hf.2) (by simp)) with } }

/-- **The token may be handed on.** -/
theorem Node.give_valid {site : Site} {b : Byte}
    (hn : Node D stop apart r s ⟨site, .handshakeAck b⟩ h) :
    (h.give r s b).Valid D stop apart := by
  obtain ⟨hb, hrest, hfly, hcode⟩ := hn.give b rfl
  obtain ⟨hbusy, hown⟩ := hn.busy (by simp)
  have hself : (h.give r s b).rest r = s := Function.update_self ..
  have hother : ∀ {r'}, r' ≠ r → (h.give r s b).rest r' = h.rest r' := fun hr =>
    Function.update_of_ne hr ..
  have hpeer : (h.give r s b).rest r.peer = h.rest r.peer := hother (by cases r <;> decide)
  refine
    { plain := fun r' => ?_
      flying := fun b' hb' => ?_
      code := fun hs b' hb' => ?_
      disjoint := hn.valid.disjoint
      owns := fun ha r' _ => ?_ }
  · by_cases hr : r' = r
    · rw [hr, hself]
      exact hfly.plain
    · rw [hother hr]
      exact hn.valid.plain r'
  · obtain rfl := Option.some.inj hb'
    have hback : (h.give r s b).turn.peer = r := Role.peer_peer r
    rw [hback, hself]
    exact ⟨hb, hpeer ▸ hfly⟩
  · obtain rfl := Option.some.inj hb'
    exact hcode hs
  · by_cases hr : r' = r
    · rw [hr, hself]
      exact { hown ha with }
    · rw [hother hr]
      exact { hn.valid.owns ha r' (fun hb' => hr (hb'.1.symm.trans hbusy.1)) with }

/-- Most operations leave everything as it is. -/
theorem Step.unnoticed {a : o.Answer} (hs : Step D stop apart r s o a h h')
    (ho : o.Unnoticed) : h' = h := by
  cases hs with
  | miss | notified | other => rfl
  | take | give | settle | peek | putBack => exact ho.elim

namespace Mid

theorem rely (hm : Mid D stop apart r R s h) (hr : Rely D stop apart r s h h') :
    Mid D stop apart r R s h' where
  valid := hr.valid hm.valid
  peek := hr.peek.trans hm.peek
  busy := (hr.busy' hm.busy).1
  rest := (hr.busy' hm.busy).2.trans hm.rest
  owns ha := hr.owns ha (hm.owns ha)

/-- The private state matters only for its locks and what it awaits. -/
theorem state (hm : Mid D stop apart r R s h)
    (hlock : ∀ j, s'.readLock j = true → s.readLock j = true)
    (hawait : ∀ j, s'.awaits j = true → s.awaits j = true) : Mid D stop apart r R s' h :=
  { hm with
    owns := fun ha =>
      { awaited := fun j hj => (hm.owns ha).awaited j (hawait j hj)
        free := fun j hj => by
          by_contra hf
          exact absurd (((hm.owns ha).free j hj).symm.trans (hlock j (by simpa using hf)))
            (by decide) } }

theorem node (hm : Mid D stop apart r R s h) (hpeek : o.peeks = none)
    (htold : o.access = .storeNotified true → stop)
    (hacquire : ∀ j, o.access ≠ .acquire (.syncMe j)) (htake : o.access ≠ .handshake)
    (hgive : ∀ b, o.access ≠ .handshakeAck b) : Node D stop apart r s o h where
  valid := hm.valid
  peek := hm.peek.trans hpeek.symm
  told := htold
  acquire := hacquire
  take ho := absurd ho htake
  busy _ := ⟨hm.busy, hm.owns⟩
  give b ho := absurd ho (hgive b)

/-- **An operation that does not concern what is followed.** -/
theorem unnoticed (hm : Mid D stop apart r R s h) (ho : o.Unnoticed)
    (htold : o.access = .storeNotified true → stop) :
    ((turnsOutline D stop apart).rules r).node s o h
    ∧ ∀ a h', ((turnsOutline D stop apart).rules r).step s o a h h' →
      Mid D stop apart r R s h' := by
  obtain ⟨site, a⟩ := o
  refine ⟨hm.node ?_ htold (fun j hf => ?_) (fun hf => ?_) (fun b hf => ?_), ?_⟩
  · cases a with
    | clear f => cases f <;> first | rfl | exact ho.elim
    | _ => rfl
  · obtain rfl : a = _ := hf
    exact ho.elim
  · obtain rfl : a = _ := hf
    exact ho.elim
  · obtain rfl : a = _ := hf
    exact ho.elim
  · rintro a h' ⟨h₁, hr, hs⟩
    exact (hs.unnoticed ho) ▸ hm.rely hr

/-- **A write request is looked for**, and the flag put back. -/
theorem putBack (hm : Mid D stop apart r R s h)
    (hr : Rely D stop apart r s (h.setPeek r (some j)) h') :
    Mid D stop apart r R s (h'.setPeek r none) where
  valid := (hr.valid (hm.valid.setPeek _)).setPeek _
  peek := Function.update_self ..
  busy := { (hr.busy' (r := r) hm.busy).1 with }
  rest := (hr.busy' (r := r) hm.busy).2.trans hm.rest
  owns ha := { hr.owns ha { hm.owns ha with } with }

/-- A write request is dealt with, which is not awaited any more. -/
theorem drop (hm : Mid D stop apart r R s h) (hj : s.awaits j = false) :
    Mid D stop apart r R s (h.drop r j) where
  valid := hm.valid.drop hm.busy
  peek := hm.peek
  busy := hm.busy
  rest := hm.rest
  owns ha :=
    { awaited := fun i hi => by
        have hne : i ≠ j := by
          rintro rfl
          exact absurd (hj.symm.trans hi) (by decide)
        rw [drop_of_ne hne]
        exact (hm.owns ha).awaited i hi
      free := fun i hi => (hm.owns ha).free i (drop_pend hi).1 }

/-- **What the other end awaits is not pending at this one.** -/
theorem peer_awaits (hm : Mid D stop apart r R s h) (ha : apart)
    (hj : (R r.peer).awaits j = true) : h.pend r j = false := by
  have hother : ¬ h.Busy r.peer := fun hb => by
    have := hm.busy.1.symm.trans hb.1
    cases r <;> cases this
  have hpend := (hm.valid.owns ha r.peer hother).awaited j (hm.rest ▸ hj)
  simpa using hm.valid.disjoint ha r.peer j hpend

/-- **`check_sync`** leaves a request where it is. -/
theorem checkSync {site : Site} (hsite : site = .getFirstTransfer ∨ site = .transfersPending)
    (hm : Mid D stop apart r R s h) : ((checkSync site j).run s).Safe
      ((turnsOutline D stop apart).rules r) (fun s' b h' => s' = s ∧ Mid D stop apart r R s h'
        ∧ (b = true → turnsAllow D stop apart s ⟨site, .testAndSet (.syncMe j)⟩ false
          ∧ (site = .getFirstTransfer → s.readLock j = false → s.transfer j = false →
            Mid D stop apart r R (s.requesting j) h'))) h := by
  have hsettles : ¬ site.Settles := by rintro (rfl | rfl) <;> simp at hsite
  refine safe_checkSync (hm.node rfl (by simp) (by simp) (by simp) (by simp)) ?_ ?_
  · rintro h' ⟨h₁, hr, hs⟩
    cases hs with
    | settle hs => exact absurd hs hsettles
    | miss => exact ⟨rfl, hm.rely hr, fun hf => by cases hf⟩
    | other ho => exact ho.elim
  · rintro h' ⟨h₁, hr, hs⟩
    cases hs with
    | settle hs => exact absurd hs hsettles
    | other ho => exact ho.elim
    | peek _ told =>
      have hm₁ := hm.rely hr
      refine ⟨?_, ?_⟩
      · exact
          { valid := hm₁.valid.setPeek _
            peek := Function.update_self ..
            told := by simp
            acquire := by simp
            take := by simp
            busy := fun _ => ⟨{ hm₁.busy with }, fun ha => { hm₁.owns ha with }⟩
            give := by simp }
      rintro x h'' ⟨h₂, hr₂, hs₂⟩
      cases hs₂ with
      | other ho => exact ho.elim
      | putBack =>
        have hm₂ := hm₁.putBack hr₂
        refine ⟨rfl, hm₂, fun _ => ⟨⟨(fun hf => by cases hf), fun ha i hi => ?_⟩, ?_⟩⟩
        · cases hi
          exact (hm₁.owns ha).free j (told ha)
        · rintro - free -
          refine { hm₂ with owns := fun ha => ⟨fun i hi => ?_, (hm₂.owns ha).free⟩ }
          obtain rfl : i = j := of_decide_eq_true hi
          exact hr₂.keep i (told ha)

/-- **`emit_readlocked`** drops a request of the object that is going to be received. -/
theorem readlock (hm : Mid D stop apart r R s h)
    (other : s.incomingRequest ≠ s.waitingConfirmation)
    (may : (R r.peer).awaits s.incomingRequest = true) :
    ((emitReadlocked s.incomingRequest).run s).Safe ((turnsOutline D stop apart).rules r)
      (fun s' _ h' => s' = s ∧ Mid D stop apart r R { s with
        readLock := Function.update s.readLock s.incomingRequest true } h') h := by
  have hlast : ∀ h', Mid D stop apart r R s h' →
      ((assignStarted .emitReadlocked s.incomingRequest true).run s).Safe
        ((turnsOutline D stop apart).rules r) (fun s' _ h' => s' = s
          ∧ Mid D stop apart r R { s with
            readLock := Function.update s.readLock s.incomingRequest true } h') h' := by
    intro h' hm'
    refine (assignStarted_keeps (fun o h ho hm => hm.unnoticed (by cases ho <;> trivial)
      fun hf => by cases ho <;> cases hf) hm').imp ?_
    rintro s _ h'' ⟨rfl, hm''⟩
    refine ⟨rfl, ?_⟩
    refine { hm'' with owns := fun ha => ⟨(hm''.owns ha).awaited, fun i hi => ?_⟩ }
    have hne : i ≠ s.incomingRequest := by
      rintro rfl
      exact absurd ((hm''.peer_awaits ha may).symm.trans hi) (by decide)
    exact (Function.update_of_ne hne ..).trans ((hm''.owns ha).free i hi)
  have hsettle : ∀ (a : Bool) h', ((turnsOutline D stop apart).rules r).step s
      ⟨.emitReadlocked, .testAndSet (.syncMe s.incomingRequest)⟩ a h h' →
      Mid D stop apart r R s h' := by
    rintro a h' ⟨h₁, hr, hs⟩
    cases hs with
    | settle => exact (hm.rely hr).drop (by simp [Endpoint.awaits, other])
    | miss hs => exact absurd (.inl rfl) hs
    | peek hs => exact absurd (.inl rfl) hs
    | other ho => exact ho.elim
  refine safe_emitReadlocked (hm.node rfl (by simp) (by simp) (by simp) (by simp))
    (fun h' ha => hlast h' (hsettle true h' ha)) fun h' ha => ?_
  obtain ⟨hnode, hstep⟩ := (hsettle false h' ha).unnoticed
    (o := ⟨.emitReadlocked, .clear (.writeFault s.incomingRequest)⟩) trivial (by simp)
  refine ⟨hnode, fun x h'' hx => ?_⟩
  obtain ⟨hnode', hstep'⟩ := (hstep x h'' hx).unnoticed
    (o := ⟨.emitReadlocked, .clear (.writeAck s.incomingRequest)⟩) trivial (by simp)
  exact ⟨hnode', fun y h₃ hy => hlast h₃ (hstep' y h₃ hy)⟩

/-- **`emit_transfer`** drops the request that has been acknowledged. -/
theorem accept (hm : Mid D stop apart r R s h) :
    ((emitTransfer s.waitingConfirmation).run { s with
      transfer := Function.update s.transfer s.waitingConfirmation true }).Safe
      ((turnsOutline D stop apart).rules r) (fun s' _ h' => s' = { s with
          transfer := Function.update s.transfer s.waitingConfirmation true }
        ∧ Mid D stop apart r R { s' with vars.acknowledgeRequested := false } h') h := by
  have hm' : Mid D stop apart r R { s with
      transfer := Function.update s.transfer s.waitingConfirmation true } h :=
    hm.state (fun _ hj => hj) fun _ hj => hj
  refine safe_emitTransfer (hm'.node rfl (by simp) (by simp) (by simp) (by simp)) ?_
  rintro a h' ⟨h₁, hr, hs⟩
  refine ⟨rfl, ?_⟩
  cases hs with
  | settle =>
    refine Mid.drop ((hm'.rely hr).state (fun _ hj => hj) fun j hj => ?_) ?_
    · simp [Endpoint.awaits] at hj
    · simp [Endpoint.awaits]
  | miss hs => exact absurd (.inr rfl) hs
  | peek hs => exact absurd (.inr rfl) hs
  | other ho => exact ho.elim

/-- **`emit_received`** unlocks the object. -/
theorem received (hm : Mid D stop apart r R s h) :
    ((emitReceived s.readDestination).run { s with
      readLock := Function.update s.readLock s.readDestination false
      receiveLock := false }).Safe ((turnsOutline D stop apart).rules r)
      (fun s' _ h' => s' = { s with
          readLock := Function.update s.readLock s.readDestination false
          receiveLock := false }
        ∧ Mid D stop apart r R { s' with readDestinationPos := 0, history.stored := [] } h') h := by
  have hm' : Mid D stop apart r R { s with
      readLock := Function.update s.readLock s.readDestination false
      receiveLock := false } h :=
    hm.state (fun j hj => by
      by_cases hd : j = s.readDestination
      · simp [hd] at hj
      · simpa [hd] using hj) fun _ hj => hj
  refine safe_emitReceived ((assignStarted_keeps (fun o h ho hm => hm.unnoticed
    (by cases ho <;> trivial) fun hf => by cases ho <;> cases hf) hm').imp ?_)
  rintro s' _ h' ⟨rfl, hm''⟩
  obtain ⟨hnode, hstep⟩ := hm''.unnoticed
    (o := ⟨.emitReceived, .clear (.readAck s.readDestination)⟩) trivial (by simp)
  exact ⟨hnode, fun y h'' hy =>
    ⟨rfl, (hstep y h'' hy).state (fun _ hj => hj) fun _ hj => hj⟩⟩

end Mid

end Turns

/-- A guard of the two ends, for a cycle before which they were `R`. -/
theorem turnsGuard (D : DescriptorHelper) (stop apart : Prop) (r : Role) (R : Role → Endpoint) :
    Guard D stop (fun j => (R r.peer).awaits j = true) (turnsAllow D stop apart)
      (fun e => e = .syncedStatusHasNotBeenOverridenWhenReadlockWasAcquired ∧ ¬ apart)
      ((turnsOutline D stop apart).rules r) (Turns.Mid D stop apart r R) where
  error s e h he hm := ⟨he.1, he.2, hm.busy⟩
  frame s s' h hf hm := hm.state (fun j hj => hf.readLock ▸ hj) fun j hj => by
    simp only [Endpoint.awaits, Bool.and_eq_true, decide_eq_true_eq] at hj ⊢
    exact ⟨hf.requested ▸ hj.1, hf.confirmation hj.1 ▸ hj.2⟩
  quiet s o h ho hm := hm.unnoticed (by cases ho <;> trivial) fun hf => by
    cases ho <;> first | assumption | cases hf
  interrupted hstop s h hm := emitInterrupted_keeps
    (fun o h ho hm => hm.unnoticed (by cases ho <;> trivial) fun _ => hstop) hm
    fun _ hm' => ⟨rfl, hm'⟩
  checkSync _ _ _ _ hsite hm := hm.checkSync hsite
  notified s h hm := by
    refine ⟨hm.node rfl (by simp) (by simp) (by simp) (by simp), fun b h' => ?_⟩
    rintro ⟨h₁, hr, hs⟩
    cases hs with
    | notified told =>
      exact ⟨hm.rely hr, fun hb => ⟨fun _ => told hb, fun _ j hf => by cases hf⟩⟩
    | other ho => exact ho.elim
  readlock _ _ hm _ _ other may _ _ := hm.readlock other may
  accept _ _ hm _ _ := hm.accept
  sending s s' h hm _ hs := by
    cases hs with
    | held => exact hm
    | first => exact hm.state (fun _ hj => hj) fun _ hj => hj
  load s h hm _ := by
    obtain ⟨hnode, hstep⟩ := hm.unnoticed
      (o := ⟨.writeObject, .load s.writeOrigin s.writeOriginPos⟩) trivial (by simp)
    exact ⟨hnode, fun w h' hw => (hstep w h' hw).state (fun _ hj => hj) fun _ hj => hj⟩
  sent s h hm _ _ _ := by
    obtain ⟨hnode, hstep⟩ := hm.unnoticed
      (o := ⟨.emitSent, .clear (.writeAck s.writeOrigin)⟩) trivial (by simp)
    exact safe_emitSent hnode fun x h' hx =>
      ⟨rfl, (hstep x h' hx).state (fun _ hj => hj) fun _ hj => hj⟩
  receiving s s' h hm _ hr := by
    cases hr with
    | held => exact hm
    | first => exact hm.state (fun _ hj => hj) fun _ hj => hj
  store s b h hm _ := by
    obtain ⟨hnode, hstep⟩ := hm.unnoticed
      (o := ⟨.readObject, .store s.readDestination s.readDestinationPos b⟩) trivial (by simp)
    exact ⟨hnode, fun w h' hw => (hstep w h' hw).state (fun _ hj => hj) fun _ hj => hj⟩
  received _ _ hm _ _ _ _ := hm.received

/-! ## The operations are as followed -/

namespace Turns

variable {s : Endpoint} {h : Turns} {o : Op} {w w' : World}

/-- **An operation of one end does not disturb the other.** -/
theorem Step.rely {a : o.Answer} {h' : Turns} {t : Endpoint}
    (hs : Step D stop apart r s o a h h') (hn : Node D stop apart r s o h) :
    Rely D stop apart r.peer t h h' := by
  have hne : r.peer ≠ r := by cases r <;> decide
  cases hs with
  | miss | notified | other => exact .refl ..
  | @take site b h turn byte =>
    -- who takes the byte has the turn, and the other one waits
    exact
      { rest := rfl
        peek := rfl
        turn := fun hf => absurd (hf.symm.trans turn) hne
        busy := fun _ hf => hne (hf.1.symm.trans turn)
        valid := fun hv => hv.taken byte
        keep := fun _ hp => hp
        fresh := fun _ _ hp => .inl hp }
  | @give site b x h =>
    obtain ⟨hbusy, hown⟩ := hn.busy (by simp)
    exact
      { rest := Function.update_of_ne hne ..
        peek := rfl
        turn := fun hf => absurd (hf.symm.trans hbusy.1) hne
        busy := fun _ hf => by cases hf.2
        valid := fun _ => hn.give_valid
        keep := fun _ hp => hp
        fresh := fun _ _ hp => .inl hp }
  | @settle site j a h =>
    obtain ⟨hbusy, hown⟩ := hn.busy (by simp)
    have hpend : (h.drop r j).pend r.peer = h.pend r.peer := Function.update_of_ne hne ..
    exact
      { rest := rfl
        peek := rfl
        turn := fun _ => ⟨rfl, rfl, rfl⟩
        busy := fun hb => hb
        valid := fun hv => hv.drop hbusy
        keep := fun i hp => hpend ▸ hp
        fresh := fun _ i hp => .inl (hpend ▸ hp) }
  | peek =>
    exact
      { rest := rfl
        peek := Function.update_of_ne hne ..
        turn := fun _ => ⟨rfl, rfl, rfl⟩
        busy := fun hb => hb
        valid := fun hv => hv.setPeek _
        keep := fun _ hp => hp
        fresh := fun _ _ hp => .inl hp }
  | putBack =>
    exact
      { rest := rfl
        peek := Function.update_of_ne hne ..
        turn := fun _ => ⟨rfl, rfl, rfl⟩
        busy := fun hb => hb
        valid := fun hv => hv.setPeek _
        keep := fun _ hp => hp
        fresh := fun _ _ hp => .inl hp }

/-- The board of one end changes, and what is followed of that end with it. -/
theorem Follows.setBoard {h' : Turns} {b : Board} (hf : h.Follows stop apart w)
    (hturn : h'.turn = h.turn) (hbyte : h'.byte = h.byte)
    (hother : h'.pend r.peer = h.pend r.peer ∧ h'.peek r.peer = h.peek r.peer)
    (notified : ¬ stop → b.notified = false)
    (pend : apart → ∀ j, b.flag (.syncMe j) = false → h'.pend r j = true)
    (held : apart → ∀ j, h'.pend r j = true → b.flag (.syncMe j) = false ∨ h'.peek r = some j)
    (peeked : apart → ∀ j, h'.peek r = some j → h'.pend r j = true) :
    h'.Follows stop apart (w.setBoard r b) := by
  have hcases : ∀ r', r' = r ∨ (r' = r.peer ∧ r' ≠ r) := fun r' => by
    cases r <;> cases r' <;> decide
  refine
    { wire := by rw [hturn, hbyte]; exact hf.wire
      notified := fun hs r' => ?_
      pend := fun ha r' j hj => ?_
      held := fun ha r' j hj => ?_
      peeked := fun ha r' j hj => ?_ }
  · rcases hcases r' with rfl | ⟨-, hne⟩
    · rw [World.setBoard_self]
      exact notified hs
    · rw [World.setBoard_of_ne _ hne]
      exact hf.notified hs r'
  · rcases hcases r' with rfl | ⟨hr', hne⟩
    · rw [World.setBoard_self] at hj
      exact pend ha j hj
    · rw [World.setBoard_of_ne _ hne] at hj
      rw [hr', hother.1, ← hr']
      exact hf.pend ha r' j hj
  · rcases hcases r' with rfl | ⟨hr', hne⟩
    · rw [World.setBoard_self]
      exact held ha j hj
    · rw [hr', hother.1, ← hr'] at hj
      rw [World.setBoard_of_ne _ hne, hr', hother.2, ← hr']
      exact hf.held ha r' j hj
  · rcases hcases r' with rfl | ⟨hr', -⟩
    · exact peeked ha j hj
    · rw [hr', hother.2, ← hr'] at hj
      rw [hr', hother.1, ← hr']
      exact hf.peeked ha r' j hj

/-- Looking for a write request, or dealing with one, is followed. -/
theorem Follows.testAndSet {site : Site} {j : ℕ} (hf : h.Follows stop apart w)
    (hn : Node D stop apart r s ⟨site, .testAndSet (.syncMe j)⟩ h) :
    ∃ h', h'.Follows stop apart (w.setBoard r ((w.board r).setFlag (.syncMe j) true))
      ∧ Step D stop apart r s ⟨site, .testAndSet (.syncMe j)⟩ ((w.board r).flag (.syncMe j))
        h h' := by
  have hne : r.peer ≠ r := by cases r <;> decide
  have hnone : h.peek r = none := hn.peek
  have hflag : ∀ i, i ≠ j → ((w.board r).setFlag (.syncMe j) true).flag (.syncMe i)
      = (w.board r).flag (.syncMe i) := fun i hi =>
    Function.update_of_ne (fun hf => hi (Flag.syncMe.inj hf)) ..
  have hself : ((w.board r).setFlag (.syncMe j) true).flag (.syncMe j) = true :=
    Function.update_self ..
  -- what is pending shows on the board, as nothing is being looked at
  have hheld : apart → ∀ i, h.pend r i = true → (w.board r).flag (.syncMe i) = false :=
    fun ha i hi => (hf.held ha r i hi).resolve_right (by simp [hnone])
  have hpend : apart → ∀ i, i ≠ j →
      ((w.board r).setFlag (.syncMe j) true).flag (.syncMe i) = false → h.pend r i = true :=
    fun ha i hi hb => hf.pend ha r i (hflag i hi ▸ hb)
  by_cases hs : site.Settles
  · refine ⟨h.drop r j, hf.setBoard rfl rfl ⟨Function.update_of_ne hne .., rfl⟩
      (fun hs => hf.notified hs r) (fun ha i hi => ?_) (fun ha i hi => ?_)
      (fun ha i hi => absurd (hnone.symm.trans hi) (by simp)), .settle hs⟩
    · by_cases hij : i = j
      · exact absurd (hself.symm.trans (hij ▸ hi)) (by decide)
      · rw [drop_of_ne hij]
        exact hpend ha i hij hi
    · obtain ⟨hi', hij⟩ := drop_pend hi
      exact .inl ((hflag i (hij rfl)).trans (hheld ha i hi'))
  · cases hx : (w.board r).flag (.syncMe j) with
    | true =>
      refine ⟨h, hf.setBoard rfl rfl ⟨rfl, rfl⟩ (fun hs => hf.notified hs r)
        (fun ha i hi => ?_) (fun ha i hi => ?_) (fun ha i hi => hf.peeked ha r i hi), .miss hs⟩
      · by_cases hij : i = j
        · exact absurd (hself.symm.trans (hij ▸ hi)) (by decide)
        · exact hpend ha i hij hi
      · have hij : i ≠ j := by
          rintro rfl
          exact absurd (hx.symm.trans (hheld ha i hi)) (by decide)
        exact .inl ((hflag i hij).trans (hheld ha i hi))
    | false =>
      have hj : apart → h.pend r j = true := fun ha => hf.pend ha r j hx
      have hpeek : (h.setPeek r (some j)).peek r = some j := Function.update_self ..
      refine ⟨h.setPeek r (some j), hf.setBoard rfl rfl ⟨rfl, Function.update_of_ne hne ..⟩
        (fun hs => hf.notified hs r) (fun ha i hi => ?_) (fun ha i hi => ?_)
        (fun ha i hi => ?_), .peek hs hj⟩
      · by_cases hij : i = j
        · exact hij ▸ hj ha
        · exact hpend ha i hij hi
      · by_cases hij : i = j
        · exact .inr (hij ▸ hpeek)
        · exact .inl ((hflag i hij).trans (hheld ha i hi))
      · obtain rfl := Option.some.inj (hpeek.symm.trans hi)
        exact hj ha

/-- Putting a flag back is followed. -/
theorem Follows.putBack {site : Site} {j : ℕ} {x : Unit} (hf : h.Follows stop apart w)
    (hn : Node D stop apart r s ⟨site, .clear (.syncMe j)⟩ h) :
    ∃ h', h'.Follows stop apart (w.setBoard r ((w.board r).setFlag (.syncMe j) false))
      ∧ Step D stop apart r s ⟨site, .clear (.syncMe j)⟩ x h h' := by
  have hne : r.peer ≠ r := by cases r <;> decide
  have hpeek : h.peek r = some j := hn.peek
  have hflag : ∀ i, i ≠ j → ((w.board r).setFlag (.syncMe j) false).flag (.syncMe i)
      = (w.board r).flag (.syncMe i) := fun i hi =>
    Function.update_of_ne (fun hf => hi (Flag.syncMe.inj hf)) ..
  have hnone : (h.setPeek r none).peek r = none := Function.update_self ..
  refine ⟨h.setPeek r none, hf.setBoard rfl rfl ⟨rfl, Function.update_of_ne hne ..⟩
    (fun hs => hf.notified hs r) (fun ha i hi => ?_) (fun ha i hi => ?_)
    (fun ha i hi => absurd (hnone.symm.trans hi) (by simp)), .putBack⟩
  · by_cases hij : i = j
    · exact hij ▸ hf.peeked ha r j hpeek
    · exact hf.pend ha r i (hflag i hij ▸ hi)
  · by_cases hij : i = j
    · exact .inl (hij ▸ Function.update_self ..)
    · refine .inl ((hflag i hij).trans ((hf.held ha r i hi).resolve_right fun hp => hij ?_))
      exact Option.some.inj (hp.symm.trans hpeek)

/-- An access that concerns neither a write request nor the link is followed. -/
theorem Follows.unnoticed {a : o.Answer} {b : Board} (hf : h.Follows stop apart w)
    (ho : o.Unnoticed) (htold : o.access = .storeNotified true → stop)
    (hx : Board.exec o.access (w.board r) = some (a, b)) :
    h.Follows stop apart (w.setBoard r b) := by
  obtain ⟨site, acc⟩ := o
  have hflag : ∀ j, b.flag (.syncMe j) = (w.board r).flag (.syncMe j) := fun j => by
    refine Board.exec_flag hx ?_ ?_ ?_ <;>
    · rintro rfl
      exact ho.elim
  refine hf.setBoard rfl rfl ⟨rfl, rfl⟩ (fun hs => ?_)
    (fun ha j hj => hf.pend ha r j (hflag j ▸ hj)) (fun ha j hj => ?_) (fun ha => hf.peeked ha r)
  · by_cases hn : ∃ v, acc = .storeNotified v
    · obtain ⟨v, rfl⟩ := hn
      cases v with
      | true => exact absurd (htold rfl) hs
      | false =>
        obtain ⟨-, rfl⟩ := Prod.mk.inj (Option.some.inj hx)
        rfl
    · rw [Board.exec_notified hx fun v hv => hn ⟨v, hv⟩]
      exact hf.notified hs r
  · rw [hflag j]
    exact hf.held ha r j hj

/-- **Every operation is followed.** -/
theorem Follows.step {a : o.Answer} (hf : h.Follows stop apart w)
    (hn : Node D stop apart r s o h) (hx : World.exec r o.access w = some (a, w'))
    (hdrain : o.access = .loadNotified → (w.board r).notified = true →
      s.vars.sentComShutdown = false → ∀ j < D.count, s.transfer j = false) :
    ∃ h', h'.Follows stop apart w' ∧ Step D stop apart r s o a h h' := by
  obtain ⟨site, acc⟩ := o
  -- most operations concern neither the token nor a request
  by_cases ho : (⟨site, acc⟩ : Op).Unnoticed
  · obtain ⟨b, hb, rfl⟩ := World.exec_board (by rintro rfl; exact ho) (by rintro _ rfl; exact ho) hx
    exact ⟨h, hf.unnoticed ho hn.told hb, .other ho⟩
  cases acc with
  | handshake =>
    obtain ⟨hw, rfl⟩ := World.exec_handshake hx
    obtain ⟨b, hbyte, hturn⟩ := Option.map_eq_some_iff.mp (hf.wire.symm.trans hw)
    obtain ⟨rfl, rfl⟩ := Prod.mk.inj hturn
    exact ⟨{ h with byte := none },
      { wire := rfl, notified := hf.notified, pend := hf.pend, held := hf.held,
        peeked := hf.peeked }, .take rfl hbyte⟩
  | handshakeAck b =>
    obtain rfl := World.exec_handshakeAck hx
    exact ⟨h.give r s b,
      { wire := rfl, notified := hf.notified, pend := hf.pend, held := hf.held,
        peeked := hf.peeked }, .give⟩
  | testAndSet f =>
    cases f with
    | syncMe j =>
      obtain ⟨b, hb, rfl⟩ := World.exec_board (by simp) (by simp) hx
      obtain ⟨rfl, rfl⟩ := Prod.mk.inj (Option.some.inj hb)
      exact hf.testAndSet hn
    | _ => exact absurd trivial ho
  | clear f =>
    cases f with
    | syncMe j =>
      obtain ⟨b, hb, rfl⟩ := World.exec_board (by simp) (by simp) hx
      obtain ⟨rfl, rfl⟩ := Prod.mk.inj (Option.some.inj hb)
      exact hf.putBack hn
    | _ => exact absurd trivial ho
  | acquire f =>
    cases f with
    | syncMe j => exact absurd rfl (hn.acquire j)
    | _ => exact absurd trivial ho
  | loadNotified =>
    obtain ⟨b, hb, rfl⟩ := World.exec_board (by simp) (by simp) hx
    obtain ⟨rfl, rfl⟩ := Prod.mk.inj (Option.some.inj hb)
    refine ⟨h, hf.setBoard rfl rfl ⟨rfl, rfl⟩ (fun hs => hf.notified hs r)
      (fun ha => hf.pend ha r) (fun ha => hf.held ha r) (fun ha => hf.peeked ha r),
      .notified fun hb => ⟨?_, hdrain rfl hb⟩⟩
    by_contra hs
    exact absurd ((hf.notified hs r).symm.trans hb) (by decide)
  | _ => exact absurd trivial ho

end Turns

/-- An end that is not in its cycle is as it has handed the token on. -/
theorem turnsOutline_state {σ : (link D).State} {h : Turns}
    (hk : (turnsOutline D stop apart).Keeps σ h) (hb : ¬ h.Busy r) :
    Between (σ.thread r) (h.rest r) ∧ h.Valid D stop apart := by
  cases hp : σ.thread r with
  | ret s x =>
    have hr : Turns.AtRest D stop apart r s h := hk.rest hp
    exact ⟨.inl (hr.state ▸ rfl), hr.valid⟩
  | fail s e => exact absurd (hk.error hp).2.2 hb
  | op s o k =>
    obtain ⟨site, a⟩ := o
    have hn : Turns.Node D stop apart r s ⟨site, a⟩ h := hk.node hp
    by_cases ho : a = .handshake
    · subst ho
      exact ⟨.inr ⟨site, k, (hn.take rfl).1 ▸ rfl⟩, hn.valid⟩
    · exact absurd (hn.busy ho).1 hb

/-- What is looked at is looked at by the thread. -/
theorem turnsOutline_peek {σ : (link D).State} {h : Turns} {j : ℕ} (ha : apart)
    (hk : (turnsOutline D stop apart).Keeps σ h) (hj : h.peek r = some j) :
    Peeking (σ.thread r) j := by
  cases hp : σ.thread r with
  | ret s x => exact absurd ((hk.rest hp).peek.symm.trans hj) (by simp)
  | fail s e => exact absurd ha (hk.error hp).2.1
  | op s o k =>
    obtain ⟨site, a⟩ := o
    have hn : Turns.Node D stop apart r s ⟨site, a⟩ h := hk.node hp
    have hpeeks : (⟨site, a⟩ : Op).peeks = some j := hn.peek.symm.trans hj
    cases a with
    | clear f =>
      cases f with
      | syncMe i =>
        obtain rfl := Option.some.inj hpeeks
        exact ⟨s, site, k, rfl⟩
      | _ => cases hpeeks
    | _ => cases hpeeks

/-- The requests the environment has made are pending. -/
def Turns.noticing (h : Turns) (w : World) : Turns :=
  { h with pend := fun r j => h.pend r j || !(w.board r).flag (.syncMe j) }

/-- **A change of the environment is followed.** -/
theorem Turns.Follows.outside {σ : (link D).State} {h : Turns} {w : World}
    (hk : (turnsOutline D stop apart).Keeps σ h) (ho : Outside stop apart σ w) :
    ∃ h', Turns.Follows stop apart h' w
      ∧ ∀ r, Turns.Rely D stop apart r (σ.thread r).state h h' := by
  have hf : h.Follows stop apart σ.world := hk.1
  have hkeep : ∀ r j, h.pend r j = true → (h.noticing w).pend r j = true :=
    fun r j hj => by simp [Turns.noticing, hj]
  -- a pending request is an old one, or the environment has just made it
  have hnew : apart → ∀ r j, (h.noticing w).pend r j = true → h.pend r j = true
      ∨ ((σ.world.board r).flag (.syncMe j) = true ∧ (w.board r).flag (.syncMe j) = false) := by
    intro ha r j hj
    by_cases hp : h.pend r j = true
    · exact .inl hp
    · refine .inr ⟨?_, by simpa [Turns.noticing, hp] using hj⟩
      by_contra hc
      exact hp (hf.pend ha r j (by simpa using hc))
  have hclear : apart → ∀ r j, (σ.world.board r).flag (.syncMe j) = true →
      (w.board r).flag (.syncMe j) = false → (h.noticing w).pend r.peer j = false := by
    intro ha r j hσ hw
    obtain ⟨hpeer, hpeek, -⟩ := (ho.apart ha).request r j hσ hw
    by_contra hc
    have hold : h.pend r.peer j = true := by simpa [Turns.noticing, hpeer] using hc
    rcases hf.held ha r.peer j hold with hflag | hlook
    · exact absurd (hpeer.symm.trans ((ho.apart ha).only r.peer j hflag)) (by decide)
    · exact hpeek (turnsOutline_peek ha hk hlook)
  refine ⟨h.noticing w,
    { wire := ho.intact.trans hf.wire
      notified := fun hs r => ?_
      pend := fun _ r j hj => by simp [Turns.noticing, hj]
      held := fun ha r j hj => ?_
      peeked := fun ha r j hj => hkeep r j (hf.peeked ha r j hj) }, fun r =>
    { rest := rfl
      peek := rfl
      turn := fun _ => ⟨rfl, rfl, rfl⟩
      busy := fun hb => hb
      valid := fun hv => ?_
      keep := hkeep r
      fresh := fun ha j hj => ?_ }⟩
  · by_contra hc
    exact absurd ((hf.notified hs r).symm.trans (ho.quiet hs r (by simpa using hc))) (by decide)
  · rcases hnew ha r j hj with hp | ⟨-, hw⟩
    · exact (hf.held ha r j hp).imp ((ho.apart ha).only r j) id
    · exact .inl hw
  · refine { hv with disjoint := fun ha r' j hj => ?_, owns := fun ha r' hb => ?_ }
    · by_contra hc
      rcases hnew ha r' j hj with hp | ⟨hσ, hw⟩
      · rcases hnew ha r'.peer j (by simpa using hc) with hp' | ⟨hσ, hw⟩
        · exact absurd ((hv.disjoint ha r' j hp).symm.trans hp') (by decide)
        · have := hclear ha r'.peer j hσ hw
          rw [Role.peer_peer] at this
          exact absurd (this.symm.trans hj) (by decide)
      · exact hc (hclear ha r' j hσ hw)
    · have hown := hv.owns ha r' hb
      refine ⟨fun j hj => hkeep r' j (hown.awaited j hj), fun j hj => ?_⟩
      rcases hnew ha r' j hj with hp | ⟨hσ, hw⟩
      · exact hown.free j hp
      · have hlock := ((ho.apart ha).request r' j hσ hw).2.2
        rwa [(turnsOutline_state hk hb).1.state] at hlock
  · exact (hnew ha r j hj).imp id fun hw => ((ho.apart ha).request r j hw.1 hw.2).2.2

/-- The end of a cycle: the token may be handed on. -/
theorem turnsOutline_handOver (hD : D.Triples) {R : Role → Endpoint} {s s' : Endpoint} {h : Turns}
    (hdue : Due D r s (R r.peer))
    (emitted : Emitted (turnsAllow D stop apart) D r { s with waitingConfirmation := numIds } s')
    (hm : Turns.Mid D stop apart r R s' h) :
    ((turnsOutline D stop apart).rules r).node s' ⟨.handshakeAck, .handshakeAck s'.comOut⟩ h
    ∧ ∀ (x : Unit) h', ((turnsOutline D stop apart).rules r).step s'
        ⟨.handshakeAck, .handshakeAck s'.comOut⟩ x h h' →
      Turns.AtRest D stop apart r s' h' := by
  have hfly := hdue.emitted hD turnsAllow_draining emitted
  have hnode : Turns.Node D stop apart r s' ⟨.handshakeAck, .handshakeAck s'.comOut⟩ h :=
    { valid := hm.valid
      peek := hm.peek
      told := by simp
      acquire := by simp
      take := by simp
      busy := fun _ => ⟨hm.busy, hm.owns⟩
      give := fun b hb => by
        cases hb
        refine ⟨rfl, hfly.sender, hm.rest ▸ hfly, fun hs request code => hs ?_⟩
        exact ((hdue.settled.reset.announced emitted request code).1 rfl).1 }
  refine ⟨hnode, ?_⟩
  rintro x h₃ ⟨h₂, hrely, hstep⟩
  cases hstep with
  | other ho => exact ho.elim
  | give =>
    exact
      { valid := (hrely.node hnode).give_valid
        peek := hrely.peek.trans hm.peek
        state := (Function.update_self r s' h₂.rest).symm
        session := hfly.sender
        waiting := fun hf => by cases hf.2 }

/-- **A cycle is safe**, from where the two ends are. -/
theorem turnsOutline_safe (hD : D.Triples) {s : Endpoint} {h : Turns}
    (hr : Turns.AtRest D stop apart r s h) :
    (turnsOutline D stop apart).Safe r ((eventLoop D r).run s) h := by
  change ((eventLoop D r).run s).Safe ((turnsOutline D stop apart).rules r)
    (fun s _ h => Turns.AtRest D stop apart r s h) h
  refine eventLoop_safe hD hr.session (fun _ => hr) (fun hq => ?_) fun hq b h' => ?_
  · exact
      { valid := hr.valid
        peek := hr.peek
        told := by simp
        acquire := by simp
        take := fun _ => ⟨hr.state, hr.session, hq, hr.waiting⟩
        busy := by simp
        give := by simp }
  rintro ⟨h₁, hrely, hstep⟩
  have hr₁ := hrely.atRest hr
  cases hstep with
  | other ho => exact ho.elim
  | take turn byte =>
    subst turn
    obtain rfl := hr₁.state
    obtain ⟨hb, hfly⟩ := hr₁.valid.flying b byte
    have hmid : Turns.Mid D stop apart h₁.turn h₁.rest { h₁.rest h₁.turn with comIn := b }
        { h₁ with byte := none } :=
      { valid := hr₁.valid.taken byte
        peek := hr₁.peek
        busy := ⟨rfl, rfl⟩
        rest := rfl
        owns := fun ha => { hr₁.valid.owns ha h₁.turn hr₁.waiting with } }
    refine ⟨_, _, _, _, _, turnsGuard D stop apart h₁.turn h₁.rest, hmid, fun _ request code => ?_,
      fun first s₁ ht lt => hfly.asks b s₁ first (hb ▸ ht) lt, fun e he => ?_,
      fun s' h'' hc hm => ?_⟩
    · by_contra hs
      exact hr₁.valid.code hs b byte request code
    · obtain ⟨B', -, fault⟩ := hfly.no_fault hb he
      cases fault with
      | readlocked _ _ _ _ told _ locked =>
        exact ⟨rfl, fun ha => absurd ((told.2 ha _ rfl).symm.trans locked) (by decide)⟩
    obtain ⟨heard, emitted⟩ := hc
    have hdue := hfly.heard (by rwa [Role.peer_peer]) hb heard
    rw [Role.peer_peer] at hdue
    exact turnsOutline_handOver hD hdue emitted hm

/-- **A run keeps the outline** if it holds where the run begins. -/
theorem turnsOutline_run (hD : D.Triples) {env : (link D).State → World → Prop}
    {ok : (link D).State → (link D).State → Prop}
    (henv : ∀ σ w, env σ w → Outside stop apart σ w) (hok : stop → ∀ σ σ', ok σ σ' → Drained σ)
    {σ₀ σ : (link D).State} (hσ : (link D).Reaches env ok σ₀ σ)
    (h₀ : ∃ h, (turnsOutline D stop apart).Keeps σ₀ h) :
    ∃ h, (turnsOutline D stop apart).Keeps σ h := by
  refine Pool.Outline.sound (fun σ h r s o k a w hk hp hx hok' => ?_)
    (fun σ h w hk he _ => Turns.Follows.outside hk (henv σ w he))
    (fun r s h hr => turnsOutline_safe hD hr) hσ h₀
  have hn : Turns.Node D stop apart r s o h := hk.node hp
  have hf : h.Follows stop apart σ.world := hk.1
  have hdrain : o.access = .loadNotified → (σ.world.board r).notified = true →
      s.vars.sentComShutdown = false → ∀ j < D.count, s.transfer j = false := by
    intro ho hnot
    by_cases hs : stop
    · obtain ⟨site, acc⟩ := o
      obtain rfl : acc = .loadNotified := ho
      exact hok hs σ _ hok' r s site k hp hnot
    · exact absurd ((hf.notified hs r).symm.trans hnot) (by decide)
  obtain ⟨h', hf', hs⟩ := hf.step hn hx hdrain
  refine ⟨h', hf', hs, fun j hj => ?_⟩
  obtain rfl : j = r.peer := by cases r <;> cases j <;> first | rfl | exact absurd rfl hj
  exact hs.rely hn

/-- **In every run of the two ends the outline is kept.** -/
theorem turnsOutline_keeps (stop apart : Prop) (hD : D.Triples)
    {env : (link D).State → World → Prop} {ok : (link D).State → (link D).State → Prop}
    {obj : Role → ℕ → ℕ → Byte} (henv : ∀ σ w, env σ w → Outside stop apart σ w)
    (hok : stop → ∀ σ σ', ok σ σ' → Drained σ)
    {σ : (link D).State} (hσ : (link D).Reaches env ok (link.start D obj) σ) :
    ∃ h, (turnsOutline D stop apart).Keeps σ h := by
  refine turnsOutline_run hD henv hok hσ ⟨Turns.start, ?_, fun r => ?_⟩
  · have hpend : ∀ r j, ((World.start obj).board r).flag (.syncMe j) = true := fun _ _ => rfl
    exact
      { wire := rfl
        notified := fun _ _ => rfl
        pend := fun _ r j hj => absurd ((hpend r j).symm.trans hj) (by decide)
        held := fun _ _ _ hp => by cases hp
        peeked := fun _ _ _ hp => by cases hp }
  · have hvalid : Turns.Valid D stop apart Turns.start :=
      { plain := fun _ => ⟨fun hs => (by cases hs), fun hs => by cases hs⟩
        flying := fun b hb => ⟨(Option.some.inj hb).symm, .initial⟩
        code := fun _ b hb request => by
          cases Option.some.inj hb
          cases request
        disjoint := fun _ _ _ hp => by cases hp
        owns := fun _ _ _ => ⟨fun _ hj => (by cases hj), fun _ hp => by cases hp⟩ }
    exact
      { valid := hvalid
        peek := rfl
        state := rfl
        session := .initial
        waiting := fun hf => by cases hf.2 }

end SOS
