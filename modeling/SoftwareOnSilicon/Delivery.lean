import SoftwareOnSilicon.Rest
import SoftwareOnSilicon.Round
import SoftwareOnSilicon.Trace

/-!
# The delivery of read ends

What the communication thread completes goes through the resolver to the REST layer. A
cleared `read_ack` waits until a sweep of the resolver takes it; its id is then put into
the one cable `readEndId`, announced by `read_end_updated`, and read by the REST layer.

`Delivery` is where the ids are on that way. An id is counted at most at one place, so
that none is lost or read twice as long as no id is put into the cable while another is
there (`read_ends_delivered`). Nothing keeps the resolver from doing so, and then a read
end is lost (`read_end_lost`).
-/

namespace SOS

open Interleaving Code

variable {D : DescriptorHelper} {r : Role}

/-! ## The way of an id -/

/-- **What the resolver has in hand** while it resolves an object. -/
inductive Hand where
  | empty
  /-- It has found `read_ack` cleared. -/
  | taken (j : ℕ)
  /-- It has found that no fault is reported. -/
  | cleared (j : ℕ)
  /-- It has found that a fault is reported, and stops. -/
  | failed (j : ℕ)
  deriving DecidableEq

/-- The object it has in hand. -/
def Hand.object : Hand → Option ℕ
  | empty => none
  | taken j => some j
  | cleared j => some j
  | failed j => some j

/-- **What is in the cable `readEndId`** for the REST layer. -/
inductive Mail where
  | empty
  /-- The id has been stored, and the read end is queued. -/
  | queued (j : ℕ)
  /-- `read_end_updated` has been cleared. -/
  | announced (j : ℕ)
  /-- The REST layer has found it cleared. -/
  | found (j : ℕ)
  deriving DecidableEq

namespace Mail

/-- The id in it. -/
def letter : Mail → Option ℕ
  | empty => none
  | queued j => some j
  | announced j => some j
  | found j => some j

/-- `read_end_updated` is cleared. -/
def announce : Mail → Mail
  | queued j => announced j
  | m => m

/-- The REST layer finds it cleared. -/
def find : Mail → Mail
  | announced j => found j
  | m => m

end Mail

/-- **Where the ids of the table are** on the way to the REST layer. -/
structure Delivery where
  /-- `read_ack` has been cleared. -/
  waiting : ℕ → Bool := fun _ => false
  /-- `read_fault` has been cleared. -/
  fault : ℕ → Bool := fun _ => false
  /-- `read_ack` has been cleared since the last trigger. -/
  dirty : Bool := false
  /-- The objects the sweep still looks at. -/
  ahead : List ℕ := []
  hand : Hand := .empty
  mail : Mail := .empty

/-- What is observed of the read ends. -/
inductive ReadEndEvent where
  /-- `emit_received` clears `read_ack`. -/
  | completed (j : ℕ)
  /-- The REST layer reads the id of a read end. -/
  | processed (j : ℕ)
  deriving DecidableEq

/-- What an operation shows. -/
def readEnds : Pool.Observer Server.Private Op.Answer ReadEndEvent
  | _, _, ⟨.emitReceived, .clear (.readAck j)⟩, _ => [.completed j]
  | _, _, ⟨.restEventLoop, .loadReadEndId⟩, j => [.processed j]
  | _, _, _, _ => []

/-- The ids that have been completed. -/
def completed (l : List ReadEndEvent) : List ℕ :=
  l.filterMap fun
    | .completed j => some j
    | .processed _ => none

/-- The ids that the REST layer has read. -/
def processed (l : List ReadEndEvent) : List ℕ :=
  l.filterMap fun
    | .completed _ => none
    | .processed j => some j

@[simp] theorem completed_nil : completed [] = [] := rfl

@[simp] theorem processed_nil : processed [] = [] := rfl

@[simp] theorem completed_completed (l : List ReadEndEvent) (j : ℕ) :
    completed (l ++ [.completed j]) = completed l ++ [j] := by
  simp [completed]

@[simp] theorem completed_processed (l : List ReadEndEvent) (j : ℕ) :
    completed (l ++ [.processed j]) = completed l := by
  simp [completed]

@[simp] theorem processed_completed (l : List ReadEndEvent) (j : ℕ) :
    processed (l ++ [.completed j]) = processed l := by
  simp [processed]

@[simp] theorem processed_processed (l : List ReadEndEvent) (j : ℕ) :
    processed (l ++ [.processed j]) = processed l ++ [j] := by
  simp [processed]

/-- An operation that does not concern the way of an id. -/
def Op.Aside : Op → Prop
  | ⟨_, .testAndSet (.readAck _)⟩ => False
  | ⟨_, .testAndSet (.readFault _)⟩ => False
  | ⟨_, .testAndSet .triggerResolve⟩ => False
  | ⟨_, .testAndSet .readEndUpdated⟩ => False
  | ⟨_, .clear (.readAck _)⟩ => False
  | ⟨_, .clear (.readFault _)⟩ => False
  | ⟨_, .clear .triggerResolve⟩ => False
  | ⟨_, .clear .readEndUpdated⟩ => False
  | ⟨_, .acquire f⟩ => f = .descriptorsUpdated ∨ f = .readEndAcknowledge
  | ⟨_, .storeReadEndId _⟩ => False
  | ⟨.restEventLoop, .loadReadEndId⟩ => False
  | ⟨_, .handshake⟩ => False
  | _ => True

namespace Delivery

/-- What an operation does to it. -/
def after (D : DescriptorHelper) (h : Delivery) : (o : Op) → o.Answer → Delivery
  | ⟨_, .clear (.readAck j)⟩, _ =>
    if j < D.count then { h with waiting := Function.update h.waiting j true, dirty := true }
    else h
  | ⟨_, .clear (.readFault j)⟩, _ =>
    if j < D.count then { h with fault := Function.update h.fault j true } else h
  | ⟨_, .clear .triggerResolve⟩, _ => { h with dirty := false }
  | ⟨_, .testAndSet .triggerResolve⟩, false => { h with ahead := D.ids }
  | ⟨_, .testAndSet (.readAck _)⟩, true => { h with ahead := h.ahead.tail }
  | ⟨_, .testAndSet (.readAck j)⟩, false => { h with
      ahead := h.ahead.tail
      waiting := Function.update h.waiting j false
      hand := .taken j }
  | ⟨_, .testAndSet (.readFault j)⟩, true => { h with hand := .cleared j }
  | ⟨_, .testAndSet (.readFault j)⟩, false => { h with hand := .failed j }
  | ⟨_, .storeReadEndId j⟩, _ => { h with hand := .empty, mail := .queued j }
  | ⟨_, .clear .readEndUpdated⟩, _ => { h with mail := h.mail.announce }
  | ⟨_, .testAndSet .readEndUpdated⟩, false => { h with mail := h.mail.find }
  | ⟨.restEventLoop, .loadReadEndId⟩, _ => { h with mail := .empty }
  | _, _ => h

/-- **A fault that has been reported is going to be found.** -/
def Reported (h : Delivery) (j : ℕ) : Prop :=
  h.fault j = true → h.waiting j = true ∨ h.hand = .taken j ∨ h.hand = .failed j

/-- **What has to hold before an operation** of a thread. -/
inductive Pre (D : DescriptorHelper) : Server → Delivery → Op → Prop
  | take {h : Delivery} (reported : ∀ j, h.Reported j) (clean : h.dirty = false) :
    Pre D .communication h ⟨.handshake, .handshake⟩
  | report {h : Delivery} {j : ℕ} (hj : j < D.count) :
    Pre D .communication h ⟨.emitReceived, .clear (.readAck j)⟩
  | fault {h : Delivery} {j : ℕ} :
    Pre D .communication h ⟨.emitInterrupted, .clear (.readFault j)⟩
  | interrupt {h : Delivery} {j : ℕ} (hj : j < D.count → h.fault j = true) :
    Pre D .communication h ⟨.emitInterrupted, .clear (.readAck j)⟩
  | trigger {h : Delivery} : Pre D .communication h ⟨.triggerResolve, .clear .triggerResolve⟩
  | sweep {h : Delivery} (ahead : h.ahead = []) (hand : h.hand = .empty) :
    Pre D .resolver h ⟨.resolverEventLoop, .testAndSet .triggerResolve⟩
  | look {h : Delivery} {j : ℕ} {is : List ℕ} (hj : j < D.count) (ahead : h.ahead = j :: is)
      (hand : h.hand = .empty) : Pre D .resolver h ⟨.resolve, .testAndSet (.readAck j)⟩
  | check {h : Delivery} {j : ℕ} (hj : j < D.count) (hand : h.hand = .taken j) :
    Pre D .resolver h ⟨.resolve, .testAndSet (.readFault j)⟩
  | store {h : Delivery} {j : ℕ} (hand : h.hand = .cleared j) :
    Pre D .resolver h ⟨.resolve, .storeReadEndId j⟩
  | announce {h : Delivery} {j : ℕ} (mail : h.mail = .queued j) :
    Pre D .resolver h ⟨.readEnd, .clear .readEndUpdated⟩
  | peek {h : Delivery} (mail : ∀ j, h.mail ≠ .found j) :
    Pre D .rest h ⟨.restEventLoop, .testAndSet .readEndUpdated⟩
  | read {h : Delivery} {j : ℕ} (mail : h.mail = .found j) :
    Pre D .rest h ⟨.restEventLoop, .loadReadEndId⟩
  | other {i : Server} {h : Delivery} {o : Op} (aside : o.Aside)
      (mail : i = .rest → ∀ j, h.mail ≠ .found j) : Pre D i h o

/-- **The board is as the delivery says.** -/
structure Follows (D : DescriptorHelper) (h : Delivery) (b : Board) : Prop where
  ack : ∀ j < D.count, b.flag (.readAck j) = !h.waiting j
  fault : ∀ j < D.count, h.fault j = true → b.flag (.readFault j) = false ∨ h.hand = .failed j
  reported : ∀ j < D.count, b.flag (.readFault j) = false → h.fault j = true
  /-- What waits is looked at. -/
  sweep : ∀ j < D.count, h.waiting j = true →
    h.dirty = true ∨ b.flag .triggerResolve = false ∨ j ∈ h.ahead
  updated : b.flag .readEndUpdated = false ↔ ∃ j, h.mail = .announced j
  letter : ∀ j, h.mail.letter = some j → b.readEndId = j
  table : ∀ j, D.count ≤ j → h.waiting j = false ∧ h.fault j = false

/-- What an answer tells. -/
def Told (h : Delivery) : (o : Op) → o.Answer → Prop
  | ⟨_, .testAndSet (.readAck j)⟩, a => @Eq Bool a (!h.waiting j)
  | ⟨_, .testAndSet (.readFault j)⟩, a => @Eq Bool a (!h.fault j)
  | ⟨_, .testAndSet .readEndUpdated⟩, a => @Eq Bool a false ↔ ∃ j, h.mail = .announced j
  | ⟨.restEventLoop, .loadReadEndId⟩, a => ∀ j, h.mail = .found j → a = j
  | _, _ => True

/-- **What a thread relies on.** -/
structure Rely (i : Server) (h h' : Delivery) : Prop where
  /-- Only the communication thread clears `read_ack` and `read_fault`. -/
  comm : i = .communication →
    h'.dirty = h.dirty ∧ h'.fault = h.fault ∧ ∀ j, h.Reported j → h'.Reported j
  /-- Only the resolver sweeps, and puts ids into the cable. -/
  resolver : i = .resolver →
    h'.ahead = h.ahead ∧ h'.hand = h.hand ∧ ∀ j, h'.mail = .queued j ↔ h.mail = .queued j
  /-- Only the REST layer takes them out. -/
  rest : i = .rest → ∀ j, h'.mail = .found j ↔ h.mail = .found j

/-- **What is known where an operation is performed**: an id is put into the cable only
if there is none. -/
structure Ready (D : DescriptorHelper) (i : Server) (h : Delivery) (o : Op) : Prop where
  pre : Pre D i h o
  store : ∀ j, o = ⟨.resolve, .storeReadEndId j⟩ → h.mail = .empty

variable {h h' h'' : Delivery} {b b' : Board} {i i' : Server} {o : Op} {j : ℕ}

theorem after_aside {a : o.Answer} (ho : o.Aside) : h.after D o a = h := by
  obtain ⟨site, acc⟩ := o
  cases acc with
  | clear f => cases f <;> first | rfl | exact ho.elim
  | testAndSet f => cases f <;> first | rfl | exact ho.elim
  | loadReadEndId => cases site <;> first | rfl | exact ho.elim
  | storeReadEndId => exact ho.elim
  | _ => rfl

theorem readEnds_aside {s : i.Private} {a : o.Answer} (ho : o.Aside) :
    readEnds i s o a = [] := by
  obtain ⟨site, acc⟩ := o
  cases acc with
  | clear f => cases f <;> first | (cases site <;> rfl) | exact ho.elim
  | loadReadEndId => cases site <;> first | rfl | exact ho.elim
  | _ => cases site <;> rfl

namespace Rely

theorem refl (i : Server) (h : Delivery) : Rely i h h where
  comm _ := ⟨rfl, rfl, fun _ hj => hj⟩
  resolver _ := ⟨rfl, rfl, fun _ => .rfl⟩
  rest _ _ := .rfl

theorem trans (h₁ : Rely i h h') (h₂ : Rely i h' h'') : Rely i h h'' where
  comm hi := by
    obtain ⟨hdirty, hfault, hreported⟩ := h₁.comm hi
    obtain ⟨hdirty', hfault', hreported'⟩ := h₂.comm hi
    exact ⟨hdirty'.trans hdirty, hfault'.trans hfault, fun j hj => hreported' j (hreported j hj)⟩
  resolver hi := by
    obtain ⟨hahead, hhand, hmail⟩ := h₁.resolver hi
    obtain ⟨hahead', hhand', hmail'⟩ := h₂.resolver hi
    exact ⟨hahead'.trans hahead, hhand'.trans hhand, fun j => (hmail' j).trans (hmail j)⟩
  rest hi j := (h₂.rest hi j).trans (h₁.rest hi j)

end Rely

/-- What is asserted before an operation survives interference. -/
theorem Pre.stable (hp : Pre D i h o) (hr : Rely i h h') : Pre D i h' o := by
  cases hp with
  | take reported clean =>
    obtain ⟨hdirty, -, hreported⟩ := hr.comm rfl
    exact .take (fun j => hreported j (reported j)) (hdirty.trans clean)
  | report hj => exact .report hj
  | fault => exact .fault
  | interrupt hj => exact .interrupt fun hlt => (congrFun (hr.comm rfl).2.1 _).trans (hj hlt)
  | trigger => exact .trigger
  | sweep ahead hand =>
    obtain ⟨hahead, hhand, -⟩ := hr.resolver rfl
    exact .sweep (hahead.trans ahead) (hhand.trans hand)
  | look hj ahead hand =>
    obtain ⟨hahead, hhand, -⟩ := hr.resolver rfl
    exact .look hj (hahead.trans ahead) (hhand.trans hand)
  | check hj hand => exact .check hj ((hr.resolver rfl).2.1.trans hand)
  | store hand => exact .store ((hr.resolver rfl).2.1.trans hand)
  | announce mail => exact .announce (((hr.resolver rfl).2.2 _).mpr mail)
  | peek mail => exact .peek fun j hj => mail j ((hr.rest rfl j).mp hj)
  | read mail => exact .read ((hr.rest rfl _).mpr mail)
  | other aside mail => exact .other aside fun hi j hj => mail hi j ((hr.rest hi j).mp hj)

/-- What the communication thread does. -/
theorem Rely.of_comm (hi : i ≠ .communication) (ahead : h'.ahead = h.ahead)
    (hand : h'.hand = h.hand) (mail : h'.mail = h.mail) : Rely i h h' where
  comm hf := absurd hf hi
  resolver _ := ⟨ahead, hand, fun j => by rw [mail]⟩
  rest _ j := by rw [mail]

/-- What the resolver does. -/
theorem Rely.of_resolver (hi : i ≠ .resolver) (dirty : h'.dirty = h.dirty)
    (fault : h'.fault = h.fault) (reported : ∀ j, h.Reported j → h'.Reported j)
    (mail : ∀ j, h'.mail = .found j ↔ h.mail = .found j) : Rely i h h' where
  comm _ := ⟨dirty, fault, reported⟩
  resolver hf := absurd hf hi
  rest _ := mail

/-- What the REST layer does. -/
theorem Rely.of_rest (hi : i ≠ .rest)
    (mail : ∀ j, h'.mail = .queued j ↔ h.mail = .queued j)
    (same : h' = { h with mail := h'.mail }) : Rely i h h' where
  comm _ := by
    rw [same]
    exact ⟨rfl, rfl, fun _ hj => hj⟩
  resolver _ := by
    refine ⟨?_, ?_, mail⟩
    · rw [same]
    · rw [same]
  rest hf := absurd hf hi

/-- A fault of which the resolver does not hold the object waits. -/
theorem Reported.waiting (hk : h.Reported j) (hf : h.fault j = true) (htaken : h.hand ≠ .taken j)
    (hfailed : h.hand ≠ .failed j) : h.waiting j = true :=
  (hk hf).resolve_right fun hw => hw.elim htaken hfailed

/-- The resolver takes an object. -/
theorem Reported.look {a : Bool} {k : ℕ} (hk : h.Reported k) (hand : h.hand = .empty) :
    (h.after D ⟨.resolve, .testAndSet (.readAck j)⟩ a).Reported k := by
  intro hf
  cases a with
  | true => exact hk hf
  | false =>
    by_cases hkj : k = j
    · exact .inr (.inl (by rw [hkj]; rfl))
    · refine .inl ?_
      show Function.update h.waiting j false k = true
      rw [Function.update_of_ne hkj]
      exact hk.waiting hf (by rw [hand]; simp) (by rw [hand]; simp)

/-- It finds the fault of the object it has taken. -/
theorem Reported.check {a : Bool} {k : ℕ} (hk : h.Reported k) (hand : h.hand = .taken j)
    (ht : a = !h.fault j) : (h.after D ⟨.resolve, .testAndSet (.readFault j)⟩ a).Reported k := by
  intro hf
  have hfault : h.fault k = true := by cases a <;> exact hf
  by_cases hkj : k = j
  · subst hkj
    rw [hfault] at ht
    subst ht
    exact .inr (.inr rfl)
  · have hwaiting : h.waiting k = true :=
      hk.waiting hfault (by rw [hand]; simpa using Ne.symm hkj) (by rw [hand]; simp)
    exact .inl (by cases a <;> exact hwaiting)

/-- **An operation leaves to the other threads what they rely on.** -/
theorem Ready.rely {a : o.Answer} (hp : Ready D i h o) (ht : h.Told o a) (hi : i' ≠ i) :
    Rely i' h (h.after D o a) := by
  obtain ⟨hpre, hstore⟩ := hp
  cases hpre with
  | take => exact .refl i' h
  | report hj =>
    show Rely i' h (if _ then _ else _)
    rw [if_pos hj]
    exact .of_comm hi rfl rfl rfl
  | fault =>
    show Rely i' h (if _ then _ else _)
    split
    · exact .of_comm hi rfl rfl rfl
    · exact .refl i' h
  | interrupt =>
    show Rely i' h (if _ then _ else _)
    split
    · exact .of_comm hi rfl rfl rfl
    · exact .refl i' h
  | trigger => exact .of_comm hi rfl rfl rfl
  | sweep =>
    cases a with
    | true => exact .refl i' h
    | false => exact .of_resolver hi rfl rfl (fun _ hj => hj) fun _ => .rfl
  | look hj ahead hand =>
    cases a <;> exact .of_resolver hi rfl rfl (fun _ hk => hk.look hand) fun _ => .rfl
  | check hj hand =>
    cases a <;> exact .of_resolver hi rfl rfl (fun _ hk => hk.check hand ht) fun _ => .rfl
  | store hand =>
    refine .of_resolver hi rfl rfl (fun k hk hf => .inl ?_) fun k => ?_
    · exact hk.waiting hf (by rw [hand]; simp) (by rw [hand]; simp)
    · rw [hstore _ rfl]
      exact ⟨(fun hf => by cases hf), (fun hf => by cases hf)⟩
  | announce mail =>
    refine .of_resolver hi rfl rfl (fun _ hj => hj) fun k => ?_
    show h.mail.announce = _ ↔ _
    rw [mail]
    exact ⟨(fun hf => by cases hf), (fun hf => by cases hf)⟩
  | peek =>
    cases a with
    | true => exact .refl i' h
    | false =>
      refine .of_rest hi (fun k => ?_) rfl
      show h.mail.find = _ ↔ _
      cases h.mail <;> simp [Mail.find]
  | read mail =>
    refine .of_rest hi (fun k => ?_) rfl
    rw [mail]
    exact ⟨(fun hf => by cases hf), (fun hf => by cases hf)⟩
  | other aside =>
    rw [after_aside aside]
    exact .refl i' h

namespace Follows

/-- The flags the delivery is about. -/
structure Same (b b' : Board) : Prop where
  ack : ∀ j, b'.flag (.readAck j) = b.flag (.readAck j)
  fault : ∀ j, b'.flag (.readFault j) = b.flag (.readFault j)
  trigger : b'.flag .triggerResolve = b.flag .triggerResolve
  updated : b'.flag .readEndUpdated = b.flag .readEndUpdated
  readEndId : b'.readEndId = b.readEndId

/-- Another flag is set or cleared. -/
theorem Same.setFlag {f : Flag} {v : Bool} (hack : ∀ j, f ≠ .readAck j)
    (hfault : ∀ j, f ≠ .readFault j) (htrigger : f ≠ .triggerResolve)
    (hupdated : f ≠ .readEndUpdated) : Same b (b.setFlag f v) where
  ack j := Function.update_of_ne (hack j).symm ..
  fault j := Function.update_of_ne (hfault j).symm ..
  trigger := Function.update_of_ne htrigger.symm ..
  updated := Function.update_of_ne hupdated.symm ..
  readEndId := rfl

theorem of_same (hf : h.Follows D b) (hs : Same b b') : h.Follows D b' where
  ack j hj := (hs.ack j).trans (hf.ack j hj)
  fault j hj hw := (hf.fault j hj hw).imp_left (hs.fault j).trans
  reported j hj hw := hf.reported j hj ((hs.fault j).symm.trans hw)
  sweep j hj hw := (hf.sweep j hj hw).imp_right (Or.imp_left hs.trigger.trans)
  updated := by rw [hs.updated, hf.updated]
  letter j hj := hs.readEndId.trans (hf.letter j hj)
  table := hf.table

/-- Whether a fault is reported, before it is found. -/
theorem fault_flag (hf : h.Follows D b) (hj : j < D.count) (hand : h.hand ≠ .failed j) :
    b.flag (.readFault j) = !h.fault j := by
  cases hb : b.flag (.readFault j) with
  | false => rw [hf.reported j hj hb, Bool.not_true]
  | true =>
    cases hw : h.fault j with
    | false => rfl
    | true =>
      obtain hfalse | hfailed := hf.fault j hj hw
      · exact absurd (hb.symm.trans hfalse) (by decide)
      · exact absurd hfailed hand

/-- `read_ack` is cleared. -/
theorem clear_ack (hf : h.Follows D b) :
    Delivery.Follows D
      (if j < D.count then { h with waiting := Function.update h.waiting j true, dirty := true }
        else h) (b.setFlag (.readAck j) false) := by
  have hother : ∀ k, k ≠ j → (b.setFlag (.readAck j) false).flag (.readAck k)
      = b.flag (.readAck k) := fun k hk => Function.update_of_ne (by simpa using hk) ..
  split
  case isTrue hj =>
    refine ⟨fun k hk => ?_, hf.fault, hf.reported, fun _ _ _ => .inl rfl, hf.updated, hf.letter,
      fun k hk => ⟨(Function.update_of_ne (hj.trans_le hk).ne' ..).trans (hf.table k hk).1,
        (hf.table k hk).2⟩⟩
    show _ = !Function.update h.waiting j true k
    by_cases hkj : k = j
    · subst hkj
      rw [Function.update_self]
      exact Function.update_self ..
    · rw [Function.update_of_ne hkj, hother k hkj]
      exact hf.ack k hk
  case isFalse hj =>
    refine ⟨fun k hk => ?_, hf.fault, hf.reported, hf.sweep, hf.updated, hf.letter, hf.table⟩
    rw [hother k (by rintro rfl; exact hj hk)]
    exact hf.ack k hk

/-- `read_fault` is cleared. -/
theorem clear_fault (hf : h.Follows D b) :
    Delivery.Follows D
      (if j < D.count then { h with fault := Function.update h.fault j true } else h)
      (b.setFlag (.readFault j) false) := by
  have hother : ∀ k, k ≠ j → (b.setFlag (.readFault j) false).flag (.readFault k)
      = b.flag (.readFault k) := fun k hk => Function.update_of_ne (by simpa using hk) ..
  split
  case isTrue hj =>
    refine ⟨hf.ack, fun k hk hw => ?_, fun k hk hb => ?_, hf.sweep, hf.updated, hf.letter,
      fun k hk => ⟨(hf.table k hk).1,
        (Function.update_of_ne (hj.trans_le hk).ne' ..).trans (hf.table k hk).2⟩⟩
    · by_cases hkj : k = j
      · subst hkj
        exact .inl (Function.update_self ..)
      · rw [hother k hkj]
        have hw' : Function.update h.fault j true k = true := hw
        rw [Function.update_of_ne hkj] at hw'
        exact hf.fault k hk hw'
    · by_cases hkj : k = j
      · subst hkj
        exact Function.update_self ..
      · exact (Function.update_of_ne hkj ..).trans
          (hf.reported k hk ((hother k hkj).symm.trans hb))
  case isFalse hj =>
    have hne : ∀ k, k < D.count → k ≠ j := by
      rintro k hk rfl
      exact hj hk
    refine ⟨hf.ack, fun k hk hw => ?_, fun k hk hb => ?_, hf.sweep, hf.updated, hf.letter,
      hf.table⟩
    · rw [hother k (hne k hk)]
      exact hf.fault k hk hw
    · exact hf.reported k hk ((hother k (hne k hk)).symm.trans hb)

/-- The sweep looks at an object. -/
theorem look {is : List ℕ} (hf : h.Follows D b) (hj : j < D.count) (ahead : h.ahead = j :: is)
    (hand : h.hand = .empty) :
    (h.after D ⟨.resolve, .testAndSet (.readAck j)⟩ (b.flag (.readAck j))).Follows D
      (b.setFlag (.readAck j) true) := by
  have hother : ∀ k, k ≠ j → (b.setFlag (.readAck j) true).flag (.readAck k)
      = b.flag (.readAck k) := fun k hk => Function.update_of_ne (by simpa using hk) ..
  have hself : (b.setFlag (.readAck j) true).flag (.readAck j) = true := Function.update_self ..
  have hahead : ∀ k, k ≠ j → k ∈ h.ahead → k ∈ h.ahead.tail := by
    intro k hkj hk
    rw [ahead] at hk ⊢
    exact (List.mem_cons.mp hk).resolve_left hkj
  have hack := hf.ack j hj
  cases hb : b.flag (.readAck j) with
  | true =>
    -- nothing is there
    have hwaiting : h.waiting j = false := by
      rw [hb] at hack
      simpa using hack.symm
    rw [Board.setFlag_eq_self hb]
    refine { hf with sweep := fun k hk hw => ?_ }
    have hkj : k ≠ j := by
      rintro rfl
      exact absurd (hwaiting.symm.trans hw) (by decide)
    exact (hf.sweep k hk hw).imp_right (Or.imp_right (hahead k hkj))
  | false =>
    refine ⟨fun k hk => ?_, fun k hk hw => ?_, hf.reported, fun k hk hw => ?_, hf.updated,
      hf.letter,
      fun k hk => ⟨(Function.update_of_ne (hj.trans_le hk).ne' ..).trans (hf.table k hk).1,
        (hf.table k hk).2⟩⟩
    · show _ = !Function.update h.waiting j false k
      by_cases hkj : k = j
      · subst hkj
        rw [hself, Function.update_self, Bool.not_false]
      · rw [hother k hkj, Function.update_of_ne hkj]
        exact hf.ack k hk
    · refine .inl ((hf.fault k hk hw).resolve_right ?_)
      rw [hand]
      simp
    · have hw' : Function.update h.waiting j false k = true := hw
      have hkj : k ≠ j := by
        rintro rfl
        rw [Function.update_self] at hw'
        cases hw'
      rw [Function.update_of_ne hkj] at hw'
      exact (hf.sweep k hk hw').imp_right (Or.imp_right (hahead k hkj))

/-- The resolver looks whether a fault is reported. -/
theorem check (hf : h.Follows D b) (hj : j < D.count) (hand : h.hand = .taken j) :
    (h.after D ⟨.resolve, .testAndSet (.readFault j)⟩ (b.flag (.readFault j))).Follows D
      (b.setFlag (.readFault j) true) := by
  have hother : ∀ k, k ≠ j → (b.setFlag (.readFault j) true).flag (.readFault k)
      = b.flag (.readFault k) := fun k hk => Function.update_of_ne (by simpa using hk) ..
  have hself : (b.setFlag (.readFault j) true).flag (.readFault j) = true :=
    Function.update_self ..
  have hfault : ∀ k < D.count, h.fault k = true → b.flag (.readFault k) = false := by
    intro k hk hw
    refine (hf.fault k hk hw).resolve_right ?_
    rw [hand]
    simp
  have hreported : ∀ k < D.count, (b.setFlag (.readFault j) true).flag (.readFault k) = false →
      h.fault k = true := by
    intro k hk hb
    have hkj : k ≠ j := by
      rintro rfl
      exact absurd (hself.symm.trans hb) (by decide)
    exact hf.reported k hk ((hother k hkj).symm.trans hb)
  cases hb : b.flag (.readFault j) with
  | true =>
    rw [Board.setFlag_eq_self hb]
    exact { hf with fault := fun k hk hw => .inl (hfault k hk hw) }
  | false =>
    refine ⟨hf.ack, fun k hk hw => ?_, hreported, hf.sweep, hf.updated, hf.letter,
      hf.table⟩
    by_cases hkj : k = j
    · exact .inr (by rw [hkj]; rfl)
    · rw [hother k hkj]
      exact .inl (hfault k hk hw)

theorem initial (obj : ℕ → ℕ → Byte) : Delivery.Follows D {} (Board.initial obj) where
  ack _ _ := rfl
  fault _ _ hf := by cases hf
  reported _ _ hf := by cases hf
  sweep _ _ hf := by cases hf
  updated := by
    refine ⟨(fun hf => by cases hf), ?_⟩
    rintro ⟨j, hf⟩
    cases hf
  letter _ hf := by cases hf
  table _ _ := ⟨rfl, rfl⟩

/-- The resolver is triggered, and begins a sweep. -/
theorem sweepStarted (hf : h.Follows D b) :
    (h.after D ⟨.resolverEventLoop, .testAndSet .triggerResolve⟩ (b.flag .triggerResolve)).Follows D
      (b.setFlag .triggerResolve true) := by
  cases hb : b.flag .triggerResolve with
  | true =>
    rw [Board.setFlag_eq_self hb]
    exact hf
  | false =>
    exact ⟨hf.ack, hf.fault, hf.reported,
      fun k hk _ => .inr (.inr (DescriptorHelper.mem_ids.mpr hk)), hf.updated, hf.letter,
      hf.table⟩

/-- The id of a read end is put into the cable. -/
theorem store (hf : h.Follows D b) (hand : h.hand = .cleared j) (hmail : h.mail = .empty) :
    (h.after D ⟨.resolve, .storeReadEndId j⟩ ()).Follows D { b with readEndId := j } := by
  refine ⟨hf.ack, fun k hk hw => .inl ((hf.fault k hk hw).resolve_right ?_), hf.reported,
    hf.sweep, ?_, fun k hk => Option.some.inj hk, hf.table⟩
  · rw [hand]
    simp
  · have hupdated := hf.updated
    rw [hmail] at hupdated
    simpa [Delivery.after] using hupdated

/-- `read_end_updated` is cleared. -/
theorem announce (hf : h.Follows D b) (mail : h.mail = .queued j) :
    (h.after D ⟨.readEnd, .clear .readEndUpdated⟩ ()).Follows D
      (b.setFlag .readEndUpdated false) := by
  have hletter := hf.letter
  refine ⟨hf.ack, hf.fault, hf.reported, hf.sweep, ?_, ?_, hf.table⟩
  · show (b.setFlag .readEndUpdated false).flag .readEndUpdated = false
      ↔ ∃ j, h.mail.announce = .announced j
    rw [mail]
    exact ⟨fun _ => ⟨_, rfl⟩, fun _ => b.setFlag_self ..⟩
  · intro k hk
    have hk' : h.mail.announce.letter = some k := hk
    rw [mail] at hletter hk'
    exact hletter k hk'

/-- The REST layer looks whether it is. -/
theorem peek (hf : h.Follows D b) :
    (h.after D ⟨.restEventLoop, .testAndSet .readEndUpdated⟩ (b.flag .readEndUpdated)).Follows D
      (b.setFlag .readEndUpdated true) := by
  have hupdated := hf.updated
  have hself : (b.setFlag .readEndUpdated true).flag .readEndUpdated = true := b.setFlag_self ..
  cases hb : b.flag .readEndUpdated with
  | true =>
    rw [Board.setFlag_eq_self hb]
    exact hf
  | false =>
    obtain ⟨j, hj⟩ := hupdated.mp hb
    have hletter := hf.letter
    refine ⟨hf.ack, hf.fault, hf.reported, hf.sweep, ?_, fun k hk => ?_, hf.table⟩
    · show _ ↔ ∃ j, h.mail.find = .announced j
      rw [hself, hj]
      simp [Mail.find]
    · have hk' : h.mail.find.letter = some k := hk
      rw [hj] at hletter hk'
      exact hletter k hk'

/-- It takes the id out. -/
theorem read (hf : h.Follows D b) (mail : h.mail = .found j) :
    (h.after D ⟨.restEventLoop, .loadReadEndId⟩ b.readEndId).Follows D b := by
  have hupdated := hf.updated
  refine ⟨hf.ack, hf.fault, hf.reported, hf.sweep, ?_, (fun k hk => by cases hk), hf.table⟩
  rw [mail] at hupdated
  simpa [Delivery.after] using hupdated

/-- Every other operation leaves what the delivery is about. -/
theorem aside {a : o.Answer} (hf : h.Follows D b) (ho : o.Aside)
    (hx : Board.exec o.access b = some (a, b')) : h.Follows D b' ∧ h.Told o a := by
  obtain ⟨site, acc⟩ := o
  cases acc with
  | testAndSet f =>
    obtain ⟨rfl, rfl⟩ := Prod.mk.inj (Option.some.inj hx)
    cases f <;> first
      | exact ho.elim
      | exact ⟨hf.of_same (.setFlag (by simp) (by simp) (by simp) (by simp)), trivial⟩
  | clear f =>
    obtain ⟨rfl, rfl⟩ := Prod.mk.inj (Option.some.inj hx)
    cases f <;> first
      | exact ho.elim
      | exact ⟨hf.of_same (.setFlag (by simp) (by simp) (by simp) (by simp)), trivial⟩
  | acquire f =>
    rw [Board.exec] at hx
    split at hx
    · cases hx
    · obtain ⟨rfl, rfl⟩ := Prod.mk.inj (Option.some.inj hx)
      obtain rfl | rfl : f = .descriptorsUpdated ∨ f = .readEndAcknowledge := ho
      all_goals exact ⟨hf.of_same (.setFlag (by simp) (by simp) (by simp) (by simp)), trivial⟩
  | storeReadEndId => exact ho.elim
  | handshake => cases hx
  | handshakeAck => cases hx
  | loadReadEndId =>
    obtain ⟨rfl, rfl⟩ := Prod.mk.inj (Option.some.inj hx)
    cases site <;> first | exact ho.elim | exact ⟨hf, trivial⟩
  | _ =>
    obtain ⟨rfl, rfl⟩ := Prod.mk.inj (Option.some.inj hx)
    exact ⟨hf.of_same ⟨fun _ => rfl, fun _ => rfl, rfl, rfl, rfl⟩, trivial⟩

/-- **Every operation does to the board what the delivery says.** -/
theorem after {a : o.Answer} (hf : h.Follows D b) (hp : Ready D i h o)
    (hx : Board.exec o.access b = some (a, b')) :
    (h.after D o a).Follows D b' ∧ h.Told o a := by
  obtain ⟨hpre, hstore⟩ := hp
  cases hpre with
  | take => cases hx
  | report =>
    obtain ⟨rfl, rfl⟩ := Prod.mk.inj (Option.some.inj hx)
    exact ⟨hf.clear_ack, trivial⟩
  | fault =>
    obtain ⟨rfl, rfl⟩ := Prod.mk.inj (Option.some.inj hx)
    exact ⟨hf.clear_fault, trivial⟩
  | interrupt =>
    obtain ⟨rfl, rfl⟩ := Prod.mk.inj (Option.some.inj hx)
    exact ⟨hf.clear_ack, trivial⟩
  | trigger =>
    obtain ⟨rfl, rfl⟩ := Prod.mk.inj (Option.some.inj hx)
    exact ⟨⟨hf.ack, hf.fault, hf.reported, fun _ _ _ => .inr (.inl (b.setFlag_self ..)),
      hf.updated, hf.letter, hf.table⟩, trivial⟩
  | sweep =>
    obtain ⟨rfl, rfl⟩ := Prod.mk.inj (Option.some.inj hx)
    exact ⟨hf.sweepStarted, trivial⟩
  | look hj ahead hand =>
    obtain ⟨rfl, rfl⟩ := Prod.mk.inj (Option.some.inj hx)
    exact ⟨hf.look hj ahead hand, hf.ack _ hj⟩
  | check hj hand =>
    obtain ⟨rfl, rfl⟩ := Prod.mk.inj (Option.some.inj hx)
    exact ⟨hf.check hj hand, hf.fault_flag hj (by rw [hand]; simp)⟩
  | store hand =>
    obtain ⟨rfl, rfl⟩ := Prod.mk.inj (Option.some.inj hx)
    exact ⟨hf.store hand (hstore _ rfl), trivial⟩
  | announce mail =>
    obtain ⟨rfl, rfl⟩ := Prod.mk.inj (Option.some.inj hx)
    exact ⟨hf.announce mail, trivial⟩
  | peek =>
    obtain ⟨rfl, rfl⟩ := Prod.mk.inj (Option.some.inj hx)
    exact ⟨hf.peek, hf.updated⟩
  | read mail =>
    obtain ⟨rfl, rfl⟩ := Prod.mk.inj (Option.some.inj hx)
    exact ⟨hf.read mail, fun k hk => hf.letter k (by rw [hk]; rfl)⟩
  | other aside =>
    rw [after_aside aside]
    exact hf.aside aside hx

end Follows

/-- How often an id is on its way. -/
def places (h : Delivery) (j : ℕ) : ℕ :=
  h.hand.object.toList.count j + h.mail.letter.toList.count j + (h.waiting j).toNat

/-- **Nothing is lost and nothing is read twice**: an id that has been completed at most
once, and of which no fault is reported, has been read or is on its way. -/
def Tallies (l : List ReadEndEvent) (h : Delivery) (j : ℕ) : Prop :=
  h.fault j = true ∨ ((completed l).count j ≤ 1 →
    (completed l).count j = (processed l).count j + h.places j)

namespace Tallies

variable {l : List ReadEndEvent} {k : ℕ}

/-- An id stays where it is, or goes on. -/
theorem on (hl : Tallies l h k) (hfault : h'.fault = h.fault)
    (hplaces : h'.places k = h.places k) : Tallies l h' k := by
  unfold Tallies
  rw [hfault, hplaces]
  exact hl

/-- `emit_received` clears `read_ack`. -/
theorem complete (hl : Tallies l h k) : Tallies (l ++ [.completed j])
    { h with waiting := Function.update h.waiting j true, dirty := true } k := by
  refine hl.imp id fun htally hcount => ?_
  rw [completed_completed, List.count_append] at hcount
  rw [completed_completed, processed_completed, List.count_append]
  have htally := htally (by omega)
  by_cases hkj : k = j
  · subst hkj
    -- it is completed for the first time
    rw [List.count_singleton_self] at hcount ⊢
    simp only [places, Function.update_self, Bool.toNat_true] at htally ⊢
    omega
  · rw [htally]
    simp [places, hkj, Ne.symm hkj]

/-- The REST layer reads the id. -/
theorem process (hl : Tallies l h k) (mail : h.mail = .found j) :
    Tallies (l ++ [.processed j]) { h with mail := .empty } k := by
  refine hl.imp id fun htally hcount => ?_
  rw [completed_processed] at hcount ⊢
  rw [processed_processed, List.count_append, htally hcount]
  by_cases hk : j = k
  · simp [places, mail, hk, Mail.letter]
    omega
  · simp [places, mail, hk, Mail.letter]

end Tallies

/-- **What an operation shows goes with the delivery.** -/
theorem Ready.tallies {s : i.Private} {a : o.Answer} {l : List ReadEndEvent} (hp : Ready D i h o)
    (ht : h.Told o a) (hl : ∀ j, Tallies l h j) (k : ℕ) :
    Tallies (l ++ readEnds i s o a) (h.after D o a) k := by
  obtain ⟨hpre, hstore⟩ := hp
  have hon : ∀ {h' : Delivery}, h'.fault = h.fault → h'.places k = h.places k →
      Tallies (l ++ []) h' k := fun hfault hplaces =>
    (List.append_nil l).symm ▸ (hl k).on hfault hplaces
  cases hpre with
  | take => exact hon rfl rfl
  | @report h j hj =>
    show Tallies (l ++ [.completed j]) (if _ then _ else _) k
    rw [if_pos hj]
    exact (hl k).complete
  | @fault h j =>
    show Tallies (l ++ []) (if _ then _ else _) k
    split
    case isFalse => exact hon rfl rfl
    case isTrue =>
      rw [List.append_nil]
      by_cases hkj : k = j
      · subst hkj
        exact .inl (Function.update_self ..)
      · exact (hl k).imp (Function.update_of_ne hkj ..).trans id
  | @interrupt h j hfault =>
    show Tallies (l ++ []) (if _ then _ else _) k
    split
    case isFalse => exact hon rfl rfl
    case isTrue hj =>
      -- its fault has been reported before
      by_cases hkj : k = j
      · subst hkj
        exact .inl (hfault hj)
      · exact hon rfl (by simp [places, hkj])
  | trigger => exact hon rfl rfl
  | sweep => cases a <;> exact hon rfl rfl
  | @look h j is hj ahead hand =>
    cases a with
    | true => exact hon rfl rfl
    | false =>
      -- the id goes from the waiting ones into the hand of the resolver
      refine hon rfl ?_
      by_cases hkj : k = j
      · subst hkj
        have hwaiting : h.waiting k = true := by
          have htold : false = !h.waiting k := ht
          simpa using htold.symm
        simp [places, after, hand, Hand.object, hwaiting, Nat.add_comm]
      · simp [places, after, hand, Hand.object, hkj, Ne.symm hkj]
  | check _ hand =>
    cases a <;> exact hon rfl (by simp [places, after, hand, Hand.object])
  | @store h j hand =>
    exact hon rfl (by simp [places, after, hand, hstore j rfl, Hand.object, Mail.letter])
  | announce mail => exact hon rfl (by simp [places, after, mail, Mail.announce, Mail.letter])
  | peek =>
    cases a with
    | true => exact hon rfl rfl
    | false =>
      exact hon rfl (by cases hm : h.mail <;> simp [places, after, hm, Mail.find, Mail.letter])
  | @read h j mail =>
    obtain rfl : a = j := ht j mail
    exact (hl k).process mail
  | other aside =>
    rw [after_aside aside, readEnds_aside aside]
    exact hon rfl rfl

/-! ## The threads -/

/-- What a thread knows of the cable. -/
def Queued : (i : Server) → i.Private → Delivery → Prop
  | .resolver, s, h => s.readendCommandQueued = true ↔ ∃ j, h.mail = .queued j
  | _, _, _ => True

/-- **What a thread asserts before an operation.** -/
structure Node (D : DescriptorHelper) (i : Server) (s : i.Private) (h : Delivery) (o : Op) :
    Prop where
  pre : Pre D i h o
  queued : Queued i s h

/-- **What the resolver asserts** in a sweep, of the objects it still looks at and of what
it has in hand. -/
structure Held (s : Resolver) (is : List ℕ) (x : Hand) (h : Delivery) : Prop where
  ahead : h.ahead = is
  hand : h.hand = x
  queued : s.readendCommandQueued = true ↔ ∃ j, h.mail = .queued j

theorem Queued.stable {s : i.Private} (hq : Queued i s h) (hr : Rely i h h') : Queued i s h' := by
  cases i with
  | resolver => exact Iff.trans hq (exists_congr fun j => ((hr.resolver rfl).2.2 j).symm)
  | communication => trivial
  | rest => trivial

theorem Node.stable {s : i.Private} (hn : Node D i s h o) (hr : Rely i h h') :
    Node D i s h' o :=
  ⟨hn.pre.stable hr, hn.queued.stable hr⟩

theorem Held.rely {s : Resolver} {is : List ℕ} {x : Hand} (hs : Held s is x h)
    (hr : Rely .resolver h h') : Held s is x h' := by
  obtain ⟨hahead, hhand, -⟩ := hr.resolver rfl
  exact ⟨hahead.trans hs.ahead, hhand.trans hs.hand, Queued.stable (i := .resolver) hs.queued hr⟩

end Delivery

/-- **The outline of the three threads.** -/
def deliveryOutline (D : DescriptorHelper) (r : Role) : (service D r).Outline Delivery where
  follows h w := h.Follows D (w.board r)
  step _ _ o a h h' := h' = h.after D o a ∧ h.Told o a
  node i s o h := h.Node D i s o
  rest
    | .communication, s, h => AtRest D s ∧ (∀ j, h.Reported j) ∧ h.dirty = false
    | .resolver, s, h => h.Held s [] .empty
    | .rest, _, h => ∀ j, h.mail ≠ .found j
  error i _ _ h := i = .rest → ∀ j, h.mail ≠ .found j
  rely i _ h h' := h.Rely i h'
  refl i _ h := .refl i h
  trans _ _ _ _ _ h₁ h₂ := h₁.trans h₂
  node_stable _ _ _ _ _ hr hn := hn.stable hr
  rest_stable i s h h' hr hn := by
    cases i with
    | communication =>
      obtain ⟨hs, hm, hd⟩ := hn
      obtain ⟨hdirty, -, hreported⟩ := hr.comm rfl
      exact ⟨hs, fun j => hreported j (hm j), hdirty.trans hd⟩
    | resolver => exact hn.rely hr
    | rest => exact fun j hj => hn j ((hr.rest rfl j).mp hj)

namespace Delivery

variable {h h' : Delivery} {o : Op} {id : ℕ}

/-! ### The communication thread -/

/-- **What the communication thread asserts all through a cycle.** -/
structure Mid (D : DescriptorHelper) (s : Endpoint) (h : Delivery) : Prop where
  reported : ∀ j, h.Reported j
  /-- What it receives is in the table. -/
  inside : s.receiveLock = true → s.readDestination < D.count

theorem Mid.rely {s : Endpoint} (hm : Mid D s h) (hr : Rely .communication h h') : Mid D s h' :=
  ⟨fun j => (hr.comm rfl).2.2 j (hm.reported j), hm.inside⟩

/-- **An operation that does not concern the way of an id.** -/
theorem Mid.unnoticed {s : Endpoint} (hm : Mid D s h) (ho : o.Aside) :
    ((deliveryOutline D r).rules .communication).node s o h
    ∧ ∀ a h', ((deliveryOutline D r).rules .communication).step s o a h h' → Mid D s h' := by
  refine ⟨⟨.other ho fun hf => (by cases hf), trivial⟩, ?_⟩
  rintro a _ ⟨h₁, hr, rfl, -⟩
  rw [after_aside ho]
  exact hm.rely hr

/-- **One object of `emit_interrupted`**: its fault is reported, and then its `read_ack`. -/
theorem Mid.interrupt {s : Endpoint} {j : ℕ} (hm : Mid D s h) :
    ((do
      clear .emitInterrupted (.readFault j)
      clear .emitInterrupted (.readAck j)
      assignStarted .emitInterrupted j false : Comm Unit).run s).Safe
      ((deliveryOutline D r).rules .communication) (fun s' _ h' => s' = s ∧ Mid D s h') h := by
  have hlast : ∀ h', Mid D s h' → ((assignStarted .emitInterrupted j false : Comm Unit).run s).Safe
      ((deliveryOutline D r).rules .communication) (fun s' _ h' => s' = s ∧ Mid D s h') h' :=
    fun h' => assignStarted_keeps fun o h ho hm => hm.unnoticed (by cases ho <;> trivial)
  simp only [run_bind, Prog.safe_bind]
  refine ⟨⟨.fault, trivial⟩, ?_⟩
  rintro x _ ⟨h₁, hr₁, rfl, -⟩
  have hm₁ := hm.rely hr₁
  show Prog.Safe _ _ _ (if _ then _ else _)
  split
  case isFalse hj =>
    refine ⟨⟨.interrupt fun hf => absurd hf hj, trivial⟩, ?_⟩
    rintro y _ ⟨h₂, hr₂, rfl, -⟩
    show Prog.Safe _ _ _ (if _ then _ else _)
    rw [if_neg hj]
    exact hlast h₂ (hm₁.rely hr₂)
  case isTrue hj =>
    refine ⟨⟨.interrupt fun _ => Function.update_self .., trivial⟩, ?_⟩
    rintro y _ ⟨h₂, hr₂, rfl, -⟩
    show Prog.Safe _ _ _ (if _ then _ else _)
    rw [if_pos hj]
    refine hlast _ ⟨fun k => ?_, hm.inside⟩
    by_cases hkj : k = j
    · subst hkj
      exact fun _ => .inl (Function.update_self ..)
    · -- the other objects are not concerned
      have hk : h₂.Reported k := by
        refine (hr₂.comm rfl).2.2 k fun hf => hm₁.reported k ?_
        have hf' : Function.update h₁.fault j true k = true := hf
        rwa [Function.update_of_ne hkj] at hf'
      exact fun hf => (hk hf).imp_left (Function.update_of_ne hkj ..).trans

/-- **`emit_readlocked`** does not concern the way of an id. -/
theorem Mid.readlock {s : Endpoint} {j : ℕ} (hm : Mid D s h) :
    ((emitReadlocked j).run s).Safe ((deliveryOutline D r).rules .communication)
      (fun s' _ h' => s' = s ∧ Mid D s h') h := by
  refine emitReadlocked_keeps (fun o h ho hm => hm.unnoticed (by cases ho <;> trivial)) hm
    fun h' => assignStarted_keeps fun o h ho hm => hm.unnoticed (by cases ho <;> trivial)

/-- **`emit_received`** completes an object. -/
theorem Mid.received {s : Endpoint} {j : ℕ} (hm : Mid D s h) (hj : j < D.count) :
    ((emitReceived j).run s).Safe ((deliveryOutline D r).rules .communication)
      (fun s' _ h' => s' = s ∧ Mid D s h') h := by
  refine safe_emitReceived ((assignStarted_keeps
    (fun o h ho hm => hm.unnoticed (by cases ho <;> trivial)) hm).imp ?_)
  rintro s _ h₁ ⟨rfl, hm₁⟩
  refine ⟨⟨.report hj, trivial⟩, ?_⟩
  rintro y _ ⟨h₂, hr, rfl, -⟩
  show _ ∧ Mid D s (if _ then _ else _)
  rw [if_pos hj]
  refine ⟨rfl, fun k hf => ?_, hm₁.inside⟩
  by_cases hkj : k = j
  · subst hkj
    exact .inl (Function.update_self ..)
  · exact ((hm₁.rely hr).reported k hf).imp_left (Function.update_of_ne hkj ..).trans

end Delivery

/-- A guard of the communication thread. -/
theorem deliveryGuard (hD : D.Triples) :
    Guard D True (fun _ => True) (fun _ _ _ => True) (fun _ => True)
      ((deliveryOutline D r).rules .communication) (Delivery.Mid D) where
  error _ _ _ _ _ hf := by cases hf
  frame s s' h hf hm := ⟨hm.reported, fun hl => by
    rw [hf.readDestination]
    exact hm.inside (hf.receiveLock ▸ hl)⟩
  quiet s o h ho hm := by
    cases ho with
    | trigger =>
      refine ⟨⟨.trigger, trivial⟩, ?_⟩
      rintro x _ ⟨h₁, hr, rfl, -⟩
      exact { hm.rely hr with }
    | acquire => exact hm.unnoticed (.inl rfl)
    | clear => exact hm.unnoticed trivial
    | reset => exact hm.unnoticed trivial
    | tell => exact hm.unnoticed trivial
  interrupted _ s h hm := by
    refine safe_emitInterrupted (fun j h hm => ?_) hm fun h' hm' => ⟨rfl, hm'⟩
    obtain ⟨hnode, hstep⟩ := hm.unnoticed (r := r) (o := ⟨.emitInterrupted, .loadStarted j⟩) trivial
    exact ⟨hnode, fun h' hx => hstep false h' hx, fun h' hx => (hstep true h' hx).interrupt⟩
  checkSync site j s h _ hm := by
    obtain ⟨hnode, hstep⟩ := hm.unnoticed (r := r) (o := ⟨site, .testAndSet (.syncMe j)⟩) trivial
    refine safe_checkSync hnode (fun h' hx => ⟨rfl, hstep true h' hx, fun hf => by cases hf⟩)
      fun h' hx => ?_
    obtain ⟨hnode', hstep'⟩ := (hstep false h' hx).unnoticed (r := r)
      (o := ⟨site, .clear (.syncMe j)⟩) trivial
    refine ⟨hnode', fun x h'' hx => ?_⟩
    have hm'' := hstep' x h'' hx
    exact ⟨rfl, hm'', fun _ => ⟨trivial, fun _ _ _ => { hm'' with }⟩⟩
  notified s h hm := by
    obtain ⟨hnode, hstep⟩ := hm.unnoticed (r := r) (o := ⟨.incomingShutdownQuery, .loadNotified⟩)
      trivial
    exact ⟨hnode, fun b h' hb => ⟨hstep b h' hb, fun _ => trivial⟩⟩
  readlock s h hm _ _ _ _ _ _ := hm.readlock.imp fun _ _ _ hs => ⟨hs.1, { hs.2 with }⟩
  accept s h hm _ _ := by
    have hm' : Delivery.Mid D { s with
        transfer := Function.update s.transfer s.waitingConfirmation true } h := { hm with }
    obtain ⟨hnode, hstep⟩ := hm'.unnoticed (r := r)
      (o := ⟨.emitTransfer, .testAndSet (.syncMe s.waitingConfirmation)⟩) trivial
    exact safe_emitTransfer hnode fun a h' hx => ⟨rfl, { hstep a h' hx with }⟩
  sending s s' h hm _ hs := by
    cases hs with
    | held => exact hm
    | first => exact { hm with }
  load s h hm _ := by
    obtain ⟨hnode, hstep⟩ := hm.unnoticed (r := r)
      (o := ⟨.writeObject, .load s.writeOrigin s.writeOriginPos⟩) trivial
    exact ⟨hnode, fun w h' hx => { hstep w h' hx with }⟩
  sent s h hm _ _ _ := by
    obtain ⟨hnode, hstep⟩ := hm.unnoticed (r := r)
      (o := ⟨.emitSent, .clear (.writeAck s.writeOrigin)⟩) trivial
    exact safe_emitSent hnode fun x h' hx => ⟨rfl, { hstep x h' hx with }⟩
  receiving s s' h hm hs hr := by
    obtain ⟨hs', hl⟩ := hs.of_receiving hD hr
    exact ⟨hm.reported, fun _ => (hs'.receiving hl).2.1⟩
  store s b h hm _ := by
    obtain ⟨hnode, hstep⟩ := hm.unnoticed (r := r)
      (o := ⟨.readObject, .store s.readDestination s.readDestinationPos b⟩) trivial
    exact ⟨hnode, fun x h' hx => { hstep x h' hx with }⟩
  received s h hm _ hl _ _ := by
    have hm' : Delivery.Mid D { s with
        readLock := Function.update s.readLock s.readDestination false
        receiveLock := false } h := ⟨hm.reported, fun hf => by cases hf⟩
    refine (hm'.received (hm.inside hl)).imp ?_
    rintro s' _ h' ⟨rfl, hs⟩
    exact ⟨rfl, { hs with }⟩

/-- **The communication thread** triggers the resolver whenever it has completed an
object. -/
theorem delivery_comm_safe (hD : D.Triples) {s : Endpoint} {h : Delivery}
    (hrest : (deliveryOutline D r).rest .communication s h) :
    (deliveryOutline D r).Safe .communication ((eventLoop D r).run s) h := by
  obtain ⟨hs, hreported, hclean⟩ := hrest
  simp only [Pool.Outline.Safe, eventLoop, run_bind, run_look, Prog.safe_bind, Prog.safe_ret]
  cases query : s.handshakeQuery r with
  | false => exact ⟨hs, hreported, hclean⟩
  | true =>
    simp only [if_true, run_bind, Prog.safe_bind]
    refine ⟨⟨.take hreported hclean, trivial⟩, ?_⟩
    rintro b h₁ ⟨_, hr₁, rfl, -⟩
    have hm₁ : Delivery.Mid D { s with comIn := b } h₁ :=
      ⟨fun j => (hr₁.comm rfl).2.2 j (hreported j), fun hl => ?_⟩
    · simp only [run_change, Prog.safe_ret]
      refine (deliveryGuard hD).cycle_safe hD (hs.take b) hm₁ (fun _ _ _ => trivial)
        (fun _ _ _ _ => trivial) (fun s' h₂ hc hm₂ => ?_) fun _ _ => trivial
      unfold triggerResolve
      refine ⟨⟨.trigger, trivial⟩, ?_⟩
      rintro x _ ⟨h₃, hr₃, rfl, -⟩
      have hm₃ := hm₂.rely hr₃
      refine ⟨⟨.other trivial fun hf => (by cases hf), trivial⟩, ?_⟩
      rintro y _ ⟨h₄, hr₄, rfl, -⟩
      obtain ⟨hdirty, -, hkept⟩ := hr₄.comm rfl
      exact ⟨(hs.take b).cycled hD hc, fun j => hkept j (hm₃.reported j), hdirty⟩
    · exact (hs.receiving hl).2.1

namespace Delivery

/-! ### The resolver -/

end Delivery

namespace Place

/-- The objects that the sweep still looks at. -/
def ahead : Place → List ℕ
  | readAck id is => id :: is
  | readFault _ is | readEndId _ is | writeAck _ is | writeFault _ is | writeEndId _ is => is
  | _ => []

/-- What the resolver has in hand. -/
def hand : Place → Hand
  | readFault id _ => .taken id
  | readEndId id _ => .cleared id
  | _ => .empty

end Place

namespace Delivery

namespace Held

variable {h : Delivery} {s s' : Resolver} {p : Place} {is : List ℕ} {id : ℕ}

theorem sweep (hs : Held s is .empty h) :
    Held s (Place.sweep is s').ahead (Place.sweep is s').hand h := by
  cases is with
  | nil =>
    show Held s (if _ then _ else _ : Place).ahead (if _ then _ else _ : Place).hand h
    split <;> exact hs
  | cons => exact hs

theorem copying (hs : Held s [] .empty h) :
    Held s (Place.copying id is).ahead (Place.copying id is).hand h := by
  cases is <;> exact hs

theorem filling (hs : Held s [] .empty h) :
    Held s (Place.filling id is).ahead (Place.filling id is).hand h := by
  cases is <;> exact hs

/-- **What the resolver asserts before an operation.** -/
theorem node (hs : Held s p.ahead p.hand h) (hv : p.valid D s) :
    Node D .resolver s h p.op := by
  refine ⟨?_, hs.queued⟩
  cases p with
  | triggerResolve => exact .sweep hs.ahead hs.hand
  | readAck id is => exact .look (hv id List.mem_cons_self) hs.ahead hs.hand
  | readFault id is => exact .check (hv id List.mem_cons_self) hs.hand
  | readEndId id is => exact .store hs.hand
  | readEndAcknowledge => exact .other (.inr rfl) fun hf => by cases hf
  | readEndUpdated =>
    obtain ⟨j, hj⟩ := hs.queued.mp hv
    exact .announce hj
  | lockReadEnd | lockWriteStart => exact .other (.inl rfl) fun hf => by cases hf
  | _ => exact .other trivial fun hf => by cases hf

/-- **What an operation leads to**: an object that has been completed is taken and put into the
cable, and the id in the cable is announced. -/
theorem step {a : p.op.Answer} (hs : Held s p.ahead p.hand h) (hv : p.valid D s) :
    (p.next D a s).Holds ((deliveryOutline D r).rules .resolver)
      (fun p s h => Held s p.ahead p.hand h) (h.after D p.op a) := by
  cases p with
  | triggerResolve =>
    cases a with
    | true => exact hs.sweep
    | false => exact sweep ⟨rfl, hs.hand, hs.queued⟩
  | readAck id is =>
    have hahead : h.ahead.tail = is := by rw [hs.ahead]; rfl
    cases a with
    | true => exact ⟨hahead, hs.hand, hs.queued⟩
    | false => exact ⟨hahead, rfl, hs.queued⟩
  | readFault id is =>
    cases a with
    | true => exact ⟨hs.ahead, rfl, hs.queued⟩
    | false => exact fun hf => by cases hf
  | readEndId id is => exact ⟨hs.ahead, rfl, fun _ => ⟨id, rfl⟩, fun _ => rfl⟩
  | writeAck id is =>
    cases a with
    | true => exact hs.sweep
    | false => exact hs
  | writeFault id is =>
    cases a with
    | true => exact hs
    | false => exact fun hf => by cases hf
  | writeEndId id is => exact sweep { hs with }
  | loadReadEndId =>
    show Held s (if _ then _ else _ : Place).ahead (if _ then _ else _ : Place).hand h
    split <;> exact hs
  | lockReadEnd | storeReadEnd => exact hs.copying
  | readEndUpdated =>
    refine ⟨hs.ahead, hs.hand, (fun hf => by cases hf), ?_⟩
    rintro ⟨k, hk⟩
    obtain ⟨j, hj⟩ := hs.queued.mp hv
    have hmail : h.mail.announce = .queued k := hk
    rw [hj] at hmail
    cases hmail
  | writeStartUpdated => cases a <;> exact hs
  | loadWriteStartId =>
    exact holds_loadWriteStartId D (fun _ _ => { hs with }) fun _ _ _ hf => by cases hf
  | lockWriteStart | store => exact hs.filling
  | unlockWriteStart => exact { hs with }
  | _ => exact hs

end Held

end Delivery

/-- **The resolver** carries every id to the cable. -/
theorem delivery_round : (round D).Keeps ((deliveryOutline D r).rules .resolver)
    fun p s h => Delivery.Held s p.ahead p.hand h := by
  refine (deliveryOutline D r).keeps_chart .resolver (fun _ _ _ _ hr hs => hs.rely hr)
    (fun _ _ _ hv hs => hs.node hv) fun p s a h h' hv hs => ?_
  rintro ⟨rfl, -⟩
  exact hs.step hv

theorem delivery_resolver_safe {s : Resolver} {h : Delivery} (hs : h.Held s [] .empty) :
    (deliveryOutline D r).Safe .resolver ((resolverEventLoop D).run s) h :=
  delivery_round.safe (resolverEventLoop_charted s) hs

namespace Delivery

/-! ### The REST layer -/

/-- **The REST layer** reads the ids that are announced. -/
theorem rest_safe {s : Rest} {h : Delivery} (hs : ∀ j, h.mail ≠ .found j) :
    (deliveryOutline D r).Safe .rest (restEventLoop.run s) h := by
  simp only [Pool.Outline.Safe, restEventLoop, run_bind, Prog.safe_bind]
  refine ⟨⟨.peek hs, trivial⟩, ?_⟩
  rintro a _ ⟨h₁, hr₁, rfl, htold⟩
  cases a with
  | true => exact fun j hj => hs j ((hr₁.rest rfl j).mp hj)
  | false =>
    have hannounced : false = false ↔ ∃ j, h₁.mail = .announced j := htold
    obtain ⟨j, hj⟩ := hannounced.mp rfl
    refine ⟨⟨.read (show h₁.mail.find = .found j by rw [hj]; rfl), trivial⟩, ?_⟩
    rintro id _ ⟨h₂, hr₂, rfl, -⟩
    simp only [Prog.bind, run_ite]
    split
    case isFalse => exact fun _ k hk => by cases hk
    case isTrue =>
      refine ⟨⟨.other trivial fun _ k hk => (by cases hk), trivial⟩, ?_⟩
      rintro x _ ⟨h₃, hr₃, rfl, -⟩ k hk
      cases (hr₃.rest rfl k).mp hk

end Delivery

/-! ## Read ends that are delivered -/

/-- What other threads leave alone at an end: the outcomes of the reads, and the signals
between the three threads. -/
structure SignalsIntact (σ : (service D r).State) (w : World) : Prop where
  ack : ∀ j, (w.board r).flag (.readAck j) = (σ.world.board r).flag (.readAck j)
  fault : ∀ j, (w.board r).flag (.readFault j) = (σ.world.board r).flag (.readFault j)
  trigger : (w.board r).flag .triggerResolve = (σ.world.board r).flag .triggerResolve
  updated : (w.board r).flag .readEndUpdated = (σ.world.board r).flag .readEndUpdated
  readEndId : (w.board r).readEndId = (σ.world.board r).readEndId

/-- **No id is put into the cable while another is there**: where `resolve` stores one, no
read end is queued, and the REST layer has read the one before. -/
def Unhurried (σ : (service D r).State) : Prop :=
  ∀ j s k, σ.thread .resolver = .op s ⟨.resolve, .storeReadEndId j⟩ k →
    s.readendCommandQueued = false ∧ (σ.world.board r).flag .readEndUpdated = true
    ∧ ∀ s' k', σ.thread .rest ≠ .op s' ⟨.restEventLoop, .loadReadEndId⟩ k'

/-- **Nothing is left to do**: the communication thread is between two cycles, the resolver
has not been triggered and has no read end queued, and none is announced to the REST
layer. -/
structure NothingLeft (σ : (service D r).State) : Prop where
  comm : ∃ s, Between (σ.thread .communication) s
  resolver : ∃ s k, σ.thread .resolver = .op s ⟨.resolverEventLoop, .testAndSet .triggerResolve⟩ k
    ∧ s.readendCommandQueued = false
  untriggered : (σ.world.board r).flag .triggerResolve = true
  rest : ∃ s k, σ.thread .rest = .op s ⟨.restEventLoop, .testAndSet .readEndUpdated⟩ k
  unannounced : (σ.world.board r).flag .readEndUpdated = true

/-- What is known where an operation is performed. -/
theorem deliveryOutline_ready {σ : (service D r).State} {h : Delivery} {i : Server}
    {s : i.Private} {o : Op} {k : o.Answer → Prog i.Private ErrorCode Op.Answer Unit}
    (hk : (deliveryOutline D r).Keeps σ h) (hi : σ.thread i = .op s o k) (hok : Unhurried σ) :
    h.Ready D i o := by
  have hnode : h.Node D i s o := hk.node hi
  refine ⟨hnode.pre, ?_⟩
  rintro j rfl
  obtain rfl : i = .resolver := by
    cases hnode.pre with
    | store => rfl
    | other aside => exact aside.elim
  obtain ⟨hqueued, hupdated, hrest⟩ := hok j s k hi
  have hq : s.readendCommandQueued = true ↔ ∃ j, h.mail = .queued j := hnode.queued
  cases hm : h.mail with
  | empty => rfl
  | queued j => exact absurd (hqueued.symm.trans (hq.mpr ⟨j, hm⟩)) (by decide)
  | announced j => exact absurd (hupdated.symm.trans (hk.1.updated.mpr ⟨j, hm⟩)) (by decide)
  | found j =>
    -- the REST layer is about to read it
    cases ht : σ.thread .rest with
    | ret s' a =>
      have hnone : ∀ j, h.mail ≠ .found j := hk.rest ht
      exact absurd hm (hnone j)
    | fail s' e =>
      have hnone : Server.rest = .rest → ∀ j, h.mail ≠ .found j := hk.error ht
      exact absurd hm (hnone rfl j)
    | op s' o' k' =>
      have hnode' : h.Node D .rest s' o' := hk.node ht
      cases hnode'.pre with
      | peek mail => exact absurd hm (mail j)
      | read => exact absurd ht (hrest s' k')
      | other _ mail => exact absurd hm (mail rfl j)

/-- **The ids reach the REST layer**, in every run on the condition. -/
theorem deliveryOutline_traces (hD : D.Triples) {obj : Role → ℕ → ℕ → Byte}
    {σ : (service D r).State} {l : List ReadEndEvent}
    (hσ : (service D r).Traces SignalsIntact (fun σ _ => Unhurried σ) readEnds
      (service.start D r obj) l σ) :
    ∃ h : Delivery, (∀ j, h.Tallies l j) ∧ (deliveryOutline D r).Keeps σ h := by
  refine Pool.Outline.sound_traces (L := deliveryOutline D r) (fun l h => ∀ j, h.Tallies l j)
    ?_ ?_ ?_ hσ ?_
  · intro σ l h i s o k a w hl hk node exec hok
    have hready := deliveryOutline_ready hk node hok
    obtain ⟨hf, htold⟩ : (h.after D o a).Follows D (w.board r) ∧ h.Told o a := by
      obtain hb | ⟨hhandshake, hboard⟩ := World.exec_own exec
      · exact Delivery.Follows.after hk.1 hready hb
      · obtain ⟨site, acc⟩ := o
        obtain rfl | ⟨b, rfl⟩ : acc = .handshake ∨ ∃ b, acc = .handshakeAck b := hhandshake
        all_goals
          rw [hboard]
          exact ⟨hk.1, trivial⟩
    -- what is observed goes with the delivery, and the other threads rely on it
    exact ⟨h.after D o a, hready.tallies htold hl, hf, ⟨rfl, htold⟩,
      fun i' hi' => hready.rely htold hi'⟩
  · intro σ l h w hl hk henv _
    exact ⟨h, hl, hk.1.of_same ⟨henv.ack, henv.fault, henv.trigger, henv.updated, henv.readEndId⟩,
      fun i => .refl i h⟩
  · intro i s h hrest
    cases i with
    | communication => exact delivery_comm_safe hD hrest
    | resolver => exact delivery_resolver_safe hrest
    | rest => exact Delivery.rest_safe hrest
  · refine ⟨{}, fun j => .inr fun _ => rfl, .initial (obj r), fun i => ?_⟩
    cases i with
    | communication => exact ⟨.initial, (fun _ hf => by cases hf), rfl⟩
    | resolver =>
      refine ⟨rfl, rfl, (fun hf => by cases hf), ?_⟩
      rintro ⟨j, hf⟩
      cases hf
    | rest => exact fun _ hf => by cases hf

/-- **Every read end reaches the REST layer**: when nothing is left to do, the REST layer
has read the ids of exactly the objects that have been completed, each as often as it has
been completed, if none has been completed twice. -/
theorem read_ends_delivered (hD : D.Triples) (obj : Role → ℕ → ℕ → Byte)
    {σ : (service D r).State} {l : List ReadEndEvent}
    (hσ : (service D r).Traces SignalsIntact (fun σ _ => Unhurried σ) readEnds
      (service.start D r obj) l σ) (hsettled : NothingLeft σ) (hdistinct : (completed l).Nodup) :
    (processed l).Perm (completed l) := by
  obtain ⟨h, hl, hk⟩ := deliveryOutline_traces hD hσ
  -- the communication thread has reported everything
  obtain ⟨hreported, hclean⟩ : (∀ j, h.Reported j) ∧ h.dirty = false := by
    obtain ⟨s, hret | ⟨site, k, hop⟩⟩ := hsettled.comm
    · have hrest : AtRest D s ∧ (∀ j, h.Reported j) ∧ h.dirty = false := hk.rest hret
      exact hrest.2
    · have hnode : h.Node D .communication s ⟨site, .handshake⟩ := hk.node hop
      cases hnode.pre with
      | take reported clean => exact ⟨reported, clean⟩
      | other aside => exact aside.elim
  -- the resolver has nothing in hand
  obtain ⟨s, k, hop, hqueued⟩ := hsettled.resolver
  have hnode : h.Node D .resolver s ⟨.resolverEventLoop, .testAndSet .triggerResolve⟩ := hk.node hop
  obtain ⟨hahead, hhand⟩ : h.ahead = [] ∧ h.hand = .empty := by
    cases hnode.pre with
    | sweep ahead hand => exact ⟨ahead, hand⟩
    | other aside => exact aside.elim
  -- the cable is empty
  obtain ⟨s', k', hpeek⟩ := hsettled.rest
  have hnode' : h.Node D .rest s' ⟨.restEventLoop, .testAndSet .readEndUpdated⟩ := hk.node hpeek
  have hmail : h.mail = .empty := by
    have hq : s.readendCommandQueued = true ↔ ∃ j, h.mail = .queued j := hnode.queued
    cases hm : h.mail with
    | empty => rfl
    | queued j => exact absurd (hqueued.symm.trans (hq.mpr ⟨j, hm⟩)) (by decide)
    | announced j =>
      exact absurd (hsettled.unannounced.symm.trans (hk.1.updated.mpr ⟨j, hm⟩)) (by decide)
    | found j =>
      cases hnode'.pre with
      | peek mail => exact absurd hm (mail j)
      | other aside => exact aside.elim
  have hwaiting : ∀ j, h.waiting j = false := by
    intro j
    by_contra hf
    have hj : j < D.count := by
      by_contra hj
      exact hf (hk.1.table j (Nat.le_of_not_lt hj)).1
    obtain hdirty | htrigger | hin := hk.1.sweep j hj (by simpa using hf)
    · exact absurd (hclean.symm.trans hdirty) (by decide)
    · exact absurd (hsettled.untriggered.symm.trans htrigger) (by decide)
    · rw [hahead] at hin
      exact absurd hin List.not_mem_nil
  have hfault : ∀ j, h.fault j ≠ true := by
    intro j hf
    obtain hw | hw | hw := hreported j hf
    · exact absurd ((hwaiting j).symm.trans hw) (by decide)
    · rw [hhand] at hw
      cases hw
    · rw [hhand] at hw
      cases hw
  refine List.perm_iff_count.mpr fun j => ?_
  have htally := (hl j).resolve_left (hfault j) (List.nodup_iff_count_le_one.mp hdistinct j)
  rw [htally]
  simp [Delivery.places, hhand, hmail, hwaiting j, Hand.object, Mail.letter]

/-! ## Schedules -/

/-- **Replays of an end and its REST layer**, on a condition on the states a step is taken
in. -/
def service.script (D : DescriptorHelper) (r : Role) (check : (service D r).State → Bool) :
    (service D r).Script Command where
  act := Command.act r
  may v σ := Command.may r v σ.world
  check := check

/-- The FPGA with its REST layer, before anything happens. -/
def service.fpga : (service twoObjects .fpga).State :=
  service.start twoObjects .fpga fun _ _ _ => 0

/-- The peer hands over these bytes, one in each cycle. -/
def serving (bs : List Byte) : List (Pool.Entry Server Command) :=
  bs.flatMap fun b => [.act (.byte b), .go .communication 60]

theorem Command.signalsIntact {σ : (service D r).State} (c : Command) :
    SignalsIntact σ (c.act r σ.world) := by
  cases c with
  | byte b => exact ⟨fun _ => rfl, fun _ => rfl, rfl, rfl, rfl⟩
  | writeStart j b =>
    have hboard : ((Command.writeStart j b).act r σ.world).board r
        = { (σ.world.board r).setFlag .writeStartUpdated false with
          writeStartId := j
          transferWriteStartOut := fun _ => b } := World.setBoard_self ..
    have hflag : ∀ f, f ≠ .writeStartUpdated →
        (((Command.writeStart j b).act r σ.world).board r).flag f = (σ.world.board r).flag f := by
      intro f hf
      rw [hboard]
      exact Board.setFlag_of_ne _ _ hf
    refine ⟨fun _ => hflag _ (by simp), fun _ => hflag _ (by simp), hflag _ (by simp),
      hflag _ (by simp), ?_⟩
    rw [hboard]
    rfl

/-- `Unhurried`, as a test. -/
def unhurried (σ : (service D r).State) : Bool :=
  match σ.thread .resolver with
  | .op s ⟨.resolve, .storeReadEndId _⟩ _ =>
    !s.readendCommandQueued && (σ.world.board r).flag .readEndUpdated
      && !(σ.thread .rest).performs ⟨.restEventLoop, .loadReadEndId⟩
  | _ => true

theorem unhurried_spec {σ : (service D r).State} (h : unhurried σ = true) : Unhurried σ := by
  intro j s k hs
  unfold unhurried at h
  rw [hs] at h
  simp only [Bool.and_eq_true, Bool.not_eq_true'] at h
  refine ⟨h.1.1, h.1.2, fun s' k' hr => ?_⟩
  rw [hr] at h
  cases h.2

/-- `NothingLeft`, as a test. -/
def nothingLeft (σ : (service D r).State) : Bool :=
  between (σ.thread .communication)
    && (σ.thread .resolver).performs ⟨.resolverEventLoop, .testAndSet .triggerResolve⟩
    && !(σ.thread .resolver).state.readendCommandQueued
    && (σ.world.board r).flag .triggerResolve
    && (σ.thread .rest).performs ⟨.restEventLoop, .testAndSet .readEndUpdated⟩
    && (σ.world.board r).flag .readEndUpdated

theorem nothingLeft_spec {σ : (service D r).State} (h : nothingLeft σ = true) : NothingLeft σ := by
  unfold nothingLeft at h
  simp only [Bool.and_eq_true, Bool.not_eq_true'] at h
  obtain ⟨⟨⟨⟨⟨hcomm, hresolver⟩, hqueued⟩, htrigger⟩, hrest⟩, hupdated⟩ := h
  obtain ⟨k, hk⟩ := Prog.performs_spec hresolver
  obtain ⟨k', hk'⟩ := Prog.performs_spec hrest
  exact ⟨⟨_, between_spec hcomm⟩, ⟨_, k, hk, hqueued⟩, htrigger, ⟨_, k', hk'⟩, hupdated⟩

/-- Object 0 is received and the other two threads go on, before object 1 is. -/
theorem read_ends_delivered_two : ∃ (σ : (service twoObjects .fpga).State) (l : List ReadEndEvent),
    (service twoObjects .fpga).Traces SignalsIntact (fun σ _ => Unhurried σ) readEnds
      service.fpga l σ
    ∧ NothingLeft σ ∧ completed l = [0, 1] ∧ (processed l).Perm (completed l) := by
  obtain ⟨σ, l, hl, hp⟩ := Pool.Script.exists_of_record SignalsIntact (fun σ _ => Unhurried σ)
    (service.script twoObjects .fpga unhurried) readEnds
    (.go .communication 60 :: serving [0xBE, 0x81, 0x15, 0x2A, 0x33, 0x0C]
      ++ [.go .resolver 24, .go .rest 5] ++ serving [0x82, 0x09, 0x20, 0x30, 0x01]
      ++ [.go .resolver 20, .go .rest 4])
    service.fpga
    (fun x => nothingLeft x.1 && decide (completed x.2 = [0, 1]))
    (fun c _ _ => c.signalsIntact) (fun _ _ h => unhurried_spec h) (by decide +kernel)
  rw [Bool.and_eq_true] at hp
  have hsettled := nothingLeft_spec hp.1
  have hcompleted := of_decide_eq_true hp.2
  exact ⟨σ, l, hl, hsettled, hcompleted, read_ends_delivered twoObjects_triples (fun _ _ _ => 0) hl
    hsettled (by rw [hcompleted]; decide)⟩

/-- **A read end is lost**: both objects are received before the resolver goes on, and the
id of the second is put over that of the first. -/
theorem read_end_lost : ∃ (σ : (service twoObjects .fpga).State) (l : List ReadEndEvent),
    (service twoObjects .fpga).Traces SignalsIntact (fun _ _ => True) readEnds service.fpga l σ
    ∧ NothingLeft σ ∧ completed l = [0, 1] ∧ processed l = [1] := by
  obtain ⟨σ, l, hl, hp⟩ := Pool.Script.exists_of_record SignalsIntact (fun _ _ => True)
    (service.script twoObjects .fpga fun _ => true) readEnds
    (.go .communication 60 :: serving [0xBE, 0x81, 0, 0, 0, 0, 0x82, 0, 0, 0, 0]
      ++ [.go .resolver 26, .go .rest 5])
    service.fpga
    (fun x => nothingLeft x.1 && decide (completed x.2 = [0, 1]) && decide (processed x.2 = [1]))
    (fun c _ _ => c.signalsIntact) (fun _ _ _ => trivial) (by decide +kernel)
  simp only [Bool.and_eq_true] at hp
  exact ⟨σ, l, hl, nothingLeft_spec hp.1.1, of_decide_eq_true hp.1.2, of_decide_eq_true hp.2⟩

end SOS
