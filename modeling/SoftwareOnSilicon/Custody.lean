import SoftwareOnSilicon.Resolver
import SoftwareOnSilicon.Outline
import SoftwareOnSilicon.Emission

/-!
# The custody of a write request

A write request goes from the resolver to the communication thread and back through
`sync_me`, `write_fault` and `write_ack`. At any time one of the two threads has it
(`Token.owner`): the communication thread from the moment `sync_me` is cleared to
the one `write_ack` is, and the resolver for the rest of the time, in which there is
no request at all or one whose outcome is to be resolved.

`Custody` is where the request of each object is, with the contents of the objects
and what has been sent of each. Every operation of the two threads changes it as
`Custody.after` and `Custody.passed` say, given what the thread asserts before it
(`Custody.Pre`), and leaves what is the other thread's to it (`Custody.Pre.rely`).
-/

namespace SOS

open Interleaving

/-- **Where the write request of an object is.** -/
inductive Token where
  /-- There is none. -/
  | free
  /-- It has been accepted, and waits to be acknowledged by the peer. -/
  | queued
  /-- `emit_readlocked` has found it. -/
  | canceling
  /-- `emit_readlocked` has cleared `write_fault`. -/
  | faulted
  | cancelled
  /-- The resolver has found a cancelled request. -/
  | dropping
  | dropped
  /-- The peer has acknowledged it. -/
  | sending
  | sent
  /-- The resolver has found a request that has been sent. -/
  | settling
  deriving DecidableEq, Repr

namespace Token

/-- The thread that goes on with it. -/
def owner : Token → Worker
  | queued => .communication
  | canceling => .communication
  | faulted => .communication
  | sending => .communication
  | _ => .resolver

/-- `write_ack` is clear. -/
def acked : Token → Bool
  | cancelled => true
  | sent => true
  | _ => false

/-- `write_fault` is clear. -/
def marked : Token → Bool
  | faulted => true
  | cancelled => true
  | dropping => true
  | _ => false

/-- The other thread has just passed it on. -/
def offered : Token → Bool
  | queued => true
  | cancelled => true
  | sent => true
  | _ => false

end Token

/-- **Where the write requests are**, what is being peeked at, and the contents of the
objects. Since the last request of each object, `write_object` has fetched `fetches`,
with their indices, and the symbols that carry `emits` have been handed over. The last
symbol of an object is not among them. -/
structure Custody where
  token : ℕ → Token
  peek : Option ℕ
  obj : ℕ → ℕ → Byte
  fetches : ℕ → List (ℕ × Byte)
  emits : ℕ → List Byte

/-- The flags of a write request. -/
def Flag.isRequest : Flag → Bool
  | syncMe _ => true
  | writeAck _ => true
  | writeFault _ => true
  | _ => false

/-- Neither a flag nor an object is accessed, and no request is released. -/
def Access.Unowned : Access → Prop
  | testAndSet _ => False
  | clear _ => False
  | load _ _ => False
  | store _ _ _ => False
  | storeWriteEndId _ => False
  | _ => True

/-- The thread that performs an operation. -/
def Site.worker : Site → Worker
  | resolve => .resolver
  | resolverEventLoop => .resolver
  | readEnd => .resolver
  | writeStart => .resolver
  | _ => .communication

/-- A thread performs an operation. Both of them lock the descriptors, wherever that is. -/
def Op.By (i : Worker) (o : Op) : Prop :=
  o.site.worker = i ∨ o.access = .acquire .descriptorsUpdated
    ∨ o.access = .clear .descriptorsUpdated

namespace Custody

/-- Pass a request on. -/
def set (h : Custody) (j : ℕ) (t : Token) : Custody :=
  { h with token := Function.update h.token j t }

@[simp] theorem set_self (h : Custody) (j : ℕ) (t : Token) : (h.set j t).token j = t :=
  Function.update_self ..

theorem set_of_ne (h : Custody) {i j : ℕ} (t : Token) (hi : i ≠ j) :
    (h.set j t).token i = h.token i := Function.update_of_ne hi ..

theorem set_set (h : Custody) (j : ℕ) (t t' : Token) : (h.set j t).set j t' = h.set j t' := by
  simp [set]

/-- **What an operation does to the custody.** -/
def after (h : Custody) : (o : Op) → o.Answer → Custody
  | ⟨.emitReadlocked, .testAndSet (.syncMe j)⟩, false => h.set j .canceling
  | ⟨.emitTransfer, .testAndSet (.syncMe j)⟩, false => h.set j .sending
  | ⟨_, .testAndSet (.syncMe j)⟩, false => { h with peek := some j }
  | ⟨.writeStart, .clear (.syncMe j)⟩, _ =>
    { h.set j .queued with
      fetches := Function.update h.fetches j []
      emits := Function.update h.emits j [] }
  | ⟨_, .clear (.syncMe _)⟩, _ => { h with peek := none }
  | ⟨_, .clear (.writeFault j)⟩, _ => h.set j .faulted
  | ⟨.emitReadlocked, .clear (.writeAck j)⟩, _ => h.set j .cancelled
  | ⟨_, .clear (.writeAck j)⟩, _ => h.set j .sent
  | ⟨_, .testAndSet (.writeAck j)⟩, false =>
    h.set j (if h.token j = .sent then .settling else .dropping)
  | ⟨_, .testAndSet (.writeFault j)⟩, false => h.set j .dropped
  | ⟨_, .storeWriteEndId j⟩, _ => h.set j .free
  | ⟨.writeObject, .load j i⟩, b =>
    { h with fetches := Function.update h.fetches j (h.fetches j ++ [(i, b)]) }
  | ⟨_, .store j i b⟩, _ =>
    { h with obj := Function.update h.obj j (Function.update (h.obj j) i b) }
  | _, _ => h

/-- A symbol has been handed over. -/
def emit (h : Custody) (j : ℕ) (b : Byte) : Custody :=
  { h with emits := Function.update h.emits j (h.emits j ++ [b]) }

/-- A symbol of an object is handed over while its send goes on. `write_object` gives the
send up with the last one. -/
def passed (h : Custody) : (i : Worker) → i.Private → Op → Custody
  | .communication, s, ⟨_, .handshakeAck b⟩ =>
    if s.history.payload && s.sendLock then h.emit s.writeOrigin (stateCode b) else h
  | _, _, _ => h

/-- **An object has been sent**, up to its last symbol. -/
def Served (D : DescriptorHelper) (h : Custody) (j : ℕ) : Prop :=
  ∃ f : ℕ → Byte, h.fetches j = (List.range (D.objSize j)).map (fun i => (i, f i))
    ∧ h.emits j = symbolsOf f (4 * (D.objSize j / 3) - 1)

/-- **What has to hold before an operation.** -/
def Pre (D : DescriptorHelper) (h : Custody) (o : Op) : Prop :=
  match o.access with
  | .testAndSet (.syncMe j) => o.site.worker = .communication ∧ h.peek = none
    ∧ (o.site = .emitTransfer → h.token j = .queued)
  | .testAndSet (.writeAck _) => o.site.worker = .resolver
  | .testAndSet (.writeFault j) => o.site.worker = .resolver
    ∧ (h.token j = .settling ∨ h.token j = .dropping)
  | .clear (.syncMe j) =>
    if o.site = .writeStart then h.token j = .free
    else o.site.worker = .communication ∧ h.token j = .queued ∧ h.peek = some j
  | .clear (.writeFault j) => o.site.worker = .communication ∧ h.token j = .canceling
  | .clear (.writeAck j) => o.site.worker = .communication ∧
    if o.site = .emitReadlocked then h.token j = .faulted
    else h.token j = .sending ∧ h.Served D j
  | .acquire f => f = .descriptorsUpdated ∨ f = .readEndAcknowledge
  | .storeWriteEndId j => o.site.worker = .resolver ∧ h.token j = .settling
  | .load j _ => o.site = .writeObject → h.token j = .sending
  | .store j _ _ =>
    if o.site = .writeStart then h.token j = .free
    else o.site = .readObject ∧ h.token j ≠ .sending
  | _ => True

/-- **The board is as the custody says.** -/
structure Follows (D : DescriptorHelper) (h : Custody) (b : Board) : Prop where
  syncMe : ∀ j, b.flag (.syncMe j) = false ↔ h.token j = .queued ∧ h.peek ≠ some j
  writeAck : ∀ j, b.flag (.writeAck j) = !(h.token j).acked
  writeFault : ∀ j, b.flag (.writeFault j) = !(h.token j).marked
  obj : b.obj = h.obj
  peek : ∀ j, h.peek = some j → h.token j = .queued
  queued : ∀ j, h.token j = .queued → h.fetches j = [] ∧ h.emits j = []
  sent : ∀ j, h.token j = .sent ∨ h.token j = .settling → h.Served D j

/-- **What an answer tells.** -/
def Told (h : Custody) : (o : Op) → o.Answer → Prop
  | ⟨_, .testAndSet (.syncMe j)⟩, a => (@Eq Bool a false ↔ h.token j = .queued ∧ h.peek ≠ some j)
    ∧ (h.token j = .queued → h.fetches j = [] ∧ h.emits j = [])
  | ⟨_, .testAndSet (.writeAck j)⟩, a => @Eq Bool a (!(h.token j).acked)
  | ⟨_, .testAndSet (.writeFault j)⟩, a => @Eq Bool a (!(h.token j).marked)
  | ⟨_, .load j i⟩, a => @Eq Byte a (h.obj j i)
  | _, _ => True

variable {D : DescriptorHelper} {h h' : Custody} {b b' : Board} {site : Site} {j : ℕ}

/-! ## The cases of `after` -/

theorem after_miss {f : Flag} : h.after ⟨site, .testAndSet f⟩ true = h := by
  cases site <;> cases f <;> rfl

theorem after_peek (hc : site ≠ .emitReadlocked) (ht : site ≠ .emitTransfer) :
    h.after ⟨site, .testAndSet (.syncMe j)⟩ false = { h with peek := some j } := by
  cases site <;> first | rfl | exact absurd rfl hc | exact absurd rfl ht

theorem after_putBack (hs : site ≠ .writeStart) {x : Unit} :
    h.after ⟨site, .clear (.syncMe j)⟩ x = { h with peek := none } := by
  cases site <;> first | rfl | exact absurd rfl hs

theorem after_sent (hs : site ≠ .emitReadlocked) {x : Unit} :
    h.after ⟨site, .clear (.writeAck j)⟩ x = h.set j .sent := by
  cases site <;> first | rfl | exact absurd rfl hs

theorem after_found : h.after ⟨site, .testAndSet (.writeAck j)⟩ false
    = h.set j (if h.token j = .sent then .settling else .dropping) := by
  cases site <;> rfl

theorem after_dropped : h.after ⟨site, .testAndSet (.writeFault j)⟩ false = h.set j .dropped := by
  cases site <;> rfl

theorem after_faulted {x : Unit} :
    h.after ⟨site, .clear (.writeFault j)⟩ x = h.set j .faulted := by
  cases site <;> rfl

theorem after_released {x : Unit} : h.after ⟨site, .storeWriteEndId j⟩ x = h.set j .free := by
  cases site <;> rfl

theorem after_store {i : ℕ} {v : Byte} {x : Unit} : h.after ⟨site, .store j i v⟩ x
    = { h with obj := Function.update h.obj j (Function.update (h.obj j) i v) } := by
  cases site <;> rfl

theorem after_load (hs : site ≠ .writeObject) {i : ℕ} {v : Byte} :
    h.after ⟨site, .load j i⟩ v = h := by
  cases site <;> first | rfl | exact absurd rfl hs

theorem after_foreign {f : Flag} {a : Bool} (hf : f.isRequest = false) :
    h.after ⟨site, .testAndSet f⟩ a = h := by
  cases f <;> first | (cases site <;> cases a <;> rfl) | cases hf

theorem after_clear {f : Flag} {x : Unit} (hf : f.isRequest = false) :
    h.after ⟨site, .clear f⟩ x = h := by
  cases f <;> first | (cases site <;> rfl) | cases hf

theorem after_acquire {f : Flag} {x : Unit} : h.after ⟨site, .acquire f⟩ x = h := by
  cases site <;> rfl

theorem after_other {a : Access} {x : a.Answer} (ha : a.Unowned) : h.after ⟨site, a⟩ x = h := by
  cases a <;> first | (cases site <;> rfl) | exact ha.elim

/-- **Only the resolver releases a request.** -/
theorem after_free {o : Op} {a : o.Answer} (hf : (h.after o a).token j = .free) :
    h.token j = .free ∨ o.access = .storeWriteEndId j := by
  have hset : ∀ {i : ℕ} {t : Token}, t ≠ .free → (h.set i t).token j = .free →
      h.token j = .free := by
    intro i t ht hi
    by_cases hj : j = i
    · subst hj
      exact absurd ((set_self ..).symm.trans hi) ht
    · exact (set_of_ne _ _ hj).symm.trans hi
  unfold after at hf
  split at hf
  case h_9 => exact .inl (hset (by split <;> decide) hf)
  case h_11 site i x =>
    by_cases hj : j = i
    · exact .inr (by rw [hj])
    · exact .inl ((set_of_ne _ _ hj).symm.trans hf)
  all_goals first | exact .inl hf | exact .inl (hset (by decide) hf)

/-- Only a store changes an object. -/
theorem after_obj {o : Op} {a : o.Answer} (hs : ∀ i v, o.access ≠ .store j i v) :
    (h.after o a).obj j = h.obj j := by
  unfold after
  split
  case h_13 site k i v _ =>
    refine Function.update_of_ne ?_ ..
    rintro rfl
    exact hs i v rfl
  all_goals rfl

/-- Only a request and `write_object` change what has been fetched. -/
theorem after_fetches {o : Op} {a : o.Answer} (hc : ∀ j, o ≠ ⟨.writeStart, .clear (.syncMe j)⟩)
    (hl : ∀ j i, o ≠ ⟨.writeObject, .load j i⟩) : (h.after o a).fetches = h.fetches := by
  unfold after
  split
  case h_4 => exact absurd rfl (hc _)
  case h_12 => exact absurd rfl (hl _ _)
  all_goals rfl

/-- Only a request takes back what has been emitted. -/
theorem after_emits {o : Op} {a : o.Answer} (hc : ∀ j, o ≠ ⟨.writeStart, .clear (.syncMe j)⟩) :
    (h.after o a).emits = h.emits := by
  unfold after
  split
  case h_4 => exact absurd rfl (hc _)
  all_goals rfl

/-- Nothing but the token of the link hands a symbol over. -/
theorem passed_eq {i : Worker} {s : i.Private} {o : Op} (ho : ∀ b, o.access ≠ .handshakeAck b) :
    h.passed i s o = h := by
  unfold passed
  split
  case h_1 => exact absurd rfl (ho _)
  case h_2 => rfl

@[simp] theorem passed_token {i : Worker} {s : i.Private} {o : Op} :
    (h.passed i s o).token = h.token := by
  unfold passed
  split
  · split <;> rfl
  · rfl

@[simp] theorem passed_peek {i : Worker} {s : i.Private} {o : Op} :
    (h.passed i s o).peek = h.peek := by
  unfold passed
  split
  · split <;> rfl
  · rfl

@[simp] theorem passed_obj {i : Worker} {s : i.Private} {o : Op} :
    (h.passed i s o).obj = h.obj := by
  unfold passed
  split
  · split <;> rfl
  · rfl

/-! ## The board under the custody -/

namespace Follows

/-- A flag that has nothing to do with a write request. -/
theorem of_same (hf : h.Follows D b) (hflag : ∀ j, b'.flag (.syncMe j) = b.flag (.syncMe j)
      ∧ b'.flag (.writeAck j) = b.flag (.writeAck j)
      ∧ b'.flag (.writeFault j) = b.flag (.writeFault j))
    (hobj : b'.obj = b.obj) : h.Follows D b' :=
  { hf with
    syncMe := fun j => (hflag j).1 ▸ hf.syncMe j
    writeAck := fun j => (hflag j).2.1.trans (hf.writeAck j)
    writeFault := fun j => (hflag j).2.2.trans (hf.writeFault j)
    obj := hobj.trans hf.obj }

/-- A request that does not wait is not peeked at. -/
theorem unqueued (hf : h.Follows D b) (ht : h.token j ≠ .queued) :
    b.flag (.syncMe j) = true ∧ h.peek ≠ some j := by
  refine ⟨?_, fun hp => ht (hf.peek j hp)⟩
  by_contra hs
  exact ht ((hf.syncMe j).mp (by simpa using hs)).1

/-- What has been fetched and emitted of an object matters where it waits or has been
sent. -/
theorem record (hf : h.Follows D b) (hq : h.token j ≠ .queued)
    (hs : ¬ (h.token j = .sent ∨ h.token j = .settling)) (l : List (ℕ × Byte)) (l' : List Byte) :
    ({ h with
      fetches := Function.update h.fetches j l
      emits := Function.update h.emits j l' } : Custody).Follows D b :=
  { hf with
    queued := fun i hi => by
      have hne : i ≠ j := by
        rintro rfl
        exact hq hi
      simpa only [Function.update_of_ne hne] using hf.queued i hi
    sent := fun i hi => by
      have hne : i ≠ j := by
        rintro rfl
        exact hs hi
      simpa only [Served, Function.update_of_ne hne] using hf.sent i hi }

/-- **A write request is passed on.** -/
theorem set {t : Token} (hf : h.Follows D b)
    (hflag : ∀ i, i ≠ j → b'.flag (.syncMe i) = b.flag (.syncMe i)
      ∧ b'.flag (.writeAck i) = b.flag (.writeAck i)
      ∧ b'.flag (.writeFault i) = b.flag (.writeFault i))
    (hobj : b'.obj = b.obj) (hpeek : h.peek ≠ some j)
    (hsync : b'.flag (.syncMe j) = !(t == .queued)) (hack : b'.flag (.writeAck j) = !t.acked)
    (hfault : b'.flag (.writeFault j) = !t.marked)
    (hqueued : t = .queued → h.fetches j = [] ∧ h.emits j = [])
    (hsent : t = .sent ∨ t = .settling → h.Served D j) :
    (h.set j t).Follows D b' where
  syncMe i := by
    by_cases hi : i = j
    · subst hi
      rw [hsync, set_self]
      simpa [Custody.set] using fun _ => hpeek
    · rw [(hflag i hi).1, set_of_ne _ _ hi]
      exact hf.syncMe i
  writeAck i := by
    by_cases hi : i = j
    · subst hi
      rw [hack, set_self]
    · rw [(hflag i hi).2.1, set_of_ne _ _ hi, hf.writeAck]
  writeFault i := by
    by_cases hi : i = j
    · subst hi
      rw [hfault, set_self]
    · rw [(hflag i hi).2.2, set_of_ne _ _ hi, hf.writeFault]
  obj := hobj.trans hf.obj
  peek i hi := by
    have hne : i ≠ j := by
      rintro rfl
      exact hpeek hi
    rw [set_of_ne _ _ hne]
    exact hf.peek i hi
  queued i hi := by
    by_cases hne : i = j
    · subst hne
      rw [set_self] at hi
      exact hqueued hi
    · rw [set_of_ne _ _ hne] at hi
      exact hf.queued i hi
  sent i hi := by
    by_cases hne : i = j
    · subst hne
      rw [set_self] at hi
      exact hsent hi
    · rw [set_of_ne _ _ hne] at hi
      exact hf.sent i hi

/-- A request is taken, given up or peeked at. -/
theorem testSyncMe (hf : h.Follows D b) (hpeek : h.peek = none) :
    (h.after ⟨site, .testAndSet (.syncMe j)⟩ (b.flag (.syncMe j))).Follows D
      (b.setFlag (.syncMe j) true) := by
  cases hflag : b.flag (.syncMe j) with
  | true =>
    rw [after_miss, Board.setFlag_eq_self hflag]
    exact hf
  | false =>
    have hne : ∀ {g}, g ≠ .syncMe j → (b.setFlag (.syncMe j) true).flag g = b.flag g :=
      b.setFlag_of_ne true
    have hself : (b.setFlag (.syncMe j) true).flag (.syncMe j) = true := b.setFlag_self ..
    obtain ⟨hqueued, -⟩ := (hf.syncMe j).mp hflag
    have hset : ∀ t : Token, t ≠ .queued → t.acked = false → t.marked = false →
        (t = .sent ∨ t = .settling → h.Served D j) →
        (h.set j t).Follows D (b.setFlag (.syncMe j) true) := by
      intro t hq hack hmark hsent
      refine hf.set (fun i hi => ⟨hne (by simpa using hi), hne (by simp), hne (by simp)⟩) rfl
        (by simp [hpeek]) (hself.trans (by simpa using hq)) ?_ ?_ (fun ht => absurd ht hq) hsent
      · rw [hne (by simp), hf.writeAck, hqueued, hack]
        rfl
      · rw [hne (by simp), hf.writeFault, hqueued, hmark]
        rfl
    -- who tests the flag says what becomes of the request
    by_cases hc : site = .emitReadlocked
    · subst hc
      exact hset .canceling (by decide) rfl rfl (by simp)
    by_cases ht : site = .emitTransfer
    · subst ht
      exact hset .sending (by decide) rfl rfl (by simp)
    rw [after_peek hc ht]
    exact
      { hf with
        syncMe := fun i => by
          by_cases hi : i = j
          · subst hi
            rw [hself]
            simp
          · rw [hne (by simpa using hi), hf.syncMe, hpeek]
            simp [Ne.symm hi]
        writeAck := fun i => (hne (by simp)).trans (hf.writeAck i)
        writeFault := fun i => (hne (by simp)).trans (hf.writeFault i)
        peek := fun i hi => Option.some.inj hi ▸ hqueued }

/-- The resolver finds what has been acknowledged. -/
theorem testWriteAck (hf : h.Follows D b) :
    (h.after ⟨site, .testAndSet (.writeAck j)⟩ (b.flag (.writeAck j))).Follows D
      (b.setFlag (.writeAck j) true) := by
  cases hflag : b.flag (.writeAck j) with
  | true =>
    rw [after_miss, Board.setFlag_eq_self hflag]
    exact hf
  | false =>
    rw [after_found]
    have hne : ∀ {g}, g ≠ .writeAck j → (b.setFlag (.writeAck j) true).flag g = b.flag g :=
      b.setFlag_of_ne true
    have hack : (h.token j).acked = true := by
      have hw := hf.writeAck j
      rw [hflag] at hw
      simpa using hw.symm
    -- a request that has been acknowledged is not queued any more
    obtain ⟨hsync, hpeek⟩ := hf.unqueued fun ht => by
      rw [ht] at hack
      cases hack
    have hfault := hf.writeFault j
    refine hf.set (fun i hi => ⟨hne (by simp), hne (by simpa using hi), hne (by simp)⟩) rfl hpeek
      ?_ ?_ ?_ ?_ ?_
    · rw [hne (by simp), hsync]
      split <;> rfl
    · rw [Board.setFlag_self]
      split <;> rfl
    · rw [hne (by simp), hfault]
      cases ht : h.token j <;> first | rfl | (rw [ht] at hack; cases hack)
    · intro ht
      split at ht <;> cases ht
    · split
      case isTrue ht => exact fun _ => hf.sent j (.inl ht)
      case isFalse => exact fun ht => by rcases ht with ht | ht <;> cases ht

/-- It finds that the request has been given up. -/
theorem testWriteFault (hf : h.Follows D b)
    (hp : h.token j = .settling ∨ h.token j = .dropping) :
    (h.after ⟨site, .testAndSet (.writeFault j)⟩ (b.flag (.writeFault j))).Follows D
      (b.setFlag (.writeFault j) true) := by
  cases hflag : b.flag (.writeFault j) with
  | true =>
    rw [after_miss, Board.setFlag_eq_self hflag]
    exact hf
  | false =>
    rw [after_dropped]
    have hne : ∀ {g}, g ≠ .writeFault j → (b.setFlag (.writeFault j) true).flag g = b.flag g :=
      b.setFlag_of_ne true
    have hdropping : h.token j = .dropping := by
      refine hp.resolve_left fun hs => ?_
      have hw := hf.writeFault j
      rw [hflag, hs] at hw
      cases hw
    obtain ⟨hsync, hpeek⟩ := hf.unqueued fun ht => by
      rw [ht] at hdropping
      cases hdropping
    refine hf.set (fun i hi => ⟨hne (by simp), hne (by simp), hne (by simpa using hi)⟩) rfl hpeek
      ?_ ?_ (b.setFlag_self ..) (fun ht => by cases ht) (by simp)
    · rw [hne (by simp), hsync]
      rfl
    · rw [hne (by simp), hf.writeAck, hdropping]
      rfl

/-- **A flag is tested and set.** -/
theorem testAndSet {f : Flag} (hf : h.Follows D b) (hp : h.Pre D ⟨site, .testAndSet f⟩) :
    (h.after ⟨site, .testAndSet f⟩ (b.flag f)).Follows D (b.setFlag f true)
      ∧ h.Told ⟨site, .testAndSet f⟩ (b.flag f) := by
  cases f with
  | syncMe j =>
    obtain ⟨-, hpeek, -⟩ := hp
    exact ⟨hf.testSyncMe hpeek, hf.syncMe j, hf.queued j⟩
  | writeAck j => exact ⟨hf.testWriteAck, hf.writeAck j⟩
  | writeFault j => exact ⟨hf.testWriteFault hp.2, hf.writeFault j⟩
  | _ =>
    refine ⟨?_, trivial⟩
    rw [after_foreign rfl]
    exact hf.of_same (fun i => ⟨b.setFlag_of_ne _ (by simp), b.setFlag_of_ne _ (by simp),
      b.setFlag_of_ne _ (by simp)⟩) rfl

/-- A request is made, or put back. -/
theorem clearSyncMe {x : Unit} (hf : h.Follows D b) (hp : h.Pre D ⟨site, .clear (.syncMe j)⟩) :
    (h.after ⟨site, .clear (.syncMe j)⟩ x).Follows D (b.setFlag (.syncMe j) false) := by
  have hne : ∀ {g}, g ≠ .syncMe j → (b.setFlag (.syncMe j) false).flag g = b.flag g :=
    b.setFlag_of_ne false
  have hself : (b.setFlag (.syncMe j) false).flag (.syncMe j) = false := b.setFlag_self ..
  by_cases hs : site = .writeStart
  · subst hs
    have hfree : h.token j = .free := hp
    obtain ⟨-, hpeek⟩ := hf.unqueued (j := j) (by rw [hfree]; decide)
    refine (hf.record (by rw [hfree]; decide) (by rw [hfree]; decide) [] []).set
      (fun i hi => ⟨hne (by simpa using hi), hne (by simp), hne (by simp)⟩) rfl hpeek hself
      ?_ ?_ (fun _ => ⟨Function.update_self .., Function.update_self ..⟩) (by simp)
    · rw [hne (by simp), hf.writeAck, hfree]
      rfl
    · rw [hne (by simp), hf.writeFault, hfree]
      rfl
  · obtain ⟨-, hqueued, hpeek⟩ : site.worker = .communication ∧ h.token j = .queued
        ∧ h.peek = some j := by
      simpa only [Pre, if_neg hs] using hp
    rw [after_putBack hs]
    exact
      { hf with
        syncMe := fun i => by
          by_cases hi : i = j
          · subst hi
            simp [hqueued]
          · rw [hne (by simpa using hi), hf.syncMe, hpeek]
            simp [Ne.symm hi]
        writeAck := fun i => (hne (by simp)).trans (hf.writeAck i)
        writeFault := fun i => (hne (by simp)).trans (hf.writeFault i)
        peek := fun i hi => by cases hi }

/-- The communication thread gives a request up. -/
theorem clearWriteFault {x : Unit} (hf : h.Follows D b)
    (hp : h.Pre D ⟨site, .clear (.writeFault j)⟩) :
    (h.after ⟨site, .clear (.writeFault j)⟩ x).Follows D (b.setFlag (.writeFault j) false) := by
  have hne : ∀ {g}, g ≠ .writeFault j → (b.setFlag (.writeFault j) false).flag g = b.flag g :=
    b.setFlag_of_ne false
  have hself : (b.setFlag (.writeFault j) false).flag (.writeFault j) = false := b.setFlag_self ..
  have hcanceling : h.token j = .canceling := hp.2
  obtain ⟨hsync, hpeek⟩ := hf.unqueued (j := j) (by rw [hcanceling]; decide)
  rw [after_faulted]
  refine hf.set (fun i hi => ⟨hne (by simp), hne (by simp), hne (by simpa using hi)⟩) rfl hpeek
    ?_ ?_ hself (fun ht => by cases ht) (by simp)
  · rw [hne (by simp), hsync]
    rfl
  · rw [hne (by simp), hf.writeAck, hcanceling]
    rfl

/-- It acknowledges what it has sent, or given up. -/
theorem clearWriteAck {x : Unit} (hf : h.Follows D b) (hp : h.Pre D ⟨site, .clear (.writeAck j)⟩) :
    (h.after ⟨site, .clear (.writeAck j)⟩ x).Follows D (b.setFlag (.writeAck j) false) := by
  have hne : ∀ {g}, g ≠ .writeAck j → (b.setFlag (.writeAck j) false).flag g = b.flag g :=
    b.setFlag_of_ne false
  have hself : (b.setFlag (.writeAck j) false).flag (.writeAck j) = false := b.setFlag_self ..
  have hset : ∀ t : Token, h.token j ≠ .queued → t ≠ .queued → t.acked = true →
      t.marked = (h.token j).marked →
      (t = .sent ∨ t = .settling → h.Served D j) →
      (h.set j t).Follows D (b.setFlag (.writeAck j) false) := by
    intro t hq ht hack hmark hsent
    obtain ⟨hsync, hpeek⟩ := hf.unqueued hq
    refine hf.set (fun i hi => ⟨hne (by simp), hne (by simpa using hi), hne (by simp)⟩) rfl hpeek
      ?_ (hself.trans (by rw [hack]; rfl)) ?_ (fun hf => absurd hf ht) hsent
    · rw [hne (by simp), hsync]
      simpa using ht
    · rw [hne (by simp), hf.writeFault, hmark]
  by_cases hs : site = .emitReadlocked
  · subst hs
    have hfaulted : h.token j = .faulted := hp.2
    exact hset .cancelled (by rw [hfaulted]; decide) (by decide) rfl (by rw [hfaulted]; rfl)
      (by simp)
  · obtain ⟨-, hsending, hfetched⟩ : site.worker = .communication ∧ h.token j = .sending
        ∧ h.Served D j := by
      simpa only [Pre, if_neg hs] using hp
    rw [after_sent hs]
    exact hset .sent (by rw [hsending]; decide) (by decide) rfl (by rw [hsending]; rfl)
      fun _ => hfetched

/-- **A flag is cleared.** -/
theorem clear {f : Flag} {x : Unit} (hf : h.Follows D b) (hp : h.Pre D ⟨site, .clear f⟩) :
    (h.after ⟨site, .clear f⟩ x).Follows D (b.setFlag f false) := by
  cases f with
  | syncMe j => exact hf.clearSyncMe hp
  | writeFault j => exact hf.clearWriteFault hp
  | writeAck j => exact hf.clearWriteAck hp
  | _ =>
    rw [after_clear rfl]
    exact hf.of_same (fun i => ⟨b.setFlag_of_ne _ (by simp), b.setFlag_of_ne _ (by simp),
      b.setFlag_of_ne _ (by simp)⟩) rfl

/-- **Every operation does to the board what the custody says.** -/
theorem after {o : Op} {x : o.Answer} (hf : h.Follows D b) (hp : h.Pre D o)
    (hx : Board.exec o.access b = some (x, b')) :
    (h.after o x).Follows D b' ∧ h.Told o x := by
  obtain ⟨site, a⟩ := o
  cases a with
  | testAndSet f =>
    obtain ⟨rfl, rfl⟩ := Prod.mk.inj (Option.some.inj hx)
    exact hf.testAndSet hp
  | clear f =>
    obtain ⟨rfl, rfl⟩ := Prod.mk.inj (Option.some.inj hx)
    exact ⟨hf.clear hp, trivial⟩
  | acquire f =>
    rw [Board.exec] at hx
    split at hx
    · cases hx
    · obtain ⟨rfl, rfl⟩ := Prod.mk.inj (Option.some.inj hx)
      rw [after_acquire]
      refine ⟨?_, trivial⟩
      obtain rfl | rfl := (hp : f = .descriptorsUpdated ∨ f = .readEndAcknowledge) <;>
        exact hf.of_same (fun _ => ⟨rfl, rfl, rfl⟩) rfl
  | load j i =>
    obtain ⟨rfl, rfl⟩ := Prod.mk.inj (Option.some.inj hx)
    refine ⟨?_, congrFun (congrFun hf.obj j) i⟩
    by_cases hs : site = .writeObject
    · have hsending : h.token j = .sending := (hp : site = .writeObject → _) hs
      subst hs
      have hrecord := hf.record (by rw [hsending]; decide) (by rw [hsending]; decide)
        (h.fetches j ++ [(i, b.obj j i)]) (h.emits j)
      rwa [Function.update_eq_self] at hrecord
    · rw [after_load hs]
      exact hf
  | store j i v =>
    obtain ⟨rfl, rfl⟩ := Prod.mk.inj (Option.some.inj hx)
    rw [after_store]
    refine ⟨{ hf with obj := ?_ }, trivial⟩
    show Function.update b.obj j (Function.update (b.obj j) i v) = _
    rw [hf.obj]
  | storeWriteEndId j =>
    obtain ⟨rfl, rfl⟩ := Prod.mk.inj (Option.some.inj hx)
    have hsettling : h.token j = .settling := hp.2
    obtain ⟨hsync, hpeek⟩ := hf.unqueued (j := j) (by rw [hsettling]; decide)
    rw [after_released]
    refine ⟨hf.set (fun _ _ => ⟨rfl, rfl, rfl⟩) rfl hpeek hsync ?_ ?_ (fun ht => by cases ht)
      (by simp), trivial⟩
    · exact (hf.writeAck j).trans (by rw [hsettling]; rfl)
    · exact (hf.writeFault j).trans (by rw [hsettling]; rfl)
  | handshake => cases hx
  | handshakeAck => cases hx
  | _ =>
    obtain ⟨rfl, rfl⟩ := Prod.mk.inj (Option.some.inj hx)
    rw [after_other]
    · exact ⟨hf.of_same (fun _ => ⟨rfl, rfl, rfl⟩) rfl, trivial⟩
    · trivial

end Follows

/-! ## What the threads leave to each other -/

/-- **What a thread relies on**: what it has is left to it, and it gets a request in
the state in which it has been passed on. -/
structure Rely (i : Worker) (h h' : Custody) : Prop where
  own : ∀ j, (h.token j).owner = i → h'.token j = h.token j
  given : ∀ j, (h.token j).owner ≠ i → (h'.token j).owner = i → (h'.token j).offered = true
  peek : i = .communication → h'.peek = h.peek
  kept : i = .communication → ∀ j, (h.token j).owner = .communication →
    h'.obj j = h.obj j ∧ h'.fetches j = h.fetches j ∧ h'.emits j = h.emits j

namespace Rely

variable {i : Worker} {h'' : Custody}

theorem refl (i : Worker) (h : Custody) : Rely i h h where
  own _ _ := rfl
  given _ hn hi := absurd hi hn
  peek _ := rfl
  kept _ _ _ := ⟨rfl, rfl, rfl⟩

theorem trans (h₁ : Rely i h h') (h₂ : Rely i h' h'') : Rely i h h'' where
  own j hj := by
    have he := h₁.own j hj
    rw [h₂.own j (he ▸ hj), he]
  given j hn hi := by
    by_cases hj : (h'.token j).owner = i
    · rw [h₂.own j hj]
      exact h₁.given j hn hj
    · exact h₂.given j hj hi
  peek hi := (h₂.peek hi).trans (h₁.peek hi)
  kept hi j hj := by
    have hj' : (h'.token j).owner = .communication := by
      rw [h₁.own j (hj.trans hi.symm)]
      exact hj
    obtain ⟨hobj, hfetches, hemits⟩ := h₁.kept hi j hj
    obtain ⟨hobj', hfetches', hemits'⟩ := h₂.kept hi j hj'
    exact ⟨hobj'.trans hobj, hfetches'.trans hfetches, hemits'.trans hemits⟩

/-- What the communication thread hands over is nothing to the resolver. -/
theorem passed {i' : Worker} {s : i'.Private} {o : Op} (hi : i ≠ i') :
    Rely i h (h.passed i' s o) where
  own j _ := congrFun passed_token j
  given j hn hi := absurd (congrFun passed_token j ▸ hi) hn
  peek _ := passed_peek
  kept hc j _ := by
    cases i' with
    | communication => exact absurd hc hi
    | resolver => exact ⟨rfl, rfl, rfl⟩

/-- **A request is passed on** by the thread that has it. -/
theorem set {t : Token} (hj : (h.token j).owner ≠ i) (ht : t.owner = i → t.offered = true) :
    Rely i h (h.set j t) where
  own k hk := by
    refine set_of_ne _ _ ?_
    rintro rfl
    exact hj hk
  given k hn hi := by
    by_cases hk : k = j
    · subst hk
      rw [set_self] at hi ⊢
      exact ht hi
    · rw [set_of_ne _ _ hk] at hi
      exact absurd hi hn
  peek _ := rfl
  kept _ _ _ := ⟨rfl, rfl, rfl⟩

end Rely

/-- The resolver relies on its requests only. -/
theorem Rely.resolver (htoken : h'.token = h.token) : Rely .resolver h h' where
  own j _ := congrFun htoken j
  given j hn hi := absurd (congrFun htoken j ▸ hi) hn
  peek hi := by cases hi
  kept hi := by cases hi

/-- The other thread of two. -/
theorem resolver_of_ne {i : Worker} (hi : i ≠ site.worker) (hs : site.worker = .communication) :
    i = .resolver := by
  cases i with
  | communication => exact absurd hs.symm hi
  | resolver => rfl

theorem communication_of_ne {i : Worker} (hi : i ≠ site.worker) (hs : site.worker = .resolver) :
    i = .communication := by
  cases i with
  | communication => rfl
  | resolver => exact absurd hs.symm hi

/-- A flag is tested. -/
theorem Pre.rely_testAndSet {f : Flag} {x : Bool} {i : Worker}
    (hp : h.Pre D ⟨site, .testAndSet f⟩) (hx : h.Told ⟨site, .testAndSet f⟩ x)
    (hi : i ≠ site.worker) : Rely i h (h.after ⟨site, .testAndSet f⟩ x) := by
  cases x with
  | true =>
    rw [after_miss]
    exact .refl i h
  | false =>
    cases f with
    | syncMe j =>
      obtain ⟨hworker, -, -⟩ := hp
      obtain rfl := resolver_of_ne hi hworker
      have hqueued : h.token j = .queued := (hx.1.mp rfl).1
      by_cases hc : site = .emitReadlocked
      · subst hc
        exact Rely.set (by rw [hqueued]; decide) (by decide)
      by_cases ht : site = .emitTransfer
      · subst ht
        exact Rely.set (by rw [hqueued]; decide) (by decide)
      rw [after_peek hc ht]
      exact Rely.resolver rfl
    | writeAck j =>
      obtain rfl := communication_of_ne hi hp
      have hack : (h.token j).acked = true := by
        have h' : false = !(h.token j).acked := hx
        simpa using h'.symm
      rw [after_found]
      refine Rely.set ?_ ?_
      · cases ht : h.token j <;> first | decide | (rw [ht] at hack; cases hack)
      · split <;> decide
    | writeFault j =>
      obtain ⟨hworker, htoken⟩ := hp
      obtain rfl := communication_of_ne hi hworker
      rw [after_dropped]
      refine Rely.set ?_ (by decide)
      obtain ht | ht := htoken <;> (rw [ht]; decide)
    | _ =>
      rw [after_foreign rfl]
      exact .refl i h

/-- A flag is cleared. -/
theorem Pre.rely_clear {f : Flag} {x : Unit} {i : Worker} (hp : h.Pre D ⟨site, .clear f⟩)
    (hi : i ≠ site.worker) : Rely i h (h.after ⟨site, .clear f⟩ x) := by
  cases f with
  | syncMe j =>
    by_cases hs : site = .writeStart
    · subst hs
      obtain rfl := communication_of_ne hi rfl
      have hfree : h.token j = .free := hp
      -- a request that is free belongs to the resolver, who offers it
      have hset : Rely .communication h (h.set j .queued) :=
        Rely.set (by rw [hfree]; decide) fun _ => rfl
      refine { hset with kept := fun hi k hk => ?_ }
      have hne : k ≠ j := by
        rintro rfl
        rw [hfree] at hk
        cases hk
      exact ⟨rfl, Function.update_of_ne hne .., Function.update_of_ne hne ..⟩
    · obtain ⟨hworker, -, -⟩ : site.worker = .communication ∧ h.token j = .queued
          ∧ h.peek = some j := by
        simpa only [Pre, if_neg hs] using hp
      obtain rfl := resolver_of_ne hi hworker
      rw [after_putBack hs]
      exact Rely.resolver rfl
  | writeFault j =>
    obtain ⟨hworker, hcanceling⟩ := hp
    obtain rfl := resolver_of_ne hi hworker
    rw [after_faulted]
    exact Rely.set (by rw [hcanceling]; decide) (by decide)
  | writeAck j =>
    obtain ⟨hworker, htoken⟩ := hp
    obtain rfl := resolver_of_ne hi hworker
    by_cases hs : site = .emitReadlocked
    · subst hs
      have hfaulted : h.token j = .faulted := htoken
      exact Rely.set (by rw [hfaulted]; decide) fun _ => rfl
    · have hsending : h.token j = .sending := by
        have h' := htoken
        simp only [if_neg hs] at h'
        exact h'.1
      rw [after_sent hs]
      exact Rely.set (by rw [hsending]; decide) fun _ => rfl
  | _ =>
    rw [after_clear rfl]
    exact .refl i h

/-- **An operation leaves to the other thread what it relies on.** -/
theorem Pre.rely {o : Op} {x : o.Answer} {i : Worker} (hp : h.Pre D o) (hx : h.Told o x)
    (hi : i ≠ o.site.worker) : Rely i h (h.after o x) := by
  obtain ⟨site, a⟩ := o
  cases a with
  | testAndSet f => exact hp.rely_testAndSet hx hi
  | clear f => exact hp.rely_clear hi
  | acquire f =>
    rw [after_acquire]
    exact .refl i h
  | load j k =>
    by_cases hs : site = .writeObject
    · subst hs
      obtain rfl := resolver_of_ne hi rfl
      exact Rely.resolver rfl
    · rw [after_load hs]
      exact .refl i h
  | store j k v =>
    rw [after_store]
    by_cases hs : site = .writeStart
    · subst hs
      obtain rfl := communication_of_ne hi rfl
      have hfree : h.token j = .free := hp
      refine { Rely.refl .communication h with kept := fun _ k hk => ⟨?_, rfl, rfl⟩ }
      refine Function.update_of_ne ?_ ..
      rintro rfl
      rw [hfree] at hk
      cases hk
    · obtain ⟨rfl, -⟩ : site = .readObject ∧ h.token j ≠ .sending := by
        simpa only [Pre, if_neg hs] using hp
      obtain rfl := resolver_of_ne hi rfl
      exact Rely.resolver rfl
  | storeWriteEndId j =>
    obtain ⟨hworker, hsettling⟩ := hp
    obtain rfl := communication_of_ne hi hworker
    rw [after_released]
    exact Rely.set (by rw [hsettling]; decide) (by decide)
  | _ =>
    rw [after_other]
    · exact .refl i h
    · trivial

/-- A request is not taken from the thread that has it. -/
theorem Rely.owned {i : Worker} {t : Token} (hr : Rely i h h') (ht : t.owner = i)
    (hn : t.offered = false) : h'.token j = t ↔ h.token j = t := by
  constructor
  · intro hj
    by_contra hne
    by_cases hi : (h.token j).owner = i
    · exact hne ((hr.own j hi).symm.trans hj)
    · have hoff := hr.given j hi (hj ▸ ht)
      rw [hj, hn] at hoff
      cases hoff
  · intro hj
    rw [hr.own j (hj ▸ ht), hj]

/-- **What is asserted before an operation survives interference.** -/
theorem Pre.stable {o : Op} (hp : h.Pre D o) (hr : Rely o.site.worker h h') : h'.Pre D o := by
  obtain ⟨site, a⟩ := o
  -- what a thread owns is left to it
  have hown : ∀ {k : ℕ} {t : Token}, h.token k = t → t.owner = site.worker → h'.token k = t :=
    fun ht hw => (hr.own _ (ht ▸ hw)).trans ht
  have hsending : ∀ {k : ℕ}, site.worker = .communication → h.token k ≠ .sending →
      h'.token k ≠ .sending := fun hw hn ht =>
    hn ((hr.owned (show Token.sending.owner = _ from hw.symm) rfl).mp ht)
  cases a with
  | testAndSet f =>
    cases f with
    | syncMe j =>
      obtain ⟨hw, hpeek, hqueued⟩ := hp
      exact ⟨hw, (hr.peek hw).trans hpeek, fun hs => hown (hqueued hs) hw.symm⟩
    | writeAck j => exact hp
    | writeFault j =>
      obtain ⟨hw, hs | hd⟩ := hp
      · exact ⟨hw, .inl (hown hs hw.symm)⟩
      · exact ⟨hw, .inr (hown hd hw.symm)⟩
    | _ => trivial
  | clear f =>
    cases f with
    | syncMe j =>
      by_cases hs : site = .writeStart
      · subst hs
        have hfree : h.token j = .free := hp
        exact hown hfree rfl
      · simp only [Pre, if_neg hs] at hp ⊢
        obtain ⟨hw, hqueued, hpeek⟩ := hp
        exact ⟨hw, hown hqueued hw.symm, (hr.peek hw).trans hpeek⟩
    | writeFault j =>
      obtain ⟨hw, hcanceling⟩ := hp
      exact ⟨hw, hown hcanceling hw.symm⟩
    | writeAck j =>
      obtain ⟨hw, htoken⟩ := hp
      refine ⟨hw, ?_⟩
      by_cases hs : site = .emitReadlocked
      · simp only [if_pos hs] at htoken ⊢
        exact hown htoken hw.symm
      · simp only [if_neg hs] at htoken ⊢
        obtain ⟨hsending, hserved⟩ := htoken
        obtain ⟨-, hfetches, hemits⟩ := hr.kept hw j (by rw [hsending]; rfl)
        refine ⟨hown hsending hw.symm, ?_⟩
        unfold Served
        rw [hfetches, hemits]
        exact hserved
    | _ => trivial
  | acquire f => exact hp
  | storeWriteEndId j =>
    obtain ⟨hw, hsettling⟩ := hp
    exact ⟨hw, hown hsettling hw.symm⟩
  | load j i =>
    intro hs
    subst hs
    exact hown ((hp : Site.writeObject = Site.writeObject → _) rfl) rfl
  | store j i v =>
    by_cases hs : site = .writeStart
    · subst hs
      have hfree : h.token j = .free := hp
      exact hown hfree rfl
    · simp only [Pre, if_neg hs] at hp ⊢
      obtain ⟨rfl, hn⟩ := hp
      exact ⟨rfl, hsending rfl hn⟩
  | _ => trivial

/-- **Each thread stores in one place only.** -/
theorem Pre.store {i : Worker} {k : ℕ} {v : Byte} (hp : h.Pre D ⟨site, .store j k v⟩)
    (hi : Op.By i ⟨site, .store j k v⟩) :
    i = .resolver ∧ site = .writeStart ∧ h.token j = .free
    ∨ i = .communication ∧ site = .readObject ∧ h.token j ≠ .sending := by
  obtain hw | hw | hw := hi
  · by_cases hs : site = .writeStart
    · subst hs
      exact .inl ⟨hw.symm, rfl, hp⟩
    · simp only [Pre, if_neg hs] at hp
      obtain ⟨rfl, hn⟩ := hp
      exact .inr ⟨hw.symm, rfl, hn⟩
  · cases hw
  · cases hw

theorem Pre.stable_by {o : Op} {i : Worker} (hp : h.Pre D o) (hi : o.By i) (hr : Rely i h h') :
    h'.Pre D o := by
  obtain ⟨site, a⟩ := o
  obtain hw | rfl | rfl := (hi : site.worker = i ∨ a = _ ∨ a = _)
  · exact hp.stable (hw.symm ▸ hr)
  · exact .inl rfl
  · trivial

theorem Pre.rely_by {o : Op} {x : o.Answer} {i i' : Worker} (hp : h.Pre D o) (hx : h.Told o x)
    (hi : o.By i) (hne : i' ≠ i) : Rely i' h (h.after o x) := by
  obtain ⟨site, a⟩ := o
  obtain hw | rfl | rfl := (hi : site.worker = i ∨ a = _ ∨ a = _)
  · exact hp.rely hx (hw.symm ▸ hne)
  · rw [after_acquire]
    exact .refl i' h
  · rw [after_clear rfl]
    exact .refl i' h

end Custody

end SOS
