import SoftwareOnSilicon.Commands
import SoftwareOnSilicon.History
import SoftwareOnSilicon.Round
import SoftwareOnSilicon.Upkeep

/-!
# What a read end delivers

When the communication thread has completed a receive, the resolver copies the object and
signals the read end. The copy is made later: `readEnd` waits for the acknowledge of the last
read end, and the next receive of the object, or a write start, may have begun by then. And the
loop that copies has no index on the side of the object, so that every byte of the copy is the
first one of the object.

So a read end delivers what a completed receive has left if, where the object is read, its
first byte is still every byte that some receive has left (`read_ends_faithful`); an object whose
bytes are not all the same is never delivered (`read_end_garbled`). That the copy is of one
moment, and of an object that has been received, holds in every run: the descriptors are locked
for the whole loop, and an interrupted receive is not taken for a completed one.
-/

namespace SOS

open Interleaving Code

variable {D : DescriptorHelper} {r : Role}

/-! ## An end, with its receipts -/

/-- **What a receive has left**: the object, and its bytes when `emit_received` clears
`read_ack`. -/
structure Receipt where
  id : ℕ
  bytes : ℕ → Byte

/-- What an operation shows of the receives. -/
def Op.receipts : Op → Board → List Receipt
  | ⟨.emitReceived, .clear (.readAck j)⟩, b => [⟨j, b.obj j⟩]
  | _, _ => []

/-- **An end that keeps the receipts** of its receives. -/
def delivering (D : DescriptorHelper) (r : Role) :
    Pool Worker Worker.Private ErrorCode Op.Answer (World × List Receipt) :=
  (process D r).recorded fun _ o w => o.receipts (w.board r)

/-- Both processes have been started, and nothing has been received. -/
def delivering.start (D : DescriptorHelper) (r : Role) (obj : Role → ℕ → ℕ → Byte) :
    (delivering D r).State :=
  (process.start D r obj).record []

/-- **The receipts take no part in what happens**: an end runs as it does without them. -/
theorem delivering_reaches_iff {env : (process D r).State → World → Prop}
    {σ₀ σ : (process D r).State} : (process D r).Reaches env (fun _ _ => True) σ₀ σ
      ↔ ∃ l, (delivering D r).Reaches (fun σ x => env σ.forget x.1 ∧ x.2 = σ.world.2)
        (fun _ _ => True) (σ₀.record []) (σ.record l) := by
  constructor
  · exact Pool.Reaches.exists_recorded _
  · rintro ⟨l, hl⟩
    exact Pool.Reaches.forget (hl.mono (fun _ _ h => h.1) fun _ _ => id)

/-- **What the REST layer and the destructor leave alone**: the objects and their lock, the copy
and its id. A receive that is interrupted is reported as a fault first. -/
structure CopyIntact (σ : (delivering D r).State) (w : World × List Receipt) : Prop where
  receipts : w.2 = σ.world.2
  obj : (w.1.board r).obj = (σ.world.1.board r).obj
  copy : (w.1.board r).transferReadEndIn = (σ.world.1.board r).transferReadEndIn
  readEndId : (w.1.board r).readEndId = (σ.world.1.board r).readEndId
  lock : (w.1.board r).flag .descriptorsUpdated = (σ.world.1.board r).flag .descriptorsUpdated
  fault : ∀ j, (σ.world.1.board r).flag (.readFault j) = false →
    (w.1.board r).flag (.readFault j) = false
  ack : ∀ j, (w.1.board r).flag (.readAck j) = false →
    (σ.world.1.board r).flag (.readAck j) = false ∨ (w.1.board r).flag (.readFault j) = false

/-- A receive of the object has been completed. -/
def Receipted (l : List Receipt) (j : ℕ) : Prop := ∃ c ∈ l, c.id = j

/-- A receive has left this in every byte of the object. -/
def Uniform (D : DescriptorHelper) (l : List Receipt) (j : ℕ) (b : Byte) : Prop :=
  ∃ c ∈ l, c.id = j ∧ ∀ i < D.objSize j, c.bytes i = b

/-- **Where the resolver reads an object**, its first byte is every byte that a completed receive
has left. -/
def Unspoiled (σ : (delivering D r).State) : Prop :=
  ∀ s j k, σ.thread .resolver = .op s ⟨.readEnd, .load j 0⟩ k → Receipted σ.world.2 j →
    Uniform D σ.world.2 j ((σ.world.1.board r).obj j 0)

/-- **A read end that is signalled is faithful**: its bytes are those that a completed receive of
the object has left. -/
def Faithful (σ : (delivering D r).State) : Prop :=
  ∀ s k, σ.thread .resolver = .op s ⟨.readEnd, .clear .readEndUpdated⟩ k →
    ∃ c ∈ σ.world.2, c.id = (σ.world.1.board r).readEndId
      ∧ ∀ i < D.objSize c.id, (σ.world.1.board r).transferReadEndIn i = c.bytes i

/-! ## What is followed -/

/-- **What is followed of an end**: its board, the receipts, the thread that has locked the
descriptors, and whether the resolver has found a fault. -/
structure Copying where
  board : Board
  receipts : List Receipt
  holder : Option Worker
  failed : Bool

namespace Copying

/-- Who has locked the descriptors after an access. -/
def holderAfter (i : Worker) (holder : Option Worker) : Access → Option Worker
  | .acquire .descriptorsUpdated => some i
  | .clear .descriptorsUpdated => none
  | _ => holder

/-- Whether a fault has been found. -/
def finds : (o : Op) → o.Answer → Bool
  | ⟨_, .testAndSet (.readFault _)⟩, a => !a
  | _, _ => false

/-- A receive that the resolver may find reported has been completed, or its fault is found. -/
def Marked (h : Copying) (j : ℕ) : Prop :=
  h.failed = true ∨ h.board.flag (.readFault j) = false ∨ Receipted h.receipts j

/-- The id in the cable is that of an object that has been received. -/
def Cabled (h : Copying) : Prop :=
  Receipted h.receipts h.board.readEndId ∧ h.board.readEndId < numIds

/-- What has been copied is what a receive has left. -/
def Delivered (D : DescriptorHelper) (h : Copying) : Prop :=
  ∃ c ∈ h.receipts, c.id = h.board.readEndId
    ∧ ∀ i < D.objSize c.id, h.board.transferReadEndIn i = c.bytes i

/-- **An operation happens.** -/
structure Happens (i : Worker) (o : Op) (a : o.Answer) (h h' : Copying) : Prop where
  board : Board.exec o.access h.board = some (a, h'.board)
    ∨ (o.access = .handshake ∨ ∃ b, o.access = .handshakeAck b) ∧ h'.board = h.board
  receipts : h'.receipts = h.receipts ++ o.receipts h.board
  holder : h'.holder = holderAfter i h.holder o.access
  failed : h'.failed = (h.failed || finds o a)

/-- **What has to hold before an operation**: an object is only written to by the thread that
has locked the descriptors, and an interrupted receive is reported as a fault first. -/
def Pre (i : Worker) (h : Copying) (o : Op) : Prop :=
  match o.access with
  | .acquire f => f = .descriptorsUpdated ∨ f = .readEndAcknowledge
  | .clear .descriptorsUpdated => h.holder = some i
  | .clear (.readAck j) =>
    o.site = .emitReceived ∨ h.failed = true ∨ h.board.flag (.readFault j) = false
  | .testAndSet .descriptorsUpdated => False
  | .testAndSet (.readFault _) => i = .resolver
  | .store _ _ _ => h.holder = some i
  | .storeReadEndId _ => i = .resolver
  | .storeReadEnd _ _ => i = .resolver
  | _ => True

/-- **The world is as it is followed.** -/
structure Follows (r : Role) (h : Copying) (x : World × List Receipt) : Prop where
  board : x.1.board r = h.board
  receipts : x.2 = h.receipts
  lock : h.board.flag .descriptorsUpdated = h.holder.isSome
  ack : ∀ j, h.board.flag (.readAck j) = false → h.Marked j

/-- What an answer tells. -/
def Told (D : DescriptorHelper) (h : Copying) : Worker → (o : Op) → o.Answer → Prop
  | _, ⟨_, .testAndSet (.readAck j)⟩, a => @Eq Bool a false → h.Marked j
  | .resolver, ⟨.readEnd, .load j 0⟩, _ =>
    Receipted h.receipts j → Uniform D h.receipts j (h.board.obj j 0)
  | _, _, _ => True

/-- **What a thread relies on.** -/
structure Rely (i : Worker) (h h' : Copying) : Prop where
  holder : h'.holder = some i ↔ h.holder = some i
  /-- Nothing is written while the descriptors are locked. -/
  obj : h.holder = some i → h'.board.obj = h.board.obj
  receipts : ∀ c ∈ h.receipts, c ∈ h'.receipts
  /-- Only the resolver takes a fault back. -/
  comm : i = .communication → ∀ j, h.failed = true ∨ h.board.flag (.readFault j) = false →
    h'.failed = true ∨ h'.board.flag (.readFault j) = false
  resolver : i = .resolver → h'.failed = h.failed
    ∧ h'.board.transferReadEndIn = h.board.transferReadEndIn
    ∧ h'.board.readEndId = h.board.readEndId
    ∧ ∀ j, h.board.flag (.readFault j) = false → h'.board.flag (.readFault j) = false

variable {h h' h'' : Copying} {i i' : Worker} {o : Op} {a : o.Answer} {j : ℕ}

theorem Rely.refl (i : Worker) (h : Copying) : Rely i h h where
  holder := .rfl
  obj _ := rfl
  receipts _ hc := hc
  comm _ _ hj := hj
  resolver _ := ⟨rfl, rfl, rfl, fun _ hj => hj⟩

theorem Rely.trans (hr : Rely i h h') (hr' : Rely i h' h'') : Rely i h h'' where
  holder := hr'.holder.trans hr.holder
  obj hi := (hr'.obj (hr.holder.mpr hi)).trans (hr.obj hi)
  receipts c hc := hr'.receipts c (hr.receipts c hc)
  comm hi j hj := hr'.comm hi j (hr.comm hi j hj)
  resolver hi := by
    obtain ⟨hfailed, hcopy, hid, hfault⟩ := hr.resolver hi
    obtain ⟨hfailed', hcopy', hid', hfault'⟩ := hr'.resolver hi
    exact ⟨hfailed'.trans hfailed, hcopy'.trans hcopy, hid'.trans hid,
      fun j hj => hfault' j (hfault j hj)⟩

theorem Rely.receipted (hr : Rely i h h') (hj : Receipted h.receipts j) :
    Receipted h'.receipts j := by
  obtain ⟨c, hc, hid⟩ := hj
  exact ⟨c, hr.receipts c hc, hid⟩

theorem Rely.cabled (hr : Rely .resolver h h') (hc : h.Cabled) : h'.Cabled := by
  obtain ⟨-, -, hid, -⟩ := hr.resolver rfl
  unfold Cabled
  rw [hid]
  exact ⟨hr.receipted hc.1, hc.2⟩

theorem Rely.delivered (hr : Rely .resolver h h') (hd : h.Delivered D) : h'.Delivered D := by
  obtain ⟨-, hcopy, hid, -⟩ := hr.resolver rfl
  obtain ⟨c, hc, hcid, hbytes⟩ := hd
  refine ⟨c, hr.receipts c hc, hcid.trans hid.symm, ?_⟩
  rw [hcopy]
  exact hbytes

/-- What holds before an operation survives interference. -/
theorem Pre.stable (hp : h.Pre i o) (hr : Rely i h h') : h'.Pre i o := by
  obtain ⟨site, acc⟩ := o
  cases acc with
  | clear f =>
    cases f with
    | descriptorsUpdated => exact hr.holder.mpr hp
    | readAck j =>
      refine hp.imp_right fun hj => ?_
      cases i with
      | communication => exact hr.comm rfl j hj
      | resolver =>
        obtain ⟨hfailed, -, -, hfault⟩ := hr.resolver rfl
        exact hj.imp hfailed.trans (hfault j)
    | _ => trivial
  | testAndSet f => cases f <;> exact hp
  | store => exact hr.holder.mpr hp
  | _ => exact hp

/-! ## What an operation does -/

namespace Happens

variable (hx : Happens i o a h h')

include hx

/-- All but the handshakes are accesses to the board. -/
theorem exec (ht : o.access ≠ .handshake) (hg : ∀ b, o.access ≠ .handshakeAck b) :
    Board.exec o.access h.board = some (a, h'.board) := by
  obtain hexec | ⟨hf | ⟨b, hf⟩, -⟩ := hx.board
  · exact hexec
  · exact absurd hf ht
  · exact absurd hf (hg b)

/-- An operation changes no flag but its own. -/
theorem flag {f : Flag} (ht : o.access ≠ .testAndSet f) (hc : o.access ≠ .clear f)
    (ha : o.access ≠ .acquire f) : h'.board.flag f = h.board.flag f := by
  obtain hexec | ⟨-, hboard⟩ := hx.board
  · exact Board.exec_flag hexec ht hc ha
  · rw [hboard]

theorem obj (hs : ∀ j i b, o.access ≠ .store j i b) : h'.board.obj = h.board.obj := by
  obtain hexec | ⟨-, hboard⟩ := hx.board
  · exact (Board.exec_bytes hexec).1 hs
  · rw [hboard]

theorem copy (hs : ∀ i b, o.access ≠ .storeReadEnd i b) :
    h'.board.transferReadEndIn = h.board.transferReadEndIn := by
  obtain hexec | ⟨-, hboard⟩ := hx.board
  · exact (Board.exec_bytes hexec).2.1 hs
  · rw [hboard]

theorem readEndId (hs : ∀ j, o.access ≠ .storeReadEndId j) :
    h'.board.readEndId = h.board.readEndId := by
  obtain hexec | ⟨-, hboard⟩ := hx.board
  · exact (Board.exec_bytes hexec).2.2 hs
  · rw [hboard]

theorem mem_receipts {c : Receipt} (hc : c ∈ h.receipts) : c ∈ h'.receipts := by
  rw [hx.receipts]
  exact List.mem_append_left _ hc

/-- A flag that is tested is set. -/
theorem testAndSet {f : Flag} (ho : o.access = .testAndSet f) : h'.board.flag f = true := by
  obtain ⟨site, acc⟩ := o
  obtain rfl : acc = .testAndSet f := ho
  have hexec := hx.exec (by simp) (by simp)
  obtain ⟨-, hboard⟩ := Prod.mk.inj (Option.some.inj hexec)
  rw [← hboard, Board.setFlag_self]

/-- A flag that is cleared is not set. -/
theorem clear {f : Flag} (ho : o.access = .clear f) : h'.board.flag f = false := by
  obtain ⟨site, acc⟩ := o
  obtain rfl : acc = .clear f := ho
  have hexec := hx.exec (by simp) (by simp)
  obtain ⟨-, hboard⟩ := Prod.mk.inj (Option.some.inj hexec)
  rw [← hboard, Board.setFlag_self]

/-- A lock that is taken was free. -/
theorem acquire {f : Flag} (ho : o.access = .acquire f) :
    h.board.flag f = false ∧ h'.board.flag f = true := by
  obtain ⟨site, acc⟩ := o
  obtain rfl : acc = .acquire f := ho
  have hexec := hx.exec (by simp) (by simp)
  change (if h.board.flag f then none else some ((), h.board.setFlag f true)) = _ at hexec
  split at hexec
  · cases hexec
  case isFalse hf =>
    obtain ⟨-, hboard⟩ := Prod.mk.inj (Option.some.inj hexec)
    rw [← hboard, Board.setFlag_self]
    exact ⟨by simpa using hf, rfl⟩

/-- The descriptors are locked while a thread has them. -/
theorem lock (hp : h.Pre i o) (hlock : h.board.flag .descriptorsUpdated = h.holder.isSome) :
    h'.board.flag .descriptorsUpdated = h'.holder.isSome := by
  by_cases ha : o.access = .acquire .descriptorsUpdated
  · rw [(hx.acquire ha).2, hx.holder, ha]
    rfl
  by_cases hc : o.access = .clear .descriptorsUpdated
  · rw [hx.clear hc, hx.holder, hc]
    rfl
  have ht : o.access ≠ .testAndSet .descriptorsUpdated := by
    intro ht
    unfold Pre at hp
    rw [ht] at hp
    exact hp
  have hholder : h'.holder = h.holder := by
    rw [hx.holder]
    unfold holderAfter
    split
    · exact absurd ‹_› ha
    · exact absurd ‹_› hc
    · rfl
  rw [hx.flag ht hc ha, hlock, hholder]

/-- A fault that is reported stays reported until it is found. -/
theorem fault (hp : h.Pre i o) (hj : h.failed = true ∨ h.board.flag (.readFault j) = false) :
    h'.failed = true ∨ h'.board.flag (.readFault j) = false := by
  obtain hfailed | hflag := hj
  · exact .inl (by rw [hx.failed, hfailed, Bool.true_or])
  by_cases hc : o.access = .clear (.readFault j)
  · exact .inr (hx.clear hc)
  have ha : o.access ≠ .acquire (.readFault j) := by
    intro ha
    unfold Pre at hp
    rw [ha] at hp
    obtain hf | hf := (hp : Flag.readFault j = .descriptorsUpdated
      ∨ Flag.readFault j = .readEndAcknowledge) <;> cases hf
  by_cases ht : o.access = .testAndSet (.readFault j)
  · obtain ⟨site, acc⟩ := o
    obtain rfl : acc = .testAndSet (.readFault j) := ht
    have hexec := hx.exec (by simp) (by simp)
    obtain ⟨hanswer, -⟩ := Prod.mk.inj (Option.some.inj hexec)
    refine .inl ?_
    rw [hx.failed, ← hanswer]
    show (h.failed || !(h.board.flag (.readFault j))) = true
    rw [hflag, Bool.not_false, Bool.or_true]
  · exact .inr ((hx.flag ht hc ha).trans hflag)

theorem marked (hp : h.Pre i o) (hj : h.Marked j) : h'.Marked j := by
  obtain hfailed | hflag | ⟨c, hc, hid⟩ := hj
  · exact (hx.fault hp (.inl hfailed)).imp_right .inl
  · exact (hx.fault hp (.inr hflag)).imp_right .inl
  · exact .inr (.inr ⟨c, hx.mem_receipts hc, hid⟩)

/-- **What is reported** has been completed, or its fault is reported. -/
theorem ack (hp : h.Pre i o) (hack : ∀ j, h.board.flag (.readAck j) = false → h.Marked j)
    (hj : h'.board.flag (.readAck j) = false) : h'.Marked j := by
  by_cases hc : o.access = .clear (.readAck j)
  · obtain ⟨site, acc⟩ := o
    obtain rfl : acc = .clear (.readAck j) := hc
    have hcase : site = .emitReceived ∨ h.failed = true
        ∨ h.board.flag (.readFault j) = false := hp
    obtain hsite | hfault := hcase
    · subst hsite
      refine .inr (.inr ⟨⟨j, h.board.obj j⟩, ?_, rfl⟩)
      rw [hx.receipts]
      exact List.mem_append_right _ (List.mem_singleton_self _)
    · exact (hx.fault hp hfault).imp_right .inl
  have ht : o.access ≠ .testAndSet (.readAck j) := fun ht =>
    absurd ((hx.testAndSet ht).symm.trans hj) (by decide)
  have ha : o.access ≠ .acquire (.readAck j) := fun ha =>
    absurd ((hx.acquire ha).2.symm.trans hj) (by decide)
  exact hx.marked hp (hack j ((hx.flag ht hc ha).symm.trans hj))

/-- **An operation of one thread** is one that the other relies on. -/
theorem rely (hp : h.Pre i o) (hlock : h.board.flag .descriptorsUpdated = h.holder.isSome)
    (hne : i' ≠ i) : Rely i' h h' where
  holder := by
    rw [hx.holder]
    unfold holderAfter
    split
    -- the descriptors are locked only where nobody holds them
    case h_1 ha =>
      have hfree := hlock.symm.trans (hx.acquire ha).1
      rw [Option.isSome_eq_false_iff, Option.isNone_iff_eq_none] at hfree
      rw [hfree]
      simpa using fun hf => hne hf.symm
    case h_2 hc =>
      unfold Pre at hp
      rw [hc] at hp
      rw [hp]
      simpa using fun hf => hne hf.symm
    case h_3 => exact .rfl
  obj hi := by
    refine hx.obj fun j k b hs => ?_
    unfold Pre at hp
    rw [hs] at hp
    exact hne (Option.some.inj (hi.symm.trans hp))
  receipts _ hc := hx.mem_receipts hc
  comm _ _ hj := hx.fault hp hj
  resolver hi := by
    subst hi
    have hcomm : i ≠ .resolver := Ne.symm hne
    have ht : ∀ j, o.access ≠ .testAndSet (.readFault j) := by
      intro j ht
      unfold Pre at hp
      rw [ht] at hp
      exact hcomm hp
    have hfailed : h'.failed = h.failed := by
      rw [hx.failed]
      obtain ⟨site, acc⟩ := o
      cases acc with
      | testAndSet f =>
        cases f with
        | readFault j => exact absurd rfl (ht j)
        | _ => exact Bool.or_false _
      | _ => exact Bool.or_false _
    refine ⟨hfailed, hx.copy fun k b hs => ?_, hx.readEndId fun j hs => ?_, fun j hj => ?_⟩
    · unfold Pre at hp
      rw [hs] at hp
      exact hcomm hp
    · unfold Pre at hp
      rw [hs] at hp
      exact hcomm hp
    · by_cases hc : o.access = .clear (.readFault j)
      · exact hx.clear hc
      have ha : o.access ≠ .acquire (.readFault j) := by
        intro ha
        unfold Pre at hp
        rw [ha] at hp
        obtain hf | hf := (hp : Flag.readFault j = .descriptorsUpdated
          ∨ Flag.readFault j = .readEndAcknowledge) <;> cases hf
      exact (hx.flag (ht j) hc ha).trans hj

end Happens

/-! ### Locking the descriptors -/

/-- A thread has locked the descriptors, or has not. -/
def Has (i : Worker) (b : Bool) (h : Copying) : Prop := decide (h.holder = some i) = b

theorem has_true : Has i true h ↔ h.holder = some i := decide_eq_true_iff

theorem has_false : Has i false h ↔ h.holder ≠ some i := decide_eq_false_iff_not

variable {b : Bool}

theorem Has.rely (hh : Has i b h) (hr : Rely i h h') : Has i b h' := by
  unfold Has at hh ⊢
  rw [← hh]
  exact decide_eq_decide.mpr hr.holder

/-- An operation that needs no lock. -/
def NeedsNoLock : Op → Prop
  | ⟨_, .acquire _⟩ => False
  | ⟨_, .clear .descriptorsUpdated⟩ => False
  | ⟨site, .clear (.readAck _)⟩ => site = .emitReceived
  | ⟨_, .testAndSet .descriptorsUpdated⟩ => False
  | ⟨_, .testAndSet (.readFault _)⟩ => False
  | ⟨_, .store _ _ _⟩ => False
  | ⟨_, .storeReadEndId _⟩ => False
  | ⟨_, .storeReadEnd _ _⟩ => False
  | _ => True

theorem NeedsNoLock.pre (ho : NeedsNoLock o) : h.Pre i o := by
  obtain ⟨site, acc⟩ := o
  cases acc with
  | clear f => cases f <;> first | trivial | exact .inl ho
  | testAndSet f => cases f <;> trivial
  | _ => trivial

theorem NeedsNoLock.holder {x : Option Worker} (ho : NeedsNoLock o) :
    holderAfter i x o.access = x := by
  obtain ⟨site, acc⟩ := o
  cases acc with
  | clear f => cases f <;> first | rfl | exact ho.elim
  | _ => first | rfl | exact ho.elim

/-- Who has the lock keeps it. -/
theorem Has.happens (hh : Has i b h) (hx : Happens i o a h h')
    (ho : holderAfter i h.holder o.access = h.holder) : Has i b h' := by
  unfold Has
  rw [hx.holder, ho]
  exact hh

/-! ## The outline -/

/-- **What the resolver asserts before an operation.** -/
structure ResolverNode (D : DescriptorHelper) (s : Resolver) (o : Op) (h : Copying) : Prop where
  pre : h.Pre .resolver o
  sound : h.failed = false
  cable : s.readendCommandQueued = true → h.Cabled
  signals : o = ⟨.readEnd, .clear .readEndUpdated⟩ → h.Delivered D

/-- **What the resolver asserts between two operations**, while it has locked the descriptors or
not. -/
structure Held (b : Bool) (s : Resolver) (h : Copying) : Prop where
  lock : Has .resolver b h
  sound : h.failed = false
  cable : s.readendCommandQueued = true → h.Cabled

/-- What a thread asserts before an operation. -/
def Node (D : DescriptorHelper) : (i : Worker) → i.Private → Op → Copying → Prop
  | .communication, _, o, h => h.Pre .communication o
  | .resolver, s, o, h => ResolverNode D s o h

/-- What a thread asserts between two cycles. -/
def AtRest : (i : Worker) → i.Private → Copying → Prop
  | .communication, _, h => Has .communication false h
  | .resolver, s, h => Held false s h

theorem ResolverNode.stable {s : Resolver} (hn : ResolverNode D s o h)
    (hr : Rely .resolver h h') : ResolverNode D s o h' where
  pre := hn.pre.stable hr
  sound := (hr.resolver rfl).1.trans hn.sound
  cable hq := hr.cabled (hn.cable hq)
  signals ho := hr.delivered (hn.signals ho)

theorem Held.rely {s : Resolver} (hs : Held b s h) (hr : Rely .resolver h h') : Held b s h' where
  lock := hs.lock.rely hr
  sound := (hr.resolver rfl).1.trans hs.sound
  cable hq := hr.cabled (hs.cable hq)

end Copying

/-- **The outline of an end** that follows the copies of its read ends. -/
def copyOutline (D : DescriptorHelper) (r : Role) : (delivering D r).Outline Copying where
  follows h x := h.Follows r x
  step i _ o a h h' := h.Happens i o a h' ∧ h.Told D i o a
  node := Copying.Node D
  rest := Copying.AtRest
  error _ _ _ _ := True
  rely i _ h h' := h.Rely i h'
  refl i _ h := .refl i h
  trans _ _ _ _ _ hr hr' := hr.trans hr'
  node_stable i s o h h' hr hn := by
    cases i with
    | communication => exact Copying.Pre.stable hn hr
    | resolver => exact Copying.ResolverNode.stable hn hr
  rest_stable i s h h' hr hn := by
    cases i with
    | communication => exact Copying.Has.rely hn hr
    | resolver => exact Copying.Held.rely hn hr

namespace Copying

variable {h h' : Copying} {s : Resolver} {b : Bool}

/-! ### The communication thread -/

section Communication

variable {s s₀ : Endpoint} {o : Op}

/-- What needs no lock leaves it alone. -/
theorem Has.perform (hh : Has .communication b h) (ho : NeedsNoLock o) :
    ((copyOutline D r).rules .communication).node s o h
    ∧ ∀ a h', ((copyOutline D r).rules .communication).step s o a h h' →
      Has .communication b h' := by
  refine ⟨ho.pre, ?_⟩
  rintro a h'' ⟨h', hr, hx, -⟩
  exact (hh.rely hr).happens hx ho.holder

/-- **A cycle** only writes to an object while it has locked the descriptors. -/
theorem copyUpkeep : Upkeep ((copyOutline D r).rules .communication)
    (fun b _ => Has .communication b) s₀ where
  error _ _ _ _ _ := trivial
  untouched _ _ _ _ _ hh := hh
  plain b s o h ho hh := by
    refine hh.perform ?_
    cases ho with
    | received => rfl
    | assigning site j ho => cases ho <;> trivial
    | _ => trivial
  acquire site s h _ := by
    refine ⟨.inl rfl, ?_⟩
    rintro x h'' ⟨h', -, hx, -⟩
    exact has_true.mpr hx.holder
  release site s h hh := by
    refine ⟨has_true.mp hh, ?_⟩
    rintro x h'' ⟨h', -, hx, -⟩
    refine has_false.mpr ?_
    rw [hx.holder]
    exact fun hf => by cases hf
  store j i v s h hh := by
    refine ⟨has_true.mp hh, ?_⟩
    rintro x h'' ⟨h', hr, hx, -⟩
    exact (hh.rely hr).happens hx rfl
  interrupted j s h hh := by
    refine ⟨trivial, ?_⟩
    rintro x h₂ ⟨h₁, hr₁, hx₁, -⟩
    have hfault : h₂.board.flag (.readFault j) = false := hx₁.clear rfl
    refine ⟨.inr (.inr hfault), ?_⟩
    rintro y h₄ ⟨h₃, hr₃, hx₃, -⟩
    exact (((hh.rely hr₁).happens hx₁ rfl).rely hr₃).happens hx₃ rfl
  bits _ _ _ hh := hh
  request _ _ _ _ _ hh := hh
  lock _ _ _ hh := hh
  unlock _ _ hh := hh

/-- **The communication thread** does not keep the descriptors locked. -/
theorem copy_comm_safe {h : Copying} (hh : Has .communication false h) :
    (copyOutline D r).Safe .communication ((eventLoop D r).run s) h := by
  simp only [Pool.Outline.Safe, eventLoop, run_bind, run_look, Prog.safe_bind, Prog.safe_ret]
  split
  case isFalse => exact hh
  case isTrue =>
    simp only [run_bind, Prog.safe_bind]
    obtain ⟨hnode, htake⟩ := hh.perform (s := s) (o := ⟨.handshake, .handshake⟩) trivial
    refine ⟨hnode, fun data h₁ hx => ?_⟩
    simp only [run_change, Prog.safe_ret]
    refine (copyUpkeep.cycle_safe (htake data h₁ hx)).imp fun s' _ h₂ hh₂ => ?_
    obtain ⟨hnode', htrigger⟩ := hh₂.perform (s := s')
      (o := ⟨.triggerResolve, .clear .triggerResolve⟩) trivial
    exact ⟨hnode', fun x h₃ hx => (htrigger x h₃ hx).perform trivial⟩

end Communication

/-! ### The resolver -/

end Copying

/-- The resolver has locked the descriptors. -/
def Place.locked : Place → Bool
  | load _ _ _ | storeReadEnd _ _ _ _ | unlockReadEnd _ => true
  | loadWriteStart _ _ _ | store _ _ _ _ | unlockWriteStart _ => true
  | _ => false

namespace Copying

section Resolver

variable {o : Op} {p : Place} {s' : Resolver} {id : ℕ} {js : List ℕ} {site : Site}

theorem Marked.rely (hm : h.Marked id) (hr : Rely .resolver h h') : h'.Marked id := by
  obtain ⟨hfailed, -, -, hfault⟩ := hr.resolver rfl
  exact hm.imp hfailed.trans (Or.imp (hfault id) hr.receipted)

theorem Happens.receipted {i : Worker} {a : o.Answer} (hx : Happens i o a h h')
    (hj : Receipted h.receipts id) : Receipted h'.receipts id := by
  obtain ⟨c, hc, hid⟩ := hj
  exact ⟨c, hx.mem_receipts hc, hid⟩

namespace Held

/-- An operation of the resolver that takes no fault back, and does not store an id. -/
theorem happens {b' : Bool} {a : o.Answer} (hs : Held b s h) (hx : Happens .resolver o a h h')
    (hlock : Has .resolver b' h') (hfinds : finds o a = false)
    (ho : ∀ j, o.access ≠ .storeReadEndId j) : Held b' s h' where
  lock := hlock
  sound := by rw [hx.failed, hs.sound, hfinds, Bool.or_false]
  cable hq := by
    obtain ⟨hc, hlt⟩ := hs.cable hq
    unfold Cabled
    rw [hx.readEndId ho]
    exact ⟨hx.receipted hc, hlt⟩

/-- One that leaves the descriptors as they are. -/
theorem goes {a : o.Answer} (hs : Held b s h) (hx : Happens .resolver o a h h')
    (hholder : holderAfter .resolver h.holder o.access = h.holder) (hfinds : finds o a = false)
    (ho : ∀ j, o.access ≠ .storeReadEndId j) : Held b s h' :=
  hs.happens hx (hs.lock.happens hx hholder) hfinds ho

/-- The descriptors are locked. -/
theorem acquired {a : Unit} (hs : Held b s h)
    (hx : Happens .resolver ⟨site, .acquire .descriptorsUpdated⟩ a h h') : Held true s h' :=
  hs.happens hx (has_true.mpr hx.holder) rfl fun _ hf => by cases hf

/-- They are unlocked. -/
theorem released {a : Unit} (hs : Held b s h)
    (hx : Happens .resolver ⟨site, .clear .descriptorsUpdated⟩ a h h') : Held false s h' := by
  refine hs.happens hx (has_false.mpr ?_) rfl fun _ hf => by cases hf
  rw [hx.holder]
  exact fun hf => by cases hf

end Held

/-- **The loop that copies**, with the indices that are still to be copied: the copy has the
first byte of the object everywhere else. -/
structure Copied (D : DescriptorHelper) (id : ℕ) (js : List ℕ) (h : Copying) : Prop where
  cabled : h.board.readEndId = id
  received : Receipted h.receipts id
  copied : ∀ i < D.objSize id, i ∉ js → h.board.transferReadEndIn i = h.board.obj id 0
    ∧ Uniform D h.receipts id (h.board.obj id 0)

namespace Copied

/-- The objects and the copy are as they were. -/
theorem of_same (hc : Copied D id js h) (hid : h'.board.readEndId = h.board.readEndId)
    (hcopy : h'.board.transferReadEndIn = h.board.transferReadEndIn)
    (hobj : h'.board.obj = h.board.obj) (hreceipts : ∀ c ∈ h.receipts, c ∈ h'.receipts) :
    Copied D id js h' where
  cabled := hid.trans hc.cabled
  received := by
    obtain ⟨c, hmem, hc⟩ := hc.received
    exact ⟨c, hreceipts c hmem, hc⟩
  copied i hi hjs := by
    obtain ⟨hcopied, c, hmem, huniform⟩ := hc.copied i hi hjs
    rw [hcopy, hobj]
    exact ⟨hcopied, c, hreceipts c hmem, huniform⟩

theorem rely (hc : Copied D id js h) (hlock : Has .resolver true h) (hr : Rely .resolver h h') :
    Copied D id js h' := by
  obtain ⟨-, hcopy, hid, -⟩ := hr.resolver rfl
  exact hc.of_same hid hcopy (hr.obj (has_true.mp hlock)) hr.receipts

/-- Nothing has been copied yet. -/
theorem start (hcabled : h.board.readEndId = id) (hreceived : Receipted h.receipts id) :
    Copied D id (List.range (D.objSize id)) h where
  cabled := hcabled
  received := hreceived
  copied _ hi hjs := absurd (List.mem_range.mpr hi) hjs

/-- The first byte of the object is put into the next byte of the copy. -/
theorem step {i : ℕ} {v : Byte} {x : Unit} (hc : Copied D id (i :: js) h)
    (hx : Happens .resolver ⟨.readEnd, .storeReadEnd i v⟩ x h h') (hv : v = h.board.obj id 0)
    (huniform : Uniform D h.receipts id v) : Copied D id js h' := by
  have hobj : h'.board.obj = h.board.obj := hx.obj fun _ _ _ hf => by cases hf
  have hcopy : h'.board.transferReadEndIn = Function.update h.board.transferReadEndIn i v := by
    have hexec := hx.exec (by simp) (by simp)
    exact (congrArg Board.transferReadEndIn (Prod.mk.inj (Option.some.inj hexec)).2).symm
  obtain ⟨c, hmem, hbytes⟩ := huniform
  refine
    { cabled := (hx.readEndId fun _ hf => by cases hf).trans hc.cabled
      received := hx.receipted hc.received
      copied := fun k hk hjs => ?_ }
  rw [hobj, hcopy, ← hv]
  refine ⟨?_, c, hx.mem_receipts hmem, hbytes⟩
  by_cases hki : k = i
  · rw [hki, Function.update_self]
  · rw [Function.update_of_ne hki, hv]
    exact (hc.copied k hk (by simp [hki, hjs])).1

/-- The copy is complete. -/
theorem delivered (hc : Copied D id [] h) : h.Delivered D := by
  by_cases hsize : D.objSize id = 0
  · obtain ⟨c, hmem, rfl⟩ := hc.received
    refine ⟨c, hmem, hc.cabled.symm, fun i hi => absurd hi ?_⟩
    rw [hsize]
    exact Nat.not_lt_zero i
  · obtain ⟨-, c, hmem, rfl, hbytes⟩ := hc.copied 0 (Nat.pos_of_ne_zero hsize) List.not_mem_nil
    refine ⟨c, hmem, hc.cabled.symm, fun i hi => ?_⟩
    rw [(hc.copied i hi List.not_mem_nil).1, hbytes i hi]

end Copied

/-- **What is known of a read end** at a place of the resolver. -/
def Knows (D : DescriptorHelper) : Place → Copying → Prop
  | .readFault id _, h => h.Marked id
  | .readEndId id _, h => Receipted h.receipts id
  | .lockReadEnd id, h => h.board.readEndId = id
  | .load id i js, h => Copied D id (i :: js) h
  | .storeReadEnd id i v js, h =>
    Copied D id (i :: js) h ∧ v = h.board.obj id 0 ∧ Uniform D h.receipts id v
  | .unlockReadEnd id, h => Copied D id [] h
  | .readEndUpdated, h => h.Delivered D
  | _, _ => True

/-- **What the resolver asserts at a place.** -/
structure At (D : DescriptorHelper) (p : Place) (s : Resolver) (h : Copying) : Prop
    extends Held p.locked s h where
  knows : Knows D p h

namespace At

theorem sweep (hs : Held false s h) : At D (Place.sweep js s') s h := by
  cases js with
  | nil =>
    show At D (if _ then _ else _) s h
    split <;> exact { hs with knows := trivial }
  | cons => exact { hs with knows := trivial }

theorem copying (hs : Held true s h) (hc : Copied D id js h) : At D (Place.copying id js) s h := by
  cases js <;> exact { hs with knows := hc }

theorem filling (hs : Held true s h) : At D (Place.filling id js) s h := by
  cases js <;> exact { hs with knows := trivial }

/-- What the resolver asserts is left to it. -/
theorem rely (hp : At D p s h) (hr : Rely .resolver h h') : At D p s h' where
  toHeld := hp.toHeld.rely hr
  knows := by
    have hknows := hp.knows
    cases p with
    | readFault => exact Marked.rely hknows hr
    | readEndId => exact hr.receipted hknows
    | lockReadEnd => exact (hr.resolver rfl).2.2.1.trans hknows
    | load | unlockReadEnd => exact Copied.rely hknows hp.lock hr
    | storeReadEnd =>
      obtain ⟨hc, hv, c, hmem, huniform⟩ := hknows
      refine ⟨hc.rely hp.lock hr, ?_, c, hr.receipts c hmem, huniform⟩
      rw [hr.obj (has_true.mp hp.lock)]
      exact hv
    | readEndUpdated => exact hr.delivered hknows
    | _ => trivial

/-- **What it asserts before an operation.** -/
theorem node (hp : At D p s h) : ResolverNode D s p.op h where
  pre := by
    cases p with
    | readFault | readEndId | storeReadEnd => exact rfl
    | readEndAcknowledge => exact .inr rfl
    | lockReadEnd | lockWriteStart => exact .inl rfl
    | unlockReadEnd | unlockWriteStart | store => exact has_true.mp hp.lock
    | _ => trivial
  sound := hp.sound
  cable := hp.cable
  signals ho := by
    cases p with
    | readEndUpdated => exact hp.knows
    | _ => cases ho

/-- An object whose receive has been completed is put into the cable. -/
theorem step_readEndId {is : List ℕ} {a : Unit} (hp : At D (.readEndId id is) s h)
    (hx : Happens .resolver ⟨.resolve, .storeReadEndId id⟩ a h h') (hid : id < numIds) :
    Held false { s with readendCommandQueued := true } h' where
  lock := hp.lock.happens hx rfl
  sound := by
    rw [hx.failed, hp.sound]
    rfl
  cable _ := by
    have hcable : h'.board.readEndId = id := by
      have hexec := hx.exec (by simp) (by simp)
      exact (congrArg Board.readEndId (Prod.mk.inj (Option.some.inj hexec)).2).symm
    unfold Cabled
    rw [hcable]
    exact ⟨hx.receipted hp.knows, hid⟩

/-- An object without a fault has been completed. -/
theorem step_readFault {is : List ℕ} (hp : At D (.readFault id is) s h)
    (hx : Happens .resolver ⟨.resolve, .testAndSet (.readFault id)⟩ true h h') :
    Receipted h'.receipts id := by
  have hset : h.board.flag (.readFault id) = true := by
    have hexec := hx.exec (by simp) (by simp)
    exact (Prod.mk.inj (Option.some.inj hexec)).1
  obtain hfailed | hfault | hin := hp.knows
  · exact absurd (hp.sound.symm.trans hfailed) (by decide)
  · exact absurd (hset.symm.trans hfault) (by decide)
  · exact hx.receipted hin

/-- The id that is read is the one in the cable. -/
theorem step_loadReadEndId {a : ℕ} (hp : At D .loadReadEndId s h)
    (hqueued : s.readendCommandQueued = true)
    (hx : Happens .resolver ⟨.readEnd, .loadReadEndId⟩ a h h') :
    a < numIds ∧ h'.board.readEndId = a := by
  have hexec := hx.exec (by simp) (by simp)
  obtain ⟨hid, hboard⟩ := Prod.mk.inj (Option.some.inj hexec)
  rw [← hboard, ← hid]
  exact ⟨(hp.cable hqueued).2, rfl⟩

/-- The byte that is read is the first one of the object. -/
theorem step_load {i : ℕ} {v : Byte} (hp : At D (.load id i js) s h)
    (hx : Happens .resolver ⟨.readEnd, .load id 0⟩ v h h')
    (ht : Receipted h.receipts id → Uniform D h.receipts id (h.board.obj id 0)) :
    Knows D (.storeReadEnd id i v js) h' := by
  have hc : Copied D id (i :: js) h := hp.knows
  have hexec := hx.exec (by simp) (by simp)
  obtain ⟨hv, hboard⟩ := Prod.mk.inj (Option.some.inj hexec)
  obtain ⟨c, hmem, huniform⟩ := ht hc.received
  rw [hv] at huniform
  refine ⟨hc.of_same ?_ ?_ ?_ fun c hc => hx.mem_receipts hc, ?_, c, hx.mem_receipts hmem,
    huniform⟩
  all_goals rw [← hboard]
  exact hv.symm

/-- **What an operation leads to.** -/
theorem step {a : p.op.Answer} (hv : p.valid D s) (hp : At D p s h)
    (hx : Happens .resolver p.op a h h') (ht : h.Told D .resolver p.op a) :
    (p.next D a s).Holds ((copyOutline D r).rules .resolver) (At D) h' := by
  cases p with
  | triggerResolve =>
    have hs := hp.goes hx rfl rfl fun _ hf => by cases hf
    cases a <;> exact sweep hs
  | readAck id is =>
    have hs := hp.goes hx rfl rfl fun _ hf => by cases hf
    cases a with
    | true => exact { hs with knows := trivial }
    | false => exact { hs with knows := hx.marked trivial (ht rfl) }
  | readFault id is =>
    cases a with
    | true =>
      have hs := hp.goes hx rfl rfl fun _ hf => by cases hf
      exact { hs with knows := hp.step_readFault hx }
    | false => trivial
  | readEndId id is =>
    have hid : id < numIds := D.lt_numIds (hv id List.mem_cons_self)
    exact { hp.step_readEndId hx hid with knows := trivial }
  | writeAck id is =>
    have hs := hp.goes hx rfl rfl fun _ hf => by cases hf
    cases a with
    | true => exact sweep hs
    | false => exact { hs with knows := trivial }
  | writeFault id is =>
    cases a with
    | true =>
      have hs := hp.goes hx rfl rfl fun _ hf => by cases hf
      exact { hs with knows := trivial }
    | false => trivial
  | writeEndId id is =>
    have hs := hp.goes hx rfl rfl fun _ hf => by cases hf
    exact sweep { hs with }
  | loadReadEndId =>
    obtain ⟨hlt, hid⟩ := hp.step_loadReadEndId hv hx
    show At D (if _ then _ else _) s h'
    rw [if_pos hlt]
    have hs := hp.goes hx rfl rfl fun _ hf => by cases hf
    exact { hs with knows := hid }
  | lockReadEnd id =>
    have hs := hp.acquired hx
    have hid : h'.board.readEndId = id := (hx.readEndId fun _ hf => by cases hf).trans hp.knows
    exact copying hs (.start hid (hid ▸ (hs.cable hv).1))
  | load id i is =>
    have hs := hp.goes hx rfl rfl fun _ hf => by cases hf
    exact { hs with knows := hp.step_load hx ht }
  | storeReadEnd id i v is =>
    obtain ⟨hc, hbyte, huniform⟩ := hp.knows
    exact copying (hp.goes hx rfl rfl fun _ hf => by cases hf) (hc.step hx hbyte huniform)
  | unlockReadEnd id =>
    have hc : Copied D id [] h := hp.knows
    obtain ⟨c, hmem, hid, hbytes⟩ := hc.delivered
    refine { hp.released hx with knows := ⟨c, hx.mem_receipts hmem, ?_, ?_⟩ }
    · rw [hid, hx.readEndId fun _ hf => by cases hf]
    · rw [hx.copy fun _ _ hf => by cases hf]
      exact hbytes
  | readEndUpdated =>
    have hs := hp.goes hx rfl rfl fun _ hf => by cases hf
    exact { hs with cable := fun hf => (by cases hf), knows := trivial }
  | writeStartUpdated =>
    have hs := hp.goes hx rfl rfl fun _ hf => by cases hf
    cases a <;> exact { hs with knows := trivial }
  | loadWriteStartId =>
    have hs := hp.goes hx rfl rfl fun _ hf => by cases hf
    exact holds_loadWriteStartId D (fun _ _ => { hs with knows := trivial }) fun _ _ _ => trivial
  | lockWriteStart id => exact filling (hp.acquired hx)
  | store id i v is => exact filling (hp.goes hx rfl rfl fun _ hf => by cases hf)
  | unlockWriteStart id => exact { hp.released hx with knows := trivial }
  | readEndAcknowledge | loadWriteStart | syncMe | writeStartAcknowledge =>
    have hs := hp.goes hx rfl rfl fun _ hf => by cases hf
    exact { hs with knows := trivial }

end At

end Resolver

end Copying

/-- **The resolver** signals what it has copied. -/
theorem copy_round : (round D).Keeps ((copyOutline D r).rules .resolver) (Copying.At D) := by
  refine (copyOutline D r).keeps_chart .resolver (fun _ _ _ _ hr hp => hp.rely hr)
    (fun _ _ _ _ hp => hp.node) fun p s a h h' hv hp => ?_
  rintro ⟨hx, htold⟩
  exact hp.step hv hx htold

theorem copy_resolver_safe {s : Resolver} {h : Copying} (hs : h.Held false s) :
    (copyOutline D r).Safe .resolver ((resolverEventLoop D).run s) h :=
  (copy_round.safe (resolverEventLoop_charted s) { hs with knows := trivial }).imp
    fun _ _ _ hp => hp.toHeld

/-! ## Read ends that are faithful -/

namespace Copying

variable {σ : (delivering D r).State} {h : Copying} {x : World × List Receipt}

/-- An operation of the end is one that is followed. -/
theorem Follows.happens {i : Worker} {o : Op} {a : o.Answer} (hf : h.Follows r σ.world)
    (hexec : (delivering D r).exec i o σ.world = some (a, x)) : Happens i o a h
      ⟨x.1.board r, x.2, holderAfter i h.holder o.access, h.failed || finds o a⟩ where
  board := by
    have hown := World.exec_own (Pool.recorded_exec hexec).1
    rw [hf.board] at hown
    exact hown.imp_right fun ⟨hs, hboard⟩ => ⟨hs, by rw [hboard, hf.board]⟩
  receipts := by
    rw [← hf.receipts, ← hf.board]
    exact (Pool.recorded_exec hexec).2
  holder := rfl
  failed := rfl

/-- What the environment does is followed. -/
theorem Follows.env (hf : h.Follows r σ.world) (he : CopyIntact σ x) :
    Follows r { h with board := x.1.board r } x where
  board := rfl
  receipts := he.receipts.trans hf.receipts
  lock := by
    rw [he.lock, hf.board]
    exact hf.lock
  ack j hj := by
    obtain hack | hfault := he.ack j hj
    · rw [hf.board] at hack
      exact (hf.ack j hack).imp_right (Or.imp_left fun hfault => he.fault j (hf.board ▸ hfault))
    · exact .inr (.inl hfault)

/-- Both threads rely on it. -/
theorem Follows.env_rely {i : Worker} (hf : h.Follows r σ.world) (he : CopyIntact σ x) :
    Rely i h { h with board := x.1.board r } where
  holder := .rfl
  obj _ := he.obj.trans (by rw [hf.board])
  receipts _ hc := hc
  comm _ j := Or.imp_right fun hfault => he.fault j (hf.board ▸ hfault)
  resolver _ := ⟨rfl, he.copy.trans (by rw [hf.board]), he.readEndId.trans (by rw [hf.board]),
    fun j hfault => he.fault j (hf.board ▸ hfault)⟩

/-- What the answers tell, where the object is unspoiled. -/
theorem Follows.told {i : Worker} {s : i.Private} {o : Op}
    {k : o.Answer → Prog i.Private ErrorCode Op.Answer Unit} {a : o.Answer} {h' : Copying}
    (hf : h.Follows r σ.world) (node : σ.thread i = .op s o k) (hx : Happens i o a h h')
    (hok : Unspoiled σ) : h.Told D i o a := by
  unfold Told
  split
  case h_1 site j a =>
    rintro rfl
    have hexec := hx.exec (by simp) (by simp)
    exact hf.ack j (Prod.mk.inj (Option.some.inj hexec)).1
  case h_2 j a =>
    rw [← hf.receipts, ← hf.board]
    exact hok s j k node
  case h_3 => trivial

end Copying

/-- **A read end delivers what a completed receive has left**, in every run in which the first
byte of the object is still every byte of it where the object is read. -/
theorem read_ends_faithful (D : DescriptorHelper) (r : Role) (obj : Role → ℕ → ℕ → Byte)
    {σ : (delivering D r).State}
    (hσ : (delivering D r).Reaches CopyIntact (fun σ _ => Unspoiled σ)
      (delivering.start D r obj) σ) :
    Faithful σ := by
  obtain ⟨h, hk⟩ : ∃ h, (copyOutline D r).Keeps σ h := by
    refine Pool.Outline.sound (L := copyOutline D r) ?_ ?_ ?_ hσ ?_
    · intro σ h i s o k a x hk node exec hok
      have hf : h.Follows r σ.world := hk.1
      have hnode : Copying.Node D i s o h := hk.node node
      have hpre : h.Pre i o := by
        cases i with
        | communication => exact hnode
        | resolver => exact hnode.pre
      have hx := hf.happens exec
      exact ⟨_, ⟨rfl, rfl, hx.lock hpre hf.lock, fun j => hx.ack hpre hf.ack⟩,
        ⟨hx, hf.told node hx hok⟩, fun i' hi' => hx.rely hpre hf.lock hi'⟩
    · intro σ h x hk henv _
      have hf : h.Follows r σ.world := hk.1
      exact ⟨_, hf.env henv, fun i => hf.env_rely henv⟩
    · intro i s h hrest
      cases i with
      | communication => exact Copying.copy_comm_safe hrest
      | resolver => exact copy_resolver_safe hrest
    · refine ⟨⟨Board.initial (obj r), [], none, false⟩, ?_, ?_⟩
      · exact ⟨rfl, rfl, rfl, fun j hj => by cases hj⟩
      intro i
      cases i with
      | communication => exact Copying.has_false.mpr (by simp)
      | resolver => exact ⟨Copying.has_false.mpr (by simp), rfl, fun hf => by cases hf⟩
  intro s k hs
  have hnode : Copying.ResolverNode D s ⟨.readEnd, .clear .readEndUpdated⟩ h := hk.node hs
  obtain ⟨c, hc, hid, hbytes⟩ := hnode.signals rfl
  rw [hk.1.receipts, hk.1.board]
  exact ⟨c, hc, hid, hbytes⟩

/-! ## Schedules -/

/-- **Replays of an end with its receipts**, on a condition on the states a step is taken in. -/
def delivering.script (D : DescriptorHelper) (r : Role) (check : (delivering D r).State → Bool) :
    (delivering D r).Script Command where
  act c x := (c.act r x.1, x.2)
  may c σ := c.may r σ.world.1
  check := check

/-- The FPGA that has two objects, their bytes all zero. -/
def delivering.fpga : (delivering twoObjects .fpga).State :=
  delivering.start twoObjects .fpga fun _ _ _ => 0

theorem Command.copyIntact {σ : (delivering D r).State} (c : Command) :
    CopyIntact σ (c.act r σ.world.1, σ.world.2) := by
  cases c with
  | byte b => exact ⟨rfl, rfl, rfl, rfl, rfl, fun _ => id, fun _ => .inl⟩
  | writeStart j b =>
    have hboard : ((Command.writeStart j b).act r σ.world.1).board r
        = { (σ.world.1.board r).setFlag .writeStartUpdated false with
          writeStartId := j
          transferWriteStartOut := fun _ => b } := World.setBoard_self ..
    have hflag : ∀ f, f ≠ .writeStartUpdated →
        (((Command.writeStart j b).act r σ.world.1).board r).flag f
          = (σ.world.1.board r).flag f := by
      intro f hf
      rw [hboard]
      exact Board.setFlag_of_ne _ _ hf
    refine ⟨rfl, by rw [hboard]; rfl, by rw [hboard]; rfl, by rw [hboard]; rfl,
      hflag _ (by simp), fun k hk => ?_, fun k hk => .inl ?_⟩
    · exact (hflag _ (by simp)).trans hk
    · exact (hflag _ (by simp)).symm.trans hk

/-- `Unspoiled`, as a test. -/
def unspoiled (σ : (delivering D r).State) : Bool :=
  match σ.thread .resolver with
  | .op _ ⟨.readEnd, .load j _⟩ _ => σ.world.2.any fun c => decide (c.id = j)
    && (List.range (D.objSize j)).all fun i => decide (c.bytes i = (σ.world.1.board r).obj j 0)
  | _ => true

theorem unspoiled_spec {σ : (delivering D r).State} (h : unspoiled σ = true) : Unspoiled σ := by
  intro s j k hs _
  unfold unspoiled at h
  rw [hs] at h
  obtain ⟨c, hc, hcheck⟩ := List.any_eq_true.mp h
  rw [Bool.and_eq_true, List.all_eq_true] at hcheck
  refine ⟨c, hc, of_decide_eq_true hcheck.1, fun i hi => ?_⟩
  exact of_decide_eq_true (hcheck.2 i (List.mem_range.mpr hi))

/-- The resolver is about to signal a read end, and its copy has these bytes. -/
def signalsCopy (bs : List Byte) (σ : (delivering D r).State) : Bool :=
  (σ.thread .resolver).performs ⟨.readEnd, .clear .readEndUpdated⟩
    && (List.range bs.length).map (σ.world.1.board r).transferReadEndIn = bs

/-- Object 0 is received with three bytes of 1, and delivered. -/
theorem read_ends_faithful_one : ∃ σ : (delivering twoObjects .fpga).State,
    (delivering twoObjects .fpga).Reaches CopyIntact (fun σ _ => Unspoiled σ) delivering.fpga σ
    ∧ signalsCopy [1, 1, 1] σ = true ∧ Faithful σ := by
  obtain ⟨σ, hσ, hp⟩ := Pool.Script.exists_of_replay CopyIntact (fun σ _ => Unspoiled σ)
    (delivering.script twoObjects .fpga unspoiled)
    (.go .communication 60 :: hear [0xBE, 0x81, 0x00, 0x10, 0x04, 0x01] ++ [.go .resolver 18])
    delivering.fpga (signalsCopy [1, 1, 1])
    (fun c _ _ => c.copyIntact) (fun _ _ h => unspoiled_spec h) (by decide +kernel)
  exact ⟨σ, hσ, hp, read_ends_faithful twoObjects .fpga _ hσ⟩

/-- **A read end is garbled**: object 0 is received with the bytes 1, 2, 3, and its first byte is
delivered three times. -/
theorem read_end_garbled : ∃ σ : (delivering twoObjects .fpga).State,
    (delivering twoObjects .fpga).Reaches CopyIntact (fun _ _ => True) delivering.fpga σ
    ∧ signalsCopy [1, 1, 1] σ = true
    ∧ (σ.world.2.map fun c => (c.id, (List.range 3).map c.bytes)) = [(0, [1, 2, 3])]
    ∧ ¬ Faithful σ := by
  obtain ⟨σ, hσ, hp⟩ := Pool.Script.exists_of_replay CopyIntact (fun _ _ => True)
    (delivering.script twoObjects .fpga fun _ => true)
    (.go .communication 60 :: hear [0xBE, 0x81, 0x00, 0x10, 0x08, 0x03] ++ [.go .resolver 18])
    delivering.fpga
    (fun σ => signalsCopy [1, 1, 1] σ && decide ((σ.world.1.board .fpga).readEndId = 0)
      && decide ((σ.world.2.map fun c => (c.id, (List.range 3).map c.bytes)) = [(0, [1, 2, 3])]))
    (fun c _ _ => c.copyIntact) (fun _ _ _ => trivial) (by decide +kernel)
  simp only [Bool.and_eq_true, decide_eq_true_eq] at hp
  obtain ⟨⟨hsignals, hid⟩, hreceipts⟩ := hp
  refine ⟨σ, hσ, hsignals, hreceipts, fun hf => ?_⟩
  rw [signalsCopy, Bool.and_eq_true] at hsignals
  obtain ⟨k, hk⟩ := Prog.performs_spec hsignals.1
  obtain ⟨c, hc, hcid, hbytes⟩ := hf _ k hk
  have hmem : (c.id, (List.range 3).map c.bytes) ∈ [(0, [1, 2, 3])] := by
    rw [← hreceipts]
    exact List.mem_map.mpr ⟨c, hc, rfl⟩
  have hlist : (List.range 3).map c.bytes = [1, 2, 3] :=
    (Prod.mk.inj (List.mem_singleton.mp hmem)).2
  have hcopy : (List.range 3).map (σ.world.1.board .fpga).transferReadEndIn = [1, 1, 1] :=
    of_decide_eq_true hsignals.2
  have heq : (List.range 3).map (σ.world.1.board .fpga).transferReadEndIn
      = (List.range 3).map c.bytes := by
    refine List.map_congr_left fun i hi => hbytes i ?_
    rw [hcid, hid]
    exact List.mem_range.mp hi
  rw [hcopy, hlist] at heq
  exact absurd heq (by decide)

end SOS
