import SoftwareOnSilicon.RestWrite
import SoftwareOnSilicon.Round
import SoftwareOnSilicon.Since
import SoftwareOnSilicon.Schedule
import SoftwareOnSilicon.Trace
import Mathlib.Data.Fintype.Option

/-!
# The write mailbox

Any number of threads of the REST layer call `write`, and the resolver takes the calls'
values out of one mailbox: the cable `writeStartId` and the buffer `transferWriteStartOut`. Two
flags go with it. A call begins by taking the acknowledge flag and ends by clearing the update
flag; the resolver takes the update flag and, when it has processed the value, clears the
acknowledge flag.

So there is one token (`Phase`), which goes from the free mailbox to a caller, to the full
mailbox, to the resolver, and back. Whoever has it may touch the mailbox, and nobody else does.
What the resolver sees is then what one call has stored, and the calls come to it one after
another in the order in which they have taken the flag (`mailbox_integrity`).
-/

namespace SOS

open Interleaving Code

variable {ι : Type} {D : DescriptorHelper} {r : Role}

/-! ## The threads -/

/-- A thread that calls `write`: the call in progress, and those to come. -/
structure Caller where
  call : WriteCall
  next : List WriteCall

/-- The private state of the resolver, and of each caller. -/
abbrev MailPrivate (ι : Type) : Option ι → Type
  | none => Resolver
  | some _ => Caller

/-- **The pool of the resolver and the callers.** -/
def mailbox (ι : Type) (D : DescriptorHelper) (r : Role) :
    Pool (Option ι) (MailPrivate ι) ErrorCode MailAnswer World where
  exec
    | _, .inl o, w => World.exec r o.access w
    | _, .inr a, w => (a.exec (w.board r)).map fun h => ((), w.setBoard r h)
  loop
    | none, s => ((resolverEventLoop D).inl).run s
    | some _, s =>
      match s.next with
      | [] => .ret s ()
      | c :: cs => (Rest.write D c).run { call := c, next := cs }

/-- The process has been started, and each caller is going to make some calls. -/
def mailbox.start (D : DescriptorHelper) (r : Role) (obj : Role → ℕ → ℕ → Byte)
    (calls : ι → Caller) : (mailbox ι D r).State where
  world := World.start obj
  thread
    | none => .ret {} ()
    | some i => .ret (calls i) ()

/-- What other threads leave alone: the mailbox and its two flags. -/
structure MailboxIntact (σ : (mailbox ι D r).State) (w : World) : Prop where
  updated : (w.board r).flag .writeStartUpdated = (σ.world.board r).flag .writeStartUpdated
  acknowledge :
    (w.board r).flag .writeStartAcknowledge = (σ.world.board r).flag .writeStartAcknowledge
  id : (w.board r).writeStartId = (σ.world.board r).writeStartId
  bytes : (w.board r).transferWriteStartOut = (σ.world.board r).transferWriteStartOut

/-! ## What is observed -/

/-- What is observed of the mailbox. -/
inductive MailEvent (ι : Type) where
  /-- A call takes the acknowledge flag. -/
  | acquired (i : ι) (c : WriteCall)
  /-- A call stores the id or a byte. -/
  | stored (i : ι)
  /-- A call clears the update flag. -/
  | completed (i : ι) (c : WriteCall)
  /-- The resolver finds the update flag cleared. -/
  | taken
  /-- It reads the id. -/
  | sawId (j : ℕ)
  /-- It reads byte `n`. -/
  | sawByte (n : ℕ) (b : Byte)
  /-- It clears the acknowledge flag. -/
  | acknowledged

/-- What an operation shows. -/
def mailEvents : Pool.Observer (MailPrivate ι) MailAnswer (MailEvent ι)
  | some i, s, .inr .acquireWriteStartAcknowledge, _ => [.acquired i s.call]
  | some i, _, .inr (.storeWriteStartId _), _ => [.stored i]
  | some i, _, .inr (.storeWriteStart _ _), _ => [.stored i]
  | some i, s, .inr .clearWriteStartUpdated, _ => [.completed i s.call]
  | none, _, .inl ⟨_, .testAndSet .writeStartUpdated⟩, false => [.taken]
  | none, _, .inl ⟨_, .loadWriteStartId⟩, j => [.sawId j]
  | none, _, .inl ⟨_, .loadWriteStart n⟩, b => [.sawByte n b]
  | none, _, .inl ⟨_, .clear .writeStartAcknowledge⟩, _ => [.acknowledged]
  | _, _, _, _ => []

/-- The calls that have taken the acknowledge flag, in this order. -/
def calls (l : List (MailEvent ι)) : List (ι × WriteCall) :=
  l.filterMap fun
    | .acquired i c => some (i, c)
    | _ => none

/-- The calls that are over. -/
def callsOver (l : List (MailEvent ι)) : List (ι × WriteCall) :=
  l.filterMap fun
    | .completed i c => some (i, c)
    | _ => none

/-- How many calls the resolver has taken. -/
def takings (l : List (MailEvent ι)) : ℕ := l.countP fun | .taken => true | _ => false

/-- How many of them it has acknowledged. -/
def acknowledgements (l : List (MailEvent ι)) : ℕ :=
  l.countP fun | .acknowledged => true | _ => false

/-- The call the resolver has taken last: if it has taken `n`, number `n` of those that have
taken the flag. -/
def lastTaken (l : List (MailEvent ι)) : Option WriteCall :=
  (((calls l).take (takings l)).getLast?).map Prod.snd

/-- **What has to be true of an event**, given those before it. -/
def MailEvent.Proper (D : DescriptorHelper) (before : List (MailEvent ι)) : MailEvent ι → Prop
  -- nothing is stored from a call's update signal to the resolver's acknowledge
  | .stored _ => acknowledgements before = (callsOver before).length
  | .sawId j => ∃ c, lastTaken before = some c ∧ j = c.id
  | .sawByte n b => ∃ c, lastTaken before = some c ∧ n < D.objSize c.id ∧ b = c.staged n
  | _ => True

/-- **The mailbox keeps its integrity.** -/
structure Orderly (D : DescriptorHelper) (l : List (MailEvent ι)) : Prop where
  /-- The calls are over in the order in which they have taken the flag, all but the latest. -/
  ended : callsOver l <+: calls l ∧ (calls l).length ≤ (callsOver l).length + 1
  /-- Of those that are over, the resolver has taken all but the latest. -/
  taken : takings l ≤ (callsOver l).length ∧ (callsOver l).length ≤ takings l + 1
  proper : Throughout (fun before e => e.Proper D before) l

/-! ## The token -/

/-- **Where the token is.** -/
inductive Phase (ι : Type) where
  /-- The acknowledge flag is cleared. -/
  | free
  /-- A call has taken it. -/
  | entered (i : ι) (c : WriteCall)
  /-- It has stored the id and `n` bytes. -/
  | filling (i : ι) (c : WriteCall) (n : ℕ)
  /-- It has cleared the update flag. -/
  | full (i : ι) (c : WriteCall)
  /-- The resolver has taken it. -/
  | taken (i : ι) (c : WriteCall)

/-- An operation that does not concern the mailbox. -/
def Op.ApartFromMail : Op → Prop
  | ⟨_, .testAndSet f⟩ => f ≠ .writeStartUpdated ∧ f ≠ .writeStartAcknowledge
  | ⟨_, .clear f⟩ => f ≠ .writeStartUpdated ∧ f ≠ .writeStartAcknowledge
  | ⟨_, .acquire f⟩ => f ≠ .writeStartUpdated ∧ f ≠ .writeStartAcknowledge
  | ⟨_, .loadWriteStartId⟩ => False
  | ⟨_, .loadWriteStart _⟩ => False
  | _ => True

namespace Phase

/-- The resolver takes what is in the mailbox. -/
def take : Phase ι → Phase ι
  | .full i c => .taken i c
  | h => h

/-- What is in the mailbox: how many bytes, and of which call. -/
def letter (D : DescriptorHelper) : Phase ι → Option (WriteCall × ℕ)
  | .filling _ c n => some (c, n)
  | .full _ c => some (c, D.objSize c.id)
  | .taken _ c => some (c, D.objSize c.id)
  | _ => none

/-- The call that has taken the flag and is not over. -/
def caller : Phase ι → Option (ι × WriteCall)
  | .entered i c => some (i, c)
  | .filling i c _ => some (i, c)
  | _ => none

/-- The call that is over and has not been acknowledged. -/
def pending : Phase ι → Option (ι × WriteCall)
  | .full i c => some (i, c)
  | .taken i c => some (i, c)
  | _ => none

/-- The resolver has the token. -/
def resolving : Phase ι → Bool
  | .taken _ _ => true
  | _ => false

/-- The thread that has the token. -/
def owner : Phase ι → Option (Option ι)
  | .entered i _ => some (some i)
  | .filling i _ _ => some (some i)
  | .taken _ _ => some none
  | _ => none

/-- What an operation does to it. -/
def after (h : Phase ι) :
    (t : Option ι) → MailPrivate ι t → (o : Op ⊕ RestAccess) → MailAnswer o → Phase ι
  | some i, s, .inr .acquireWriteStartAcknowledge, _ => .entered i s.call
  | some i, s, .inr (.storeWriteStartId _), _ => .filling i s.call 0
  | some i, s, .inr (.storeWriteStart n _), _ => .filling i s.call (n + 1)
  | some i, s, .inr .clearWriteStartUpdated, _ => .full i s.call
  | none, _, .inl ⟨_, .testAndSet .writeStartUpdated⟩, false => h.take
  | none, _, .inl ⟨_, .clear .writeStartAcknowledge⟩, _ => .free
  | _, _, _, _ => h

/-- **What has to hold before an operation** of a thread. -/
inductive Pre (D : DescriptorHelper) :
    (t : Option ι) → MailPrivate ι t → Op ⊕ RestAccess → Phase ι → Prop
  | acquire {i : ι} {s : Caller} {h : Phase ι} :
    Pre D (some i) s (.inr .acquireWriteStartAcknowledge) h
  | storeId {i : ι} {s : Caller} :
    Pre D (some i) s (.inr (.storeWriteStartId s.call.id)) (.entered i s.call)
  | storeByte {i : ι} {s : Caller} {n : ℕ} :
    Pre D (some i) s (.inr (.storeWriteStart n (s.call.staged n))) (.filling i s.call n)
  | complete {i : ι} {s : Caller} : Pre D (some i) s (.inr .clearWriteStartUpdated)
      (.filling i s.call (D.objSize s.call.id))
  | take {s : Resolver} {h : Phase ι} (idle : h.resolving = false) :
    Pre D none s (.inl ⟨.resolverEventLoop, .testAndSet .writeStartUpdated⟩) h
  | seeId {s : Resolver} {i : ι} {c : WriteCall} :
    Pre D none s (.inl ⟨.writeStart, .loadWriteStartId⟩) (.taken i c)
  | seeByte {s : Resolver} {i : ι} {c : WriteCall} {n : ℕ} (hn : n < D.objSize c.id) :
    Pre D none s (.inl ⟨.writeStart, .loadWriteStart n⟩) (.taken i c)
  | acknowledge {s : Resolver} {i : ι} {c : WriteCall} :
    Pre D none s (.inl ⟨.writeStart, .clear .writeStartAcknowledge⟩) (.taken i c)
  | aside {s : Resolver} {o : Op} {h : Phase ι} (ho : o.ApartFromMail) : Pre D none s (.inl o) h

/-- **The board is as the token says.** -/
structure Follows (D : DescriptorHelper) (h : Phase ι) (b : Board) : Prop where
  acknowledge : b.flag .writeStartAcknowledge = false ↔ h = .free
  updated : b.flag .writeStartUpdated = false ↔ ∃ i c, h = .full i c
  letter : ∀ c n, h.letter D = some (c, n) →
    b.writeStartId = c.id ∧ ∀ k < n, b.transferWriteStartOut k = c.staged k

/-- What an answer tells. -/
def Told (h : Phase ι) : (o : Op ⊕ RestAccess) → MailAnswer o → Prop
  | .inr .acquireWriteStartAcknowledge, _ => h = .free
  | .inl ⟨_, .testAndSet .writeStartUpdated⟩, a => @Eq Bool a false → ∃ i c, h = .full i c
  | .inl ⟨_, .loadWriteStartId⟩, j => ∀ i c, h = .taken i c → @Eq ℕ j c.id
  | .inl ⟨_, .loadWriteStart n⟩, b => ∀ i c, h = .taken i c → @Eq Byte b (c.staged n)
  | _, _ => True

/-- **What a thread relies on**: nobody else gets or gives away its token. -/
def Rely : Option ι → Phase ι → Phase ι → Prop
  | some i, h, h' => (∀ c, h' = .entered i c ↔ h = .entered i c)
      ∧ ∀ c n, h' = .filling i c n ↔ h = .filling i c n
  | none, h, h' => ∀ i c, h' = .taken i c ↔ h = .taken i c

variable {h h' h'' : Phase ι} {t t' : Option ι} {s : MailPrivate ι t} {o : Op ⊕ RestAccess}

theorem Rely.refl (t : Option ι) (h : Phase ι) : Rely t h h := by
  cases t with
  | none => exact fun _ _ => .rfl
  | some i => exact ⟨fun _ => .rfl, fun _ _ => .rfl⟩

theorem Rely.trans (h₁ : Rely t h h') (h₂ : Rely t h' h'') : Rely t h h'' := by
  cases t with
  | none => exact fun i c => (h₂ i c).trans (h₁ i c)
  | some i => exact ⟨fun c => (h₂.1 c).trans (h₁.1 c), fun c n => (h₂.2 c n).trans (h₁.2 c n)⟩

theorem resolving_eq_false : h.resolving = false ↔ ∀ i c, h ≠ .taken i c := by
  cases h <;> simp [resolving]

/-- What is asserted before an operation survives interference. -/
theorem Pre.stable (hp : Pre D t s o h) (hr : Rely t h h') : Pre D t s o h' := by
  cases hp with
  | acquire => exact .acquire
  | storeId =>
    rw [(hr.1 _).mpr rfl]
    exact .storeId
  | storeByte =>
    rw [(hr.2 _ _).mpr rfl]
    exact .storeByte
  | complete =>
    rw [(hr.2 _ _).mpr rfl]
    exact .complete
  | take idle =>
    rw [resolving_eq_false] at idle
    exact .take (resolving_eq_false.mpr fun i c hf => idle i c ((hr i c).mp hf))
  | seeId =>
    rw [(hr _ _).mpr rfl]
    exact .seeId
  | seeByte hn =>
    rw [(hr _ _).mpr rfl]
    exact .seeByte hn
  | acknowledge =>
    rw [(hr _ _).mpr rfl]
    exact .acknowledge
  | aside ho => exact .aside ho

/-- A thread relies on nothing where it does not have the token. -/
theorem Rely.of_owner (hh : h.owner ≠ some t) (hh' : h'.owner ≠ some t) : Rely t h h' := by
  cases t with
  | none =>
    refine fun i c => ⟨?_, ?_⟩
    · rintro rfl
      exact absurd rfl hh'
    · rintro rfl
      exact absurd rfl hh
  | some i =>
    refine ⟨fun c => ⟨?_, ?_⟩, fun c n => ⟨?_, ?_⟩⟩
    all_goals
      rintro rfl
      first
        | exact absurd rfl hh'
        | exact absurd rfl hh

/-- A thread that does not have the token does not get it from others. -/
theorem Rely.owner (hr : Rely t h h') (hh : h.owner ≠ some t) : h'.owner ≠ some t := by
  intro howner
  cases h' with
  | free => cases howner
  | full i c => cases howner
  | entered i c =>
    obtain rfl := Option.some.inj howner
    obtain rfl := (hr.1 c).mp rfl
    exact hh rfl
  | filling i c n =>
    obtain rfl := Option.some.inj howner
    obtain rfl := (hr.2 c n).mp rfl
    exact hh rfl
  | taken i c =>
    obtain rfl := Option.some.inj howner
    obtain rfl := (hr i c).mp rfl
    exact hh rfl

theorem resolving_iff_owner : h.resolving = false ↔ h.owner ≠ some none := by
  cases h <;> simp [resolving, owner]

theorem owner_take (idle : h.resolving = false) :
    h.take = h ∨ h.owner ≠ some t ∧ h.take.owner = some none := by
  cases h with
  | full i c => exact .inr ⟨(fun hf => by cases hf), rfl⟩
  | taken i c => cases idle
  | _ => exact .inl rfl

theorem after_apart {s : Resolver} {o : Op} {a : MailAnswer (.inl o)} (ho : o.ApartFromMail) :
    h.after none s (.inl o) a = h := by
  obtain ⟨site, acc⟩ := o
  cases acc with
  | testAndSet f =>
    cases f with
    | writeStartUpdated => exact absurd rfl ho.1
    | _ => rfl
  | clear f =>
    cases f with
    | writeStartAcknowledge => exact absurd rfl ho.2
    | _ => rfl
  | _ => rfl

theorem told_apart {o : Op} {a : MailAnswer (.inl o)} (ho : o.ApartFromMail) :
    h.Told (.inl o) a := by
  obtain ⟨site, acc⟩ := o
  cases acc with
  | testAndSet f =>
    cases f with
    | writeStartUpdated => exact absurd rfl ho.1
    | _ => trivial
  | loadWriteStartId => exact ho.elim
  | loadWriteStart => exact ho.elim
  | _ => trivial

/-- **An operation leaves to the other threads what they rely on.** -/
theorem Pre.rely (hp : Pre D t s o h) {a : MailAnswer o} (ht : h.Told o a) (hne : t' ≠ t) :
    Rely t' h (h.after t s o a) := by
  have hother : some t ≠ some t' := fun hf => hne (Option.some.inj hf).symm
  cases hp with
  | acquire =>
    obtain rfl : h = .free := ht
    exact .of_owner (fun hf => by cases hf) hother
  | storeId => exact .of_owner hother hother
  | storeByte => exact .of_owner hother hother
  | complete => exact .of_owner hother (fun hf => by cases hf)
  | take idle =>
    cases a with
    | true => exact .refl ..
    | false =>
      show Rely t' h h.take
      obtain hsame | ⟨hfree, htaken⟩ := owner_take idle (t := t')
      · rw [hsame]
        exact .refl ..
      · exact .of_owner hfree (by rw [htaken]; exact hother)
  | seeId => exact .refl ..
  | seeByte => exact .refl ..
  | acknowledge => exact .of_owner hother (fun hf => by cases hf)
  | aside ho =>
    rw [after_apart ho]
    exact .refl ..

/-! ### The board -/

variable {b b' : Board}

/-- An operation apart leaves the mailbox alone. -/
theorem exec_apart {o : Op} {a : o.Answer} (hx : Board.exec o.access b = some (a, b'))
    (ho : o.ApartFromMail) : b'.flag .writeStartUpdated = b.flag .writeStartUpdated
      ∧ b'.flag .writeStartAcknowledge = b.flag .writeStartAcknowledge
      ∧ b'.writeStartId = b.writeStartId
      ∧ b'.transferWriteStartOut = b.transferWriteStartOut := by
  obtain ⟨site, acc⟩ := o
  have hflag : ∀ f, f = .writeStartUpdated ∨ f = .writeStartAcknowledge →
      b'.flag f = b.flag f := by
    intro f hf
    refine Board.exec_flag hx ?_ ?_ ?_
    all_goals
      rintro rfl
      obtain rfl | rfl := hf
      · exact ho.1 rfl
      · exact ho.2 rfl
  refine ⟨hflag _ (.inl rfl), hflag _ (.inr rfl), ?_⟩
  cases acc with
  | acquire f =>
    change (if _ then _ else _) = _ at hx
    split at hx
    · cases hx
    · cases hx
      exact ⟨rfl, rfl⟩
  | handshake => cases hx
  | handshakeAck => cases hx
  | _ =>
    cases hx
    exact ⟨rfl, rfl⟩

/-- The flags are as they were. -/
theorem Follows.of_flags (hf : h.Follows D b)
    (hack : b'.flag .writeStartAcknowledge = b.flag .writeStartAcknowledge)
    (hupdated : b'.flag .writeStartUpdated = b.flag .writeStartUpdated)
    (hfree : h' = .free ↔ h = .free) (hfull : (∃ i c, h' = .full i c) ↔ ∃ i c, h = .full i c)
    (hletter : ∀ c n, h'.letter D = some (c, n) →
      b'.writeStartId = c.id ∧ ∀ k < n, b'.transferWriteStartOut k = c.staged k) :
    h'.Follows D b' where
  acknowledge := by rw [hack, hf.acknowledge, hfree]
  updated := by rw [hupdated, hf.updated, hfull]
  letter := hletter

/-- A mailbox that is as it was. -/
theorem Follows.of_same (hf : h.Follows D b)
    (same : b'.flag .writeStartUpdated = b.flag .writeStartUpdated
      ∧ b'.flag .writeStartAcknowledge = b.flag .writeStartAcknowledge
      ∧ b'.writeStartId = b.writeStartId ∧ b'.transferWriteStartOut = b.transferWriteStartOut) :
    h.Follows D b' := by
  obtain ⟨hupdated, hack, hid, hbytes⟩ := same
  refine hf.of_flags hack hupdated .rfl .rfl fun c n hl => ?_
  rw [hid, hbytes]
  exact hf.letter c n hl

/-- Nothing has happened. -/
theorem Follows.initial (obj : ℕ → ℕ → Byte) :
    Follows D (.free : Phase ι) (Board.initial obj) where
  acknowledge := ⟨fun _ => rfl, fun _ => rfl⟩
  updated := by
    refine ⟨(fun hf => by cases hf), ?_⟩
    rintro ⟨i, c, hf⟩
    cases hf
  letter _ _ hl := by cases hl

/-- **A caller's operation**, on the board. -/
theorem Follows.after_mail {i : ι} {s : Caller} {x : RestAccess} (hf : h.Follows D b)
    (hp : Pre D (some i) s (.inr x) h) (hx : x.exec b = some b') :
    (h.after (some i) s (.inr x) ()).Follows D b' ∧ h.Told (.inr x) () := by
  cases hp with
  | acquire =>
    change (if _ then _ else _) = _ at hx
    split at hx
    case isTrue => cases hx
    case isFalse hack =>
      obtain rfl := Option.some.inj hx
      obtain rfl : h = .free := hf.acknowledge.mp (by simpa using hack)
      refine ⟨⟨?_, ?_, fun c n hl => by cases hl⟩, rfl⟩
      · rw [Board.setFlag_self]
        exact ⟨(fun hf => by cases hf), (fun hf => by cases hf)⟩
      · rw [Board.setFlag_of_ne _ _ (by decide), hf.updated]
        simp [after]
  | storeId =>
    obtain rfl := Option.some.inj hx
    refine ⟨hf.of_flags rfl rfl (by simp [after]) (by simp [after]) fun c n hl => ?_, trivial⟩
    obtain ⟨rfl, rfl⟩ := Prod.mk.inj (Option.some.inj hl)
    exact ⟨rfl, fun k hk => absurd hk (Nat.not_lt_zero k)⟩
  | @storeByte i s n =>
    obtain rfl := Option.some.inj hx
    obtain ⟨hid, hbytes⟩ := hf.letter _ _ rfl
    refine ⟨hf.of_flags rfl rfl (by simp [after]) (by simp [after]) fun c m hl => ?_, trivial⟩
    obtain ⟨rfl, rfl⟩ := Prod.mk.inj (Option.some.inj hl)
    refine ⟨hid, fun k hk => ?_⟩
    obtain rfl | hne := eq_or_ne k n
    · exact Function.update_self ..
    · exact (Function.update_of_ne hne ..).trans (hbytes k (by omega))
  | complete =>
    obtain rfl := Option.some.inj hx
    refine ⟨⟨?_, ?_, fun c n hl => ?_⟩, trivial⟩
    · rw [Board.setFlag_of_ne _ _ (by decide), hf.acknowledge]
      simp [after]
    · rw [Board.setFlag_self]
      exact ⟨fun _ => ⟨_, _, rfl⟩, fun _ => rfl⟩
    · obtain ⟨rfl, rfl⟩ := Prod.mk.inj (Option.some.inj hl)
      exact hf.letter _ _ rfl

/-- **The resolver's operation**, on the board. -/
theorem Follows.after_op {s : Resolver} {o : Op} {a : MailAnswer (.inl o)} (hf : h.Follows D b)
    (hp : Pre D (none : Option ι) s (.inl o) h) (hx : Board.exec o.access b = some (a, b')) :
    (h.after none s (.inl o) a).Follows D b' ∧ h.Told (.inl o) a := by
  cases hp with
  | take idle =>
    obtain ⟨rfl, rfl⟩ := Prod.mk.inj (Option.some.inj hx)
    have hself : (b.setFlag .writeStartUpdated true).flag .writeStartUpdated = true :=
      b.setFlag_self ..
    have hack : (b.setFlag .writeStartUpdated true).flag .writeStartAcknowledge
        = b.flag .writeStartAcknowledge := b.setFlag_of_ne _ (by decide)
    refine ⟨?_, hf.updated.mp⟩
    cases hb : b.flag .writeStartUpdated with
    | true =>
      rw [Board.setFlag_eq_self hb]
      exact hf
    | false =>
      obtain ⟨i, c, rfl⟩ := hf.updated.mp hb
      refine ⟨?_, ?_, hf.letter⟩
      · rw [hack, hf.acknowledge]
        simp [after, take]
      · rw [hself]
        simp [after, take]
  | seeId =>
    obtain ⟨rfl, rfl⟩ := Prod.mk.inj (Option.some.inj hx)
    refine ⟨hf, fun i' c' hc => ?_⟩
    rw [hc] at hf
    exact (hf.letter _ _ rfl).1
  | seeByte hn =>
    obtain ⟨rfl, rfl⟩ := Prod.mk.inj (Option.some.inj hx)
    refine ⟨hf, fun i' c' hc => ?_⟩
    obtain ⟨rfl, rfl⟩ := Phase.taken.inj hc
    exact (hf.letter _ _ rfl).2 _ hn
  | acknowledge =>
    obtain ⟨rfl, rfl⟩ := Prod.mk.inj (Option.some.inj hx)
    refine ⟨⟨?_, ?_, fun c n hl => by cases hl⟩, trivial⟩
    · rw [Board.setFlag_self]
      exact ⟨fun _ => rfl, fun _ => rfl⟩
    · rw [Board.setFlag_of_ne _ _ (by decide), hf.updated]
      simp [after]
  | aside ho =>
    refine ⟨?_, told_apart ho⟩
    rw [after_apart ho]
    exact hf.of_same (exec_apart hx ho)

end Phase

/-! ## The books -/

section Books

variable {l l' : List (MailEvent ι)}

@[simp] theorem calls_append : calls (l ++ l') = calls l ++ calls l' := List.filterMap_append

@[simp] theorem callsOver_append : callsOver (l ++ l') = callsOver l ++ callsOver l' :=
  List.filterMap_append

@[simp] theorem takings_append : takings (l ++ l') = takings l + takings l' := List.countP_append

@[simp] theorem acknowledgements_append :
    acknowledgements (l ++ l') = acknowledgements l + acknowledgements l' := List.countP_append

theorem mailEvents_apart {s : Resolver} {o : Op} {a : MailAnswer (.inl o)}
    (ho : o.ApartFromMail) :
    mailEvents (none : Option ι) s (.inl o) a = [] := by
  obtain ⟨site, acc⟩ := o
  cases acc with
  | testAndSet f =>
    cases f with
    | writeStartUpdated => exact absurd rfl ho.1
    | _ => rfl
  | clear f =>
    cases f with
    | writeStartAcknowledge => exact absurd rfl ho.2
    | _ => rfl
  | loadWriteStartId => exact ho.elim
  | loadWriteStart => exact ho.elim
  | _ => rfl

/-- **What has been observed goes with the token.** -/
structure Books (D : DescriptorHelper) (l : List (MailEvent ι)) (h : Phase ι) : Prop where
  calls : calls l = callsOver l ++ h.caller.toList
  ended : (callsOver l).length = acknowledgements l + h.pending.toList.length
  last : ∀ x, h.pending = some x → (callsOver l).getLast? = some x
  taken : takings l = acknowledgements l + h.resolving.toNat
  proper : Throughout (fun before e => e.Proper D before) l

namespace Books

variable {h : Phase ι} {t : Option ι} {s : MailPrivate ι t} {o : Op ⊕ RestAccess}

/-- Nothing has happened. -/
theorem start : Books D ([] : List (MailEvent ι)) .free where
  calls := rfl
  ended := rfl
  last _ hx := by cases hx
  taken := rfl
  proper := throughout_nil

/-- The call the resolver is at. -/
theorem lastTaken_eq {i : ι} {c : WriteCall} (hb : Books D l (.taken i c)) :
    lastTaken l = some c := by
  have htaken : takings l = (callsOver l).length := hb.taken.trans hb.ended.symm
  have hcalls : SOS.calls l = callsOver l := hb.calls.trans (List.append_nil _)
  unfold lastTaken
  rw [hcalls, htaken, List.take_length, hb.last (i, c) rfl]
  rfl

/-- Nothing has been given to the resolver. -/
theorem nothing_pending (hb : Books D l h) (hh : h.pending = none) :
    acknowledgements l = (callsOver l).length := by
  rw [hb.ended, hh]
  rfl

/-- One more event. -/
theorem concat {h' : Phase ι} {e : MailEvent ι} (hb : Books D l h)
    (calls : SOS.calls l ++ SOS.calls [e] = callsOver l ++ callsOver [e] ++ h'.caller.toList)
    (ended : (callsOver l).length + (callsOver [e]).length
      = acknowledgements l + acknowledgements [e] + h'.pending.toList.length)
    (last : ∀ x, h'.pending = some x → (callsOver l ++ callsOver [e]).getLast? = some x)
    (taken : takings l + takings [e]
      = acknowledgements l + acknowledgements [e] + h'.resolving.toNat)
    (proper : e.Proper D l) : Books D (l ++ [e]) h' where
  calls := by rw [calls_append, callsOver_append, calls]
  ended := by rw [callsOver_append, acknowledgements_append, List.length_append, ended]
  last := by rwa [callsOver_append]
  taken := by rw [takings_append, acknowledgements_append, taken]
  proper := throughout_concat.mpr ⟨hb.proper, proper⟩

/-- An event that nobody counts. -/
theorem quiet {h' : Phase ι} {e : MailEvent ι} (hb : Books D l h) (hcaller : h'.caller = h.caller)
    (hpending : h'.pending = h.pending) (hresolving : h'.resolving = h.resolving)
    (hcalls : SOS.calls [e] = []) (hover : callsOver [e] = []) (htaken : takings [e] = 0)
    (hacknowledged : acknowledgements [e] = 0) (hproper : e.Proper D l) :
    Books D (l ++ [e]) h' := by
  refine hb.concat ?_ ?_ ?_ ?_ hproper
  · rw [hcalls, hover, hcaller, hb.calls, List.append_nil, List.append_nil]
  · rw [hover, hacknowledged, hpending]
    exact hb.ended
  · rw [hover, hpending, List.append_nil]
    exact hb.last
  · rw [htaken, hacknowledged, hresolving]
    exact hb.taken

/-- **One more event**, while the token changes hands. -/
theorem after {a : MailAnswer o} (hb : Books D l h) (hp : h.Pre D t s o) (ht : h.Told o a) :
    Books D (l ++ mailEvents t s o a) (h.after t s o a) := by
  have hsame : Books D (l ++ []) h := by
    rw [List.append_nil]
    exact hb
  cases hp with
  | acquire =>
    obtain rfl : h = .free := ht
    refine hb.concat ?_ hb.ended (fun x hx => by cases hx) hb.taken trivial
    rw [hb.calls]
    rfl
  | storeId => exact hb.quiet rfl rfl rfl rfl rfl rfl rfl (hb.nothing_pending rfl)
  | storeByte => exact hb.quiet rfl rfl rfl rfl rfl rfl rfl (hb.nothing_pending rfl)
  | complete =>
    refine hb.concat ?_ (congrArg (· + 1) hb.ended) (fun x hx => ?_) hb.taken trivial
    · rw [hb.calls]
      rfl
    · exact List.getLast?_concat.trans hx
  | take idle =>
    cases a with
    | true => exact hsame
    | false =>
      obtain ⟨i, c, rfl⟩ : ∃ i c, h = .full i c := ht rfl
      refine hb.concat ?_ hb.ended (fun x hx => ?_) (congrArg (· + 1) hb.taken) trivial
      · rw [hb.calls]
        rfl
      · exact (congrArg List.getLast? (List.append_nil _)).trans (hb.last x hx)
  | seeId => exact hb.quiet rfl rfl rfl rfl rfl rfl rfl ⟨_, hb.lastTaken_eq, ht _ _ rfl⟩
  | seeByte hn => exact hb.quiet rfl rfl rfl rfl rfl rfl rfl ⟨_, hb.lastTaken_eq, hn, ht _ _ rfl⟩
  | acknowledge =>
    refine hb.concat ?_ hb.ended (fun x hx => by cases hx) hb.taken trivial
    rw [hb.calls]
    rfl
  | aside ho =>
    rw [mailEvents_apart ho, Phase.after_apart ho]
    exact hsame

end Books

namespace Phase

/-- The token is with one of the two, or with neither. -/
theorem resolving_le (h : Phase ι) : h.resolving.toNat ≤ h.pending.toList.length
    ∧ h.pending.toList.length ≤ h.resolving.toNat + 1 := by
  cases h <;> simp [resolving, pending]

end Phase

/-- **The books are in order.** -/
theorem Books.orderly {l : List (MailEvent ι)} {h : Phase ι} (hb : Books D l h) :
    Orderly D l where
  ended := by
    rw [hb.calls, List.length_append]
    exact ⟨List.prefix_append .., Nat.add_le_add_left Option.length_toList_le _⟩
  taken := by
    rw [hb.taken, hb.ended, Nat.add_assoc]
    exact ⟨Nat.add_le_add_left h.resolving_le.1 _, Nat.add_le_add_left h.resolving_le.2 _⟩
  proper := hb.proper

end Books

/-! ## The threads -/

/-- **The outline of the resolver and the callers.** -/
def mailOutline (ι : Type) (D : DescriptorHelper) (r : Role) :
    (mailbox ι D r).Outline (Phase ι) where
  follows h w := h.Follows D (w.board r)
  step t s o a h h' := h' = h.after t s o a ∧ h.Told o a
  node t s o h := h.Pre D t s o
  rest t _ h := h.owner ≠ some t
  error _ _ _ _ := True
  rely t _ h h' := h.Rely t h'
  refl t _ h := .refl t h
  trans _ _ _ _ _ h₁ h₂ := h₁.trans h₂
  node_stable _ _ _ _ _ hr hp := hp.stable hr
  rest_stable _ _ _ _ hr hh := hr.owner hh

namespace Phase

variable {h h' : Phase ι} {i : ι} {c : WriteCall}

/-! ### A caller -/

/-- The loop of `write`. -/
theorem stage_safe {s : Caller} {k m : ℕ} {Q : Caller → Unit → Phase ι → Prop}
    (hQ : Q s () (.filling i s.call (k + m))) :
    ((stage s.call (List.range' k m)).run s).Safe ((mailOutline ι D r).rules (some i)) Q
      (.filling i s.call k) := by
  induction m generalizing k with
  | zero => exact hQ
  | succ m ih =>
    rw [List.range'_succ, stage, run_bind, Prog.safe_bind]
    refine ⟨.storeByte, ?_⟩
    rintro a _ ⟨h₁, hr, rfl, -⟩
    obtain rfl : h₁ = .filling i s.call k := (hr.2 s.call k).mpr rfl
    refine ih ?_
    rwa [Nat.add_right_comm]

/-- **A caller** gets the token, and passes it on. -/
theorem write_safe {s : Caller} {h : Phase ι} :
    ((Rest.write D s.call).run s).Safe ((mailOutline ι D r).rules (some i))
      (fun s _ h => (mailOutline ι D r).rest (some i) s h) h := by
  simp only [Rest.write, run_bind, Prog.safe_bind]
  refine ⟨.acquire, ?_⟩
  rintro a _ ⟨h₁, hr₁, rfl, -⟩
  refine ⟨.storeId, ?_⟩
  rintro a _ ⟨h₂, hr₂, rfl, -⟩
  obtain rfl : h₂ = .entered i s.call := (hr₂.1 s.call).mpr rfl
  rw [List.range_eq_range']
  refine stage_safe ⟨?_, ?_⟩
  · rw [Nat.zero_add]
    exact .complete
  · rintro a _ ⟨h₃, hr₃, rfl, -⟩
    exact fun hf => by cases hf

/-- A caller makes its calls one after another. -/
theorem caller_safe {s : Caller} {h : Phase ι} (hh : h.owner ≠ some (some i)) :
    (mailOutline ι D r).Safe (some i) ((mailbox ι D r).loop (some i) s) h := by
  obtain ⟨call, next⟩ := s
  cases next with
  | nil => exact hh
  | cons c cs => exact write_safe

/-! ### The resolver -/

/-- **What the resolver asserts at a place**: it has the token through all of a write start, in
which the object is that of the call. -/
def At : Place → Phase ι → Prop
  | .lockWriteStart id, h | .loadWriteStart id _ _, h | .store id _ _ _, h =>
    ∃ i c, h = .taken i c ∧ c.id = id
  | .loadWriteStartId, h | .unlockWriteStart _, h | .syncMe _, h | .writeStartAcknowledge, h =>
    ∃ i c, h = .taken i c
  | _, h => h.owner ≠ some none

namespace At

variable {p : Place} {s s' : Resolver} {id : ℕ} {is : List ℕ}

theorem sweep (hh : h.owner ≠ some none) : At (Place.sweep is s') h := by
  cases is with
  | nil =>
    show At (if _ then _ else _) h
    split <;> exact hh
  | cons => exact hh

theorem copying (hh : h.owner ≠ some none) : At (Place.copying id is) h := by
  cases is <;> exact hh

theorem filling (hh : ∃ i c, h = .taken i c ∧ c.id = id) : At (Place.filling id is) h := by
  cases is with
  | nil =>
    obtain ⟨i, c, ht, -⟩ := hh
    exact ⟨i, c, ht⟩
  | cons => exact hh

/-- Nobody else gets or gives away the token of the resolver. -/
theorem rely (hp : At p h) (hr : Rely none h h') : At p h' := by
  have htaken : ∀ {i c}, h = .taken i c → h' = .taken i c := fun ht => (hr _ _).mpr ht
  cases p with
  | lockWriteStart | loadWriteStart | store =>
    obtain ⟨i, c, ht, hid⟩ := hp
    exact ⟨i, c, htaken ht, hid⟩
  | loadWriteStartId | unlockWriteStart | syncMe | writeStartAcknowledge =>
    obtain ⟨i, c, ht⟩ := hp
    exact ⟨i, c, htaken ht⟩
  | _ => exact Rely.owner hr hp

/-- **What it asserts before an operation.** -/
theorem node (hv : p.valid D s) (hp : At p h) : Pre D none s (.inl p.op) h := by
  cases p with
  | writeStartUpdated => exact .take (resolving_iff_owner.mpr hp)
  | loadWriteStartId =>
    obtain ⟨i, c, rfl⟩ := hp
    exact .seeId
  | loadWriteStart id n is =>
    obtain ⟨i, c, rfl, rfl⟩ := hp
    exact .seeByte (hv.2 n List.mem_cons_self)
  | writeStartAcknowledge =>
    obtain ⟨i, c, rfl⟩ := hp
    exact .acknowledge
  | readEndId | writeEndId | loadReadEndId | load | storeReadEnd | store => exact .aside trivial
  | _ => exact .aside ⟨by simp, by simp⟩

/-- **What an operation leads to.** -/
theorem step {a : p.op.Answer} (hp : At p h) (ht : h.Told (.inl p.op) a) :
    (p.next D a s).Holds ((mailOutline ι D r).rules none).inl (fun p _ => At p)
      (h.after none s (.inl p.op) a) := by
  cases p with
  | writeStartUpdated =>
    cases a with
    | true => exact hp
    | false =>
      -- the flag is clear, so there is a letter
      obtain ⟨i, c, rfl⟩ : ∃ i c, h = .full i c := ht rfl
      exact ⟨i, c, rfl⟩
  | loadWriteStartId =>
    obtain ⟨i, c, rfl⟩ := hp
    exact holds_loadWriteStartId D (fun _ _ => ⟨i, c, rfl, (ht i c rfl).symm⟩) fun _ _ _ => trivial
  | writeStartAcknowledge => exact fun hf => by cases hf
  | triggerResolve => cases a <;> exact sweep hp
  | readAck => cases a <;> exact hp
  | writeAck =>
    cases a with
    | true => exact sweep hp
    | false => exact hp
  | readFault | writeFault =>
    cases a with
    | true => exact hp
    | false => trivial
  | writeEndId => exact sweep hp
  | loadReadEndId =>
    show At (if _ then _ else _) h
    split <;> exact hp
  | lockReadEnd | storeReadEnd => exact copying hp
  | lockWriteStart | store => exact filling hp
  | _ => exact hp

end At

end Phase

/-- **The resolver** takes the token, and gives it back. -/
theorem mail_round :
    (round D).Keeps ((mailOutline ι D r).rules none).inl fun p _ => Phase.At (ι := ι) p where
  node _ _ _ hv hp := hp.node hv
  step p s a h _ hv hp := by
    rintro ⟨h₁, hr, rfl, ht⟩
    exact (hp.rely hr).step ht

theorem mail_resolver_safe {s : Resolver} {h : Phase ι} (hh : h.owner ≠ some none) :
    ((resolverEventLoop D).run s).Safe ((mailOutline ι D r).rules none).inl
      (fun _ _ h => h.owner ≠ some none) h :=
  mail_round.safe (resolverEventLoop_charted s) hh

/-! ## The mailbox and its callers -/

/-- What the environment may do. -/
theorem MailboxIntact.follows {σ : (mailbox ι D r).State} {w : World} {h : Phase ι}
    (he : MailboxIntact σ w) (hf : h.Follows D (σ.world.board r)) : h.Follows D (w.board r) :=
  hf.of_same ⟨he.updated, he.acknowledge, he.id, he.bytes⟩

/-- **Every operation does to the board what the token says.** -/
theorem Phase.Follows.exec {h : Phase ι} {t : Option ι} {s : MailPrivate ι t}
    {o : Op ⊕ RestAccess} {a : MailAnswer o} {w w' : World}
    (hf : h.Follows D (w.board r)) (hp : h.Pre D t s o)
    (hx : (mailbox ι D r).exec t o w = some (a, w')) :
    (h.after t s o a).Follows D (w'.board r) ∧ h.Told o a := by
  cases t with
  | none =>
    cases o with
    | inr x => cases hp
    | inl o =>
      obtain hown | ⟨hhandshake, hboard⟩ := World.exec_own hx
      · exact hf.after_op hp hown
      · obtain ⟨site, acc⟩ := o
        obtain rfl | ⟨b, rfl⟩ : acc = .handshake ∨ ∃ b, acc = .handshakeAck b := hhandshake
        all_goals
          rw [hboard]
          exact ⟨hf, trivial⟩
  | some i =>
    cases o with
    | inl o => cases hp
    | inr x =>
      obtain ⟨b, hb, heq⟩ := Option.map_eq_some_iff.mp hx
      obtain ⟨rfl, rfl⟩ := Prod.mk.inj heq
      rw [World.setBoard_self]
      exact hf.after_mail hp hb

variable [DecidableEq ι]

/-- **The mailbox keeps its integrity**, for any number of callers, whatever they write, and in
every order of the steps. -/
theorem mailbox_integrity (D : DescriptorHelper) (r : Role) (obj : Role → ℕ → ℕ → Byte)
    (calls : ι → Caller) {σ : (mailbox ι D r).State} {l : List (MailEvent ι)}
    (hσ : (mailbox ι D r).Traces MailboxIntact (fun _ _ => True) mailEvents
      (mailbox.start D r obj calls) l σ) : Orderly D l := by
  obtain ⟨h, hb, -⟩ : ∃ h : Phase ι, Books D l h ∧ (mailOutline ι D r).Keeps σ h := by
    refine Pool.Outline.sound_traces (L := mailOutline ι D r) (Books D) ?_ ?_ ?_ hσ ?_
    · intro σ l h t s o k a w hb hk node exec _
      have hp : h.Pre D t s o := hk.node node
      obtain ⟨hf, ht⟩ := Phase.Follows.exec hk.1 hp exec
      exact ⟨h.after t s o a, hb.after hp ht, hf, ⟨rfl, ht⟩, fun t' hne => hp.rely ht hne⟩
    · intro σ l h w hb hk henv _
      exact ⟨h, hb, henv.follows hk.1, fun t => .refl t h⟩
    · intro t s h hh
      cases t with
      | none => exact Prog.safe_inl.mpr (mail_resolver_safe hh)
      | some i => exact Phase.caller_safe hh
    · refine ⟨.free, .start, .initial (obj r), fun t => ?_⟩
      cases t with
      | none => exact fun hf => by cases hf
      | some i => exact fun hf => by cases hf
  exact hb.orderly

/-- **Replays of the mailbox.** -/
def mailbox.script (ι : Type) (D : DescriptorHelper) (r : Role) :
    (mailbox ι D r).Script Empty where
  act v := v.elim
  may v := v.elim
  check _ := true

/-- Two threads, each of which calls `write` for an object of its own. -/
def twoCallers (i : Bool) : Caller where
  call := ⟨0, fun _ => 0⟩
  next := [⟨i.toNat, fun _ => 7⟩]

/-- The second thread waits until the resolver has processed the first one's call. -/
theorem mailbox_integrity_two : ∃ (σ : (mailbox Bool twoObjects .fpga).State)
    (l : List (MailEvent Bool)), (mailbox Bool twoObjects .fpga).Traces MailboxIntact
      (fun _ _ => True) mailEvents (mailbox.start twoObjects .fpga (fun _ _ _ => 0) twoCallers) l σ
    ∧ (callsOver l).map (fun x => x.2.id) = [1, 0] ∧ takings l = 2 ∧ Orderly twoObjects l := by
  obtain ⟨σ, l, hl, hp⟩ := Pool.Script.exists_of_record MailboxIntact (fun _ _ => True)
    (mailbox.script Bool twoObjects .fpga) mailEvents
    [.go (some true) 8, .go (some false) 8, .go none 14, .go (some false) 8, .go none 14]
    (mailbox.start twoObjects .fpga (fun _ _ _ => 0) twoCallers)
    (fun x => decide ((callsOver x.2).map (fun x => x.2.id) = [1, 0]) && decide (takings x.2 = 2))
    (fun v => v.elim) (fun _ _ _ => trivial) (by decide +kernel)
  rw [Bool.and_eq_true] at hp
  exact ⟨σ, l, hl, of_decide_eq_true hp.1, of_decide_eq_true hp.2,
    mailbox_integrity twoObjects .fpga _ twoCallers hl⟩

end SOS
