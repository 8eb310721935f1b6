import Mathlib.Data.List.DropRight
import SoftwareOnSilicon.Ownership
import SoftwareOnSilicon.Trace
import SoftwareOnSilicon.Commands

/-!
# Write requests, sends and receives of an end

What follows from the custody of the write requests, for any peer and any commands
of the REST layer: an object that is sent is not written meanwhile
(`snapshot_integrity`), a request that has been accepted is not forgotten
(`request_kept`), and neither is it released before it has been sent.

A receive has no such custody: the resolver does not ask whether the object is being
received. Without a write start in between, what is reported is what the peer has
sent (`receive_isolated`).
-/

namespace SOS

open Interleaving Code

variable {D : DescriptorHelper} {r : Role} {apart : Prop}

/-! ## Every run keeps the custody -/

/-- What is observed of a write request: it is accepted, the bytes of its object are
fetched, and symbols with what they carry are handed over. `last` is set where
`write_object` has given the send up with the symbol. -/
inductive RequestEvent where
  | accepted (j : ℕ)
  | fetched (j i : ℕ) (b : Byte)
  | emitted (j : ℕ) (last : Bool) (b : Byte)
  deriving DecidableEq

/-- What an operation shows. -/
def requests : Pool.Observer Worker.Private Op.Answer RequestEvent
  | .resolver, _, ⟨.writeStart, .clear (.syncMe j)⟩, _ => [.accepted j]
  | .communication, _, ⟨.writeObject, .load j i⟩, b => [.fetched j i b]
  | .communication, s, ⟨_, .handshakeAck b⟩, _ =>
    if s.history.payload then [.emitted s.writeOrigin (!s.sendLock) (stateCode b)] else []
  | _, _, _, _ => []

/-- What has been observed since the last request of an object was accepted. -/
def sinceAccepted (j : ℕ) (l : List RequestEvent) : List RequestEvent :=
  l.rtakeWhile fun e => e ≠ .accepted j

/-- What an event fetches of an object. -/
def fetchOf (j : ℕ) : RequestEvent → Option (ℕ × Byte)
  | .fetched k i b => if k = j then some (i, b) else none
  | _ => none

/-- What an event emits of an object, unless it is the last symbol. -/
def emitOf (j : ℕ) : RequestEvent → Option Byte
  | .emitted k last b => if k = j ∧ last = false then some b else none
  | _ => none

/-- **What has been fetched of an object** since its last request, with the indices. -/
def fetchedSince (j : ℕ) (l : List RequestEvent) : List (ℕ × Byte) :=
  (sinceAccepted j l).filterMap (fetchOf j)

/-- **What has been emitted of an object** since its last request, but for last symbols. -/
def emittedSince (j : ℕ) (l : List RequestEvent) : List Byte :=
  (sinceAccepted j l).filterMap (emitOf j)

theorem sinceAccepted_accepted {j k : ℕ} {l : List RequestEvent} :
    sinceAccepted j (l ++ [.accepted k])
      = if k = j then [] else sinceAccepted j l ++ [.accepted k] := by
  unfold sinceAccepted
  by_cases hk : k = j
  · rw [if_pos hk, List.rtakeWhile_concat_neg _ _ _ (by simp [hk])]
  · rw [if_neg hk, List.rtakeWhile_concat_pos _ _ _ (by simp [hk])]

theorem sinceAccepted_append {j : ℕ} {l l' : List RequestEvent}
    (hl : ∀ e ∈ l', e ≠ .accepted j) : sinceAccepted j (l ++ l') = sinceAccepted j l ++ l' := by
  induction l' using List.reverseRecOn with
  | nil => rw [List.append_nil, List.append_nil]
  | append_singleton l' e ih =>
    rw [← List.append_assoc, sinceAccepted, List.rtakeWhile_concat_pos _ _ _ (by
      simpa using hl e (by simp))]
    rw [← sinceAccepted, ih fun e he => hl e (by simp [he]), List.append_assoc]

/-- An operation that accepts no request shows what it fetches or emits. -/
theorem requests_accepts {i : Worker} {s : i.Private} {o : Op} {a : o.Answer}
    (hc : ∀ j, o ≠ ⟨.writeStart, .clear (.syncMe j)⟩) (j : ℕ) :
    ∀ e ∈ requests i s o a, e ≠ .accepted j := by
  unfold requests
  split
  case h_1 => exact absurd rfl (hc _)
  case h_2 => simp
  case h_3 => split <;> simp
  case h_4 => simp

/-- Most operations show nothing. -/
theorem requests_none {i : Worker} {s : i.Private} {o : Op} {a : o.Answer}
    (hc : ∀ j, o ≠ ⟨.writeStart, .clear (.syncMe j)⟩)
    (hl : ∀ j k, o ≠ ⟨.writeObject, .load j k⟩)
    (hg : i = .communication → ∀ b, o.access ≠ .handshakeAck b) : requests i s o a = [] := by
  unfold requests
  split
  case h_1 => exact absurd rfl (hc _)
  case h_2 => exact absurd rfl (hl _ _)
  case h_3 => exact absurd rfl (hg rfl _)
  case h_4 => rfl

/-- The token is handed on with a symbol of an object, or with another one. -/
theorem requests_given {s : Endpoint} {site : Site} {b : Byte} {a : Unit} :
    requests .communication s ⟨site, .handshakeAck b⟩ a
      = if s.history.payload then [.emitted s.writeOrigin (!s.sendLock) (stateCode b)] else [] := by
  cases site <;> rfl

/-- What an operation fetches or emits is recorded. -/
theorem requests_record {i : Worker} {s : i.Private} {o : Op} {a : o.Answer} {h : Custody}
    (hi : o.By i) (hc : ∀ j, o ≠ ⟨.writeStart, .clear (.syncMe j)⟩) (j : ℕ) :
    ((h.after o a).passed i s o).fetches j
        = h.fetches j ++ (requests i s o a).filterMap (fetchOf j)
      ∧ ((h.after o a).passed i s o).emits j
        = h.emits j ++ (requests i s o a).filterMap (emitOf j) := by
  by_cases hl : ∃ k n, o = ⟨.writeObject, .load k n⟩
  · obtain ⟨k, n, rfl⟩ := hl
    obtain rfl : Worker.communication = i := by
      obtain hw | hw | hw := hi
      · exact hw
      · cases hw
      · cases hw
    show Function.update h.fetches k (h.fetches k ++ [(n, a)]) j
        = h.fetches j ++ [RequestEvent.fetched k n a].filterMap (fetchOf j)
      ∧ h.emits j = h.emits j ++ [RequestEvent.fetched k n a].filterMap (emitOf j)
    by_cases hk : k = j
    · subst hk
      simp [fetchOf, emitOf]
    · simp [fetchOf, emitOf, hk, Ne.symm hk]
  by_cases hg : i = .communication ∧ ∃ b, o.access = .handshakeAck b
  · obtain ⟨rfl, b, hb⟩ := hg
    obtain ⟨site, access⟩ := o
    obtain rfl : access = .handshakeAck b := hb
    have hafter : h.after ⟨site, .handshakeAck b⟩ a = h := Custody.after_other (by trivial)
    rw [hafter, requests_given]
    show (if _ then h.emit s.writeOrigin (stateCode b) else h).fetches j = _
      ∧ (if _ then h.emit s.writeOrigin (stateCode b) else h).emits j = _
    cases s.history.payload with
    | false => simp
    | true =>
      cases s.sendLock with
      | false => simp [fetchOf, emitOf]
      | true =>
        by_cases hk : s.writeOrigin = j
        · subst hk
          simp [fetchOf, emitOf, Custody.emit]
        · simp [fetchOf, emitOf, Custody.emit, hk, Ne.symm hk]
  have hl' : ∀ k n, o ≠ ⟨.writeObject, .load k n⟩ := fun k n hk => hl ⟨k, n, hk⟩
  have hpassed : (h.after o a).passed i s o = h.after o a := by
    cases i with
    | resolver => rfl
    | communication => exact Custody.passed_eq fun b hb => hg ⟨rfl, b, hb⟩
  rw [requests_none hc hl' fun hw b hb => hg ⟨hw, b, hb⟩, hpassed, Custody.after_fetches hc hl',
    Custody.after_emits hc]
  simp

/-- What is fetched and emitted goes with the custody. -/
theorem requests_after {i : Worker} {s : i.Private} {o : Op} {a : o.Answer} {h : Custody}
    {l : List RequestEvent} (hi : o.By i)
    (hl : ∀ j, h.fetches j = fetchedSince j l ∧ h.emits j = emittedSince j l) (j : ℕ) :
    ((h.after o a).passed i s o).fetches j = fetchedSince j (l ++ requests i s o a)
      ∧ ((h.after o a).passed i s o).emits j = emittedSince j (l ++ requests i s o a) := by
  obtain ⟨hf, he⟩ := hl j
  by_cases hc : ∃ k, o = ⟨.writeStart, .clear (.syncMe k)⟩
  · obtain ⟨k, rfl⟩ := hc
    obtain rfl : Worker.resolver = i := by
      obtain hw | hw | hw := hi
      · exact hw
      · cases hw
      · cases hw
    show Function.update h.fetches k [] j = fetchedSince j (l ++ [.accepted k])
      ∧ Function.update h.emits k [] j = emittedSince j (l ++ [.accepted k])
    rw [fetchedSince, emittedSince, sinceAccepted_accepted]
    by_cases hk : k = j
    · subst hk
      simp
    · rw [Function.update_of_ne (Ne.symm hk), Function.update_of_ne (Ne.symm hk), if_neg hk,
        List.filterMap_append, List.filterMap_append, hf, he]
      simp [fetchedSince, emittedSince, fetchOf, emitOf]
  have hc' : ∀ k, o ≠ ⟨.writeStart, .clear (.syncMe k)⟩ := fun k hk => hc ⟨k, hk⟩
  rw [fetchedSince, emittedSince, sinceAccepted_append (requests_accepts hc' j),
    List.filterMap_append, List.filterMap_append, ← fetchedSince, ← emittedSince, ← hf, ← he]
  exact requests_record hi hc' j

/-- What a thread asserts before an operation, whichever it is. -/
theorem custodyOutline_node {i : Worker} {s : i.Private} {o : Op} {h : Custody}
    (hn : (custodyOutline D r apart).node i s o h) : o.By i ∧ h.Pre D o := by
  cases i with
  | communication => exact ⟨hn.worker, hn.pre⟩
  | resolver => exact ⟨hn.worker, hn.pre⟩

/-- A symbol is handed over of an object that is being sent. -/
theorem Custody.Follows.passed {i : Worker} {s : i.Private} {o : Op} {h : Custody} {b : Board}
    (hf : h.Follows D b) (hn : (custodyOutline D r apart).node i s o h) :
    (h.passed i s o).Follows D b := by
  unfold Custody.passed
  split
  case h_1 s site x =>
    split
    case isTrue hp =>
      have hnode : h.CommNode D apart s ⟨site, .handshakeAck x⟩ := hn
      obtain ⟨-, hl⟩ := (Bool.and_eq_true _ _).mp hp
      have hsending : h.token s.writeOrigin = .sending :=
        (hnode.transfer _ (hnode.handing x rfl hl)).resolve_right (by simp)
      have hrecord := hf.record (by rw [hsending]; decide) (by rw [hsending]; decide)
        (h.fetches s.writeOrigin) (h.emits s.writeOrigin ++ [stateCode x])
      rwa [Function.update_eq_self] at hrecord
    case isFalse => exact hf
  case h_2 => exact hf

/-- **An operation keeps the custody**, and leaves to the other thread what it relies on. -/
theorem custodyOutline_op {σ : (process D r).State} {h : Custody} {i : Worker} {s : i.Private}
    {o : Op} {k : o.Answer → Prog i.Private ErrorCode Op.Answer Unit} {a : o.Answer} {w : World}
    (hk : (custodyOutline D r apart).Keeps σ h) (hi : σ.thread i = .op s o k)
    (exec : World.exec r o.access σ.world = some (a, w))
    (hapart : apart → Isolated σ ({ σ with world := w }.setThread i (k a))) :
    ((h.after o a).passed i s o).Follows D (w.board r) ∧ h.Told o a ∧ ∀ j, j ≠ i →
      (custodyOutline D r apart).rely j (σ.thread j).state h ((h.after o a).passed i s o) := by
  obtain ⟨hby, hpre⟩ := custodyOutline_node (hk.node hi)
  have hworld : ((h.after o a).passed i s o).Follows D (w.board r) ∧ h.Told o a := by
    obtain hb | ⟨hhandshake, hboard⟩ := World.exec_own exec
    · have hgive : ∀ b, o.access ≠ .handshakeAck b := by
        obtain ⟨site, acc⟩ := o
        rintro b rfl
        cases hb
      rw [Custody.passed_eq hgive]
      exact Custody.Follows.after hk.1 hpre hb
    · obtain ⟨site, acc⟩ := o
      obtain rfl | ⟨b, rfl⟩ : acc = .handshake ∨ ∃ b, acc = .handshakeAck b := hhandshake
      all_goals
        rw [Custody.after_other (by trivial), hboard]
        exact ⟨hk.1.passed (hk.node hi), trivial⟩
  refine ⟨hworld.1, hworld.2, fun j hj => ?_⟩
  have hpassed : Custody.Rely j (h.after o a) ((h.after o a).passed i s o) := .passed hj
  have hrely := (hpre.rely_by hworld.2 hby hj).trans hpassed
  cases j with
  | resolver => exact hrely
  | communication =>
    refine ⟨hrely, fun ha j hreceives => ?_⟩
    rw [Custody.passed_obj]
    refine Custody.after_obj fun n v hf => ?_
    obtain rfl : i = .resolver := by
      cases i with
      | communication => exact absurd rfl hj
      | resolver => rfl
    -- the resolver stores bytes of a write start only
    obtain ⟨site, acc⟩ := o
    obtain rfl : acc = .store j n v := hf
    obtain ⟨-, rfl, -⟩ | ⟨hf, -, -⟩ := hpre.store hby
    case inr => cases hf
    exact hapart ha s j n v k _ hi (Pool.State.setThread_self ..) hreceives

/-- The threads are started with all requests in the resolver's custody. -/
theorem custodyOutline_start (obj : Role → ℕ → ℕ → Byte) :
    (custodyOutline D r apart).Keeps (process.start D r obj)
      { token := fun _ => .free
        peek := none
        obj := obj r
        fetches := fun _ => []
        emits := fun _ => [] } := by
  refine ⟨?_, fun i => ?_⟩
  · exact
      { syncMe := fun j => by
          constructor
          · intro hf
            cases hf
          · rintro ⟨hf, -⟩
            cases hf
        writeAck := fun _ => rfl
        writeFault := fun _ => rfl
        obj := rfl
        peek := fun _ hj => by cases hj
        queued := fun _ _ => ⟨rfl, rfl⟩
        sent := fun _ hj => by rcases hj with hj | hj <;> cases hj }
  · cases i with
    | communication =>
      refine ⟨.initial, ⟨rfl, fun _ hf => absurd hf (Nat.not_lt_zero _)⟩, ?_⟩
      exact
        { peek := rfl
          sending := fun j => by
            constructor <;> (intro hf; cases hf)
          steady := fun _ => ⟨by simp, by simp⟩
          awaited := fun hf => by cases hf
          exclusive := fun _ hf => by cases hf
          fetched := fun hf => by cases hf
          fetches := fun _ hf => by cases hf
          emits := fun _ hf => by cases hf
          unsent := fun _ => rfl
          stored := fun _ hf => by cases hf }
    | resolver =>
      exact
        { pending := fun j => by
            constructor
            · intro hf
              cases hf
            · intro hf
              exact absurd rfl hf
          settled := fun _ => ⟨by simp, by simp, by simp⟩ }

/-- **Every run keeps the custody.** -/
theorem custodyOutline_traces (apart : Prop) (hD : D.Triples) {obj : Role → ℕ → ℕ → Byte}
    {ok : (process D r).State → (process D r).State → Prop} {σ : (process D r).State}
    {l : List RequestEvent} (hok : apart → ∀ σ σ', ok σ σ' → Isolated σ σ')
    (hσ : (process D r).Traces Undisturbed ok requests (process.start D r obj) l σ) :
    ∃ h, (∀ j, h.fetches j = fetchedSince j l ∧ h.emits j = emittedSince j l)
      ∧ (custodyOutline D r apart).Keeps σ h := by
  refine Pool.Outline.sound_traces (fun l h => ∀ j, Custody.fetches h j = fetchedSince j l
      ∧ h.emits j = emittedSince j l) ?_ ?_ ?_ hσ
    ⟨_, fun _ => ⟨rfl, rfl⟩, custodyOutline_start obj⟩
  · intro σ l h i s o k a w hl hk hi exec hok'
    obtain ⟨hf, htold, hrely⟩ := custodyOutline_op hk hi exec fun ha => hok ha _ _ hok'
    exact ⟨(h.after o a).passed i s o, requests_after (custodyOutline_node (hk.node hi)).1 hl, hf,
      ⟨rfl, htold⟩, hrely⟩
  · intro σ l h w hl hk henv _
    refine ⟨h, hl, ?_, fun j => (custodyOutline D r apart).refl j _ h⟩
    exact Custody.Follows.of_same hk.1
      (fun j => ⟨henv.flag _ rfl, henv.flag _ rfl, henv.flag _ rfl⟩) henv.obj
  · intro i s h hrest
    cases i with
    | communication => exact comm_safe hD hrest
    | resolver => exact custody_resolver_safe hrest

theorem custodyOutline_keeps (apart : Prop) (hD : D.Triples) {obj : Role → ℕ → ℕ → Byte}
    {ok : (process D r).State → (process D r).State → Prop} {σ : (process D r).State}
    (hok : apart → ∀ σ σ', ok σ σ' → Isolated σ σ')
    (hσ : (process D r).Reaches Undisturbed ok (process.start D r obj) σ) :
    ∃ h, (custodyOutline D r apart).Keeps σ h := by
  obtain ⟨l, hl⟩ := Pool.Traces.of_reaches requests hσ
  obtain ⟨h, -, hk⟩ := custodyOutline_traces apart hD hok hl
  exact ⟨h, hk⟩

/-! ## A send -/

/-- The object is in transfer. -/
def Transfers (σ : (process D r).State) (j : ℕ) : Prop :=
  (σ.thread .communication).state.transfer j = true

/-- An object that is in transfer is with the communication thread. -/
theorem Transfers.owner {σ : (process D r).State} {h : Custody} {j : ℕ}
    (hk : (custodyOutline D r apart).Keeps σ h) (hup : σ.Up) (ht : Transfers σ j) :
    (h.token j).owner = .communication := by
  unfold Transfers at ht
  have hsafe := hk.2 .communication
  revert hsafe ht
  cases hp : σ.thread .communication with
  | ret s a =>
    intro ht hsafe
    obtain ⟨-, -, hm⟩ : AtRest D s ∧ s.progress.Grouped ∧ h.Mid apart s.progress.emitted s := hsafe
    rw [(hm.sending j).mpr ht]
    rfl
  | fail s e => exact absurd hp (hup .communication s e)
  | op s o k =>
    intro ht hsafe
    have hnode : h.CommNode D apart s o := hk.node hp
    obtain hs | rfl := hnode.transfer j ht
    · rw [hs]
      rfl
    · rw [hnode.pre.2.2 rfl]
      rfl

/-- **No step changes an object that is in transfer.** -/
theorem Transfers.step {σ σ' : (process D r).State} {h : Custody} {j : ℕ}
    (hk : (custodyOutline D r False).Keeps σ h) (ht : Transfers σ j)
    (hs : (process D r).Step Undisturbed σ σ') :
    (σ'.world.board r).obj j = (σ.world.board r).obj j := by
  cases hs with
  | loop up node => rfl
  | env up change => exact congrFun change.obj j
  | @op i s o k a w up node exec =>
    obtain ⟨hby, hpre⟩ := custodyOutline_node (hk.node node)
    obtain ⟨hf, -, -⟩ := custodyOutline_op hk node exec False.elim
    have hobj : (h.after o a).obj j = h.obj j := by
      refine Custody.after_obj fun n v hstore => ?_
      obtain ⟨site, acc⟩ := o
      obtain rfl : acc = .store j n v := hstore
      obtain ⟨-, -, hfree⟩ | ⟨rfl, -, hsending⟩ := hpre.store hby
      · -- the resolver stores into an object without a request
        have howner := ht.owner hk up
        rw [hfree] at howner
        cases howner
      · unfold Transfers at ht
        rw [node] at ht
        obtain hs' | hs' := (hk.node node).transfer j ht
        · exact hsending hs'
        · cases hs'
    show (w.board r).obj j = _
    rw [hf.obj, Custody.passed_obj, hobj]
    exact congrFun hk.1.obj.symm j

/-- **A send is a snapshot.** From the acknowledge to the last byte, no step of either
thread changes the object, and what has been fetched in the end is its content at any
time in between. -/
theorem snapshot_integrity (hD : D.Triples) (obj : Role → ℕ → ℕ → Byte)
    {σ σ' : (process D r).State} {j : ℕ}
    (hσ : (process D r).Reaches Undisturbed (fun _ _ => True) (process.start D r obj) σ)
    (hσ' : (process D r).Reaches Undisturbed (fun σ σ' => Transfers σ j ∧ Transfers σ' j) σ σ') :
    (σ'.world.board r).obj j = (σ.world.board r).obj j
    ∧ ∀ s k, σ'.thread .communication = .op s ⟨.emitSent, .clear (.writeAck j)⟩ k →
      s.history.fetched = (List.range (D.objSize j)).map ((σ.world.board r).obj j) := by
  have hrun : (process D r).Reaches Undisturbed (fun _ _ => True) (process.start D r obj) σ'
      ∧ (σ'.world.board r).obj j = (σ.world.board r).obj j := by
    induction hσ' with
    | refl => exact ⟨hσ, rfl⟩
    | tail _ hs ih =>
      obtain ⟨hreach, hsame⟩ := ih
      obtain ⟨h, hk⟩ := custodyOutline_keeps False hD (fun hf => hf.elim) hreach
      exact ⟨hreach.tail ⟨hs.1, trivial⟩, (hs.2.1.step hk hs.1).trans hsame⟩
  obtain ⟨hreach, hsame⟩ := hrun
  refine ⟨hsame, fun s k hnode => ?_⟩
  obtain ⟨h, hk⟩ := custodyOutline_keeps False hD (fun hf => hf.elim) hreach
  rw [← hsame, ((hk.node hnode).sent j rfl).2, hk.1.obj]

/-- What an end hears leaves the objects and the requests alone. -/
theorem Command.undisturbed {σ : (process D r).State} (c : Command) :
    Undisturbed σ (c.act r σ.world) := by
  cases c with
  | byte b => exact ⟨rfl, fun _ _ => rfl⟩
  | writeStart j b =>
    refine ⟨by simp [Command.act, Board.setFlag], fun f hf => ?_⟩
    have hne : f ≠ .writeStartUpdated := by
      rintro rfl
      cases hf
    simp [Command.act, Board.setFlag, Function.update_of_ne hne]

/-- What an end does after it has accepted a write request, and its peer has switched
on and answered: it has asked for the transfer. -/
def requesting (j : ℕ) : List (Pool.Entry Worker Command) :=
  [.act (.writeStart j 7), .go .resolver 30, .act (.byte 0), .go .communication 60,
    .act (.byte 0xBB), .go .communication 60]

/-- The symbols of an object of three bytes have been emitted, up to the last one. -/
def sending : List (Pool.Entry Worker Command) :=
  [.go .communication 60, .act (.byte 0xBB), .go .communication 60, .act (.byte 0xBB),
    .go .communication 60, .act (.byte 0xBB), .go .communication 1]

/-- From the acknowledge to the last byte, with a write start of the other object in
between. -/
theorem snapshot_integrity_other : ∃ (σ σ' : (process twoObjects .mcu).State)
    (s : Endpoint) (k : Unit → Prog Endpoint ErrorCode Op.Answer Unit),
    (σ.thread .communication).performs ⟨.emitTransfer, .testAndSet (.syncMe 0)⟩ = true
    ∧ σ'.thread .communication = .op s ⟨.emitSent, .clear (.writeAck 0)⟩ k
    ∧ (σ'.world.board .mcu).obj 1 0 = 9
    ∧ s.history.fetched = (List.range 3).map ((σ.world.board .mcu).obj 0) := by
  obtain ⟨σ, σ', hσ, hσ', hp⟩ := Pool.Script.exists_of_replays Undisturbed
    (fun σ σ' => Transfers σ 0 ∧ Transfers σ' 0)
    (process.script twoObjects .mcu fun _ => true)
    (process.script twoObjects .mcu fun σ => (σ.thread .communication).state.transfer 0)
    (requesting 0 ++ [.act (.byte 0xFB), .go .communication 1])
    ([.act (.writeStart 1 9), .go .resolver 30, .go .communication 60, .act (.byte 0xFB)]
      ++ sending) (twoObjects.process .mcu)
    (fun σ σ' => (σ.thread .communication).performs ⟨.emitTransfer, .testAndSet (.syncMe 0)⟩
      && (σ'.thread .communication).performs ⟨.emitSent, .clear (.writeAck 0)⟩
      && (σ'.world.board .mcu).obj 1 0 = (9 : Byte))
    (fun c _ _ => c.undisturbed) (fun c _ _ => c.undisturbed) (fun _ _ h h' => ⟨h, h'⟩)
    (by decide +kernel)
  simp only [Bool.and_eq_true, decide_eq_true_eq] at hp
  obtain ⟨⟨hstart, hend⟩, hother⟩ := hp
  obtain ⟨k, hs⟩ := Prog.performs_spec hend
  obtain ⟨-, hfetched⟩ := snapshot_integrity twoObjects_triples (fun _ _ _ => 0) hσ hσ'
  exact ⟨σ, σ', _, k, hstart, hs, hother, hfetched _ k hs⟩

/-! ## A request -/

/-- A write request of an object has been accepted, and not been released. -/
def Pending (σ : (process D r).State) (j : ℕ) : Prop :=
  (σ.thread .resolver).state.pendingWriteRequest j = true

/-- **A thread is in the middle of passing on a request**: of `check_sync`,
`emit_readlocked`, `resolve`, or the accepting branch of the write start. -/
inductive PassingOn (σ : (process D r).State) (j : ℕ) : Prop
  | checkSync {s : Endpoint} {site : Site} {k : Unit → Prog Endpoint ErrorCode Op.Answer Unit}
      (h : σ.thread .communication = .op s ⟨site, .clear (.syncMe j)⟩ k)
  | emitReadlocked {s : Endpoint} {f : Flag} {k : Unit → Prog Endpoint ErrorCode Op.Answer Unit}
      (hf : f = .writeFault j ∨ f = .writeAck j)
      (h : σ.thread .communication = .op s ⟨.emitReadlocked, .clear f⟩ k)
  | resolve {s : Resolver} {a : Access} {k : a.Answer → Prog Resolver ErrorCode Op.Answer Unit}
      (ha : a = .testAndSet (.writeFault j) ∨ a = .storeWriteEndId j)
      (h : σ.thread .resolver = .op s ⟨.resolve, a⟩ k)
  | accept {s : Resolver} {k : Unit → Prog Resolver ErrorCode Op.Answer Unit}
      (h : σ.thread .resolver = .op s ⟨.writeStart, .clear (.syncMe j)⟩ k)

/-- What the communication thread has is peeked at, being canceled, or in transfer. -/
theorem PassingOn.communication {σ : (process D r).State} {h : Custody} {j : ℕ}
    (hk : (custodyOutline D r apart).Keeps σ h) (hup : σ.Up) (hn : ¬ PassingOn σ j) :
    h.peek ≠ some j ∧ (h.token j = .sending → Transfers σ j)
      ∧ h.token j ≠ .canceling ∧ h.token j ≠ .faulted := by
  unfold Transfers
  cases hp : σ.thread .communication with
  | ret s a =>
    obtain ⟨-, -, hm⟩ : AtRest D s ∧ s.progress.Grouped ∧ h.Mid apart s.progress.emitted s :=
      hk.rest hp
    exact ⟨by rw [hm.peek]; simp, (hm.sending j).mp, hm.steady j⟩
  | fail s e => exact absurd hp (hup .communication s e)
  | op s o k =>
    have hnode : h.CommNode D apart s o := hk.node hp
    have hsteady : ¬ (h.token j = .canceling ∨ h.token j = .faulted) := by
      intro hc
      obtain ⟨hsite, ha⟩ := hnode.canceling j hc
      obtain ⟨site, a⟩ := o
      obtain rfl : site = .emitReadlocked := hsite
      obtain rfl | rfl := (ha : a = _ ∨ a = _)
      · exact hn (.emitReadlocked (.inl rfl) hp)
      · exact hn (.emitReadlocked (.inr rfl) hp)
    refine ⟨fun hpeek => ?_, hnode.sending j, not_or.mp hsteady⟩
    obtain ⟨site, a⟩ := o
    obtain rfl : a = .clear (.syncMe j) := hnode.peek j hpeek
    exact hn (.checkSync hp)

/-- What the resolver has is pending, and its outcome not known yet. -/
theorem PassingOn.resolver {σ : (process D r).State} {h : Custody} {j : ℕ}
    (hk : (custodyOutline D r apart).Keeps σ h) (hup : σ.Up) (hn : ¬ PassingOn σ j) :
    (Pending σ j ↔ h.token j ≠ .free)
      ∧ h.token j ≠ .settling ∧ h.token j ≠ .dropping ∧ h.token j ≠ .dropped := by
  unfold Pending
  cases hp : σ.thread .resolver with
  | ret s a =>
    have hs : h.Held s := hk.rest hp
    exact ⟨hs.pending j, hs.settled j⟩
  | fail s e => exact absurd hp (hup .resolver s e)
  | op s o k =>
    have hnode : h.ResolverNode D s o := hk.node hp
    have hsettled : ¬ (h.token j = .settling ∨ h.token j = .dropping) := by
      intro hs
      obtain rfl | rfl := (hnode.settled j).2 hs
      · exact hn (.resolve (.inl rfl) hp)
      · exact hn (.resolve (.inr rfl) hp)
    refine ⟨?_, (not_or.mp hsettled).1, (not_or.mp hsettled).2, (hnode.settled j).1⟩
    refine (hnode.pending j).trans ⟨fun hs => hs.resolve_right ?_, .inl⟩
    rintro rfl
    exact hn (.accept hp)

/-- **A request that is pending is somewhere.** -/
theorem Pending.held {σ : (process D r).State} {h : Custody} {j : ℕ}
    (hk : (custodyOutline D r apart).Keeps σ h) (hup : σ.Up) (hn : ¬ PassingOn σ j)
    (hp : Pending σ j) : (σ.world.board r).flag (.syncMe j) = false ∨ Transfers σ j
      ∨ (σ.world.board r).flag (.writeAck j) = false := by
  obtain ⟨hpeek, hsending, hcanceling, hfaulted⟩ := PassingOn.communication hk hup hn
  obtain ⟨hpending, hsettling, hdropping, hdropped⟩ := PassingOn.resolver hk hup hn
  have hfree := hpending.mp hp
  have hack := hk.1.writeAck j
  cases ht : h.token j with
  | free => exact absurd ht hfree
  | queued => exact .inl ((hk.1.syncMe j).mpr ⟨ht, hpeek⟩)
  | canceling => exact absurd ht hcanceling
  | faulted => exact absurd ht hfaulted
  | cancelled => exact .inr (.inr (by rw [hack, ht]; rfl))
  | dropping => exact absurd ht hdropping
  | dropped => exact absurd ht hdropped
  | sending => exact .inr (.inl (hsending ht))
  | sent => exact .inr (.inr (by rw [hack, ht]; rfl))
  | settling => exact absurd ht hsettling

/-- A request that is not pending is not there. -/
theorem Pending.free {σ : (process D r).State} {h : Custody} {j : ℕ}
    (hk : (custodyOutline D r apart).Keeps σ h) (hup : σ.Up) (hp : ¬ Pending σ j) :
    h.token j = .free := by
  unfold Pending at hp
  revert hp
  cases hi : σ.thread .resolver with
  | ret s a =>
    intro hp
    have hs : h.Held s := hk.rest hi
    by_contra hf
    exact hp ((hs.pending j).mpr hf)
  | fail s e => exact absurd hi (hup .resolver s e)
  | op s o k =>
    intro hp
    have hnode : h.ResolverNode D s o := hk.node hi
    by_contra hf
    exact hp ((hnode.pending j).mpr (.inl hf))

/-- **A request is released only where its outcome has been resolved.** -/
theorem Pending.released {σ σ' : (process D r).State} {h : Custody} {j : ℕ}
    (hk : (custodyOutline D r False).Keeps σ h) (hp : Pending σ j)
    (hs : (process D r).Step Undisturbed σ σ') (hup : σ'.Up) (hp' : ¬ Pending σ' j) :
    ∃ s k, σ.thread .resolver = .op s ⟨.resolve, .storeWriteEndId j⟩ k := by
  have hother : σ'.thread .resolver ≠ σ.thread .resolver := fun he => by
    unfold Pending at hp hp'
    rw [he] at hp'
    exact hp' hp
  cases hs with
  | env up change => exact absurd rfl hother
  | @loop i s up node =>
    cases i with
    | communication => exact absurd (Pool.State.setThread_of_ne _ (by simp) _) hother
    | resolver =>
      -- the loop starts in the state in which it has ended
      unfold Pending at hp hp'
      rw [Pool.State.setThread_self] at hp'
      rw [node] at hp
      exact absurd hp hp'
  | @op i s o k a w up node exec =>
    cases i with
    | communication => exact absurd (Pool.State.setThread_of_ne _ (by simp) _) hother
    | resolver =>
      obtain ⟨hf, htold, hrely⟩ := custodyOutline_op hk node exec False.elim
      have hk' := hk.op up node hf ⟨rfl, htold⟩ hrely
      have hnode : h.ResolverNode D s o := hk.node node
      have hfree : (h.after o a).token j = .free := Pending.free hk' hup hp'
      unfold Pending at hp
      rw [node] at hp
      obtain ⟨site, acc⟩ := o
      obtain hj | rfl := Custody.after_free hfree
      · -- a request that has just been made is not released
        obtain hn | ho := (hnode.pending j).mp hp
        · exact absurd hj hn
        · cases ho
          have hq : (h.set j .queued).token j = .free := hfree
          rw [Custody.set_self] at hq
          cases hq
      · obtain ⟨-, hsettling⟩ : _ ∧ h.token j = .settling := hnode.pre
        obtain ho | ho := (hnode.settled j).2 (.inl hsettling)
        · cases ho
        · cases ho
          exact ⟨s, k, node⟩

/-- What has been fetched and emitted of an object whose outcome is being resolved. -/
theorem Pending.served {σ : (process D r).State} {h : Custody} {l : List RequestEvent} {j : ℕ}
    {s : Resolver} {k : Unit → Prog Resolver ErrorCode Op.Answer Unit}
    (hk : (custodyOutline D r apart).Keeps σ h)
    (hl : ∀ j, h.fetches j = fetchedSince j l ∧ h.emits j = emittedSince j l)
    (hs : σ.thread .resolver = .op s ⟨.resolve, .storeWriteEndId j⟩ k) :
    ∃ f : ℕ → Byte, fetchedSince j l = (List.range (D.objSize j)).map (fun i => (i, f i))
      ∧ emittedSince j l = symbolsOf f (4 * (D.objSize j / 3) - 1) := by
  have hnode : h.ResolverNode D s ⟨.resolve, .storeWriteEndId j⟩ := hk.node hs
  have hsettling : h.token j = .settling := hnode.pre.2
  rw [← (hl j).1, ← (hl j).2]
  exact hk.1.sent j (.inr hsettling)

/-- **A write request is not forgotten.** Between the operations that pass it on, it
waits to be acknowledged, its object is in transfer, or its outcome waits to be
resolved. It is released only by `resolve`. Since it was accepted, every byte of the
object has then been fetched once and in order, and all of its symbols but the last have
been handed over once and in order. -/
theorem request_kept (hD : D.Triples) (obj : Role → ℕ → ℕ → Byte) {σ : (process D r).State}
    {l : List RequestEvent} (j : ℕ)
    (hσ : (process D r).Traces Undisturbed (fun _ _ => True) requests
      (process.start D r obj) l σ) :
    (σ.Up → ¬ PassingOn σ j → Pending σ j → (σ.world.board r).flag (.syncMe j) = false
      ∨ Transfers σ j ∨ (σ.world.board r).flag (.writeAck j) = false)
    ∧ ∀ σ', (process D r).Step Undisturbed σ σ' → σ'.Up → Pending σ j → ¬ Pending σ' j →
      (∃ s k, σ.thread .resolver = .op s ⟨.resolve, .storeWriteEndId j⟩ k)
      ∧ ∃ f : ℕ → Byte, fetchedSince j l = (List.range (D.objSize j)).map (fun i => (i, f i))
        ∧ emittedSince j l = symbolsOf f (4 * (D.objSize j / 3) - 1) := by
  obtain ⟨h, hl, hk⟩ := custodyOutline_traces False hD (fun hf => hf.elim) hσ
  refine ⟨fun hup hn hp => hp.held hk hup hn, fun σ' hstep hup hp hp' => ?_⟩
  obtain ⟨s, k, hs⟩ := hp.released hk hstep hup hp'
  exact ⟨⟨s, k, hs⟩, Pending.served hk hl hs⟩

/-- The thread that runs on releases the request of an object. -/
def releases (j : ℕ) (σ : (process D r).State) : Bool :=
  (σ.thread .resolver).state.pendingWriteRequest j && σ.up &&
    (σ.next .resolver).any fun σ' => σ'.up && !(σ'.thread .resolver).state.pendingWriteRequest j

/-- The request of object 0 while it is about to be sent, and where it is released. -/
theorem request_kept_sending :
    (∃ σ : (process twoObjects .mcu).State, σ.Up ∧ Pending σ 0
      ∧ ((σ.world.board .mcu).flag (.syncMe 0) = false ∨ Transfers σ 0
        ∨ (σ.world.board .mcu).flag (.writeAck 0) = false))
    ∧ ∃ (σ σ' : (process twoObjects .mcu).State) (l : List RequestEvent),
      (process twoObjects .mcu).Step Undisturbed σ σ' ∧ Pending σ 0 ∧ ¬ Pending σ' 0
      ∧ emittedSince 0 l = [0x01, 0x30, 0x00]
      ∧ ∃ f, fetchedSince 0 l = (List.range 3).map (fun i => (i, f i))
        ∧ emittedSince 0 l = symbolsOf f 3 := by
  constructor
  · obtain ⟨σ, hσ, hp⟩ := Pool.Script.exists_of_replay Undisturbed (fun _ _ => True)
      (process.script twoObjects .mcu fun _ => true) (requesting 0) (twoObjects.process .mcu)
      (fun σ => σ.up && (σ.thread .resolver).state.pendingWriteRequest 0
        && (σ.thread .communication).performs ⟨.handshake, .handshake⟩
        && (σ.thread .resolver).performs ⟨.resolverEventLoop, .testAndSet .triggerResolve⟩)
      (fun c _ _ => c.undisturbed) (fun _ _ _ => trivial) (by decide +kernel)
    simp only [Bool.and_eq_true] at hp
    obtain ⟨⟨⟨hup, hpending⟩, hcomm⟩, hresolver⟩ := hp
    obtain ⟨k, hk⟩ := Prog.performs_spec hcomm
    obtain ⟨k', hk'⟩ := Prog.performs_spec hresolver
    obtain ⟨l, hl⟩ := Pool.Traces.of_reaches requests hσ
    have hn : ¬ PassingOn σ 0 := by
      intro hf
      cases hf with
      | checkSync h => rw [hk] at h; cases h
      | emitReadlocked _ h => rw [hk] at h; cases h
      | resolve _ h => rw [hk'] at h; cases h
      | accept h => rw [hk'] at h; cases h
    exact ⟨σ, Pool.State.up_spec hup, hpending,
      (request_kept twoObjects_triples _ 0 hl).1 (Pool.State.up_spec hup) hn hpending⟩
  · obtain ⟨σ, l, hl, hp⟩ := Pool.Script.exists_of_record Undisturbed (fun _ _ => True)
      (process.script twoObjects .mcu fun _ => true) requests
      (requesting 0 ++ .act (.byte 0xFB) :: sending ++ [.go .communication 1, .go .resolver 4])
      (twoObjects.process .mcu)
      (fun x => releases 0 x.1 && decide (emittedSince 0 x.2 = [0x01, 0x30, 0x00]))
      (fun c _ _ => c.undisturbed) (fun _ _ _ => trivial) (by decide +kernel)
    simp only [releases, Bool.and_eq_true, decide_eq_true_eq] at hp
    obtain ⟨⟨⟨hpending, hup⟩, hnext⟩, hemitted⟩ := hp
    obtain ⟨σ', hσ', hrel⟩ := (Option.any_eq_true _ _).mp hnext
    rw [Bool.and_eq_true, Bool.not_eq_true'] at hrel
    have hreleased : ¬ Pending σ' 0 := by
      unfold Pending
      rw [hrel.2]
      decide
    have hstep : (process twoObjects .mcu).Step Undisturbed σ σ' :=
      Pool.State.next_step (Pool.State.up_spec hup) hσ'
    obtain ⟨-, hserved⟩ := (request_kept twoObjects_triples _ 0 hl).2 σ' hstep
      (Pool.State.up_spec hrel.1) hpending hreleased
    exact ⟨σ, σ', l, hstep, hpending, hreleased, hemitted, hserved⟩

/-- **A request is released before its last symbol is out**: `emit_sent` comes first.
The request of object 0 is no longer pending, its end has been queued for the REST
layer, and the communication thread has not yet handed over the symbol. -/
theorem request_released_early : ∃ σ : (process twoObjects .mcu).State,
    (process twoObjects .mcu).Reaches Undisturbed (fun _ _ => True) (twoObjects.process .mcu) σ
    ∧ σ.Up ∧ ¬ Pending σ 0 ∧ (σ.thread .resolver).state.writendCommandQueued = true
    ∧ (σ.world.board .mcu).writeEndId = 0
    ∧ ∃ s k, σ.thread .communication = .op s ⟨.triggerResolve, .clear .triggerResolve⟩ k
      ∧ s.history.payload = true ∧ s.writeOrigin = 0 := by
  obtain ⟨σ, hσ, hp⟩ := Pool.Script.exists_of_replay Undisturbed (fun _ _ => True)
    (process.script twoObjects .mcu fun _ => true)
    (requesting 0 ++ .act (.byte 0xFB) :: sending ++ [.go .communication 1, .go .resolver 5])
    (twoObjects.process .mcu)
    (fun σ => σ.up && !(σ.thread .resolver).state.pendingWriteRequest 0
      && (σ.thread .resolver).state.writendCommandQueued
      && decide ((σ.world.board .mcu).writeEndId = 0)
      && (σ.thread .communication).performs ⟨.triggerResolve, .clear .triggerResolve⟩
      && (σ.thread .communication).state.history.payload
      && decide ((σ.thread .communication).state.writeOrigin = 0))
    (fun c _ _ => c.undisturbed) (fun _ _ _ => trivial) (by decide +kernel)
  simp only [Bool.and_eq_true, Bool.not_eq_true', decide_eq_true_eq] at hp
  obtain ⟨⟨⟨⟨⟨⟨hup, hreleased⟩, hqueued⟩, hid⟩, hcomm⟩, hpayload⟩, horigin⟩ := hp
  obtain ⟨k, hk⟩ := Prog.performs_spec hcomm
  refine ⟨σ, hσ, Pool.State.up_spec hup, ?_, hqueued, hid, _, k, hk, hpayload, horigin⟩
  unfold Pending
  rw [hreleased]
  decide

/-! ## A receive -/

/-- **A receive is isolated** where no write start stores into its object. While
the object is readlocked only `read_object` changes it, and when `emit_received` is
called it is what the symbols of the peer decode to. -/
theorem receive_isolated (hD : D.Triples) (obj : Role → ℕ → ℕ → Byte) {σ : (process D r).State}
    (j : ℕ)
    (hσ : (process D r).Reaches Undisturbed Isolated (process.start D r obj) σ) :
    (∀ σ', (process D r).Step Undisturbed σ σ' → Isolated σ σ' →
      (σ.thread .communication).state.readLock j = true →
      (σ'.world.board r).obj j = (σ.world.board r).obj j
      ∨ ∃ s i b k, σ.thread .communication = .op s ⟨.readObject, .store j i b⟩ k)
    ∧ ∀ s o k, σ.thread .communication = .op s o k → o.ReportsRead j →
      (List.range (D.objSize j)).map ((σ.world.board r).obj j)
        = decodeSymbols s.history.symbols := by
  obtain ⟨h, hk⟩ := custodyOutline_keeps True hD (fun _ _ _ hi => hi) hσ
  refine ⟨fun σ' hstep hisolated hlock => ?_, fun s o k hs hreports => ?_⟩
  · cases hstep with
    | loop up node => exact .inl rfl
    | env up change => exact .inl (congrFun change.obj j)
    | @op i s o k a w up node exec =>
      obtain ⟨hby, hpre⟩ := custodyOutline_node (hk.node node)
      obtain ⟨hf, -, -⟩ := custodyOutline_op hk node exec fun _ => hisolated
      by_cases hstore : ∃ n v, o.access = .store j n v
      · obtain ⟨n, v, hstore⟩ := hstore
        obtain ⟨site, acc⟩ := o
        obtain rfl : acc = .store j n v := hstore
        obtain ⟨rfl, rfl, -⟩ | ⟨rfl, rfl, -⟩ := hpre.store hby
        · -- the store of a write start
          exact absurd (.inl hlock) (hisolated s j n v k _ node (Pool.State.setThread_self ..))
        · exact .inr ⟨s, n, v, k, node⟩
      · left
        have hobj : (h.after o a).obj j = h.obj j :=
          Custody.after_obj fun n v hf => hstore ⟨n, v, hf⟩
        show (w.board r).obj j = _
        rw [hf.obj, Custody.passed_obj, hobj]
        exact congrFun hk.1.obj.symm j
  · have hnode : h.CommNode D True s o := hk.node hs
    rw [hk.1.obj]
    exact (hnode.received trivial j hreports).2

/-- The resolver is not about to write an object that is being received. -/
def separate (σ : (process D r).State) : Bool :=
  match σ.thread .resolver with
  | .op _ ⟨.writeStart, .store j _ _⟩ _ => !(σ.thread .communication).state.readLock j
    && (σ.thread .communication).state.readDestination ≠ j
  | _ => true

theorem separate_spec {σ σ' : (process D r).State} (h : separate σ = true) : Isolated σ σ' := by
  rintro s j i b k u hs - hreceives
  rw [separate, hs] at h
  simp only [Bool.and_eq_true, Bool.not_eq_true', decide_eq_true_eq] at h
  obtain hlock | ⟨hdestination, -⟩ := hreceives
  · exact absurd (h.1.symm.trans hlock) (by decide)
  · exact h.2 hdestination

/-- Object 0 is received while a write start of object 1 is accepted. -/
theorem receive_isolated_other : ∃ (σ : (process twoObjects .mcu).State) (s : Endpoint)
    (k : Unit → Prog Endpoint ErrorCode Op.Answer Unit),
    (σ.world.board .mcu).obj 1 0 = 9
    ∧ σ.thread .communication = .op s ⟨.emitReceived, .clear (.readAck 0)⟩ k
    ∧ (List.range 3).map ((σ.world.board .mcu).obj 0) = decodeSymbols s.history.symbols := by
  obtain ⟨σ, hσ, hp⟩ := Pool.Script.exists_of_replay Undisturbed Isolated
    (process.script twoObjects .mcu separate)
    (hear [0, 0x81, 0, 0, 0] ++ [.act (.writeStart 1 9), .go .resolver 30, .act (.byte 0),
      .go .communication 8]) (twoObjects.process .mcu)
    (fun σ => (σ.thread .communication).performs ⟨.emitReceived, .clear (.readAck 0)⟩
      && decide ((σ.world.board .mcu).obj 1 0 = 9))
    (fun c _ _ => c.undisturbed) (fun _ _ h => separate_spec h) (by decide +kernel)
  rw [Bool.and_eq_true, decide_eq_true_eq] at hp
  obtain ⟨k, hk⟩ := Prog.performs_spec hp.1
  obtain ⟨-, hreported⟩ := receive_isolated twoObjects_triples (fun _ _ _ => 0) 0 hσ
  exact ⟨σ, _, k, hp.2, hk, hreported _ _ k hk (.inr (.inr rfl))⟩

/-- The request of object 0 is heard, and all of its symbols but the last. -/
def receiving : List (Pool.Entry Worker Command) := hear [0, 0x81, 0, 0, 0, 0, 0, 0, 0]

/-- **A receive is mixed with a write start.** A write start of the object that is being
received is accepted before its last symbol; when `emit_received` is called, the first
byte is not the one that has been sent. -/
theorem receive_mixed : ∃ (σ : (process oneObject .mcu).State) (s : Endpoint)
    (k : BitVec numIds → Prog Endpoint ErrorCode Op.Answer Unit),
    (process oneObject .mcu).Reaches Undisturbed (fun _ _ => True) (oneObject.process .mcu) σ
    ∧ σ.thread .communication = .op s ⟨.emitReceived, .loadStartedWord 0⟩ k
    ∧ decodeSymbols s.history.symbols = List.replicate 6 0
    ∧ (σ.world.board .mcu).obj 0 0 = 9 := by
  obtain ⟨σ, hσ, hp⟩ := Pool.Script.exists_of_replay Undisturbed (fun _ _ => True)
    (process.script oneObject .mcu fun _ => true)
    (receiving ++ [.act (.writeStart 0 9), .go .resolver 30, .act (.byte 0),
      .go .communication 6]) (oneObject.process .mcu)
    (fun σ => (σ.thread .communication).performs ⟨.emitReceived, .loadStartedWord 0⟩
      && decide (decodeSymbols (σ.thread .communication).state.history.symbols
        = List.replicate 6 0)
      && decide ((σ.world.board .mcu).obj 0 0 = 9))
    (fun c _ _ => c.undisturbed) (fun _ _ _ => trivial) (by decide +kernel)
  simp only [Bool.and_eq_true, decide_eq_true_eq] at hp
  obtain ⟨⟨hcomm, hsymbols⟩, hbyte⟩ := hp
  obtain ⟨k, hk⟩ := Prog.performs_spec hcomm
  exact ⟨σ, _, k, hσ, hk, hsymbols, hbyte⟩

end SOS
