import SoftwareOnSilicon.StopRequest
import SoftwareOnSilicon.Trace

/-!
# The outcome of a read

`emit_readlocked` marks a read as started, and what becomes of it is signalled to the
resolver: by `emit_received`, when all its bytes are there, or by `emit_interrupted`,
which a stop request calls at any moment and which reports every read that is marked.

`ReadStage` is how far the read of an object has come, over both threads of an end.
As long as no read is completed that has been reported, each read has one outcome
(`one_outcome`). Nothing keeps such a read from being completed, and then it has two
(`two_outcomes`). The marks are one word, which both threads load, change and store: a
mark that has been taken away may come back that way (`mark_revived`).
-/

namespace SOS

open Interleaving Code

variable {D : DescriptorHelper} {r : Role}

/-! ## The read of an object -/

/-- What is signalled of the reads. -/
inductive ReadEvent where
  | started (j : ℕ)
  /-- `emit_received` clears `read_ack`; these are the bytes that have been stored. -/
  | received (j : ℕ) (bytes : List Byte)
  /-- `read_fault` is cleared. -/
  | fault (j : ℕ)
  /-- `emit_interrupted` clears `read_ack`. -/
  | interrupted (j : ℕ)
  deriving DecidableEq

/-- The object it is about. -/
def ReadEvent.object : ReadEvent → ℕ
  | started j => j
  | received j _ => j
  | fault j => j
  | interrupted j => j

/-- **How far the read of an object has come.** -/
inductive ReadStage where
  | idle
  | started
  /-- `emit_interrupted` has found it. -/
  | found
  /-- `emit_interrupted` has cleared `read_fault`. -/
  | faulting
  /-- `emit_interrupted` has cleared `read_ack`. -/
  | interrupted
  /-- Its mark is taken away, and it is never completed. -/
  | lost
  /-- `emit_received` has taken its mark away. -/
  | ended
  deriving DecidableEq

namespace ReadStage

/-- `read_started_id` is set. -/
def mark : ReadStage → Bool
  | started => true
  | found => true
  | faulting => true
  | interrupted => true
  | _ => false

/-- `read_fault` has been cleared. -/
def faulted : ReadStage → Bool
  | faulting => true
  | interrupted => true
  | lost => true
  | _ => false

/-- `emit_interrupted` is between finding it and taking its mark away. -/
def reporting : ReadStage → Bool
  | found => true
  | faulting => true
  | interrupted => true
  | _ => false

/-- What has been signalled of the read in progress. -/
def events (j : ℕ) : ReadStage → List ReadEvent
  | idle => []
  | faulting => [.started j, .fault j]
  | interrupted => [.started j, .fault j, .interrupted j]
  | lost => [.started j, .fault j, .interrupted j]
  | _ => [.started j]

/-- A read that is marked, and not being reported, is in progress. -/
theorem of_mark {st : ReadStage} (hm : st.mark = true) (hn : st.reporting = false) :
    st = started := by
  cases st with
  | started => rfl
  | found => cases hn
  | faulting => cases hn
  | interrupted => cases hn
  | _ => cases hm

theorem events_prefix (j : ℕ) (st : ReadStage) :
    st.events j <+: [.started j, .fault j, .interrupted j] := by
  cases st with
  | idle => exact ⟨_, rfl⟩
  | faulting => exact ⟨[.interrupted j], rfl⟩
  | interrupted => exact ⟨[], rfl⟩
  | lost => exact ⟨[], rfl⟩
  | _ => exact ⟨[.fault j, .interrupted j], rfl⟩

end ReadStage

/-- **What has been signalled of an object**: reads that have been completed, with all
their bytes, and the one in progress. -/
def Recounts (n j : ℕ) (l : List ReadEvent) (st : ReadStage) : Prop :=
  ∃ reads : List (List Byte), (∀ bs ∈ reads, bs.length = n)
    ∧ l.filter (fun e => e.object = j)
      = reads.flatMap (fun bs => [.started j, .received j bs]) ++ st.events j

namespace Recounts

variable {n j : ℕ} {l : List ReadEvent} {st st' : ReadStage}

/-- Something is signalled of the read in progress. -/
theorem signal {e : ReadEvent} (h : Recounts n j l st) (he : e.object = j)
    (hst : st'.events j = st.events j ++ [e]) : Recounts n j (l ++ [e]) st' := by
  obtain ⟨reads, hlength, hfilter⟩ := h
  refine ⟨reads, hlength, ?_⟩
  rw [List.filter_append, hfilter, hst, List.append_assoc]
  simp [he]

/-- The read goes on, and nothing is signalled. -/
theorem goOn (h : Recounts n j l st) (hst : st'.events j = st.events j) : Recounts n j l st' := by
  unfold Recounts at h ⊢
  rwa [hst]

/-- The read is completed. -/
theorem finish {bytes : List Byte} (h : Recounts n j l .ended) (hb : bytes.length = n) :
    Recounts n j (l ++ [.received j bytes]) .idle := by
  obtain ⟨reads, hlength, hfilter⟩ := h
  refine ⟨reads ++ [bytes], fun bs hbs => ?_, ?_⟩
  · obtain hbs | hbs := List.mem_append.mp hbs
    · exact hlength bs hbs
    · rw [List.mem_singleton.mp hbs, hb]
  · rw [List.filter_append, hfilter, List.flatMap_append, List.append_assoc]
    simp [ReadStage.events, ReadEvent.object]

/-- Something is signalled of another object. -/
theorem other {e : ReadEvent} (h : Recounts n j l st) (he : e.object ≠ j) :
    Recounts n j (l ++ [e]) st := by
  obtain ⟨reads, hlength, hfilter⟩ := h
  refine ⟨reads, hlength, ?_⟩
  rw [List.filter_append, hfilter]
  simp [he]

end Recounts

/-! ## The operations -/

/-- The thread that calls `stop_notifier`. -/
def interrupter : Role → Thread
  | .fpga => .destructor
  | .mcu => .communication

/-- `emit_interrupted` is about to report the read of an object, or to take its mark
away. -/
def Op.ReportsFault (j : ℕ) (o : Op) : Prop :=
  o = ⟨.emitInterrupted, .clear (.readFault j)⟩ ∨ o = ⟨.emitInterrupted, .clear (.readAck j)⟩
    ∨ o = ⟨.emitInterrupted, .loadStartedWord j⟩
    ∨ ∃ m, o = ⟨.emitInterrupted, .storeStarted j false m⟩

/-- The bytes a thread has stored for the receive in progress. -/
def Thread.stored : (i : Thread) → i.Private → List Byte
  | .communication, s => s.history.stored
  | .destructor, _ => []

/-- What an operation shows. -/
def readEvents : Pool.Observer Thread.Private Op.Answer ReadEvent
  | _, _, ⟨_, .storeStarted j true _⟩, _ => [.started j]
  | i, s, ⟨.emitReceived, .clear (.readAck j)⟩, _ => [.received j (i.stored s)]
  | _, _, ⟨_, .clear (.readAck j)⟩, _ => [.interrupted j]
  | _, _, ⟨_, .clear (.readFault j)⟩, _ => [.fault j]
  | _, _, _, _ => []

/-- Where the reads of all objects are. -/
abbrev Reads : Type := ℕ → ReadStage

/-- It neither tests or changes a mark, nor signals an outcome. -/
def Access.Unread : Access → Prop
  | loadStarted _ => False
  | storeStarted _ _ _ => False
  | clear (.readAck _) => False
  | clear (.readFault _) => False
  | _ => True

namespace Reads

/-- What an operation does to a read. -/
def after (h : Reads) : (o : Op) → o.Answer → Reads
  | ⟨.emitReadlocked, .storeStarted j _ _⟩, _ => Function.update h j .started
  | ⟨.emitReceived, .storeStarted j _ _⟩, _ => Function.update h j .ended
  | ⟨_, .storeStarted j _ _⟩, _ => Function.update h j .lost
  | ⟨_, .loadStarted j⟩, true => Function.update h j .found
  | ⟨_, .clear (.readFault j)⟩, _ => Function.update h j .faulting
  | ⟨.emitReceived, .clear (.readAck j)⟩, _ => Function.update h j .idle
  | ⟨_, .clear (.readAck j)⟩, _ => Function.update h j .interrupted
  | _, _ => h

/-- **What has to hold before an operation** of a thread. -/
inductive Pre (r : Role) : Thread → Reads → Op → Prop
  | start {h : Reads} {j : ℕ} {m : BitVec numIds} (hj : h j = .idle) :
    Pre r .communication h ⟨.emitReadlocked, .storeStarted j true m⟩
  | finish {h : Reads} {j : ℕ} {m : BitVec numIds} (locked : h j ≠ .idle)
    (open_ : h j ≠ .ended) : Pre r .communication h ⟨.emitReceived, .storeStarted j false m⟩
  | report {h : Reads} {j : ℕ} (hj : h j = .ended) :
    Pre r .communication h ⟨.emitReceived, .clear (.readAck j)⟩
  | look {i : Thread} {h : Reads} {j : ℕ} (hi : i = interrupter r) :
    Pre r i h ⟨.emitInterrupted, .loadStarted j⟩
  | fault {i : Thread} {h : Reads} {j : ℕ} (hi : i = interrupter r) (hj : h j = .found) :
    Pre r i h ⟨.emitInterrupted, .clear (.readFault j)⟩
  | ack {i : Thread} {h : Reads} {j : ℕ} (hi : i = interrupter r) (hj : h j = .faulting) :
    Pre r i h ⟨.emitInterrupted, .clear (.readAck j)⟩
  | reset {i : Thread} {h : Reads} {j : ℕ} {m : BitVec numIds} (hi : i = interrupter r)
    (hj : h j = .interrupted) : Pre r i h ⟨.emitInterrupted, .storeStarted j false m⟩
  | other {i : Thread} {h : Reads} {o : Op} (ho : o.access.Unread) : Pre r i h o

/-- **The board is as the reads say.** A mark may have been overwritten. -/
structure Follows (h : Reads) (b : Board) : Prop where
  started : ∀ j, b.started.getLsbD j = true → (h j).mark = true
  fault : ∀ j, b.flag (.readFault j) = false → (h j).faulted = true

/-- What an answer tells. -/
def Told (h : Reads) : (o : Op) → o.Answer → Prop
  | ⟨_, .loadStarted j⟩, a => @Eq Bool a true → (h j).mark = true
  | _, _ => True

/-- **What a thread relies on**: no other thread begins or completes a read of the
communication thread, and none reports one but the interrupter. -/
structure Rely (r : Role) (i : Thread) (h h' : Reads) : Prop where
  own : i = .communication → ∀ j, (h' j = .idle ↔ h j = .idle) ∧ (h' j = .ended ↔ h j = .ended)
  reporting : i = interrupter r → ∀ j, (h j).reporting = true ∨ (h' j).reporting = true →
    h' j = h j

variable {h h' h'' : Reads} {b b' : Board} {i : Thread} {o : Op} {j : ℕ} {st : ReadStage}

theorem after_other {a : o.Answer} (ho : o.access.Unread) : h.after o a = h := by
  obtain ⟨site, acc⟩ := o
  cases acc with
  | clear f => cases f <;> first | (cases site <;> rfl) | exact ho.elim
  | loadStarted => exact ho.elim
  | storeStarted => exact ho.elim
  | _ => cases site <;> rfl

theorem readEvents_other {s : i.Private} {a : o.Answer} (ho : o.access.Unread) :
    readEvents i s o a = [] := by
  obtain ⟨site, acc⟩ := o
  cases acc with
  | clear f => cases f <;> first | (cases site <;> rfl) | exact ho.elim
  | loadStarted => exact ho.elim
  | storeStarted => exact ho.elim
  | _ => cases site <;> rfl

namespace Rely

theorem refl (r : Role) (i : Thread) (h : Reads) : Rely r i h h where
  own _ _ := ⟨.rfl, .rfl⟩
  reporting _ _ _ := rfl

theorem trans (h₁ : Rely r i h h') (h₂ : Rely r i h' h'') : Rely r i h h'' where
  own hi j := ⟨(h₂.own hi j).1.trans (h₁.own hi j).1, (h₂.own hi j).2.trans (h₁.own hi j).2⟩
  reporting hi j hj := by
    have hn : (h' j).reporting = true := by
      obtain hj | hj := hj
      · rwa [h₁.reporting hi j (.inl hj)]
      · rwa [← h₂.reporting hi j (.inr hj)]
    rw [h₂.reporting hi j (.inl hn), h₁.reporting hi j (.inr hn)]

/-- One read goes on. -/
theorem update (hown : i = .communication → (st = .idle ↔ h j = .idle)
      ∧ (st = .ended ↔ h j = .ended))
    (hreporting : i = interrupter r → (h j).reporting = false ∧ st.reporting = false) :
    Rely r i h (Function.update h j st) where
  own hi k := by
    by_cases hk : k = j
    · subst hk
      rw [Function.update_self]
      exact hown hi
    · rw [Function.update_of_ne hk]
      exact ⟨.rfl, .rfl⟩
  reporting hi k hn := by
    by_cases hk : k = j
    · subst hk
      rw [Function.update_self] at hn
      obtain ⟨h₁, h₂⟩ := hreporting hi
      rw [h₁, h₂] at hn
      cases hn <;> contradiction
    · exact Function.update_of_ne hk ..

/-- The stage of one read does not matter to the others. -/
theorem set (hr : Rely r i h h') : Rely r i (Function.update h j st) (Function.update h' j st) where
  own hi k := by
    by_cases hk : k = j
    · subst hk
      rw [Function.update_self, Function.update_self]
      exact ⟨.rfl, .rfl⟩
    · rw [Function.update_of_ne hk, Function.update_of_ne hk]
      exact hr.own hi k
  reporting hi k hn := by
    by_cases hk : k = j
    · subst hk
      rw [Function.update_self, Function.update_self]
    · rw [Function.update_of_ne hk, Function.update_of_ne hk] at hn ⊢
      exact hr.reporting hi k hn

end Rely

/-- What is asserted before an operation survives interference. -/
theorem Pre.stable (hp : Pre r i h o) (hr : Rely r i h h') : Pre r i h' o := by
  cases hp with
  | start hj => exact .start ((hr.own rfl _).1.mpr hj)
  | finish locked open_ =>
    exact .finish (fun hf => locked ((hr.own rfl _).1.mp hf))
      fun hf => open_ ((hr.own rfl _).2.mp hf)
  | report hj => exact .report ((hr.own rfl _).2.mpr hj)
  | look hi => exact .look hi
  | fault hi hj => exact .fault hi ((hr.reporting hi _ (.inl (by rw [hj]; rfl))).trans hj)
  | ack hi hj => exact .ack hi ((hr.reporting hi _ (.inl (by rw [hj]; rfl))).trans hj)
  | reset hi hj => exact .reset hi ((hr.reporting hi _ (.inl (by rw [hj]; rfl))).trans hj)
  | other ho => exact .other ho

/-- **What is known where an operation is performed**: a read is completed only if
nothing has been reported of it, a mark is looked at between two reports, and the marks
of the other reads that are stored are theirs. -/
structure Ready (r : Role) (i : Thread) (h : Reads) (o : Op) : Prop where
  pre : Pre r i h o
  finish : ∀ j m, o = ⟨.emitReceived, .storeStarted j false m⟩ → h j = .started
  look : ∀ j, o = ⟨.emitInterrupted, .loadStarted j⟩ → (h j).reporting = false
  others : ∀ site j b m, o = ⟨site, .storeStarted j b m⟩ →
    ∀ k, k ≠ j → m.getLsbD k = true → (h k).mark = true

/-- **An operation leaves to the other thread what it relies on.** -/
theorem Ready.rely {a : o.Answer} {i' : Thread} (hp : Ready r i h o) (ht : h.Told o a)
    (hi : i' ≠ i) : Rely r i' h (h.after o a) := by
  obtain ⟨hpre, hfinish, hlook, -⟩ := hp
  cases hpre with
  | start hj => exact .update (fun hf => absurd hf hi) fun _ => ⟨by rw [hj]; rfl, rfl⟩
  | finish => exact .update (fun hf => absurd hf hi) fun _ => ⟨by rw [hfinish _ _ rfl]; rfl, rfl⟩
  | report hj => exact .update (fun hf => absurd hf hi) fun _ => ⟨by rw [hj]; rfl, rfl⟩
  | look heq =>
    cases a with
    | false => exact .refl r i' h
    | true =>
      have hst := ReadStage.of_mark (ht rfl) (hlook _ rfl)
      exact .update (fun _ => by rw [hst]; decide) fun hf => absurd (hf.trans heq.symm) hi
  | fault heq hj =>
    exact .update (fun _ => by rw [hj]; decide) fun hf => absurd (hf.trans heq.symm) hi
  | ack heq hj =>
    exact .update (fun _ => by rw [hj]; decide) fun hf => absurd (hf.trans heq.symm) hi
  | reset heq hj =>
    exact .update (fun _ => by rw [hj]; decide) fun hf => absurd (hf.trans heq.symm) hi
  | other ho =>
    rw [after_other ho]
    exact .refl r i' h

namespace Follows

/-- One read goes on. -/
theorem update (hf : h.Follows b)
    (hother : ∀ k, k ≠ j → b'.started.getLsbD k = true → (h k).mark = true)
    (hself : b'.started.getLsbD j = true → st.mark = true)
    (hflag : ∀ k, k ≠ j → b'.flag (.readFault k) = b.flag (.readFault k))
    (hfault : b'.flag (.readFault j) = false → st.faulted = true) :
    Reads.Follows (Function.update h j st) b' where
  started k hk' := by
    by_cases hk : k = j
    · subst hk
      rw [Function.update_self]
      exact hself hk'
    · rw [Function.update_of_ne hk]
      exact hother k hk hk'
  fault k hk' := by
    by_cases hk : k = j
    · subst hk
      rw [Function.update_self]
      exact hfault hk'
    · rw [Function.update_of_ne hk]
      exact hf.fault k ((hflag k hk).symm.trans hk')

/-- A read of which nothing has been reported. -/
theorem unreported {P : Prop} (hf : h.Follows b) (hj : (h j).faulted = false)
    (hb : b.flag (.readFault j) = false) : P :=
  absurd ((hf.fault j hb).symm.trans hj) (by decide)

/-- Other flags do not matter. -/
theorem of_flag {f : Flag} {v : Bool} (hf : h.Follows b)
    (hv : v = true ∨ ∀ j, f ≠ .readFault j) : h.Follows (b.setFlag f v) where
  started := hf.started
  fault k hk := by
    refine hf.fault k ?_
    by_cases hfk : Flag.readFault k = f
    · subst hfk
      obtain rfl | hne := hv
      · rw [show (b.setFlag (.readFault k) true).flag (.readFault k) = true from
          Function.update_self ..] at hk
        cases hk
      · exact absurd rfl (hne k)
    · exact (Function.update_of_ne hfk ..).symm.trans hk

/-- **Every operation does to the board what the reads say.** -/
theorem after {a : o.Answer} (hf : h.Follows b) (hp : Ready r i h o)
    (hx : Board.exec o.access b = some (a, b')) : (h.after o a).Follows b' ∧ h.Told o a := by
  obtain ⟨hpre, hfinish, hlook, hothers⟩ := hp
  have hother : ∀ {f v k}, Flag.readFault k ≠ f →
      (b.setFlag f v).flag (.readFault k) = b.flag (.readFault k) := fun hne =>
    Function.update_of_ne hne ..
  -- a flag is changed
  have hsame : ∀ {f v j}, ∀ k, k ≠ j → (b.setFlag f v).started.getLsbD k = true →
      (h k).mark = true := fun k _ => hf.started k
  cases hpre with
  | @start _ j m hj =>
    obtain ⟨rfl, rfl⟩ := Prod.mk.inj (Option.some.inj hx)
    refine ⟨hf.update (fun k hk hm => ?_) (fun _ => rfl) (fun _ _ => rfl)
      (hf.unreported (by rw [hj]; rfl)), trivial⟩
    rw [getLsbD_withBit, if_neg hk] at hm
    exact hothers _ j _ m rfl k hk hm
  | @finish _ j m =>
    obtain ⟨rfl, rfl⟩ := Prod.mk.inj (Option.some.inj hx)
    refine ⟨hf.update (fun k hk hm => ?_) (fun hm => ?_) (fun _ _ => rfl)
      (hf.unreported (by rw [hfinish _ _ rfl]; rfl)), trivial⟩
    · rw [getLsbD_withBit, if_neg hk] at hm
      exact hothers _ j _ m rfl k hk hm
    · simp [getLsbD_withBit] at hm
  | @report h j hj =>
    obtain ⟨rfl, rfl⟩ := Prod.mk.inj (Option.some.inj hx)
    refine ⟨hf.update hsame (fun hm => ?_) (fun _ _ => hother (by simp)) fun hb => ?_, trivial⟩
    · have hmark := hf.started j hm
      rw [hj] at hmark
      cases hmark
    · exact hf.unreported (by rw [hj]; rfl) ((hother (by simp)).symm.trans hb)
  | @look i h j _ =>
    obtain ⟨rfl, rfl⟩ := Prod.mk.inj (Option.some.inj hx)
    refine ⟨?_, hf.started j⟩
    cases hs : b.started.getLsbD j with
    | false => exact hf
    | true =>
      have hst := ReadStage.of_mark (hf.started j hs) (hlook _ rfl)
      exact hf.update (fun k _ => hf.started k) (fun _ => rfl) (fun _ _ => rfl)
        (hf.unreported (by rw [hst]; rfl))
  | @fault i h j _ hj =>
    obtain ⟨rfl, rfl⟩ := Prod.mk.inj (Option.some.inj hx)
    exact ⟨hf.update hsame (fun _ => rfl) (fun k hk => hother (by simpa using hk))
      fun _ => rfl, trivial⟩
  | @ack i h j _ hj =>
    obtain ⟨rfl, rfl⟩ := Prod.mk.inj (Option.some.inj hx)
    exact ⟨hf.update hsame (fun _ => rfl) (fun _ _ => hother (by simp)) fun _ => rfl, trivial⟩
  | @reset _ _ j m _ hj =>
    obtain ⟨rfl, rfl⟩ := Prod.mk.inj (Option.some.inj hx)
    refine ⟨hf.update (fun k hk hm => ?_) (fun hm => ?_) (fun _ _ => rfl) fun _ => rfl, trivial⟩
    · rw [getLsbD_withBit, if_neg hk] at hm
      exact hothers _ j _ m rfl k hk hm
    · simp [getLsbD_withBit] at hm
  | other ho =>
    rw [after_other ho]
    obtain ⟨site, acc⟩ := o
    cases acc with
    | testAndSet f =>
      obtain ⟨rfl, rfl⟩ := Prod.mk.inj (Option.some.inj hx)
      exact ⟨hf.of_flag (.inl rfl), trivial⟩
    | clear f =>
      obtain ⟨rfl, rfl⟩ := Prod.mk.inj (Option.some.inj hx)
      refine ⟨hf.of_flag (.inr ?_), trivial⟩
      rintro j rfl
      exact ho
    | acquire f =>
      rw [Board.exec] at hx
      split at hx
      · cases hx
      · obtain ⟨rfl, rfl⟩ := Prod.mk.inj (Option.some.inj hx)
        exact ⟨hf.of_flag (.inl rfl), trivial⟩
    | loadStarted => exact ho.elim
    | storeStarted => exact ho.elim
    | handshake => cases hx
    | handshakeAck => cases hx
    | _ =>
      obtain ⟨rfl, rfl⟩ := Prod.mk.inj (Option.some.inj hx)
      exact ⟨⟨hf.started, hf.fault⟩, trivial⟩

end Follows

/-- **What an operation shows goes with the reads.** -/
theorem Ready.recounts {s : i.Private} {a : o.Answer} {l : List ReadEvent} (hp : Ready r i h o)
    (ht : h.Told o a)
    (hreceived : ∀ j, o = ⟨.emitReceived, .clear (.readAck j)⟩ →
      (i.stored s).length = D.objSize j)
    (hl : ∀ j, Recounts (D.objSize j) j l (h j)) (k : ℕ) :
    Recounts (D.objSize k) k (l ++ readEvents i s o a) (h.after o a k) := by
  obtain ⟨hpre, hfinish, hlook, -⟩ := hp
  -- only one object is concerned
  have hone : ∀ {j : ℕ} {st : ReadStage} (e : ReadEvent), e.object = j →
      Recounts (D.objSize j) j (l ++ [e]) st →
      Recounts (D.objSize k) k (l ++ [e]) (Function.update h j st k) := by
    intro j st e he hj
    by_cases hk : k = j
    · subst hk
      rw [Function.update_self]
      exact hj
    · rw [Function.update_of_ne hk]
      exact (hl k).other (he ▸ Ne.symm hk)
  have hnone : ∀ {j : ℕ} {st : ReadStage}, Recounts (D.objSize j) j l st →
      Recounts (D.objSize k) k (l ++ []) (Function.update h j st k) := by
    intro j st hj
    rw [List.append_nil]
    by_cases hk : k = j
    · subst hk
      rw [Function.update_self]
      exact hj
    · rw [Function.update_of_ne hk]
      exact hl k
  have hstage : ∀ {j : ℕ} {st : ReadStage}, h j = st → Recounts (D.objSize j) j l st :=
    fun hj => hj ▸ hl _
  cases hpre with
  | start hj => exact hone (.started _) rfl ((hstage hj).signal rfl rfl)
  | finish => exact hnone ((hstage (hfinish _ _ rfl)).goOn rfl)
  | report hj => exact hone (.received _ _) rfl ((hstage hj).finish (hreceived _ rfl))
  | look =>
    cases a with
    | false =>
      show Recounts _ k (l ++ []) _
      rw [List.append_nil]
      exact hl k
    | true => exact hnone ((hstage (ReadStage.of_mark (ht rfl) (hlook _ rfl))).goOn rfl)
  | fault _ hj => exact hone (.fault _) rfl ((hstage hj).signal rfl rfl)
  | ack _ hj => exact hone (.interrupted _) rfl ((hstage hj).signal rfl rfl)
  | reset _ hj => exact hnone ((hstage hj).goOn rfl)
  | other ho =>
    rw [after_other ho, readEvents_other ho, List.append_nil]
    exact hl k

end Reads

/-! ## The threads -/

namespace Reads

variable {h h' : Reads} {i : Thread} {o : Op} {j : ℕ}

/-- **What the communication thread asserts all through a cycle.** -/
structure Mid (r : Role) (s : Endpoint) (h : Reads) : Prop where
  locked : ∀ j, s.readLock j = true ↔ h j ≠ .idle
  ended : ∀ j, h j ≠ .ended
  settled : .communication = interrupter r → ∀ j, (h j).reporting = false
  stored : s.receiveLock = true → s.history.stored.length = s.readDestinationPos

/-- **What a thread asserts before an operation.** -/
structure Node (D : DescriptorHelper) (r : Role) (i : Thread) (s : i.Private) (h : Reads)
    (o : Op) : Prop where
  pre : Pre r i h o
  settled : i = interrupter r → ∀ j, (h j).reporting = true → o.ReportsFault j
  received : ∀ j, o = ⟨.emitReceived, .clear (.readAck j)⟩ → (i.stored s).length = D.objSize j

theorem Node.stable {s : i.Private} (hn : Node D r i s h o) (hr : Rely r i h h') :
    Node D r i s h' o where
  pre := hn.pre.stable hr
  settled hi j hj := hn.settled hi j (by rwa [← hr.reporting hi j (.inr hj)])
  received := hn.received

/-- Nothing is being reported, and it stays so. -/
theorem Rely.settled (hr : Rely r i h h') (hi : i = interrupter r)
    (hn : ∀ j, (h j).reporting = false) (j : ℕ) : (h' j).reporting = false := by
  by_contra hf
  rw [Bool.not_eq_false] at hf
  rw [hr.reporting hi j (.inr hf), hn j] at hf
  cases hf

/-- A cycle survives interference. -/
theorem Mid.rely {s : Endpoint} (hm : Mid r s h) (hr : Rely r .communication h h') :
    Mid r s h' where
  locked j := by rw [hm.locked j, ne_eq, ne_eq, (hr.own rfl j).1]
  ended j := by
    rw [ne_eq, (hr.own rfl j).2]
    exact hm.ended j
  settled hi := hr.settled hi (hm.settled hi)
  stored := hm.stored

end Reads

/-- **The outline of the threads of an end.** -/
def outcomeOutline (D : DescriptorHelper) (r : Role) : (stopping D r).Outline Reads where
  follows h w := h.Follows (w.board r)
  step _ _ o a h h' := h' = h.after o a ∧ h.Told o a
  node i s o h := h.Node D r i s o
  rest
    | .communication, s, h => AtRest D s ∧ h.Mid r s
    | .destructor, _, h => .destructor = interrupter r → ∀ j, (h j).reporting = false
  error i _ _ _ := i = .communication
  rely i _ h h' := h.Rely r i h'
  refl i _ h := .refl r i h
  trans _ _ _ _ _ h₁ h₂ := h₁.trans h₂
  node_stable _ _ _ _ _ hr hn := hn.stable hr
  rest_stable i s h h' hr hn := by
    cases i with
    | communication => exact ⟨hn.1, hn.2.rely hr⟩
    | destructor => exact fun hi => hr.settled hi (hn hi)

namespace Reads

variable {h h' : Reads} {i : Thread} {o : Op} {j : ℕ} {s s' : Endpoint}

/-- **One object of `emit_interrupted`**, for what a lost read keeps. -/
theorem interrupt_safe {s : i.Private} {Ψ : Reads → Prop} (hi : i = interrupter r)
    (hsettled : ∀ h, Ψ h → ∀ j, (h j).reporting = false)
    (hrely : ∀ h h', Rely r i h h' → Ψ h → Ψ h')
    (hlost : ∀ h j, Ψ h → h j = .started → Ψ (Function.update h j .lost)) (hΨ : Ψ h) :
    ((emitInterrupted (List.range numIds)).run s).Safe ((outcomeOutline D r).rules i)
      (fun s' _ h' => s' = s ∧ Ψ h') h := by
  -- the object in between
  have hnode : ∀ {h : Reads} {j : ℕ} {o : Op}, Ψ (Function.update h j .lost) →
      o.ReportsFault j → Pre r i h o → Node D r i s h o := by
    intro h j o hΨ ho hp
    refine ⟨hp, fun _ k hk => ?_, ?_⟩
    · by_cases hkj : k = j
      · exact hkj ▸ ho
      · have hn := hsettled _ hΨ k
        rw [Function.update_of_ne hkj, hk] at hn
        cases hn
    · rintro k rfl
      obtain ho | ho | ho | ⟨m, ho⟩ := ho <;> cases ho
  have hkeep : ∀ {h h' : Reads} {j : ℕ} {st : ReadStage}, Rely r i h h' → h j = st →
      st.reporting = true → Ψ (Function.update h j .lost) →
      h' j = st ∧ Ψ (Function.update h' j .lost) := fun hr hj hn hΨ =>
    ⟨(hr.reporting hi _ (.inl (hj ▸ hn))).trans hj, hrely _ _ hr.set hΨ⟩
  have hgoOn : ∀ {h : Reads} {j : ℕ} (st : ReadStage), Ψ (Function.update h j .lost) →
      Function.update h j st j = st ∧ Ψ (Function.update (Function.update h j st) j .lost) :=
    fun _ hΨ => ⟨Function.update_self .., by rwa [Function.update_idem]⟩
  refine safe_emitInterrupted (fun j h hΨ => ⟨?_, ?_, ?_⟩) hΨ fun h' hΨ' => ⟨rfl, hΨ'⟩
  · refine ⟨.look hi, fun _ k hk => ?_, by simp⟩
    rw [hsettled h hΨ k] at hk
    cases hk
  · rintro h' ⟨h₁, hr, rfl, -⟩
    exact hrely _ _ hr hΨ
  · rintro h' ⟨h₁, hr, rfl, htold⟩
    have hΨ₁ := hrely _ _ hr hΨ
    have hst := ReadStage.of_mark (htold rfl) (hsettled _ hΨ₁ j)
    obtain ⟨hfound, hΨ₂⟩ := hgoOn .found (hlost _ _ hΨ₁ hst)
    refine ⟨hnode hΨ₂ (.inl rfl) (.fault hi hfound), ?_⟩
    rintro x _ ⟨h₂, hr₂, rfl, -⟩
    obtain ⟨hfaulting, hΨ₃⟩ := hgoOn .faulting (hkeep hr₂ hfound rfl hΨ₂).2
    refine ⟨hnode hΨ₃ (.inr (.inl rfl)) (.ack hi hfaulting), ?_⟩
    rintro y _ ⟨h₃, hr₃, rfl, -⟩
    obtain ⟨hinterrupted, hΨ₄⟩ := hgoOn .interrupted (hkeep hr₃ hfaulting rfl hΨ₃).2
    refine safe_assignStarted (hnode hΨ₄ (.inr (.inr (.inl rfl))) (.other trivial)) fun m _ => ?_
    rintro ⟨h₄, hr₄, rfl, -⟩
    obtain ⟨hstill, hΨ₅⟩ := hkeep hr₄ hinterrupted rfl hΨ₄
    refine ⟨hnode hΨ₅ (.inr (.inr (.inr ⟨m, rfl⟩))) (.reset hi hstill), ?_⟩
    rintro z _ ⟨h₅, hr₅, rfl, -⟩
    exact ⟨rfl, (hkeep hr₅ hstill rfl hΨ₅).2⟩

namespace Mid

theorem node (hm : Mid r s h) (hp : Pre r .communication h o)
    (hreceived : ∀ j, o ≠ ⟨.emitReceived, .clear (.readAck j)⟩) :
    Node D r .communication s h o where
  pre := hp
  settled hi j hj := by
    rw [hm.settled hi j] at hj
    cases hj
  received j ho := absurd ho (hreceived j)

/-- **An operation that does not concern the reads.** -/
theorem unnoticed (hm : Mid r s h) (ho : o.access.Unread) :
    ((outcomeOutline D r).rules .communication).node s o h
    ∧ ∀ a h', ((outcomeOutline D r).rules .communication).step s o a h h' → Mid r s h' := by
  refine ⟨hm.node (.other ho) ?_, ?_⟩
  · rintro j rfl
    exact ho
  · rintro a _ ⟨h₁, hr, rfl, -⟩
    rw [after_other ho]
    exact hm.rely hr

/-- **`emit_readlocked`** starts a read. -/
theorem readlock (hm : Mid r s h) (hidle : s.readLock s.incomingRequest = false) :
    ((emitReadlocked s.incomingRequest).run s).Safe ((outcomeOutline D r).rules .communication)
      (fun s' _ h' => s' = s ∧ Mid r { s with
        readLock := Function.update s.readLock s.incomingRequest true } h') h := by
  have hlast : ∀ h', Mid r s h' →
      ((assignStarted .emitReadlocked s.incomingRequest true).run s).Safe
        ((outcomeOutline D r).rules .communication) (fun s' _ h' => s' = s ∧ Mid r { s with
          readLock := Function.update s.readLock s.incomingRequest true } h') h' := by
    intro h' hm'
    obtain ⟨hnode, hstep⟩ := hm'.unnoticed (D := D)
      (o := ⟨.emitReadlocked, .loadStartedWord s.incomingRequest⟩) trivial
    refine safe_assignStarted hnode fun m h₁ hx => ?_
    have hm₁ := hstep m h₁ hx
    have hj : h₁ s.incomingRequest = .idle := by
      by_contra hf
      exact absurd (hidle.symm.trans ((hm₁.locked _).mpr hf)) (by decide)
    refine ⟨hm₁.node (.start hj) (by simp), ?_⟩
    rintro x _ ⟨h₂, hr, rfl, -⟩
    have hm₂ := hm₁.rely hr
    refine ⟨rfl, fun j => ?_, fun j => ?_, fun hi j => ?_, hm₂.stored⟩
    · show Function.update s.readLock _ true j = true ↔ Function.update h₂ _ .started j ≠ _
      by_cases hk : j = s.incomingRequest
      · subst hk
        simp
      · rw [Function.update_of_ne hk, Function.update_of_ne hk]
        exact hm₂.locked j
    · show Function.update h₂ _ .started j ≠ _
      by_cases hk : j = s.incomingRequest
      · subst hk
        simp
      · rw [Function.update_of_ne hk]
        exact hm₂.ended j
    · show ReadStage.reporting (Function.update h₂ _ .started j) = false
      by_cases hk : j = s.incomingRequest
      · subst hk
        rw [Function.update_self]
        rfl
      · rw [Function.update_of_ne hk]
        exact hm₂.settled hi j
  refine emitReadlocked_keeps (fun o h ho hm => hm.unnoticed (D := D) ?_) hm hlast
  cases ho <;> trivial

/-- **`emit_received`** completes a read. -/
theorem received (hm : Mid r s h) (hlock : s.readLock s.readDestination = true)
    (hl : s.receiveLock = true) (hpos : s.readDestinationPos = D.objSize s.readDestination) :
    ((emitReceived s.readDestination).run { s with
      readLock := Function.update s.readLock s.readDestination false
      receiveLock := false }).Safe ((outcomeOutline D r).rules .communication)
      (fun s' _ h' => s' = { s with
          readLock := Function.update s.readLock s.readDestination false
          receiveLock := false }
        ∧ Mid r { s' with readDestinationPos := 0, history.stored := [] } h') h := by
  have hlength : s.history.stored.length = D.objSize s.readDestination := by
    rw [hm.stored hl, hpos]
  have hnode : ∀ {h : Reads} {o : Op},
      (∀ j, .communication = interrupter r → (h j).reporting = false) →
      Pre r .communication h o →
      (∀ j, o = ⟨.emitReceived, .clear (.readAck j)⟩ → j = s.readDestination) →
      Node D r .communication { s with
        readLock := Function.update s.readLock s.readDestination false
        receiveLock := false } h o := by
    intro h o hn hp hj
    refine ⟨hp, fun hi j hj => ?_, fun j ho => ?_⟩
    · rw [hn j hi] at hj
      cases hj
    · rw [hj j ho]
      exact hlength
  refine safe_emitReceived (safe_assignStarted (hnode (fun j hi => hm.settled hi j)
    (.other trivial) (by simp)) fun m _ => ?_)
  rintro ⟨h₀, hr₀, rfl, -⟩
  have hm₀ := hm.rely hr₀
  refine ⟨hnode (fun j hi => hm₀.settled hi j) (.finish ((hm₀.locked _).mp hlock) (hm₀.ended _))
    (by simp), ?_⟩
  rintro x _ ⟨h₁, hr, rfl, -⟩
  have hm₁ := hm₀.rely hr
  have hended : Function.update h₁ s.readDestination .ended s.readDestination = .ended :=
    Function.update_self ..
  refine ⟨hnode (fun j hi => ?_) (.report hended) (by simp [eq_comm]), ?_⟩
  · show ReadStage.reporting (Function.update h₁ _ .ended j) = false
    by_cases hk : j = s.readDestination
    · subst hk
      rw [hended]
      rfl
    · rw [Function.update_of_ne hk]
      exact hm₁.settled hi j
  · rintro y _ ⟨h₂, hr₂, rfl, -⟩
    refine ⟨rfl, ?_⟩
    -- what others have done to the object does not matter any more
    have hm₂ : ∀ j, j ≠ s.readDestination → (h₂ j = .idle ↔ h₁ j = .idle)
        ∧ (h₂ j = .ended ↔ h₁ j = .ended) := by
      intro j hk
      have ho : (h₂ j = .idle ↔ Function.update h₁ s.readDestination .ended j = .idle)
          ∧ (h₂ j = .ended ↔ Function.update h₁ s.readDestination .ended j = .ended) :=
        hr₂.own rfl j
      rwa [Function.update_of_ne hk] at ho
    refine ⟨fun j => ?_, fun j => ?_, fun hi j => ?_, fun hf => by cases hf⟩
    · show Function.update s.readLock _ false j = true ↔ Function.update h₂ _ .idle j ≠ _
      by_cases hk : j = s.readDestination
      · subst hk
        simp
      · rw [Function.update_of_ne hk, Function.update_of_ne hk, ne_eq, (hm₂ j hk).1]
        exact hm₁.locked j
    · show Function.update h₂ _ .idle j ≠ _
      by_cases hk : j = s.readDestination
      · subst hk
        simp
      · rw [Function.update_of_ne hk, ne_eq, (hm₂ j hk).2]
        exact hm₁.ended j
    · show ReadStage.reporting (Function.update h₂ _ .idle j) = false
      by_cases hk : j = s.readDestination
      · subst hk
        rw [Function.update_self]
        rfl
      · rw [Function.update_of_ne hk]
        by_contra hf
        rw [Bool.not_eq_false] at hf
        have hsame : h₂ j = Function.update h₁ s.readDestination .ended j :=
          hr₂.reporting hi j (.inr hf)
        rw [hsame, Function.update_of_ne hk, hm₁.settled hi j] at hf
        cases hf

end Mid

end Reads

/-- A guard of the communication thread. -/
theorem outcomeGuard (D : DescriptorHelper) (r : Role) :
    Guard D (.communication = interrupter r) (fun _ => True) (fun _ _ _ => True) (fun _ => True)
      ((outcomeOutline D r).rules .communication) (Reads.Mid r) where
  error _ _ _ _ _ := rfl
  frame s s' h hf hm :=
    { locked := fun j => by rw [hf.readLock]; exact hm.locked j
      ended := hm.ended
      settled := hm.settled
      stored := fun hl => by
        rw [hf.stored, hf.readDestinationPos]
        exact hm.stored (hf.receiveLock ▸ hl) }
  quiet s o h ho hm := hm.unnoticed (by cases ho <;> trivial)
  interrupted hi s h hm := by
    refine Reads.interrupt_safe hi (fun h hm => hm.settled hi) (fun h h' hr hm => hm.rely hr)
      (fun h j hm hj => ?_) hm
    have hlost : ∀ {k : ℕ} {st : ReadStage}, st ≠ .started → st ≠ .lost →
        (Function.update h j .lost k = st ↔ h k = st) := by
      intro k st hs hl
      by_cases hk : k = j
      · subst hk
        rw [Function.update_self, hj]
        exact ⟨fun hf => absurd hf.symm hl, fun hf => absurd hf.symm hs⟩
      · rw [Function.update_of_ne hk]
    refine ⟨fun k => ?_, fun k => ?_, fun _ k => ?_, hm.stored⟩
    · rw [hm.locked k, ne_eq, ne_eq, hlost (by decide) (by decide)]
    · rw [ne_eq, hlost (by decide) (by decide)]
      exact hm.ended k
    · by_cases hk : k = j
      · subst hk
        rw [Function.update_self]
        rfl
      · rw [Function.update_of_ne hk]
        exact hm.settled hi k
  checkSync site j s h _ hm := by
    obtain ⟨hnode, hstep⟩ := hm.unnoticed (D := D) (o := ⟨site, .testAndSet (.syncMe j)⟩) trivial
    refine safe_checkSync hnode (fun h' hx => ⟨rfl, hstep true h' hx, fun hf => by cases hf⟩)
      fun h' hx => ?_
    obtain ⟨hnode', hstep'⟩ := (hstep false h' hx).unnoticed (D := D)
      (o := ⟨site, .clear (.syncMe j)⟩) trivial
    refine ⟨hnode', fun x h'' hx => ?_⟩
    have hm'' := hstep' x h'' hx
    exact ⟨rfl, hm'', fun _ => ⟨trivial, fun _ _ _ => { hm'' with }⟩⟩
  notified s h hm := by
    obtain ⟨hnode, hstep⟩ := hm.unnoticed (D := D) (o := ⟨.incomingShutdownQuery, .loadNotified⟩)
      trivial
    exact ⟨hnode, fun b h' hb => ⟨hstep b h' hb, fun _ => trivial⟩⟩
  readlock s h hm _ _ _ _ hlock _ := hm.readlock hlock
  accept s h hm _ _ := by
    have hm' : Reads.Mid r { s with
        transfer := Function.update s.transfer s.waitingConfirmation true } h := { hm with }
    obtain ⟨hnode, hstep⟩ := hm'.unnoticed (D := D)
      (o := ⟨.emitTransfer, .testAndSet (.syncMe s.waitingConfirmation)⟩) trivial
    exact safe_emitTransfer hnode fun a h' hx => ⟨rfl, { hstep a h' hx with }⟩
  sending s s' h hm _ hs := by
    cases hs with
    | held => exact hm
    | first => exact { hm with }
  load s h hm _ := by
    obtain ⟨hnode, hstep⟩ := hm.unnoticed (D := D)
      (o := ⟨.writeObject, .load s.writeOrigin s.writeOriginPos⟩) trivial
    exact ⟨hnode, fun w h' hx => { hstep w h' hx with }⟩
  sent s h hm _ _ _ := by
    obtain ⟨hnode, hstep⟩ := hm.unnoticed (D := D)
      (o := ⟨.emitSent, .clear (.writeAck s.writeOrigin)⟩) trivial
    exact safe_emitSent hnode fun x h' hx => ⟨rfl, { hstep x h' hx with }⟩
  receiving s s' h hm hs hr := by
    cases hr with
    | held => exact hm
    | first hl find =>
      obtain ⟨hpos, -, -, hnone⟩ := hs.notReceiving hl
      refine { hm with stored := fun _ => ?_ }
      show s.history.stored.length = s.readDestinationPos
      rw [hnone, hpos]
      rfl
  store s b h hm _ := by
    obtain ⟨hnode, hstep⟩ := hm.unnoticed (D := D)
      (o := ⟨.readObject, .store s.readDestination s.readDestinationPos b⟩) trivial
    refine ⟨hnode, fun x h' hx => ?_⟩
    have hm' := hstep x h' hx
    refine { hm' with stored := fun hl => ?_ }
    show (s.history.stored ++ [b]).length = s.readDestinationPos + 1
    rw [List.length_append, hm'.stored hl]
    rfl
  received s h hm hlock hl hpos _ := hm.received hlock hl hpos

/-- **The communication thread** keeps to the stages. -/
theorem outcome_comm_safe (hD : D.Triples) {s : Endpoint} {h : Reads}
    (hrest : (outcomeOutline D r).rest .communication s h) :
    (outcomeOutline D r).Safe .communication ((eventLoop D r).run s) h := by
  obtain ⟨hs, hm⟩ := hrest
  obtain ⟨htake, htaken⟩ := hm.unnoticed (D := D) (o := ⟨.handshake, .handshake⟩) trivial
  refine eventLoop_safe hD hs (fun _ => ⟨hs, hm⟩) (fun _ => htake) fun _ b h' hb => ?_
  have hm₁ : Reads.Mid r { s with comIn := b } h' := { htaken b h' hb with }
  refine ⟨_, _, _, _, _, outcomeGuard D r, hm₁, fun hr _ _ => hr ▸ rfl, fun _ _ _ _ => trivial,
    fun _ _ => trivial, fun s' h'' hc hm' => ?_⟩
  obtain ⟨hgive, hgiven⟩ := hm'.unnoticed (D := D)
    (o := ⟨.handshakeAck, .handshakeAck s'.comOut⟩) trivial
  exact ⟨hgive, fun x h₃ hx => ⟨(hs.take b).cycled hD hc, hgiven x h₃ hx⟩⟩

/-- **The destructor** keeps to the stages. -/
theorem outcome_destructor_safe {s : Bool} {h : Reads}
    (hrest : (outcomeOutline D r).rest .destructor s h) :
    (outcomeOutline D r).Safe .destructor ((stopping D r).loop .destructor s) h := by
  cases s with
  | true => exact hrest
  | false =>
    cases r with
    | mcu => exact fun hf => by cases hf
    | fpga =>
      show Prog.Safe _ _ ((destroy .fpga).run false) h
      simp only [destroy, stopNotifier, run_bind, Prog.safe_bind]
      refine (Reads.interrupt_safe (Ψ := fun h => ∀ j, (h j).reporting = false) rfl
        (fun _ hΨ => hΨ) (fun h h' hr hΨ => hr.settled rfl hΨ) (fun h j hΨ _ k => ?_)
        (hrest rfl)).imp ?_
      · by_cases hk : k = j
        · subst hk
          rw [Function.update_self]
          rfl
        · rw [Function.update_of_ne hk]
          exact hΨ k
      · rintro s' _ h' ⟨rfl, hΨ⟩
        refine ⟨⟨.other trivial, fun _ j hj => ?_, by simp⟩, ?_⟩
        · rw [hΨ j] at hj
          cases hj
        · rintro x _ ⟨h₁, hr, rfl, -⟩
          exact fun _ => hr.settled rfl hΨ

/-! ## One outcome of a read -/

/-- What other threads leave alone at an end: the marks, and no fault is reported. The
resolver takes back what has been reported. -/
structure ReadsIntact (σ : (stopping D r).State) (w : World) : Prop where
  started : (w.board r).started = (σ.world.board r).started
  fault : ∀ j, (w.board r).flag (.readFault j) = false →
    (σ.world.board r).flag (.readFault j) = false

/-- **No read is completed that has been reported**: where `emit_received` takes the
mark of a read away, it is still there, and the destructor is not about to report the
read or to take its mark away as well. -/
def Unreported (σ σ' : (stopping D r).State) : Prop :=
  ∀ j m s k, σ.thread .communication = .op s ⟨.emitReceived, .storeStarted j false m⟩ k →
    σ'.thread .communication = k () → (σ.world.board r).started.getLsbD j = true
      ∧ ∀ s' o k', σ.thread .destructor = .op s' o k' → ¬ o.ReportsFault j

/-- **No mark comes back**: of the other reads, the word that a thread stores marks only
those that are marked. -/
def Unrevived (σ σ' : (stopping D r).State) : Prop :=
  ∀ i s site j b m k, σ.thread i = .op s ⟨site, .storeStarted j b m⟩ k → σ'.thread i = k () →
    ∀ j', j' ≠ j → m.getLsbD j' = true → (σ.world.board r).started.getLsbD j' = true

/-- What is known where an operation is performed. -/
theorem outcomeOutline_ready {σ σ' : (stopping D r).State} {h : Reads} {i : Thread}
    {s : i.Private} {o : Op} {k : o.Answer → Prog i.Private ErrorCode Op.Answer Unit}
    {a : o.Answer} (hk : (outcomeOutline D r).Keeps σ h) (hi : σ.thread i = .op s o k)
    (hi' : σ'.thread i = k a) (hok : Unreported σ σ') (hword : Unrevived σ σ') :
    h.Ready r i o := by
  have hnode : h.Node D r i s o := hk.node hi
  refine ⟨hnode.pre, ?_, ?_, ?_⟩
  · rintro j m rfl
    obtain rfl : i = .communication := by
      cases hnode.pre with
      | finish => rfl
      | other ho => exact ho.elim
    obtain ⟨hmark, hapart⟩ := hok j m s k hi hi'
    refine ReadStage.of_mark (hk.1.started j hmark) ?_
    by_contra hreporting
    rw [Bool.not_eq_false] at hreporting
    cases hrole : interrupter r with
    | communication =>
      have hreports := hnode.settled hrole.symm j hreporting
      simp [Op.ReportsFault] at hreports
    | destructor =>
      -- the destructor reports the read
      cases hd : σ.thread .destructor with
      | ret s' a =>
        have hrest : .destructor = interrupter r → ∀ j, (h j).reporting = false := hk.rest hd
        exact absurd ((hrest hrole.symm j).symm.trans hreporting) (by decide)
      | fail s' e => cases (hk.error hd : Thread.destructor = .communication)
      | op s' o'' k' =>
        have hnode' : h.Node D r .destructor s' o'' := hk.node hd
        exact hapart s' o'' k' hd (hnode'.settled hrole.symm j hreporting)
  · rintro j rfl
    have hi' : i = interrupter r := by
      cases hnode.pre with
      | look hi => exact hi
      | other ho => exact ho.elim
    by_contra hreporting
    rw [Bool.not_eq_false] at hreporting
    have hreports := hnode.settled hi' j hreporting
    simp [Op.ReportsFault] at hreports
  · rintro site j b m rfl j' hj hm
    exact hk.1.started j' (hword i s site j b m k hi hi' j' hj hm)

/-- **Each read has one outcome.** What has been signalled of an object is a sequence of
reads that were started and then received, with all their bytes, and at the end perhaps
one that is in progress or has been reported: nothing comes after a report. Where
`emit_received` signals success, no fault is reported. -/
theorem one_outcome (hD : D.Triples) (obj : Role → ℕ → ℕ → Byte) {σ : (stopping D r).State}
    {l : List ReadEvent} (j : ℕ)
    (hσ : (stopping D r).Traces ReadsIntact (fun σ σ' => Unreported σ σ' ∧ Unrevived σ σ')
      readEvents (stopping.start D r obj) l σ) :
    (∃ reads : List (List Byte), (∀ bs ∈ reads, bs.length = D.objSize j)
      ∧ ∃ tail, tail <+: [.started j, .fault j, .interrupted j]
        ∧ l.filter (fun e => e.object = j)
          = reads.flatMap (fun bs => [.started j, .received j bs]) ++ tail)
    ∧ ∀ s k, σ.thread .communication = .op s ⟨.emitReceived, .clear (.readAck j)⟩ k →
      (σ.world.board r).flag (.readFault j) = true := by
  have hkeeps : ∃ h : Reads, (∀ j, Recounts (D.objSize j) j l (h j))
      ∧ (outcomeOutline D r).Keeps σ h := by
    refine Pool.Outline.sound_traces (L := outcomeOutline D r)
      (fun l h => ∀ j, Recounts (D.objSize j) j l (h j)) ?_ ?_ ?_ hσ ?_
    · intro σ l h i s o k a w hl hk node exec hok
      have hready := outcomeOutline_ready hk node (Pool.State.setThread_self ..) hok.1 hok.2
      have hnode : h.Node D r i s o := hk.node node
      obtain ⟨hf, htold⟩ : (h.after o a).Follows (w.board r) ∧ h.Told o a := by
        obtain hb | ⟨hhandshake, hboard⟩ := World.exec_own exec
        · exact Reads.Follows.after hk.1 hready hb
        · obtain ⟨site, acc⟩ := o
          obtain rfl | ⟨b, rfl⟩ : acc = .handshake ∨ ∃ b, acc = .handshakeAck b := hhandshake
          all_goals
            rw [Reads.after_other (by trivial), hboard]
            exact ⟨hk.1, trivial⟩
      exact ⟨h.after o a, hready.recounts htold hnode.received hl, hf, ⟨rfl, htold⟩,
        fun i' hi' => hready.rely htold hi'⟩
    · intro σ l h w hl hk henv _
      refine ⟨h, hl, ⟨fun j hj => hk.1.started j ?_, fun j hj => hk.1.fault j (henv.fault j hj)⟩,
        fun i => .refl r i h⟩
      rwa [← henv.started]
    · intro i s h hrest
      cases i with
      | communication => exact outcome_comm_safe hD hrest
      | destructor => exact outcome_destructor_safe hrest
    · have hstarted : ∀ j, ¬ (0 : BitVec numIds).getLsbD j = true := by simp
      refine ⟨fun _ => .idle, fun j => ⟨[], by simp, rfl⟩,
        ⟨fun j hj => absurd hj (hstarted j), fun _ hj => by cases hj⟩, fun i => ?_⟩
      cases i with
      | communication =>
        refine ⟨.initial, fun j => ?_, fun _ => by simp, fun _ _ => rfl, fun hf => by cases hf⟩
        exact ⟨fun hf => (by cases hf), fun hf => absurd rfl hf⟩
      | destructor => exact fun _ _ => rfl
  obtain ⟨h, hl, hk⟩ := hkeeps
  refine ⟨?_, fun s k hs => ?_⟩
  · obtain ⟨reads, hlength, hfilter⟩ := hl j
    exact ⟨reads, hlength, _, ReadStage.events_prefix j (h j), hfilter⟩
  · have hnode : h.Node D r .communication s ⟨.emitReceived, .clear (.readAck j)⟩ := hk.node hs
    have hended : h j = .ended := by
      cases hnode.pre with
      | report hj => exact hj
      | other ho => exact ho.elim
    -- of a read that has ended no fault is reported
    by_contra hf
    exact hk.1.unreported (by rw [hended]; rfl) (by simpa using hf)

/-! ## Schedules -/

/-- What the peer does leaves the reads alone. -/
theorem stoppingScript_intact {check : (stopping D r).State → Bool} {b : Byte}
    {σ : (stopping D r).State} :
    ReadsIntact σ ((stoppingScript D r check).act b σ.world) :=
  ⟨rfl, fun _ hj => hj⟩

/-- The communication thread does not complete a read, or completes one that is marked while
the destructor is done or has not begun. -/
def unreported (σ : (stopping D r).State) : Bool :=
  match σ.thread .communication with
  | .op _ ⟨.emitReceived, .storeStarted j _ _⟩ _ =>
    (σ.world.board r).started.getLsbD j && (σ.thread .destructor).returned
  | _ => true

theorem unreported_spec {σ : (stopping D r).State} (h : unreported σ = true)
    (σ' : (stopping D r).State) : Unreported σ σ' := by
  intro j m s k hs _
  unfold unreported at h
  rw [hs] at h
  rw [Bool.and_eq_true] at h
  obtain ⟨a, ha⟩ := Prog.returned_spec h.2
  refine ⟨h.1, fun s' o k' hd => ?_⟩
  rw [ha] at hd
  cases hd

/-- A word that is going to be stored is as it has been loaded. -/
def unrevived (σ : (stopping D r).State) : Bool :=
  [Thread.communication, .destructor].all fun i =>
    match σ.thread i with
    | .op _ ⟨_, .storeStarted _ _ m⟩ _ => m == (σ.world.board r).started
    | _ => true

theorem unrevived_spec {σ : (stopping D r).State} (h : unrevived σ = true)
    (σ' : (stopping D r).State) : Unrevived σ σ' := by
  intro i s site j b m k hs _ j' _ hm
  have hi := List.all_eq_true.mp h i (by cases i <;> decide)
  rw [hs] at hi
  rwa [← beq_iff_eq.mp hi]

/-- The MCU sends object 0, and requests it again before the FPGA is destructed. -/
theorem one_outcome_again : ∃ (σ : (stopping twoObjects .fpga).State) (l : List ReadEvent),
    (stopping twoObjects .fpga).Traces ReadsIntact (fun σ σ' => Unreported σ σ' ∧ Unrevived σ σ')
      readEvents stopping.fpga l σ
    ∧ l = [.started 0, .received 0 [4, 32, 196], .started 0, .fault 0, .interrupted 0]
    ∧ ∃ reads : List (List Byte), (∀ bs ∈ reads, bs.length = 3)
      ∧ ∃ tail, tail <+: [.started 0, .fault 0, .interrupted 0]
        ∧ l.filter (fun e => e.object = 0)
          = reads.flatMap (fun bs => [.started 0, .received 0 bs]) ++ tail := by
  obtain ⟨σ, l, hl, hp⟩ := Pool.Script.exists_of_record ReadsIntact
    (fun σ σ' => Unreported σ σ' ∧ Unrevived σ σ')
    (stoppingScript twoObjects .fpga fun σ => unreported σ && unrevived σ) readEvents
    ([0, 0xBE, 0x81, 1, 2, 3, 4, 0x81].flatMap hearing ++ [.go .destructor 100]) stopping.fpga
    (fun x => x.2
      = [.started 0, .received 0 [4, 32, 196], .started 0, .fault 0, .interrupted 0])
    (fun _ _ _ => stoppingScript_intact)
    (fun _ _ h => have h := Bool.and_eq_true_iff.mp h
      ⟨unreported_spec h.1 _, unrevived_spec h.2 _⟩) (by decide +kernel)
  exact ⟨σ, l, hl, of_decide_eq_true hp,
    (one_outcome twoObjects_triples (fun _ _ _ => 0) 0 hl).1⟩

/-- **A read has two outcomes**: the FPGA is destructed between the second and the third
symbol, so that the read is reported as faulted, and then it is completed. -/
theorem two_outcomes : ∃ (σ : (stopping twoObjects .fpga).State) (l : List ReadEvent),
    (stopping twoObjects .fpga).Traces ReadsIntact (fun _ _ => True) readEvents stopping.fpga l σ
    ∧ l = [.started 0, .fault 0, .interrupted 0, .received 0 [0, 0, 0]] := by
  obtain ⟨σ, l, hl, hp⟩ := Pool.Script.exists_of_record ReadsIntact (fun _ _ => True)
    (stoppingScript twoObjects .fpga fun _ => true) readEvents
    ([0, 0xBE, 0x81, 0, 0].flatMap hearing ++ .go .destructor 60 :: [0, 0].flatMap hearing)
    stopping.fpga (fun x => x.2 = [.started 0, .fault 0, .interrupted 0, .received 0 [0, 0, 0]])
    (fun _ _ _ => stoppingScript_intact) (fun _ _ _ => trivial) (by decide +kernel)
  exact ⟨σ, l, hl, of_decide_eq_true hp⟩

/-- **A mark comes back**: object 1 is readlocked while the FPGA is destructed, and the
word that marks it, loaded before, marks object 0 again. The read of object 0 is
completed with its mark set, long after it has been reported. -/
theorem mark_revived : ∃ (σ : (stopping twoObjects .fpga).State) (l : List ReadEvent),
    (stopping twoObjects .fpga).Traces ReadsIntact Unreported readEvents stopping.fpga l σ
    ∧ l = [.started 0, .fault 0, .interrupted 0, .started 1, .received 0 [0, 0, 0]] := by
  obtain ⟨σ, l, hl, hp⟩ := Pool.Script.exists_of_record ReadsIntact Unreported
    (stoppingScript twoObjects .fpga unreported) readEvents
    ([0, 0xBE, 0x81].flatMap hearing
      ++ .act 0x82 :: .go .communication 3 :: .go .destructor 100 :: .go .communication 100
      :: [0, 0, 0, 0].flatMap hearing) stopping.fpga
    (fun x => x.2 = [.started 0, .fault 0, .interrupted 0, .started 1, .received 0 [0, 0, 0]])
    (fun _ _ _ => stoppingScript_intact) (fun _ _ h => unreported_spec h _) (by decide +kernel)
  exact ⟨σ, l, hl, of_decide_eq_true hp⟩

end SOS
