import SoftwareOnSilicon.Chart
import SoftwareOnSilicon.Resolver

/-!
# The round of the resolver

The chart of `SequentialResolverDSP::event_loop`: a place for each of its
operations, with what has been read so far and what is left of a loop. That the
code takes its way through it is proved here (`resolverEventLoop_charted`), and
is all that later modules use of the code.
-/

namespace SOS

open Interleaving Code

variable {D : DescriptorHelper}

/-- **Where the resolver is**: the operation that is next. -/
inductive Place where
  | triggerResolve
  | readAck (id : ℕ) (is : List ℕ)
  | readFault (id : ℕ) (is : List ℕ)
  | readEndId (id : ℕ) (is : List ℕ)
  | writeAck (id : ℕ) (is : List ℕ)
  | writeFault (id : ℕ) (is : List ℕ)
  | writeEndId (id : ℕ) (is : List ℕ)
  | readEndAcknowledge
  | loadReadEndId
  | lockReadEnd (id : ℕ)
  | load (id i : ℕ) (is : List ℕ)
  | storeReadEnd (id i : ℕ) (b : Byte) (is : List ℕ)
  | unlockReadEnd (id : ℕ)
  | readEndUpdated
  | writeStartUpdated
  | loadWriteStartId
  | lockWriteStart (id : ℕ)
  | loadWriteStart (id i : ℕ) (is : List ℕ)
  | store (id i : ℕ) (b : Byte) (is : List ℕ)
  | unlockWriteStart (id : ℕ)
  | syncMe (id : ℕ)
  | writeStartAcknowledge

namespace Place

/-- The operation of a place. -/
@[reducible] def op : Place → Op
  | triggerResolve => ⟨.resolverEventLoop, .testAndSet .triggerResolve⟩
  | readAck id _ => ⟨.resolve, .testAndSet (.readAck id)⟩
  | readFault id _ => ⟨.resolve, .testAndSet (.readFault id)⟩
  | readEndId id _ => ⟨.resolve, .storeReadEndId id⟩
  | writeAck id _ => ⟨.resolve, .testAndSet (.writeAck id)⟩
  | writeFault id _ => ⟨.resolve, .testAndSet (.writeFault id)⟩
  | writeEndId id _ => ⟨.resolve, .storeWriteEndId id⟩
  | readEndAcknowledge => ⟨.readEnd, .acquire .readEndAcknowledge⟩
  | loadReadEndId => ⟨.readEnd, .loadReadEndId⟩
  | lockReadEnd _ => ⟨.readEnd, .acquire .descriptorsUpdated⟩
  | load id _ _ => ⟨.readEnd, .load id 0⟩
  | storeReadEnd _ i b _ => ⟨.readEnd, .storeReadEnd i b⟩
  | unlockReadEnd _ => ⟨.readEnd, .clear .descriptorsUpdated⟩
  | readEndUpdated => ⟨.readEnd, .clear .readEndUpdated⟩
  | writeStartUpdated => ⟨.resolverEventLoop, .testAndSet .writeStartUpdated⟩
  | loadWriteStartId => ⟨.writeStart, .loadWriteStartId⟩
  | lockWriteStart _ => ⟨.writeStart, .acquire .descriptorsUpdated⟩
  | loadWriteStart _ i _ => ⟨.writeStart, .loadWriteStart i⟩
  | store id _ b _ => ⟨.writeStart, .store id 0 b⟩
  | unlockWriteStart _ => ⟨.writeStart, .clear .descriptorsUpdated⟩
  | syncMe id => ⟨.writeStart, .clear (.syncMe id)⟩
  | writeStartAcknowledge => ⟨.writeStart, .clear .writeStartAcknowledge⟩

/-- The next descriptor is resolved, or the read-end command is looked for. -/
def sweep : List ℕ → Resolver → Place
  | [], s => if s.readendCommandQueued then readEndAcknowledge else writeStartUpdated
  | id :: is, _ => readAck id is

/-- The next byte is copied to the REST layer. -/
def copying (id : ℕ) : List ℕ → Place
  | [] => unlockReadEnd id
  | i :: is => load id i is

/-- The next byte is copied from the REST layer. -/
def filling (id : ℕ) : List ℕ → Place
  | [] => unlockWriteStart id
  | i :: is => loadWriteStart id i is

/-- **What the resolver does with an answer.** -/
def next (D : DescriptorHelper) :
    (p : Place) → p.op.Answer → Resolver → Next Place Resolver ErrorCode
  | triggerResolve, true, s => .goes (sweep [] s) s
  | triggerResolve, false, s => .goes (sweep D.ids s) s
  | readAck id is, true, s => .goes (writeAck id is) s
  | readAck id is, false, s => .goes (readFault id is) s
  | readFault id is, true, s => .goes (readEndId id is) s
  | readFault _ _, false, s => .stops .serviceInterruptedByComShutdown s
  | readEndId id is, _, s => .goes (writeAck id is) { s with readendCommandQueued := true }
  | writeAck _ is, true, s => .goes (sweep is s) s
  | writeAck id is, false, s => .goes (writeFault id is) s
  | writeFault id is, true, s => .goes (writeEndId id is) s
  | writeFault _ _, false, s => .stops .objectWriteCanceledByIncomingRead s
  | writeEndId id is, _, s =>
    let s' := { s with
      writendCommandQueued := true
      pendingWriteRequest := Function.update s.pendingWriteRequest id false }
    .goes (sweep is s') s'
  | readEndAcknowledge, _, s => .goes loadReadEndId s
  | loadReadEndId, id, s => .goes (if id < numIds then lockReadEnd id else readEndUpdated) s
  | lockReadEnd id, _, s => .goes (copying id (List.range (D.objSize id))) s
  | load id i is, b, s => .goes (storeReadEnd id i b is) s
  | storeReadEnd id _ _ is, _, s => .goes (copying id is) s
  | unlockReadEnd _, _, s => .goes readEndUpdated s
  | readEndUpdated, _, s => .goes writeStartUpdated { s with readendCommandQueued := false }
  | writeStartUpdated, true, s => .goes triggerResolve s
  | writeStartUpdated, false, s => .goes loadWriteStartId s
  | loadWriteStartId, id, s =>
    if id < numIds then
      if s.pendingWriteRequest id then .stops .pendingWriteRequest { s with id := id }
      else .goes (lockWriteStart id) { s with id := id }
    else .stops .illegalWriteStartId { s with id := id }
  | lockWriteStart id, _, s => .goes (filling id (List.range (D.objSize id))) s
  | loadWriteStart id i is, b, s => .goes (store id i b is) s
  | store id _ _ is, _, s => .goes (filling id is) s
  | unlockWriteStart id, _, s => .goes (syncMe id) { s with
      pendingWriteRequest := Function.update s.pendingWriteRequest id true }
  | syncMe _, _, s => .goes writeStartAcknowledge s
  | writeStartAcknowledge, _, s => .goes triggerResolve s

/-- What is known of the private state at a place: the descriptors are in the table, the
read-end command is queued, a write start is of an object without a request. -/
def valid (D : DescriptorHelper) (s : Resolver) : Place → Prop
  | readAck id is | readFault id is | readEndId id is => ∀ i ∈ id :: is, i < D.count
  | writeAck id is | writeFault id is | writeEndId id is => ∀ i ∈ id :: is, i < D.count
  | readEndAcknowledge | loadReadEndId | lockReadEnd _ => s.readendCommandQueued = true
  | load _ _ _ | storeReadEnd _ _ _ _ => s.readendCommandQueued = true
  | unlockReadEnd _ | readEndUpdated => s.readendCommandQueued = true
  | lockWriteStart id | unlockWriteStart id => s.pendingWriteRequest id = false
  | loadWriteStart id i is => s.pendingWriteRequest id = false ∧ ∀ j ∈ i :: is, j < D.objSize id
  | store id _ _ is => s.pendingWriteRequest id = false ∧ ∀ j ∈ is, j < D.objSize id
  | _ => True

end Place

/-- **The chart of a round.** -/
def round (D : DescriptorHelper) : Chart Resolver ErrorCode Op.Answer Place where
  op := Place.op
  next := Place.next D
  valid p s := p.valid D s

/-- What follows the id of a write start: the resolver goes on if it is accepted. -/
theorem holds_loadWriteStartId (D : DescriptorHelper) {H : Type}
    {ρ : Rules Resolver ErrorCode Op.Answer H} {Φ : Place → Resolver → H → Prop}
    {s : Resolver} {id : ℕ} {h : H}
    (haccept : id < numIds → s.pendingWriteRequest id = false →
      Φ (.lockWriteStart id) { s with id := id } h)
    (hstop : ¬ (id < numIds ∧ s.pendingWriteRequest id = false) → ∀ e s, ρ.error s e h) :
    ((round D).next .loadWriteStartId id s).Holds ρ Φ h := by
  show Next.Holds ρ Φ (if id < numIds then
    if s.pendingWriteRequest id then .stops .pendingWriteRequest { s with id := id }
    else .goes (.lockWriteStart id) { s with id := id }
    else .stops .illegalWriteStartId { s with id := id }) h
  split
  case isFalse hlt => exact hstop (fun hf => hlt hf.1) _ _
  case isTrue hlt =>
    split
    case isTrue hp => exact hstop (fun hf => absurd (hf.2.symm.trans hp) (by decide)) _ _
    case isFalse hp => exact haccept hlt (by simpa using hp)

/-! ## The code takes its way through the chart -/

variable {s : Resolver} {id : ℕ} {is : List ℕ} {last : Resolver → Place}
  {rest : Unit → Resolver → Prog Resolver ErrorCode Op.Answer Unit}

theorem resolveRead_charted (hids : ∀ i ∈ id :: is, i < D.count) :
    Charted (round D) (fun _ => .writeAck id is) (.goes (.readAck id is) s)
      ((resolveRead id).run s) := by
  refine .op hids fun a => ?_
  cases a with
  | true => exact .ret
  | false =>
    refine .op hids fun a => ?_
    cases a with
    | true => exact .op hids fun _ => .ret
    | false => exact .fail

theorem resolveWrite_charted (hids : ∀ i ∈ id :: is, i < D.count) :
    Charted (round D) (Place.sweep is) (.goes (.writeAck id is) s) ((resolveWrite id).run s) := by
  refine .op hids fun a => ?_
  cases a with
  | true => exact .ret
  | false =>
    refine .op hids fun a => ?_
    cases a with
    | true => exact .op hids fun _ => .ret
    | false => exact .fail

/-- The loop over the descriptors. -/
theorem resolveAll_charted (his : ∀ i ∈ is, i < D.count) :
    Charted (round D) (Place.sweep []) (.goes (Place.sweep is s) s) ((resolveAll is).run s) := by
  induction is generalizing s with
  | nil => exact .ret
  | cons id is ih =>
    have hresolve : Charted (round D) (Place.sweep is) (.goes (.readAck id is) s)
        ((resolve id).run s) :=
      (resolveRead_charted his).bind fun _ => resolveWrite_charted his
    exact hresolve.bind fun _ => ih fun i hi => his i (List.mem_cons_of_mem _ hi)

/-- The loop that copies an object that has been received, and what comes next. -/
theorem copyReadEnd_charted (hs : s.readendCommandQueued = true)
    (hrest : Charted (round D) last (.goes (.unlockReadEnd id) s) (rest () s)) :
    Charted (round D) last (.goes (Place.copying id is) s)
      (((copyReadEnd id is).run s).bind rest) := by
  induction is with
  | nil => exact hrest
  | cons i is ih => exact .op hs fun b => .op hs fun _ => ih

/-- The read-end command. -/
theorem readEnd_charted (hs : s.readendCommandQueued = true) :
    Charted (round D) (fun _ => .writeStartUpdated) (.goes .readEndAcknowledge s)
      ((readEnd D).run s) := by
  have hlast : Charted (round D) (fun _ => .writeStartUpdated) (.goes .readEndUpdated s) ((do
      clear .readEnd .readEndUpdated
      change fun s => { s with readendCommandQueued := false } : Resolve Unit).run s) :=
    .op hs fun _ => .ret
  refine .op hs fun _ => .op hs fun (id : ℕ) => ?_
  show Charted _ _ (.goes (if id < numIds then Place.lockReadEnd id else Place.readEndUpdated) s)
    ((if id < numIds then _ else _ : Resolve Unit).run s)
  split
  case isFalse => exact hlast
  case isTrue => exact .op hs fun _ => copyReadEnd_charted hs (.op hs fun _ => hlast)

/-- The loop that copies the bytes of a write-start command, and what comes next. -/
theorem copyWriteStart_charted (hs : s.pendingWriteRequest id = false)
    (his : ∀ i ∈ is, i < D.objSize id)
    (hrest : Charted (round D) last (.goes (.unlockWriteStart id) s) (rest () s)) :
    Charted (round D) last (.goes (Place.filling id is) s)
      (((copyWriteStart id is).run s).bind rest) := by
  induction is with
  | nil => exact hrest
  | cons i is ih =>
    have his' : ∀ j ∈ is, j < D.objSize id := fun j hj => his j (List.mem_cons_of_mem _ hj)
    exact .op ⟨hs, his⟩ fun b => .op ⟨hs, his'⟩ fun _ => ih his'

/-- The write-start command. -/
theorem writeStart_charted :
    Charted (round D) (fun _ => .triggerResolve) (.goes .loadWriteStartId s)
      ((writeStart D).run s) := by
  refine .op trivial fun (id : ℕ) => ?_
  show Charted _ _ (if id < numIds then
      if s.pendingWriteRequest id then .stops .pendingWriteRequest { s with id := id }
      else .goes (Place.lockWriteStart id) { s with id := id }
    else .stops .illegalWriteStartId { s with id := id })
    ((if id < numIds then _ else _ : Resolve Unit).run { s with id := id })
  split
  case isFalse => exact .fail
  case isTrue =>
    show Charted _ _ _ ((if !s.pendingWriteRequest id then _ else _ : Resolve Unit).run _)
    cases hp : s.pendingWriteRequest id with
    | true => exact .fail
    | false =>
      exact .op hp fun _ => copyWriteStart_charted hp (fun i => List.mem_range.mp)
        (.op hp fun _ => .op trivial fun _ => .op trivial fun _ => .ret)

/-- **The resolver takes its way through the chart.** -/
theorem resolverEventLoop_charted (s : Resolver) :
    Charted (round D) (fun _ => .triggerResolve) (.goes .triggerResolve s)
      ((resolverEventLoop D).run s) := by
  have hstart : ∀ s, Charted (round D) (fun _ => .triggerResolve) (.goes .writeStartUpdated s) ((do
      if !(← testAndSet .resolverEventLoop .writeStartUpdated) then
        writeStart D : Resolve Unit).run s) := by
    refine fun s => .op trivial fun a => ?_
    cases a with
    | true => exact .ret
    | false => exact writeStart_charted
  have hend : ∀ s, Charted (round D) (fun _ => .triggerResolve) (.goes (Place.sweep [] s) s) ((do
      if ← look Resolver.readendCommandQueued then
        readEnd D
      if !(← testAndSet .resolverEventLoop .writeStartUpdated) then
        writeStart D : Resolve Unit).run s) := by
    intro s
    show Charted _ _ (.goes (if s.readendCommandQueued then Place.readEndAcknowledge
      else Place.writeStartUpdated) s)
      ((if s.readendCommandQueued then _ else _ : Resolve Unit).run s)
    split
    case isTrue hs => exact (readEnd_charted hs).bind hstart
    case isFalse => exact hstart s
  refine .op trivial fun a => ?_
  cases a with
  | true => exact hend s
  | false =>
    exact (resolveAll_charted fun i => DescriptorHelper.mem_ids.mp).bind hend

end SOS
