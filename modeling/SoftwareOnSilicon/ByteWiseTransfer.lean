import SoftwareOnSilicon.Endpoint

/-!
# `SyncProcessor` and `BlockWiseTransfer`

The functions of `ByteWiseTransfer.hpp`. `SyncProcessor` signals the resolver
through the flags of the switch board; `BlockWiseTransfer` cuts an object
into symbols and puts symbols together into an object, one symbol per call.

The parts that only touch members are functions on `Endpoint`; the parts that
access the board are code. The switches `read_op` and `write_op` are set and
cleared by the source but read nowhere, and are left out.
-/

namespace SOS

open Interleaving Code

section Accesses

variable {S : Type}

/-- `flag.test_and_set()`. -/
def testAndSet (site : Site) (f : Flag) : Code S ErrorCode Op.Answer Bool :=
  perform (A := Op.Answer) ⟨site, .testAndSet f⟩

/-- `flag.clear()`. -/
def clear (site : Site) (f : Flag) : Code S ErrorCode Op.Answer Unit :=
  perform (A := Op.Answer) ⟨site, .clear f⟩

/-- `while (flag.test_and_set()) yield();`. -/
def acquire (site : Site) (f : Flag) : Code S ErrorCode Op.Answer Unit :=
  perform (A := Op.Answer) ⟨site, .acquire f⟩

/-- Any other access. -/
def access (site : Site) (a : Access) : Code S ErrorCode Op.Answer a.Answer :=
  perform (A := Op.Answer) ⟨site, a⟩

variable {H : Type} {ρ : Rules S ErrorCode Op.Answer H} {s : S} {h : H} {site : Site}

theorem safe_testAndSet {f : Flag} {Q : S → Bool → H → Prop} :
    ((testAndSet site f).run s).Safe ρ Q h ↔ ρ.node s ⟨site, .testAndSet f⟩ h ∧
      ∀ (a : Bool) h', ρ.step s ⟨site, .testAndSet f⟩ a h h' → Q s a h' := Iff.rfl

theorem safe_access {a : Access} {Q : S → a.Answer → H → Prop} :
    ((access site a).run s).Safe ρ Q h ↔ ρ.node s ⟨site, a⟩ h ∧
      ∀ (x : a.Answer) h', ρ.step s ⟨site, a⟩ x h h' → Q s x h' := Iff.rfl

end Accesses

/-! ## `SyncProcessor` -/

/-- `check_sync`: peek at the flag and put it back. -/
def checkSync (site : Site) (objId : ℕ) : Comm Bool := do
  if !(← testAndSet site (.syncMe objId)) then
    clear site (.syncMe objId)
    return true
  return false

/-- `emit_init`. What it copies is the descriptor table, which is a parameter
of everything below: nothing reads the copy before this. -/
def emitInit : Comm Unit := do
  acquire .emitInit .descriptorsUpdated
  clear .emitInit .descriptorsUpdated

/-- `read_started_id[objId] = b`. The bit is changed in a copy of the word, and the
copy is written back. -/
def assignStarted {S : Type} (site : Site) (objId : ℕ) (b : Bool) :
    Code S ErrorCode Op.Answer Unit := do
  let m ← access site (.loadStartedWord objId)
  access site (.storeStarted objId b m)

/-- `emit_interrupted`, for the ids of the switch board. It runs in whichever
thread calls `stop_notifier`. -/
def emitInterrupted {S : Type} : List ℕ → Code S ErrorCode Op.Answer Unit
  | [] => return ()
  | i :: is => do
    if ← access .emitInterrupted (.loadStarted i) then
      clear .emitInterrupted (.readFault i)
      clear .emitInterrupted (.readAck i)
      assignStarted .emitInterrupted i false
    emitInterrupted is

/-- `emit_readlocked`: a write request of the same object is canceled. -/
def emitReadlocked (objId : ℕ) : Comm Unit := do
  if !(← testAndSet .emitReadlocked (.syncMe objId)) then
    clear .emitReadlocked (.writeFault objId)
    clear .emitReadlocked (.writeAck objId)
  assignStarted .emitReadlocked objId true

/-- `emit_transfer`. -/
def emitTransfer (objId : ℕ) : Comm Unit := do
  let _ ← testAndSet .emitTransfer (.syncMe objId)

/-- `emit_received`. -/
def emitReceived (objId : ℕ) : Comm Unit := do
  assignStarted .emitReceived objId false
  clear .emitReceived (.readAck objId)

/-- `emit_sent`. -/
def emitSent (objId : ℕ) : Comm Unit := do
  clear .emitSent (.writeAck objId)

/-- `trigger_resolve`. -/
def triggerResolve : Comm Unit := do
  clear .triggerResolve .triggerResolve

/-! ### The operations of each -/

section Interrupting

variable {S H : Type} {ρ : Rules S ErrorCode Op.Answer H} {s : S} {h : H}

theorem safe_assignStarted {Q : S → Unit → H → Prop} {site : Site} {j : ℕ} {b : Bool}
    (hnode : ρ.node s ⟨site, .loadStartedWord j⟩ h)
    (hQ : ∀ (m : BitVec numIds) h', ρ.step s ⟨site, .loadStartedWord j⟩ m h h' →
      ρ.node s ⟨site, .storeStarted j b m⟩ h'
      ∧ ∀ (x : Unit) h'', ρ.step s ⟨site, .storeStarted j b m⟩ x h' h'' → Q s () h'') :
    ((assignStarted site j b).run s).Safe ρ Q h := by
  rw [assignStarted, run_bind, Prog.safe_bind]
  exact ⟨hnode, fun m h' hm => hQ m h' hm⟩

/-- The loop of `emit_interrupted`: what one object keeps, all of them keep. -/
theorem safe_emitInterrupted {Q : S → Unit → H → Prop} {Ψ : H → Prop} {is : List ℕ}
    (hstarted : ∀ i h, Ψ h → ρ.node s ⟨.emitInterrupted, .loadStarted i⟩ h
      ∧ (∀ h', ρ.step s ⟨.emitInterrupted, .loadStarted i⟩ false h h' → Ψ h')
      ∧ ∀ h', ρ.step s ⟨.emitInterrupted, .loadStarted i⟩ true h h' →
        ((do
          clear .emitInterrupted (.readFault i)
          clear .emitInterrupted (.readAck i)
          assignStarted .emitInterrupted i false : Code S ErrorCode Op.Answer Unit).run
            s).Safe ρ (fun s' _ h'' => s' = s ∧ Ψ h'') h')
    (hΨ : Ψ h) (hQ : ∀ h', Ψ h' → Q s () h') : ((emitInterrupted is).run s).Safe ρ Q h := by
  induction is generalizing h with
  | nil => exact hQ h hΨ
  | cons i is ih =>
    obtain ⟨hnode, hfalse, htrue⟩ := hstarted i h hΨ
    rw [emitInterrupted, run_bind, Prog.safe_bind, safe_access]
    refine ⟨hnode, fun started h' hstep => ?_⟩
    cases started with
    | false => simpa [Prog.bind] using ih (hfalse h' hstep)
    | true =>
      obtain ⟨hfault, hafter⟩ := htrue h' hstep
      simp only [if_true, run_bind, Prog.safe_bind]
      refine ⟨hfault, fun x h₁ hx => ?_⟩
      obtain ⟨hack, hafter⟩ := hafter x h₁ hx
      refine ⟨hack, fun y h₂ hy => ?_⟩
      refine (hafter y h₂ hy).imp ?_
      rintro s' _ h₃ ⟨rfl, hΨ⟩
      exact ih hΨ

end Interrupting

section Operations

variable {H : Type} {ρ : Rules Endpoint ErrorCode Op.Answer H} {s : Endpoint} {h : H}
  {site : Site} {j : ℕ}

theorem safe_checkSync {Q : Endpoint → Bool → H → Prop}
    (hnode : ρ.node s ⟨site, .testAndSet (.syncMe j)⟩ h)
    (hset : ∀ h', ρ.step s ⟨site, .testAndSet (.syncMe j)⟩ true h h' → Q s false h')
    (hclear : ∀ h', ρ.step s ⟨site, .testAndSet (.syncMe j)⟩ false h h' →
      ρ.node s ⟨site, .clear (.syncMe j)⟩ h'
      ∧ ∀ (x : Unit) h'', ρ.step s ⟨site, .clear (.syncMe j)⟩ x h' h'' → Q s true h'') :
    ((checkSync site j).run s).Safe ρ Q h := by
  rw [checkSync, run_bind, Prog.safe_bind, safe_testAndSet]
  refine ⟨hnode, fun a h' ha => ?_⟩
  cases a with
  | true => simpa using hset h' ha
  | false =>
    simp only [Bool.not_false, if_true, run_bind, Prog.safe_bind, run_pure]
    exact hclear h' ha

theorem safe_emitReadlocked {Q : Endpoint → Unit → H → Prop}
    (hnode : ρ.node s ⟨.emitReadlocked, .testAndSet (.syncMe j)⟩ h)
    (hset : ∀ h', ρ.step s ⟨.emitReadlocked, .testAndSet (.syncMe j)⟩ true h h' →
      ((assignStarted .emitReadlocked j true).run s).Safe ρ Q h')
    (hclear : ∀ h', ρ.step s ⟨.emitReadlocked, .testAndSet (.syncMe j)⟩ false h h' →
      ρ.node s ⟨.emitReadlocked, .clear (.writeFault j)⟩ h'
      ∧ ∀ (x : Unit) h'', ρ.step s ⟨.emitReadlocked, .clear (.writeFault j)⟩ x h' h'' →
        ρ.node s ⟨.emitReadlocked, .clear (.writeAck j)⟩ h''
        ∧ ∀ (y : Unit) h₃, ρ.step s ⟨.emitReadlocked, .clear (.writeAck j)⟩ y h'' h₃ →
          ((assignStarted .emitReadlocked j true).run s).Safe ρ Q h₃) :
    ((emitReadlocked j).run s).Safe ρ Q h := by
  rw [emitReadlocked, run_bind, Prog.safe_bind, safe_testAndSet]
  refine ⟨hnode, fun a h' ha => ?_⟩
  cases a with
  | true => simpa using hset h' ha
  | false =>
    simp only [Bool.not_false, if_true, run_bind, Prog.safe_bind]
    exact hclear h' ha

theorem safe_emitTransfer {Q : Endpoint → Unit → H → Prop}
    (hnode : ρ.node s ⟨.emitTransfer, .testAndSet (.syncMe j)⟩ h)
    (hQ : ∀ (a : Bool) h', ρ.step s ⟨.emitTransfer, .testAndSet (.syncMe j)⟩ a h h' →
      Q s () h') : ((emitTransfer j).run s).Safe ρ Q h := by
  rw [emitTransfer, run_bind, Prog.safe_bind, safe_testAndSet]
  exact ⟨hnode, fun a h' ha => hQ a h' ha⟩

theorem safe_emitReceived {Q : Endpoint → Unit → H → Prop}
    (hmark : ((assignStarted .emitReceived j false).run s).Safe ρ (fun s' _ h' =>
      ρ.node s' ⟨.emitReceived, .clear (.readAck j)⟩ h'
      ∧ ∀ (y : Unit) h'', ρ.step s' ⟨.emitReceived, .clear (.readAck j)⟩ y h' h'' →
        Q s' () h'') h) : ((emitReceived j).run s).Safe ρ Q h := by
  rw [emitReceived, run_bind, Prog.safe_bind]
  exact hmark

theorem safe_emitSent {Q : Endpoint → Unit → H → Prop}
    (hnode : ρ.node s ⟨.emitSent, .clear (.writeAck j)⟩ h)
    (hQ : ∀ (x : Unit) h', ρ.step s ⟨.emitSent, .clear (.writeAck j)⟩ x h h' → Q s () h') :
    ((emitSent j).run s).Safe ρ Q h :=
  ⟨hnode, fun x h' hx => hQ x h' hx⟩

end Operations

/-! ## `BlockWiseTransfer` -/

namespace Endpoint

/-- `write_bits` of the crossover. -/
def writeBits (s : Endpoint) (out : Byte) : Byte :=
  stamp s.ownUpdated s.peerAcknowledge out

/-- `write_byte`, for an out buffer of one byte. -/
def writeByte (byte : Byte) (s : Endpoint) : Endpoint := { s with comOut := byte }

/-- `write`: emit the symbol the byte completes. -/
def write (w : Byte) (s : Endpoint) : Endpoint :=
  match s.writeCount with
  | 0 =>
    let (assembly, out) := writeAssemble s.writeAssembly s.writeCount w
    { s with writeAssembly := assembly, writeCount := s.writeCount + 1 }.writeByte
      (s.writeBits out)
  | 1 | 2 =>
    let (assembly, out) := writeAssemble s.writeAssembly s.writeCount w
    { s with writeAssembly := assembly, writeCount := s.writeCount + 1 }.writeByte
      (writeRecover assembly s.writeCount (s.writeBits out))
  | 3 =>
    { s with writeCount := 0 }.writeByte
      (writeRecover s.writeAssembly s.writeCount (s.writeBits 0))
  | _ => s.writeByte 0

/-- `read`: overlay a symbol. -/
def read (r : Byte) (s : Endpoint) : Endpoint :=
  { s with
    readAssembly := readShift s.readAssembly s.readCount (r.setWidth 24)
    readCount :=
      if s.readCount = 0 ∨ s.readCount = 1 ∨ s.readCount = 2 then s.readCount + 1
      else if s.readCount = 3 then 0
      else s.readCount }

end Endpoint

/-- `read_flush`. -/
def readFlush : Comm (List Byte) := do
  match bitsetToBytearray 3 (← look Endpoint.readAssembly) with
  | none => abort .bitsetDoesNotFitIntoChararray
  | some result =>
    change fun s => { s with readAssembly := 0 }
    return result

/-- `write_object`: whether a symbol of an object has been emitted. -/
def writeObject (D : DescriptorHelper) : Comm Bool := do
  if ← look Endpoint.sendLock then
    if (← look Endpoint.write3plus1) < 3 then
      acquire .writeObject .descriptorsUpdated
      let data ← access .writeObject
        (.load (← look Endpoint.writeOrigin) (← look Endpoint.writeOriginPos))
      change fun s => { s with
        writeOriginPos := s.writeOriginPos + 1
        history.fetched := s.history.fetched ++ [data] }
      clear .writeObject .descriptorsUpdated
      change fun s => { s with write3plus1 := s.write3plus1 + 1 }.write data
      change fun s => { s with history.payload := true }
      return true
    else
      if (← look Endpoint.writeOriginPos) = D.objSize (← look Endpoint.writeOrigin) then
        emitSent (← look Endpoint.writeOrigin)
        change fun s => { s with
          transfer := Function.update s.transfer s.writeOrigin false
          sendLock := false
          writeOriginPos := 0
          history.sent := s.history.sent ++ [(s.writeOrigin, s.history.fetched)]
          history.fetched := [] }
      change fun s => { s with write3plus1 := 0 }.write 63 -- the empty write
      change fun s => { s with history.payload := true }
      return true
  return false

/-- The inner loop of `read_object`. -/
def storeBytes : List Byte → Comm Unit
  | [] => return ()
  | b :: bs => do
    access .readObject
      (.store (← look Endpoint.readDestination) (← look Endpoint.readDestinationPos) b)
    change fun s => { s with
      readDestinationPos := s.readDestinationPos + 1
      history.stored := s.history.stored ++ [b] }
    storeBytes bs

/-- The second half of `read_object`: the symbol is for the object that holds
the lock. -/
def assembleSymbol (D : DescriptorHelper) (data : Byte) : Comm Unit := do
  if ← look Endpoint.receiveLock then
    change fun s => { s.read data with history.symbols := s.history.symbols ++ [data] }
    if (← look Endpoint.read4minus1) < 3 then
      change fun s => { s with read4minus1 := s.read4minus1 + 1 }
    else if (← look Endpoint.read4minus1) = 3 then
      let read3bytes ← readFlush
      if (← look Endpoint.readDestinationPos)
          < D.objSize (← look Endpoint.readDestination) then
        acquire .readObject .descriptorsUpdated
        storeBytes read3bytes
        clear .readObject .descriptorsUpdated
      if (← look Endpoint.readDestinationPos)
          = D.objSize (← look Endpoint.readDestination) then
        change fun s => { s with
          readLock := Function.update s.readLock s.readDestination false
          receiveLock := false }
        emitReceived (← look Endpoint.readDestination)
        change fun s => { s with
          readDestinationPos := 0
          history.received := s.history.received ++ [(s.readDestination, s.history.stored)]
          history.stored := []
          history.symbols := [] }
      change fun s => { s with read4minus1 := 0 }
  else
    abort .noIdleReceivedAndNoReceivelockObtained

/-- `read_object`: put a payload symbol where it belongs. -/
def readObject (D : DescriptorHelper) (data : Byte) : Comm Unit := do
  if !(← look Endpoint.receiveLock) then
    match D.ids.find? (← look Endpoint.readLock) with
    | none => pure ()
    | some j =>
      if (← look Endpoint.readDestinationPos) ≠ 0 then
        abort .previousReadobjectHasNotFinished
      change fun s => { s with receiveLock := true, readDestination := j }
  assembleSymbol D data

end SOS
