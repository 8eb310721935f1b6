import SoftwareOnSilicon.Lift
import SoftwareOnSilicon.Link
import SoftwareOnSilicon.Replay

/-!
# The buses of the two ends and the relay

Each end has a `ComBus` of its own: two flags, the two buffers of one byte, and the
offsets into them. A third thread runs `host_funct` and `client_funct` in turn. It
takes the acknowledge of an end, copies the byte from its out buffer into the in
buffer of the other end, and raises the update of that one.

This is what the handshakes of the link stand for, at the granularity of single
flag operations and byte copies. The functions of a cycle are the same code as
there, among the operations on the buses.
-/

namespace SOS

open Interleaving Code

/-! ## The buses -/

/-- The flags of `HandShake`. -/
inductive ComFlag where
  | updated
  | acknowledge
  deriving DecidableEq, Repr

/-- **The bus of an end**. -/
structure ComBus where
  /-- The flags; `true` is set. -/
  flag : ComFlag → Bool := fun _ => true
  readOffset : ℕ := 0
  writeOffset : ℕ := 0
  inBuffer : ℕ → Byte := fun _ => 0
  outBuffer : ℕ → Byte := fun _ => 0

/-- One access to a bus. -/
inductive ComAccess where
  | testAndSet (f : ComFlag)
  | clear (f : ComFlag)
  | loadReadOffset
  | storeReadOffset (n : ℕ)
  | loadWriteOffset
  | storeWriteOffset (n : ℕ)
  | loadIn (n : ℕ)
  | storeIn (n : ℕ) (b : Byte)
  | loadOut (n : ℕ)
  | storeOut (n : ℕ) (b : Byte)

/-- What an access answers. -/
abbrev ComAccess.Answer : ComAccess → Type
  | .testAndSet _ => Bool
  | .loadReadOffset => ℕ
  | .loadWriteOffset => ℕ
  | .loadIn _ => Byte
  | .loadOut _ => Byte
  | _ => Unit

namespace ComBus

/-- **What an access does to the bus**, with its answer. -/
def exec : (a : ComAccess) → ComBus → a.Answer × ComBus
  | .testAndSet f, c => (c.flag f, { c with flag := Function.update c.flag f true })
  | .clear f, c => ((), { c with flag := Function.update c.flag f false })
  | .loadReadOffset, c => (c.readOffset, c)
  | .storeReadOffset n, c => ((), { c with readOffset := n })
  | .loadWriteOffset, c => (c.writeOffset, c)
  | .storeWriteOffset n, c => ((), { c with writeOffset := n })
  | .loadIn n, c => (c.inBuffer n, c)
  | .storeIn n b, c => ((), { c with inBuffer := Function.update c.inBuffer n b })
  | .loadOut n, c => (c.outBuffer n, c)
  | .storeOut n b, c => ((), { c with outBuffer := Function.update c.outBuffer n b })

end ComBus

/-- An operation on the bus of an end. -/
structure ComOp where
  role : Role
  access : ComAccess

/-- What an operation answers: the accesses to an end's board, and those to the
buses. -/
abbrev LineAnswer : Op ⊕ ComOp → Type := Sum.elim Op.Answer fun o => o.access.Answer

/-- Code of a thread of the line. -/
abbrev LineCode (S α : Type) : Type := Code S ErrorCode LineAnswer α

/-- One access to the bus of an end. -/
def onCom {S : Type} (r : Role) (a : ComAccess) : LineCode S a.Answer :=
  perform (A := LineAnswer) (.inr ⟨r, a⟩)

/-! ## An end -/

/-- `read_byte`. The length it compares with is the distance of the start of the in
buffer from itself. -/
def readByte (r : Role) : LineCode Endpoint Byte := do
  let bufferLength := 0
  if bufferLength < (← onCom r .loadReadOffset) then
    abort .attemptedReadAfterEndOfBuffer
  let next ← onCom r .loadReadOffset
  let byte ← onCom r (.loadIn next)
  if bufferLength ≤ next + 1 then
    onCom r (.storeReadOffset 0)
  else
    onCom r (.storeReadOffset (next + 1))
  return byte

/-- `write_byte`. -/
def writeByte (r : Role) (byte : Byte) : LineCode Endpoint Unit := do
  let bufferLength := 1
  if bufferLength < (← onCom r .loadWriteOffset) then
    abort .attemptedWriteAfterEndOfBuffer
  let next ← onCom r .loadWriteOffset
  onCom r (.storeOut next byte)
  if bufferLength ≤ next + 1 then
    onCom r (.storeWriteOffset 0)
  else
    onCom r (.storeWriteOffset (next + 1))

/-- `handshake`. -/
def handshake (r : Role) : LineCode Endpoint Bool := do
  return !(← onCom r (.testAndSet .updated))

/-- `handshake_ack`. -/
def handshakeAck (r : Role) : LineCode Endpoint Unit := do
  triggerResolve.inl
  onCom r (.clear .acknowledge)

/-- `event_loop`, on the bus. Each way through the `OUT` half writes one byte, after
all of its accesses to the board. -/
def serialEventLoop (D : DescriptorHelper) (r : Role) : LineCode Endpoint Unit := do
  if ← look (Endpoint.handshakeQuery r) then
    if ← handshake r then
      if ← look Endpoint.firstRun then
        emitInit.inl
      else
        let data ← readByte r
        change fun s => { s with comIn := data }
        (receiveByte D r).inl
      (sendByte D r).inl
      writeByte r (← look Endpoint.comOut)
      handshakeAck r

/-! ## The relay -/

/-- The global variable of the relay. -/
structure Relay where
  firstrun : Bool := true

/-- What `host_funct` and `client_funct` do for the byte of an end. -/
def forward (r : Role) : LineCode Relay Unit := do
  if !(← onCom r (.testAndSet .acknowledge)) then
    let b ← onCom r (.loadOut 0)
    onCom r.peer (.storeIn 0 b)
    onCom r.peer (.clear .updated)

/-- `host_funct`. -/
def hostFunct : LineCode Relay Unit := forward .mcu

/-- `client_funct`. -/
def clientFunct : LineCode Relay Unit := do
  if (← look Relay.firstrun) then
    onCom .fpga (.clear .updated) -- flip the first handshake
    change fun s => { s with firstrun := false }
  forward .fpga

/-! ## The three threads -/

/-- The threads of the line. -/
inductive LineThread where
  | communication (r : Role)
  | relay
  deriving DecidableEq, Repr

/-- The private state of each. -/
abbrev LineThread.Private : LineThread → Type
  | .communication _ => Endpoint
  | .relay => Relay

instance : Fintype LineThread where
  elems := {.communication .fpga, .communication .mcu, .relay}
  complete t := by
    rcases t with ⟨_ | _⟩ | _ <;> decide

/-- **What the threads of the line share.** -/
structure LineWorld where
  board : Role → Board
  com : Role → ComBus

namespace LineWorld

/-- Replace the bus of one end. -/
def setCom (w : LineWorld) (r : Role) (c : ComBus) : LineWorld :=
  { w with com := Function.update w.com r c }

@[simp] theorem setCom_self (w : LineWorld) (r : Role) (c : ComBus) :
    (w.setCom r c).com r = c := Function.update_self ..

@[simp] theorem setCom_setCom (w : LineWorld) (r : Role) (c c' : ComBus) :
    (w.setCom r c).setCom r c' = w.setCom r c' := by
  unfold setCom
  simp only [Function.update_idem]

@[simp] theorem setCom_eq_self (w : LineWorld) (r : Role) : w.setCom r (w.com r) = w := by
  unfold setCom
  simp only [Function.update_eq_self]

theorem setCom_of_ne (w : LineWorld) {r r' : Role} (hr : r' ≠ r) (c : ComBus) :
    (w.setCom r c).com r' = w.com r' := Function.update_of_ne hr ..

/-- What an operation of an end does to the world, or one of the relay. -/
def exec : LineThread → (o : Op ⊕ ComOp) → LineWorld → Option (LineAnswer o × LineWorld)
  | .communication r, .inl o, w =>
    (Board.exec o.access (w.board r)).map fun x =>
      (x.1, { w with board := Function.update w.board r x.2 })
  | .relay, .inl _, _ => none
  | _, .inr o, w =>
    some (((w.com o.role).exec o.access).1,
      w.setCom o.role ((w.com o.role).exec o.access).2)

end LineWorld

/-- **The pool of the three threads.** -/
def line (D : DescriptorHelper) :
    Pool LineThread LineThread.Private ErrorCode LineAnswer LineWorld where
  exec := LineWorld.exec
  loop
    | .communication r, s => (serialEventLoop D r).run s
    | .relay, s => (do hostFunct; clientFunct : LineCode Relay Unit).run s

/-- All processes have been started. -/
def line.start (D : DescriptorHelper) (obj : Role → ℕ → ℕ → Byte) : (line D).State where
  world := { board := fun r => Board.initial (obj r), com := fun _ => {} }
  thread
    | .communication _ => .ret {} ()
    | .relay => .ret {} ()

/-- The other threads of an end change its board, and not the buses. -/
def BusesIntact {D : DescriptorHelper} (σ : (line D).State) (w : LineWorld) : Prop :=
  w.com = σ.world.com

end SOS
