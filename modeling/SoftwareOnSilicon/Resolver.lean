import SoftwareOnSilicon.Link

/-!
# `SequentialResolverDSP`

The resolver is the thread between an endpoint and the REST layer. It turns
the flags of the switch board into messages for the REST layer (`resolve`,
`readEnd`), and a write-start command of the REST layer into a write request:
it copies the bytes into the object and clears `sync_me` (`writeStart`).

Both copies address the object by `*reinterpret_cast<unsigned char*>(obj)`,
without the index of the loop, so that every byte is read from and written to
the first one of the object.

An end is the pool of its two threads, `process`; the peer and the REST layer
are its environment.
-/

namespace SOS

open Interleaving Code

/-- **The members of the resolver**, and the local variable `id`. What
`runtime_error` keeps from being counted, `objectReadsCanceled` and
`objectWritesCanceled`, is left out. -/
structure Resolver where
  id : ℕ := numIds
  readendCommandQueued : Bool := false
  writendCommandQueued : Bool := false
  pendingWriteRequest : ℕ → Bool := fun _ => false

/-- Code of the resolver thread. -/
abbrev Resolve (α : Type) : Type := Code Resolver ErrorCode Op.Answer α

/-! ## The functions -/

/-- The first half of `resolve`: an object has been received, or its receive has
been interrupted. -/
def resolveRead (id : ℕ) : Resolve Unit := do
  if !(← testAndSet .resolve (.readAck id)) then
    if ← testAndSet .resolve (.readFault id) then
      access .resolve (.storeReadEndId id)
      change fun s => { s with readendCommandQueued := true }
    else
      abort .serviceInterruptedByComShutdown

/-- The second half of `resolve`: an object has been sent, or its write request
has been canceled. -/
def resolveWrite (id : ℕ) : Resolve Unit := do
  if !(← testAndSet .resolve (.writeAck id)) then
    if ← testAndSet .resolve (.writeFault id) then
      access .resolve (.storeWriteEndId id)
      change fun s => { s with
        writendCommandQueued := true
        pendingWriteRequest := Function.update s.pendingWriteRequest id false }
    else
      abort .objectWriteCanceledByIncomingRead

/-- `resolve`. -/
def resolve (id : ℕ) : Resolve Unit := do
  resolveRead id
  resolveWrite id

/-- The loop over the descriptors. -/
def resolveAll : List ℕ → Resolve Unit
  | [] => return ()
  | i :: is => do
    resolve i
    resolveAll is

/-- The loop that copies an object that has been received. -/
def copyReadEnd (id : ℕ) : List ℕ → Resolve Unit
  | [] => return ()
  | i :: is => do
    access .readEnd (.storeReadEnd i (← access .readEnd (.load id 0)))
    copyReadEnd id is

/-- The read-end command. -/
def readEnd (D : DescriptorHelper) : Resolve Unit := do
  acquire .readEnd .readEndAcknowledge
  let id ← access .readEnd .loadReadEndId
  if id < numIds then
    acquire .readEnd .descriptorsUpdated
    copyReadEnd id (List.range (D.objSize id))
    clear .readEnd .descriptorsUpdated
  clear .readEnd .readEndUpdated
  change fun s => { s with readendCommandQueued := false }

/-- The loop that copies the bytes of a write-start command. -/
def copyWriteStart (id : ℕ) : List ℕ → Resolve Unit
  | [] => return ()
  | i :: is => do
    access .writeStart (.store id 0 (← access .writeStart (.loadWriteStart i)))
    copyWriteStart id is

/-- The write-start command. -/
def writeStart (D : DescriptorHelper) : Resolve Unit := do
  let id ← access .writeStart .loadWriteStartId
  change fun s => { s with id := id }
  if id < numIds then
    if !(← look Resolver.pendingWriteRequest) id then
      acquire .writeStart .descriptorsUpdated
      copyWriteStart id (List.range (D.objSize id))
      clear .writeStart .descriptorsUpdated
      change fun s => { s with
        pendingWriteRequest := Function.update s.pendingWriteRequest id true }
      clear .writeStart (.syncMe id)
    else
      abort .pendingWriteRequest
  else
    abort .illegalWriteStartId
  clear .writeStart .writeStartAcknowledge

/-- `event_loop` of the resolver. -/
def resolverEventLoop (D : DescriptorHelper) : Resolve Unit := do
  if !(← testAndSet .resolverEventLoop .triggerResolve) then
    resolveAll D.ids
  if ← look Resolver.readendCommandQueued then
    readEnd D
  if !(← testAndSet .resolverEventLoop .writeStartUpdated) then
    writeStart D

/-! ## The two threads of an end -/

/-- The threads of an end. -/
inductive Worker where
  | communication
  | resolver
  deriving DecidableEq, Repr

instance : Fintype Worker where
  elems := {.communication, .resolver}
  complete t := by cases t <;> decide

/-- The private state of each. -/
abbrev Worker.Private : Worker → Type
  | .communication => Endpoint
  | .resolver => Resolver

/-- **The pool of the two threads of an end.** -/
def process (D : DescriptorHelper) (r : Role) :
    Pool Worker Worker.Private ErrorCode Op.Answer World where
  exec _ o w := World.exec r o.access w
  loop
    | .communication, s => (eventLoop D r).run s
    | .resolver, s => (resolverEventLoop D).run s

/-- Both processes have been started. -/
def process.start (D : DescriptorHelper) (r : Role) (obj : Role → ℕ → ℕ → Byte) :
    (process D r).State where
  world := World.start obj
  thread
    | .communication => .ret {} ()
    | .resolver => .ret {} ()

end SOS
