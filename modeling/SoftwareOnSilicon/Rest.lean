import SoftwareOnSilicon.Commands

/-!
# The REST layer

`REST::event_loop` takes the read ends the resolver announces: it looks whether
`read_end_updated` is cleared, reads the id, notes that the object has been read, and
acknowledges the read end. `service` is an end together with its REST layer.
-/

namespace SOS

open Interleaving Code

/-- **The members of the REST layer**: `read_status`. -/
structure Rest where
  result : ℕ → Bool := fun _ => true
  /-- `read_status[id].ready`, which the constructor sets. -/
  ready : ℕ → Bool := fun _ => true

namespace Rest

/-- What `event_loop` notes of a read end. -/
def readEnd (id : ℕ) (s : Rest) : Rest :=
  { s with
    result := Function.update s.result id true
    ready := Function.update s.ready id false }

/-- `read_event`: its answer, and the members. Whatever the id is, it is `read_status[0]` that
is asked. -/
def readEvent (_id : ℕ) (s : Rest) : Bool × Rest :=
  (!s.ready 0, { s with ready := Function.update s.ready 0 true })

/-- `read_success`, which asks `read_status[0]` too. -/
def readSuccess (_id : ℕ) (s : Rest) : Bool := s.result 0

end Rest

/-- `event_loop` of the REST layer. -/
def restEventLoop : Code Rest ErrorCode Op.Answer Unit := do
  if !(← testAndSet .restEventLoop .readEndUpdated) then
    let id ← access .restEventLoop .loadReadEndId
    if id < numIds then
      change (Rest.readEnd id)
    else
      abort .illegalReadEndId
    clear .restEventLoop .readEndAcknowledge

/-! ## The three threads of an end -/

/-- The threads of an end, that of the REST layer among them. -/
inductive Server where
  | communication
  | resolver
  | rest
  deriving DecidableEq, Repr

instance : Fintype Server where
  elems := {.communication, .resolver, .rest}
  complete t := by cases t <;> decide

/-- The private state of each. -/
abbrev Server.Private : Server → Type
  | .communication => Endpoint
  | .resolver => Resolver
  | .rest => Rest

/-- **The pool of the three threads of an end.** -/
def service (D : DescriptorHelper) (r : Role) :
    Pool Server Server.Private ErrorCode Op.Answer World where
  exec _ o w := World.exec r o.access w
  loop
    | .communication, s => (eventLoop D r).run s
    | .resolver, s => (resolverEventLoop D).run s
    | .rest, s => restEventLoop.run s

/-- Both processes have been started. -/
def service.start (D : DescriptorHelper) (r : Role) (obj : Role → ℕ → ℕ → Byte) :
    (service D r).State where
  world := World.start obj
  thread
    | .communication => .ret {} ()
    | .resolver => .ret {} ()
    | .rest => .ret {} ()

end SOS
