import SoftwareOnSilicon.Resolver
import SoftwareOnSilicon.Schedule

/-!
# Schedules of an end

A run of one end can be computed from a schedule that says which of its threads goes
on, and when it hears something: a byte of its peer, or a write-start command of the
REST layer.
-/

namespace SOS

open Interleaving

variable {D : DescriptorHelper} {r : Role}

/-- What an end may hear. -/
inductive Command where
  /-- The peer hands over a byte. -/
  | byte (b : Byte)
  /-- `writeStartId` and the bytes of a write-start command, all the same, are put into
  the mailbox. -/
  | writeStart (j : ℕ) (b : Byte)

namespace Command

/-- What it does to the world. -/
def act (r : Role) : Command → World → World
  | .byte b, w => { w with wire := some (r, b) }
  | .writeStart j b, w => w.setBoard r { (w.board r).setFlag .writeStartUpdated false with
      writeStartId := j
      transferWriteStartOut := fun _ => b }

/-- Where it may be heard: the token is with the peer, or the mailbox is empty. -/
def may (r : Role) : Command → World → Bool
  | .byte _, w => w.wire.any fun x => x.1 ≠ r
  | .writeStart _ _, w => (w.board r).flag .writeStartUpdated

end Command

/-- **Replays of an end**, on a condition on the states a step is taken in. -/
def process.script (D : DescriptorHelper) (r : Role) (check : (process D r).State → Bool) :
    (process D r).Script Command where
  act := Command.act r
  may v σ := Command.may r v σ.world
  check := check

/-- An end that has the two objects, their bytes all zero. -/
def twoObjects.process (r : Role) : (process twoObjects r).State :=
  SOS.process.start twoObjects r fun _ _ _ => 0

/-- A table of one object, of two groups. -/
def oneObject : DescriptorHelper := .ofSizes [6] (by decide)

/-- An end that has the one object, its bytes all zero. -/
def oneObject.process (r : Role) : (process oneObject r).State :=
  SOS.process.start oneObject r fun _ _ _ => 0

/-- The peer hands over these bytes, one in each cycle. -/
def hear (bs : List Byte) : List (Pool.Entry Worker Command) :=
  bs.flatMap fun b => [.act (.byte b), .go .communication 60]

end SOS
