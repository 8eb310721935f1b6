import SoftwareOnSilicon.Link
import SoftwareOnSilicon.Replay

/-!
# Schedules of the link

A run of the link can be computed from a schedule that says which end goes on,
and when a write request or a stop request is passed on to one of them.
-/

namespace SOS

open Interleaving

variable {D : DescriptorHelper} {r : Role}

/-- What happens to the link from outside. -/
inductive Event where
  /-- A write request of an object is passed on. -/
  | writeRequest (r : Role) (j : ℕ)
  /-- The communication is to end. -/
  | stopRequest (r : Role)

namespace Event

/-- What an event does to the world. -/
def act : Event → World → World
  | .writeRequest r j, w => w.setBoard r ((w.board r).setFlag (.syncMe j) false)
  | .stopRequest r, w => w.setBoard r { w.board r with notified := true }

/-- A write request clears one flag. -/
theorem writeRequest_flag {w : World} {j i : ℕ} {r' : Role} :
    (((writeRequest r j).act w).board r').flag (.syncMe i)
      = if r' = r ∧ i = j then false else (w.board r').flag (.syncMe i) := by
  by_cases hr : r' = r
  · subst hr
    by_cases hi : i = j <;> simp [act, Board.setFlag, hi]
  · simp [act, World.setBoard_of_ne _ hr, hr]

/-- A stop request clears none. -/
theorem stopRequest_flag {w : World} {f : Flag} {r' : Role} :
    (((stopRequest r).act w).board r').flag f = (w.board r').flag f := by
  by_cases hr : r' = r
  · subst hr
    simp [act]
  · simp [act, World.setBoard_of_ne _ hr]

end Event

/-- Whether a thread is between two cycles. -/
def between (p : Prog Endpoint ErrorCode Op.Answer Unit) : Bool :=
  match p with
  | .ret _ _ => true
  | .fail _ _ => false
  | .op _ o _ => o.access = .handshake

theorem between_spec {p : Prog Endpoint ErrorCode Op.Answer Unit} (h : between p = true) :
    Between p p.state := by
  cases p with
  | ret s x => exact .inl rfl
  | fail s e => cases h
  | op s o k =>
    obtain ⟨site, a⟩ := o
    obtain rfl : a = .handshake := of_decide_eq_true h
    exact .inr ⟨site, k, rfl⟩

/-- **Replays of the link**: under which events, and where. -/
def script (D : DescriptorHelper) (may : Event → (link D).State → Bool)
    (check : (link D).State → Bool) : (link D).Script Event where
  act := Event.act
  may := may
  check := check

/-- So many rounds: each end runs a cycle. -/
def rounds (n : ℕ) : List (Pool.Entry Role Event) :=
  (List.replicate n [.go .fpga 1000, .go .mcu 1000]).flatten

/-- A table of two objects, of one group each. -/
def twoObjects : DescriptorHelper := .ofSizes [3, 3] (by decide)

theorem twoObjects_triples : twoObjects.Triples := by
  have key : ∀ j : Fin 2, 0 < twoObjects.objSize j ∧ 3 ∣ twoObjects.objSize j := by decide
  exact fun j hj => key ⟨j, hj⟩

/-- The link of the two objects, their bytes all zero. -/
def twoObjects.start : (link twoObjects).State := link.start twoObjects fun _ _ _ => 0

end SOS
