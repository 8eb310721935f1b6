import SoftwareOnSilicon.Rest
import SoftwareOnSilicon.Since

/-!
# Read events

The REST layer keeps a `ready` flag for each object. Processing a read end clears the
object's flag, and `read_event` is meant to test and set it, so that the read ends of an
object show up in the answers for that object and in no others.

But `read_event` asks the flag of object 0 whichever object it is asked about. `Faithful`
says what was meant, of a history of calls, and `faithful_iff` in which histories that
makes no difference.
-/

namespace SOS

open Interleaving Code

/-- **What the REST layer is called for**: a read end is processed, or `read_event` is
called. -/
inductive ReadCall where
  | readEnd (id : Fin numIds)
  | readEvent (id : ℕ)
  deriving DecidableEq

/-- What is seen of such a call. -/
inductive ReadSeen where
  | readEnd (id : Fin numIds)
  | readEvent (id : ℕ) (answer : Bool)

namespace ReadCall

/-- A read end of an object is processed. -/
def Ends (id : ℕ) (c : ReadCall) : Prop := ∃ j : Fin numIds, c = .readEnd j ∧ j.val = id

/-- `read_event` is called for an object. -/
def Asks (id : ℕ) (c : ReadCall) : Prop := c = .readEvent id

end ReadCall

namespace ReadSeen

/-- A read end of an object is processed. -/
def Ends (id : ℕ) (c : ReadSeen) : Prop := ∃ j : Fin numIds, c = .readEnd j ∧ j.val = id

/-- `read_event` returns true for an object. -/
def Reports (id : ℕ) (c : ReadSeen) : Prop := c = .readEvent id true

end ReadSeen

namespace Rest

/-- One call: the members of the layer, and what has been seen so far. -/
def call (x : Rest × List ReadSeen) : ReadCall → Rest × List ReadSeen
  | .readEnd id => (x.1.readEnd id, x.2 ++ [.readEnd id])
  | .readEvent id => ((x.1.readEvent id).2, x.2 ++ [.readEvent id (x.1.readEvent id).1])

/-- A history of calls, from the members the layer starts with. -/
def after (calls : List ReadCall) : Rest × List ReadSeen := calls.foldl call ({}, [])

theorem after_concat (calls : List ReadCall) (c : ReadCall) :
    after (calls ++ [c]) = call (after calls) c := List.foldl_concat ..

/-- What `read_event` answers after a history. -/
def answer (calls : List ReadCall) (id : ℕ) : Bool := ((after calls).1.readEvent id).1

/-- **Each object has its own read events**: `read_event` returns true if a read end of the
object has been processed since it last did, and only then. -/
def Faithful (calls : List ReadCall) : Prop :=
  Throughout (fun before c => ∀ id, c.Asks id →
    (answer before id = true ↔ Since (ReadSeen.Ends id) (ReadSeen.Reports id) (after before).2))
    calls

/-- Whenever an object is asked about, it has been read since it was last asked about just if
object 0 has been since any object was. -/
def Alike (calls : List ReadCall) : Prop :=
  Throughout (fun before c => ∀ id, c.Asks id →
    (Since (ReadCall.Ends 0) (fun c => ∃ i, c.Asks i) before
      ↔ Since (ReadCall.Ends id) (ReadCall.Asks id) before)) calls

variable {calls : List ReadCall} {id : ℕ}

/-- **What is answered**: whether object 0 has been read since `read_event` was last
called. -/
theorem answer_iff (calls : List ReadCall) (id : ℕ) :
    answer calls id = true ↔ Since (ReadCall.Ends 0) (fun c => ∃ i, c.Asks i) calls := by
  show (!(after calls).1.ready 0) = true ↔ _
  induction calls using List.reverseRecOn with
  | nil => simp [after]
  | append_singleton calls c ih =>
    rw [after_concat, since_concat, ← ih]
    cases c with
    | readEnd j =>
      by_cases hj : j.val = 0
      · simp [call, readEnd, ReadCall.Ends, hj]
      · simp [call, readEnd, ReadCall.Ends, ReadCall.Asks, hj, Function.update_of_ne (Ne.symm hj)]
    | readEvent i => simp [call, readEvent, ReadCall.Ends, ReadCall.Asks]

/-- **As long as the answers are right**, an object that has been read since it was last
reported has been since it was last asked about. -/
theorem Faithful.since_iff (h : Faithful calls) (id : ℕ) :
    Since (ReadSeen.Ends id) (ReadSeen.Reports id) (after calls).2
      ↔ Since (ReadCall.Ends id) (ReadCall.Asks id) calls := by
  induction calls using List.reverseRecOn with
  | nil => simp [after]
  | append_singleton calls c ih =>
    obtain ⟨hcalls, hc⟩ := throughout_concat.mp h
    rw [after_concat]
    cases c with
    | readEnd j =>
      show Since _ _ ((after calls).2 ++ [.readEnd j]) ↔ _
      rw [since_concat, since_concat, ih hcalls]
      simp [ReadSeen.Ends, ReadSeen.Reports, ReadCall.Ends, ReadCall.Asks]
    | readEvent i =>
      show Since _ _ ((after calls).2 ++ [.readEvent i (answer calls i)]) ↔ _
      rw [since_concat, since_concat, ih hcalls]
      by_cases hi : i = id
      · subst hi
        have hanswer := hc i rfl
        rw [ih hcalls] at hanswer
        simp [ReadSeen.Ends, ReadSeen.Reports, ReadCall.Ends, ReadCall.Asks, hanswer]
      · simp [ReadSeen.Ends, ReadSeen.Reports, ReadCall.Ends, ReadCall.Asks, hi]

/-- **When each object has its own read events**: whenever `read_event` is called for an
object, it makes no difference that object 0 is looked at instead. -/
theorem faithful_iff (calls : List ReadCall) : Faithful calls ↔ Alike calls := by
  induction calls using List.reverseRecOn with
  | nil => simp [Faithful, Alike]
  | append_singleton calls c ih =>
    unfold Faithful Alike at ih ⊢
    rw [throughout_concat, throughout_concat, ← ih]
    refine and_congr_right fun hcalls => forall₂_congr fun id _ => ?_
    rw [answer_iff, Faithful.since_iff hcalls]

/-- **An event is kept from its object, and another one is given to it**: the read end of
object 1 is not reported, that of object 0 is reported as one of object 1. -/
theorem read_event_confused :
    ¬ Faithful [.readEnd ⟨1, by decide⟩, .readEvent 1]
      ∧ ¬ Faithful [.readEnd ⟨0, by decide⟩, .readEvent 1] := by
  constructor
  · intro h
    have hlast := h [.readEnd ⟨1, by decide⟩] (.readEvent 1) [] rfl 1 rfl
    have hread : answer [.readEnd ⟨1, by decide⟩] 1 = true :=
      hlast.mpr ⟨[], _, [], rfl, ⟨_, rfl, rfl⟩, by simp⟩
    exact absurd hread (by decide)
  · intro h
    have hlast := h [.readEnd ⟨0, by decide⟩] (.readEvent 1) [] rfl 1 rfl
    obtain ⟨before, x, rest, hsplit, ⟨j, rfl, hj⟩, -⟩ := hlast.mp (by decide)
    have hmem : ReadSeen.readEnd j ∈ [ReadSeen.readEnd ⟨0, by decide⟩] := by
      have hseen : before ++ .readEnd j :: rest = [ReadSeen.readEnd ⟨0, by decide⟩] := hsplit.symm
      rw [← hseen]
      simp
    obtain rfl : j = ⟨0, by decide⟩ := by simpa using hmem
    exact absurd hj (by decide)

end Rest

end SOS
