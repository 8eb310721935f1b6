import SoftwareOnSilicon.Lift
import SoftwareOnSilicon.Codec
import SoftwareOnSilicon.Rest

/-!
# `REST::write`

A thread of the REST layer hands a value to the resolver: it takes the acknowledge flag,
writes the id and the bytes into the mailbox, and clears the update flag. The resolver takes
them out again and copies them into the object.

Both loops run over the size of the object, and neither of them uses its index on the side of
the object: the first one puts the first byte of the value into every byte of the staging
buffer, the second one puts all of these into the first byte of the object. So the object ends
up with the first byte of the value, and with what it had for the rest (`write_copied_iff`).
-/

namespace SOS

open Interleaving Code

/-- One access of a thread that calls `write`. -/
inductive RestAccess where
  /-- `while (getWriteStartAcknowledgeRef().test_and_set()) yield();`. -/
  | acquireWriteStartAcknowledge
  /-- Write `writeStartId`. -/
  | storeWriteStartId (j : ℕ)
  /-- Write `transferWriteStartOut[i]`. -/
  | storeWriteStart (i : ℕ) (b : Byte)
  /-- `getWriteStartUpdatedRef().clear()`. -/
  | clearWriteStartUpdated
  deriving DecidableEq, Repr

/-- **What an access does to the board**; `none` while it waits. -/
def RestAccess.exec : RestAccess → Board → Option Board
  | .acquireWriteStartAcknowledge, h =>
    if h.flag .writeStartAcknowledge then none else some (h.setFlag .writeStartAcknowledge true)
  | .storeWriteStartId j, h => some { h with writeStartId := j }
  | .storeWriteStart i b, h =>
    some { h with transferWriteStartOut := Function.update h.transferWriteStartOut i b }
  | .clearWriteStartUpdated, h => some (h.setFlag .writeStartUpdated false)

/-- What an operation answers: those of an end, and those of its callers. -/
abbrev MailAnswer : Op ⊕ RestAccess → Type := Sum.elim Op.Answer fun _ => Unit

/-- The arguments of a call of `write`: the template parameter, and the bytes of `writefrom`. -/
structure WriteCall where
  id : ℕ
  value : ℕ → Byte

/-- What is put into byte `i` of the staging buffer: `*&writefrom`, whatever `i` is. -/
def WriteCall.staged (c : WriteCall) (_i : ℕ) : Byte := c.value 0

section Code

variable {S : Type}

/-- One access to the mailbox. -/
def onMail (a : RestAccess) : Code S ErrorCode MailAnswer Unit :=
  perform (A := MailAnswer) (.inr a)

/-- The loop of `write`. -/
def stage (c : WriteCall) : List ℕ → Code S ErrorCode MailAnswer Unit
  | [] => return ()
  | i :: is => do
    onMail (.storeWriteStart i (c.staged i))
    stage c is

/-- `write` of the REST layer. -/
def Rest.write (D : DescriptorHelper) (c : WriteCall) : Code S ErrorCode MailAnswer Unit := do
  onMail .acquireWriteStartAcknowledge
  onMail (.storeWriteStartId c.id)
  stage c (List.range (D.objSize c.id))
  onMail .clearWriteStartUpdated

end Code

/-- The part of the resolver's `event_loop` that takes a value out of the mailbox. -/
def takeWriteStart (D : DescriptorHelper) : Resolve Unit := do
  if !(← testAndSet .resolverEventLoop .writeStartUpdated) then
    writeStart D

/-! ## Undisturbed -/

/-- The memory of an end, as a caller sees it. -/
def mailOnBoard : (o : Op ⊕ RestAccess) → Board → Option (MailAnswer o × Board)
  | .inl o, h => onBoard o h
  | .inr a, h => (a.exec h).map fun h' => ((), h')

variable {D : DescriptorHelper} {c : WriteCall} {h : Board} {S : Type} {s : Resolver} {u : S}

theorem eval_onMail (a : RestAccess) :
    (onMail a).eval mailOnBoard u h = (a.exec h).map fun h' => ((), u, h') := by
  show (mailOnBoard (.inr a) h).bind _ = _
  rw [mailOnBoard, Option.map_eq_bind, Option.map_eq_bind, Option.bind_assoc]
  rfl

/-- The bytes that are staged. -/
theorem eval_stage (js : List ℕ) :
    (stage c js).eval mailOnBoard u h = some ((), u, { h with
      transferWriteStartOut := fun i => if i ∈ js then c.staged i else h.transferWriteStartOut i })
    := by
  induction js generalizing h with
  | nil => simp [stage]
  | cons j js ih =>
    simp only [stage, eval_bind, eval_onMail, RestAccess.exec, Option.map_some,
      Option.bind_some, ih]
    congr 4
    funext i
    by_cases hi : i = j
    · simp [hi]
    · simp [hi]

/-- **What a call leaves in the mailbox.** -/
theorem eval_write (D : DescriptorHelper) (c : WriteCall) (u : S)
    (hfree : h.flag .writeStartAcknowledge = false) :
    (Rest.write D c).eval mailOnBoard u h = some ((), u,
      { (h.setFlag .writeStartAcknowledge true).setFlag .writeStartUpdated false with
        writeStartId := c.id
        transferWriteStartOut := fun i =>
          if i < D.objSize c.id then c.staged i else h.transferWriteStartOut i }) := by
  simp only [Rest.write, eval_bind, eval_onMail, RestAccess.exec, hfree, eval_stage,
    List.mem_range, Bool.false_eq_true, if_false, Option.map_some, Option.bind_some]
  rfl

/-- The bytes that are copied, all of them into the first byte of the object. -/
theorem eval_copyWriteStart {id : ℕ} (js : List ℕ) :
    (copyWriteStart id js).eval onBoard s h = some ((), s, { h with
      obj := Function.update h.obj id (Function.update (h.obj id) 0
        (js.foldl (fun _ i => h.transferWriteStartOut i) (h.obj id 0))) }) := by
  induction js generalizing h with
  | nil => simp [copyWriteStart]
  | cons j js ih =>
    have hload : (access .writeStart (.loadWriteStart j)).eval onBoard s h
        = some (h.transferWriteStartOut j, s, h) := eval_perform ..
    simp only [copyWriteStart, eval_bind, hload, Option.bind_some]
    rw [eval_store]
    simp [ih]

theorem foldl_range_succ (f : ℕ → Byte) (b : Byte) (n : ℕ) :
    (List.range (n + 1)).foldl (fun _ i => f i) b = f n := by
  rw [List.range_succ, List.foldl_append]
  rfl

/-- **What the resolver makes of a write-start**: the last staged byte of the object's size is
the object's first one. -/
theorem eval_takeWriteStart (hupdated : h.flag .writeStartUpdated = false)
    (hid : h.writeStartId < numIds) (hsize : 0 < D.objSize h.writeStartId)
    (hfree : h.flag .descriptorsUpdated = false)
    (hpending : s.pendingWriteRequest h.writeStartId = false) :
    ∃ s' h', (takeWriteStart D).eval onBoard s h = some ((), s', h')
      ∧ h'.obj = Function.update h.obj h.writeStartId (Function.update (h.obj h.writeStartId) 0
        (h.transferWriteStartOut (D.objSize h.writeStartId - 1))) := by
  obtain ⟨n, hn⟩ : ∃ n, D.objSize h.writeStartId = n + 1 := ⟨_, (Nat.sub_add_cancel hsize).symm⟩
  have htest : (testAndSet .resolverEventLoop .writeStartUpdated).eval onBoard s h
      = some (false, s, h.setFlag .writeStartUpdated true) := by
    rw [← hupdated]
    exact eval_perform ..
  have hload : ∀ (s : Resolver) (h : Board),
      (access .writeStart .loadWriteStartId).eval onBoard s h
        = some (h.writeStartId, s, h) := fun _ _ => eval_perform ..
  have hfree' : (h.setFlag .writeStartUpdated true).flag .descriptorsUpdated = false := by
    rw [Board.setFlag_of_ne _ _ (by decide), hfree]
  refine ⟨?state, ?board, ?run, ?obj⟩
  case run =>
    simp only [takeWriteStart, writeStart, eval_bind, htest, hload, Option.bind_some,
      Bool.not_false, if_true, eval_ite, eval_change, eval_look, hid, hpending,
      eval_acquire hfree', eval_copyWriteStart, eval_clear, hn, foldl_range_succ,
      Board.setFlag_writeStartId, Board.setFlag_obj, Board.setFlag_transferWriteStartOut]
    rfl
  case obj =>
    rw [hn]
    rfl

/-! ## What `write` leaves in the object -/

/-- **A local write is faithful**: after the call of `write` and the resolver's processing of it,
the object has the bytes of the value, and no other object has changed. -/
def WriteFaithful (D : DescriptorHelper) (c : WriteCall) (s : Resolver) (h : Board) : Prop :=
  ∃ h₁ s' h₂, (Rest.write D c).eval mailOnBoard () h = some ((), (), h₁)
    ∧ (takeWriteStart D).eval onBoard s h₁ = some ((), s', h₂)
    ∧ (∀ i < D.objSize c.id, h₂.obj c.id i = c.value i) ∧ ∀ j, j ≠ c.id → h₂.obj j = h.obj j

/-- **When a local write is faithful**: the object has the bytes of the value already, apart
from the first one. -/
theorem write_faithful_iff (hid : c.id < numIds) (hsize : 0 < D.objSize c.id)
    (hack : h.flag .writeStartAcknowledge = false) (hfree : h.flag .descriptorsUpdated = false)
    (hpending : s.pendingWriteRequest c.id = false) :
    WriteFaithful D c s h ↔ ∀ i, 1 ≤ i → i < D.objSize c.id → h.obj c.id i = c.value i := by
  have hwrite := eval_write D c () hack
  have hfree' : ((h.setFlag .writeStartAcknowledge true).setFlag .writeStartUpdated false).flag
      .descriptorsUpdated = false := by
    rw [Board.setFlag_of_ne _ _ (by decide), Board.setFlag_of_ne _ _ (by decide), hfree]
  have hupdated : ((h.setFlag .writeStartAcknowledge true).setFlag .writeStartUpdated false).flag
      .writeStartUpdated = false := Board.setFlag_self ..
  obtain ⟨s', h₂, htake, hobj⟩ := eval_takeWriteStart (D := D) (s := s) (h := { (h.setFlag
      .writeStartAcknowledge true).setFlag .writeStartUpdated false with
        writeStartId := c.id
        transferWriteStartOut := fun i =>
          if i < D.objSize c.id then c.staged i else h.transferWriteStartOut i })
    hupdated hid hsize hfree' hpending
  replace hobj : h₂.obj = Function.update h.obj c.id (Function.update (h.obj c.id) 0
      (c.value 0)) := by
    have hstaged : (if D.objSize c.id - 1 < D.objSize c.id then c.staged (D.objSize c.id - 1)
        else h.transferWriteStartOut (D.objSize c.id - 1)) = c.value 0 :=
      if_pos (Nat.sub_lt hsize one_pos)
    rw [hobj, ← hstaged]
    rfl
  constructor
  · rintro ⟨h₁, s'', h₂', hwrite', htake', hbytes, -⟩ i hi hlt
    rw [hwrite] at hwrite'
    cases hwrite'
    rw [htake] at htake'
    cases htake'
    rw [← hbytes i hlt, hobj, Function.update_self, Function.update_of_ne (by omega)]
  · intro hsame
    refine ⟨_, s', h₂, hwrite, htake, fun i hi => ?_, fun j hj => ?_⟩
    · rw [hobj, Function.update_self]
      obtain rfl | hpos := Nat.eq_zero_or_pos i
      · rw [Function.update_self]
      · rw [Function.update_of_ne hpos.ne', hsame i hpos hi]
    · rw [hobj, Function.update_of_ne hj]

/-- An object of two bytes, of which the second one is not changed. -/
theorem write_faithful_two :
    WriteFaithful (.ofSizes [2] (by decide)) ⟨0, fun i => if i = 0 then 7 else 0⟩ {}
      (.initial fun _ _ => 0) := by
  refine (write_faithful_iff (by decide) (by decide) rfl rfl rfl).mpr fun i hi _ => ?_
  exact (if_neg (Nat.one_le_iff_ne_zero.mp hi)).symm

/-- **The second byte is not written**: the object keeps the one it had. -/
theorem write_first_byte_alone :
    ¬ WriteFaithful (.ofSizes [2] (by decide)) ⟨0, fun _ => 7⟩ {} (.initial fun _ _ => 0) := by
  rintro ⟨h₁, s', h₂, hwrite, htake, hbytes, -⟩
  have hrun : (((Rest.write (.ofSizes [2] (by decide)) ⟨0, fun _ => 7⟩).eval mailOnBoard ()
      (.initial fun _ _ => 0)).bind fun x =>
        (takeWriteStart (.ofSizes [2] (by decide))).eval onBoard {} x.2.2).map
          (fun x => x.2.2.obj 0 1) = some 0 := by decide +kernel
  rw [hwrite, Option.bind_some, htake, Option.map_some, hbytes 1 (by decide)] at hrun
  exact absurd hrun (by decide)

end SOS
