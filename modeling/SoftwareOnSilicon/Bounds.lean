import SoftwareOnSilicon.Codec
import SoftwareOnSilicon.Cycle
import SoftwareOnSilicon.RestWrite

/-!
# The bounds of an object

`write_object` advances its position by one, and compares it with the size of the object
after every third byte; `read_object` stores three bytes at a time, and compares afterwards.
Both comparisons are equalities. So a position that is a multiple of three meets the size
only if that is a multiple of three, too, and otherwise the accesses go on beyond the object
and the lock is never released.

The loops that stage an object go from 0 up to its size, which has to fit into the buffers
of `MAX_OBJ_SIZE` bytes. Nothing checks any of this (`in_bounds_iff`).
-/

namespace SOS

open Interleaving Code

variable {D : DescriptorHelper} {s r : Endpoint} {j : ℕ}

/-- `MAX_OBJ_SIZE`. -/
def maxObjSize : ℕ := 252

/-! ## What is touched -/

/-- The byte of an object that an access touches. -/
def Access.touched : Access → List (ℕ × ℕ)
  | .load j i => [(j, i)]
  | .store j i _ => [(j, i)]
  | _ => []

/-- **The rules that record which bytes are touched**, whatever the accesses answer. No error
is admitted. -/
def touches : Rules Endpoint ErrorCode Op.Answer (List (ℕ × ℕ)) where
  step _ o _ l l' := l' = l ++ o.access.touched
  node _ _ _ := True
  error _ _ _ := False

/-- The first `n` bytes of an object. -/
def bytesUpTo (j n : ℕ) : List (ℕ × ℕ) := (List.range n).map (Prod.mk j)

/-- **Successive calls of `write_object`**, with signal bits for each. -/
def writeObjects (D : DescriptorHelper) : List (Bool × Bool) → Comm Unit
  | [] => return ()
  | bits :: rest => do
    change (Endpoint.signal bits)
    let _ ← writeObject D
    writeObjects D rest

/-- **Successive calls of `read_object`**, with a symbol for each. -/
def readObjects (D : DescriptorHelper) : List Byte → Comm Unit
  | [] => return ()
  | data :: rest => do
    readObject D data
    readObjects D rest

/-- An operation that accesses the staging buffers only inside of them. -/
def Staging : Op ⊕ RestAccess → Prop
  | .inl ⟨_, .loadWriteStart i⟩ => i < maxObjSize
  | .inl ⟨_, .storeReadEnd i _⟩ => i < maxObjSize
  | .inr (.storeWriteStart i _) => i < maxObjSize
  | _ => True

/-- The rules of a resolver that stages an object. -/
def stages (j : ℕ) : Rules Resolver ErrorCode Op.Answer Unit where
  step
    | _, ⟨_, .loadReadEndId⟩, id, _, _ => id = j
    | _, ⟨_, .loadWriteStartId⟩, id, _, _ => id = j
    | _, _, _, _, _ => True
  node _ o _ := Staging (.inl o)
  error _ _ _ := True

/-- **`write_object` stays in bounds**: it reads the bytes of the object, each of them once, and
releases `send_lock`. -/
def SendInBounds (D : DescriptorHelper) (j : ℕ) : Prop :=
  ∀ s : Endpoint, s.SendFresh → s.sendLock = true → s.writeOrigin = j →
    ∃ n, ∀ signalBits : List (Bool × Bool), signalBits.length = n →
      ((writeObjects D signalBits).run s).Safe touches
        (fun s' _ l => s'.sendLock = false ∧ l = bytesUpTo j (D.objSize j)) []

/-- **`read_object` stays in bounds**: it writes the bytes of the object, and releases
`readLock`. -/
def ReceiveInBounds (D : DescriptorHelper) (j : ℕ) : Prop :=
  ∀ r : Endpoint, r.ReceiveFresh → D.ids.find? r.readLock = some j →
    ∃ n, ∀ symbols : List Byte, symbols.length = n →
      ((readObjects D symbols).run r).Safe touches
        (fun r' _ l => r'.readLock j = false ∧ l = bytesUpTo j (D.objSize j)) []

/-- **Every access stays in bounds**: those of the two functions that cut an object into symbols
and put it together, and those of the three loops that stage it. -/
structure InBounds (D : DescriptorHelper) (j : ℕ) : Prop where
  send : SendInBounds D j
  receive : ReceiveInBounds D j
  write : ∀ (v : ℕ → Byte) (u : Unit), ((Rest.write D ⟨j, v⟩).run u).Only Staging
  readEnd : ∀ s, ((readEnd D).run s).Safe (stages j) (fun _ _ _ => True) ()
  writeStart : ∀ s, ((writeStart D).run s).Safe (stages j) (fun _ _ _ => True) ()

/-! ## Sending -/

theorem bytesUpTo_succ (j n : ℕ) : bytesUpTo j (n + 1) = bytesUpTo j n ++ [(j, n)] := by
  rw [bytesUpTo, List.range_succ, List.map_append]
  rfl

/-- **After `k` calls of `write_object`.** -/
structure SendAt (j k : ℕ) (s : Endpoint) (l : List (ℕ × ℕ)) : Prop where
  lock : s.sendLock = true
  origin : s.writeOrigin = j
  count : s.writeCount = k % 4
  write3plus1 : s.write3plus1 = k % 4
  position : s.writeOriginPos = 3 * (k / 4) + k % 4
  touched : l = bytesUpTo j s.writeOriginPos

/-- The signal bits do not matter. -/
theorem SendAt.signal {k : ℕ} {l : List (ℕ × ℕ)} (hs : SendAt j k s l) (bits : Bool × Bool) :
    SendAt j k (s.signal bits) l := { hs with }

/-- **One more call**: a byte is fetched, or a group is closed that is not the last one. -/
theorem SendAt.call {k : ℕ} {l : List (ℕ × ℕ)} (hs : SendAt j k s l)
    (hmore : k % 4 = 3 → 3 * (k / 4 + 1) ≠ D.objSize j) :
    ((writeObject D).run s).Safe touches (fun s' _ l' => SendAt j (k + 1) s' l') l := by
  obtain ⟨hlock, horigin, hcount, h3, hpos, rfl⟩ := hs
  have hle : s.writeCount ≤ 3 := by omega
  simp only [writeObject, run_bind, run_look, Prog.safe_bind, Prog.safe_ret, hlock, if_true]
  split
  case isTrue hlt =>
    simp only [run_bind, run_look, Prog.safe_bind, Prog.safe_ret]
    refine ⟨trivial, ?_⟩
    rintro a _ rfl
    refine ⟨trivial, ?_⟩
    rintro data _ rfl
    refine ⟨trivial, ?_⟩
    rintro a _ rfl
    simp only [run_change, run_pure, Prog.safe_ret]
    rw [Endpoint.write_eq (by exact hle), if_neg (by simp only; omega)]
    have hfetched :
        (bytesUpTo j s.writeOriginPos ++ [] ++ [(s.writeOrigin, s.writeOriginPos)]) ++ []
          = bytesUpTo j (s.writeOriginPos + 1) := by
      rw [bytesUpTo_succ, horigin, List.append_nil, List.append_nil]
    refine ⟨hlock, horigin, ?_, ?_, ?_, hfetched⟩
    · show s.writeCount + 1 = _
      omega
    · show s.write3plus1 + 1 = _
      omega
    · show s.writeOriginPos + 1 = _
      omega
  case isFalse hge =>
    -- the group that is closed is not the last one
    have hgroup : s.writeOriginPos ≠ D.objSize s.writeOrigin := by
      rw [hpos, horigin]
      have := hmore (by omega)
      omega
    simp only [run_bind, run_look, run_change, run_pure, Prog.safe_bind, Prog.safe_ret, hgroup,
      if_false]
    rw [Endpoint.write_eq (by exact hle), if_pos (by simp only; omega)]
    refine ⟨hlock, horigin, ?_, ?_, ?_, rfl⟩
    · show 0 = _
      omega
    · show 0 = _
      omega
    · show s.writeOriginPos = _
      omega

/-- **The last call** releases the lock. -/
theorem SendAt.last {k : ℕ} {l : List (ℕ × ℕ)} (hs : SendAt j k s l) (h3 : k % 4 = 3)
    (hdone : 3 * (k / 4 + 1) = D.objSize j) : ((writeObject D).run s).Safe touches
      (fun s' _ l' => s'.sendLock = false ∧ l' = bytesUpTo j (D.objSize j)) l := by
  obtain ⟨hlock, horigin, hcount, h3', hpos, rfl⟩ := hs
  have hle : s.writeCount ≤ 3 := by omega
  have hge : ¬ s.write3plus1 < 3 := by omega
  have hsize : s.writeOriginPos = D.objSize j := by omega
  simp only [writeObject, run_bind, run_look, Prog.safe_bind, Prog.safe_ret, hlock, if_true, hge,
    if_false]
  rw [if_pos (by rw [horigin, hsize])]
  simp only [emitSent, run_bind, run_look, run_change, run_pure, Prog.safe_bind, Prog.safe_ret]
  refine ⟨trivial, ?_⟩
  rintro a _ rfl
  refine ⟨?_, ?_⟩
  · rw [Endpoint.write_eq (by exact hle)]
  · rw [← hsize]
    exact List.append_nil _

/-! ### Successive calls -/

/-- The lock is kept as long as no group is the last one. -/
theorem SendAt.calls {k : ℕ} {l : List (ℕ × ℕ)} (hs : SendAt j k s l)
    (hmore : ¬ 3 ∣ D.objSize j) (signalBits : List (Bool × Bool)) :
    ((writeObjects D signalBits).run s).Safe touches (fun s' _ _ => s'.sendLock = true) l := by
  induction signalBits generalizing k s l with
  | nil => exact hs.lock
  | cons bits rest ih =>
    simp only [writeObjects, run_bind, run_change, Prog.safe_bind, Prog.safe_ret]
    refine ((hs.signal bits).call fun _ hf => hmore ⟨_, hf.symm⟩).imp fun s' _ l' hs' => ?_
    exact ih hs'

/-- **The calls that are left** read what is left of the object, and release the lock. -/
theorem SendAt.complete {k m : ℕ} {l : List (ℕ × ℕ)} {signalBits : List (Bool × Bool)}
    (hs : SendAt j k s l) (hsize : D.objSize j = 3 * m) (hpos : 0 < signalBits.length)
    (hlen : k + signalBits.length = 4 * m) : ((writeObjects D signalBits).run s).Safe touches
      (fun s' _ l' => s'.sendLock = false ∧ l' = bytesUpTo j (D.objSize j)) l := by
  induction signalBits generalizing k s l with
  | nil => exact absurd hpos (Nat.lt_irrefl 0)
  | cons bits rest ih =>
    rw [List.length_cons] at hlen
    simp only [writeObjects, run_bind, run_change, Prog.safe_bind, Prog.safe_ret]
    cases rest with
    | nil =>
      rw [List.length_nil] at hlen
      exact (hs.signal bits).last (by omega) (by omega)
    | cons bits' rest =>
      rw [List.length_cons] at hlen
      refine ((hs.signal bits).call (by omega)).imp fun s' _ l' hs' => ?_
      exact ih hs' (Nat.succ_pos _) (by rw [List.length_cons]; omega)

/-- Before the first call. -/
theorem SendAt.start (hs : s.SendFresh) (hlock : s.sendLock = true)
    (horigin : s.writeOrigin = j) :
    SendAt j 0 s [] where
  lock := hlock
  origin := horigin
  count := hs.count
  write3plus1 := hs.write3plus1
  position := hs.position
  touched := by
    rw [hs.position]
    rfl

/-! ## Receiving -/

theorem bytesUpTo_add (j n m : ℕ) :
    bytesUpTo j n ++ (List.range' n m).map (Prod.mk j) = bytesUpTo j (n + m) := by
  have hrange : List.range n ++ List.range' n m = List.range (n + m) := by
    rw [List.range_eq_range', List.range_eq_range', ← List.range'_append_1, Nat.zero_add]
  rw [bytesUpTo, bytesUpTo, ← hrange, List.map_append]

/-- The stores of a group touch one byte after another. -/
theorem storeBytes_touches {bytes : List Byte} {l : List (ℕ × ℕ)}
    {Q : Endpoint → Unit → List (ℕ × ℕ) → Prop}
    (hQ : Q { r with
        readDestinationPos := r.readDestinationPos + bytes.length
        history.stored := r.history.stored ++ bytes } ()
      (l ++ (List.range' r.readDestinationPos bytes.length).map (Prod.mk r.readDestination))) :
    ((storeBytes bytes).run r).Safe touches Q l := by
  induction bytes generalizing r l with
  | nil => simpa [storeBytes] using hQ
  | cons b bs ih =>
    simp only [storeBytes, run_bind, run_look, run_change, Prog.safe_bind, Prog.safe_ret]
    refine ⟨trivial, ?_⟩
    rintro a _ rfl
    refine ih ?_
    simpa [List.range'_succ, Access.touched, Nat.add_assoc, Nat.add_comm 1] using hQ

/-- **`c` symbols into a group**, of those that belong to byte `3 * p`. -/
structure ReceiveAt (D : DescriptorHelper) (j c p : ℕ) (r : Endpoint) : Prop where
  receiving : r.receiveLock = true ∧ r.readDestination = j
    ∨ r.receiveLock = false ∧ p = 0 ∧ D.ids.find? r.readLock = some j
  lock : r.readLock j = true
  readCount : r.readCount = c
  read4minus1 : r.read4minus1 = c
  position : r.readDestinationPos = 3 * p

namespace ReceiveAt

variable {c p : ℕ} {data : Byte} {l : List (ℕ × ℕ)} {Q : Endpoint → Unit → List (ℕ × ℕ) → Prop}

/-- The first symbol picks the object. -/
theorem pick (hr : ReceiveAt D j c p r)
    (hQ : ∀ t, ReceiveAt D j c p t → t.receiveLock = true → t.readDestination = j →
      ((assembleSymbol D data).run t).Safe touches Q l) :
    ((readObject D data).run r).Safe touches Q l := by
  simp only [readObject, run_bind, run_look, Prog.safe_bind, Prog.safe_ret]
  obtain ⟨hl, hd⟩ | ⟨hl, rfl, hfind⟩ := hr.receiving
  · rw [hl]
    exact hQ r hr hl hd
  · have hpos : r.readDestinationPos = 0 := hr.position
    simp only [hl, Bool.not_false, if_true, run_bind, run_look, run_change, Prog.safe_bind,
      Prog.safe_ret, hfind, hpos, ne_eq, not_true, if_false]
    exact hQ _ { hr with receiving := .inl ⟨rfl, rfl⟩, position := rfl } rfl rfl

/-- A symbol that is not the last one of its group. -/
theorem part (hr : ReceiveAt D j c p r) (hc : c < 3)
    (hQ : ∀ r', ReceiveAt D j (c + 1) p r' → Q r' () l) :
    ((readObject D data).run r).Safe touches Q l := by
  refine hr.pick fun t ht hl hd => ?_
  have hcount := ht.readCount
  have h3 : t.read4minus1 < 3 := ht.read4minus1.trans_lt hc
  have hne : t.readCount ≠ 3 := by omega
  have hread : t.read data = _ := Endpoint.read_eq (by omega)
  simp only [assembleSymbol, run_bind, run_look, run_change, Prog.safe_bind, Prog.safe_ret, hl,
    if_true, hread, h3, hne, if_false]
  refine hQ _ ⟨.inl ⟨rfl, hd⟩, ht.lock, ?_, ?_, ht.position⟩
  · exact congrArg (· + 1) hcount
  · exact congrArg (· + 1) ht.read4minus1

/-- **The last symbol of a group**: it is stored, or it is beyond the object. -/
theorem group (hr : ReceiveAt D j 3 p r) (hne : 3 * p ≠ D.objSize j)
    (hmore : ∀ r', 3 * p < D.objSize j → 3 * (p + 1) ≠ D.objSize j → ReceiveAt D j 0 (p + 1) r' →
      Q r' () (l ++ (List.range' (3 * p) 3).map (Prod.mk j)))
    (hbeyond : ∀ r', D.objSize j ≤ 3 * p → ReceiveAt D j 0 p r' → Q r' () l)
    (hdone : ∀ r' : Endpoint, 3 * (p + 1) = D.objSize j → r'.readLock j = false →
      Q r' () (l ++ (List.range' (3 * p) 3).map (Prod.mk j))) :
    ((readObject D data).run r).Safe touches Q l := by
  refine hr.pick fun t ht hl hd => ?_
  have hcount := ht.readCount
  have hpos := ht.position
  have hread : t.read data = _ := Endpoint.read_eq (by omega)
  simp only [assembleSymbol, run_bind, run_look, run_change, Prog.safe_bind, Prog.safe_ret, hl,
    if_true, hread, ht.read4minus1, hcount, lt_irrefl, if_false]
  refine Watch.readFlush_safe fun bytes _ hlen => ?_
  simp only [run_ite, hpos, hd]
  split
  case isTrue hlt =>
    simp only [run_bind, Prog.safe_bind]
    refine ⟨trivial, ?_⟩
    rintro a _ rfl
    refine storeBytes_touches ⟨trivial, ?_⟩
    rintro a _ rfl
    simp only [Access.touched, List.append_nil, run_look, hlen, Prog.safe_ret]
    split
    case isTrue hdone' =>
      simp only [emitReceived, run_bind, run_look, run_change, Prog.safe_bind, Prog.safe_ret]
      refine safe_assignStarted trivial ?_
      rintro m _ rfl
      refine ⟨trivial, ?_⟩
      rintro a _ rfl
      refine ⟨trivial, ?_⟩
      rintro a _ rfl
      simp only [Access.touched, List.append_nil]
      exact hdone _ hdone' (Function.update_self ..)
    case isFalse hmore' =>
      simp only [run_change, Prog.safe_ret]
      exact hmore _ hlt hmore' ⟨.inl ⟨rfl, rfl⟩, ht.lock, rfl, rfl, rfl⟩
  case isFalse hge =>
    simp only [run_bind, run_look, Prog.safe_bind, Prog.safe_ret]
    rw [if_neg hne]
    exact hbeyond _ (Nat.le_of_not_lt hge) ⟨.inl ⟨rfl, rfl⟩, ht.lock, rfl, rfl, rfl⟩

/-- The lock is kept as long as no group ends where the object does. -/
theorem calls (hr : ReceiveAt D j c p r) (hc : c ≤ 3) (hmore : ¬ 3 ∣ D.objSize j)
    (symbols : List Byte) :
    ((readObjects D symbols).run r).Safe touches (fun r' _ _ => r'.readLock j = true) l := by
  induction symbols generalizing c p r l with
  | nil => exact hr.lock
  | cons data rest ih =>
    simp only [readObjects, run_bind, Prog.safe_bind]
    obtain hlt | rfl := hc.lt_or_eq
    · exact hr.part hlt fun r' hr' => ih hr' hlt
    · refine hr.group (fun hf => hmore ⟨_, hf.symm⟩) (fun r' _ _ hr' => ih hr' (Nat.zero_le 3))
        (fun r' _ hr' => ih hr' (Nat.zero_le 3)) fun r' hf _ => ?_
      exact absurd ⟨_, hf.symm⟩ hmore

/-- **The symbols that are left** write what is left of the object, and release the lock. -/
theorem complete {m : ℕ} {symbols : List Byte} (hr : ReceiveAt D j c p r) (hc : c ≤ 3)
    (hsize : D.objSize j = 3 * m) (hpos : 0 < symbols.length)
    (hlen : 4 * p + c + symbols.length = 4 * m) (hl : l = bytesUpTo j (3 * p)) :
    ((readObjects D symbols).run r).Safe touches
      (fun r' _ l' => r'.readLock j = false ∧ l' = bytesUpTo j (D.objSize j)) l := by
  induction symbols generalizing c p r l with
  | nil => exact absurd hpos (Nat.lt_irrefl 0)
  | cons data rest ih =>
    rw [List.length_cons] at hlen
    simp only [readObjects, run_bind, Prog.safe_bind]
    obtain hlt | rfl := hc.lt_or_eq
    · refine hr.part hlt fun r' hr' => ih hr' hlt ?_ ?_ hl
      · omega
      · omega
    · have hgroup : l ++ (List.range' (3 * p) 3).map (Prod.mk j) = bytesUpTo j (3 * (p + 1)) := by
        rw [hl, bytesUpTo_add, Nat.mul_succ]
      refine hr.group (by omega) (fun r' _ hne hr' => ?_) (fun r' hge _ => ?_)
        fun r' hdone hlock => ?_
      · exact ih hr' (Nat.zero_le 3) (by omega) (by omega) hgroup
      · omega
      · obtain rfl : rest = [] := List.eq_nil_of_length_eq_zero (by omega)
        exact ⟨hlock, hgroup.trans (by rw [hdone])⟩

/-- Before the first call. -/
theorem start (hr : r.ReceiveFresh) (hfind : D.ids.find? r.readLock = some j) :
    ReceiveAt D j 0 0 r where
  receiving := .inr ⟨hr.lock, rfl, hfind⟩
  lock := List.find?_some hfind
  readCount := hr.count
  read4minus1 := hr.read4minus1
  position := hr.position

end ReceiveAt

/-! ## Staging -/

theorem forall_mem_range_lt {n : ℕ} : (∀ i ∈ List.range n, i < maxObjSize) ↔ n ≤ maxObjSize := by
  refine ⟨fun h => ?_, fun h i hi => (List.mem_range.mp hi).trans_le h⟩
  by_contra hgt
  exact lt_irrefl _ (h maxObjSize (List.mem_range.mpr (Nat.lt_of_not_le hgt)))

/-- The loop of `write`. -/
theorem stage_only_iff {c : WriteCall} {js : List ℕ} {u : Unit} :
    ((stage c js).run u).Only Staging ↔ ∀ i ∈ js, i < maxObjSize := by
  induction js with
  | nil => exact ⟨fun _ _ hi => absurd hi List.not_mem_nil, fun _ => trivial⟩
  | cons i is ih =>
    rw [List.forall_mem_cons, ← ih]
    exact ⟨fun h => ⟨h.1, h.2 ()⟩, fun h => ⟨h.1, fun _ => h.2⟩⟩

/-- **`write` stays inside** of the buffer exactly if the object fits. -/
theorem write_only_iff {c : WriteCall} {u : Unit} :
    ((Rest.write D c).run u).Only Staging ↔ D.objSize c.id ≤ maxObjSize := by
  rw [← forall_mem_range_lt, ← stage_only_iff (c := c) (u := u)]
  have hrun : (Rest.write D c).run u = .op u (.inr .acquireWriteStartAcknowledge) fun _ =>
      .op u (.inr (.storeWriteStartId c.id)) fun _ =>
        ((stage c (List.range (D.objSize c.id))).run u).bind fun _ u =>
          .op u (.inr .clearWriteStartUpdated) fun _ => .ret u () := rfl
  rw [hrun]
  refine ⟨fun h => ((h.2 ()).2 ()).of_bind, fun h => ?_⟩
  refine ⟨trivial, fun _ => ⟨trivial, fun _ => Prog.only_bind h fun _ _ => ?_⟩⟩
  exact ⟨trivial, fun _ => trivial⟩

section Resolver

variable {s : Resolver} {Q : Resolver → Unit → Unit → Prop}

/-! ### The resolver's accesses -/

theorem stages_acquire {site : Site} {f : Flag} :
    ((acquire site f).run s).Safe (stages j) Q () ↔ Q s () () :=
  ⟨fun h => h.2 () () trivial, fun h => ⟨trivial, fun _ _ _ => h⟩⟩

theorem stages_clear {site : Site} {f : Flag} :
    ((clear site f).run s).Safe (stages j) Q () ↔ Q s () () :=
  ⟨fun h => h.2 () () trivial, fun h => ⟨trivial, fun _ _ _ => h⟩⟩

theorem stages_readEndId {site : Site} {Q : Resolver → ℕ → Unit → Prop} :
    ((access site .loadReadEndId).run s).Safe (stages j) Q () ↔ Q s j () := by
  refine ⟨fun h => h.2 j () rfl, fun h => ⟨trivial, ?_⟩⟩
  rintro id _ (rfl : id = j)
  exact h

theorem stages_writeStartId {site : Site} {Q : Resolver → ℕ → Unit → Prop} :
    ((access site .loadWriteStartId).run s).Safe (stages j) Q () ↔ Q s j () := by
  refine ⟨fun h => h.2 j () rfl, fun h => ⟨trivial, ?_⟩⟩
  rintro id _ (rfl : id = j)
  exact h

/-- The loop that copies an object that has been received. -/
theorem copyReadEnd_stages {id : ℕ} {js : List ℕ} :
    ((copyReadEnd id js).run s).Safe (stages j) Q ()
      ↔ (∀ i ∈ js, i < maxObjSize) ∧ Q s () () := by
  induction js with
  | nil => exact ⟨fun h => ⟨fun _ hi => absurd hi List.not_mem_nil, h⟩, fun h => h.2⟩
  | cons i is ih =>
    rw [List.forall_mem_cons, and_assoc, ← ih]
    simp only [copyReadEnd, run_bind, Prog.safe_bind]
    constructor
    · intro h
      obtain ⟨hi, hrest⟩ := h.2 (0 : Byte) () trivial
      exact ⟨hi, hrest () () trivial⟩
    · rintro ⟨hi, hrest⟩
      exact ⟨trivial, fun b _ _ => ⟨hi, fun _ _ _ => hrest⟩⟩

/-- The loop that copies the bytes of a write-start command. -/
theorem copyWriteStart_stages {id : ℕ} {js : List ℕ} :
    ((copyWriteStart id js).run s).Safe (stages j) Q ()
      ↔ (∀ i ∈ js, i < maxObjSize) ∧ Q s () () := by
  induction js with
  | nil => exact ⟨fun h => ⟨fun _ hi => absurd hi List.not_mem_nil, h⟩, fun h => h.2⟩
  | cons i is ih =>
    rw [List.forall_mem_cons, and_assoc, ← ih]
    simp only [copyWriteStart, run_bind, Prog.safe_bind]
    constructor
    · rintro ⟨hi, hrest⟩
      exact ⟨hi, (hrest (0 : Byte) () trivial).2 () () trivial⟩
    · rintro ⟨hi, hrest⟩
      exact ⟨hi, fun b _ _ => ⟨trivial, fun _ _ _ => hrest⟩⟩

/-- **The read-end command stays inside** of the buffer exactly if the object fits. -/
theorem readEnd_stages_iff (hj : j < numIds) :
    ((readEnd D).run s).Safe (stages j) (fun _ _ _ => True) () ↔ D.objSize j ≤ maxObjSize := by
  rw [← forall_mem_range_lt]
  simp only [readEnd, run_bind, Prog.safe_bind, stages_acquire, stages_readEndId, hj, if_true,
    copyReadEnd_stages, stages_clear, run_change, Prog.safe_ret, and_true]

/-- So does the write-start command, unless it is refused. -/
theorem writeStart_stages_iff (hj : j < numIds) : ((writeStart D).run s).Safe (stages j)
    (fun _ _ _ => True) () ↔ s.pendingWriteRequest j = true ∨ D.objSize j ≤ maxObjSize := by
  rw [← forall_mem_range_lt]
  simp only [writeStart, run_bind, run_look, run_change, Prog.safe_bind, Prog.safe_ret,
    stages_writeStartId, hj, if_true]
  cases s.pendingWriteRequest j with
  | true =>
    simp only [Bool.not_true, Bool.false_eq_true, if_false, true_or, iff_true]
    trivial
  | false =>
    simp only [Bool.not_false, if_true, run_bind, run_change, Prog.safe_bind, Prog.safe_ret,
      stages_acquire, copyWriteStart_stages, stages_clear, and_true, Bool.false_eq_true, false_or]

end Resolver

/-! ## Accesses in bounds -/

/-- Every access is answered. -/
theorem touches_answer (s : Endpoint) (o : Op) (l : List (ℕ × ℕ)) :
    ∃ a l', touches.step s o a l l' := by
  obtain ⟨site, acc⟩ := o
  cases acc <;> first
    | exact ⟨(), _, rfl⟩
    | exact ⟨false, _, rfl⟩
    | exact ⟨(0 : ℕ), _, rfl⟩

/-- **A send stays in bounds** exactly if the size is a multiple of three. -/
theorem sendInBounds_iff (hsize : 0 < D.objSize j) : SendInBounds D j ↔ 3 ∣ D.objSize j := by
  constructor
  · intro h
    by_contra hmore
    obtain ⟨n, hn⟩ := h { sendLock := true, writeOrigin := j } ⟨rfl, rfl, rfl⟩ rfl rfl
    have hreleased := hn (List.replicate n (false, false)) List.length_replicate
    have hkept := (SendAt.start ⟨rfl, rfl, rfl⟩ rfl rfl).calls hmore
      (s := { sendLock := true, writeOrigin := j }) (List.replicate n (false, false))
    obtain ⟨s', -, l, hend⟩ := (hreleased.and hkept).exists_end touches_answer fun _ _ _ => id
    exact absurd (hend.1.1.symm.trans hend.2) (by decide)
  · rintro ⟨m, hm⟩ s hs hl ho
    refine ⟨4 * m, fun signalBits hlen => ?_⟩
    exact (SendAt.start hs hl ho).complete hm (by omega) (by omega)

/-- **So does a receive.** -/
theorem receiveInBounds_iff (hj : j < D.count) (hsize : 0 < D.objSize j) :
    ReceiveInBounds D j ↔ 3 ∣ D.objSize j := by
  constructor
  · intro h
    by_contra hmore
    have hfind : D.ids.find? (fun i => decide (i = j)) = some j :=
      List.find?_range_eq_some.mpr ⟨by simp, List.mem_range.mpr hj, fun i hi => by simp [hi.ne]⟩
    have hstart : ReceiveAt D j 0 0 { readLock := fun i => decide (i = j) } :=
      .start ⟨rfl, rfl, rfl, rfl, rfl⟩ hfind
    obtain ⟨n, hn⟩ := h { readLock := fun i => decide (i = j) } ⟨rfl, rfl, rfl, rfl, rfl⟩ hfind
    have hreleased := hn (List.replicate n 0) List.length_replicate
    have hkept := hstart.calls (Nat.zero_le 3) hmore (List.replicate n 0) (l := [])
    obtain ⟨r', -, l, hend⟩ := (hreleased.and hkept).exists_end touches_answer fun _ _ _ => id
    exact absurd (hend.1.1.symm.trans hend.2) (by decide)
  · rintro ⟨m, hm⟩ r hr hfind
    refine ⟨4 * m, fun symbols hlen => ?_⟩
    exact (ReceiveAt.start hr hfind).complete (Nat.zero_le 3) hm (by omega) (by omega) rfl

/-- **The accesses stay in bounds** exactly of the objects of a multiple of three bytes that
fit into the buffers. -/
theorem in_bounds_iff (hj : j < D.count) (hsize : 0 < D.objSize j) :
    InBounds D j ↔ 3 ∣ D.objSize j ∧ D.objSize j ≤ maxObjSize := by
  have hid := D.lt_numIds hj
  constructor
  · intro h
    exact ⟨(sendInBounds_iff hsize).mp h.send, write_only_iff.mp (h.write (fun _ => 0) ())⟩
  · rintro ⟨hdvd, hfits⟩
    exact ⟨(sendInBounds_iff hsize).mpr hdvd, (receiveInBounds_iff hj hsize).mpr hdvd,
      fun v u => write_only_iff.mpr hfits, fun s => (readEnd_stages_iff hid).mpr hfits,
      fun s => (writeStart_stages_iff hid).mpr (.inr hfits)⟩

/-- An object of two groups. -/
theorem in_bounds_six : InBounds (.ofSizes [6] (by decide)) 0 :=
  (in_bounds_iff (by decide) (by decide)).mpr (by decide)

/-- **An object of four bytes**: its send is never over. -/
theorem four_bytes_unbounded : ¬ InBounds (.ofSizes [4] (by decide)) 0 := by
  intro h
  have hdvd : 3 ∣ 4 := (sendInBounds_iff (by decide)).mp h.send
  exact absurd hdvd (by decide)

end SOS
