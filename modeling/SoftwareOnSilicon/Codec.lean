import SoftwareOnSilicon.Stream

/-!
# An object, sent and received

The codec on its own: successive calls of `write_object` on one board, and of
`read_object` on another, with no other thread in between. An object of `3 * m`
bytes leaves as `4 * m` symbols, whatever signal bits are stamped on each of
them, and arrives as the same bytes; both ends are then ready for the next one
(`object_round_trip`).
-/

namespace SOS

open Interleaving Code

variable {D : DescriptorHelper} {s r : Endpoint} {h : Board} {j m : ℕ}

/-- The memory of an end, as its own thread sees it. -/
abbrev onBoard (o : Op) (h : Board) : Option (o.Answer × Board) := Board.exec o.access h

/-- The signal bits the next symbol is stamped with. -/
def Endpoint.signal (bits : Bool × Bool) (s : Endpoint) : Endpoint :=
  { s with ownUpdated := bits.1, peerAcknowledge := bits.2 }

/-- The signal bits of a symbol. -/
def signals (b : Byte) : Bool × Bool := (b.getLsbD 7, b.getLsbD 6)

/-- **Successive calls of `write_object`**, with signal bits for each; `none` if
one of them emits nothing. -/
def sendAll (D : DescriptorHelper) :
    List (Bool × Bool) → Endpoint → Board → Option (List Byte × Endpoint × Board)
  | [], s, h => some ([], s, h)
  | bits :: rest, s, h =>
    ((writeObject D).eval onBoard (s.signal bits) h).bind fun x =>
      if x.1 then (sendAll D rest x.2.1 x.2.2).map fun y => (x.2.1.comOut :: y.1, y.2)
      else none

/-- **Successive calls of `read_object`.** -/
def receiveAll (D : DescriptorHelper) : List Byte → Endpoint → Board → Option (Endpoint × Board)
  | [], s, h => some (s, h)
  | b :: bs, s, h =>
    ((readObject D b).eval onBoard s h).bind fun x => receiveAll D bs x.2.1 x.2.2

/-! ## The accesses, undisturbed -/

section Accesses

variable {S : Type} {u : S} {site : Site} {f : Flag} {i : ℕ} {b : Byte}

theorem eval_acquire (hf : h.flag f = false) :
    (acquire site f).eval onBoard u h = some ((), u, h.setFlag f true) := by
  have hx : onBoard ⟨site, .acquire f⟩ h = some ((), h.setFlag f true) :=
    if_neg (by simp [hf])
  rw [acquire, eval_perform, hx]
  rfl

theorem eval_clear :
    (clear site f).eval onBoard u h = some ((), u, h.setFlag f false) := by
  rw [clear, eval_perform]
  rfl

theorem eval_load :
    (access site (.load j i)).eval onBoard u h = some (h.obj j i, u, h) := by
  rw [access, eval_perform]
  rfl

theorem eval_store :
    (access site (.store j i b)).eval onBoard u h
      = some ((), u,
        { h with obj := Function.update h.obj j (Function.update (h.obj j) i b) }) := by
  rw [access, eval_perform]
  rfl

theorem eval_assignStarted {v : Bool} :
    (assignStarted site j v).eval onBoard u h
      = some ((), u, { h with started := withBit h.started j v }) := by
  rw [assignStarted, eval_bind, access, eval_perform]
  rfl

/-- A lock that is released leaves no trace. -/
theorem Board.setFlag_setFlag (hf : h.flag f = false) :
    (h.setFlag f true).setFlag f false = h := by
  simp only [Board.setFlag, Function.update_idem]
  rw [← hf, Function.update_eq_self]

end Accesses

/-! ## `write_object` -/

section WriteObject

variable (hl : s.sendLock = true) (hw : s.writeCount = s.write3plus1)

include hl hw

theorem eval_writeObject_fetch (h3 : s.write3plus1 < 3)
    (hf : h.flag .descriptorsUpdated = false) :
    (writeObject D).eval onBoard s h = some (true, { s with
      writeOriginPos := s.writeOriginPos + 1
      writeCount := s.writeCount + 1
      write3plus1 := s.write3plus1 + 1
      writeAssembly := Function.update s.writeAssembly s.writeCount
        (h.obj s.writeOrigin s.writeOriginPos)
      comOut := s.symbol (h.obj s.writeOrigin s.writeOriginPos)
      history.fetched := s.history.fetched ++ [h.obj s.writeOrigin s.writeOriginPos]
      history.payload := true }, h) := by
  simp only [writeObject, eval_bind, eval_look, Option.bind_some, eval_ite, hl, if_true, h3,
    eval_acquire hf]
  rw [eval_load]
  simp only [Option.bind_some, eval_change, eval_clear, eval_pure, Board.setFlag_setFlag hf]
  rw [Endpoint.write_eq (by simp only; omega)]
  have hne : s.writeCount ≠ 3 := by omega
  simp only [hne, if_false, hl, Endpoint.symbol, Board.setFlag]

theorem eval_writeObject_close (h3 : s.write3plus1 = 3)
    (hmore : s.writeOriginPos ≠ D.objSize s.writeOrigin) :
    (writeObject D).eval onBoard s h = some (true, { s with
      writeCount := 0
      write3plus1 := 0
      comOut := s.symbol 63
      history.payload := true }, h) := by
  have hlt : ¬ s.write3plus1 < 3 := by omega
  simp only [writeObject, eval_bind, eval_look, Option.bind_some, eval_ite, hl, if_true, hlt,
    hmore, if_false, eval_change, eval_pure]
  rw [Endpoint.write_eq (by simp only; omega)]
  have hc : s.writeCount = 3 := by omega
  simp only [hc, if_true, Endpoint.symbol]

theorem eval_writeObject_last (h3 : s.write3plus1 = 3)
    (hdone : s.writeOriginPos = D.objSize s.writeOrigin) :
    (writeObject D).eval onBoard s h = some (true, { s with
      transfer := Function.update s.transfer s.writeOrigin false
      sendLock := false
      writeOriginPos := 0
      writeCount := 0
      write3plus1 := 0
      comOut := s.symbol 63
      history.sent := s.history.sent ++ [(s.writeOrigin, s.history.fetched)]
      history.fetched := []
      history.payload := true }, h.setFlag (.writeAck s.writeOrigin) false) := by
  have hlt : ¬ s.write3plus1 < 3 := by omega
  simp only [writeObject, eval_bind, eval_look, Option.bind_some, eval_ite, hl, if_true, hlt,
    hdone, if_false, emitSent, eval_clear, eval_change, eval_pure]
  rw [Endpoint.write_eq (by simp only; omega)]
  have hc : s.writeCount = 3 := by omega
  simp only [hc, if_true, Endpoint.symbol]

end WriteObject

theorem eval_writeObject_none (hl : s.sendLock = false) :
    (writeObject D).eval onBoard s h = some (false, s, h) := by
  simp only [writeObject, eval_bind, eval_look, Option.bind_some, eval_ite, hl,
    Bool.false_eq_true, if_false, eval_pure]

/-! ## `read_object` -/

/-- Write successive bytes of an object. -/
def Board.storeAll (j : ℕ) : ℕ → List Byte → Board → Board
  | _, [], h => h
  | i, b :: bs, h =>
    storeAll j (i + 1) bs
      { h with obj := Function.update h.obj j (Function.update (h.obj j) i b) }

theorem Board.storeAll_flag {i : ℕ} {bs : List Byte} : (h.storeAll j i bs).flag = h.flag := by
  induction bs generalizing i h with
  | nil => rfl
  | cons b bs ih => exact ih

theorem Board.storeAll_started {i : ℕ} {bs : List Byte} :
    (h.storeAll j i bs).started = h.started := by
  induction bs generalizing i h with
  | nil => rfl
  | cons b bs ih => exact ih

theorem Board.storeAll_setFlag {i : ℕ} {bs : List Byte} {f : Flag} {v : Bool} :
    (h.setFlag f v).storeAll j i bs = (h.storeAll j i bs).setFlag f v := by
  induction bs generalizing i h with
  | nil => rfl
  | cons b bs ih =>
    rw [storeAll, storeAll, ← ih]
    rfl

theorem Board.storeAll_obj {i : ℕ} {bs : List Byte} :
    (h.storeAll j i bs).obj = Function.update h.obj j fun k =>
      if i ≤ k ∧ k < i + bs.length then bs.getD (k - i) 0 else h.obj j k := by
  induction bs generalizing i h with
  | nil =>
    have hno : ∀ k, ¬ (i ≤ k ∧ k < i + 0) := by omega
    simp only [storeAll, List.length_nil, hno, if_false, Function.update_eq_self]
  | cons b bs ih =>
    rw [storeAll, ih]
    simp only [Function.update_idem, Function.update_self]
    congr 1
    funext k
    obtain hlt | rfl | hgt := lt_trichotomy k i
    · rw [if_neg (by omega), if_neg (by omega), Function.update_of_ne (by omega)]
    · rw [if_neg (by omega), if_pos (by simp), Function.update_self]
      simp
    · have hk : k - i = (k - (i + 1)) + 1 := by omega
      simp only [List.length_cons, hk, List.getD_cons_succ]
      rw [Function.update_of_ne (by omega)]
      exact if_congr (by omega) rfl rfl

theorem eval_storeBytes {bs : List Byte} :
    (storeBytes bs).eval onBoard r h = some ((), { r with
      readDestinationPos := r.readDestinationPos + bs.length
      history.stored := r.history.stored ++ bs },
      h.storeAll r.readDestination r.readDestinationPos bs) := by
  induction bs generalizing r h with
  | nil => simp [storeBytes, Board.storeAll]
  | cons b bs ih =>
    simp only [storeBytes, eval_bind, eval_look, Option.bind_some]
    rw [eval_store]
    simp only [eval_change, Option.bind_some, ih, List.length_cons, List.append_assoc,
      List.cons_append, List.nil_append, Board.storeAll]
    simp only [Nat.add_assoc, Nat.add_comm 1]

section ReadObject

variable {data : Byte} {t : Endpoint} (ht : Receiving D r t)
  (h0 : r.receiveLock = false → r.readDestinationPos = 0)

include ht h0

theorem eval_readObject :
    (readObject D data).eval onBoard r h = (assembleSymbol D data).eval onBoard t h := by
  cases ht with
  | held hl =>
    simp only [readObject, eval_bind, eval_look, Option.bind_some, eval_ite, hl, Bool.not_true,
      Bool.false_eq_true, if_false]
  | first hl find =>
    simp only [readObject, eval_bind, eval_look, Option.bind_some, eval_ite, hl, Bool.not_false,
      if_true, find, h0 hl, ne_eq, not_true, if_false, eval_change]

end ReadObject

section AssembleSymbol

variable {data : Byte} (hl : r.receiveLock = true) (hc : r.readCount = r.read4minus1)

include hl hc

theorem eval_assembleSymbol_part (h3 : r.read4minus1 < 3) :
    (assembleSymbol D data).eval onBoard r h = some ((), { r with
      readAssembly := readShift r.readAssembly r.readCount (data.setWidth 24)
      readCount := r.readCount + 1
      read4minus1 := r.read4minus1 + 1
      history.symbols := r.history.symbols ++ [data] }, h) := by
  simp only [assembleSymbol, eval_bind, eval_look, Option.bind_some, eval_ite, hl, if_true,
    eval_change]
  rw [Endpoint.read_eq (by omega)]
  have hne : r.readCount ≠ 3 := by omega
  simp only [h3, hne, if_true, if_false, hl]

variable {bytes : List Byte} (h3 : r.read4minus1 = 3)
  (hflush : bitsetToBytearray 3 (readShift r.readAssembly 3 (data.setWidth 24)) = some bytes)
  (hlen : bytes.length = 3) (hroom : r.readDestinationPos < D.objSize r.readDestination)
  (hf : h.flag .descriptorsUpdated = false)

include h3 hflush hlen hroom hf

theorem eval_assembleSymbol_group
    (hmore : r.readDestinationPos + 3 ≠ D.objSize r.readDestination) :
    (assembleSymbol D data).eval onBoard r h = some ((), { r with
      readAssembly := 0
      readCount := 0
      read4minus1 := 0
      readDestinationPos := r.readDestinationPos + 3
      history.symbols := r.history.symbols ++ [data]
      history.stored := r.history.stored ++ bytes },
      h.storeAll r.readDestination r.readDestinationPos bytes) := by
  have hc3 : r.readCount = 3 := hc.trans h3
  simp only [assembleSymbol, eval_bind, eval_look, Option.bind_some, eval_ite, hl, if_true,
    eval_change]
  rw [Endpoint.read_eq (by omega)]
  simp only [h3, hc3, if_true, readFlush, lt_irrefl, if_false, eval_bind, eval_look,
    Option.bind_some, hflush, eval_change, eval_pure, hroom, eval_acquire hf, eval_storeBytes,
    eval_clear, hlen, hmore, hl, Board.storeAll_setFlag]
  rw [Board.setFlag_setFlag (by rw [Board.storeAll_flag, hf])]

theorem eval_assembleSymbol_last
    (hdone : r.readDestinationPos + 3 = D.objSize r.readDestination) :
    (assembleSymbol D data).eval onBoard r h = some ((), { r with
      readAssembly := 0
      readCount := 0
      read4minus1 := 0
      readDestinationPos := 0
      receiveLock := false
      readLock := Function.update r.readLock r.readDestination false
      history.symbols := []
      history.stored := []
      history.received := r.history.received
        ++ [(r.readDestination, r.history.stored ++ bytes)] },
      { (h.storeAll r.readDestination r.readDestinationPos bytes).setFlag
          (.readAck r.readDestination) false with
        started := withBit h.started r.readDestination false }) := by
  have hc3 : r.readCount = 3 := hc.trans h3
  simp only [assembleSymbol, eval_bind, eval_look, Option.bind_some, eval_ite, hl, if_true,
    eval_change]
  rw [Endpoint.read_eq (by omega)]
  simp only [h3, hc3, if_true, readFlush, lt_irrefl, if_false, eval_bind, eval_look,
    Option.bind_some, hflush, eval_change, eval_pure, hroom, eval_acquire hf, eval_storeBytes,
    eval_clear, hlen, hdone, emitReceived, Board.storeAll_setFlag]
  rw [Board.setFlag_setFlag (by rw [Board.storeAll_flag, hf]), eval_assignStarted]
  simp only [Option.bind_some, Board.setFlag, Board.storeAll_started]

end AssembleSymbol

/-! ## An object under way -/

/-- The positions and counters a send starts with. -/
structure Endpoint.SendFresh (s : Endpoint) : Prop where
  position : s.writeOriginPos = 0
  count : s.writeCount = 0
  write3plus1 : s.write3plus1 = 0

/-- The positions and counters a receive starts with. -/
structure Endpoint.ReceiveFresh (r : Endpoint) : Prop where
  lock : r.receiveLock = false
  position : r.readDestinationPos = 0
  count : r.readCount = 0
  read4minus1 : r.read4minus1 = 0
  assembly : r.readAssembly = 0

/-- The content of an object of which so many bytes have been replaced. -/
def replaced (n : ℕ) (new old : ℕ → Byte) (i : ℕ) : Byte := if i < n then new i else old i

/-- **Between two symbols** of an object: `q` groups have been delivered, and
`left` symbols are still to come. The object is the one the receiver holds, or
will pick. -/
structure Underway (D : DescriptorHelper) (j m left : ℕ) (old : ℕ → ℕ → Byte)
    (s r : Endpoint) (h g : Board) : Prop where
  sending : s.sendLock = true
  origin : s.writeOrigin = j
  count : s.writeCount = s.write3plus1
  count_le : s.writeCount ≤ 3
  receiving : r.receiveLock = true ∧ r.readDestination = j
    ∨ r.receiveLock = false ∧ r.readDestinationPos = 0 ∧ D.ids.find? r.readLock = some j
  readCount : r.readCount = s.writeCount
  read4minus1 : r.read4minus1 = s.writeCount
  assembly : r.readAssembly = overlay (symbolOf s.writeAssembly) s.writeCount
  groups : ∃ q < m, left = 4 * (m - q) - s.writeCount ∧ s.writeOriginPos = 3 * q + s.writeCount
    ∧ r.readDestinationPos = 3 * q
    ∧ (∀ i < s.writeCount, s.writeAssembly i = h.obj j (3 * q + i))
    ∧ g.obj = Function.update old j (replaced (3 * q) (h.obj j) (old j))

namespace Underway

variable {n : ℕ} {old : ℕ → ℕ → Byte} {bits : Bool × Bool} {g : Board}

/-- The receiver picks its object with the first symbol. -/
theorem receiver (hu : Underway D j m n old s r h g) :
    ∃ t, Receiving D r t ∧ (r.receiveLock = false → r.readDestinationPos = 0)
      ∧ Underway D j m n old s t h g ∧ t.receiveLock = true ∧ t.readDestination = j
      ∧ t.readLock = r.readLock := by
  obtain ⟨hl, hd⟩ | ⟨hl, h0, find⟩ := hu.receiving
  · exact ⟨r, .held hl, fun hf => absurd (hl.symm.trans hf) (by decide), hu, hl, hd, rfl⟩
  · exact ⟨_, .first hl find, fun _ => h0, { hu with receiving := .inl ⟨rfl, rfl⟩ }, rfl, rfl,
      rfl⟩

/-- The bytes of a group that has been closed. -/
theorem replaced_group {q : ℕ} {new old wa : ℕ → Byte}
    (hwa : ∀ i < 3, wa i = new (3 * q + i)) {k : ℕ} :
    (if 3 * q ≤ k ∧ k < 3 * q + 3 then [wa 0, wa 1, wa 2].getD (k - 3 * q) 0
      else replaced (3 * q) new old k) = replaced (3 * (q + 1)) new old k := by
  simp only [replaced]
  by_cases hk : 3 * q ≤ k ∧ k < 3 * q + 3
  · obtain ⟨i, rfl⟩ : ∃ i, k = 3 * q + i := ⟨k - 3 * q, by omega⟩
    have hi : i < 3 := by omega
    rw [if_pos hk, if_pos (by omega), ← hwa i hi, Nat.add_sub_cancel_left]
    interval_cases i <;> rfl
  · rw [if_neg hk]
    exact if_congr (by omega) rfl rfl

/-- A group that closes is decoded to its bytes. -/
theorem flush (hu : Underway D j m n old s r h g) (h3 : s.writeCount = 3) :
    bitsetToBytearray 3 (readShift r.readAssembly 3 (((s.signal bits).symbol 63).setWidth 24))
      = some [s.writeAssembly 0, s.writeAssembly 1, s.writeAssembly 2] := by
  rw [hu.assembly, h3, ← bitsetToBytearray_overlay]
  refine congrArg _ ?_
  rw [← Stream.overlay_close bits.1 bits.2 _ 63]
  simp only [Endpoint.symbol, Endpoint.signal, h3]

/-- Where the bytes of a group are stored. -/
theorem stored {q : ℕ} {new wa : ℕ → Byte} (hwa : ∀ i < 3, wa i = new (3 * q + i))
    (hobj : g.obj = Function.update old j (replaced (3 * q) new (old j))) :
    (g.storeAll j (3 * q) [wa 0, wa 1, wa 2]).obj
      = Function.update old j (replaced (3 * (q + 1)) new (old j)) := by
  rw [Board.storeAll_obj, hobj, Function.update_idem, Function.update_self]
  exact congrArg _ (funext fun k => replaced_group hwa)

/-- The signal bits are on the symbol. -/
theorem signals_symbol {w : Byte} : signals ((s.signal bits).symbol w) = bits := by
  obtain ⟨h7, h6⟩ := groupSymbol_signals bits.1 bits.2 s.writeAssembly w s.writeCount
  exact Prod.ext h7 h6

/-- **A symbol that is not the last** keeps the object under way. -/
theorem step (bits : Bool × Bool) (hu : Underway D j m (n + 1) old s r h g) (hn : 0 < n)
    (hsize : D.objSize j = 3 * m) (hf : h.flag .descriptorsUpdated = false)
    (hg : g.flag .descriptorsUpdated = false) :
    ∃ s' r' g', (writeObject D).eval onBoard (s.signal bits) h = some (true, s', h)
      ∧ (readObject D s'.comOut).eval onBoard r g = some ((), r', g')
      ∧ signals s'.comOut = bits ∧ Underway D j m n old s' r' h g'
      ∧ s'.transfer = s.transfer ∧ r'.readLock = r.readLock
      ∧ g'.flag .descriptorsUpdated = false := by
  obtain ⟨t, receiving, h0, hu, hl, hd, hlock⟩ := hu.receiver
  obtain ⟨q, hq, hleft, hpos, hpos', hwa, hobj⟩ := hu.groups
  have hc := hu.count
  have hcount := hu.readCount.trans hu.read4minus1.symm
  -- a byte is fetched, or the group is closed, which is not the last one
  obtain h3 | h3 : s.writeCount < 3 ∨ s.writeCount = 3 := by have := hu.count_le; omega
  · refine ⟨_, _, _, eval_writeObject_fetch hu.sending hc (hc.symm.trans_lt h3) hf,
      (eval_readObject receiving h0).trans
        (eval_assembleSymbol_part hl hcount (hu.read4minus1.trans_lt h3)),
      signals_symbol, ?_, rfl, hlock, hg⟩
    refine { hu with
      count := congrArg (· + 1) hc
      count_le := h3
      receiving := .inl ⟨hl, hd⟩
      readCount := congrArg (· + 1) hu.readCount
      read4minus1 := congrArg (· + 1) hu.read4minus1
      assembly := ?_
      groups := ⟨q, hq, ?_, ?_, hpos', fun i hi => ?_, hobj⟩ }
    · simp only [hu.assembly, hu.readCount]
      exact Stream.overlay_fetch _ _ _ _ h3
    · simp only [Endpoint.signal]
      omega
    · simp only [Endpoint.signal, hpos]
      omega
    · simp only [Endpoint.signal, hu.origin, hpos]
      obtain hi | rfl : i < s.writeCount ∨ i = s.writeCount :=
        Nat.lt_succ_iff_lt_or_eq.mp hi
      · rw [Function.update_of_ne hi.ne, hwa i hi]
      · rw [Function.update_self]
  · rw [h3] at hwa hleft hpos
    refine ⟨_, _, _, eval_writeObject_close hu.sending hc (hc.symm.trans h3) ?_,
      (eval_readObject receiving h0).trans (eval_assembleSymbol_group hl hcount
        (hu.read4minus1.trans h3) (hu.flush h3) rfl ?_ hg ?_),
      signals_symbol, ?_, rfl, hlock, ?_⟩
    · simp only [Endpoint.signal, hu.origin]
      omega
    · rw [hd, hpos']
      omega
    · rw [hd, hpos']
      omega
    · exact { hu with
        count := rfl
        count_le := Nat.zero_le _
        receiving := .inl ⟨hl, hd⟩
        readCount := rfl
        read4minus1 := rfl
        assembly := rfl
        groups := ⟨q + 1, by omega, by simp only; omega, by simp only [Endpoint.signal]; omega,
          by simp only; omega, fun i hi => absurd hi (Nat.not_lt_zero i),
          by rw [hd, hpos']; exact stored hwa hobj⟩ }
    · rw [Board.storeAll_flag, hg]

/-- **The last symbol** delivers the object. -/
theorem finish (bits : Bool × Bool) (hu : Underway D j m 1 old s r h g)
    (hsize : D.objSize j = 3 * m) (hg : g.flag .descriptorsUpdated = false) :
    ∃ s' r' h' g', (writeObject D).eval onBoard (s.signal bits) h = some (true, s', h')
      ∧ (readObject D s'.comOut).eval onBoard r g = some ((), r', g')
      ∧ signals s'.comOut = bits ∧ s'.SendFresh ∧ s'.sendLock = false
      ∧ s'.transfer = Function.update s.transfer j false ∧ r'.ReceiveFresh
      ∧ r'.readLock = Function.update r.readLock j false
      ∧ g'.obj = Function.update old j (replaced (3 * m) (h.obj j) (old j)) := by
  obtain ⟨t, receiving, h0, hu, hl, hd, hlock⟩ := hu.receiver
  obtain ⟨q, hq, hleft, hpos, hpos', hwa, hobj⟩ := hu.groups
  have hc := hu.count
  have hcount := hu.readCount.trans hu.read4minus1.symm
  have h3 : s.writeCount = 3 := by have := hu.count_le; omega
  have hqm : m = q + 1 := by omega
  rw [h3] at hwa hpos
  refine ⟨_, _, _, _, eval_writeObject_last hu.sending hc (hc.symm.trans h3) ?_,
    (eval_readObject receiving h0).trans (eval_assembleSymbol_last hl hcount
      (hu.read4minus1.trans h3) (hu.flush h3) rfl ?_ hg ?_),
    signals_symbol, ⟨rfl, rfl, rfl⟩, rfl, ?_, ⟨rfl, rfl, rfl, rfl, rfl⟩, ?_, ?_⟩
  · simp only [Endpoint.signal, hu.origin]
    omega
  · rw [hd, hpos']
    omega
  · rw [hd, hpos']
    omega
  · simp only [Endpoint.signal, hu.origin]
  · simp only [hd, hlock]
  · rw [hqm, ← stored hwa hobj, hd, hpos']
    rfl

/-- **All remaining symbols** are emitted and deliver the object. -/
theorem deliver {signalBits : List (Bool × Bool)} (hn : 0 < n) (hbits : signalBits.length = n)
    (hu : Underway D j m n old s r h g) (hsize : D.objSize j = 3 * m)
    (hf : h.flag .descriptorsUpdated = false) (hg : g.flag .descriptorsUpdated = false) :
    ∃ symbols s' r' h' g', sendAll D signalBits s h = some (symbols, s', h')
      ∧ receiveAll D symbols r g = some (r', g')
      ∧ symbols.map signals = signalBits ∧ s'.SendFresh ∧ s'.sendLock = false
      ∧ s'.transfer = Function.update s.transfer j false ∧ r'.ReceiveFresh
      ∧ r'.readLock = Function.update r.readLock j false
      ∧ g'.obj = Function.update old j (replaced (3 * m) (h.obj j) (old j)) := by
  induction signalBits generalizing n s r g with
  | nil => exact absurd hbits (by simpa using hn.ne)
  | cons bits rest ih =>
    obtain rfl : n = rest.length + 1 := hbits.symm
    obtain hrest | hrest := rest.length.eq_zero_or_pos
    · obtain rfl := List.length_eq_zero_iff.mp hrest
      obtain ⟨s', r', h', g', hw, hr, hsig, hfresh⟩ := hu.finish bits hsize hg
      refine ⟨[s'.comOut], s', r', h', g', ?_, ?_, by rw [List.map_singleton, hsig], hfresh⟩
      · simp only [sendAll, hw, Option.bind_some, if_true, Option.map_some]
      · simp only [receiveAll, hr, Option.bind_some]
    · obtain ⟨s₁, r₁, g₁, hw, hr, hsig, hu₁, htransfer, hlock, hg₁⟩ :=
        hu.step bits hrest hsize hf hg
      obtain ⟨symbols, s', r', h', g', hs, hrs, hsigs, hfresh, hsl, ht, hrf, hrl, hobj⟩ :=
        ih hrest rfl hu₁ hg₁
      refine ⟨s₁.comOut :: symbols, s', r', h', g', ?_, ?_, ?_, hfresh, hsl, ?_, hrf, ?_, hobj⟩
      · simp only [sendAll, hw, Option.bind_some, if_true, hs, Option.map_some]
      · simp only [receiveAll, hr, Option.bind_some, hrs]
      · rw [List.map_cons, hsig, hsigs]
      · rw [ht, htransfer]
      · rw [hrl, hlock]

end Underway

/-! ## A group -/

/-- Four calls of `read` and the conversion of `read_flush`: the bytes of a
group. -/
def decodeGroup (q : ℕ → Byte) (r : Endpoint) : Option (List Byte) :=
  bitsetToBytearray 3 ((((r.read (q 0)).read (q 1)).read (q 2)).read (q 3)).readAssembly

/-- Successive calls of `write`, with signal bits for each: the symbols. -/
def encode : List (Byte × Bool × Bool) → Endpoint → List Byte
  | [], _ => []
  | (w, bits) :: rest, s =>
    ((s.signal bits).write w).comOut :: encode rest ((s.signal bits).write w)

theorem decodeGroup_eq {q : ℕ → Byte} (hr : r.ReceiveFresh) :
    decodeGroup q r
      = some [digit (overlay q 4) 0, digit (overlay q 4) 1, digit (overlay q 4) 2] := by
  rw [← bitsetToBytearray_three]
  simp [decodeGroup, Endpoint.read, hr.count, hr.assembly, overlay]

/-- A byte of a group is encoded with those before it. -/
theorem write_fetch {w : ℕ → Byte} {n : ℕ} (hn : n < 3) (hc : s.writeCount = n)
    (hw : ∀ i < n, s.writeAssembly i = w i) :
    stateCode (s.write (w n)).comOut = symbolOf w n ∧ (s.write (w n)).writeCount = n + 1
      ∧ ∀ i < n + 1, (s.write (w n)).writeAssembly i = w i := by
  have hupdate : ∀ i < n + 1, Function.update s.writeAssembly n (w n) i = w i := by
    intro i hi
    obtain hi | rfl : i < n ∨ i = n := Nat.lt_succ_iff_lt_or_eq.mp hi
    · rw [Function.update_of_ne hi.ne, hw i hi]
    · rw [Function.update_self]
  rw [Endpoint.write_eq (by omega)]
  simp only [Endpoint.symbol, hc, hn.ne, if_false, stateCode_groupSymbol _ _ _ _ hn]
  exact ⟨symbolOf_congr fun i hi _ => hupdate i (by omega), trivial, hupdate⟩

theorem encode_group {w : ℕ → Byte} {bits : ℕ → Bool × Bool} (hs : s.SendFresh) :
    (encode [(w 0, bits 0), (w 1, bits 1), (w 2, bits 2), (63, bits 3)] s).map stateCode
      = (List.range 4).map (symbolOf w) := by
  obtain ⟨h₀, hc₁, hw₁⟩ := write_fetch (s := s.signal (bits 0)) (by decide : 0 < 3) hs.count
    fun i hi => absurd hi (Nat.not_lt_zero i)
  obtain ⟨h₁, hc₂, hw₂⟩ := write_fetch
    (s := ((s.signal (bits 0)).write (w 0)).signal (bits 1)) (by decide : 1 < 3) hc₁ hw₁
  obtain ⟨h₂, hc₃, hw₃⟩ := write_fetch
    (s := ((((s.signal (bits 0)).write (w 0)).signal (bits 1)).write (w 1)).signal (bits 2))
    (by decide : 2 < 3) hc₂ hw₂
  simp only [encode, List.map_cons, List.map_nil, h₀, h₁, h₂]
  rw [Endpoint.write_eq (by simp only [Endpoint.signal] at *; omega)]
  simp only [Endpoint.symbol, Endpoint.signal] at hc₃ hw₃ ⊢
  rw [hc₃, stateCode_groupSymbol_three, symbolOf_congr fun i hi h3 => hw₃ i (by omega)]
  rfl

/-! ## The round trip -/

/-- **The round trip of an object.** Exactly `4 * m` symbols are emitted, with
the signal bits given, and they reproduce the object, whatever those bits are.
Both ends are then as fresh as before. Conversely, any four symbols are the
encoding of the three bytes they decode to. -/
theorem object_round_trip {g : Board} (hm : 0 < m) (hsize : D.objSize j = 3 * m)
    (hj : j < D.count) (hs : s.SendFresh) (hl : s.sendLock = true) (ho : s.writeOrigin = j)
    (hr : r.ReceiveFresh) (hlock : r.readLock j = true) (hfirst : ∀ i < j, r.readLock i = false)
    (hf : h.flag .descriptorsUpdated = false) (hg : g.flag .descriptorsUpdated = false) :
    (∀ signalBits : List (Bool × Bool), signalBits.length = 4 * m →
      ∃ symbols s' r' h' g', sendAll D signalBits s h = some (symbols, s', h')
        ∧ symbols.map signals = signalBits
        ∧ (∀ bits, sendAll D [bits] s' h' = none)
        ∧ receiveAll D symbols r g = some (r', g')
        ∧ (∀ i < 3 * m, g'.obj j i = h.obj j i)
        ∧ (∀ k i, k ≠ j ∨ 3 * m ≤ i → g'.obj k i = g.obj k i)
        ∧ s'.SendFresh ∧ s'.sendLock = false ∧ s'.transfer = Function.update s.transfer j false
        ∧ r'.ReceiveFresh ∧ r'.readLock = Function.update r.readLock j false)
    ∧ ∀ (q : ℕ → Byte) (bits : ℕ → Bool × Bool), ∃ a b c, decodeGroup q r = some [a, b, c]
      ∧ (encode [(a, bits 0), (b, bits 1), (c, bits 2), (63, bits 3)] s).map stateCode
        = (List.range 4).map fun n => stateCode (q n) := by
  refine ⟨fun signalBits hbits => ?_, fun q bits => ⟨_, _, _, decodeGroup_eq hr, ?_⟩⟩
  · have hfind : D.ids.find? r.readLock = some j :=
      List.find?_range_eq_some.mpr ⟨hlock, List.mem_range.mpr hj, fun i hi => by
        rw [hfirst i hi]; rfl⟩
    -- all of the `4 * m` symbols are still to come
    have hu : Underway D j m (4 * m) g.obj s r h g :=
      { sending := hl
        origin := ho
        count := hs.count.trans hs.write3plus1.symm
        count_le := hs.count.trans_le (Nat.zero_le _)
        receiving := .inr ⟨hr.lock, hr.position, hfind⟩
        readCount := hr.count.trans hs.count.symm
        read4minus1 := hr.read4minus1.trans hs.count.symm
        assembly := by rw [hr.assembly, hs.count]; rfl
        groups := ⟨0, hm, by rw [hs.count]; rfl, by rw [hs.count, hs.position], hr.position,
          fun i hi => absurd hi (by rw [hs.count]; exact Nat.not_lt_zero i),
          (Function.update_eq_self j g.obj).symm⟩ }
    obtain ⟨symbols, s', r', h', g', hsend, hreceive, hsig, hfresh, hsl, ht, hrf, hrl, hobj⟩ :=
      hu.deliver (by omega) hbits hsize hf hg
    refine ⟨symbols, s', r', h', g', hsend, hsig, fun bits => ?_, hreceive, fun i hi => ?_,
      fun k i hk => ?_, hfresh, hsl, ht, hrf, hrl⟩
    · simp only [sendAll]
      rw [eval_writeObject_none (by exact hsl)]
      rfl
    · rw [hobj, Function.update_self, replaced, if_pos hi]
    · rw [hobj]
      obtain hk | hi := hk
      · rw [Function.update_of_ne hk]
      · by_cases hkj : k = j
        · rw [hkj, Function.update_self, replaced, if_neg (by omega)]
        · rw [Function.update_of_ne hkj]
  · rw [encode_group hs]
    exact List.map_congr_left fun n hn => symbolOf_digit q (List.mem_range.mp hn)

/-- Two groups, with a request bit on every symbol. -/
theorem object_round_trip_six : ∃ symbols s' r' h' g',
    sendAll (.ofSizes [6] (by decide)) (List.replicate 8 (true, false))
        { sendLock := true, writeOrigin := 0 } (.initial fun _ i => BitVec.ofNat 8 (50 * i))
      = some (symbols, s', h')
    ∧ receiveAll (.ofSizes [6] (by decide)) symbols
        { readLock := fun i => i = 0 } (.initial fun _ _ => 0) = some (r', g')
    ∧ ∀ i < 6, g'.obj 0 i = BitVec.ofNat 8 (50 * i) := by
  obtain ⟨symbols, s', r', h', g', hs, -, -, hr, hobj, -⟩ :=
    (object_round_trip (D := .ofSizes [6] (by decide)) (j := 0) (m := 2)
      (s := { sendLock := true, writeOrigin := 0 }) (r := { readLock := fun i => i = 0 })
      (h := .initial fun _ i => BitVec.ofNat 8 (50 * i)) (g := .initial fun _ _ => 0)
      (by decide) rfl (by decide) ⟨rfl, rfl, rfl⟩ rfl rfl ⟨rfl, rfl, rfl, rfl, rfl⟩ rfl
      (fun i hi => absurd hi (Nat.not_lt_zero i)) rfl rfl).1 (List.replicate 8 (true, false))
      rfl
  exact ⟨symbols, s', r', h', g', hs, hr, hobj⟩

end SOS
