import SoftwareOnSilicon.Session

/-!
# The stream of an object

A sender and a receiver of the same object hold the parts of it that are
under way in different places: the sender has the bytes of the current group
in `writeAssembly`, the receiver has what it made of their symbols in
`readAssembly`, and each of them has two counters and a position. `Stream` is
what these have to do with one another while no symbol is in flight.

One payload symbol keeps it (`Stream.step`), whatever its signal bits. This is
where the codec of a group enters, and where a completed receive is matched
with the completed send: they have the same object and the same bytes.
-/

namespace SOS

open Interleaving

variable {D : DescriptorHelper} {A A' B B' T U : Endpoint}

/-- **A sender `A` and a receiver `B`** with no symbol in flight. -/
structure Stream (A B : Endpoint) : Prop where
  lock : B.receiveLock = A.sendLock
  object : A.sendLock = true → B.readDestination = A.writeOrigin
  position : A.writeOriginPos = B.readDestinationPos + A.writeCount
  count : B.readCount = A.writeCount
  assembly : B.readAssembly = overlay (symbolOf A.writeAssembly) A.writeCount
  fetched : A.history.fetched
    = B.history.stored ++ (List.range A.writeCount).map A.writeAssembly

/-- What a payload symbol has done to the two ends: nothing, or both have
completed the same object with the same bytes. -/
inductive Delivered (A B A' B' : Endpoint) : Prop
  | part (transfer : A'.transfer = A.transfer) (readLock : B'.readLock = B.readLock)
      (sent : A'.history.sent = A.history.sent)
      (received : B'.history.received = B.history.received)
      (busy : A'.sendLock = true)
  | last (j : ℕ) (bytes : List Byte) (held : A.transfer j = true)
      (transfer : A'.transfer = Function.update A.transfer j false)
      (readLock : B'.readLock = Function.update B.readLock j false)
      (sent : A'.history.sent = A.history.sent ++ [(j, bytes)])
      (received : B'.history.received = B.history.received ++ [(j, bytes)])
      (done : A'.sendLock = false)

/-- Choosing the object to send changes no lock and completes nothing. -/
theorem Sending.frame (h : Sending D A T) :
    T.transfer = A.transfer ∧ T.history.sent = A.history.sent := by
  cases h <;> exact ⟨rfl, rfl⟩

/-- Choosing the object to receive changes no lock and completes nothing. -/
theorem Receiving.frame (h : Receiving D B U) :
    U.readLock = B.readLock ∧ U.history.received = B.history.received := by
  cases h <;> exact ⟨rfl, rfl⟩

namespace Stream

/-- Two ends at rest. -/
theorem of_rest (hA : Session D A) (hB : Session D B) (hs : A.sendLock = false)
    (hr : B.receiveLock = false) : Stream A B := by
  obtain ⟨hpos, hcount, hfetched⟩ := hA.notSending hs
  obtain ⟨hpos', hcount', -, hstored⟩ := hB.notReceiving hr
  have hzero : A.writeCount = 0 := hA.writeCount_eq.trans hcount
  refine ⟨hr.trans hs.symm, fun h => absurd (hs.symm.trans h) (by decide), ?_, ?_, ?_, ?_⟩
  · rw [hpos, hpos', hzero]
  · rw [hcount', hzero]
  · rw [hB.assembly hcount', hzero]; rfl
  · simp [hfetched, hstored, hzero]

/-- Both ends pick the same object to start with. -/
theorem start (h : Stream A B) (hfind : D.ids.find? B.readLock = D.ids.find? A.transfer)
    (hs : Sending D A T) (hr : Receiving D B U) : Stream T U ∧ T.sendLock = true := by
  cases hs with
  | held hA =>
    cases hr with
    | held hB => exact ⟨h, hA⟩
    | first hB => exact absurd (hB.symm.trans (h.lock.trans hA)) (by decide)
  | @first j hA find =>
    cases hr with
    | held hB => exact absurd (hB.symm.trans (h.lock.trans hA)) (by decide)
    | @first i hB find' =>
      have hij : i = j := Option.some.inj (find'.symm.trans (hfind.trans find))
      exact ⟨{ h with lock := rfl, object := fun _ => hij }, rfl⟩

/-- Overlaying a fetched byte's symbol. -/
theorem overlay_fetch (u a : Bool) (wa : ℕ → Byte) (w : Byte) {n : ℕ} (hn : n < 3) :
    readShift (overlay (symbolOf wa) n) n ((groupSymbol u a wa w n).setWidth 24)
      = overlay (symbolOf (Function.update wa n w)) (n + 1) := by
  rw [← readShift_stateCode, stateCode_groupSymbol u a wa w hn, overlay]
  congr 1
  refine overlay_congr fun i hi => symbolOf_congr fun k hk _ => ?_
  rw [Function.update_of_ne (by omega)]

/-- Overlaying the symbol that closes a group. -/
theorem overlay_close (u a : Bool) (wa : ℕ → Byte) (w : Byte) :
    readShift (overlay (symbolOf wa) 3) 3 ((groupSymbol u a wa w 3).setWidth 24)
      = overlay (symbolOf wa) 4 := by
  rw [← readShift_stateCode, stateCode_groupSymbol_three]
  rfl

/-- A group that closes decodes to the bytes it was made of. -/
theorem flush_close {u a : Bool} {wa : ℕ → Byte} {w : Byte} {bytes : List Byte}
    (h : bitsetToBytearray 3 (readShift (overlay (symbolOf wa) 3) 3
      ((groupSymbol u a wa w 3).setWidth 24)) = some bytes) :
    bytes = (List.range 3).map wa := by
  rw [overlay_close, bitsetToBytearray_overlay] at h
  exact (Option.some.inj h).symm

/-- A sender's byte is one the receiver has room for: the two agree on where in
the object they are. -/
theorem remaining (h : Stream T U) (hl : T.sendLock = true) (h3 : T.writeCount = 3) :
    T.writeOriginPos = D.objSize T.writeOrigin
      ↔ U.readDestinationPos + 3 = D.objSize U.readDestination := by
  rw [h.object hl, h.position, h3]

/-- **One payload symbol** is taken for what it is, whatever its signal bits:
the stream goes on, or both ends have completed the object. -/
theorem step (hA : Session D A) (hq : A.vars.acknowledgeRequested = false)
    (hD : D.Triples) (h : Stream A B)
    (hfind : D.ids.find? B.readLock = D.ids.find? A.transfer) (hs : Sending D A T)
    (hf : Fed D T A') (hb : Assembled D A'.comOut B B') :
    Stream A' B' ∧ Delivered A B A' B' := by
  obtain ⟨hT, hl, -⟩ := hA.of_sending hD hq hs
  have hstart : ∀ {U}, Receiving D B U → Stream T U := fun hr => (h.start hfind hs hr).1
  -- both ends count alike, so that only the three cases on the diagonal occur
  cases hf with
  | fetch w count =>
    cases hb with
    | @part U receiving count' =>
      have hTU := hstart receiving
      refine ⟨{ lock := hTU.lock, object := hTU.object, position := ?_, count := ?_,
                assembly := ?_, fetched := ?_ }, ?_⟩
      · simp only [hTU.position]
        omega
      · simp only [hTU.count]
      · simp only [hTU.assembly, hTU.count]
        exact overlay_fetch _ _ _ _ count
      · have hmap : (List.range T.writeCount).map (Function.update T.writeAssembly T.writeCount w)
            = (List.range T.writeCount).map T.writeAssembly :=
          List.map_congr_left fun i hi =>
            Function.update_of_ne (List.mem_range.mp hi).ne _ _
        simp only [hTU.fetched, List.range_succ, List.map_append, hmap, List.map_cons,
          List.map_nil, Function.update_self, List.append_assoc]
      · exact .part hs.frame.1 receiving.frame.1 hs.frame.2 receiving.frame.2 hl
    | group receiving count' => exact absurd ((hstart receiving).count) (by omega)
    | last receiving count' => exact absurd ((hstart receiving).count) (by omega)
  | close count more =>
    cases hb with
    | part receiving count' => exact absurd ((hstart receiving).count) (by omega)
    | @group U bytes receiving count' flush more' =>
      have hTU := hstart receiving
      simp only [Endpoint.symbol, hTU.assembly, count] at flush
      have hbytes := flush_close flush
      refine ⟨{ lock := hTU.lock, object := hTU.object, position := ?_, count := ?_,
                assembly := ?_, fetched := ?_ }, ?_⟩
      · simpa only [count] using hTU.position
      · simp only
      · simp only [overlay]
      · simp only [hTU.fetched, hbytes, count, List.range_zero, List.map_nil,
          List.append_nil]
      · exact .part hs.frame.1 receiving.frame.1 hs.frame.2 receiving.frame.2 hl
    | last receiving count' flush done =>
      exact absurd ((hstart receiving).remaining hl count |>.mpr done) more
  | last count done =>
    cases hb with
    | part receiving count' => exact absurd ((hstart receiving).count) (by omega)
    | group receiving count' flush more =>
      exact absurd ((hstart receiving).remaining hl count |>.mp done) more
    | @last U bytes receiving count' flush done' =>
      have hTU := hstart receiving
      simp only [Endpoint.symbol, hTU.assembly, count] at flush
      have hbytes := flush_close flush
      have hfetched : T.history.fetched = U.history.stored ++ bytes := by
        rw [hTU.fetched, hbytes, count]
      have hobject := hTU.object hl
      refine ⟨{ lock := ?_, object := ?_, position := ?_, count := ?_,
                assembly := ?_, fetched := ?_ }, ?_⟩
      · simp only
      · simp only [Bool.false_eq_true, false_implies]
      · simp only
      · simp only
      · simp only [overlay]
      · simp only [List.range_zero, List.map_nil, List.append_nil]
      refine .last T.writeOrigin T.history.fetched ?_ ?_ ?_ ?_ ?_ rfl
      · exact hs.frame.1 ▸ (hT.origin hl).1
      · simp only [hs.frame.1]
      · simp only [receiving.frame.1, hobject]
      · simp only [hs.frame.2]
      · simp only [receiving.frame.2, hobject, hfetched]

end Stream

end SOS
