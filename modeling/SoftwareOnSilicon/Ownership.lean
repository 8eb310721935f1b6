import SoftwareOnSilicon.Custody
import SoftwareOnSilicon.Cycle
import SoftwareOnSilicon.Round

/-!
# What the two threads of an end know of the write requests

An outline of the communication thread and the resolver, which follows the
`Custody`. The communication thread asserts that it sends what has been acknowledged
and that the bytes it has fetched are those of the object; the resolver, that what
is pending is what is in custody.

Where no write start stores into an object that is being received (`apart`), the
communication thread also knows the bytes it has stored.
-/

namespace SOS

open Interleaving Code

variable {D : DescriptorHelper} {r : Role} {apart : Prop}

/-! ## The environment -/

/-- An object is being received, until `emit_received` has told the resolver. -/
def Endpoint.Receives (s : Endpoint) (j : ℕ) : Prop :=
  s.readLock j = true ∨ s.readDestination = j ∧ s.readDestinationPos ≠ 0

/-- **No write start stores into an object that is being received.** -/
def Isolated (σ σ' : (process D r).State) : Prop :=
  ∀ s j i b k u, σ.thread .resolver = .op s ⟨.writeStart, .store j i b⟩ k →
    σ'.thread .resolver = k u → ¬ (σ.thread .communication).state.Receives j

/-- What other threads leave alone at an end: the objects, and the flags of the write
requests. -/
structure Undisturbed (σ : (process D r).State) (w : World) : Prop where
  obj : (w.board r).obj = (σ.world.board r).obj
  flag : ∀ f, f.isRequest = true → (w.board r).flag f = (σ.world.board r).flag f

/-! ## The outline -/

/-- The resolver is told that an object has been received. -/
def Op.ReportsRead (j : ℕ) (o : Op) : Prop :=
  o = ⟨.emitReceived, .loadStartedWord j⟩ ∨ (∃ b m, o = ⟨.emitReceived, .storeStarted j b m⟩)
    ∨ o = ⟨.emitReceived, .clear (.readAck j)⟩

namespace Custody

/-- **What the communication thread asserts all through a cycle**, where the symbols that
have been handed over of the object in transit carry `e`. -/
structure Mid (apart : Prop) (e : List Byte) (s : Endpoint) (h : Custody) : Prop where
  peek : h.peek = none
  sending : ∀ j, h.token j = .sending ↔ s.transfer j = true
  steady : ∀ j, h.token j ≠ .canceling ∧ h.token j ≠ .faulted
  awaited : s.vars.acknowledgeRequested = true → h.token s.waitingConfirmation = .queued
  exclusive : ∀ j, s.transfer j = true → s.readLock j = false
  /-- What has been fetched is what is there. -/
  fetched : s.sendLock = true → s.transfer s.writeOrigin = true
    ∧ s.history.fetched = (List.range s.writeOriginPos).map (h.obj s.writeOrigin)
  fetches : ∀ j, s.transfer j = true → h.fetches j
    = if s.writeOrigin = j then (List.range s.writeOriginPos).map (fun i => (i, h.obj j i)) else []
  emits : ∀ j, s.transfer j = true → h.emits j
    = if s.sendLock = true ∧ s.writeOrigin = j then e else []
  unsent : s.sendLock = false → e = []
  /-- What has been stored is what is there. -/
  stored : apart → s.receiveLock = true → s.readLock s.readDestination = true
    ∧ s.history.stored = (List.range s.readDestinationPos).map (h.obj s.readDestination)

/-- **What the communication thread asserts before an operation.** -/
structure CommNode (D : DescriptorHelper) (apart : Prop) (s : Endpoint) (o : Op) (h : Custody) :
    Prop where
  worker : o.By .communication
  pre : h.Pre D o
  peek : ∀ j, h.peek = some j → o.access = .clear (.syncMe j)
  sending : ∀ j, h.token j = .sending → s.transfer j = true
  transfer : ∀ j, s.transfer j = true → h.token j = .sending
    ∨ o = ⟨.emitTransfer, .testAndSet (.syncMe j)⟩
  canceling : ∀ j, h.token j = .canceling ∨ h.token j = .faulted → o.site = .emitReadlocked
    ∧ (o.access = .clear (.writeFault j) ∨ o.access = .clear (.writeAck j))
  sent : ∀ j, o = ⟨.emitSent, .clear (.writeAck j)⟩ →
    s.transfer j = true ∧ s.history.fetched = (List.range (D.objSize j)).map (h.obj j)
  received : apart → ∀ j, o.ReportsRead j → (D.objSize j ≠ 0 → s.Receives j)
    ∧ (List.range (D.objSize j)).map (h.obj j) = decodeSymbols s.history.symbols
  handing : ∀ b, o.access = .handshakeAck b → s.sendLock = true → s.transfer s.writeOrigin = true

/-- **What the resolver asserts between two operations.** -/
structure Held (s : Resolver) (h : Custody) : Prop where
  pending : ∀ j, s.pendingWriteRequest j = true ↔ h.token j ≠ .free
  settled : ∀ j, h.token j ≠ .settling ∧ h.token j ≠ .dropping ∧ h.token j ≠ .dropped

/-- **What the resolver asserts before an operation.** -/
structure ResolverNode (D : DescriptorHelper) (s : Resolver) (o : Op) (h : Custody) : Prop where
  worker : o.By .resolver
  pre : h.Pre D o
  pending : ∀ j, s.pendingWriteRequest j = true ↔ h.token j ≠ .free
    ∨ o = ⟨.writeStart, .clear (.syncMe j)⟩
  settled : ∀ j, h.token j ≠ .dropped ∧ (h.token j = .settling ∨ h.token j = .dropping →
    o = ⟨.resolve, .testAndSet (.writeFault j)⟩ ∨ o = ⟨.resolve, .storeWriteEndId j⟩)

/-- What the communication thread relies on. -/
structure CommRely (apart : Prop) (s : Endpoint) (h h' : Custody) : Prop
    extends Rely .communication h h' where
  isolated : apart → ∀ j, s.Receives j → h'.obj j = h.obj j

variable {h h' h'' : Custody} {o : Op} {e : List Byte}

section Communication

variable {s s' : Endpoint}

theorem CommRely.refl (s : Endpoint) (h : Custody) : CommRely apart s h h where
  toRely := .refl _ h
  isolated _ _ _ := rfl

theorem CommRely.trans (h₁ : CommRely apart s h h') (h₂ : CommRely apart s h' h'') :
    CommRely apart s h h'' where
  toRely := h₁.toRely.trans h₂.toRely
  isolated ha j hj := (h₂.isolated ha j hj).trans (h₁.isolated ha j hj)

theorem CommNode.stable (hn : CommNode D apart s o h) (hr : CommRely apart s h h') :
    CommNode D apart s o h' where
  worker := hn.worker
  pre := hn.pre.stable_by hn.worker hr.toRely
  peek j hj := hn.peek j ((hr.peek rfl).symm.trans hj)
  sending j hj := hn.sending j ((hr.owned rfl rfl).mp hj)
  transfer j hj := (hn.transfer j hj).imp_left (hr.owned rfl rfl).mpr
  canceling j hj := hn.canceling j (hj.imp (hr.owned rfl rfl).mp (hr.owned rfl rfl).mp)
  sent j ho := by
    obtain ⟨htransfer, hfetched⟩ := hn.sent j ho
    refine ⟨htransfer, ?_⟩
    obtain hsending | hf := hn.transfer j htransfer
    · rw [(hr.kept rfl j (by rw [hsending]; rfl)).1, hfetched]
    · rw [hf] at ho
      cases ho
  received ha j ho := by
    obtain ⟨hreceives, hsymbols⟩ := hn.received ha j ho
    refine ⟨hreceives, ?_⟩
    by_cases hempty : D.objSize j = 0
    · rw [← hsymbols, hempty]
      rfl
    · rw [hr.isolated ha j (hreceives hempty), hsymbols]
  handing := hn.handing

/-- **A cycle survives interference.** -/
theorem Mid.rely (hm : Mid apart e s h) (hr : CommRely apart s h h') : Mid apart e s h' where
  peek := (hr.peek rfl).trans hm.peek
  sending j := (hr.owned rfl rfl).trans (hm.sending j)
  steady j := ⟨fun hf => (hm.steady j).1 ((hr.owned rfl rfl).mp hf),
    fun hf => (hm.steady j).2 ((hr.owned rfl rfl).mp hf)⟩
  awaited ha := by
    have hq := hm.awaited ha
    rw [hr.own _ (by rw [hq]; rfl), hq]
  exclusive := hm.exclusive
  fetched hs := by
    obtain ⟨htransfer, hfetched⟩ := hm.fetched hs
    have hsending := (hm.sending _).mpr htransfer
    rw [(hr.kept rfl _ (by rw [hsending]; rfl)).1]
    exact ⟨htransfer, hfetched⟩
  fetches j hj := by
    have hsending := (hm.sending j).mpr hj
    obtain ⟨hobj, hfetches, -⟩ := hr.kept rfl j (by rw [hsending]; rfl)
    rw [hfetches, hobj]
    exact hm.fetches j hj
  emits j hj := by
    have hsending := (hm.sending j).mpr hj
    rw [(hr.kept rfl j (by rw [hsending]; rfl)).2.2]
    exact hm.emits j hj
  unsent := hm.unsent
  stored ha hl := by
    obtain ⟨hlock, hstored⟩ := hm.stored ha hl
    rw [hr.isolated ha _ (.inl hlock)]
    exact ⟨hlock, hstored⟩

end Communication

section Resolver

variable {s : Resolver}

theorem ResolverNode.stable (hn : ResolverNode D s o h) (hr : Rely .resolver h h') :
    ResolverNode D s o h' where
  worker := hn.worker
  pre := hn.pre.stable_by hn.worker hr
  pending j := by
    rw [hn.pending j, ne_eq, ne_eq, hr.owned rfl rfl]
  settled j := by
    obtain ⟨hdropped, hsettled⟩ := hn.settled j
    exact ⟨fun hd => hdropped ((hr.owned rfl rfl).mp hd), fun hs => hsettled
      (hs.imp (hr.owned rfl rfl).mp (hr.owned rfl rfl).mp)⟩

theorem Held.rely (hs : Held s h) (hr : Rely .resolver h h') : Held s h' where
  pending j := by rw [hs.pending j, ne_eq, ne_eq, hr.owned rfl rfl]
  settled j := by
    obtain ⟨h₁, h₂, h₃⟩ := hs.settled j
    exact ⟨fun hf => h₁ ((hr.owned rfl rfl).mp hf), fun hf => h₂ ((hr.owned rfl rfl).mp hf),
      fun hf => h₃ ((hr.owned rfl rfl).mp hf)⟩

end Resolver

end Custody

/-- **The outline of the two threads of an end.** -/
def custodyOutline (D : DescriptorHelper) (r : Role) (apart : Prop) :
    (process D r).Outline Custody where
  follows h w := h.Follows D (w.board r)
  step i s o a h h' := h' = (h.after o a).passed i s o ∧ h.Told o a
  node
    | .communication, s, o, h => h.CommNode D apart s o
    | .resolver, s, o, h => h.ResolverNode D s o
  rest
    | .communication, s, h =>
      AtRest D s ∧ s.progress.Grouped ∧ h.Mid apart s.progress.emitted s
    | .resolver, s, h => h.Held s
  error _ _ _ _ := True
  rely
    | .communication, s, h, h' => Custody.CommRely apart s h h'
    | .resolver, _, h, h' => Custody.Rely .resolver h h'
  refl i s h := by
    cases i with
    | communication => exact .refl s h
    | resolver => exact .refl _ h
  trans i s h h' h'' h₁ h₂ := by
    cases i with
    | communication => exact h₁.trans h₂
    | resolver => exact h₁.trans h₂
  node_stable i s o h h' hr hn := by
    cases i with
    | communication => exact hn.stable hr
    | resolver => exact hn.stable hr
  rest_stable i s h h' hr hn := by
    cases i with
    | communication => exact ⟨hn.1, hn.2.1, hn.2.2.rely hr⟩
    | resolver => exact hn.rely hr

/-! ## The communication thread -/

namespace Custody.Mid

variable {s s' : Endpoint} {h h' : Custody} {o : Op} {e : List Byte}

/-- An operation that keeps to the flags. The reports need more than that. -/
theorem node (hm : Mid apart e s h) (hw : o.By .communication) (hp : h.Pre D o)
    (hsent : ∀ j, o = ⟨.emitSent, .clear (.writeAck j)⟩ →
      s.transfer j = true ∧ s.history.fetched = (List.range (D.objSize j)).map (h.obj j))
    (hread : apart → ∀ j, o.ReportsRead j → (D.objSize j ≠ 0 → s.Receives j)
      ∧ (List.range (D.objSize j)).map (h.obj j) = decodeSymbols s.history.symbols) :
    CommNode D apart s o h where
  handing _ _ hl := (hm.fetched hl).1
  worker := hw
  pre := hp
  peek j hj := by
    rw [hm.peek] at hj
    cases hj
  sending j := (hm.sending j).mp
  transfer j hj := .inl ((hm.sending j).mpr hj)
  canceling j hj := absurd hj (not_or.mpr (hm.steady j))
  sent := hsent
  received := hread

/-- **An operation that does not concern the custody.** -/
theorem unnoticed (hm : Mid apart e s h) (hw : o.By .communication) (hp : h.Pre D o)
    (hsent : ∀ j, o ≠ ⟨.emitSent, .clear (.writeAck j)⟩) (hread : ∀ j, ¬ o.ReportsRead j)
    (hgive : ∀ b, o.access ≠ .handshakeAck b) (hafter : ∀ (h : Custody) a, h.after o a = h) :
    ((custodyOutline D r apart).rules .communication).node s o h
    ∧ ∀ a h', ((custodyOutline D r apart).rules .communication).step s o a h h' →
      Mid apart e s h' := by
  refine ⟨hm.node hw hp (fun j ho => absurd ho (hsent j)) (fun _ j ho => absurd ho (hread j)), ?_⟩
  rintro a h' ⟨h₁, hr, rfl, -⟩
  rw [passed_eq hgive, hafter]
  exact hm.rely hr

/-- The private state matters only for the locks, what is awaited, and the bytes of the
objects under way. -/
theorem frame (hm : Mid apart e s h) (hf : Frame s s') : Mid apart e s' h where
  peek := hm.peek
  sending j := hf.transfer ▸ hm.sending j
  steady := hm.steady
  awaited ha := hf.confirmation ha ▸ hm.awaited (hf.requested ▸ ha)
  exclusive j hj := hf.readLock ▸ hm.exclusive j (hf.transfer ▸ hj)
  fetched hs := by
    rw [hf.transfer, hf.writeOrigin, hf.fetched, hf.writeOriginPos]
    exact hm.fetched (hf.sendLock ▸ hs)
  fetches j hj := by
    rw [hf.writeOrigin, hf.writeOriginPos]
    exact hm.fetches j (hf.transfer ▸ hj)
  emits j hj := by
    rw [hf.sendLock, hf.writeOrigin]
    exact hm.emits j (hf.transfer ▸ hj)
  unsent hl := hm.unsent (hf.sendLock ▸ hl)
  stored ha hl := by
    rw [hf.readLock, hf.readDestination, hf.stored, hf.readDestinationPos]
    exact hm.stored ha (hf.receiveLock ▸ hl)

/-- A request has been peeked at, and the flag is put back. -/
theorem putBack {x : Option ℕ} (hm : Mid apart e s h)
    (hr : CommRely apart s { h with peek := x } h') : Mid apart e s { h' with peek := none } :=
  hm.rely
    { own := hr.own
      given := hr.given
      peek := fun _ => hm.peek.symm
      kept := hr.kept
      isolated := hr.isolated }

/-- What is sent, after one object has been passed on. -/
theorem sending_set {j : ℕ} {t : Token} {v : Bool} (hm : Mid apart e s h)
    (ht : t = .sending ↔ v = true) (k : ℕ) :
    (h.set j t).token k = .sending ↔ Function.update s.transfer j v k = true := by
  by_cases hk : k = j
  · subst hk
    rw [set_self, Function.update_self, ht]
  · rw [set_of_ne _ _ hk, Function.update_of_ne hk]
    exact hm.sending k

theorem steady_set {j : ℕ} {t : Token} (hm : Mid apart e s h)
    (ht : t ≠ .canceling ∧ t ≠ .faulted) (k : ℕ) :
    (h.set j t).token k ≠ .canceling ∧ (h.set j t).token k ≠ .faulted := by
  by_cases hk : k = j
  · subst hk
    rw [set_self]
    exact ht
  · rw [set_of_ne _ _ hk]
    exact hm.steady k

/-- A request that is neither awaited nor sent is given away. -/
theorem drop {j : ℕ} {t : Token} (hm : Mid apart e s h) (hj : s.transfer j = false)
    (hw : s.vars.acknowledgeRequested = true → s.waitingConfirmation ≠ j)
    (ht : t.owner = .resolver) : Mid apart e s (h.set j t) where
  peek := hm.peek
  sending k := by
    have hset := hm.sending_set (j := j) (t := t) (v := false) (by
      constructor
      · rintro rfl
        cases ht
      · intro hf
        cases hf) k
    rwa [← hj, Function.update_eq_self] at hset
  steady := hm.steady_set (by constructor <;> (rintro rfl; cases ht))
  awaited ha := by
    rw [set_of_ne _ _ (hw ha)]
    exact hm.awaited ha
  exclusive := hm.exclusive
  fetched := hm.fetched
  fetches := hm.fetches
  emits := hm.emits
  unsent := hm.unsent
  stored := hm.stored

end Custody.Mid

/-- Where a request has been given away does not matter. -/
theorem Custody.CommRely.set {s : Endpoint} {h h' : Custody} {j : ℕ} {t : Token}
    (hr : CommRely apart s h h') (ht : t.owner = .resolver) :
    CommRely apart s (h.set j t) (h'.set j t) where
  own k hk := by
    by_cases hj : k = j
    · subst hj
      rw [set_self, set_self]
    · rw [set_of_ne _ _ hj] at hk ⊢
      rw [set_of_ne _ _ hj]
      exact hr.own k hk
  given k hn hi := by
    by_cases hj : k = j
    · subst hj
      rw [set_self, ht] at hi
      cases hi
    · rw [set_of_ne _ _ hj] at hn hi ⊢
      exact hr.given k hn hi
  peek := hr.peek
  kept hi k hk := by
    by_cases hj : k = j
    · subst hj
      rw [set_self, ht] at hk
      cases hk
    · rw [set_of_ne _ _ hj] at hk
      exact hr.kept hi k hk
  isolated := hr.isolated

namespace Custody.Mid

variable {s s' : Endpoint} {h h' : Custody} {j : ℕ} {e : List Byte}

/-- **`check_sync`** leaves a request where it is. -/
theorem checkSync {site : Site} (hsite : site = .getFirstTransfer ∨ site = .transfersPending)
    (hm : Mid apart e s h) : ((checkSync site j).run s).Safe
      ((custodyOutline D r apart).rules .communication) (fun s' b h' => s' = s ∧ Mid apart e s h'
        ∧ (b = true → h'.token j = .queued)) h := by
  have hc : site ≠ .emitReadlocked := by rintro rfl; simp at hsite
  have ht : site ≠ .emitTransfer := by rintro rfl; simp at hsite
  have hs : site ≠ .writeStart := by rintro rfl; simp at hsite
  have hw : site.worker = .communication := by obtain rfl | rfl := hsite <;> rfl
  refine safe_checkSync (hm.node (.inl hw) ⟨hw, hm.peek, fun hf => absurd hf ht⟩
    (by simp) (by simp [Op.ReportsRead])) ?_ ?_
  · rintro h' ⟨h₁, hr, rfl, -⟩
    rw [after_miss]
    exact ⟨rfl, hm.rely hr, fun hf => by cases hf⟩
  · rintro h' ⟨h₁, hr, rfl, htold⟩
    rw [after_peek hc ht]
    have hm₁ := hm.rely hr
    obtain ⟨hqueued, -⟩ := htold.1.mp rfl
    refine ⟨?_, ?_⟩
    · exact
        { worker := .inl hw
          pre := by
            show if site = .writeStart then _ else _
            rw [if_neg hs]
            exact ⟨hw, hqueued, rfl⟩
          peek := fun k hk => by
            obtain rfl := Option.some.inj hk
            rfl
          sending := fun k => (hm₁.sending k).mp
          transfer := fun k hk => .inl ((hm₁.sending k).mpr hk)
          canceling := fun k hk => absurd hk (not_or.mpr (hm₁.steady k))
          sent := fun k hk => by cases hk
          received := fun _ k hk => by simp [Op.ReportsRead] at hk
          handing := fun _ hb => by cases hb }
    · rintro x h'' ⟨h₂, hr₂, rfl, -⟩
      rw [after_putBack hs]
      refine ⟨rfl, hm₁.putBack hr₂, fun _ => ?_⟩
      have hown := hr₂.own j (by
        show (h₁.token j).owner = _
        rw [hqueued]
        rfl)
      exact hown.trans hqueued

/-- A request is being canceled. -/
theorem cancel {t : Token} {f : Flag} (hm : Mid apart e s (h.set j .cancelled))
    (ht : h.token j = t) (hj : s.transfer j = false)
    (hf : t = .canceling ∧ f = .writeFault j ∨ t = .faulted ∧ f = .writeAck j) :
    CommNode D apart s ⟨.emitReadlocked, .clear f⟩ h
    ∧ ∀ (x : Unit) h', ((custodyOutline D r apart).rules .communication).step s
        ⟨.emitReadlocked, .clear f⟩ x h h' → ∃ h₁ : Custody, Mid apart e s (h₁.set j .cancelled)
          ∧ h₁.token j = t ∧ h' = h₁.after ⟨.emitReadlocked, .clear f⟩ x := by
  have hother : ∀ {k}, k ≠ j → (h.set j .cancelled).token k = h.token k := fun hk =>
    set_of_ne _ _ hk
  -- no other request is being canceled
  have hsteady : ∀ {k}, h.token k = .canceling ∨ h.token k = .faulted → k = j := fun hk => by
    by_contra hne
    rw [← hother hne] at hk
    exact not_or.mpr (hm.steady _) hk
  refine ⟨?_, ?_⟩
  · exact
      { worker := .inl rfl
        pre := by obtain ⟨rfl, rfl⟩ | ⟨rfl, rfl⟩ := hf <;> exact ⟨rfl, ht⟩
        peek := fun k hk => by
          rw [show h.peek = none from hm.peek] at hk
          cases hk
        sending := fun k hk => by
          have hne : k ≠ j := by
            rintro rfl
            rw [ht] at hk
            obtain ⟨rfl, -⟩ | ⟨rfl, -⟩ := hf <;> cases hk
          exact (hm.sending k).mp ((hother hne).trans hk)
        transfer := fun k hk => by
          have hne : k ≠ j := by
            rintro rfl
            rw [hj] at hk
            cases hk
          exact .inl ((hother hne).symm.trans ((hm.sending k).mpr hk))
        canceling := fun k hk => by
          obtain rfl := hsteady hk
          obtain ⟨-, rfl⟩ | ⟨-, rfl⟩ := hf
          · exact ⟨rfl, .inl rfl⟩
          · exact ⟨rfl, .inr rfl⟩
        sent := fun k hk => by cases hk
        received := fun _ k hk => by simp [Op.ReportsRead] at hk
        handing := fun _ hb => by cases hb }
  · rintro x h' ⟨h₁, hr, rfl, -⟩
    refine ⟨h₁, hm.rely (hr.set rfl), ?_, rfl⟩
    rw [hr.own j (by rw [ht]; obtain ⟨rfl, -⟩ | ⟨rfl, -⟩ := hf <;> rfl), ht]

/-- **`emit_readlocked`** cancels a request. -/
theorem readlock (hm : Mid apart e s h)
    (hw : s.vars.acknowledgeRequested = true → s.waitingConfirmation ≠ s.incomingRequest)
    (idle : s.transfer s.incomingRequest = false) :
    ((emitReadlocked s.incomingRequest).run s).Safe
      ((custodyOutline D r apart).rules .communication) (fun s' _ h' => s' = s
        ∧ Mid apart e { s with
          readLock := Function.update s.readLock s.incomingRequest true } h') h := by
  have hlast : ∀ h', Mid apart e s h' →
      ((assignStarted .emitReadlocked s.incomingRequest true).run s).Safe
        ((custodyOutline D r apart).rules .communication) (fun s' _ h' => s' = s
          ∧ Mid apart e { s with
            readLock := Function.update s.readLock s.incomingRequest true } h') h' := by
    intro h' hm'
    refine (assignStarted_keeps (fun o h ho hm => ?_) hm').imp ?_
    · cases ho <;> exact hm.unnoticed (.inl rfl) trivial (by simp) (by simp [Op.ReportsRead])
        (by simp) fun _ _ => rfl
    rintro s _ h'' ⟨rfl, hm''⟩
    refine ⟨rfl, ?_⟩
    refine { hm'' with exclusive := fun k hk => ?_, stored := fun ha hl => ?_ }
    · have hne : k ≠ s.incomingRequest := by
        rintro rfl
        exact absurd (idle.symm.trans hk) (by decide)
      exact (Function.update_of_ne hne ..).trans (hm''.exclusive k hk)
    · obtain ⟨hlock, hstored⟩ := hm''.stored ha hl
      refine ⟨?_, hstored⟩
      show Function.update s.readLock s.incomingRequest true s.readDestination = true
      by_cases hd : s.readDestination = s.incomingRequest
      · rw [hd, Function.update_self]
      · rw [Function.update_of_ne hd, hlock]
  refine safe_emitReadlocked (hm.node (.inl rfl) ⟨rfl, hm.peek, fun hf => by cases hf⟩
    (by simp) (by simp [Op.ReportsRead])) ?_ ?_
  · rintro h' ⟨h₁, hr, rfl, -⟩
    exact hlast _ (hm.rely hr)
  · rintro h' ⟨h₁, hr, rfl, -⟩
    have hm₁ : Mid apart e s
        ((h₁.set s.incomingRequest .canceling).set s.incomingRequest .cancelled) := by
      rw [set_set]
      exact (hm.rely hr).drop idle hw rfl
    obtain ⟨hnode, hstep⟩ := hm₁.cancel (D := D) (r := r) (set_self ..) idle (.inl ⟨rfl, rfl⟩)
    refine ⟨hnode, fun x h' hx => ?_⟩
    obtain ⟨h₂, hm₂, -, rfl⟩ := hstep x h' hx
    have hm₂' : Mid apart e s
        ((h₂.set s.incomingRequest .faulted).set s.incomingRequest .cancelled) := by
      rwa [set_set]
    obtain ⟨hnode', hstep'⟩ := hm₂'.cancel (D := D) (r := r) (set_self ..) idle (.inr ⟨rfl, rfl⟩)
    refine ⟨hnode', fun y h' hy => ?_⟩
    obtain ⟨h₃, hm₃, -, rfl⟩ := hstep' y h' hy
    exact hlast _ hm₃

/-- **`emit_transfer`** takes the request that has been acknowledged. -/
theorem accept (hm : Mid apart e s h) (hs : Session D s)
    (hq : s.vars.acknowledgeRequested = true) :
    ((emitTransfer s.waitingConfirmation).run { s with
      transfer := Function.update s.transfer s.waitingConfirmation true }).Safe
      ((custodyOutline D r apart).rules .communication) (fun s' _ h' => s' = { s with
          transfer := Function.update s.transfer s.waitingConfirmation true }
        ∧ Mid apart e { s' with vars.acknowledgeRequested := false } h') h := by
  obtain ⟨-, idle, free, hl⟩ := hs.requested hq
  obtain ⟨hpos, -, -⟩ := hs.notSending hl
  have hqueued := hm.awaited hq
  -- the object that has been acknowledged is not in transfer yet
  have hnever : ∀ {k}, s.transfer k = true → k ≠ s.waitingConfirmation := by
    rintro k hk rfl
    rw [idle] at hk
    cases hk
  refine safe_emitTransfer ?_ ?_
  · exact
      { worker := .inl rfl
        pre := ⟨rfl, hm.peek, fun _ => hqueued⟩
        peek := fun k hk => by
          rw [hm.peek] at hk
          cases hk
        sending := fun k hk => by
          have htransfer := (hm.sending k).mp hk
          exact (Function.update_of_ne (hnever htransfer) ..).trans htransfer
        transfer := fun k hk => by
          by_cases hne : k = s.waitingConfirmation
          · exact .inr (hne ▸ rfl)
          · have htransfer : s.transfer k = true := by simpa [hne] using hk
            exact .inl ((hm.sending k).mpr htransfer)
        canceling := fun k hk => absurd hk (not_or.mpr (hm.steady k))
        sent := fun k hk => by cases hk
        received := fun _ k hk => by simp [Op.ReportsRead] at hk
        handing := fun _ hb => by cases hb }
  · rintro a h' ⟨h₁, hr, rfl, htold⟩
    have hm₁ : Mid apart e s h₁ := hm.rely ⟨hr.toRely, hr.isolated⟩
    have hqueued₁ : h₁.token s.waitingConfirmation = .queued := hm₁.awaited hq
    -- the request is still there: only this thread takes it away
    obtain rfl : a = false := htold.1.mpr ⟨hqueued₁, by rw [hm₁.peek]; simp⟩
    refine ⟨rfl, ?_⟩
    show Mid apart e { s with
      transfer := Function.update s.transfer s.waitingConfirmation true
      vars.acknowledgeRequested := false } (h₁.set s.waitingConfirmation .sending)
    have hother : ∀ {k}, k ≠ s.waitingConfirmation →
        Function.update s.transfer s.waitingConfirmation true k = s.transfer k := fun hk =>
      Function.update_of_ne hk ..
    exact
      { peek := hm₁.peek
        sending := hm₁.sending_set (by decide)
        steady := hm₁.steady_set (by decide)
        awaited := fun ha => by cases ha
        exclusive := fun k hk => by
          by_cases hne : k = s.waitingConfirmation
          · rw [hne, free]
          · exact hm₁.exclusive k ((hother hne).symm.trans hk)
        fetched := fun hl' => absurd (hl.symm.trans hl') (by decide)
        fetches := fun k hk => by
          by_cases hne : k = s.waitingConfirmation
          · subst hne
            show h₁.fetches s.waitingConfirmation = _
            rw [(htold.2 hqueued₁).1, hpos, List.range_zero, List.map_nil, ite_self]
          · exact hm₁.fetches k ((hother hne).symm.trans hk)
        emits := fun k hk => by
          show h₁.emits k = if s.sendLock = true ∧ s.writeOrigin = k then e else []
          rw [hl, if_neg (by simp)]
          by_cases hne : k = s.waitingConfirmation
          · exact hne ▸ (htold.2 hqueued₁).2
          · rw [hm₁.emits k ((hother hne).symm.trans hk), hl, if_neg (by simp)]
        unsent := hm₁.unsent
        stored := hm₁.stored }

/-- A byte is fetched. -/
theorem load (hm : Mid apart e s h)
    (hin : (Access.load s.writeOrigin s.writeOriginPos).Inside D s) :
    ((custodyOutline D r apart).rules .communication).node s
      ⟨.writeObject, .load s.writeOrigin s.writeOriginPos⟩ h
    ∧ ∀ (w : Byte) h', ((custodyOutline D r apart).rules .communication).step s
        ⟨.writeObject, .load s.writeOrigin s.writeOriginPos⟩ w h h' → Mid apart e { s with
          writeOriginPos := s.writeOriginPos + 1
          history.fetched := s.history.fetched ++ [w] } h' := by
  have htransfer : s.transfer s.writeOrigin = true := hin.1
  refine ⟨hm.node (.inl rfl) (fun _ => (hm.sending _).mpr htransfer) (by simp)
    (by simp [Op.ReportsRead]), ?_⟩
  rintro w h' ⟨h₁, hr, rfl, htold⟩
  obtain rfl : w = h₁.obj s.writeOrigin s.writeOriginPos := htold
  have hm₁ := hm.rely hr
  refine
    { hm₁ with
      fetched := fun hl => ?_
      fetches := fun k hk => ?_ }
  · obtain ⟨htransfer, hfetched⟩ := hm₁.fetched hl
    refine ⟨htransfer, ?_⟩
    show s.history.fetched ++ [_] = (List.range (s.writeOriginPos + 1)).map _
    rw [List.range_succ, List.map_append, hfetched]
    rfl
  · show Function.update h₁.fetches s.writeOrigin (h₁.fetches s.writeOrigin ++ [_]) k
      = if s.writeOrigin = k then (List.range (s.writeOriginPos + 1)).map _ else []
    by_cases hne : s.writeOrigin = k
    · subst hne
      rw [Function.update_self, hm₁.fetches _ hk, if_pos rfl, if_pos rfl, List.range_succ,
        List.map_append]
      rfl
    · rw [Function.update_of_ne (Ne.symm hne), hm₁.fetches k hk, if_neg hne, if_neg hne]

/-- **An object has been sent** up to its last symbol, when the last group is complete. -/
theorem served (hm : Mid apart s.progress.emitted s h) (hs : Session D s)
    (hl : s.sendLock = true) (h3 : s.writeCount = 3)
    (hpos : s.writeOriginPos = D.objSize s.writeOrigin) : h.Served D s.writeOrigin := by
  obtain ⟨htransfer, hfetched⟩ := hm.fetched hl
  obtain ⟨-, g, hgroup, -⟩ := hs.sending hl
  rw [← hs.writeCount_eq] at hgroup
  refine ⟨fun i => s.history.fetched.getD i 0, ?_, ?_⟩
  · rw [hm.fetches _ htransfer, if_pos rfl, hpos]
    refine List.map_congr_left fun i hi => ?_
    simp only [hfetched, hpos, List.getD_eq_getElem?_getD, List.getElem?_map,
      List.getElem?_range (List.mem_range.mp hi), Option.map_some, Option.getD_some]
  · rw [hm.emits _ htransfer, if_pos ⟨hl, rfl⟩, Progress.emitted, Progress.emissions_eq hgroup]
    congr 1
    simp only
    omega

/-- **`emit_sent`** gives the request back. -/
theorem sent (hm : Mid apart s.progress.emitted s h) (hs : Session D s) (hl : s.sendLock = true)
    (h3 : s.writeCount = 3) (hpos : s.writeOriginPos = D.objSize s.writeOrigin) :
    ((emitSent s.writeOrigin).run s).Safe ((custodyOutline D r apart).rules .communication)
      (fun s' _ h' => s' = s ∧ Mid apart [] { s with
        transfer := Function.update s.transfer s.writeOrigin false
        sendLock := false
        writeOriginPos := 0
        history.fetched := [] } h') h := by
  obtain ⟨htransfer, hfetched⟩ := hm.fetched hl
  -- while an object is being sent, no acknowledge is waited for
  have hq : s.vars.acknowledgeRequested = false := by
    by_contra hq
    obtain ⟨-, -, -, hl'⟩ := hs.requested (by simpa using hq)
    rw [hl] at hl'
    cases hl'
  refine safe_emitSent (hm.node (.inl rfl) ⟨rfl, (hm.sending _).mpr htransfer,
    hm.served hs hl h3 hpos⟩ (fun k hk => ?_) (by simp [Op.ReportsRead])) ?_
  · cases hk
    exact ⟨htransfer, hpos ▸ hfetched⟩
  · rintro x h' ⟨h₁, hr, rfl, -⟩
    refine ⟨rfl, ?_⟩
    have hm₁ := hm.rely hr
    show Mid apart [] _ (h₁.set s.writeOrigin .sent)
    have hother : ∀ {k}, k ≠ s.writeOrigin →
        Function.update s.transfer s.writeOrigin false k = s.transfer k := fun hk =>
      Function.update_of_ne hk ..
    have hne : ∀ {k}, Function.update s.transfer s.writeOrigin false k = true →
        k ≠ s.writeOrigin := by
      rintro k hk rfl
      rw [Function.update_self] at hk
      cases hk
    exact
      { peek := hm₁.peek
        sending := hm₁.sending_set (by decide)
        steady := hm₁.steady_set (by decide)
        awaited := fun ha => absurd (hq.symm.trans ha) (by decide)
        exclusive := fun k hk => hm₁.exclusive k ((hother (hne hk)).symm.trans hk)
        fetched := fun hl' => by cases hl'
        fetches := fun k hk => by
          have hf := hm₁.fetches k ((hother (hne hk)).symm.trans hk)
          rw [if_neg (Ne.symm (hne hk))] at hf
          rw [if_neg (Ne.symm (hne hk))]
          exact hf
        emits := fun k hk => by
          have hf := hm₁.emits k ((hother (hne hk)).symm.trans hk)
          rw [if_neg fun hf => (hne hk) hf.2.symm] at hf
          rw [if_neg (by simp)]
          exact hf
        unsent := fun _ => rfl
        stored := hm₁.stored }

/-- A byte is stored. -/
theorem store {b : Byte} (hm : Mid apart e s h)
    (hin : (Access.store s.readDestination s.readDestinationPos b).Inside D s) :
    ((custodyOutline D r apart).rules .communication).node s
      ⟨.readObject, .store s.readDestination s.readDestinationPos b⟩ h
    ∧ ∀ (x : Unit) h', ((custodyOutline D r apart).rules .communication).step s
        ⟨.readObject, .store s.readDestination s.readDestinationPos b⟩ x h h' → Mid apart e { s with
          readDestinationPos := s.readDestinationPos + 1
          history.stored := s.history.stored ++ [b] } h' := by
  have hlock : s.readLock s.readDestination = true := hin.1
  have hfree : ∀ {k}, s.transfer k = true → k ≠ s.readDestination := by
    rintro k hk rfl
    exact absurd ((hm.exclusive _ hk).symm.trans hlock) (by decide)
  refine ⟨hm.node (.inl rfl) ⟨rfl, fun hf => hfree ((hm.sending _).mp hf) rfl⟩ (by simp)
    (by simp [Op.ReportsRead]), ?_⟩
  rintro x h' ⟨h₁, hr, rfl, -⟩
  have hm₁ := hm.rely hr
  refine
    { hm₁ with
      fetched := fun hl => ?_
      fetches := fun k hk => ?_
      stored := fun ha hl => ?_ }
  · obtain ⟨htransfer, hfetched⟩ := hm₁.fetched hl
    refine ⟨htransfer, hfetched.trans ?_⟩
    show _ = (List.range s.writeOriginPos).map
      (Function.update h₁.obj s.readDestination _ s.writeOrigin)
    rw [Function.update_of_ne (hfree htransfer)]
  · show h₁.fetches k = if _ then (List.range s.writeOriginPos).map (fun i =>
      (i, Function.update h₁.obj s.readDestination _ k i)) else []
    rw [hm₁.fetches k hk, Function.update_of_ne (hfree hk)]
  · obtain ⟨-, hstored⟩ := hm₁.stored ha hl
    refine ⟨hlock, ?_⟩
    show s.history.stored ++ [b] = (List.range (s.readDestinationPos + 1)).map
      (Function.update h₁.obj s.readDestination (Function.update (h₁.obj s.readDestination)
        s.readDestinationPos b) s.readDestination)
    rw [Function.update_self, List.range_succ, List.map_append, List.map_singleton,
      Function.update_self, hstored]
    congr 1
    refine List.map_congr_left fun k hk => ?_
    rw [Function.update_of_ne (List.mem_range.mp hk).ne]

/-- **`emit_received`** reports the object that is there. -/
theorem received (hm : Mid apart e s h) (hl : s.receiveLock = true)
    (hpos : s.readDestinationPos = D.objSize s.readDestination)
    (hstored : s.history.stored = decodeSymbols s.history.symbols) :
    ((emitReceived s.readDestination).run { s with
      readLock := Function.update s.readLock s.readDestination false
      receiveLock := false }).Safe ((custodyOutline D r apart).rules .communication)
      (fun s' _ h' => s' = { s with
          readLock := Function.update s.readLock s.readDestination false
          receiveLock := false }
        ∧ Mid apart e { s' with readDestinationPos := 0, history.stored := [] } h') h := by
  have hm' : Mid apart e { s with
      readLock := Function.update s.readLock s.readDestination false
      receiveLock := false } h :=
    { hm with
      exclusive := fun k hk => by
        by_cases hne : k = s.readDestination
        · subst hne
          exact Function.update_self ..
        · exact (Function.update_of_ne hne ..).trans (hm.exclusive k hk)
      stored := fun _ hf => by cases hf }
  have hbytes : apart → (List.range (D.objSize s.readDestination)).map (h.obj s.readDestination)
      = decodeSymbols s.history.symbols := fun ha => by
    rw [← hpos, ← (hm.stored ha hl).2, hstored]
  -- the object is left alone until both operations are done
  have hkeep : ∀ {h₁ h₂ : Custody}, CommRely apart { s with
        readLock := Function.update s.readLock s.readDestination false
        receiveLock := false } h₁ h₂ →
      (apart → (List.range (D.objSize s.readDestination)).map (h₁.obj s.readDestination)
        = decodeSymbols s.history.symbols) →
      apart → (List.range (D.objSize s.readDestination)).map (h₂.obj s.readDestination)
        = decodeSymbols s.history.symbols := by
    intro h₁ h₂ hr hh ha
    by_cases hempty : D.objSize s.readDestination = 0
    · rw [← hh ha, hempty]
      rfl
    · rw [hr.isolated ha _ (.inr ⟨rfl, hpos ▸ hempty⟩), hh ha]
  have hnode : ∀ (h₁ : Custody) (o : Op), o.By .communication → h₁.Pre D o →
      (∀ k, o.ReportsRead k → k = s.readDestination) →
      (∀ k, o ≠ ⟨.emitSent, .clear (.writeAck k)⟩) →
      Mid apart e { s with
        readLock := Function.update s.readLock s.readDestination false
        receiveLock := false } h₁ →
      (apart → (List.range (D.objSize s.readDestination)).map (h₁.obj s.readDestination)
        = decodeSymbols s.history.symbols) →
      CommNode D apart { s with
        readLock := Function.update s.readLock s.readDestination false
        receiveLock := false } o h₁ := by
    intro h₁ o hw hp hread hsent hm₁ hh
    refine hm₁.node hw hp (fun k hk => absurd hk (hsent k)) fun ha k hk => ?_
    obtain rfl := hread k hk
    exact ⟨fun hne => .inr ⟨rfl, hpos ▸ hne⟩, hh ha⟩
  refine safe_emitReceived ((assignStarted_keeps (Ψ := fun h => Mid apart e { s with
      readLock := Function.update s.readLock s.readDestination false
      receiveLock := false } h ∧ (apart →
        (List.range (D.objSize s.readDestination)).map (h.obj s.readDestination)
          = decodeSymbols s.history.symbols)) ?_ ⟨hm', hbytes⟩).imp ?_)
  · rintro o h ho ⟨hm, hh⟩
    refine ⟨hnode h o ?_ ?_ (fun k hk => ?_) ?_ hm hh, ?_⟩
    · cases ho <;> exact .inl rfl
    · cases ho <;> trivial
    · obtain rfl | ⟨b, m, rfl⟩ | rfl := hk <;> cases ho <;> rfl
    · cases ho <;> simp
    · rintro a h' ⟨h₁, hr, rfl, -⟩
      have hafter : h₁.after o a = h₁ := by cases ho <;> rfl
      rw [passed_eq (by cases ho <;> simp), hafter]
      exact ⟨hm.rely hr, hkeep hr hh⟩
  · rintro s' _ h' ⟨rfl, hm₁, hh⟩
    refine ⟨hnode _ _ (.inl rfl) trivial ?_ (by simp) hm₁ hh, ?_⟩
    · rintro k (hk | ⟨b, m, hk⟩ | hk) <;> cases hk
      rfl
    · rintro y h'' ⟨h₂, hr₂, rfl, -⟩
      refine ⟨rfl, ?_⟩
      exact { hm₁.rely hr₂ with stored := fun _ hf => by cases hf }

end Custody.Mid

/-- **What is asserted where a symbol is handed over**: with it, the symbols that have been
handed over are those that have been emitted. -/
def Custody.Handing (apart : Prop) (s : Endpoint) (h : Custody) : Prop :=
  ∃ e, Mid apart e s h ∧ s.progress.emitted
    = e ++ if s.history.payload && s.sendLock then [stateCode s.comOut] else []

namespace Custody

variable {s : Endpoint} {h h' : Custody}

/-- A symbol that has been handed over has been emitted. -/
theorem Handing.give (hh : Handing apart s h) {site : Site} :
    Mid apart s.progress.emitted s
      (h.passed .communication s ⟨site, .handshakeAck s.comOut⟩) := by
  obtain ⟨e, hm, he⟩ := hh
  by_cases hp : (s.history.payload && s.sendLock) = true
  · obtain ⟨-, hl⟩ := (Bool.and_eq_true _ _).mp hp
    rw [if_pos hp] at he
    show Mid apart _ s (if _ then h.emit s.writeOrigin (stateCode s.comOut) else h)
    rw [if_pos hp]
    refine { hm with
      emits := fun j hj => ?_
      unsent := fun hf => absurd (hl.symm.trans hf) (by decide) }
    show Function.update h.emits s.writeOrigin (h.emits s.writeOrigin ++ [_]) j = _
    by_cases hne : s.writeOrigin = j
    · subst hne
      rw [Function.update_self, hm.emits _ hj, if_pos ⟨hl, rfl⟩, if_pos ⟨hl, rfl⟩, he]
    · rw [Function.update_of_ne (Ne.symm hne), hm.emits j hj, if_neg fun hf => hne hf.2,
        if_neg fun hf => hne hf.2]
  · rw [if_neg hp, List.append_nil] at he
    show Mid apart _ s (if _ then h.emit s.writeOrigin (stateCode s.comOut) else h)
    rw [if_neg hp, he]
    exact hm

theorem Handing.rely (hh : Handing apart s h) (hr : CommRely apart s h h') :
    Handing apart s h' := by
  obtain ⟨e, hm, he⟩ := hh
  exact ⟨e, hm.rely hr, he⟩

end Custody

/-- A watch of the communication thread. -/
theorem custodyWatch (D : DescriptorHelper) (r : Role) (apart : Prop) (e : List Byte) :
    Watch D True (fun _ => True) (fun _ _ _ => True) (fun _ => True)
      ((custodyOutline D r apart).rules .communication) (Custody.Mid apart e) where
  error _ _ _ _ _ := trivial
  frame _ _ _ hf hm := hm.frame hf
  quiet s o h ho hm := by
    refine hm.unnoticed ?_ ?_ ?_ ?_ ?_ ?_
    · cases ho with
      | acquire => exact .inr (.inl rfl)
      | clear => exact .inr (.inr rfl)
      | _ => exact .inl rfl
    · cases ho with
      | acquire => exact .inl rfl
      | _ => trivial
    · rintro j rfl
      cases ho
    · rintro j (rfl | ⟨b, m, rfl⟩ | rfl) <;> cases ho
    · cases ho <;> simp
    · intro h a
      cases ho with
      | acquire => exact Custody.after_acquire
      | clear => exact Custody.after_clear rfl
      | _ => rfl
  interrupted _ s h hm := by
    refine emitInterrupted_keeps (fun o h ho hm => ?_) hm fun _ hm' => ⟨rfl, hm'⟩
    refine hm.unnoticed ?_ ?_ ?_ ?_ ?_ ?_
    · cases ho <;> exact .inl rfl
    · cases ho <;> trivial
    · rintro j rfl
      cases ho
    · rintro j (rfl | ⟨b, m, rfl⟩ | rfl) <;> cases ho
    · cases ho <;> simp
    · cases ho with
      | fault | ack => exact fun _ _ => Custody.after_clear rfl
      | started | word | ended => exact fun _ _ => rfl
  checkSync site j s h hsite hm := by
    refine (hm.checkSync hsite).imp ?_
    rintro s' b h' ⟨rfl, hm', hqueued⟩
    refine ⟨rfl, hm', fun hb => ⟨trivial, fun _ _ _ => ?_⟩⟩
    exact { hm' with awaited := fun _ => hqueued hb }
  notified s h hm := by
    obtain ⟨hnode, hstep⟩ := hm.unnoticed (D := D) (r := r)
      (o := ⟨.incomingShutdownQuery, .loadNotified⟩) (.inl rfl) trivial (by simp)
      (by simp [Op.ReportsRead]) (by simp) fun _ _ => rfl
    exact ⟨hnode, fun b h' hb => ⟨hstep b h' hb, fun _ => trivial⟩⟩
  readlock s h hm hs _ other _ _ idle := hm.readlock (fun _ hf => other hf.symm) idle
  accept s h hm hs hq := hm.accept hs hq
  sending s s' h hm hs hsending := by
    cases hsending with
    | held => exact hm
    | first hl find =>
      obtain ⟨hpos, -, hnone⟩ := hs.notSending hl
      refine
        { hm with
          fetched := fun _ => ⟨(Session.find_spec find).1, ?_⟩
          fetches := fun k hk => ?_
          emits := fun k hk => ?_
          unsent := fun hf => by cases hf }
      · show s.history.fetched = (List.range s.writeOriginPos).map _
        rw [hpos, hnone]
        rfl
      · show h.fetches k = if _ then (List.range s.writeOriginPos).map _ else []
        rw [hm.fetches k hk, hpos, List.range_zero, List.map_nil, ite_self, ite_self]
      · rw [hm.emits k hk, hm.unsent hl, ite_self, ite_self]
  receiving s s' h hm hs hr := by
    cases hr with
    | held => exact hm
    | first hl find =>
      obtain ⟨hpos, -, -, hnone⟩ := hs.notReceiving hl
      refine { hm with stored := fun _ _ => ⟨(Session.find_spec find).1, ?_⟩ }
      show s.history.stored = (List.range s.readDestinationPos).map _
      rw [hpos, hnone]
      rfl
  store s b h hm hin := hm.store hin
  received s h hm _ hl hpos hstored := hm.received hl hpos hstored

/-- **`write_object`** emits the next symbol of the object. -/
theorem Custody.Mid.writeObject {s : Endpoint} {h : Custody} (hD : D.Triples)
    (hm : Mid apart s.progress.emitted s h) (hx : s.progress.Grouped) (hs : Session D s)
    (hl : s.sendLock = true) : ((SOS.writeObject D).run s).Safe
      ((custodyOutline D r apart).rules .communication) (fun s' b h' => b = true
        ∧ Fed D s s' ∧ s'.progress.Grouped ∧ Handing apart s' h') h := by
  -- where the send goes on, the symbol is the next one
  have hnext : ∀ {s'}, Fed D s s' → s'.sendLock = true → s'.history.payload = true →
      s'.progress.emitted = s.progress.emitted
        ++ if s'.history.payload && s'.sendLock then [stateCode s'.comOut] else [] := by
    intro s' hf hl' hp
    rw [(hx.fed hs hl hf).2, if_pos hl', hp, hl']
    rfl
  refine (custodyWatch D r apart _).writeObject_safe hD hs hl hm
    (fun h' hm' hin => hm'.load hin) ?_ ?_ ?_
  · rintro w s' h' hf rfl hm'
    exact ⟨rfl, hf, (hx.fed hs hl hf).1, _, hm'.frame {}, hnext hf hl rfl⟩
  · rintro s' hf rfl
    exact ⟨rfl, hf, (hx.fed hs hl hf).1, _, hm.frame {}, hnext hf hl rfl⟩
  · rintro s' hf h3 hpos rfl
    refine (hm.sent hs hl h3 hpos).imp ?_
    rintro t _ h' ⟨rfl, hm'⟩
    exact ⟨rfl, rfl, hf, (hx.fed hs hl hf).1, [], hm'.frame {}, (hx.fed hs hl hf).2⟩

/-- **The communication thread** keeps to the custody. -/
theorem comm_safe (hD : D.Triples) {s : Endpoint} {h : Custody}
    (hrest : (custodyOutline D r apart).rest .communication s h) :
    (custodyOutline D r apart).Safe .communication ((eventLoop D r).run s) h := by
  obtain ⟨hs, hx, hm⟩ := hrest
  simp only [Pool.Outline.Safe, eventLoop, run_bind, run_look, Prog.safe_bind, Prog.safe_ret]
  cases query : s.handshakeQuery r with
  | false => exact ⟨hs, hx, hm⟩
  | true =>
    simp only [if_true, run_bind, Prog.safe_bind]
    refine ⟨hm.node (.inl rfl) trivial (by simp) (by simp [Op.ReportsRead]), ?_⟩
    rintro b h' ⟨_, hr, rfl, -⟩
    simp only [run_change, Prog.safe_ret]
    have hs₀ := hs.take b
    have hm₀ : Custody.Mid apart s.progress.emitted { s with comIn := b } _ :=
      (hm.rely hr).frame {}
    -- the symbol is handed over with what has been emitted
    have hgive : ∀ s' h₁, AtRest D s' → s'.progress.Grouped → Custody.Handing apart s' h₁ →
        ((do
          triggerResolve
          access .handshakeAck (.handshakeAck (← look Endpoint.comOut)) : Comm Unit).run s').Safe
          ((custodyOutline D r apart).rules .communication)
          (fun s _ h => (custodyOutline D r apart).rest .communication s h) h₁ := by
      intro s' h₁ hs' hx' hh
      obtain ⟨e, hm', he⟩ := hh
      refine (custodyWatch D r apart e).handOver_safe hm' fun h₂ hm₂ => ⟨?_, ?_⟩
      · exact hm₂.node (.inl rfl) trivial (by simp) (by simp [Op.ReportsRead])
      · rintro x h₃ ⟨h₂', hr₂, rfl, -⟩
        exact ⟨hs', hx', (Custody.Handing.rely ⟨e, hm₂, he⟩ hr₂).give⟩
    refine (custodyWatch D r apart _).cycle_safe hD hs₀ hm₀ (fun _ _ _ => trivial)
      (fun _ _ _ _ => trivial) ?_ ?_ fun _ _ => trivial
    · intro t u h₁ heard first sending hu hl hm₁
      have hprogress : u.progress = s.progress := sending.progress.trans heard.progress
      rw [← hprogress] at hm₁ hx
      refine (hm₁.writeObject hD hx hu hl).imp ?_
      rintro s' _ h₂ ⟨rfl, hf, hx', hh⟩
      have hc : Cycled (fun _ _ _ => True) D r { s with comIn := b } s' :=
        ⟨heard, .payload first sending hf⟩
      exact ⟨rfl, hgive s' h₂ (hs₀.cycled hD hc) hx' hh⟩
    · intro s' h₁ hc hp hm₁
      have hprogress : s'.progress = s.progress := by
        obtain ⟨heard, emitted⟩ := hc
        exact (emitted.control hp).1.trans heard.progress
      refine hgive s' h₁ (hs₀.cycled hD hc) (hprogress ▸ hx) ⟨_, hm₁, ?_⟩
      rw [hprogress, hp]
      exact (List.append_nil _).symm

/-! ## The resolver -/

/-- Where a request is does not matter to the rest. -/
theorem Custody.Rely.update {h h' : Custody} {j : ℕ} {t : Token} (hr : Rely .resolver h h') :
    Rely .resolver (h.set j t) (h'.set j t) where
  own k hk := by
    by_cases hj : k = j
    · subst hj
      rw [set_self, set_self]
    · rw [set_of_ne _ _ hj] at hk ⊢
      rw [set_of_ne _ _ hj]
      exact hr.own k hk
  given k hn hi := by
    by_cases hj : k = j
    · subst hj
      rw [set_self] at hn hi
      exact absurd hi hn
    · rw [set_of_ne _ _ hj] at hn hi ⊢
      exact hr.given k hn hi
  peek hi := by cases hi
  kept hi := by cases hi

namespace Custody.Held

variable {s : Resolver} {h h' : Custody} {o : Op} {id : ℕ}

/-- An operation that neither makes a request nor stores a byte. -/
theorem node (hs : Held s h) (hw : o.By .resolver) (hp : h.Pre D o)
    (hclear : ∀ j, o ≠ ⟨.writeStart, .clear (.syncMe j)⟩) : ResolverNode D s o h where
  worker := hw
  pre := hp
  pending j := by
    rw [hs.pending j]
    exact ⟨.inl, fun hj => hj.resolve_right (hclear j)⟩
  settled j := by
    obtain ⟨h₁, h₂, h₃⟩ := hs.settled j
    exact ⟨h₃, fun hj => absurd hj (not_or.mpr ⟨h₁, h₂⟩)⟩

/-- A request is passed on. -/
theorem update {j : ℕ} {t : Token} {s' : Resolver} (hs : Held s h)
    (hother : ∀ k, k ≠ j → s'.pendingWriteRequest k = s.pendingWriteRequest k)
    (hj : s'.pendingWriteRequest j = true ↔ t ≠ .free)
    (ht : t ≠ .settling ∧ t ≠ .dropping ∧ t ≠ .dropped) : Held s' (h.set j t) where
  pending k := by
    by_cases hk : k = j
    · subst hk
      rw [set_self, hj]
    · rw [set_of_ne _ _ hk, hother k hk]
      exact hs.pending k
  settled k := by
    by_cases hk : k = j
    · subst hk
      rw [set_self]
      exact ht
    · rw [set_of_ne _ _ hk]
      exact hs.settled k

/-- What is not pending is free. -/
theorem free (hs : Held s h) (hp : s.pendingWriteRequest id = false) : h.token id = .free := by
  by_contra hf
  exact absurd (hp.symm.trans ((hs.pending id).mpr hf)) (by decide)

/-- A request has been found, which is to be resolved. -/
theorem found {t : Token} (hs : Held s (h.set id .sent)) (ht : h.token id = t)
    (hfound : t = .settling ∨ t = .dropping)
    (ho : o = ⟨.resolve, .testAndSet (.writeFault id)⟩
      ∨ t = .settling ∧ o = ⟨.resolve, .storeWriteEndId id⟩) : ResolverNode D s o h where
  worker := by obtain rfl | ⟨-, rfl⟩ := ho <;> exact .inl rfl
  pre := by
    obtain rfl | ⟨rfl, rfl⟩ := ho
    · exact ⟨rfl, ht ▸ hfound⟩
    · exact ⟨rfl, ht⟩
  pending j := by
    have hclear : o ≠ ⟨.writeStart, .clear (.syncMe j)⟩ := by
      obtain rfl | ⟨-, rfl⟩ := ho <;> simp
    rw [hs.pending j]
    by_cases hj : j = id
    · subst hj
      rw [set_self, ht]
      obtain rfl | rfl := hfound <;> simp
    · rw [set_of_ne _ _ hj]
      exact ⟨.inl, fun hf => hf.resolve_right hclear⟩
  settled j := by
    by_cases hj : j = id
    · subst hj
      rw [ht]
      refine ⟨by obtain rfl | rfl := hfound <;> decide, fun _ => ?_⟩
      exact ho.imp (fun ho => ho) And.right
    · obtain ⟨h₁, h₂, h₃⟩ := hs.settled j
      rw [set_of_ne _ _ hj] at h₁ h₂ h₃
      exact ⟨h₃, fun hf => absurd hf (not_or.mpr ⟨h₁, h₂⟩)⟩

/-- A request is about to be made. -/
theorem accepting (hs : Held { s with
      pendingWriteRequest := Function.update s.pendingWriteRequest id false } h)
    (hp : s.pendingWriteRequest id = true) :
    ResolverNode D s ⟨.writeStart, .clear (.syncMe id)⟩ h where
  worker := .inl rfl
  pre := hs.free (Function.update_self ..)
  pending j := by
    by_cases hj : j = id
    · subst hj
      simp [hp]
    · rw [← hs.pending j]
      simp [hj, Ne.symm hj]
  settled j := by
    obtain ⟨h₁, h₂, h₃⟩ := hs.settled j
    exact ⟨h₃, fun hf => absurd hf (not_or.mpr ⟨h₁, h₂⟩)⟩

end Custody.Held

namespace Custody

/-- **What the resolver asserts at a place.** A request that it has found is still pending, and
one that it is about to make is pending already. -/
def At : Place → Resolver → Custody → Prop
  | .writeFault id _, s, h =>
    Held s (h.set id .sent) ∧ (h.token id = .settling ∨ h.token id = .dropping)
  | .writeEndId id _, s, h => Held s (h.set id .sent) ∧ h.token id = .settling
  | .syncMe id, s, h => Held { s with
      pendingWriteRequest := Function.update s.pendingWriteRequest id false } h
    ∧ s.pendingWriteRequest id = true
  | _, s, h => Held s h

namespace At

variable {p : Place} {s : Resolver} {h h' : Custody} {id : ℕ} {is : List ℕ}

theorem sweep (hs : Held s h) : At (Place.sweep is s) s h := by
  cases is with
  | nil =>
    show At (if s.readendCommandQueued then _ else _) s h
    split <;> exact hs
  | cons => exact hs

theorem copying (hs : Held s h) : At (Place.copying id is) s h := by
  cases is <;> exact hs

theorem filling (hs : Held s h) : At (Place.filling id is) s h := by
  cases is <;> exact hs

/-- What the resolver asserts is left to it. -/
theorem rely (hp : At p s h) (hr : Rely .resolver h h') : At p s h' := by
  cases p with
  | writeFault id is =>
    refine ⟨hp.1.rely hr.update, ?_⟩
    exact hp.2.imp (hr.owned rfl rfl).mpr (hr.owned rfl rfl).mpr
  | writeEndId id is => exact ⟨hp.1.rely hr.update, (hr.owned rfl rfl).mpr hp.2⟩
  | syncMe id => exact ⟨hp.1.rely hr, hp.2⟩
  | _ => exact Held.rely hp hr

/-- **What it asserts before an operation.** -/
theorem node (hv : p.valid D s) (hp : At p s h) : ResolverNode D s p.op h := by
  cases p with
  | writeFault id is => exact hp.1.found rfl hp.2 (.inl rfl)
  | writeEndId id is => exact hp.1.found hp.2 (.inl rfl) (.inr ⟨rfl, rfl⟩)
  | syncMe id => exact hp.1.accepting hp.2
  | store id i b is => exact Held.node hp (.inl rfl) (Held.free hp hv.1) (by simp)
  | load id i is => exact Held.node hp (.inl rfl) (fun hf => by cases hf) (by simp)
  | readEndAcknowledge => exact Held.node hp (.inl rfl) (.inr rfl) (by simp)
  | lockReadEnd id => exact Held.node hp (.inl rfl) (.inl rfl) (by simp)
  | lockWriteStart id => exact Held.node hp (.inl rfl) (.inl rfl) (by simp)
  | writeAck id is => exact Held.node hp (.inl rfl) rfl (by simp)
  | _ => exact Held.node hp (.inl rfl) trivial (by simp)

/-- A request has been acknowledged. -/
theorem ack (is : List ℕ) (hs : Held s h) (ht : (h.token id).acked = true) :
    At (.writeFault id is) s (h.after ⟨.resolve, .testAndSet (.writeAck id)⟩ false) := by
  rw [after_found]
  refine ⟨?_, ?_⟩
  · rw [set_set]
    refine hs.update (fun _ _ => rfl) ?_ (by decide)
    rw [hs.pending id]
    refine ⟨fun _ => by decide, fun _ hf => ?_⟩
    rw [hf] at ht
    cases ht
  · rw [set_self]
    split
    · exact .inl rfl
    · exact .inr rfl

/-- **What an operation leads to.** -/
theorem step {a : p.op.Answer} (hv : p.valid D s) (hp : At p s h) (ht : h.Told p.op a) :
    (p.next D a s).Holds ((custodyOutline D r apart).rules .resolver) At (h.after p.op a) := by
  cases p with
  | triggerResolve =>
    rw [show h.after _ a = h from after_foreign rfl]
    cases a <;> exact sweep hp
  | readAck id is =>
    rw [show h.after _ a = h from after_foreign rfl]
    cases a <;> exact hp
  | readFault id is =>
    rw [show h.after _ a = h from after_foreign rfl]
    cases a with
    | true => exact hp
    | false => trivial
  | readEndId id is => exact { hp with }
  | writeAck id is =>
    cases a with
    | true =>
      show At (Place.sweep is s) s (h.after ⟨.resolve, .testAndSet (.writeAck id)⟩ true)
      rw [after_miss]
      exact sweep hp
    | false =>
      have htold : false = !(h.token id).acked := ht
      exact ack is hp (by simpa using htold.symm)
  | writeFault id is =>
    cases a with
    | true =>
      have htold : true = !(h.token id).marked := ht
      show At (.writeEndId id is) s (h.after ⟨.resolve, .testAndSet (.writeFault id)⟩ true)
      rw [after_miss]
      refine ⟨hp.1, hp.2.resolve_right fun hf => ?_⟩
      rw [hf] at htold
      cases htold
    | false => exact trivial
  | writeEndId id is =>
    rw [show h.after _ a = h.set id .free from after_released, ← set_set h id .sent .free]
    exact sweep (hp.1.update (fun k hk => Function.update_of_ne hk ..) (by simp) (by decide))
  | readEndAcknowledge =>
    rw [show h.after _ a = h from after_acquire]
    exact hp
  | loadReadEndId =>
    show At (if _ then _ else _) s h
    split <;> exact hp
  | lockReadEnd id =>
    rw [show h.after _ a = h from after_acquire]
    exact copying hp
  | load id i is => exact hp
  | storeReadEnd id i b is => exact copying hp
  | unlockReadEnd id =>
    rw [show h.after _ a = h from after_clear rfl]
    exact hp
  | readEndUpdated =>
    rw [show h.after _ a = h from after_clear rfl]
    exact { hp with }
  | writeStartUpdated =>
    rw [show h.after _ a = h from after_foreign rfl]
    cases a <;> exact hp
  | loadWriteStartId =>
    exact holds_loadWriteStartId D (fun _ _ => { hp with }) fun _ _ _ => trivial
  | lockWriteStart id =>
    rw [show h.after _ a = h from after_acquire]
    exact filling hp
  | loadWriteStart id i is => exact hp
  | store id i b is =>
    rw [show h.after _ a = _ from after_store]
    exact filling { hp with }
  | unlockWriteStart id =>
    rw [show h.after _ a = h from after_clear rfl]
    have hfree : s.pendingWriteRequest id = false := hv
    refine ⟨?_, Function.update_self ..⟩
    show Held { s with pendingWriteRequest := Function.update (Function.update _ _ _) _ _ } h
    rw [Function.update_idem, ← hfree, Function.update_eq_self]
    exact hp
  | syncMe id =>
    obtain ⟨hs, hpending⟩ := hp
    have hmade : Held s (h.set id .queued) :=
      hs.update (fun k hk => (Function.update_of_ne hk ..).symm) (by simp [hpending]) (by decide)
    exact { hmade with }
  | writeStartAcknowledge =>
    rw [show h.after _ a = h from after_clear rfl]
    exact hp

end At

end Custody

/-- **The resolver** keeps to the custody. -/
theorem custody_round :
    (round D).Keeps ((custodyOutline D r apart).rules .resolver) Custody.At := by
  refine (custodyOutline D r apart).keeps_chart .resolver
    (fun _ _ _ _ hr hp => Custody.At.rely hp hr) (fun _ _ _ hv hp => Custody.At.node hv hp)
    fun p s a h h' hv hp => ?_
  rintro ⟨rfl, htold⟩
  exact Custody.At.step hv hp htold

theorem custody_resolver_safe {s : Resolver} {h : Custody} (hs : h.Held s) :
    (custodyOutline D r apart).Safe .resolver ((resolverEventLoop D).run s) h :=
  custody_round.safe (resolverEventLoop_charted s) hs

end SOS
