import SoftwareOnSilicon.Relay
import SoftwareOnSilicon.Since
import SoftwareOnSilicon.Trace

/-!
# The shutdown of a loop

A class that is derived from `Loop` runs its `event_loop` on a thread of its own, until it is
asked to stop. The request is the flag `updated` of the stop token, which the owner clears. The
thread sets the flag again each time it looks at it, so it is the only one that can take a
request back, and it does so by leaving the loop. When it has left, it clears `acknowledge`, and
this is what the destructor waits for.

`LoopImpl.running` is the pool of the two threads. What `event_loop` does is left open: it
performs operations on something else, which other threads may change as well.
-/

namespace SOS.Behavior

open Interleaving Code

variable {S V E O : Type} {A : O → Type}

/-! ## The loop -/

/-- The life of a thread. -/
inductive Life where
  /-- It has not been created. -/
  | unborn
  | running
  /-- Its function has returned. -/
  | ended
  deriving DecidableEq, Repr

/-- **A loop**: its stop token, and the thread it runs on. -/
structure Loop where
  /-- The flags of `stop_token`; `true` is set. -/
  stopToken : ComFlag → Bool := fun _ => true
  thread : Life := .unborn

/-- What the loop and its owner do. -/
inductive LoopOp where
  | testAndSet (f : ComFlag)
  | clear (f : ComFlag)
  /-- The thread is created. -/
  | create
  /-- The owner waits until the thread has ended. -/
  | join
  /-- `event_loop` is called. -/
  | enter
  /-- It returns. -/
  | leave
  /-- The function of the thread returns. -/
  | exit

/-- What an operation answers. -/
abbrev LoopOp.Answer : LoopOp → Type
  | .testAndSet _ => Bool
  | _ => Unit

/-- **What an operation does to the loop**, with its answer. -/
def Loop.exec : (o : LoopOp) → Loop → o.Answer × Loop
  | .testAndSet f, w =>
    (w.stopToken f, { w with stopToken := Function.update w.stopToken f true })
  | .clear f, w => ((), { w with stopToken := Function.update w.stopToken f false })
  | .create, w => ((), { w with thread := .running })
  | .join, w => ((), w)
  | .enter, w => ((), w)
  | .leave, w => ((), w)
  | .exit, w => ((), { w with thread := .ended })

/-- Where the owner of a loop is. -/
inductive Owner where
  /-- It has run the constructor. -/
  | constructed
  | started
  /-- It waits in the loop of `stop`. -/
  | waiting
  /-- `stop` has returned. -/
  | stopped
  deriving DecidableEq, Repr

/-- What the operations of `event_loop` answer, and those of the loop. -/
abbrev LoopAnswer (A : O → Type) : O ⊕ LoopOp → Type := Sum.elim A LoopOp.Answer

/-- Code of the two threads. -/
abbrev LoopCode (S E : Type) {O : Type} (A : O → Type) (α : Type) : Type :=
  Code S E (LoopAnswer A) α

namespace Loop

/-- One operation of the loop. -/
def onLoop (o : LoopOp) : LoopCode S E A o.Answer := perform (A := LoopAnswer A) (.inr o)

/-- `is_running`. -/
def isRunning : LoopCode S E A Bool := onLoop (.testAndSet .updated)

/-- `finished`. -/
def finished : LoopCode S E A Unit := onLoop (.clear .acknowledge)

/-- `_stoppable_loop`. The thread starts over for each turn of its loop. -/
def stoppableLoop (eventLoop : Code S E A Unit) : LoopCode S E A Unit := do
  if ← isRunning then
    onLoop .enter
    eventLoop.inl
    onLoop .leave
  else
    finished
    onLoop .exit

/-! ### The owner -/

/-- `start`. -/
def start : LoopCode Owner E A Unit := do
  let _ ← onLoop (.testAndSet .updated)
  onLoop .create
  change fun _ => .started

/-- `request_stop`. -/
def requestStop : LoopCode Owner E A Unit := onLoop (.clear .updated)

/-- `destroy`. -/
def destroy : LoopCode Owner E A Unit := do
  requestStop
  onLoop .join

/-- A turn of the loop of `stop`, and what comes after the last one. -/
def awaitFinished : LoopCode Owner E A Unit := do
  if !(← onLoop (.testAndSet .acknowledge)) then
    finished
    change fun _ => .stopped

/-- `stop`. The owner starts over for each further turn of its loop. -/
def stop : LoopCode Owner E A Unit := do
  requestStop
  change fun _ => .waiting
  awaitFinished

/-- The destructors: that of a derived class may call `destroy`, and then `~Loop` calls
`stop`. -/
def destructors (destroys : Bool) : LoopCode Owner E A Unit := do
  if destroys then
    destroy
  stop

/-- What the owner does: it starts the loop, and at some time it ends its life. -/
def own (destroys : Bool) : Owner → Prog Owner E (LoopAnswer A) Unit
  | .constructed => start.run .constructed
  | .started => (destructors destroys).run .started
  | .waiting => awaitFinished.run .waiting
  | .stopped => .ret .stopped ()

end Loop

/-! ## The pool -/

/-- **A class that is derived from `Loop`**: its `event_loop`, and what the operations of that
do. -/
structure LoopImpl (S V E : Type) {O : Type} (A : O → Type) where
  exec : (o : O) → V → Option (A o × V)
  eventLoop : Code S E A Unit

/-- The thread of the loop, and the one that owns the loop. -/
inductive LoopThread where
  | owner
  | worker
  deriving DecidableEq, Repr

instance : Fintype LoopThread where
  elems := {.owner, .worker}
  complete t := by cases t <;> decide

/-- The private state of each. -/
abbrev LoopThread.Private (S : Type) : LoopThread → Type
  | .owner => Owner
  | .worker => S

/-- Whether a thread may perform an operation. -/
def LoopThread.ready : LoopThread → O ⊕ LoopOp → Loop → Bool
  | .owner, .inr .join, w => w.thread = .ended
  | .owner, _, _ => true
  | .worker, _, w => w.thread = .running

/-- **What the two threads share**: the loop, and what `event_loop` works on. -/
structure LoopWorld (V : Type) where
  loop : Loop := {}
  rest : V

/-- What an operation does to the world. -/
def LoopImpl.perform (X : LoopImpl S V E A) :
    (o : O ⊕ LoopOp) → LoopWorld V → Option (LoopAnswer A o × LoopWorld V)
  | .inl o, w => (X.exec o w.rest).map fun x => (x.1, { w with rest := x.2 })
  | .inr o, w => some ((w.loop.exec o).1, { w with loop := (w.loop.exec o).2 })

/-- **The pool of the two threads.** -/
def LoopImpl.running (X : LoopImpl S V E A) (destroys : Bool) :
    Pool LoopThread (LoopThread.Private S) E (LoopAnswer A) (LoopWorld V) where
  exec t o w := if t.ready o w.loop then X.perform o w else none
  loop
    | .owner, s => Loop.own destroys s
    | .worker, s => (Loop.stoppableLoop X.eventLoop).run s

/-- The loop has been constructed. -/
def LoopImpl.start (X : LoopImpl S V E A) (destroys : Bool) (s : S) (v : V) :
    (X.running destroys).State where
  world := { rest := v }
  thread
    | .owner => .ret .constructed ()
    | .worker => .ret s ()

variable {X : LoopImpl S V E A} {destroys : Bool}

/-- The stop token is private: other threads leave it alone. -/
def LoopIntact (σ : (X.running destroys).State) (w : LoopWorld V) : Prop :=
  w.loop = σ.world.loop

/-! ## What is observed -/

/-- What is observed of the two threads. -/
inductive LoopEvent where
  /-- `is_running` answers. -/
  | isRunning (going : Bool)
  /-- `event_loop` is called. -/
  | entered
  /-- It returns. -/
  | left
  /-- The thread has executed `finished`. -/
  | finished
  /-- The owner has executed `request_stop`. -/
  | requested
  /-- `stop` returns. -/
  | stopped
  deriving DecidableEq, Repr

namespace LoopEvent

/-- Who shows it. -/
def thread : LoopEvent → LoopThread
  | .requested => .owner
  | .stopped => .owner
  | _ => .worker

/-- How many iterations have begun: `is_running` has answered that the loop goes on. -/
def begun (l : List LoopEvent) : ℕ := l.count (.isRunning true)

/-- How often `event_loop` has been called. -/
def entries (l : List LoopEvent) : ℕ := l.count .entered

/-- How many iterations are complete. -/
def completions (l : List LoopEvent) : ℕ := l.count .left

variable (l : List LoopEvent) (e : LoopEvent)

/-- One more event. -/
@[simp] theorem begun_concat :
    begun (l ++ [e]) = begun l + if e = .isRunning true then 1 else 0 := by
  simp [begun, List.count_singleton]

@[simp] theorem entries_concat :
    entries (l ++ [e]) = entries l + if e = .entered then 1 else 0 := by
  simp [entries, List.count_singleton]

@[simp] theorem completions_concat :
    completions (l ++ [e]) = completions l + if e = .left then 1 else 0 := by
  simp [completions, List.count_singleton]

end LoopEvent

/-- What an operation of the loop shows. -/
def LoopOp.events : LoopThread → (o : LoopOp) → o.Answer → List LoopEvent
  | .worker, .testAndSet .updated, a => [.isRunning a]
  | .worker, .enter, _ => [.entered]
  | .worker, .leave, _ => [.left]
  | .worker, .clear .acknowledge, _ => [.finished]
  | .owner, .clear .updated, _ => [.requested]
  | .owner, .clear .acknowledge, _ => [.stopped]
  | _, _, _ => []

/-- Each thread shows its own events. -/
theorem LoopOp.thread_of_mem_events {t : LoopThread} {o : LoopOp} {a : o.Answer} {e : LoopEvent}
    (he : e ∈ o.events t a) : e.thread = t := by
  unfold LoopOp.events at he
  split at he
  case h_7 => cases he
  all_goals
    obtain rfl := List.mem_singleton.mp he
    rfl

/-- What an operation shows. -/
def loopEvents (S : Type) (A : O → Type) :
    Pool.Observer (LoopThread.Private S) (LoopAnswer A) LoopEvent
  | _, _, .inl _, _ => []
  | t, _, .inr o, a => o.events t a

/-- **What has to be true of an event**, given those before it. -/
def LoopEvent.Proper (before : List LoopEvent) : LoopEvent → Prop
  -- no iteration begins after a request
  | .isRunning true => .requested ∉ before
  -- at most one iteration is in progress
  | .requested => begun before ≤ completions before + 1
  | .stopped => .finished ∈ before
  | _ => True

/-! ## The request and the acknowledge -/

/-- The loop, and what has been observed of it. -/
structure LoopLog where
  loop : Loop
  log : List LoopEvent

namespace LoopLog

open LoopEvent

/-- What an operation leads to. -/
def after (h : LoopLog) (t : LoopThread) (o : LoopOp) : LoopLog :=
  ⟨(h.loop.exec o).2, h.log ++ o.events t (h.loop.exec o).1⟩

/-- **The stop token and the log agree.** -/
structure Valid (h : LoopLog) : Prop where
  /-- The flag is cleared from a request on, until the thread looks at it. -/
  updated : h.loop.stopToken .updated = false
    ↔ Since (fun e => e = .requested) (fun e => ∃ a, e = .isRunning a) h.log
  acknowledge : h.loop.stopToken .acknowledge = false → .finished ∈ h.log
  completions_le : completions h.log ≤ begun h.log
  entries_le : entries h.log ≤ begun h.log
  begun_le : begun h.log ≤ completions h.log + 1
  proper : Throughout (fun before e => e.Proper before) h.log

/-- No iteration is in progress. -/
def Idle (h : LoopLog) : Prop := entries h.log = begun h.log ∧ completions h.log = begun h.log

/-- The thread has left the loop only if it has ended. -/
def Going (h : LoopLog) : Prop := .isRunning false ∈ h.log → h.loop.thread = .ended

/-- The thread is inside `event_loop`. -/
structure Inside (h : LoopLog) : Prop where
  entered : entries h.log = begun h.log
  last : completions h.log + 1 = begun h.log
  going : h.Going

/-- **What has to hold before an operation** of a thread. -/
inductive Pre : LoopThread → LoopOp → LoopLog → Prop
  | arm {h : LoopLog} (unborn : h.loop.thread = .unborn) (fresh : .requested ∉ h.log) :
    Pre .owner (.testAndSet .updated) h
  | create {h : LoopLog} (unborn : h.loop.thread = .unborn) : Pre .owner .create h
  | request {h : LoopLog} : Pre .owner (.clear .updated) h
  | join {h : LoopLog} : Pre .owner .join h
  | wait {h : LoopLog} : Pre .owner (.testAndSet .acknowledge) h
  | stop {h : LoopLog} (finished : .finished ∈ h.log) : Pre .owner (.clear .acknowledge) h
  | look {h : LoopLog} (idle : h.Idle) (going : h.Going) : Pre .worker (.testAndSet .updated) h
  | enter {h : LoopLog} (next : entries h.log + 1 = begun h.log)
    (last : completions h.log + 1 = begun h.log) (going : h.Going) : Pre .worker .enter h
  | leave {h : LoopLog} (inside : h.Inside) : Pre .worker .leave h
  | finish {h : LoopLog} (idle : h.Idle) : Pre .worker (.clear .acknowledge) h
  | exit {h : LoopLog} (idle : h.Idle) : Pre .worker .exit h

/-- **What a thread relies on**: the events of the others are their own, the owner creates the
thread only once, and only the thread itself ends. -/
structure Rely (t : LoopThread) (h h' : LoopLog) : Prop where
  log : ∃ es, h'.log = h.log ++ es ∧ ∀ e ∈ es, e.thread ≠ t
  unborn : t = .owner → h.loop.thread = .unborn → h'.loop.thread = .unborn
  ended : t = .worker → h.loop.thread = .ended → h'.loop.thread = .ended

variable {h h' h'' : LoopLog} {t t' : LoopThread} {o : LoopOp} {e : LoopEvent}

theorem Rely.refl (t : LoopThread) (h : LoopLog) : Rely t h h :=
  ⟨⟨[], by simp, by simp⟩, fun _ => id, fun _ => id⟩

theorem Rely.trans (h₁ : Rely t h h') (h₂ : Rely t h' h'') : Rely t h h'' := by
  obtain ⟨es, hlog, hes⟩ := h₁.log
  obtain ⟨es', hlog', hes'⟩ := h₂.log
  refine ⟨⟨es ++ es', by rw [hlog', hlog, List.append_assoc], fun e he => ?_⟩,
    fun ht hu => h₂.unborn ht (h₁.unborn ht hu), fun ht hu => h₂.ended ht (h₁.ended ht hu)⟩
  obtain he | he := List.mem_append.mp he
  · exact hes e he
  · exact hes' e he

/-- A thread's own events are not shown by others. -/
theorem Rely.count (hr : Rely t h h') (he : e.thread = t) : h'.log.count e = h.log.count e := by
  obtain ⟨es, hlog, hes⟩ := hr.log
  have hzero : es.count e = 0 := List.count_eq_zero.mpr fun hmem => hes e hmem he
  rw [hlog, List.count_append, hzero, Nat.add_zero]

theorem Rely.mem_iff (hr : Rely t h h') (he : e.thread = t) : e ∈ h'.log ↔ e ∈ h.log := by
  rw [← List.count_pos_iff, ← List.count_pos_iff, hr.count he]

theorem Rely.mem (hr : Rely t h h') (he : e ∈ h.log) : e ∈ h'.log := by
  obtain ⟨es, hlog, -⟩ := hr.log
  rw [hlog]
  exact List.mem_append_left es he

theorem Rely.begun (hr : Rely .worker h h') : begun h'.log = begun h.log := hr.count rfl

theorem Rely.entries (hr : Rely .worker h h') : entries h'.log = entries h.log := hr.count rfl

theorem Rely.completions (hr : Rely .worker h h') : completions h'.log = completions h.log :=
  hr.count rfl

theorem Rely.idle (hr : Rely .worker h h') (hi : h.Idle) : h'.Idle := by
  unfold Idle
  rw [hr.entries, hr.completions, hr.begun]
  exact hi

theorem Rely.going (hr : Rely .worker h h') (hg : h.Going) : h'.Going :=
  fun hleft => hr.ended rfl (hg ((hr.mem_iff rfl).mp hleft))

theorem Rely.inside (hr : Rely .worker h h') (hi : h.Inside) : h'.Inside where
  entered := by rw [hr.entries, hr.begun, hi.entered]
  last := by rw [hr.completions, hr.begun, hi.last]
  going := hr.going hi.going

/-- What is asserted before an operation survives interference. -/
theorem Pre.stable (hp : Pre t o h) (hr : Rely t h h') : Pre t o h' := by
  cases hp with
  | arm unborn fresh => exact .arm (hr.unborn rfl unborn) fun hf => fresh ((hr.mem_iff rfl).mp hf)
  | create unborn => exact .create (hr.unborn rfl unborn)
  | request => exact .request
  | join => exact .join
  | wait => exact .wait
  | stop finished => exact .stop (hr.mem finished)
  | look idle going => exact .look (hr.idle idle) (hr.going going)
  | enter next last going =>
    refine .enter ?_ ?_ (hr.going going)
    · rw [hr.entries, hr.begun, next]
    · rw [hr.completions, hr.begun, last]
  | leave inside => exact .leave (hr.inside inside)
  | finish idle => exact .finish (hr.idle idle)
  | exit idle => exact .exit (hr.idle idle)

/-! ### One operation -/

/-- No iteration begins after a request. -/
theorem not_begun_after {before after : List LoopEvent}
    (hp : Throughout (fun before e => e.Proper before) (before ++ .requested :: after)) :
    .isRunning true ∉ after := by
  intro hmem
  obtain ⟨between, rest, rfl⟩ := List.append_of_mem hmem
  have hbefore := hp (before ++ .requested :: between) (.isRunning true) rest (by simp)
  exact hbefore (by simp)

/-- **The request is kept** until the thread leaves the loop. -/
theorem Valid.kept (hv : h.Valid) {before after : List LoopEvent}
    (hlog : h.log = before ++ .requested :: after) :
    h.loop.stopToken .updated = false ∨ .isRunning false ∈ after := by
  by_cases hleft : .isRunning false ∈ after
  · exact .inr hleft
  · refine .inl (hv.updated.mpr ⟨before, .requested, after, hlog, rfl, ?_⟩)
    rintro e he ⟨_ | _, rfl⟩
    · exact hleft he
    · exact not_begun_after (hlog ▸ hv.proper) he

/-- Where the flag is set, and the thread has not left the loop, nothing has been requested. -/
theorem Valid.not_requested (hv : h.Valid) (hgoing : .isRunning false ∉ h.log)
    (hset : h.loop.stopToken .updated = true) : .requested ∉ h.log := by
  intro hmem
  obtain ⟨before, after, hlog⟩ := List.append_of_mem hmem
  obtain hcleared | hleft := hv.kept hlog
  · rw [hset] at hcleared
    cases hcleared
  · exact hgoing (by simp [hlog, hleft])

/-- A flag that nobody has cleared is one that nobody has requested. -/
theorem not_since_of_fresh (hfresh : .requested ∉ h.log) :
    ¬ Since (fun e => e = .requested) (fun e => ∃ a, e = .isRunning a) h.log := by
  rintro ⟨before, e, after, hlog, rfl, -⟩
  exact hfresh (by simp [hlog])

/-- The request is cleared by the owner, and set by the thread that looks at it. -/
theorem Valid.updated_after (hv : h.Valid) (hp : Pre t o h) :
    (h.after t o).loop.stopToken .updated = false
      ↔ Since (fun e => e = .requested) (fun e => ∃ a, e = .isRunning a) (h.after t o).log := by
  have hupdated := hv.updated
  cases hp with
  | arm unborn fresh =>
    have hnone := not_since_of_fresh fresh
    simpa [LoopLog.after, Loop.exec, LoopOp.events] using hnone
  | request => simp [LoopLog.after, Loop.exec, LoopOp.events, since_concat]
  | stop finished => simpa [LoopLog.after, Loop.exec, LoopOp.events, since_concat] using hupdated
  | look idle going => simp [LoopLog.after, Loop.exec, LoopOp.events, since_concat]
  | _ => simpa [LoopLog.after, Loop.exec, LoopOp.events, since_concat] using hupdated

/-- The acknowledge is cleared by the thread first. -/
theorem Valid.acknowledge_after (hv : h.Valid) (hp : Pre t o h)
    (hcleared : (h.after t o).loop.stopToken .acknowledge = false) :
    .finished ∈ (h.after t o).log := by
  cases hp with
  | wait =>
    change Function.update h.loop.stopToken .acknowledge true .acknowledge = false at hcleared
    rw [Function.update_self] at hcleared
    cases hcleared
  | stop finished => exact List.mem_append_left _ finished
  | finish idle => simp [LoopLog.after, Loop.exec, LoopOp.events]
  | _ =>
    refine List.mem_append_left _ (hv.acknowledge ?_)
    simpa [LoopLog.after, Loop.exec] using hcleared

/-- How many iterations have begun, and how many are complete. -/
theorem Valid.counts_after (hv : h.Valid) (hp : Pre t o h) :
    completions (h.after t o).log ≤ begun (h.after t o).log
      ∧ entries (h.after t o).log ≤ begun (h.after t o).log
      ∧ begun (h.after t o).log ≤ completions (h.after t o).log + 1 := by
  have hcounts := And.intro hv.completions_le (And.intro hv.entries_le hv.begun_le)
  cases hp with
  | look idle going =>
    obtain ⟨hentries, hcompleted⟩ := idle
    cases hset : h.loop.stopToken .updated with
    | false => simpa [LoopLog.after, Loop.exec, LoopOp.events, hset] using hcounts
    | true =>
      simp only [LoopLog.after, Loop.exec, LoopOp.events, hset, begun_concat, entries_concat,
        completions_concat, if_true, reduceCtorEq, if_false]
      omega
  | enter next last going =>
    simp only [LoopLog.after, LoopOp.events, begun_concat, entries_concat,
      completions_concat, if_true, reduceCtorEq, if_false]
    omega
  | leave inside =>
    have hlast := inside.last
    simp only [LoopLog.after, LoopOp.events, begun_concat, entries_concat,
      completions_concat, if_true, reduceCtorEq, if_false]
    omega
  | _ => simpa [LoopLog.after, LoopOp.events] using hcounts

/-- What an operation shows is proper. -/
theorem Valid.proper_after (hv : h.Valid) (hp : Pre t o h)
    (hrunning : t = .worker → h.loop.thread = .running) :
    Throughout (fun before e => e.Proper before) (h.after t o).log := by
  cases hp with
  | request => exact throughout_concat.mpr ⟨hv.proper, hv.begun_le⟩
  | stop finished => exact throughout_concat.mpr ⟨hv.proper, finished⟩
  | look idle going =>
    have hgoing : .isRunning false ∉ h.log := fun hleft => by
      have hended := going hleft
      rw [hrunning rfl] at hended
      cases hended
    refine throughout_concat.mpr ⟨hv.proper, ?_⟩
    show (LoopEvent.isRunning (h.loop.stopToken .updated)).Proper h.log
    cases hset : h.loop.stopToken .updated with
    | false => trivial
    | true => exact hv.not_requested hgoing hset
  | enter => exact throughout_concat.mpr ⟨hv.proper, trivial⟩
  | leave => exact throughout_concat.mpr ⟨hv.proper, trivial⟩
  | finish => exact throughout_concat.mpr ⟨hv.proper, trivial⟩
  | _ => simpa [LoopLog.after, LoopOp.events] using hv.proper

/-- **The stop token and the log go on to agree.** -/
theorem Valid.after (hv : h.Valid) (hp : Pre t o h)
    (hrunning : t = .worker → h.loop.thread = .running) : (h.after t o).Valid := by
  obtain ⟨hcompleted, hentries, hbegun⟩ := hv.counts_after hp
  exact ⟨hv.updated_after hp, hv.acknowledge_after hp, hcompleted, hentries, hbegun,
    hv.proper_after hp hrunning⟩

/-- **What a thread does is what the other one relies on.** -/
theorem Pre.relied (hp : Pre t o h) (ht : t' ≠ t)
    (hrunning : t = .worker → h.loop.thread = .running) : Rely t' h (h.after t o) where
  log := ⟨_, rfl, fun e he => LoopOp.thread_of_mem_events he ▸ ht.symm⟩
  unborn := by
    rintro rfl hunborn
    cases t with
    | owner => exact absurd rfl ht
    | worker =>
      rw [hrunning rfl] at hunborn
      cases hunborn
  ended := by
    rintro rfl hended
    cases hp with
    | create unborn =>
      rw [hended] at unborn
      cases unborn
    | arm => exact hended
    | request => exact hended
    | join => exact hended
    | wait => exact hended
    | stop => exact hended
    | _ => exact absurd rfl ht

/-! ### One turn of the loop -/

/-- The thread has found the flag set: the next iteration begins. -/
theorem Pre.going_on (hp : Pre .worker (.testAndSet .updated) h)
    (hset : (h.loop.exec (.testAndSet .updated)).1 = true) :
    Pre .worker .enter (h.after .worker (.testAndSet .updated)) := by
  cases hp with
  | look idle going =>
    obtain ⟨hentries, hcompleted⟩ := idle
    refine .enter ?_ ?_ ?_
    · simp [LoopLog.after, LoopOp.events, hset, hentries]
    · simp [LoopLog.after, LoopOp.events, hset, hcompleted]
    · intro hleft
      refine going ?_
      simpa [LoopLog.after, LoopOp.events, hset] using hleft

/-- The thread has found it cleared. -/
theorem Pre.looked (hp : Pre .worker (.testAndSet .updated) h)
    (hset : ¬ (h.loop.exec (.testAndSet .updated)).1 = true) :
    (h.after .worker (.testAndSet .updated)).Idle := by
  cases hp with
  | look idle going => simpa [LoopLog.after, LoopOp.events, hset, Idle] using idle

/-- It is inside `event_loop` once it has called it. -/
theorem Pre.entered (hp : Pre .worker .enter h) : (h.after .worker .enter).Inside := by
  cases hp with
  | enter next last going =>
    refine ⟨?_, ?_, fun hleft => going ?_⟩
    · simpa [LoopLog.after, LoopOp.events] using next
    · simpa [LoopLog.after, LoopOp.events] using last
    · simpa [LoopLog.after, LoopOp.events] using hleft

/-- An iteration is complete, and the thread looks at the flag again. -/
theorem Pre.left (hp : Pre .worker .leave h) :
    Pre .worker (.testAndSet .updated) (h.after .worker .leave) := by
  cases hp with
  | leave inside =>
    refine .look ⟨?_, ?_⟩ fun hleft => inside.going ?_
    · simpa [LoopLog.after, LoopOp.events] using inside.entered
    · simpa [LoopLog.after, LoopOp.events] using inside.last
    · simpa [LoopLog.after, LoopOp.events] using hleft

/-- It has executed `finished`. -/
theorem Pre.finished (hp : Pre .worker (.clear .acknowledge) h) :
    (h.after .worker (.clear .acknowledge)).Idle := by
  cases hp with
  | finish idle => simpa [LoopLog.after, LoopOp.events, Idle] using idle

/-- A thread that has ended does not look at the flag again. -/
theorem Pre.exited (hp : Pre .worker .exit h) :
    Pre .worker (.testAndSet .updated) (h.after .worker .exit) := by
  cases hp with
  | exit idle =>
    refine .look ?_ fun _ => rfl
    simpa [LoopLog.after, LoopOp.events, Idle] using idle

/-- The flag is set before the thread is created. -/
theorem Pre.armed (hp : Pre .owner (.testAndSet .updated) h) :
    Pre .owner .create (h.after .owner (.testAndSet .updated)) := by
  cases hp with
  | arm unborn fresh => exact .create unborn

/-- The owner has found the acknowledge cleared. -/
theorem Valid.acknowledged (hv : h.Valid)
    (hset : ¬ (h.loop.exec (.testAndSet .acknowledge)).1 = true) :
    Pre .owner (.clear .acknowledge) (h.after .owner (.testAndSet .acknowledge)) := by
  refine .stop (List.mem_append_left _ (hv.acknowledge ?_))
  exact Bool.eq_false_of_not_eq_true hset

end LoopLog

/-! ## The two threads -/

open LoopLog

/-- What the two threads assert, and rely on. -/
def loopOutline (X : LoopImpl S V E A) (destroys : Bool) :
    (X.running destroys).Outline LoopLog where
  follows h w := h.loop = w.loop ∧ h.Valid
  step
    | _, _, .inl _, _, h, h' => h' = h
    | t, _, .inr o, a, h, h' => h.Valid ∧ a = (h.loop.exec o).1 ∧ h' = h.after t o
  node
    | .owner, _, .inl _, _ => False
    | .worker, _, .inl _, h => h.Inside
    | t, _, .inr o, h => Pre t o h
  rest
    | .owner, s, h => s = .constructed → h.loop.thread = .unborn ∧ .requested ∉ h.log
    | .worker, _, h => Pre .worker (.testAndSet .updated) h
  error _ _ _ _ := True
  rely t _ h h' := Rely t h h'
  refl t _ h := Rely.refl t h
  trans _ _ _ _ _ := Rely.trans
  node_stable t _ o _ _ hr hn := by
    cases o with
    | inl o =>
      cases t with
      | owner => exact hn
      | worker => exact hr.inside hn
    | inr o => cases t <;> exact Pre.stable hn hr
  rest_stable t s h h' hr hs := by
    cases t with
    | owner =>
      intro hc
      obtain ⟨unborn, fresh⟩ := hs hc
      exact ⟨hr.unborn rfl unborn, fun hf => fresh ((hr.mem_iff rfl).mp hf)⟩
    | worker => exact Pre.stable hs hr

variable {h : LoopLog} {s : S}

/-- One operation of the loop: it may be performed, and the program goes on from what it leads
to. -/
theorem onLoop_safe {t : LoopThread} {s : t.Private S} {o : LoopOp}
    {Q : t.Private S → o.Answer → LoopLog → Prop} (hp : Pre t o h)
    (hQ : ∀ h', h'.Valid → Pre t o h' → Q s (h'.loop.exec o).1 (h'.after t o)) :
    ((Loop.onLoop (A := A) (E := E) o).run s).Safe ((loopOutline X destroys).rules t) Q h := by
  refine ⟨?_, ?_⟩
  · cases t <;> exact hp
  · rintro a h'' ⟨h', hr, hv, rfl, rfl⟩
    exact hQ h' hv (hp.stable hr)

/-- `event_loop` is inside all along. -/
theorem eventLoop_inside (hi : h.Inside) :
    ((X.eventLoop.run s).inl).Safe ((loopOutline X destroys).rules .worker)
      (fun _ _ h => h.Inside) h := by
  rw [Prog.safe_inl]
  refine (Prog.only_of_forall (P := fun _ => True) (fun _ => trivial) _).safe
    (fun s o h _ hi => ⟨hi, ?_⟩) (fun _ _ _ _ => trivial) hi
  rintro a h'' ⟨h', hr, rfl⟩
  exact hr.inside hi

/-- A turn of the loop of `_stoppable_loop`. -/
theorem stoppableLoop_safe (hp : Pre .worker (.testAndSet .updated) h) :
    (loopOutline X destroys).Safe .worker ((Loop.stoppableLoop X.eventLoop).run s) h := by
  show ((Loop.stoppableLoop X.eventLoop).run s).Safe ((loopOutline X destroys).rules .worker) _ h
  unfold Loop.stoppableLoop Loop.isRunning Loop.finished
  rw [run_bind, Prog.safe_bind]
  refine onLoop_safe hp fun h' _ hp' => ?_
  rw [run_ite]
  split
  case isTrue hset =>
    rw [run_bind, Prog.safe_bind]
    refine onLoop_safe (hp'.going_on hset) fun h'' _ hp'' => ?_
    rw [run_bind, Prog.safe_bind]
    refine (eventLoop_inside hp''.entered).imp fun s' _ h₁ hin => ?_
    exact onLoop_safe (.leave hin) fun h₂ _ hp₂ => hp₂.left
  case isFalse hset =>
    rw [run_bind, Prog.safe_bind]
    refine onLoop_safe (.finish (hp'.looked hset)) fun h'' _ hp'' => ?_
    exact onLoop_safe (.exit hp''.finished) fun h₁ _ hp₁ => hp₁.exited

/-- `start` creates the thread, before anything can be requested. -/
theorem start_safe (unborn : h.loop.thread = .unborn) (fresh : .requested ∉ h.log) :
    (loopOutline X destroys).Safe .owner (Loop.start.run .constructed) h := by
  show (Loop.start.run .constructed).Safe ((loopOutline X destroys).rules .owner) _ h
  unfold Loop.start
  rw [run_bind, Prog.safe_bind]
  refine onLoop_safe (.arm unborn fresh) fun h' _ hp => ?_
  rw [run_bind, Prog.safe_bind]
  refine onLoop_safe hp.armed fun h'' _ _ => ?_
  exact (fun hc => by cases hc)

/-- `destroy` leads to `stop`. -/
theorem destroy_safe {s : Owner} {Q : Owner → Unit → LoopLog → Prop} (hQ : ∀ h, Q s () h) :
    (Loop.destroy.run s).Safe ((loopOutline X destroys).rules .owner) Q h := by
  unfold Loop.destroy Loop.requestStop
  rw [run_bind, Prog.safe_bind]
  refine onLoop_safe .request fun h' _ _ => ?_
  exact onLoop_safe .join fun h'' _ _ => hQ _

/-- **`stop` returns when the thread has executed `finished`.** -/
theorem awaitFinished_safe :
    (loopOutline X destroys).Safe .owner (Loop.awaitFinished.run .waiting) h := by
  show (Loop.awaitFinished.run .waiting).Safe ((loopOutline X destroys).rules .owner) _ h
  unfold Loop.awaitFinished Loop.finished
  rw [run_bind, Prog.safe_bind]
  refine onLoop_safe .wait fun h' hv _ => ?_
  rw [run_ite]
  split
  case isTrue hcleared =>
    rw [run_bind, Prog.safe_bind]
    refine onLoop_safe (hv.acknowledged (by simpa using hcleared)) fun h'' _ _ => ?_
    exact (fun hc => by cases hc)
  case isFalse => exact (fun hc => by cases hc)

/-- The destructors request the stop, once or twice, and wait. -/
theorem destructors_safe :
    (loopOutline X destroys).Safe .owner ((Loop.destructors destroys).run .started) h := by
  -- `stop` may begin whatever has happened before
  have hstop : ∀ h s, (Loop.stop.run s).Safe ((loopOutline X destroys).rules .owner)
      (fun s _ h => (loopOutline X destroys).rest .owner s h) h := fun h s => by
    unfold Loop.stop Loop.requestStop
    rw [run_bind, Prog.safe_bind]
    exact onLoop_safe .request fun h' _ _ => awaitFinished_safe
  show ((Loop.destructors destroys).run .started).Safe ((loopOutline X destroys).rules .owner) _ h
  unfold Loop.destructors
  split
  · rw [run_bind, Prog.safe_bind]
    exact destroy_safe fun h' => hstop h' .started
  · exact hstop h .started

/-- **Both threads are safe where they start over.** -/
theorem loop_safe (t : LoopThread) (s : t.Private S) (h : LoopLog)
    (hr : (loopOutline X destroys).rest t s h) :
    (loopOutline X destroys).Safe t ((X.running destroys).loop t s) h := by
  cases t with
  | worker => exact stoppableLoop_safe hr
  | owner =>
    cases s with
    | constructed =>
      obtain ⟨unborn, fresh⟩ := hr rfl
      exact start_safe unborn fresh
    | started => exact destructors_safe
    | waiting => exact awaitFinished_safe
    | stopped => exact hr

/-! ## Runs -/

variable {v : V} {l : List LoopEvent} {σ : (X.running destroys).State}

/-- Nothing has happened. -/
theorem LoopLog.valid_start : (⟨{}, []⟩ : LoopLog).Valid where
  updated := by simp
  acknowledge := fun h => by cases h
  completions_le := le_rfl
  entries_le := le_rfl
  begun_le := Nat.zero_le _
  proper := throughout_nil

/-- **One operation** of a thread: the log follows it, and the other thread relies on it. -/
theorem loopOutline_op {h : LoopLog} {t : LoopThread} {s : t.Private S} {o : O ⊕ LoopOp}
    {k : LoopAnswer A o → Prog (t.Private S) E (LoopAnswer A) Unit} {a : LoopAnswer A o}
    {w : LoopWorld V} (hk : (loopOutline X destroys).Keeps σ h) (hnode : σ.thread t = .op s o k)
    (hexec : (X.running destroys).exec t o σ.world = some (a, w)) :
    ∃ h', h'.log = h.log ++ loopEvents S A t s o a ∧ (loopOutline X destroys).follows h' w
      ∧ (loopOutline X destroys).step t s o a h h' ∧ ∀ j, j ≠ t → Rely j h h' := by
  obtain ⟨hloop, hv⟩ := hk.1
  have hpre := hk.node hnode
  -- a thread that performs an operation is ready for it
  have hready : t.ready o σ.world.loop = true ∧ X.perform o σ.world = some (a, w) := by
    change (if t.ready o σ.world.loop then X.perform o σ.world else none) = some (a, w) at hexec
    split at hexec
    case isTrue hr => exact ⟨hr, hexec⟩
    case isFalse => cases hexec
  obtain ⟨hr, hperform⟩ := hready
  have hrunning : t = .worker → h.loop.thread = .running := by
    rintro rfl
    rw [hloop]
    exact of_decide_eq_true hr
  cases o with
  | inl o =>
    obtain ⟨x, -, hx⟩ := Option.map_eq_some_iff.mp hperform
    obtain ⟨-, rfl⟩ := Prod.mk.inj hx
    exact ⟨h, (List.append_nil _).symm, ⟨hloop, hv⟩, rfl, fun j _ => Rely.refl j h⟩
  | inr o =>
    have hp : Pre t o h := by cases t <;> exact hpre
    obtain ⟨rfl, rfl⟩ := Prod.mk.inj (Option.some.inj hperform)
    rw [← hloop]
    exact ⟨h.after t o, rfl, ⟨rfl, hv.after hp hrunning⟩, ⟨hv, rfl, rfl⟩,
      fun j hj => hp.relied hj hrunning⟩

/-- **The log of every run is valid.** -/
theorem loopOutline_traces (h : (X.running destroys).Traces LoopIntact (fun _ _ => True)
    (loopEvents S A) (X.start destroys s v) l σ) : (⟨σ.world.loop, l⟩ : LoopLog).Valid := by
  have h₀ : (loopOutline X destroys).Keeps (X.start destroys s v) ⟨{}, []⟩ := by
    refine ⟨⟨rfl, valid_start⟩, fun t => ?_⟩
    cases t with
    | owner => exact fun _ => ⟨rfl, List.not_mem_nil⟩
    | worker => exact .look ⟨rfl, rfl⟩ fun hleft => absurd hleft List.not_mem_nil
  obtain ⟨h', rfl, hk⟩ := Pool.Outline.sound_traces (L := loopOutline X destroys)
    (fun l h => h.log = l)
    (fun σ l h t s o k a w hl hk hnode hexec _ => by
      obtain ⟨h', hlog, hfollows, hstep, hrely⟩ := loopOutline_op hk hnode hexec
      exact ⟨h', hl ▸ hlog, hfollows, hstep, hrely⟩)
    (fun σ l h w hl hk hw _ => ⟨h, hl, ⟨hk.1.1.trans hw.symm, hk.1.2⟩, fun t => Rely.refl t h⟩)
    loop_safe h ⟨_, rfl, h₀⟩
  exact hk.1.1 ▸ hk.1.2

/-- **What a request to stop leads to**, given what has been observed before it and after it. -/
structure StopHonored (w : Loop) (before after : List LoopEvent) : Prop where
  /-- The request is there until the thread has looked at it and left the loop. -/
  kept : w.stopToken .updated = false ∨ .isRunning false ∈ after
  /-- No iteration begins. -/
  noFurther : .isRunning true ∉ after
  /-- At most one iteration is in progress when the request is made: `is_running` has answered
  that the loop goes on, and `event_loop` has not returned. -/
  inProgress : LoopEvent.begun before ≤ LoopEvent.completions before + 1
  /-- `event_loop` is called for no other: if it has been called for that one before the request,
  it is not called again. -/
  calls : LoopEvent.entries (before ++ .requested :: after) ≤ LoopEvent.begun before
  /-- No other completes. -/
  completions : LoopEvent.completions (before ++ .requested :: after) ≤ LoopEvent.begun before

/-- **The shutdown of a loop.** A request to stop is never overwritten: only the iteration that is
in progress, if there is one, goes on. And `stop` returns only after the thread has executed
`finished`. -/
theorem loop_shutdown (X : LoopImpl S V E A) (destroys : Bool) (s : S) (v : V)
    {l : List LoopEvent} {σ : (X.running destroys).State}
    (h : (X.running destroys).Traces LoopIntact (fun _ _ => True) (loopEvents S A)
      (X.start destroys s v) l σ) :
    (∀ before after, l = before ++ .requested :: after → StopHonored σ.world.loop before after)
      ∧ ∀ before after, l = before ++ .stopped :: after → .finished ∈ before := by
  have hv := loopOutline_traces h
  refine ⟨?_, fun before after hl => hv.proper before .stopped after hl⟩
  rintro before after rfl
  have hnone := not_begun_after hv.proper
  have hbegun : LoopEvent.begun (before ++ .requested :: after) = LoopEvent.begun before := by
    unfold LoopEvent.begun
    rw [List.count_append, List.count_cons_of_ne (by decide), List.count_eq_zero.mpr hnone,
      Nat.add_zero]
  exact ⟨hv.kept rfl, hnone, hv.proper before .requested after rfl, hbegun ▸ hv.entries_le,
    hbegun ▸ hv.completions_le⟩

/-! ### A blinking loop -/

/-- What `BlinkLoop` does to its signal. -/
inductive NotifyOp where
  | clear
  | testAndSet

/-- What it is answered. -/
abbrev NotifyOp.Answer : NotifyOp → Type
  | .clear => Unit
  | .testAndSet => Bool

/-- `BlinkLoop`, without the times it sleeps. -/
def blinkLoop : LoopImpl Unit Bool ErrorCode NotifyOp.Answer where
  exec
    | .clear, _ => some ((), false)
    | .testAndSet, notify => some (notify, true)
  eventLoop := do
    perform NotifyOp.clear
    let _ ← perform NotifyOp.testAndSet

/-- Replays of the two threads, on their own. -/
def blinkScript : (blinkLoop.running true).Script Empty where
  act v _ := v.elim
  may _ _ := true
  check _ := true

/-- The request is made between the look at the flag and the call of `event_loop`. -/
def blinkOnce : List (Pool.Entry LoopThread Empty) :=
  [.go .owner 3, .go .worker 2, .go .owner 2, .go .worker 20, .go .owner 20]

/-- The request is made while an iteration is in progress, and that one is the last. -/
theorem loop_shutdown_blink : ∃ σ l, (blinkLoop.running true).Traces LoopIntact (fun _ _ => True)
      (loopEvents Unit NotifyOp.Answer) (blinkLoop.start true () true) l σ
    ∧ l = [.isRunning true, .requested, .entered, .left, .isRunning false, .finished, .requested,
      .stopped]
    ∧ StopHonored σ.world.loop [.isRunning true]
      [.entered, .left, .isRunning false, .finished, .requested, .stopped] := by
  obtain ⟨σ, l, h, hl⟩ := Pool.Script.exists_of_record LoopIntact (fun _ _ => True) blinkScript
    (loopEvents Unit NotifyOp.Answer) blinkOnce (blinkLoop.start true () true)
    (fun x => x.2 == [.isRunning true, .requested, .entered, .left, .isRunning false, .finished,
      .requested, .stopped])
    (fun v => v.elim) (fun _ _ _ => trivial) (by decide +kernel)
  obtain rfl := eq_of_beq hl
  exact ⟨σ, _, h, rfl, (loop_shutdown blinkLoop true () true h).1 _ _ rfl⟩

end SOS.Behavior
