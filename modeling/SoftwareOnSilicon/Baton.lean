import Mathlib.Data.List.Chain
import SoftwareOnSilicon.Relay

/-!
# The token of the line

What may happen on the line if its four flags are one token. `Baton` says where it
is: an end takes it, reads the byte that came with it – or skips it, the very first
time – and writes one; the relay picks it up, copies the byte and passes it on.

From the order of these events alone it follows that the ends take turns, and that
every byte is copied once and read or skipped once (`Baton.Moves.ledger`).
-/

namespace SOS

open Interleaving Code

variable {D : DescriptorHelper} {r r' : Role} {b : Byte}

/-! ## The token -/

/-- What happens on the line. -/
inductive LineEvent where
  /-- An end finds its update. -/
  | took (r : Role)
  /-- The first byte that comes to an end is not read. -/
  | skipped (r : Role)
  | read (r : Role) (b : Byte)
  | wrote (r : Role) (b : Byte)
  | gave (r : Role)
  /-- The relay finds the acknowledge of an end. -/
  | picked (r : Role)
  | fetched (r : Role) (b : Byte)
  /-- The relay puts the byte of an end into the in buffer of the other one. -/
  | copied (r : Role) (b : Byte)
  /-- The relay raises the update of an end. -/
  | passed (r : Role)

/-- **Where the token is**, with the byte that goes with it. -/
inductive Stage where
  | start
  | offered (r : Role) (b : Option Byte)
  | taken (r : Role) (b : Option Byte)
  | heard (r : Role)
  | written (r : Role) (b : Byte)
  | given (r : Role) (b : Byte)
  | picked (r : Role) (b : Byte)
  | fetched (r : Role) (b : Byte)
  | copied (r : Role) (b : Byte)

namespace Stage

/-- The flag that is clear. -/
def clear : Stage → Option (Role × ComFlag)
  | offered r _ => some (r, .updated)
  | given r _ => some (r, .acknowledge)
  | _ => none

/-- The thread that has consumed a flag, and has not cleared the next one. -/
def holder : Stage → Option LineThread
  | start => some .relay
  | taken r _ => some (.communication r)
  | heard r => some (.communication r)
  | written r _ => some (.communication r)
  | picked _ _ => some .relay
  | fetched _ _ => some .relay
  | copied _ _ => some .relay
  | _ => none

/-- Nobody has the token while a flag is clear. -/
theorem apart {g : Stage} {x : Role × ComFlag} {i : LineThread} (hc : g.clear = some x)
    (hi : g.holder = some i) : False := by
  cases g with
  | offered => cases hi
  | given => cases hi
  | _ => cases hc

/-- The end that gets the token without a byte. -/
def bare : Stage → Option Role
  | start => some .fpga
  | offered r none => some r
  | _ => none

/-- The byte that waits in an in buffer. -/
def waiting : Stage → Option (Role × Byte)
  | offered r b => b.map (r, ·)
  | taken r b => b.map (r, ·)
  | copied r b => some (r.peer, b)
  | _ => none

/-- The byte that waits in an out buffer. -/
def leaving : Stage → Option (Role × Byte)
  | written r b => some (r, b)
  | given r b => some (r, b)
  | picked r b => some (r, b)
  | _ => none

end Stage

/-- **The token**, and the ends that have not had it yet. -/
structure Baton where
  stage : Stage
  fresh : Role → Bool

namespace Baton

/-- **What may happen next.** -/
inductive Next : Baton → LineEvent → Baton → Prop
  | begin {f : Role → Bool} : Next ⟨.start, f⟩ (.passed .fpga) ⟨.offered .fpga none, f⟩
  | took {r : Role} {b : Option Byte} {f : Role → Bool} (sent : b = none → f r = true) :
      Next ⟨.offered r b, f⟩ (.took r) ⟨.taken r b, f⟩
  | skipped {r : Role} {b : Option Byte} {f : Role → Bool} (first : f r = true) :
      Next ⟨.taken r b, f⟩ (.skipped r) ⟨.heard r, Function.update f r false⟩
  | read {r : Role} {b : Byte} {f : Role → Bool} (later : f r = false) :
      Next ⟨.taken r (some b), f⟩ (.read r b) ⟨.heard r, f⟩
  | wrote {r : Role} {b : Byte} {f : Role → Bool} :
      Next ⟨.heard r, f⟩ (.wrote r b) ⟨.written r b, f⟩
  | gave {r : Role} {b : Byte} {f : Role → Bool} :
      Next ⟨.written r b, f⟩ (.gave r) ⟨.given r b, f⟩
  | picked {r : Role} {b : Byte} {f : Role → Bool} :
      Next ⟨.given r b, f⟩ (.picked r) ⟨.picked r b, f⟩
  | fetched {r : Role} {b : Byte} {f : Role → Bool} :
      Next ⟨.picked r b, f⟩ (.fetched r b) ⟨.fetched r b, f⟩
  | copied {r : Role} {b : Byte} {f : Role → Bool} :
      Next ⟨.fetched r b, f⟩ (.copied r b) ⟨.copied r b, f⟩
  | passed {r : Role} {b : Byte} {f : Role → Bool} :
      Next ⟨.copied r b, f⟩ (.passed r.peer) ⟨.offered r.peer (some b), f⟩

/-- **What may happen**, one event after another. -/
def Moves : List LineEvent → Baton → Baton → Prop
  | [], t, t' => t' = t
  | e :: l, t, t' => ∃ t₁, Next t e t₁ ∧ Moves l t₁ t'

/-- Before the first handshake has been flipped. -/
def initial : Baton := ⟨.start, fun _ => true⟩

theorem Moves.append {l l' : List LineEvent} {t t' t'' : Baton} (h : Moves l t t')
    (h' : Moves l' t' t'') : Moves (l ++ l') t t'' := by
  induction l generalizing t with
  | nil => exact h ▸ h'
  | cons e l ih =>
    obtain ⟨t₁, hnext, hl⟩ := h
    exact ⟨t₁, hnext, ih hl⟩

theorem Moves.single {e : LineEvent} {t t' : Baton} (h : Next t e t') : Moves [e] t t' :=
  ⟨t', h, rfl⟩

end Baton

/-- The thread an event is one of. -/
def LineEvent.actor : LineEvent → LineThread
  | took r => .communication r
  | skipped r => .communication r
  | read r _ => .communication r
  | wrote r _ => .communication r
  | gave r => .communication r
  | picked _ => .relay
  | fetched _ _ => .relay
  | copied _ _ => .relay
  | passed _ => .relay

namespace Baton

variable {t t' t'' : Baton} {i : LineThread}

/-- **What a thread relies on**: nothing happens to the token while it has it, and it
does not get it without taking it. -/
structure Left (i : LineThread) (t t' : Baton) : Prop where
  held : t.stage.holder = some i → t' = t
  free : t.stage.holder ≠ some i → t'.stage.holder ≠ some i
  fresh : ∀ r, i = .communication r → t'.fresh r = t.fresh r

theorem Left.refl : Left i t t := ⟨fun _ => rfl, id, fun _ _ => rfl⟩

theorem Left.trans (h : Left i t t') (h' : Left i t' t'') : Left i t t'' where
  held hi := by
    have he := h.held hi
    rw [h'.held (he ▸ hi), he]
  free hi := h'.free (h.free hi)
  fresh r hi := (h'.fresh r hi).trans (h.fresh r hi)

/-- A thread acts on the token it has, or takes it. -/
theorem Next.holder {e : LineEvent} (h : Next t e t') (hi : t.stage.holder = some i) :
    i = e.actor := by
  cases h <;> first | exact (Option.some.inj hi).symm | cases hi

/-- Nobody else has it afterwards. -/
theorem Next.holder' {e : LineEvent} (h : Next t e t') (hi : t'.stage.holder = some i) :
    i = e.actor := by
  cases h <;> first | exact (Option.some.inj hi).symm | cases hi

/-- An end is new to the token until it takes it. -/
theorem Next.fresh {e : LineEvent} (h : Next t e t') (hr : .communication r ≠ e.actor) :
    t'.fresh r = t.fresh r := by
  cases h with
  | skipped first => exact Function.update_of_ne (fun hf => hr (congrArg _ hf)) ..
  | _ => rfl

/-- **An event leaves the token to all other threads.** -/
theorem Next.left {e : LineEvent} (h : Next t e t') (hi : i ≠ e.actor) : Left i t t' where
  held hf := absurd (h.holder hf) hi
  free _ hf := hi (h.holder' hf)
  fresh _ hr := h.fresh (hr ▸ hi)

theorem Moves.left {l : List LineEvent} (h : Moves l t t') (hi : ∀ e ∈ l, i ≠ e.actor) :
    Left i t t' := by
  induction l generalizing t with
  | nil => exact h ▸ .refl
  | cons e l ih =>
    obtain ⟨t₁, hnext, hl⟩ := h
    exact (hnext.left (hi e List.mem_cons_self)).trans
      (ih hl fun e' he => hi e' (List.mem_cons_of_mem _ he))

end Baton

/-! ## What has happened -/

namespace LineEvent

/-- The end that takes the token. -/
def taker : LineEvent → Option Role
  | took r => some r
  | _ => none

/-- The byte an end writes. -/
def writes (r : Role) : LineEvent → Option Byte
  | wrote r' b => if r' = r then some b else none
  | _ => none

/-- The byte of an end that the relay copies. -/
def copies (r : Role) : LineEvent → Option Byte
  | copied r' b => if r' = r then some b else none
  | _ => none

/-- The byte an end reads. -/
def reads (r : Role) : LineEvent → Option Byte
  | read r' b => if r' = r then some b else none
  | _ => none

/-- Whether an end skips the first byte. -/
def skips (r : Role) : LineEvent → Bool
  | skipped r' => r' = r
  | _ => false

/-- A flag is consumed. -/
def consumes : LineEvent → Bool
  | took _ => true
  | picked _ => true
  | _ => false

/-- A flag is cleared. -/
def clears : LineEvent → Bool
  | gave _ => true
  | passed _ => true
  | _ => false

end LineEvent

/-- **A thread is between consuming a flag and clearing the next one.** -/
def Carrying (i : LineThread) (l : List LineEvent) : Prop :=
  ∃ l₁ e l₂, l = l₁ ++ e :: l₂ ∧ e.actor = i ∧ e.consumes = true
    ∧ ∀ e' ∈ l₂, e'.actor = i → e'.clears = false

/-- **What has happened on a line with one token.** -/
structure Ledger (l : List LineEvent) : Prop where
  /-- The ends take turns. -/
  alternate : (l.filterMap LineEvent.taker).IsChain fun r r' => r' = r.peer
  /-- At any time one byte of an end at most has not been copied yet. -/
  copied : ∀ r, ∃ b : Option Byte,
    l.filterMap (LineEvent.writes r) = l.filterMap (LineEvent.copies r) ++ b.toList
  /-- Of the bytes that have been copied, the first may be skipped, and one at most has not
  been read yet. -/
  consumed : ∀ r, ∃ first b : Option Byte,
    l.filterMap (LineEvent.copies r.peer)
      = first.toList ++ l.filterMap (LineEvent.reads r) ++ b.toList
    ∧ (first.isSome = true → l.countP (LineEvent.skips r) = 1)
  skipped : ∀ r, l.countP (LineEvent.skips r) ≤ 1

namespace Stage

/-- The end that takes the token next. -/
def next : Stage → Role
  | start => .fpga
  | offered r _ => r
  | taken r _ => r.peer
  | heard r => r.peer
  | written r _ => r.peer
  | given r _ => r.peer
  | picked r _ => r.peer
  | fetched r _ => r.peer
  | copied r _ => r.peer

/-- The byte of an end that has not been copied. -/
def uncopied (r : Role) : Stage → Option Byte
  | written r' b => if r' = r then some b else none
  | given r' b => if r' = r then some b else none
  | picked r' b => if r' = r then some b else none
  | fetched r' b => if r' = r then some b else none
  | _ => none

/-- The byte for an end that has not been read. -/
def unread (r : Role) : Stage → Option Byte
  | offered r' b => if r' = r then b else none
  | taken r' b => if r' = r then b else none
  | copied r' b => if r'.peer = r then some b else none
  | _ => none

end Stage

namespace Baton

variable {t t' : Baton} {l : List LineEvent} {e : LineEvent} {i : LineThread} {r : Role}

/-- The last of the events that may happen. -/
theorem Moves.last {t'' : Baton} (h : Moves (l ++ [e]) t t'') :
    ∃ t', Moves l t t' ∧ Next t' e t'' := by
  induction l generalizing t with
  | nil =>
    obtain ⟨t₁, hnext, rfl⟩ := h
    exact ⟨t, rfl, hnext⟩
  | cons e' l ih =>
    obtain ⟨t₁, hnext, hl⟩ := h
    obtain ⟨t', hl', he⟩ := ih hl
    exact ⟨t', ⟨t₁, hnext, hl'⟩, he⟩

/-- What goes with the place of the token. -/
structure Accounts (l : List LineEvent) (t : Baton) : Prop where
  alternate : (l.filterMap LineEvent.taker).IsChain fun r r' => r' = r.peer
  next : ∀ r ∈ (l.filterMap LineEvent.taker).getLast?, t.stage.next = r.peer
  copied : ∀ r, l.filterMap (LineEvent.writes r)
    = l.filterMap (LineEvent.copies r) ++ (t.stage.uncopied r).toList
  consumed : ∀ r, ∃ first : Option Byte, l.filterMap (LineEvent.copies r.peer)
      = first.toList ++ l.filterMap (LineEvent.reads r) ++ (t.stage.unread r).toList
    ∧ (t.fresh r = true → first = none ∧ l.filterMap (LineEvent.reads r) = [])
  skipped : ∀ r, l.countP (LineEvent.skips r) = if t.fresh r then 0 else 1

/-- Before anything has happened. -/
theorem Accounts.initial : Accounts [] initial where
  alternate := .nil
  next _ hr := by cases hr
  copied _ := rfl
  consumed _ := ⟨none, rfl, fun _ => ⟨rfl, rfl⟩⟩
  skipped _ := rfl

/-- What is collected of one more event. -/
theorem filterMap_concat {α : Type} (p : LineEvent → Option α) :
    (l ++ [e]).filterMap p = l.filterMap p ++ (p e).toList := by
  rw [List.filterMap_append]
  cases he : p e with
  | none => rw [List.filterMap_cons_none he, List.filterMap_nil, Option.toList_none]
  | some a => rw [List.filterMap_cons_some he, List.filterMap_nil, Option.toList_some]

/-- One more event. -/
theorem Accounts.next_event (h : Accounts l t) (he : Next t e t') : Accounts (l ++ [e]) t' where
  alternate := by
    rw [filterMap_concat]
    refine h.alternate.append ?_ fun r hr r' hr' => ?_
    · cases he <;> first | exact .nil | exact .singleton _
    · have hnext := h.next r hr
      cases he with
      | took =>
        obtain rfl := Option.some.inj hr'
        exact hnext
      | _ => cases hr'
  next r hr := by
    rw [filterMap_concat] at hr
    cases he with
    | took =>
      obtain rfl : _ = r := by simpa [LineEvent.taker] using hr
      rfl
    | _ => exact h.next r (by simpa [LineEvent.taker] using hr)
  copied r := by
    rw [filterMap_concat, filterMap_concat, h.copied r, List.append_assoc, List.append_assoc]
    congr 1
    cases he <;> simp [LineEvent.writes, LineEvent.copies, Stage.uncopied]
  consumed r := by
    -- what is read is what has been copied, behind the byte that is skipped
    obtain ⟨first, hfirst, hfresh⟩ := h.consumed r
    rw [filterMap_concat, filterMap_concat, hfirst]
    cases he with
    | @skipped r' b f new =>
      by_cases hr : r' = r
      · subst hr
        obtain ⟨rfl, hnone⟩ := hfresh new
        refine ⟨b, ?_, fun hf => ?_⟩
        · simp [hnone, LineEvent.copies, LineEvent.reads, Stage.unread]
        · simp at hf
      · refine ⟨first, ?_, fun hf => ?_⟩
        · simp [LineEvent.copies, LineEvent.reads, Stage.unread, hr]
        · have hf' : f r = true := by simpa [Function.update_of_ne (Ne.symm hr)] using hf
          simpa [LineEvent.reads] using hfresh hf'
    | @read r' b f later =>
      refine ⟨first, ?_, fun hf => ?_⟩
      · by_cases hr : r' = r <;> simp [LineEvent.copies, LineEvent.reads, Stage.unread, hr]
      · have hr : r' ≠ r := by
          rintro rfl
          exact absurd (later.symm.trans hf) (by decide)
        simpa [LineEvent.reads, hr] using hfresh hf
    | @copied r' b f =>
      refine ⟨first, ?_, fun hf => ?_⟩
      · cases r <;> cases r' <;> simp [LineEvent.copies, LineEvent.reads, Stage.unread, Role.peer]
      · simpa [LineEvent.reads] using hfresh hf
    | _ =>
      exact ⟨first, by simp [LineEvent.copies, LineEvent.reads, Stage.unread],
        fun hf => by simpa [LineEvent.reads] using hfresh hf⟩
  skipped r := by
    rw [List.countP_append, h.skipped r, List.countP_singleton]
    cases he with
    | @skipped r' b f first =>
      by_cases hr : r' = r
      · subst hr
        simp [LineEvent.skips, first]
      · simp [LineEvent.skips, hr, Function.update_of_ne (Ne.symm hr)]
    | _ => simp [LineEvent.skips]

/-- **A line with one token** keeps its accounts. -/
theorem Moves.accounts (h : Moves l initial t) : Accounts l t := by
  induction l using List.reverseRecOn generalizing t with
  | nil => exact h ▸ .initial
  | append_singleton l e ih =>
    obtain ⟨t', hl, he⟩ := h.last
    exact (ih hl).next_event he

theorem Moves.ledger (h : Moves l initial t) : Ledger l where
  alternate := h.accounts.alternate
  copied r := ⟨_, h.accounts.copied r⟩
  consumed r := by
    obtain ⟨first, hfirst, hfresh⟩ := h.accounts.consumed r
    refine ⟨first, _, hfirst, fun hf => ?_⟩
    rw [h.accounts.skipped r, if_neg]
    intro hr
    rw [(hfresh hr).1] at hf
    cases hf
  skipped r := by
    rw [h.accounts.skipped r]
    split <;> decide

/-- With one more event, a flag is consumed, or has been consumed before. -/
theorem carrying_concat (h : Carrying i (l ++ [e])) : e.actor = i ∧ e.consumes = true
    ∨ Carrying i l ∧ (e.actor = i → e.clears = false) := by
  obtain ⟨l₁, e₁, l₂, hl, hactor, hconsumes, hclears⟩ := h
  induction l₂ using List.reverseRecOn with
  | nil =>
    obtain ⟨-, rfl⟩ := List.append_singleton_inj.mp hl
    exact .inl ⟨hactor, hconsumes⟩
  | append_singleton l₂ e₂ _ =>
    rw [← List.cons_append, ← List.append_assoc] at hl
    obtain ⟨rfl, rfl⟩ := List.append_singleton_inj.mp hl
    exact .inr ⟨⟨l₁, e₁, l₂, rfl, hactor, hconsumes,
      fun e' he' => hclears e' (List.mem_append_left _ he')⟩,
      hclears e (List.mem_append_right _ (List.mem_singleton_self e))⟩

/-- A thread that consumes a flag has the token. -/
theorem Next.consumed (h : Next t e t') (he : e.consumes = true) :
    t'.stage.holder = some e.actor := by
  cases h <;> first | rfl | cases he

/-- A thread that has the token and clears no flag keeps it. -/
theorem Next.carried (h : Next t e t') (hi : t.stage.holder = some i)
    (he : e.actor = i → e.clears = false) : t'.stage.holder = some i := by
  have hclears := he (h.holder hi).symm
  cases h with
  | begin => cases hclears
  | gave => cases hclears
  | passed => cases hclears
  | took => cases hi
  | picked => cases hi
  | _ => exact hi

/-- Whoever carries the token has it. -/
theorem Moves.carrying (h : Moves l initial t) (hi : Carrying i l) : t.stage.holder = some i := by
  induction l using List.reverseRecOn generalizing t with
  | nil =>
    obtain ⟨l₁, e, l₂, hl, -⟩ := hi
    cases l₁ <;> cases hl
  | append_singleton l e ih =>
    obtain ⟨t', hl, he⟩ := h.last
    obtain ⟨rfl, hconsumes⟩ | ⟨hbefore, hclears⟩ := carrying_concat hi
    · exact he.consumed hconsumes
    · exact he.carried (ih hl hbefore) hclears

end Baton

end SOS
