import SoftwareOnSilicon.Baton
import SoftwareOnSilicon.Schedule
import SoftwareOnSilicon.Trace

/-!
# A single token on the line

The four flags of the two buses are one token: what the three threads do is what a
`Baton` allows, however they are interleaved (`single_token`). Nothing else keeps
them apart: each of them acts on the shared buffers only while it has the token.
-/

namespace SOS

open Interleaving Code

variable {D : DescriptorHelper} {r r' : Role} {b : Byte}

/-! ## What the threads do to it -/

/-- **What an operation shows of the token.** The first time an end takes the token,
it does not read the byte. -/
def lineEvents : Pool.Observer LineThread.Private LineAnswer LineEvent
  | .communication r, s, .inr ⟨_, .testAndSet .updated⟩, false =>
    if s.firstRun then [.took r, .skipped r] else [.took r]
  | .communication r, _, .inr ⟨_, .loadIn _⟩, b => [.read r b]
  | .communication r, _, .inr ⟨_, .storeOut _ b⟩, _ => [.wrote r b]
  | .communication r, _, .inr ⟨_, .clear .acknowledge⟩, _ => [.gave r]
  | .relay, _, .inr ⟨r, .testAndSet .acknowledge⟩, false => [.picked r]
  | .relay, _, .inr ⟨r, .loadOut _⟩, b => [.fetched r b]
  | .relay, _, .inr ⟨r, .storeIn _ b⟩, _ => [.copied r.peer b]
  | .relay, _, .inr ⟨r, .clear .updated⟩, _ => [.passed r]
  | _, _, _, _ => []

/-- What a thread asserts before an operation on a bus. -/
inductive Holding (s : Endpoint) (r : Role) : ComOp → Baton → Prop
  | take {t : Baton} (fresh : t.fresh r = s.firstRun) : Holding s r ⟨r, .testAndSet .updated⟩ t
  | readOffset {t : Baton} (held : t.stage.holder = some (.communication r)) :
      Holding s r ⟨r, .loadReadOffset⟩ t
  | storeReadOffset {t : Baton} (held : t.stage.holder = some (.communication r)) :
      Holding s r ⟨r, .storeReadOffset 0⟩ t
  | writeOffset {t : Baton} (held : t.stage.holder = some (.communication r)) :
      Holding s r ⟨r, .loadWriteOffset⟩ t
  | storeWriteOffset {t : Baton} (held : t.stage.holder = some (.communication r)) :
      Holding s r ⟨r, .storeWriteOffset 0⟩ t
  | read {t : Baton} {b : Byte} (stage : t.stage = .taken r (some b)) (later : t.fresh r = false) :
      Holding s r ⟨r, .loadIn 0⟩ t
  | write {t : Baton} {b : Byte} (stage : t.stage = .heard r) : Holding s r ⟨r, .storeOut 0 b⟩ t
  | give {t : Baton} {b : Byte} (stage : t.stage = .written r b) :
      Holding s r ⟨r, .clear .acknowledge⟩ t

/-- What the relay asserts before an operation on a bus. -/
inductive Relaying : ComOp → Baton → Prop
  | pick {r : Role} {t : Baton} : Relaying ⟨r, .testAndSet .acknowledge⟩ t
  | fetch {r : Role} {b : Byte} {t : Baton} (stage : t.stage = .picked r b) :
      Relaying ⟨r, .loadOut 0⟩ t
  | copy {r : Role} {b : Byte} {t : Baton} (stage : t.stage = .fetched r b) :
      Relaying ⟨r.peer, .storeIn 0 b⟩ t
  | pass {r : Role} {b : Byte} {t : Baton} (stage : t.stage = .copied r b) :
      Relaying ⟨r.peer, .clear .updated⟩ t
  | begin {t : Baton} (stage : t.stage = .start) : Relaying ⟨.fpga, .clear .updated⟩ t

/-- **The buses are as the token says.** -/
structure Baton.Follows (t : Baton) (w : LineWorld) : Prop where
  bare : ∀ r, t.stage.bare = some r → t.fresh r = true
  flag : ∀ r f, (w.com r).flag f = false ↔ t.stage.clear = some (r, f)
  readOffset : ∀ r, (w.com r).readOffset = 0
  writeOffset : ∀ r, (w.com r).writeOffset = 0
  waiting : ∀ r b, t.stage.waiting = some (r, b) → (w.com r).inBuffer 0 = b
  leaving : ∀ r b, t.stage.leaving = some (r, b) → (w.com r).outBuffer 0 = b

/-- The offsets are what they have been at the start. -/
def OffsetsZero : (o : Op ⊕ ComOp) → LineAnswer o → Prop
  | .inr ⟨_, .loadReadOffset⟩, n => @Eq ℕ n 0
  | .inr ⟨_, .loadWriteOffset⟩, n => @Eq ℕ n 0
  | _, _ => True

/-- **The outline of the line.** -/
def lineOutline (D : DescriptorHelper) : (line D).Outline Baton where
  follows t w := t.Follows w
  step i s o a t t' := Baton.Moves (lineEvents i s o a) t t' ∧ OffsetsZero o a
  node
    | .communication r, s, .inr o, t => Holding s r o t
    | .communication r, _, .inl _, t => t.stage.holder = some (.communication r)
    | .relay, _, .inr o, t => Relaying o t
    | .relay, _, .inl _, _ => False
  rest
    | .communication r, s, t => AtRest D s ∧ t.fresh r = s.firstRun
        ∧ t.stage.holder ≠ some (.communication r)
    | .relay, s, t => if s.firstrun then t.stage = .start else t.stage.holder ≠ some .relay
  error _ _ _ _ := True
  rely i _ t t' := Baton.Left i t t'
  refl _ _ _ := .refl
  trans _ _ _ _ _ h₁ h₂ := h₁.trans h₂
  node_stable i s o t t' hr hn := by
    cases i with
    | communication r =>
      cases o with
      | inl o => exact (hr.held hn).symm ▸ hn
      | inr o =>
        cases hn with
        | take fresh => exact .take ((hr.fresh r rfl).trans fresh)
        | readOffset held => exact .readOffset (hr.held held ▸ held)
        | storeReadOffset held => exact .storeReadOffset (hr.held held ▸ held)
        | writeOffset held => exact .writeOffset (hr.held held ▸ held)
        | storeWriteOffset held => exact .storeWriteOffset (hr.held held ▸ held)
        | read stage later =>
          rw [hr.held (stage ▸ rfl)]
          exact .read stage later
        | write stage =>
          rw [hr.held (stage ▸ rfl)]
          exact .write stage
        | give stage =>
          rw [hr.held (stage ▸ rfl)]
          exact .give stage
    | relay =>
      cases o with
      | inl o => exact hn.elim
      | inr o =>
        cases hn with
        | pick => exact .pick
        | fetch stage =>
          rw [hr.held (stage ▸ rfl)]
          exact .fetch stage
        | copy stage =>
          rw [hr.held (stage ▸ rfl)]
          exact .copy stage
        | pass stage =>
          rw [hr.held (stage ▸ rfl)]
          exact .pass stage
        | begin stage =>
          rw [hr.held (stage ▸ rfl)]
          exact .begin stage
  rest_stable i s t t' hr hn := by
    cases i with
    | communication r => exact ⟨hn.1, (hr.fresh r rfl).trans hn.2.1, hr.free hn.2.2⟩
    | relay =>
      by_cases hf : s.firstrun = true
      · simp only [hf, if_true] at hn ⊢
        rw [hr.held (hn ▸ rfl), hn]
      · simp only [hf] at hn ⊢
        exact hr.free hn

/-! ## The buses under the token -/

namespace Baton.Follows

variable {t t' : Baton} {w : LineWorld} {c : ComBus}

/-- One bus is changed. -/
theorem setCom (hf : t.Follows w) (hbare : ∀ r, t'.stage.bare = some r → t'.fresh r = true)
    (hflag : ∀ r' f, ((w.setCom r c).com r').flag f = false ↔ t'.stage.clear = some (r', f))
    (hread : c.readOffset = 0) (hwrite : c.writeOffset = 0)
    (hin : ∀ b, t'.stage.waiting = some (r, b) → c.inBuffer 0 = b)
    (hin' : ∀ r' b, r' ≠ r → t'.stage.waiting = some (r', b) → t.stage.waiting = some (r', b))
    (hout : ∀ b, t'.stage.leaving = some (r, b) → c.outBuffer 0 = b)
    (hout' : ∀ r' b, r' ≠ r → t'.stage.leaving = some (r', b) → t.stage.leaving = some (r', b)) :
    t'.Follows (w.setCom r c) where
  bare := hbare
  flag := hflag
  readOffset r' := by
    by_cases hr : r' = r
    · subst hr
      rw [LineWorld.setCom_self, hread]
    · rw [LineWorld.setCom_of_ne _ hr, hf.readOffset]
  writeOffset r' := by
    by_cases hr : r' = r
    · subst hr
      rw [LineWorld.setCom_self, hwrite]
    · rw [LineWorld.setCom_of_ne _ hr, hf.writeOffset]
  waiting r' b hb := by
    by_cases hr : r' = r
    · subst hr
      rw [LineWorld.setCom_self, hin b hb]
    · rw [LineWorld.setCom_of_ne _ hr, hf.waiting r' b (hin' r' b hr hb)]
  leaving r' b hb := by
    by_cases hr : r' = r
    · subst hr
      rw [LineWorld.setCom_self, hout b hb]
    · rw [LineWorld.setCom_of_ne _ hr, hf.leaving r' b (hout' r' b hr hb)]

/-- The flags of a bus after one of them has been set or cleared. -/
theorem flag_update {f f' : ComFlag} {v : Bool} (hc : c.flag = Function.update (w.com r).flag f v) :
    ((w.setCom r c).com r').flag f' = if r' = r ∧ f' = f then v else (w.com r').flag f' := by
  by_cases hr : r' = r
  · subst hr
    rw [LineWorld.setCom_self, hc]
    by_cases hff : f' = f
    · subst hff
      simp
    · simp [hff]
  · rw [LineWorld.setCom_of_ne _ hr, if_neg fun h => hr h.1]

/-- **The token is taken from a flag.** -/
theorem take {f : ComFlag} (hf : t.Follows w)
    (hbare : ∀ r, t'.stage.bare = some r → t'.fresh r = true) (hclear : t.stage.clear = some (r, f))
    (hnone : t'.stage.clear = none)
    (hwaiting : ∀ r b, t'.stage.waiting = some (r, b) → t.stage.waiting = some (r, b))
    (hleaving : ∀ r b, t'.stage.leaving = some (r, b) → t.stage.leaving = some (r, b)) :
    t'.Follows (w.setCom r ((w.com r).exec (.testAndSet f)).2) := by
  refine hf.setCom hbare (fun r' f' => ?_) (hf.readOffset r) (hf.writeOffset r)
    (fun b hb => hf.waiting r b (hwaiting r b hb)) (fun r' b _ => hwaiting r' b)
    (fun b hb => hf.leaving r b (hleaving r b hb)) (fun r' b _ => hleaving r' b)
  rw [flag_update rfl, hnone]
  split
  case isTrue => simp
  case isFalse hne =>
    rw [hf.flag, hclear]
    constructor
    · intro he
      obtain ⟨rfl, rfl⟩ := Prod.mk.inj (Option.some.inj he)
      exact absurd ⟨rfl, rfl⟩ hne
    · intro he
      cases he

/-- A flag is found set. -/
theorem miss {f : ComFlag} (hf : t.Follows w) (hset : (w.com r).flag f = true) :
    t.Follows (w.setCom r ((w.com r).exec (.testAndSet f)).2) := by
  refine hf.setCom hf.bare (fun r' f' => ?_) (hf.readOffset r) (hf.writeOffset r)
    (fun b hb => hf.waiting r b hb) (fun _ _ _ hb => hb) (fun b hb => hf.leaving r b hb)
    (fun _ _ _ hb => hb)
  rw [flag_update rfl]
  split
  case isTrue he =>
    obtain ⟨rfl, rfl⟩ := he
    rw [← hf.flag, hset]
  case isFalse => exact hf.flag r' f'

/-- **The token is handed over with a flag.** -/
theorem give {f : ComFlag} (hf : t.Follows w)
    (hbare : ∀ r, t'.stage.bare = some r → t'.fresh r = true) (hnone : t.stage.clear = none)
    (hclear : t'.stage.clear = some (r, f))
    (hwaiting : ∀ r b, t'.stage.waiting = some (r, b) → t.stage.waiting = some (r, b))
    (hleaving : ∀ r b, t'.stage.leaving = some (r, b) → t.stage.leaving = some (r, b)) :
    t'.Follows (w.setCom r ((w.com r).exec (.clear f)).2) := by
  refine hf.setCom hbare (fun r' f' => ?_) (hf.readOffset r) (hf.writeOffset r)
    (fun b hb => hf.waiting r b (hwaiting r b hb)) (fun r' b _ => hwaiting r' b)
    (fun b hb => hf.leaving r b (hleaving r b hb)) (fun r' b _ => hleaving r' b)
  rw [flag_update rfl, hclear]
  split
  case isTrue he =>
    obtain ⟨rfl, rfl⟩ := he
    exact ⟨fun _ => rfl, fun _ => rfl⟩
  case isFalse hne =>
    rw [hf.flag, hnone]
    constructor
    · intro he
      cases he
    · intro he
      obtain ⟨rfl, rfl⟩ := Prod.mk.inj (Option.some.inj he)
      exact absurd ⟨rfl, rfl⟩ hne

/-- The flags of a bus are left alone. -/
theorem flag_keep (hf : t.Follows w) (hc : c.flag = (w.com r).flag)
    (hclear : t'.stage.clear = t.stage.clear) (r' : Role) (f : ComFlag) :
    ((w.setCom r c).com r').flag f = false ↔ t'.stage.clear = some (r', f) := by
  rw [hclear, ← hf.flag]
  by_cases hr : r' = r
  · subst hr
    rw [LineWorld.setCom_self, hc]
  · rw [LineWorld.setCom_of_ne _ hr]

/-- A byte is looked at, or an offset is put back to zero. -/
theorem keep (hf : t.Follows w)
    (hbare : ∀ r, t'.stage.bare = some r → t'.fresh r = true) (hc : c.flag = (w.com r).flag)
    (hread : c.readOffset = 0) (hwrite : c.writeOffset = 0) (hin : c.inBuffer = (w.com r).inBuffer)
    (hout : c.outBuffer = (w.com r).outBuffer) (hclear : t'.stage.clear = t.stage.clear)
    (hwaiting : ∀ r b, t'.stage.waiting = some (r, b) → t.stage.waiting = some (r, b))
    (hleaving : ∀ r b, t'.stage.leaving = some (r, b) → t.stage.leaving = some (r, b)) :
    t'.Follows (w.setCom r c) :=
  hf.setCom hbare (hf.flag_keep hc hclear) hread hwrite
    (fun b hb => hin ▸ hf.waiting r b (hwaiting r b hb)) (fun r' b _ => hwaiting r' b)
    (fun b hb => hout ▸ hf.leaving r b (hleaving r b hb)) (fun r' b _ => hleaving r' b)

end Baton.Follows

/-- Before the first handshake has been flipped. -/
theorem Baton.Follows.initial {obj : Role → ℕ → ℕ → Byte} :
    Baton.initial.Follows { board := fun r => Board.initial (obj r), com := fun _ => {} } where
  bare r hr := rfl
  flag r f := by constructor <;> (intro hf; cases hf)
  readOffset _ := rfl
  writeOffset _ := rfl
  waiting _ _ hb := by cases hb
  leaving _ _ hb := by cases hb

/-- The token is offered where the update is clear. -/
theorem Stage.of_updated {g : Stage} (h : g.clear = some (r, .updated)) :
    ∃ b, g = .offered r b := by
  cases g with
  | offered r' b =>
    obtain ⟨rfl, -⟩ := Prod.mk.inj (Option.some.inj h)
    exact ⟨b, rfl⟩
  | given r' b => cases h
  | _ => cases h

/-- The token is given back where the acknowledge is clear. -/
theorem Stage.of_acknowledge {g : Stage} (h : g.clear = some (r, .acknowledge)) :
    ∃ b, g = .given r b := by
  cases g with
  | given r' b =>
    obtain ⟨rfl, -⟩ := Prod.mk.inj (Option.some.inj h)
    exact ⟨b, rfl⟩
  | offered r' b => cases h
  | _ => cases h

namespace Baton.Follows

variable {t : Baton} {w : LineWorld} {o : ComOp}

/-- **An operation of an end** does with the token what it may. -/
theorem holding {s : Endpoint} (hf : t.Follows w) (hn : Holding s r o t) :
    ∃ t', Moves (lineEvents (.communication r) s (.inr o) ((w.com o.role).exec o.access).1) t t'
      ∧ t'.Follows (w.setCom o.role ((w.com o.role).exec o.access).2)
      ∧ OffsetsZero (.inr o) ((w.com o.role).exec o.access).1 := by
  obtain ⟨g, f⟩ := t
  cases hn with
  | take fresh =>
    cases hflag : (w.com r).flag .updated with
    | true =>
      refine ⟨_, ?_, hf.miss hflag, trivial⟩
      show Moves (lineEvents (.communication r) s (.inr ⟨r, .testAndSet .updated⟩)
        ((w.com r).flag .updated)) _ _
      rw [hflag]
      rfl
    | false =>
      have hclear := (hf.flag r .updated).mp hflag
      obtain ⟨b, hstage⟩ := Stage.of_updated hclear
      obtain rfl : g = .offered r b := hstage
      -- the first byte is taken as well, but not read
      cases hfirst : s.firstRun with
      | false =>
        refine ⟨⟨.taken r b, f⟩, ?_, hf.take (fun _ hb => by cases hb) hclear rfl (fun _ _ hb => hb)
          (fun _ _ hb => hb), trivial⟩
        show Moves (lineEvents (.communication r) s (.inr ⟨r, .testAndSet .updated⟩)
          ((w.com r).flag .updated)) _ _
        rw [hflag, lineEvents, hfirst]
        exact .single (.took fun hb => hf.bare r (congrArg (Stage.offered r) hb ▸ rfl))
      | true =>
        refine ⟨⟨.heard r, Function.update f r false⟩, ?_,
          hf.take (fun _ hb => by cases hb) hclear rfl (fun _ _ hb => by cases hb)
            (fun _ _ hb => by cases hb), trivial⟩
        show Moves (lineEvents (.communication r) s (.inr ⟨r, .testAndSet .updated⟩)
          ((w.com r).flag .updated)) _ _
        rw [hflag, lineEvents, hfirst]
        exact ⟨_, .took fun _ => fresh.trans hfirst, .single (.skipped (fresh.trans hfirst))⟩
  | readOffset =>
    exact ⟨_, rfl, hf.keep hf.bare rfl (hf.readOffset r) (hf.writeOffset r) rfl rfl rfl
      (fun _ _ hb => hb) (fun _ _ hb => hb), hf.readOffset r⟩
  | storeReadOffset =>
    exact ⟨_, rfl, hf.keep hf.bare rfl rfl (hf.writeOffset r) rfl rfl rfl (fun _ _ hb => hb)
      (fun _ _ hb => hb), trivial⟩
  | writeOffset =>
    exact ⟨_, rfl, hf.keep hf.bare rfl (hf.readOffset r) (hf.writeOffset r) rfl rfl rfl
      (fun _ _ hb => hb) (fun _ _ hb => hb), hf.writeOffset r⟩
  | storeWriteOffset =>
    exact ⟨_, rfl, hf.keep hf.bare rfl (hf.readOffset r) rfl rfl rfl rfl (fun _ _ hb => hb)
      (fun _ _ hb => hb), trivial⟩
  | @read _ b stage later =>
    obtain rfl : g = .taken r (some b) := stage
    refine ⟨⟨.heard r, f⟩, ?_, hf.keep (fun _ hb => by cases hb) rfl (hf.readOffset r)
      (hf.writeOffset r) rfl rfl rfl (fun _ _ hb => by cases hb)
      (fun _ _ hb => by cases hb), trivial⟩
    show Moves [.read r ((w.com r).inBuffer 0)] _ _
    rw [hf.waiting r b rfl]
    exact .single (.read later)
  | @write _ b stage =>
    obtain rfl : g = .heard r := stage
    refine ⟨⟨.written r b, f⟩, .single .wrote, hf.setCom (fun _ hb => by cases hb)
      (hf.flag_keep rfl rfl) (hf.readOffset r) (hf.writeOffset r) (fun _ hb => by cases hb)
      (fun _ _ _ hb => by cases hb) ?_ ?_, trivial⟩
    · intro b' hb
      obtain ⟨-, rfl⟩ := Prod.mk.inj (Option.some.inj hb)
      show Function.update (w.com r).outBuffer 0 b 0 = b
      exact Function.update_self ..
    · intro r' b' hr hb
      obtain ⟨rfl, -⟩ := Prod.mk.inj (Option.some.inj hb)
      exact absurd rfl hr
  | @give _ b stage =>
    obtain rfl : g = .written r b := stage
    exact ⟨⟨.given r b, f⟩, .single .gave, hf.give (fun _ hb => by cases hb) rfl rfl
      (fun _ _ hb => by cases hb) (fun _ _ hb => hb), trivial⟩

/-- **An operation of the relay** does with the token what it may. -/
theorem relaying {s : Relay} (hf : t.Follows w) (hn : Relaying o t) :
    ∃ t', Moves (lineEvents .relay s (.inr o) ((w.com o.role).exec o.access).1) t t'
      ∧ t'.Follows (w.setCom o.role ((w.com o.role).exec o.access).2)
      ∧ OffsetsZero (.inr o) ((w.com o.role).exec o.access).1 := by
  obtain ⟨g, f⟩ := t
  cases hn with
  | @pick r =>
    cases hflag : (w.com r).flag .acknowledge with
    | true =>
      refine ⟨_, ?_, hf.miss hflag, trivial⟩
      show Moves (lineEvents .relay s (.inr ⟨r, .testAndSet .acknowledge⟩)
        ((w.com r).flag .acknowledge)) _ _
      rw [hflag]
      rfl
    | false =>
      have hclear := (hf.flag r .acknowledge).mp hflag
      obtain ⟨b, hstage⟩ := Stage.of_acknowledge hclear
      obtain rfl : g = .given r b := hstage
      refine ⟨⟨.picked r b, f⟩, ?_, hf.take (fun _ hb => by cases hb) hclear rfl
        (fun _ _ hb => by cases hb) (fun _ _ hb => hb), trivial⟩
      show Moves (lineEvents .relay s (.inr ⟨r, .testAndSet .acknowledge⟩)
        ((w.com r).flag .acknowledge)) _ _
      rw [hflag]
      exact .single .picked
  | @fetch r b _ stage =>
    obtain rfl : g = .picked r b := stage
    refine ⟨⟨.fetched r b, f⟩, ?_, hf.keep (fun _ hb => by cases hb) rfl (hf.readOffset r)
      (hf.writeOffset r) rfl rfl rfl (fun _ _ hb => by cases hb)
      (fun _ _ hb => by cases hb), trivial⟩
    show Moves [.fetched r ((w.com r).outBuffer 0)] _ _
    rw [hf.leaving r b rfl]
    exact .single .fetched
  | @copy r b _ stage =>
    obtain rfl : g = .fetched r b := stage
    refine ⟨⟨.copied r b, f⟩, ?_, hf.setCom (fun _ hb => by cases hb) (hf.flag_keep rfl rfl)
      (hf.readOffset _) (hf.writeOffset _) ?_ ?_ (fun _ hb => by cases hb) (fun _ _ _ hb => by cases hb), trivial⟩
    · show Moves [.copied r.peer.peer b] _ _
      rw [Role.peer_peer]
      exact .single .copied
    · intro b' hb
      obtain ⟨-, rfl⟩ := Prod.mk.inj (Option.some.inj hb)
      show Function.update (w.com r.peer).inBuffer 0 b 0 = b
      exact Function.update_self ..
    · intro r' b' hr hb
      obtain ⟨rfl, -⟩ := Prod.mk.inj (Option.some.inj hb)
      exact absurd rfl hr
  | @pass r b _ stage =>
    obtain rfl : g = .copied r b := stage
    exact ⟨⟨.offered r.peer (some b), f⟩, .single .passed, hf.give (fun _ hb => by cases hb) rfl rfl
      (fun _ _ hb => hb) (fun _ _ hb => by cases hb), trivial⟩
  | begin stage =>
    obtain rfl : g = .start := stage
    exact ⟨⟨.offered .fpga none, f⟩, .single .begin,
      hf.give (fun _ hb => Option.some.inj hb ▸ hf.bare _ rfl) rfl rfl (fun _ _ hb => by cases hb)
      (fun _ _ hb => by cases hb), trivial⟩

end Baton.Follows

/-! ## The threads -/

section Threads

variable {s : Endpoint} {t : Baton} {f : Role → Bool}

/-- An access of an end that has the token. -/
theorem end_safe {a : ComAccess} {Q : Endpoint → a.Answer → Baton → Prop}
    (held : t.stage.holder = some (.communication r)) (hn : Holding s r ⟨r, a⟩ t)
    (hQ : ∀ (x : a.Answer) t', Baton.Moves (lineEvents (.communication r) s (.inr ⟨r, a⟩) x) t t' →
      OffsetsZero (.inr ⟨r, a⟩) x → Q s x t') :
    ((onCom r a).run s).Safe ((lineOutline D).rules (.communication r)) Q t := by
  refine Pool.Outline.safe_perform (fun t' => t' = t) rfl (fun t' t'' hr ht => ?_) hn ?_
  · subst ht
    exact hr.held held
  · rintro x t' t'' rfl ⟨hmoves, hzero⟩
    exact hQ x t'' hmoves hzero

/-- **`read_byte`** reads the byte that came with the token. -/
theorem readByte_safe {Q : Endpoint → Byte → Baton → Prop} (later : f r = false)
    (hQ : Q s b ⟨.heard r, f⟩) :
    ((readByte r).run s).Safe ((lineOutline D).rules (.communication r)) Q
      ⟨.taken r (some b), f⟩ := by
  simp only [readByte, run_bind, Prog.safe_bind]
  refine end_safe rfl (.readOffset rfl) ?_
  rintro n _ rfl hn
  obtain rfl : n = (0 : ℕ) := hn
  rw [if_neg (lt_irrefl 0)]
  simp only [run_bind, Prog.safe_bind]
  refine end_safe rfl (.readOffset rfl) ?_
  rintro n _ rfl hn
  obtain rfl : n = (0 : ℕ) := hn
  refine end_safe rfl (.read rfl later) ?_
  rintro b' _ ⟨_, hnext, rfl⟩ -
  cases hnext with | read =>
  rw [if_pos (Nat.zero_le _)]
  simp only [run_bind, run_pure, Prog.safe_bind, Prog.safe_ret]
  refine end_safe rfl (.storeReadOffset rfl) ?_
  rintro x _ rfl -
  exact hQ

/-- **`write_byte`** puts a byte into the out buffer. -/
theorem writeByte_safe {Q : Endpoint → Unit → Baton → Prop} (hQ : Q s () ⟨.written r b, f⟩) :
    ((writeByte r b).run s).Safe ((lineOutline D).rules (.communication r)) Q
      ⟨.heard r, f⟩ := by
  simp only [writeByte, run_bind, Prog.safe_bind]
  refine end_safe rfl (.writeOffset rfl) ?_
  rintro n _ rfl hn
  obtain rfl : n = (0 : ℕ) := hn
  rw [if_neg (Nat.not_lt_zero 1)]
  simp only [run_bind, Prog.safe_bind]
  refine end_safe rfl (.writeOffset rfl) ?_
  rintro n _ rfl hn
  obtain rfl : n = (0 : ℕ) := hn
  refine end_safe rfl (.write rfl) ?_
  rintro x _ ⟨_, hnext, rfl⟩ -
  cases hnext with | wrote =>
  rw [if_pos le_rfl]
  refine end_safe rfl (.storeWriteOffset rfl) ?_
  rintro x _ rfl -
  exact hQ

/-- What an end does to its board does not concern the token. -/
theorem lineGuard (held : t.stage.holder = some (.communication r)) :
    Guard D True (fun _ => True) (fun _ _ _ => True) (fun _ => True)
      ((lineOutline D).rules (.communication r)).inl (fun _ t' => t' = t) := by
  refine Guard.steady (fun _ _ _ _ _ => trivial) (fun s o t' _ ht => ⟨?_, ?_⟩)
    (fun _ _ _ _ _ _ => trivial) (fun _ _ _ _ => trivial)
  · show t'.stage.holder = _
    rw [ht, held]
  · rintro a t'' ⟨t₁, hr, hmoves, -⟩
    have hsame : t'' = t₁ := hmoves
    rw [hsame, hr.held (ht ▸ held), ht]

/-- **The `OUT` half of an end's cycle**, up to the acknowledge. -/
theorem answer_safe (hD : D.Triples) (hs : Session D s)
    (hq : s.vars.acknowledgeRequested = false) (later : f r = false) :
    ((do
      (sendByte D r).inl
      writeByte r (← look Endpoint.comOut)
      handshakeAck r : LineCode Endpoint Unit).run s).Safe
        ((lineOutline D).rules (.communication r))
        (fun s _ t => (lineOutline D).rest (.communication r) s t) ⟨.heard r, f⟩ := by
  simp only [run_bind, Prog.safe_bind, run_inl, Prog.safe_inl]
  refine (lineGuard rfl).sendByte_safe hD hs hq rfl (fun s' t emitted ht => ?_) fun _ _ => trivial
  subst ht
  simp only [run_look, Prog.safe_ret, handshakeAck, run_bind, Prog.safe_bind]
  refine writeByte_safe ?_
  rw [run_inl, Prog.safe_inl, triggerResolve]
  refine (lineGuard rfl).clear_safe .trigger rfl fun t ht => ?_
  subst ht
  refine end_safe rfl (.give rfl) ?_
  rintro x _ ⟨_, hnext, rfl⟩ -
  cases hnext with | gave =>
  exact ⟨AtRest.of_emitted hD hs hq emitted, later.trans emitted.firstRun.symm,
    fun hf => by cases hf⟩

/-- **An end** keeps to the token. -/
theorem serialEventLoop_safe (hD : D.Triples)
    (hrest : (lineOutline D).rest (.communication r) s t) :
    (lineOutline D).Safe (.communication r) ((serialEventLoop D r).run s) t := by
  obtain ⟨hs, fresh, free⟩ := hrest
  simp only [Pool.Outline.Safe, serialEventLoop, run_bind, run_look, Prog.safe_bind, Prog.safe_ret]
  cases query : s.handshakeQuery r with
  | false => exact ⟨hs, fresh, free⟩
  | true =>
    simp only [if_true, run_bind, Prog.safe_bind, handshake]
    refine Pool.Outline.safe_perform
      (fun t => t.fresh r = s.firstRun ∧ t.stage.holder ≠ some (.communication r))
      ⟨fresh, free⟩ (fun t t' hr ht => ⟨(hr.fresh r rfl).trans ht.1, hr.free ht.2⟩)
      (.take fresh) ?_
    rintro a t' t'' ⟨fresh', free'⟩ ⟨hmoves, -⟩
    cases a with
    | true =>
      -- the update was not clear
      obtain rfl : t'' = t' := hmoves
      exact ⟨hs, fresh', free'⟩
    | false =>
      simp only [run_pure, Prog.safe_ret, Bool.not_false, if_true, run_bind, Prog.safe_bind,
        run_look]
      cases first : s.firstRun with
      | true =>
        have htook : Baton.Moves [.took r, .skipped r] t' t'' := by
          have h := hmoves
          rwa [lineEvents, if_pos first] at h
        obtain ⟨_, htook, _, hskip, rfl⟩ := htook
        cases htook with | @took _ _ f =>
        cases hskip
        simp only [if_true, run_inl, Prog.safe_inl, emitInit, run_bind, Prog.safe_bind]
        refine (lineGuard rfl).acquire_safe rfl fun t ht => ?_
        subst ht
        refine (lineGuard rfl).clear_safe (.clear _) rfl fun t ht => ?_
        subst ht
        simpa only [run_bind, Prog.safe_bind, run_inl, Prog.safe_inl] using
          answer_safe (f := Function.update f r false) hD hs.toSession (hs.fresh first)
            (Function.update_self ..)
      | false =>
        have htook : Baton.Moves [.took r] t' t'' := by
          have h := hmoves
          rwa [lineEvents, if_neg (by rw [first]; decide)] at h
        obtain ⟨_, htook, rfl⟩ := htook
        cases htook with | @took _ b f sent =>
        have later : f r = false := fresh'.trans first
        cases b with
        | none => exact absurd ((sent rfl).symm.trans later) (by decide)
        | some b =>
          simp only [Bool.false_eq_true, if_false, run_bind, Prog.safe_bind, run_change,
            Prog.safe_ret]
          refine readByte_safe later ?_
          rw [run_inl, Prog.safe_inl]
          refine (lineGuard rfl).receiveByte_safe hD (hs.take b).toSession rfl
            (fun _ _ _ => trivial) (fun _ _ _ => trivial) (fun s' t received ht => ?_)
            fun _ _ => trivial
          subst ht
          obtain ⟨hs', hq⟩ := (hs.take b).toSession.received hD received
          simpa only [run_bind, Prog.safe_bind] using answer_safe hD hs' hq later

end Threads

/-- An access of the relay that has the token. -/
theorem relay_safe {s : Relay} {t : Baton} {a : ComAccess} {Q : Relay → a.Answer → Baton → Prop}
    (held : t.stage.holder = some .relay) (hn : Relaying ⟨r, a⟩ t)
    (hQ : ∀ (x : a.Answer) t', Baton.Moves (lineEvents .relay s (.inr ⟨r, a⟩) x) t t' → Q s x t') :
    ((onCom r a).run s).Safe ((lineOutline D).rules .relay) Q t := by
  refine Pool.Outline.safe_perform (fun t' => t' = t) rfl (fun t' t'' hr ht => ?_) hn ?_
  · subst ht
    exact hr.held held
  · rintro x t' t'' rfl ⟨hmoves, -⟩
    exact hQ x t'' hmoves

/-- **The relay copies a byte**, if it finds one. -/
theorem forward_safe {s : Relay} {t : Baton} {Q : Relay → Unit → Baton → Prop}
    (hmiss : ∀ t', Baton.Left .relay t t' → Q s () t')
    (hpass : t.stage.holder ≠ some .relay → ∀ b f, Q s () ⟨.offered r.peer (some b), f⟩) :
    ((forward r).run s).Safe ((lineOutline D).rules .relay) Q t := by
  simp only [forward, run_bind, Prog.safe_bind]
  refine Pool.Outline.safe_perform (fun t' => Baton.Left .relay t t') .refl
    (fun t' t'' hr ht => ht.trans hr) .pick ?_
  rintro a t' t'' ht ⟨hmoves, -⟩
  cases a with
  | true =>
    obtain rfl : t'' = t' := hmoves
    exact hmiss t'' ht
  | false =>
    obtain ⟨_, hnext, rfl⟩ := hmoves
    cases hnext with | @picked _ b f =>
    have hfree : t.stage.holder ≠ some .relay := by
      intro hheld
      have he := ht.held hheld
      rw [← he] at hheld
      cases hheld
    simp only [Bool.not_false, if_true, run_bind, Prog.safe_bind]
    refine relay_safe rfl (.fetch rfl) ?_
    rintro x _ ⟨_, hnext, rfl⟩
    cases hnext
    refine relay_safe rfl (.copy rfl) ?_
    rintro _ _ ⟨_, hnext, rfl⟩
    rw [Role.peer_peer] at hnext
    cases hnext
    refine relay_safe rfl (.pass rfl) ?_
    rintro _ _ ⟨_, hnext, rfl⟩
    cases hnext
    exact hpass hfree b f

/-- **The relay** keeps to the token. -/
theorem relay_loop_safe {s : Relay} {t : Baton} (hrest : (lineOutline D).rest .relay s t) :
    (lineOutline D).Safe .relay ((line D).loop .relay s) t := by
  show Prog.Safe _ _ ((do hostFunct; clientFunct : LineCode Relay Unit).run s) t
  -- the byte of the FPGA, once the token is no longer the relay's
  have hclient : ∀ {s : Relay} {t : Baton}, s.firstrun = false → t.stage.holder ≠ some .relay →
      ((forward .fpga).run s).Safe ((lineOutline D).rules .relay)
        (fun s _ t => (lineOutline D).rest .relay s t) t := by
    intro s t hs ht
    have hout : ∀ {t : Baton}, t.stage.holder ≠ some .relay → (lineOutline D).rest .relay s t := by
      intro t ht
      show if s.firstrun then _ else _
      rwa [hs, if_neg (by decide)]
    exact forward_safe (fun t' hl => hout (hl.free ht)) fun _ b f => hout (fun hf => by cases hf)
  simp only [run_bind, Prog.safe_bind, hostFunct, clientFunct, run_look, Prog.safe_ret]
  cases first : s.firstrun with
  | true =>
    have hstart : t.stage = .start := by simpa [lineOutline, first] using hrest
    have hheld : t.stage.holder = some .relay := by rw [hstart]; rfl
    refine forward_safe (fun t' hl => ?_) fun hfree => absurd hheld hfree
    obtain rfl : t' = t := hl.held hheld
    obtain ⟨g, f⟩ := t'
    obtain rfl : g = .start := hstart
    rw [if_pos first]
    simp only [run_bind, Prog.safe_bind, run_change, Prog.safe_ret]
    refine relay_safe rfl (.begin rfl) ?_
    rintro _ _ ⟨_, hnext, rfl⟩
    cases hnext
    exact hclient rfl fun hf => by cases hf
  | false =>
    have hfree : t.stage.holder ≠ some .relay := by simpa [lineOutline, first] using hrest
    have hlater : ¬ s.firstrun = true := by rw [first]; decide
    refine forward_safe (fun t' hl => ?_) fun _ b f => ?_
    · rw [if_neg hlater]
      exact hclient first (hl.free hfree)
    · rw [if_neg hlater]
      exact hclient first fun hf => by cases hf

/-! ## The line -/

/-- An event is one of the thread that shows it. -/
theorem lineEvents_actor {i : LineThread} {s : i.Private} {o : Op ⊕ ComOp} {a : LineAnswer o} :
    ∀ e ∈ lineEvents i s o a, e.actor = i := by
  unfold lineEvents
  intro e he
  split at he
  case h_1 =>
    split at he
    · simp only [List.mem_cons, List.not_mem_nil, or_false] at he
      obtain rfl | rfl := he <;> rfl
    · obtain rfl := List.mem_singleton.mp he
      rfl
  case h_9 => cases he
  all_goals
    obtain rfl := List.mem_singleton.mp he
    rfl

/-- A change of the boards does not concern the token. -/
theorem Baton.Follows.of_com {t : Baton} {w w' : LineWorld} (hf : t.Follows w)
    (hw : w'.com = w.com) : t.Follows w' := by
  obtain ⟨bare, flag, readOffset, writeOffset, waiting, leaving⟩ := hf
  rw [← hw] at flag readOffset writeOffset waiting leaving
  exact ⟨bare, flag, readOffset, writeOffset, waiting, leaving⟩

/-- **An operation** does with the token what it may. -/
theorem lineOutline_op {σ : (line D).State} {t : Baton} {i : LineThread} {s : i.Private}
    {o : Op ⊕ ComOp} {a : LineAnswer o} {w : LineWorld} (hf : t.Follows σ.world)
    (hn : (lineOutline D).node i s o t) (exec : LineWorld.exec i o σ.world = some (a, w)) :
    ∃ t', Baton.Moves (lineEvents i s o a) t t' ∧ t'.Follows w ∧ OffsetsZero o a := by
  cases i with
  | communication r =>
    cases o with
    | inl o =>
      obtain ⟨x, -, hx⟩ := Option.map_eq_some_iff.mp exec
      obtain ⟨-, rfl⟩ := Prod.mk.inj hx
      exact ⟨t, rfl, hf.of_com rfl, trivial⟩
    | inr o =>
      obtain ⟨rfl, rfl⟩ := Prod.mk.inj (Option.some.inj exec)
      exact hf.holding hn
  | relay =>
    cases o with
    | inl o => cases exec
    | inr o =>
      obtain ⟨rfl, rfl⟩ := Prod.mk.inj (Option.some.inj exec)
      exact hf.relaying hn

/-- **A single token on the line.** However the operations of the two ends and of
the relay are interleaved, at most one of the four flags is clear, and at most one
of the threads has consumed one and not cleared the next. What happens is what one
token allows, so the ends take turns, and every byte is copied and consumed once. -/
theorem single_token (hD : D.Triples) (obj : Role → ℕ → ℕ → Byte) {σ : (line D).State}
    {l : List LineEvent}
    (hσ : (line D).Traces BusesIntact (fun _ _ => True) lineEvents (line.start D obj) l σ) :
    (∀ r f r' f', (σ.world.com r).flag f = false → (σ.world.com r').flag f' = false →
      r' = r ∧ f' = f)
    ∧ (∀ r f i, (σ.world.com r).flag f = false → ¬ Carrying i l)
    ∧ (∀ i i', Carrying i l → Carrying i' l → i' = i)
    ∧ Ledger l ∧ ∃ t, Baton.Moves l .initial t := by
  have hkeeps : ∃ t, Baton.Moves l .initial t ∧ (lineOutline D).Keeps σ t := by
    refine Pool.Outline.sound_traces (fun l t => Baton.Moves l .initial t) ?_ ?_ ?_ hσ ?_
    · rintro σ l t i s o k a w hl hk node exec -
      obtain ⟨t', hmoves, hf, hzero⟩ := lineOutline_op hk.1 (hk.node node) exec
      refine ⟨t', hl.append hmoves, hf, ⟨hmoves, hzero⟩, fun j hj => hmoves.left fun e he => ?_⟩
      rw [lineEvents_actor e he]
      exact hj
    · rintro σ l t w hl hk henv -
      exact ⟨t, hl, hk.1.of_com henv, fun _ => .refl⟩
    · intro i s t hrest
      cases i with
      | communication r => exact serialEventLoop_safe hD hrest
      | relay => exact relay_loop_safe hrest
    · refine ⟨.initial, rfl, .initial, fun i => ?_⟩
      cases i with
      | communication r => exact ⟨.initial, rfl, fun hf => by cases hf⟩
      | relay => exact rfl
  obtain ⟨t, hl, hk⟩ := hkeeps
  have hf := hk.1
  refine ⟨fun r f r' f' h h' => ?_, fun r f i h hi => ?_, fun i i' hi hi' => ?_, hl.ledger, t, hl⟩
  · have hclear := ((hf.flag r' f').mp h').symm.trans ((hf.flag r f).mp h)
    exact Prod.mk.inj (Option.some.inj hclear)
  · exact Stage.apart ((hf.flag r f).mp h) (hl.carrying hi)
  · exact Option.some.inj ((hl.carrying hi').symm.trans (hl.carrying hi))

/-- Replays of the line. -/
def lineScript (D : DescriptorHelper) : (line D).Script Empty where
  act v := v.elim
  may _ _ := false
  check _ := true

/-- Both ends have had the token, and the FPGA may read what the MCU has answered. -/
theorem single_token_round : ∃ (σ : (line twoObjects).State) (l : List LineEvent),
    (line twoObjects).Traces BusesIntact (fun _ _ => True) lineEvents
      (line.start twoObjects fun _ _ _ => 0) l σ
    ∧ (σ.world.com .fpga).flag .updated = false ∧ (∀ i, ¬ Carrying i l) ∧ Ledger l := by
  obtain ⟨σ, hσ, hp⟩ := Pool.Script.exists_of_replay BusesIntact (fun _ _ => True)
    (lineScript twoObjects)
    [.go .relay 4, .go (.communication .fpga) 100, .go .relay 6, .go (.communication .mcu) 100,
      .go .relay 6]
    (line.start twoObjects fun _ _ _ => 0)
    (fun σ => !(σ.world.com .fpga).flag .updated && (σ.world.com .mcu).flag .acknowledge)
    (fun _ _ hv => by cases hv) (fun _ _ _ => trivial) (by decide +kernel)
  obtain ⟨l, hl⟩ := Pool.Traces.of_reaches lineEvents hσ
  simp only [Bool.and_eq_true, Bool.not_eq_true'] at hp
  obtain ⟨-, hfree, -, hledger, -⟩ := single_token twoObjects_triples _ hl
  exact ⟨σ, l, hl, hp.1, fun i => hfree _ _ i hp.1, hledger⟩

end SOS
