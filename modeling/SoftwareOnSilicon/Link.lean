import SoftwareOnSilicon.Cycle
import SoftwareOnSilicon.Outline

/-!
# Two endpoints and the line between them

Each end has a board of its own. What connects them is a token: the end that
holds it runs one cycle, and hands it over together with the byte it has
emitted. So the two ends exchange one byte per cycle in strict alternation,
beginning with the FPGA.

`link` is the pool of the two communication threads. All other threads – the
resolvers with the write requests they pass on, the destructor with its stop
request – are what the environment does to the boards between any two
operations.
-/

namespace SOS

open Interleaving

/-- **The world of the two ends.** -/
structure World where
  board : Role → Board
  /-- The byte under way and the end it is for; `none` while an end holds the
  token. -/
  wire : Option (Role × Byte)

namespace World

/-- Replace the board of one end. -/
def setBoard (w : World) (r : Role) (h : Board) : World :=
  { w with board := Function.update w.board r h }

@[simp] theorem setBoard_wire (w : World) (r : Role) (h : Board) :
    (w.setBoard r h).wire = w.wire := rfl

@[simp] theorem setBoard_self (w : World) (r : Role) (h : Board) :
    (w.setBoard r h).board r = h := Function.update_self ..

theorem setBoard_of_ne (w : World) {r r' : Role} (hr : r' ≠ r) (h : Board) :
    (w.setBoard r h).board r' = w.board r' := Function.update_of_ne hr ..

/-- **What an access by one end does to the world.** -/
def exec (r : Role) : (a : Access) → World → Option (a.Answer × World)
  | .handshake, w =>
    match w.wire with
    | some (r', b) => if r' = r then some (b, { w with wire := none }) else none
    | none => none
  | .handshakeAck b, w => some ((), { w with wire := some (r.peer, b) })
  | a, w => (Board.exec a (w.board r)).map fun x => (x.1, w.setBoard r x.2)

/-- All accesses but the two handshakes are to the end's own board. -/
theorem exec_board {r : Role} {a : Access} {w w' : World} {x : a.Answer}
    (ha : a ≠ .handshake) (ha' : ∀ b, a ≠ .handshakeAck b)
    (h : exec r a w = some (x, w')) :
    ∃ h', Board.exec a (w.board r) = some (x, h') ∧ w' = w.setBoard r h' := by
  have hmap : (Board.exec a (w.board r)).map (fun x => (x.1, w.setBoard r x.2))
      = some (x, w') := by
    cases a <;> first | exact h | exact absurd rfl ha | exact absurd rfl (ha' _)
  obtain ⟨⟨y, h'⟩, hb, he⟩ := Option.map_eq_some_iff.mp hmap
  obtain ⟨rfl, rfl⟩ := Prod.mk.inj he
  exact ⟨h', hb, rfl⟩

theorem exec_handshake {r : Role} {w w' : World} {b : Byte}
    (h : exec r .handshake w = some (b, w')) :
    w.wire = some (r, b) ∧ w' = { w with wire := none } := by
  change (match w.wire with
    | some (r', b) => if r' = r then some (b, { w with wire := none }) else none
    | none => none) = some (b, w') at h
  split at h
  case h_1 r' b' hw =>
    split_ifs at h with hr
    obtain ⟨rfl, rfl⟩ := Prod.mk.inj (Option.some.inj h)
    exact ⟨hr ▸ hw, rfl⟩
  case h_2 => cases h

theorem exec_handshakeAck {r : Role} {w w' : World} {b : Byte} {x : Unit}
    (h : exec r (.handshakeAck b) w = some (x, w')) :
    w' = { w with wire := some (r.peer, b) } :=
  (Prod.mk.inj (Option.some.inj h)).2.symm

/-- An access is to the end's own board, or it is one of the handshakes and leaves the
boards alone. -/
theorem exec_own {r : Role} {a : Access} {w w' : World} {x : a.Answer}
    (h : exec r a w = some (x, w')) : Board.exec a (w.board r) = some (x, w'.board r)
      ∨ (a = .handshake ∨ ∃ b, a = .handshakeAck b) ∧ w'.board = w.board := by
  by_cases ht : a = .handshake
  · subst ht
    obtain ⟨-, rfl⟩ := exec_handshake h
    exact .inr ⟨.inl rfl, rfl⟩
  by_cases hg : ∃ b, a = .handshakeAck b
  · obtain ⟨b, rfl⟩ := hg
    obtain rfl := exec_handshakeAck h
    exact .inr ⟨.inr ⟨b, rfl⟩, rfl⟩
  obtain ⟨b, hb, rfl⟩ := exec_board ht (fun b hb => hg ⟨b, hb⟩) h
  rw [setBoard_self]
  exact .inl hb

/-- The board of the other end is left alone. -/
theorem exec_other {r r' : Role} {a : Access} {w w' : World} {x : a.Answer}
    (h : exec r a w = some (x, w')) (hr : r' ≠ r) : w'.board r' = w.board r' := by
  by_cases ht : a = .handshake
  · subst ht
    obtain ⟨-, rfl⟩ := exec_handshake h
    rfl
  by_cases hg : ∃ b, a = .handshakeAck b
  · obtain ⟨b, rfl⟩ := hg
    obtain rfl := exec_handshakeAck h
    rfl
  obtain ⟨b, -, rfl⟩ := exec_board ht (fun b hb => hg ⟨b, hb⟩) h
  exact setBoard_of_ne w hr b

end World

/-- **The pool of the two communication threads.** -/
def link (D : DescriptorHelper) : Pool Role (fun _ => Endpoint) ErrorCode Op.Answer World where
  exec r o w := World.exec r o.access w
  loop r s := (eventLoop D r).run s

/-- Both processes have been started, with the given contents of the objects.
The first handshake is the FPGA's. -/
def World.start (obj : Role → ℕ → ℕ → Byte) : World where
  board r := Board.initial (obj r)
  wire := some (.fpga, 0)

/-- The state the link starts in. -/
def link.start (D : DescriptorHelper) (obj : Role → ℕ → ℕ → Byte) : (link D).State where
  world := World.start obj
  thread _ := .ret {} ()

/-- A thread is between two cycles. -/
def Between (p : Prog Endpoint ErrorCode Op.Answer Unit) (s : Endpoint) : Prop :=
  p = .ret s () ∨ ∃ site k, p = .op s ⟨site, .handshake⟩ k

theorem Between.state {p : Prog Endpoint ErrorCode Op.Answer Unit} {s : Endpoint}
    (h : Between p s) : p.state = s := by
  obtain rfl | ⟨site, k, rfl⟩ := h <;> rfl

end SOS
