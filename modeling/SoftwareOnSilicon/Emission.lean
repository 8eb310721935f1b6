import Mathlib.Data.List.GetD
import SoftwareOnSilicon.Session

/-!
# What has been emitted of an object

How far a send has come can be read off the members of its end: which symbols
have been emitted (`Endpoint.emitted`), and that the bytes of the current group
are in the assembly (`Grouped`). Each payload symbol carries what comes next of the
bytes that have been fetched, whatever its signal bits (`Grouped.fed`), and nothing
else that happens in a cycle changes what has been emitted.
-/

namespace SOS

variable {D : DescriptorHelper} {r : Role} {data : Byte} {s s' : Endpoint}

/-- **How far a send has come.** -/
structure Progress where
  position : ℕ
  count : ℕ
  assembly : ℕ → Byte
  fetched : List Byte

namespace Progress

variable (x : Progress)

/-- How many symbols have been emitted of the object. -/
def emissions : ℕ := 4 * ((x.position - x.count) / 3) + x.count

/-- **What they carry.** -/
def emitted : List Byte := symbolsOf (fun i => x.fetched.getD i 0) x.emissions

/-- What has been fetched of the current group is in the assembly. -/
structure Grouped : Prop where
  length : x.fetched.length = x.position
  assembly : ∀ i < x.count, x.assembly i = x.fetched.getD (x.position - x.count + i) 0

end Progress

/-- How far the send of an end has come. -/
abbrev Endpoint.progress (s : Endpoint) : Progress where
  position := s.writeOriginPos
  count := s.writeCount
  assembly := s.writeAssembly
  fetched := s.history.fetched

/-! ## What does not concern a send -/

theorem Heard.progress (h : Heard D s s') : s'.progress = s.progress := by
  obtain h | ⟨_, ⟨taken, approved, acknowledged⟩⟩ := h
  · rfl
  have htaken : ∀ {s₁}, Taken D s.comIn s s₁ → s₁.progress = s.progress := by
    intro s₁ h
    cases h with
    | hook _ hk => cases hk <;> rfl
    | object _ ha =>
      cases ha with
      | part receiving => cases receiving <;> rfl
      | group receiving => cases receiving <;> rfl
      | last receiving => cases receiving <;> rfl
  rw [← htaken taken]
  cases approved <;> cases acknowledged <;> rfl

theorem Sending.progress (h : Sending D s s') : s'.progress = s.progress := by
  cases h <;> rfl

/-- A control symbol does not come from an object. -/
theorem Emitted.control {allow : Answers} (h : Emitted allow D r s s')
    (hpayload : s'.history.payload = false) :
    s'.progress = s.progress ∧ s'.sendLock = s.sendLock := by
  cases h with
  | payload _ _ fed => cases fed <;> cases hpayload
  | poweron | request | shutdown | sighup | idle => exact ⟨rfl, rfl⟩

/-! ## A payload symbol -/

namespace Progress

variable {x : Progress} {g : ℕ}

/-- How many groups are complete. -/
theorem emissions_eq (hpos : x.position = 3 * g + x.count) : x.emissions = 4 * g + x.count := by
  rw [emissions, hpos]
  omega

/-- What the assembly holds of the current group. -/
theorem Grouped.current (hx : x.Grouped) (hpos : x.position = 3 * g + x.count) {i : ℕ}
    (hi : i < x.count) : x.assembly i = x.fetched.getD (3 * g + i) 0 := by
  rw [hx.assembly i hi, hpos, Nat.add_sub_cancel]

end Progress

/-- **A payload symbol is the next one of its object**: it carries what comes next of the
bytes that have been fetched. With the last one, the send is over. -/
theorem Progress.Grouped.fed (hx : s.progress.Grouped) (hs : Session D s)
    (hl : s.sendLock = true) (hf : Fed D s s') :
    s'.progress.Grouped ∧ s'.progress.emitted
      = if s'.sendLock then s.progress.emitted ++ [stateCode s'.comOut] else [] := by
  obtain ⟨-, g, hpos, -⟩ := hs.sending hl
  rw [← hs.writeCount_eq] at hpos
  have hemitted : s.progress.emitted = symbolsOf (fun i => s.history.fetched.getD i 0)
      (4 * g + s.writeCount) := by
    rw [Progress.emitted, Progress.emissions_eq hpos]
  have hlength : s.history.fetched.length = 3 * g + s.writeCount := hx.length.trans hpos
  cases hf with
  | fetch w count =>
    have hold : ∀ {i}, i < 3 * g + s.writeCount →
        (s.history.fetched ++ [w]).getD i 0 = s.history.fetched.getD i 0 := fun hi =>
      List.getD_append _ _ _ _ (hlength ▸ hi)
    -- the byte that has been fetched is the last one of the part of the group
    have hcurrent : ∀ {i}, i < s.writeCount + 1 →
        Function.update s.writeAssembly s.writeCount w i
          = (s.history.fetched ++ [w]).getD (3 * g + i) 0 := by
      intro i hi
      obtain hi | rfl : i < s.writeCount ∨ i = s.writeCount := Nat.lt_succ_iff_lt_or_eq.mp hi
      · exact (Function.update_of_ne hi.ne ..).trans
          ((hx.current hpos hi).trans (hold (by omega)).symm)
      · rw [Function.update_self, ← hlength]
        simp
    refine ⟨⟨?_, fun i hi => ?_⟩, ?_⟩
    · simp only [List.length_append, List.length_singleton, hlength, hpos]
    · refine (hcurrent hi).trans ?_
      simp only [hpos]
      congr 1
      omega
    · rw [if_pos (by exact hl), hemitted, Progress.emitted,
        Progress.emissions_eq (g := g) (by simp only [hpos]; omega)]
      simp only [← Nat.add_assoc]
      rw [symbolsOf_succ, symbolsOf_congr (by omega) fun i hi => hold hi,
        symbolAt_group _ _ (by omega), Endpoint.symbol, stateCode_groupSymbol _ _ _ _ count]
      congr 2
      exact symbolOf_congr fun i hi _ => (hcurrent (by omega)).symm
  | close count more =>
    rw [count] at hpos hemitted
    refine ⟨⟨hx.length, fun i hi => absurd hi (Nat.not_lt_zero i)⟩, ?_⟩
    rw [if_pos (by exact hl), hemitted, Progress.emitted,
      Progress.emissions_eq (g := g + 1) (by simp only [hpos]; omega)]
    simp only [Nat.mul_add, Nat.mul_one, Nat.add_zero]
    rw [symbolsOf_succ, symbolAt_group _ _ (by decide), Endpoint.symbol, count,
      stateCode_groupSymbol_three]
    congr 2
    refine symbolOf_congr fun i _ hi => ?_
    exact (hx.current (g := g) (by simp only [hpos, count]) (by simp only [count]; omega)).symm
  | last count done =>
    refine ⟨⟨rfl, fun i hi => absurd hi (Nat.not_lt_zero i)⟩, ?_⟩
    simp [Progress.emitted, Progress.emissions, symbolsOf]

end SOS
