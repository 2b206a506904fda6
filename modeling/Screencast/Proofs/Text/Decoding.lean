import Mathlib.Data.List.Chain
import Mathlib.Tactic.Ring
import Screencast.Text.Utf8

/-!
# Where decoded characters come from

A decoder between two bytes may be anywhere inside a character, and bytes that are no text are replaced.
An ASCII character of the decoded text nevertheless stands for the one byte with its number: `step_head`
and `step_last` say so of a single step.  Two such characters in a row are then two such bytes in a row,
which is what `isChain_run` says in its negative form.
-/

namespace Screencast

/-- Two elements of a list in a row are not these two. -/
abbrev Apart {α : Type} (first second : α) (list : List α) : Prop :=
  list.IsChain fun a b => ¬(a = first ∧ b = second)

namespace Text.Utf8

/-- A state that bytes lead to: what is still to be read of a character is bound to make it one that
has more than one byte. -/
def State.Proper : State → Prop
  | .start | .half => True
  | .inside lacking bits low high =>
    0x80 ≤ low ∧ high ≤ 0xbf ∧ 0x80 ≤ (bits * 0x40 + low % 0x40) * 0x40 ^ (lacking - 1)

theorem first_proper (byte : Nat) : (first byte).1.Proper := by
  unfold first
  split_ifs <;> simp only [State.Proper] <;> omega

theorem step_proper {state : State} (h : state.Proper) (byte : Nat) :
    (step state byte).1.Proper := by
  cases state with
  | start => exact first_proper byte
  | half => exact first_proper byte
  | inside lacking bits low high =>
      obtain ⟨hlow, hhigh, hvalue⟩ := h
      simp only [step]
      split_ifs with hrange hlast
      · trivial
      · -- the bits read so far only grow with a byte that is not the least one
        have hbyte : low % 0x40 ≤ byte % 0x40 := by omega
        obtain ⟨left, rfl⟩ : ∃ left, lacking = left + 2 := ⟨lacking - 2, by omega⟩
        simp only [Nat.add_one_sub_one, State.Proper] at hvalue ⊢
        refine ⟨le_refl _, le_refl _, hvalue.trans ?_⟩
        calc (bits * 0x40 + low % 0x40) * 0x40 ^ (left + 1)
            ≤ (bits * 0x40 + byte % 0x40) * 0x40 ^ (left + 1) := by gcongr
          _ = ((bits * 0x40 + byte % 0x40) * 0x40 + 0x80 % 0x40) * 0x40 ^ left := by ring
      · trivial
      · exact first_proper byte

/-! ## Single steps -/

/-- A character of its own: an ASCII character that is not the one that also stands for numbers
without a character. -/
def IsAscii (c : Char) : Prop := 0 < c.toNat ∧ c.toNat < 0x80

theorem toNat_ofNat_of_isAscii {n : Nat} (h : IsAscii (Char.ofNat n)) : (Char.ofNat n).toNat = n := by
  obtain ⟨hpositive, -⟩ := h
  by_cases hvalid : n.isValidChar
  · rw [Char.ofNat, dif_pos hvalid]
    rfl
  · rw [Char.ofNat, dif_neg hvalid] at hpositive
    exact absurd hpositive (by decide)

theorem not_isAscii_replacement : ¬IsAscii replacement := by
  unfold IsAscii
  decide

/-- What the first byte of a character gives is that byte, or the replacement, or nothing yet. -/
theorem first_cases (byte : Nat) :
    (first byte).1 = .start ∧ (first byte).2 = [Char.ofNat byte] ∨
      (first byte).1 = .start ∧ (first byte).2 = [replacement] ∨
      (first byte).1 ≠ .start ∧ (first byte).2 = [] := by
  unfold first
  split_ifs <;> simp

/-- A byte in a state ends the character that is under way, if there is one, and what that gives is not
ASCII; or the byte is read as the first one of a character. -/
theorem step_cases {state : State} (h : state.Proper) (byte : Nat) :
    (step state byte).2 = [] ∧ (step state byte).1 ≠ .start ∨
      (∃ c, ¬IsAscii c ∧ step state byte = (.start, [c])) ∨
      ∃ fill, (∀ c ∈ fill, c = replacement) ∧ (state = .start ↔ fill = []) ∧
        step state byte = ((first byte).1, fill ++ (first byte).2) := by
  cases state with
  | start => exact .inr (.inr ⟨[], by simp, by simp, rfl⟩)
  | half => exact .inr (.inr ⟨[replacement, replacement], by simp, by simp, rfl⟩)
  | inside lacking bits low high =>
      obtain ⟨hlow, hhigh, hvalue⟩ := h
      simp only [step]
      split_ifs with hrange hlast
      · refine .inr (.inl ⟨_, ?_, rfl⟩)
        -- what the last byte completes is 0x80 at least
        intro hascii
        have hnumber := toNat_ofNat_of_isAscii hascii
        have hsmall := hascii.2
        have hnone : lacking - 1 = 0 := by omega
        rw [hnone, pow_zero] at hvalue
        omega
      · exact .inl ⟨rfl, nofun⟩
      · exact .inl ⟨rfl, nofun⟩
      · exact .inr (.inr ⟨[replacement], by simp, by simp, rfl⟩)

/-- An ASCII character that a step begins with is its byte, and nothing was under way. -/
theorem step_head {state : State} (h : state.Proper) {byte : Nat} {c : Char}
    (hhead : c ∈ (step state byte).2.head?) (hc : IsAscii c) :
    state = .start ∧ byte = c.toNat := by
  rcases step_cases h byte with ⟨hnone, -⟩ | ⟨d, hd, hstep⟩ | ⟨fill, hfill, hstart, hstep⟩
  · rw [hnone] at hhead
    cases hhead
  · rw [hstep] at hhead
    obtain rfl : d = c := by simpa using hhead
    exact absurd hc hd
  · rw [hstep] at hhead
    cases fill with
    | cons d rest =>
        obtain rfl : d = c := by simpa using hhead
        rw [hfill d (by simp)] at hc
        exact absurd hc not_isAscii_replacement
    | nil =>
        refine ⟨hstart.mpr rfl, ?_⟩
        rcases first_cases byte with ⟨-, htext⟩ | ⟨-, htext⟩ | ⟨-, htext⟩
        all_goals rw [List.nil_append, htext] at hhead
        · obtain rfl : Char.ofNat byte = c := by simpa using hhead
          exact (toNat_ofNat_of_isAscii hc).symm
        · obtain rfl : replacement = c := by simpa using hhead
          exact absurd hc not_isAscii_replacement
        · cases hhead

/-- An ASCII character that a step ends with is its byte, and nothing is under way after it. -/
theorem step_last {state : State} (h : state.Proper) {byte : Nat} {c : Char}
    (hlast : c ∈ (step state byte).2.getLast?) (hc : IsAscii c) :
    (step state byte).1 = .start ∧ byte = c.toNat := by
  rcases step_cases h byte with ⟨hnone, -⟩ | ⟨d, hd, hstep⟩ | ⟨fill, hfill, -, hstep⟩
  · rw [hnone] at hlast
    cases hlast
  · rw [hstep] at hlast
    obtain rfl : d = c := by simpa using hlast
    exact absurd hc hd
  · rw [hstep] at hlast ⊢
    rcases first_cases byte with ⟨hnext, htext⟩ | ⟨-, htext⟩ | ⟨-, htext⟩
    all_goals rw [htext] at hlast
    · obtain rfl : Char.ofNat byte = c := by simpa using hlast
      exact ⟨hnext, (toNat_ofNat_of_isAscii hc).symm⟩
    · obtain rfl : replacement = c := by simpa using hlast
      exact absurd hc not_isAscii_replacement
    · rw [List.append_nil] at hlast
      rw [hfill c (List.mem_of_getLast? hlast)] at hc
      exact absurd hc not_isAscii_replacement

/-- A step that leaves nothing under way gives a character. -/
theorem step_ne_nil {state : State} (h : state.Proper) {byte : Nat}
    (hstart : (step state byte).1 = .start) : (step state byte).2 ≠ [] := by
  rcases step_cases h byte with ⟨-, hnext⟩ | ⟨d, -, hstep⟩ | ⟨fill, -, -, hstep⟩
  · exact absurd hstart hnext
  · rw [hstep]
    exact nofun
  · rw [hstep] at hstart ⊢
    rcases first_cases byte with ⟨-, htext⟩ | ⟨-, htext⟩ | ⟨hnext, -⟩
    · simp [htext]
    · simp [htext]
    · exact absurd hstart hnext

/-! ## Two in a row -/

/-- An ASCII character that decoded bytes begin with is the first byte, and nothing was under way. -/
theorem run_head {state : State} (h : state.Proper) {bytes : List Nat} {c : Char}
    (hhead : c ∈ (run state bytes).2.head?) (hc : IsAscii c) :
    state = .start ∧ bytes.head? = some c.toNat := by
  induction bytes generalizing state with
  | nil => cases hhead
  | cons byte rest ih =>
      simp only [run] at hhead
      by_cases hnone : (step state byte).2 = []
      · rw [hnone, List.nil_append] at hhead
        -- the character comes later, so nothing is under way now, and the step has given something
        have hnext := (ih (step_proper h byte) hhead).1
        exact absurd hnone (step_ne_nil h hnext)
      · rw [List.head?_append_of_ne_nil _ hnone] at hhead
        obtain ⟨hstart, hbyte⟩ := step_head h hhead hc
        exact ⟨hstart, by rw [hbyte, List.head?_cons]⟩

theorem step_apart {state : State} (h : state.Proper) (byte : Nat) {c d : Char} (hc : IsAscii c) :
    Apart c d (step state byte).2 := by
  have hfills {fill text : List Char} (hfill : ∀ x ∈ fill, x = replacement)
      (htext : text = [] ∨ ∃ x, text = [x]) : Apart c d (fill ++ text) := by
    induction fill with
    | nil =>
        obtain rfl | ⟨x, rfl⟩ := htext
        · exact .nil
        · exact .singleton x
    | cons x fill ih =>
        rw [List.cons_append, Apart, List.isChain_cons]
        refine ⟨?_, ih fun y hy => hfill y (List.mem_cons_of_mem x hy)⟩
        rintro y - ⟨rfl, -⟩
        rw [hfill x (List.mem_cons_self ..)] at hc
        exact not_isAscii_replacement hc
  rcases step_cases h byte with ⟨hnone, -⟩ | ⟨x, -, hstep⟩ | ⟨fill, hfill, -, hstep⟩
  · rw [hnone]
    exact .nil
  · rw [hstep]
    exact .singleton x
  · rw [hstep]
    apply hfills hfill
    rcases first_cases byte with ⟨-, htext⟩ | ⟨-, htext⟩ | ⟨-, htext⟩
    · exact .inr ⟨_, htext⟩
    · exact .inr ⟨_, htext⟩
    · exact .inl htext

/-- Bytes without two in a row decode to a text without the two ASCII characters in a row. -/
theorem isChain_run {state : State} (h : state.Proper) {bytes : List Nat} {c d : Char}
    (hc : IsAscii c) (hd : IsAscii d) (hbytes : Apart c.toNat d.toNat bytes) :
    Apart c d (run state bytes).2 := by
  induction bytes generalizing state with
  | nil => exact .nil
  | cons byte rest ih =>
      obtain ⟨hfirst, hrest⟩ := List.isChain_cons.mp hbytes
      simp only [run]
      apply List.isChain_append.mpr
      refine ⟨step_apart h byte hc, ih (step_proper h byte) hrest, ?_⟩
      rintro x hx y hy ⟨rfl, rfl⟩
      -- both characters are bytes of their own, so the bytes are in a row as well
      obtain ⟨-, hbyte⟩ := step_last h hx hc
      obtain ⟨-, hnext⟩ := run_head (step_proper h byte) hy hd
      exact hfirst y.toNat hnext ⟨hbyte, rfl⟩

end Text.Utf8

end Screencast
