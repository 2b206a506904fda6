import Screencast.Proofs.Text.Decoding
import Screencast.Text.Case

/-!
# Words in letters of any case

`toLower_eq_iff` says which texts become a word of small letters: those that differ from it by the case of
ASCII letters and by nothing else.  The letter k is left out, which is the small form of the kelvin sign
as well.
-/

namespace Screencast.Text

/-- The small letters whose only capitals are those of ASCII. -/
def isPlainSmall (x : Char) : Bool := 0x61 ≤ x.toNat && x.toNat ≤ 0x7a && x ≠ 'k'

theorem toNat_of_isPlainSmall {x : Char} (h : isPlainSmall x = true) :
    0x61 ≤ x.toNat ∧ x.toNat ≤ 0x7a ∧ x.toNat ≠ 0x6b := by
  simp only [isPlainSmall, Bool.and_eq_true, decide_eq_true_eq] at h
  obtain ⟨⟨hleast, hmost⟩, hk⟩ := h
  exact ⟨hleast, hmost, fun heq => hk (Char.toNat_inj.mp heq)⟩

/-! ## Single letters -/

/-- Capitals of ASCII are those of the first run. -/
def IsCapital (c : Char) : Prop := 0x41 ≤ c.toNat ∧ c.toNat ≤ 0x5a

theorem toLower_of_not_isCapital {c : Char} (h : ¬IsCapital c) : c.toLower = c := by
  have hcapital : ¬(c.val ≥ 'A'.val ∧ c.val ≤ 'Z'.val) := h
  exact dif_neg hcapital

/-- The first run of capitals is that of ASCII.  Of the others, only the kelvin sign has an ASCII letter as
its small form. -/
theorem runs_of_capitals : ∀ run ∈ capitals,
    (run.first = 0x41 ∧ run.last = 0x5a) ∨
      0x80 ≤ run.first ∧ ((0x7a : Int) < run.first + run.shift ∨
        (run.first = run.last ∧ run.first + run.shift = 0x6b)) := by
  decide +kernel

theorem lowerChar_of_isCapital {c : Char} (h : IsCapital c) : lowerChar c = [c.toLower] := by
  have hall : ∀ n : Fin 26, lowerChar (Char.ofNat (0x41 + n)) = [(Char.ofNat (0x41 + n)).toLower] := by
    decide +kernel
  obtain ⟨hleast, hmost⟩ := h
  have hc := hall ⟨c.toNat - 0x41, by omega⟩
  rwa [show 0x41 + (c.toNat - 0x41) = c.toNat by omega, Char.ofNat_toNat] at hc

theorem lowerChar_of_ascii {c : Char} (h : c.toNat < 0x80) : lowerChar c = [c.toLower] := by
  by_cases hcapital : IsCapital c
  · exact lowerChar_of_isCapital hcapital
  · have hnone : (capitals.find? fun run => run.first ≤ c.toNat && c.toNat ≤ run.last &&
        (c.toNat - run.first) % run.step = 0) = none := by
      rw [List.find?_eq_none]
      intro run hrun hin
      simp only [Bool.and_eq_true, decide_eq_true_eq] at hin
      obtain ⟨⟨hfirst, hlast⟩, -⟩ := hin
      rcases runs_of_capitals run hrun with ⟨hleast, hmost⟩ | ⟨hbeyond, -⟩
      · exact hcapital ⟨by omega, by omega⟩
      · omega
    rw [lowerChar, if_neg (by omega), hnone, toLower_of_not_isCapital hcapital]

/-- A letter with a plain small form is one of ASCII. -/
theorem ascii_of_lowerChar {c x : Char} (hx : isPlainSmall x = true) (h : lowerChar c = [x]) :
    c.toNat < 0x80 := by
  obtain ⟨hleast, hmost, hk⟩ := toNat_of_isPlainSmall hx
  unfold lowerChar at h
  split at h
  · cases h
  · split at h
    · next run hfind =>
      have hmem := List.mem_of_find?_eq_some hfind
      have hin := List.find?_some hfind
      simp only [Bool.and_eq_true, decide_eq_true_eq] at hin
      obtain ⟨⟨hfirst, hlast⟩, -⟩ := hin
      obtain rfl := (List.cons.inj h).1
      have hascii : Utf8.IsAscii (Char.ofNat (c.toNat + run.shift).toNat) := ⟨by omega, by omega⟩
      have hnumber := Utf8.toNat_ofNat_of_isAscii hascii
      rcases runs_of_capitals run hmem with ⟨-, hlow⟩ | ⟨-, hbeyond | ⟨hsingle, hkelvin⟩⟩
      · omega
      · omega
      · omega
    · obtain rfl := (List.cons.inj h).1
      omega

/-- What a letter beyond ASCII becomes is not all plain. -/
theorem exists_not_isPlainSmall {c : Char} (h : ¬c.toNat < 0x80) :
    ∃ y ∈ lowerChar c, isPlainSmall y = false := by
  by_cases hdotted : c.toNat = 0x130
  · rw [lowerChar, if_pos hdotted]
    exact ⟨Char.ofNat 0x307, by simp, by decide⟩
  · obtain ⟨y, hy⟩ : ∃ y, lowerChar c = [y] := by
      rw [lowerChar, if_neg hdotted]
      split
      · exact ⟨_, rfl⟩
      · exact ⟨_, rfl⟩
    refine ⟨y, by rw [hy]; exact List.mem_singleton_self y, ?_⟩
    rw [← Bool.not_eq_true]
    exact fun hplain => h (ascii_of_lowerChar hplain hy)

/-! ## Words -/

variable {text target : List Char}

theorem toLower_go_eq_iff (htarget : ∀ x ∈ target, isPlainSmall x = true) (before : Option Char) :
    toLower.go before text = target ↔ text.map Char.toLower = target := by
  induction text generalizing before target with
  | nil => rfl
  | cons c rest ih =>
      rw [toLower.go, List.map_cons]
      by_cases hascii : c.toNat < 0x80
      · have hsigma : ¬c.toNat = 0x3a3 := by omega
        simp only [hsigma, false_and, if_false, lowerChar_of_ascii hascii, List.singleton_append]
        cases target with
        | nil => exact iff_of_false nofun nofun
        | cons x target =>
            have hrest := ih (List.forall_mem_cons.mp htarget).2 (some c)
            rw [List.cons_eq_cons, List.cons_eq_cons, hrest]
      · -- a letter beyond ASCII leaves one that is not plain, on either side
        refine iff_of_false ?_ ?_
        · rintro rfl
          split at htarget
          · exact absurd (htarget _ List.mem_cons_self) (by decide)
          · obtain ⟨y, hy, hplain⟩ := exists_not_isPlainSmall hascii
            rw [htarget y (List.mem_append_left _ hy)] at hplain
            cases hplain
        · rintro rfl
          have hplain := htarget _ List.mem_cons_self
          have hcapital : ¬IsCapital c := fun ⟨_, hmost⟩ => hascii (by omega)
          rw [toLower_of_not_isCapital hcapital] at hplain
          have hmost := (toNat_of_isPlainSmall hplain).2.1
          omega

/-- A text becomes a word of plain letters exactly when it is that word in ASCII letters of any case. -/
theorem toLower_eq_iff (htarget : ∀ x ∈ target, isPlainSmall x = true) :
    toLower text = target ↔ text.map Char.toLower = target :=
  toLower_go_eq_iff htarget none

end Screencast.Text
