import Mathlib.Data.List.DropRight
import Screencast.Path

/-!
# The extension of a path

A path has an extension when its name ends in a dot and letters and has more than dots before them:
`splitExtension_eq_iff` says that this is what `splitExtension` finds.  Names with more than dots can be
given any extension, and a second one takes the place of the first: `extends_setExtension` and
`setExtension_setExtension`.
-/

namespace Screencast.Path

/-- A path whose name has a character other than a dot. -/
def HasStem (path : List Char) : Prop := ∃ c ∈ (split path).2, c ≠ '.'

/-- What can be an extension: letters without dots and slashes. -/
def IsExtension (letters : List Char) : Prop := '.' ∉ letters ∧ '/' ∉ letters

theorem IsExtension.slash_not_mem {letters : List Char} (h : IsExtension letters) :
    '/' ∉ '.' :: letters := by
  rintro (_ | ⟨_, hmem⟩)
  exact h.2 hmem

/-- A path that is a root with an extension behind a dot. -/
structure Extends (path root letters : List Char) : Prop where
  path : path = root ++ '.' :: letters
  letters : IsExtension letters
  stem : HasStem root

/-! ## The folder and the name -/

theorem split_fst_append_snd (path : List Char) : (split path).1 ++ (split path).2 = path :=
  List.rdropWhile_append_rtakeWhile

theorem slash_not_mem_name (path : List Char) : '/' ∉ (split path).2 := by
  intro h
  have hne := List.mem_rtakeWhile_imp (p := (· ≠ '/')) (l := path) h
  exact of_decide_eq_true hne rfl

/-- What is put behind a path without a slash belongs to its name. -/
theorem split_append (path : List Char) {more : List Char} (h : '/' ∉ more) :
    split (path ++ more) = ((split path).1, (split path).2 ++ more) := by
  have hmore : ∀ c ∈ more.reverse, decide (c ≠ '/') = true := by
    intro c hc
    have hne : c ≠ '/' := fun heq => h (heq ▸ List.mem_reverse.mp hc)
    exact decide_eq_true hne
  simp only [split, List.reverse_append, List.dropWhile_append_of_pos hmore,
    List.takeWhile_append_of_pos hmore, List.reverse_reverse]

/-! ## The last dot of a name -/

/-- A name without dots has no extension. -/
theorem splitName_of_not_mem {name : List Char} (h : '.' ∉ name) : splitName name = (name, []) := by
  have hnone : name.reverse.dropWhile (· ≠ '.') = [] := by
    rw [List.dropWhile_eq_nil_iff]
    intro c hc
    have hne : c ≠ '.' := fun heq => h (heq ▸ List.mem_reverse.mp hc)
    exact decide_eq_true hne
  simp only [splitName, hnone]
  rfl

/-- The last dot of a name ends its stem, if there is more than dots before it. -/
theorem splitName_append {stem letters : List Char} (h : '.' ∉ letters) :
    splitName (stem ++ '.' :: letters)
      = if stem.any (· ≠ '.') then (stem, '.' :: letters) else (stem ++ '.' :: letters, []) := by
  have hletters : ∀ c ∈ letters.reverse, decide (c ≠ '.') = true := by
    intro c hc
    have hne : c ≠ '.' := fun heq => h (heq ▸ List.mem_reverse.mp hc)
    exact decide_eq_true hne
  have hreverse : (stem ++ '.' :: letters).reverse = letters.reverse ++ '.' :: stem.reverse := by
    simp
  have hdrop : ('.' :: stem.reverse).dropWhile (· ≠ '.') = '.' :: stem.reverse :=
    List.dropWhile_cons_of_neg (by decide)
  have htake : ('.' :: stem.reverse).takeWhile (· ≠ '.') = [] :=
    List.takeWhile_cons_of_neg (by decide)
  simp only [splitName, hreverse, List.dropWhile_append_of_pos hletters,
    List.takeWhile_append_of_pos hletters, hdrop, htake, List.append_nil, List.reverse_reverse,
    List.drop_one, List.tail_cons]

/-! ## The extension of a path -/

variable {path root letters : List Char}

theorem splitExtension_of_extends (h : Extends path root letters) :
    splitExtension path = (root, '.' :: letters) := by
  obtain ⟨rfl, hletters, c, hc, hne⟩ := h
  have hstem : (split root).2.any (· ≠ '.') = true :=
    List.any_eq_true.mpr ⟨c, hc, decide_eq_true hne⟩
  simp only [splitExtension, split_append root hletters.slash_not_mem,
    splitName_append hletters.1, hstem, if_true]
  rw [split_fst_append_snd]

/-- A path is a root with an extension, or it has none. -/
theorem splitExtension_cases (path : List Char) :
    (∃ root letters, Extends path root letters) ∨ splitExtension path = (path, []) := by
  have hpath := split_fst_append_snd path
  by_cases hdot : '.' ∈ (split path).2
  · obtain ⟨back, front, hback, hletters⟩ := List.eq_append_cons_of_mem (List.mem_reverse.mpr hdot)
    have hname : (split path).2 = front.reverse ++ '.' :: back.reverse := by
      rw [← List.reverse_reverse (split path).2, hback]
      simp
    have hslash := slash_not_mem_name path
    rw [hname, List.mem_append, not_or] at hslash
    have hdotted : '.' ∉ back.reverse := fun h => hletters (List.mem_reverse.mp h)
    by_cases hstem : front.reverse.any (· ≠ '.') = true
    · left
      refine ⟨(split path).1 ++ front.reverse, back.reverse, ?_, ⟨hdotted, fun h => ?_⟩, ?_⟩
      · rw [List.append_assoc, ← hname, hpath]
      · exact hslash.2 (List.mem_cons_of_mem _ h)
      · -- the name of the root is what stands before the dot in the name of the path
        have happend := split_append ((split path).1 ++ front.reverse) hslash.2
        rw [List.append_assoc, ← hname, hpath] at happend
        have hroot := (congrArg Prod.snd happend).symm
        rw [hname, List.append_cancel_right_eq] at hroot
        obtain ⟨c, hc, hne⟩ := List.any_eq_true.mp hstem
        exact ⟨c, by rwa [hroot], of_decide_eq_true hne⟩
    · right
      simp only [splitExtension, hname, splitName_append hdotted, if_neg hstem]
      rw [← hname, hpath]
  · right
    simp only [splitExtension, splitName_of_not_mem hdot]
    rw [hpath]

/-- The extension that is found is the one that a path has. -/
theorem splitExtension_eq_iff :
    splitExtension path = (root, '.' :: letters) ↔ Extends path root letters := by
  refine ⟨fun h => ?_, splitExtension_of_extends⟩
  rcases splitExtension_cases path with ⟨other, found, hextends⟩ | hnone
  · have hfound := splitExtension_of_extends hextends
    rw [h] at hfound
    cases hfound
    exact hextends
  · rw [h] at hnone
    cases hnone

/-! ## Another extension -/

/-- The extension belongs to the name and not to the folder. -/
theorem split_root (path : List Char) : (split (splitExtension path).1).1 = (split path).1 := by
  rcases splitExtension_cases path with ⟨root, letters, hextends⟩ | hnone
  · rw [splitExtension_of_extends hextends]
    obtain ⟨rfl, hletters, -⟩ := hextends
    rw [split_append root hletters.slash_not_mem]
  · rw [hnone]

theorem hasStem_root (h : HasStem path) : HasStem (splitExtension path).1 := by
  rcases splitExtension_cases path with ⟨root, letters, hextends⟩ | hnone
  · rw [splitExtension_of_extends hextends]
    exact hextends.stem
  · rwa [hnone]

theorem setExtension_eq (hne : letters ≠ []) :
    setExtension path letters = (splitExtension path).1 ++ '.' :: letters := by
  rw [setExtension, if_neg (by rwa [List.isEmpty_iff])]

/-- A path with a stem can be given any extension. -/
theorem extends_setExtension (hpath : HasStem path) (hletters : IsExtension letters)
    (hne : letters ≠ []) :
    Extends (setExtension path letters) (splitExtension path).1 letters :=
  ⟨setExtension_eq hne, hletters, hasStem_root hpath⟩

/-- Another extension leaves the folder as it is. -/
theorem split_setExtension (path : List Char) (hletters : IsExtension letters)
    (hne : letters ≠ []) : (split (setExtension path letters)).1 = (split path).1 := by
  rw [setExtension_eq hne, split_append _ hletters.slash_not_mem]
  exact split_root path

/-- The second of two extensions takes the place of the first. -/
theorem setExtension_setExtension (hpath : HasStem path) (hletters : IsExtension letters)
    (hne : letters ≠ []) (other : List Char) :
    setExtension (setExtension path letters) other = setExtension path other := by
  have hroot := splitExtension_of_extends (extends_setExtension hpath hletters hne)
  rw [setExtension, hroot, setExtension]

end Screencast.Path
