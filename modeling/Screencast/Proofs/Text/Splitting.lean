import Screencast.Text.Lines

/-!
# Splitting at a separator

`splitOn` cuts a text at the occurrences of a separator from left to right.  Pieces without line feeds
that are joined with a carriage return and a line feed are found again: `splitOn_joinWith`; so are pieces
that are each ended by them, which may hold line feeds then: `splitOn_flatMap`.  At a separator of one
character, `splitAt` takes the first piece off: `splitAt_append_cons`.
-/

namespace Screencast.Text

variable {α : Type} [DecidableEq α]

/-- The pieces of a text after so many more characters of a separator. -/
def splitOnFrom (separator : List α) : Nat → List α → List (List α)
  | _, [] => [[]]
  | skip + 1, _ :: rest => splitOnFrom separator skip rest
  | 0, c :: rest =>
    if separator.isPrefixOf (c :: rest) then [] :: splitOnFrom separator (separator.length - 1) rest
    else
      match splitOnFrom separator 0 rest with
      | [] => [[c]]
      | piece :: pieces => (c :: piece) :: pieces

/-- The pieces between the occurrences of a separator, which are looked for from left to right. -/
def splitOn (separator text : List α) : List (List α) := splitOnFrom separator 0 text

variable {first second : α}

/-- A character that the separator does not begin at belongs to the first piece. -/
theorem splitOn_cons {separator : List α} {c : α} {rest piece : List α} {pieces : List (List α)}
    (hseparator : separator.isPrefixOf (c :: rest) = false)
    (hrest : splitOn separator rest = piece :: pieces) :
    splitOn separator (c :: rest) = (c :: piece) :: pieces := by
  rw [splitOn] at hrest ⊢
  rw [splitOnFrom, if_neg (by rw [hseparator]; exact Bool.false_ne_true), hrest]

theorem splitOn_pair (first second : α) (text : List α) :
    splitOn [first, second] (first :: second :: text) = [] :: splitOn [first, second] text := by
  have hstarts : [first, second].isPrefixOf (first :: second :: text) = true := by
    simp [List.isPrefixOf]
  rw [splitOn, splitOnFrom, if_pos hstarts]
  rfl

/-- A pair of characters does not begin before its second character is next. -/
theorem isPrefixOf_pair_eq_false {c : α} {rest : List α} (h : rest.head? ≠ some second) :
    [first, second].isPrefixOf (c :: rest) = false := by
  cases rest with
  | nil => simp [List.isPrefixOf]
  | cons next rest =>
      have hne : second ≠ next := fun heq => h (congrArg some heq.symm)
      simp [List.isPrefixOf, hne]

/-- A piece without the second character of the separator, in front of a text that does not begin with
it, goes to the first piece of that text. -/
theorem splitOn_append {piece text next : List α} {pieces : List (List α)}
    (hpiece : second ∉ piece) (htext : text.head? ≠ some second)
    (h : splitOn [first, second] text = next :: pieces) :
    splitOn [first, second] (piece ++ text) = (piece ++ next) :: pieces := by
  induction piece with
  | nil => exact h
  | cons c piece ih =>
      have hrest : second ∉ piece := fun hmem => hpiece (List.mem_cons_of_mem c hmem)
      refine splitOn_cons (isPrefixOf_pair_eq_false ?_) (ih hrest)
      cases piece with
      | nil => exact htext
      | cons d piece =>
          rintro ⟨⟩
          exact hrest List.mem_cons_self

/-- Pieces without the second character of a pair, joined with the pair, are found again. -/
theorem splitOn_joinWith (hne : first ≠ second) {pieces : List (List α)} (hnil : pieces ≠ [])
    (hpieces : ∀ piece ∈ pieces, second ∉ piece) :
    splitOn [first, second] (joinWith [first, second] pieces) = pieces := by
  induction pieces with
  | nil => exact absurd rfl hnil
  | cons piece rest ih =>
      obtain ⟨hpiece, hrest⟩ := List.forall_mem_cons.mp hpieces
      cases rest with
      | nil =>
          have hlast : splitOn [first, second] (piece ++ []) = [piece ++ []] :=
            splitOn_append hpiece nofun rfl
          rwa [List.append_nil] at hlast
      | cons next others =>
          have hsplit := ih nofun hrest
          have hpair := splitOn_pair first second (joinWith [first, second] (next :: others))
          rw [hsplit] at hpair
          have hjoined := splitOn_append hpiece (by simpa using hne) hpair
          rw [List.append_nil] at hjoined
          rw [joinWith, List.append_assoc]
          · exact hjoined
          · exact nofun

/-- A piece without the pair ends at the pair behind it. -/
theorem splitOn_append_pair (hne : first ≠ second) {piece : List α}
    (hpiece : ¬[first, second] <:+: piece) (rest : List α) :
    splitOn [first, second] (piece ++ first :: second :: rest)
      = piece :: splitOn [first, second] rest := by
  induction piece with
  | nil => exact splitOn_pair first second rest
  | cons c piece ih =>
      have hrest : ¬[first, second] <:+: piece := fun h =>
        hpiece (h.trans (List.suffix_cons c piece).isInfix)
      refine splitOn_cons ?_ (ih hrest)
      cases piece with
      | nil => exact isPrefixOf_pair_eq_false (by simpa using hne)
      | cons d piece =>
          have hbegins : ¬[first, second] <+: c :: d :: piece := fun h => hpiece h.isInfix
          simpa [List.isPrefixOf] using hbegins

/-- Pieces that are each ended by a pair they do not hold are found again, with nothing behind the last. -/
theorem splitOn_flatMap (hne : first ≠ second) {pieces : List (List α)}
    (hpieces : ∀ piece ∈ pieces, ¬[first, second] <:+: piece) :
    splitOn [first, second] (pieces.flatMap (· ++ [first, second])) = pieces ++ [[]] := by
  induction pieces with
  | nil => rfl
  | cons piece rest ih =>
      obtain ⟨hpiece, hrest⟩ := List.forall_mem_cons.mp hpieces
      rw [List.flatMap_cons, List.append_assoc, List.cons_append, List.singleton_append,
        splitOn_append_pair hne hpiece, ih hrest, List.cons_append]

/-! ## Splitting at one character -/

/-- A text without the separator is its only piece. -/
theorem splitAt_of_not_mem {separator : α} {text : List α} (h : separator ∉ text) :
    splitAt separator text = [text] := by
  induction text with
  | nil => rfl
  | cons c rest ih =>
      have hc : c ≠ separator := fun heq => h (heq ▸ List.mem_cons_self)
      have hrest : separator ∉ rest := fun hmem => h (List.mem_cons_of_mem c hmem)
      rw [splitAt, if_neg hc, ih hrest]

/-- The first piece ends at the first separator. -/
theorem splitAt_append_cons {separator : α} {piece : List α} (h : separator ∉ piece)
    (rest : List α) :
    splitAt separator (piece ++ separator :: rest) = piece :: splitAt separator rest := by
  induction piece with
  | nil => rw [List.nil_append, splitAt, if_pos rfl]
  | cons c piece ih =>
      have hc : c ≠ separator := fun heq => h (heq ▸ List.mem_cons_self)
      have hpiece : separator ∉ piece := fun hmem => h (List.mem_cons_of_mem c hmem)
      rw [List.cons_append, splitAt, if_neg hc, ih hpiece]

end Screencast.Text
