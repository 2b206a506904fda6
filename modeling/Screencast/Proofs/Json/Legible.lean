import Screencast.Proofs.Json.Places
import Screencast.Proofs.Json.RoundTrip

/-!
# What is read

A value that is read is `Legible`: its integers are short, its binary numbers have their one form, no two
members of an object have the same key, and it is no deeper than the reader goes.  Where a limit keeps the
reader from a value, the text itself is beyond it.  `Outcome` says this of every part of a value, from one
place in the text to another, and `readCodes_cases` of a whole text.  So gaps, escapes, members that are
defined twice and the ways to write a number leave no trace in the written form: `readCodes_settled`.
-/

namespace Screencast.Json

open Text (isAsciiDigit AllDigits)

/-! ## Legible values -/

theorem mem_of_find?_eq_some {key : Text} {value : Json} {members : List (Text × Json)}
    (h : find? key members = some value) : (key, value) ∈ members := by
  induction members with
  | nil => cases h
  | cons member members ih =>
      rw [find?] at h
      split at h
      · next hkey =>
        cases h
        rw [← hkey]
        exact List.mem_cons_self
      · exact List.mem_cons_of_mem _ (ih h)

/-- A value that is written as a word or a number. -/
def IsScalar : Json → Prop
  | .null | .bool _ | .int _ | .real _ => True
  | .string _ | .array _ | .object _ => False

namespace Legible

variable {depth : Nat} {value : Json}

/-- A scalar has no depth. -/
theorem of_scalar (h : Legible depth value) (hscalar : value.IsScalar) (other : Nat) :
    Legible other value := by
  cases h with
  | null => exact .null
  | bool => exact .bool
  | int digits => exact .int digits
  | real form => exact .real form
  | string => exact hscalar.elim
  | array parts => exact hscalar.elim
  | object keys parts => exact hscalar.elim

theorem of_item {items : List Json} (h : Legible depth (.array items)) (hitem : value ∈ items)
    (hscalar : value.IsScalar) (other : Nat) : Legible other value := by
  cases h with
  | array parts => exact (parts value hitem).of_scalar hscalar other

theorem of_member {members : List (Text × Json)} {key : Text} (h : Legible depth (.object members))
    (hfound : find? key members = some value) (hscalar : value.IsScalar) (other : Nat) :
    Legible other value := by
  cases h with
  | object keys parts =>
      exact (parts _ (mem_of_find?_eq_some hfound)).of_scalar hscalar other

end Legible

/-! ## Words and numbers -/

section

variable {text whole rest : List Char}

theorem digitsValue_lt {digits : List Char} (h : AllDigits digits) :
    Text.digitsValue digits < 10 ^ digits.length := by
  induction digits with
  | nil => decide
  | cons d digits ih =>
      obtain ⟨hd, hdigits⟩ := List.forall_mem_cons.mp h
      obtain ⟨hlow, hhigh⟩ := Text.isAsciiDigit_iff.mp hd
      have hvalue : Text.digitsValue [d] = d.toNat - 48 := by
        simp [Text.digitsValue]
      have hrest := ih hdigits
      rw [← List.singleton_append, Text.digitsValue_append, hvalue, List.length_append,
        List.length_singleton, pow_add, pow_one]
      nlinarith [Nat.mul_le_mul_right (10 ^ digits.length) (show d.toNat - 48 ≤ 9 by omega)]

theorem digitsValue_lt_longNumbers {digits : List Char} (hlength : digits.length ≤ Text.maxDigits)
    (h : AllDigits digits) : Text.digitsValue digits < Text.longNumbers := by
  have hvalue := digitsValue_lt h
  unfold Text.longNumbers
  generalize Text.maxDigits = most at hlength ⊢
  exact hvalue.trans_le (Nat.pow_le_pow_right (by decide) hlength)

theorem legible_word {value : Json} (h : value ∈ words.map Prod.snd) (depth : Nat) :
    Legible depth value := by
  simp only [words, List.map_cons, List.map_nil, List.mem_cons, List.not_mem_nil, or_false] at h
  rcases h with rfl | rfl | rfl | rfl | rfl | rfl
  · exact .null
  · exact .bool
  · exact .bool
  · exact .real trivial
  · exact .real trivial
  · exact .real trivial

theorem readFraction_eq_self (h : (readFraction text).1 = none) : (readFraction text).2 = text := by
  unfold readFraction at h ⊢
  split at h
  · dsimp only at h ⊢
    split at h
    · next hempty => rw [if_pos hempty]
    · cases h
  · rfl

/-- What comes of reading a word or a number: a value, or an integer of more digits than are read. -/
inductive ScalarOutcome (text : List Char) : Reading Json → Prop where
  | read {value : Json} {rest : List Char} (legible : ∀ depth, Legible depth value)
      (past : Past text rest) : ScalarOutcome text (.ok (value, rest))
  | digits {negative : Bool} {digits rest : List Char}
      (split : signText negative ++ digits ++ rest = text) (whole : IsWhole digits)
      (long : Text.maxDigits < digits.length) (ends : EndsNumeral rest) :
      ScalarOutcome text (.error (.limit (.digits digits.length)))

theorem outcome_readNumber? {reading : Reading Json} (h : readNumber? text = some reading) :
    ScalarOutcome text reading := by
  unfold readNumber? at h
  split at h
  next negative body heq =>
  have hbody : signText negative ++ body = text := by
    split at heq <;> cases heq <;> rfl
  simp only [Option.bind_eq_bind, Option.bind_eq_some_iff] at h
  obtain ⟨⟨whole, rest⟩, hwhole, h⟩ := h
  obtain ⟨happend, hdigits, hend⟩ := readWhole?_eq_some hwhole
  have hbefore : Past text rest := by
    refine ⟨signText negative ++ whole, List.forall_mem_append.mpr ⟨?_, ?_⟩, ?_⟩
    · cases negative with
      | false => exact nofun
      | true => exact List.forall_mem_singleton.mpr (Place.plain_of_not_mem (by decide))
    · exact fun c hc => Place.plain_of_isAsciiDigit (hdigits.allDigits c hc)
    · rw [List.append_assoc, happend, hbody]
  have hrest : Past text (readPower (readFraction rest).2).2 :=
    hbefore.trans ((readFraction_past rest).trans (readPower_past _))
  obtain rfl := Option.some.inj h
  split
  · next hfraction hpower =>
    split
    · next hlong =>
      rw [readFraction_eq_self hfraction] at hpower
      have hnoDigit : NoDigit rest := by
        refine hend.resolve_left ?_
        rintro rfl
        exact absurd hlong (show ¬Text.maxDigits < 1 by decide)
      have hsplit : signText negative ++ whole ++ rest = text := by
        rw [List.append_assoc, happend, hbody]
      exact .digits hsplit hdigits hlong ⟨hnoDigit, hfraction, hpower⟩
    · next hshort =>
      have hvalue := digitsValue_lt_longNumbers (Nat.le_of_not_lt hshort) hdigits.allDigits
      refine .read (fun depth => .int ?_) hrest
      split
      · rwa [Int.natAbs_neg, Int.natAbs_natCast]
      · rwa [Int.natAbs_natCast]
  · exact .read (fun depth => .real (Binary64.inForm_ofDecimal _ _ _)) hrest

theorem outcome_readScalar? {reading : Reading Json} (h : readScalar? text = some reading) :
    ScalarOutcome text reading := by
  unfold readScalar? at h
  split at h
  · next word hword =>
    cases h
    obtain ⟨hvalue, hpast⟩ := readWord?_past hword
    exact .read (legible_word hvalue) hpast
  · exact outcome_readNumber? h

end

/-! ## Members -/

section

variable {key : Text} {value : Json} {members pairs : List (Text × Json)}

theorem mem_put {member : Text × Json} (h : member ∈ put key value members) :
    member = (key, value) ∨ member ∈ members := by
  induction members with
  | nil => exact .inl (List.mem_singleton.mp h)
  | cons head rest ih =>
      rw [put] at h
      split at h
      · next hkey =>
        rcases List.mem_cons.mp h with rfl | hrest
        · exact .inl (congrArg (·, value) hkey)
        · exact .inr (List.mem_cons_of_mem _ hrest)
      · rcases List.mem_cons.mp h with rfl | hrest
        · exact .inr List.mem_cons_self
        · exact (ih hrest).imp_right (List.mem_cons_of_mem _)

theorem nodup_put (h : (members.map Prod.fst).Nodup) :
    ((put key value members).map Prod.fst).Nodup := by
  by_cases hkey : key ∈ members.map Prod.fst
  · have hkeys : (put key value members).map Prod.fst = members.map Prod.fst := by
      clear h
      induction members with
      | nil => cases hkey
      | cons head rest ih =>
          rw [put]
          split
          · rfl
          · next hdiffers =>
            rw [List.map_cons, List.mem_cons] at hkey
            rw [List.map_cons, List.map_cons, ih (hkey.resolve_left (Ne.symm hdiffers))]
    rwa [hkeys]
  · rw [put_of_not_mem hkey, List.map_append]
    refine List.nodup_append.mpr ⟨h, List.nodup_singleton _, fun other hother new hnew heq => ?_⟩
    rw [heq, List.mem_singleton.mp hnew] at hother
    exact hkey hother

/-- Members that are defined one after the other have different keys, and each of them has a value that one
of the pairs gives it. -/
theorem ofPairs_spec (pairs : List (Text × Json)) :
    ((ofPairs pairs).map Prod.fst).Nodup ∧ ∀ member ∈ ofPairs pairs, member ∈ pairs := by
  induction pairs using List.reverseRecOn with
  | nil => exact ⟨List.nodup_nil, nofun⟩
  | append_singleton pairs pair ih =>
      have hput : ofPairs (pairs ++ [pair]) = put pair.1 pair.2 (ofPairs pairs) := by
        rw [ofPairs, List.foldl_append]
        rfl
      rw [hput]
      refine ⟨nodup_put ih.1, fun member hmember => ?_⟩
      rcases mem_put hmember with rfl | hbefore
      · exact List.mem_append_right _ (List.mem_singleton.mpr rfl)
      · exact List.mem_append_left _ (ih.2 member hbefore)

end

/-! ## Outcomes -/

/-- What comes of reading a part of a value that may reach so deep and closes so many arrays and objects:
it is read up to a place in the text, or the text is malformed, or it is beyond a limit. -/
inductive Outcome {α : Type} (P : α → Prop) (reach closes : Nat) (text : Text) :
    CodeReading α → Prop where
  | read {value : α} {rest : Text} (before : Text) (holds : P value) (split : before ++ rest = text)
      (place : ∀ n, Place.after ⟨.outside, n + closes⟩ before = ⟨.outside, n⟩) :
      Outcome P reach closes text (.ok (value, rest))
  | malformed {cause : Malformation} {left : Nat} :
      Outcome P reach closes text (.error (.malformed cause left))
  | digits {before rest : Text} {negative : Bool} {digits : List Char}
      (integer : LongInteger text before negative digits rest)
      (place : ∀ n, (Place.after ⟨.outside, n + closes⟩ before).mode = .outside) :
      Outcome P reach closes text (.error (.limit (.digits digits.length)))
  | depth {rest : Text} (before : Text) (split : before ++ rest = text)
      (place : ∀ n, Place.after ⟨.outside, n + closes⟩ before = ⟨.outside, n + reach + 1⟩) :
      Outcome P reach closes text (.error (.limit .depth))

theorem LongInteger.behind {text part before first rest : Text} {negative : Bool}
    {digits : List Char} (h : LongInteger part before negative digits rest)
    (hsplit : first ++ part = text) (hstart : ValueStart first) :
    LongInteger text (first ++ before) negative digits rest where
  split := by rw [List.append_assoc, h.split, hsplit]
  start := hstart.append h.start
  whole := h.whole
  long := h.long
  ends := h.ends

namespace Outcome

variable {α β : Type} {P : α → Prop} {Q : β → Prop} {depth reach closes closes' : Nat}
  {text part : Text} {reading : CodeReading α}

/-- What is read behind the start of a text. -/
theorem behind (h : Outcome P reach closes part reading) (first : Text) (hsplit : first ++ part = text)
    (hstart : ValueStart first)
    (hplace : ∀ n, Place.after ⟨.outside, n + closes'⟩ first = ⟨.outside, n + closes⟩) :
    Outcome P reach closes' text reading := by
  cases h with
  | read before holds split place =>
      refine .read (first ++ before) holds ?_ fun n => ?_
      · rw [List.append_assoc, split, hsplit]
      · rw [Place.after_append, hplace, place]
  | malformed => exact .malformed
  | digits integer place =>
      refine .digits (integer.behind hsplit hstart) fun n => ?_
      rw [Place.after_append, hplace]
      exact place n
  | @depth rest before split place =>
      have hbehind : first ++ before ++ rest = text := by rw [List.append_assoc, split, hsplit]
      refine .depth (first ++ before) hbehind fun n => ?_
      rw [Place.after_append, hplace, place]

theorem map (h : Outcome P reach closes text reading) {f : α → β}
    (hf : ∀ value, P value → Q (f value)) :
    Outcome Q reach closes text (reading.map fun (value, rest) => (f value, rest)) := by
  cases h with
  | read before holds split place => exact .read before (hf _ holds) split place
  | malformed => exact .malformed
  | digits integer place => exact .digits integer place
  | depth before split place => exact .depth before split place

/-- A value in an array or an object, and what is read after it. -/
theorem inside (h : Outcome P depth 0 text reading) {next : α × Text → CodeReading β}
    (hnext : ∀ value before rest, P value → before ++ rest = text →
      (∀ n, Place.after ⟨.outside, n⟩ before = ⟨.outside, n⟩) →
      Outcome Q (depth + 1) 1 text (next (value, rest))) :
    Outcome Q (depth + 1) 1 text (reading.bind next) := by
  cases h with
  | read before holds split place => exact hnext _ before _ holds split place
  | malformed => exact .malformed
  | digits integer place => exact .digits integer fun n => place (n + 1)
  | depth before split place =>
      refine .depth before split fun n => (place (n + 1)).trans ?_
      rw [Nat.add_right_comm n 1 depth, Nat.add_assoc n depth 1]

end Outcome

/-! ## Values -/

variable {depth fuel : Nat} {text : Text}

theorem outcome_bare (hbare : IsBare text) (fuel depth : Nat) :
    Outcome (Legible depth) depth 0 text (readCodeValue (fuel + 1) depth text) := by
  have hfront := ofChars_front_append_back text
  rw [readCodeValue_bare hbare]
  split
  · next reading hreading =>
    cases outcome_readScalar? hreading with
    | @read value rest legible past =>
        obtain ⟨before, hplain, happend⟩ := past
        refine .read (Text.ofChars before) (legible depth) ?_ fun n => Past.after_eq hplain n
        rw [← List.append_assoc, ← Text.ofChars_append, happend, hfront]
    | @digits negative digits rest split whole long ends =>
        have hinteger : LongInteger text [] negative digits (Text.ofChars rest ++ back text) := by
          refine ⟨?_, nofun, whole, long, ?_⟩
          · rw [List.nil_append, ← List.append_assoc, ← Text.ofChars_append, split, hfront]
          · rwa [front_append, front_back, List.append_nil]
        exact .digits hinteger fun n => rfl
  · exact .malformed

/-- A gap is skipped, which changes nothing about the place. -/
theorem exists_gap (text : Text) : ∃ gap, gap ++ skipCodeGap text = text ∧
    (∀ c ∈ gap, c.satisfies isGap = true) ∧
      ∀ n, Place.after ⟨.outside, n⟩ gap = ⟨.outside, n⟩ := by
  have hgap : ∀ c ∈ text.takeWhile fun c => c.satisfies isGap, c.satisfies isGap = true :=
    List.all_eq_true.mp List.all_takeWhile
  refine ⟨_, List.takeWhile_append_dropWhile, hgap, fun n => ?_⟩
  generalize text.takeWhile (fun c => c.satisfies isGap) = gap at hgap
  induction gap with
  | nil => rfl
  | cons c gap ih =>
      obtain ⟨hc, hrest⟩ := List.forall_mem_cons.mp hgap
      cases c with
      | surrogate index => cases hc
      | char c =>
          rw [Place.after, List.foldl_cons, Place.plain_of_isGap hc n]
          exact ih hrest

/-- What is read in an array or an object, behind its bracket or brace and a gap. -/
theorem Outcome.opened {α : Type} {P : α → Prop} {reach : Nat} {c : CodePoint} {rest : Text}
    {reading : CodeReading α} (hc : c = .char '[' ∨ c = .char '\x7b')
    (h : Outcome P reach 1 (skipCodeGap rest) reading) : Outcome P reach 0 (c :: rest) reading := by
  obtain ⟨gap, hsplit, hgap, hplace⟩ := exists_gap rest
  refine h.behind (c :: gap) (congrArg (c :: ·) hsplit) ?_ fun n => ?_
  · refine valueStart_mark ?_ hgap []
    rcases hc with rfl | rfl
    · exact .head _
    · exact .tail _ (.head _)
  · rcases hc with rfl | rfl <;> exact hplace (n + 1)

/-- An array or an object that is closed at once. -/
theorem Outcome.closed {α : Type} {P : α → Prop} {reach : Nat} {c d : CodePoint} {rest more : Text}
    {value : α} (hc : c = .char '[' ∨ c = .char '\x7b') (hd : d = .char ']' ∨ d = .char '\x7d')
    (hrest : skipCodeGap rest = d :: more) (hvalue : P value) :
    Outcome P reach 0 (c :: rest) (.ok (value, more)) := by
  refine .opened hc (.read [d] hvalue hrest.symm fun n => ?_)
  rcases hd with rfl | rfl <;> rfl

/-- The text of a string, quotes and all, leads back to the place before it. -/
theorem StringOutcome.cases {reading : CodeReading Text} (h : StringOutcome text reading) :
    (∃ s before rest, reading = .ok (s, rest) ∧ before ++ rest = text ∧
      ∀ n, Place.after ⟨.outside, n⟩ (.char '"' :: before) = ⟨.outside, n⟩) ∨
    ∃ cause left, reading = .error (.malformed cause left) := by
  cases h with
  | read before split place => exact .inl ⟨_, before, _, rfl, split, place⟩
  | malformed => exact .inr ⟨_, _, rfl⟩

theorem outcome_value
    (hitems : ∀ depth text, Outcome (fun items => ∀ item ∈ items, Legible depth item) (depth + 1) 1 text
      (readCodeItems fuel depth text))
    (hmembers : ∀ depth text, Outcome (fun members => ∀ member ∈ members, Legible depth member.2)
      (depth + 1) 1 text (readCodeMembers fuel depth text)) (depth : Nat) (text : Text) :
    Outcome (Legible depth) depth 0 text (readCodeValue (fuel + 1) depth text) := by
  rcases bare_or_opening text with hbare | ⟨rest, rfl⟩ | ⟨rest, rfl⟩ | ⟨rest, rfl⟩
  · exact outcome_bare hbare fuel depth
  · rw [readCodeValue]
    rcases (outcome_readCodeText rest rest).cases with ⟨s, before, rest, hread, rfl, hplace⟩ |
      ⟨cause, left, hread⟩
    · rw [hread]
      exact .read _ .string rfl hplace
    · rw [hread]
      exact .malformed
  · cases depth with
    | zero => exact .depth [.char '['] rfl fun n => rfl
    | succ depth =>
        rw [readCodeValue]
        split
        · next hclosed => exact .closed (.inl rfl) (.inl rfl) hclosed (.array (List.forall_mem_nil _))
        · exact ((hitems depth _).opened (.inl rfl)).map fun _ hparts => .array hparts
  · cases depth with
    | zero => exact .depth [.char '\x7b'] rfl fun n => rfl
    | succ depth =>
        rw [readCodeValue]
        split
        · next hclosed =>
          exact .closed (.inr rfl) (.inr rfl) hclosed (.object List.nodup_nil (List.forall_mem_nil _))
        · have hobject (pairs : List (Text × Json))
              (hparts : ∀ pair ∈ pairs, Legible depth pair.2) :
              Legible (depth + 1) (.object (ofPairs pairs)) := by
            obtain ⟨hkeys, hmem⟩ := ofPairs_spec pairs
            exact .object hkeys fun member hmember => hparts member (hmem member hmember)
          exact ((hmembers depth _).opened (.inr rfl)).map hobject

section

variable {α : Type} {P : α → Prop} {reach : Nat} {before rest more : Text} {c : CodePoint}

/-- The end of an array or an object, behind its parts. -/
theorem Outcome.closing {value : α} (hvalue : P value) (hsplit : before ++ rest = text)
    (hplace : ∀ n, Place.after ⟨.outside, n⟩ before = ⟨.outside, n⟩)
    (hrest : skipCodeGap rest = c :: more) (hc : c = .char ']' ∨ c = .char '\x7d') :
    Outcome P reach 1 text (.ok (value, more)) := by
  obtain ⟨gap, hgap, -, hgapPlace⟩ := exists_gap rest
  refine .read (before ++ (gap ++ [c])) hvalue ?_ fun n => ?_
  · rw [← hsplit, ← hgap, hrest]
    simp only [List.append_assoc, List.singleton_append]
  · rw [Place.after_append, hplace, Place.after_append, hgapPlace]
    rcases hc with rfl | rfl <;> rfl

/-- What is read behind a colon or a comma. -/
theorem Outcome.behindMark {reading : CodeReading α}
    (h : Outcome P reach 1 (skipCodeGap more) reading) (hsplit : before ++ rest = text)
    (hplace : ∀ n, Place.after ⟨.outside, n⟩ before = ⟨.outside, n⟩)
    (hrest : skipCodeGap rest = c :: more) (hc : c = .char ':' ∨ c = .char ',') :
    Outcome P reach 1 text reading := by
  obtain ⟨gap, hgap, -, hgapPlace⟩ := exists_gap rest
  obtain ⟨nextGap, hnext, hnextGap, hnextPlace⟩ := exists_gap more
  refine h.behind (before ++ gap ++ c :: nextGap) ?_ (valueStart_mark ?_ hnextGap _) fun n => ?_
  · rw [List.append_assoc, List.append_assoc, List.cons_append, hnext, ← hrest, hgap, hsplit]
  · rcases hc with rfl | rfl
    · exact .tail _ (.tail _ (.head _))
    · exact .tail _ (.tail _ (.tail _ (.head _)))
  · rw [Place.after_append, Place.after_append, hplace, hgapPlace]
    rcases hc with rfl | rfl <;> exact hnextPlace _

end

theorem outcome_items
    (hvalue : ∀ depth text, Outcome (Legible depth) depth 0 text (readCodeValue fuel depth text))
    (hitems : ∀ depth text, Outcome (fun items => ∀ item ∈ items, Legible depth item) (depth + 1) 1 text
      (readCodeItems fuel depth text)) (depth : Nat) (text : Text) :
    Outcome (fun items => ∀ item ∈ items, Legible depth item) (depth + 1) 1 text
      (readCodeItems (fuel + 1) depth text) := by
  rw [readCodeItems]
  refine (hvalue depth text).inside fun item before rest hitem hsplit hplace => ?_
  dsimp only
  split
  · next hclosed =>
    exact .closing (List.forall_mem_singleton.mpr hitem) hsplit hplace hclosed (.inl rfl)
  · next hcomma =>
    refine .behindMark ?_ hsplit hplace hcomma (.inr rfl)
    exact (hitems depth _).map fun items hitems => List.forall_mem_cons.mpr ⟨hitem, hitems⟩
  · exact .malformed

theorem outcome_members
    (hvalue : ∀ depth text, Outcome (Legible depth) depth 0 text (readCodeValue fuel depth text))
    (hmembers : ∀ depth text, Outcome (fun members => ∀ member ∈ members, Legible depth member.2)
      (depth + 1) 1 text (readCodeMembers fuel depth text)) (depth : Nat) (text : Text) :
    Outcome (fun members => ∀ member ∈ members, Legible depth member.2) (depth + 1) 1 text
      (readCodeMembers (fuel + 1) depth text) := by
  rw [readCodeMembers.eq_def]
  dsimp only
  split
  · next rest =>
    rcases (outcome_readCodeText rest rest).cases with ⟨key, before, rest, hread, rfl, hplace⟩ |
      ⟨cause, left, hread⟩
    · rw [hread]
      dsimp only [bind, Except.bind]
      split
      · next hcolon =>
        have hsplit : (.char '"' :: before) ++ rest = .char '"' :: (before ++ rest) := rfl
        refine .behindMark ?_ hsplit hplace hcolon (.inl rfl)
        refine (hvalue depth _).inside fun value before rest hvalue hsplit hplace => ?_
        dsimp only
        split
        · next hclosed =>
          exact .closing (List.forall_mem_singleton.mpr hvalue) hsplit hplace hclosed (.inr rfl)
        · next hcomma =>
          refine .behindMark ?_ hsplit hplace hcomma (.inr rfl)
          exact (hmembers depth _).map fun members hmembers =>
            List.forall_mem_cons.mpr ⟨hvalue, hmembers⟩
        · exact .malformed
      · exact .malformed
    · rw [hread]
      exact .malformed
  · exact .malformed

/-- What comes of reading a value, items or members, with any fuel. -/
theorem outcome_read (fuel : Nat) :
    (∀ depth text, Outcome (Legible depth) depth 0 text (readCodeValue fuel depth text)) ∧
    (∀ depth text, Outcome (fun items => ∀ item ∈ items, Legible depth item) (depth + 1) 1 text
      (readCodeItems fuel depth text)) ∧
    ∀ depth text, Outcome (fun members => ∀ member ∈ members, Legible depth member.2) (depth + 1) 1 text
      (readCodeMembers fuel depth text) := by
  induction fuel with
  | zero =>
      refine ⟨fun _ _ => ?_, fun _ _ => ?_, fun _ _ => ?_⟩
      · rw [readCodeValue]
        exact .malformed
      · rw [readCodeItems]
        exact .malformed
      · rw [readCodeMembers]
        exact .malformed
  | succ fuel ih =>
      obtain ⟨hvalue, hitems, hmembers⟩ := ih
      exact ⟨outcome_value hitems hmembers, outcome_items hvalue hitems,
        outcome_members hvalue hmembers⟩

/-- What comes of reading a text: a legible value, or the text is malformed or beyond a limit. -/
theorem readCodes_cases (text : Text) :
    (∃ value, readCodes text = .ok value ∧ Legible maxDepth value) ∨
    (∃ cause line column offset, readCodes text = .error (.malformed cause line column offset)) ∨
    (HasLongInteger text ∧ ∃ count, readCodes text = .error (.limit (.digits count))) ∨
    TooDeep text ∧ readCodes text = .error (.limit .depth) := by
  obtain ⟨gap, hgap, hgaps, hplace⟩ := exists_gap text
  have houtcome : Outcome (Legible maxDepth) maxDepth 0 text
      (readCodeValue (2 * text.length + 2) maxDepth (skipCodeGap text)) :=
    ((outcome_read _).1 maxDepth _).behind gap hgap (valueStart_gap hgaps) hplace
  unfold readCodes
  split
  · exact .inr (.inl ⟨_, _, _, _, rfl⟩)
  · generalize readCodeValue (2 * text.length + 2) maxDepth (skipCodeGap text) = reading at houtcome ⊢
    cases houtcome with
    | read before legible split place =>
        dsimp only
        split
        · exact .inl ⟨_, rfl, legible⟩
        · exact .inr (.inl ⟨_, _, _, _, rfl⟩)
    | malformed => exact .inr (.inl ⟨_, _, _, _, rfl⟩)
    | digits integer place =>
        exact .inr (.inr (.inl ⟨⟨_, _, _, _, integer, place 0⟩, _, rfl⟩))
    | depth before split place =>
        refine .inr (.inr (.inr ⟨⟨before, _, split, ?_⟩, rfl⟩))
        exact (place 0).trans (by rw [Nat.zero_add])

theorem legible_of_readCodes {value : Json} (h : readCodes text = .ok value) :
    Legible maxDepth value := by
  rcases readCodes_cases text with ⟨read, hread, hlegible⟩ | ⟨_, _, _, _, hread⟩ | ⟨_, _, hread⟩ |
    ⟨_, hread⟩ <;> rw [h] at hread <;> cases hread
  exact hlegible

/-- So many arrays in one another are beyond the depth that is read. -/
theorem readCodeValue_nested (fuel depth : Nat) (h : 2 * depth < fuel) (rest : Text) :
    readCodeValue fuel depth (List.replicate (depth + 1) (.char '[') ++ rest)
      = .error (.limit .depth) := by
  induction depth generalizing fuel with
  | zero =>
      obtain ⟨fuel, rfl⟩ := Nat.exists_eq_succ_of_ne_zero (Nat.ne_of_gt h)
      rfl
  | succ depth ih =>
      obtain ⟨fuel, rfl⟩ := Nat.exists_eq_add_of_lt h
      have hinner := ih (2 * depth + 1 + fuel) (by omega)
      have hitems : readCodeItems (2 * depth + 1 + fuel + 1) depth
          (List.replicate (depth + 1) (.char '[') ++ rest) = .error (.limit .depth) := by
        rw [readCodeItems, hinner]
        rfl
      rw [List.replicate_succ, List.cons_append,
        show 2 * (depth + 1) + fuel + 1 = 2 * depth + 1 + fuel + 1 + 1 by omega, readCodeValue]
      change (readCodeItems (2 * depth + 1 + fuel + 1) depth
        (List.replicate (depth + 1) (.char '[') ++ rest)).map _ = _
      rw [hitems]
      rfl

/-- The written form of what was read is settled: it is read as the same value. -/
theorem readCodes_settled {value : Json} (h : readCodes text = .ok value) :
    readCodes (write .unicode value) = .ok value :=
  readCodes_write (legible_of_readCodes h)

end Screencast.Json
