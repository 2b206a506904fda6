import Screencast.Proofs.Json.OneLine

/-!
# Writing and reading data values

Reading undoes writing, surrogates and all: `readCodes_write`.  A written value says where it ends, by its
closing quote or bracket or by what follows, so that the readers of items and members find each of them;
`ReadsBack` is what is known of the parts of a value.  In a file there are characters only, and from there a
value is read in the same way: `read_written`.
-/

namespace Screencast.Json

open Text (isAsciiDigit)

variable {depth : Nat} {value : Json} {rest : Text}

/-- The characters of a written value. -/
def written (value : Json) : List Char := Text.chars (write .unicode value)

/-! ## Values that read back -/

/-- A value that can be written and read, with arrays and objects so deep in it at most. -/
inductive Legible : Nat → Json → Prop where
  | null {depth : Nat} : Legible depth .null
  | bool {depth : Nat} {b : Bool} : Legible depth (.bool b)
  | int {depth : Nat} {n : Int} (digits : n.natAbs < Text.longNumbers) : Legible depth (.int n)
  | real {depth : Nat} {x : Binary64} (form : x.InForm) : Legible depth (.real x)
  | string {depth : Nat} {s : Text} : Legible depth (.string s)
  | array {depth : Nat} {items : List Json} (parts : ∀ item ∈ items, Legible depth item) :
      Legible (depth + 1) (.array items)
  | object {depth : Nat} {members : List (Text × Json)} (keys : (members.map Prod.fst).Nodup)
      (parts : ∀ member ∈ members, Legible depth member.2) : Legible (depth + 1) (.object members)

/-- A character that a value may begin with: neither a gap nor a closing bracket. -/
structure Begins (first : Char) : Prop where
  above : 0x20 < first.toNat
  below : first.toNat < 0x7f
  noBracket : first ≠ ']'

/-- What is known of a written value: how it begins, that it takes one line, and that it is read with
enough fuel. -/
structure ReadsBack (depth : Nat) (value : Json) : Prop where
  begins : ∃ first more, write .unicode value = .char first :: more ∧ Begins first
  noControl : NoControl (written value)
  reads : ∀ fuel rest, (write .unicode value).length ≤ fuel → Ends (front rest) →
    readCodeValue fuel depth (write .unicode value ++ rest) = .ok (value, rest)

theorem ReadsBack.of_cons (first : Char) (more : Text) (hwritten : write .unicode value = .char first :: more)
    (hfirst : Begins first) (hmore : NoControl (Text.chars more))
    (hreads : ∀ fuel rest, more.length ≤ fuel → Ends (front rest) →
      readCodeValue (fuel + 1) depth (.char first :: (more ++ rest)) = .ok (value, rest)) :
    ReadsBack depth value where
  begins := ⟨first, more, hwritten, hfirst⟩
  noControl := by
    rw [written, hwritten]
    exact noControl_cons.mpr ⟨hfirst.above.le, hmore⟩
  reads fuel rest hfuel hends := by
    rw [hwritten] at hfuel ⊢
    cases fuel with
    | zero => cases hfuel
    | succ fuel => exact hreads fuel rest (Nat.le_of_succ_le_succ hfuel) hends

/-! ## Words, numbers and strings -/

/-- A character that a word or a number may begin with. -/
structure BeginsScalar (first : Char) : Prop extends Begins first where
  noQuote : first ≠ '"'
  noArray : first ≠ '['
  noObject : first ≠ '\x7b'

theorem BeginsScalar.isBare {first : Char} (h : BeginsScalar first) (more : Text) :
    IsBare (.char first :: more) := by
  simp [IsBare, h.noQuote, h.noArray, h.noObject]

theorem readsBack_scalar {first : Char} {more : List Char}
    (hwritten : write .unicode value = Text.ofChars (first :: more)) (hfirst : BeginsScalar first)
    (hmore : NoControl more)
    (hread : ∀ rest, Ends rest → readScalar? (first :: more ++ rest) = some (.ok (value, rest))) :
    ReadsBack depth value := by
  refine .of_cons first (Text.ofChars more) hwritten hfirst.toBegins (by rwa [Text.chars_ofChars])
    fun fuel rest _ hends => ?_
  have hbare : IsBare (Text.ofChars (first :: more) ++ rest) := hfirst.isBare _
  change readCodeValue (fuel + 1) depth (Text.ofChars (first :: more) ++ rest) = _
  rw [readCodeValue_bare hbare, front_append, back_append, hread _ hends]
  simp only [Except.map, ofChars_front_append_back]

theorem readsBack_word {word : List Char × Json} (hword : word ∈ words)
    (hwritten : write .unicode word.2 = Text.ofChars word.1) : ReadsBack depth word.2 := by
  have hbegins : ∃ first more, word.1 = first :: more ∧ BeginsScalar first := by
    simp only [words, List.mem_cons, List.not_mem_nil, or_false] at hword
    rcases hword with rfl | rfl | rfl | rfl | rfl | rfl <;>
      exact ⟨_, _, rfl, ⟨by decide, by decide, by decide⟩, by decide, by decide, by decide⟩
  obtain ⟨first, more, hcons, hfirst⟩ := hbegins
  have hmore := noControl_word hword
  rw [hcons] at hwritten hmore
  refine readsBack_scalar hwritten hfirst (noControl_cons.mp hmore).2 fun rest _ => ?_
  rw [← hcons, readScalar?, readWord?_word hword]

theorem readsBack_numeral {negative : Bool} {numeral : Numeral} (hproper : numeral.Proper)
    (hwritten : write .unicode value = Text.ofChars (signText negative ++ numeral.chars))
    (hreading : ∀ rest, numeral.reading negative rest = .ok (value, rest)) :
    ReadsBack depth value := by
  have hbegins : ∃ first more, signText negative ++ numeral.chars = first :: more ∧
      BeginsScalar first := by
    cases negative with
    | true => exact ⟨_, _, rfl, ⟨by decide, by decide, by decide⟩, by decide, by decide, by decide⟩
    | false =>
        obtain ⟨first, more, hcons, hdigit⟩ := numeral.exists_chars_eq_cons hproper
        obtain ⟨hlow, hhigh⟩ := Text.isAsciiDigit_iff.mp hdigit
        have hdiffers {c : Char} (h : isAsciiDigit c = false) : first ≠ c := by
          rintro rfl
          rw [hdigit] at h
          cases h
        exact ⟨first, more, hcons, ⟨by omega, by omega, hdiffers rfl⟩, hdiffers rfl, hdiffers rfl,
          hdiffers rfl⟩
  obtain ⟨first, more, hcons, hfirst⟩ := hbegins
  have hmore := noControl_numeral negative hproper
  rw [hcons] at hwritten hmore
  refine readsBack_scalar hwritten hfirst (noControl_cons.mp hmore).2 fun rest hends => ?_
  rw [← hcons, List.append_assoc, readScalar?, readWord?_numeral rest negative hproper]
  simp only [readNumber?_numeral negative hproper hends, hreading]

theorem readsBack_string (s : Text) : ReadsBack depth (.string s) := by
  have hmore : NoControl (Text.chars (s.flatMap (writeCode .unicode) ++ [.char '"'])) := by
    rw [Text.chars_append, noControl_append]
    exact ⟨noControl_flatMap_writeCode s, noControl_cons.mpr ⟨by decide, noControl_nil⟩⟩
  refine .of_cons '"' (s.flatMap (writeCode .unicode) ++ [.char '"']) rfl
    ⟨by decide, by decide, by decide⟩ hmore fun fuel rest _ _ => ?_
  rw [List.append_assoc, List.singleton_append, readCodeValue, readCodeText_writeString]
  rfl

/-! ## Arrays -/

theorem isGap_of_begins {first : Char} (h : Begins first) : isGap first = false := by
  have hdiffers {c : Char} (hc : c.toNat ≤ 0x20) : decide (first = c) = false := by
    rw [decide_eq_false_iff_not]
    rintro rfl
    exact absurd h.above (Nat.not_lt.mpr hc)
  rw [isGap, hdiffers (by decide), hdiffers (by decide), hdiffers (by decide), hdiffers (by decide)]
  rfl

theorem skipCodeGap_of_begins {first : Char} {more : Text} (h : Begins first) :
    skipCodeGap (.char first :: more) = .char first :: more := by
  rw [skipCodeGap, List.dropWhile_cons, CodePoint.satisfies, isGap_of_begins h,
    if_neg Bool.false_ne_true]

/-- A comma, a bracket or a brace ends a value. -/
theorem ends_front_cons {c : Char} {rest : Text} (h : c = ',' ∨ c = ']' ∨ c = '\x7d') :
    Ends (front (.char c :: rest)) := by
  have hfront : front (.char c :: rest) = c :: front rest := front_append [c] rest
  rw [hfront]
  rcases h with rfl | rfl | rfl <;> exact ⟨noDigit_cons rfl, by simp, by simp⟩

theorem writeItems_cons (item next : Json) (items : List Json) :
    writeItems .unicode (item :: next :: items)
      = write .unicode item ++ .char ',' :: .char ' ' :: writeItems .unicode (next :: items) := by
  rw [writeItems, List.append_assoc]
  · rfl
  · exact fun heq => List.cons_ne_nil _ _ heq

theorem noControl_writeItems {items : List Json} (h : ∀ item ∈ items, NoControl (written item)) :
    NoControl (Text.chars (writeItems .unicode items)) := by
  induction items with
  | nil => exact noControl_nil
  | cons item items ih =>
      obtain ⟨hitem, hitems⟩ := List.forall_mem_cons.mp h
      cases items with
      | nil => exact hitem
      | cons next items =>
          rw [writeItems_cons, Text.chars_append, noControl_append]
          exact ⟨hitem, noControl_cons.mpr ⟨by decide, noControl_cons.mpr ⟨by decide, ih hitems⟩⟩⟩

/-- Items begin as their first one does. -/
theorem skipCodeGap_writeItems {item : Json} (hitem : ReadsBack depth item) (items : List Json)
    (rest : Text) : skipCodeGap (writeItems .unicode (item :: items) ++ rest)
      = writeItems .unicode (item :: items) ++ rest ∧
    ∃ first more, writeItems .unicode (item :: items) = .char first :: more ∧ Begins first := by
  obtain ⟨first, more, hcons, hfirst⟩ := hitem.begins
  have hitems : ∃ more, writeItems .unicode (item :: items) = .char first :: more := by
    cases items with
    | nil => exact ⟨more, hcons⟩
    | cons next items =>
        rw [writeItems_cons, hcons]
        exact ⟨_, rfl⟩
  obtain ⟨others, hothers⟩ := hitems
  rw [hothers]
  exact ⟨skipCodeGap_of_begins hfirst, first, others, rfl, hfirst⟩

theorem readCodeItems_writeItems {items : List Json} (hsome : items ≠ [])
    (hitems : ∀ item ∈ items, ReadsBack depth item) {fuel : Nat}
    (hfuel : (writeItems .unicode items).length < fuel) (rest : Text) :
    readCodeItems fuel depth (writeItems .unicode items ++ .char ']' :: rest) = .ok (items, rest) := by
  induction items generalizing fuel with
  | nil => exact absurd rfl hsome
  | cons item items ih =>
      obtain ⟨hitem, hrest⟩ := List.forall_mem_cons.mp hitems
      cases fuel with
      | zero => cases hfuel
      | succ fuel =>
          cases items with
          | nil =>
              have hread := hitem.reads fuel (.char ']' :: rest) (Nat.le_of_lt_succ hfuel)
                (ends_front_cons (.inr (.inl rfl)))
              rw [readCodeItems, writeItems, hread]
              rfl
          | cons next items =>
              rw [writeItems_cons] at hfuel ⊢
              simp only [List.length_append, List.length_cons] at hfuel
              have hread := hitem.reads fuel
                (.char ',' :: .char ' ' :: (writeItems .unicode (next :: items) ++ .char ']' :: rest))
                (by omega) (ends_front_cons (.inl rfl))
              have hothers : readCodeItems fuel depth
                  (writeItems .unicode (next :: items) ++ .char ']' :: rest)
                  = .ok (next :: items, rest) :=
                ih (List.cons_ne_nil _ _) hrest (by omega)
              have hskip := (skipCodeGap_writeItems (List.forall_mem_cons.mp hrest).1 items
                (.char ']' :: rest)).1
              rw [readCodeItems, List.append_assoc, List.cons_append, List.cons_append, hread]
              change (readCodeItems fuel depth (skipCodeGap
                (writeItems .unicode (next :: items) ++ .char ']' :: rest))).bind
                (fun others => .ok (item :: others.1, others.2)) = _
              rw [hskip, hothers]
              rfl

theorem readsBack_array {items : List Json} (hitems : ∀ item ∈ items, ReadsBack depth item) :
    ReadsBack (depth + 1) (.array items) := by
  have hmore : NoControl (Text.chars (writeItems .unicode items ++ [.char ']'])) := by
    rw [Text.chars_append, noControl_append]
    exact ⟨noControl_writeItems fun item hitem => (hitems item hitem).noControl,
      noControl_cons.mpr ⟨by decide, noControl_nil⟩⟩
  refine .of_cons '[' (writeItems .unicode items ++ [.char ']']) rfl
    ⟨by decide, by decide, by decide⟩ hmore fun fuel rest hfuel _ => ?_
  rw [List.length_append] at hfuel
  rw [List.append_assoc, List.singleton_append, readCodeValue]
  cases items with
  | nil => rfl
  | cons item items =>
      have hitem := (List.forall_mem_cons.mp hitems).1
      have hread := readCodeItems_writeItems (List.cons_ne_nil item items) hitems
        (Nat.lt_of_succ_le hfuel) rest
      obtain ⟨hskip, first, more, hcons, hfirst⟩ :=
        skipCodeGap_writeItems hitem items (.char ']' :: rest)
      rw [hskip]
      split
      · next heq =>
        -- an item does not begin with the bracket that ends the array
        rw [hcons] at heq
        cases heq
        exact absurd rfl hfirst.noBracket
      · rw [hread]
        rfl

/-! ## Objects -/

/-- One member behind the opening quote of its key. -/
def memberText (key : Text) (value : Json) : Text :=
  key.flatMap (writeCode .unicode) ++ .char '"' :: .char ':' :: .char ' ' :: write .unicode value

theorem writeMembers_singleton (key : Text) (value : Json) :
    writeMembers .unicode [(key, value)] = .char '"' :: memberText key value := by
  rw [writeMembers, writeString, memberText]
  simp only [List.cons_append, List.append_assoc]
  rfl

theorem writeMembers_cons (key : Text) (value : Json) (next : Text × Json)
    (members : List (Text × Json)) :
    writeMembers .unicode ((key, value) :: next :: members)
      = .char '"' :: (memberText key value ++
        .char ',' :: .char ' ' :: writeMembers .unicode (next :: members)) := by
  rw [writeMembers, writeString, memberText]
  · simp only [List.cons_append, List.append_assoc]
    rfl
  · exact fun heq => List.cons_ne_nil _ _ heq

theorem noControl_memberText (key : Text) {value : Json} (hvalue : NoControl (written value)) :
    NoControl (Text.chars (memberText key value)) := by
  rw [memberText, Text.chars_append, noControl_append]
  exact ⟨noControl_flatMap_writeCode key, noControl_cons.mpr ⟨by decide, noControl_cons.mpr ⟨by decide,
    noControl_cons.mpr ⟨by decide, hvalue⟩⟩⟩⟩

theorem noControl_writeMembers {members : List (Text × Json)}
    (h : ∀ member ∈ members, NoControl (written member.2)) :
    NoControl (Text.chars (writeMembers .unicode members)) := by
  induction members with
  | nil => exact noControl_nil
  | cons member members ih =>
      obtain ⟨key, value⟩ := member
      obtain ⟨hvalue, hvalues⟩ := List.forall_mem_cons.mp h
      have hmember := noControl_memberText key hvalue
      cases members with
      | nil =>
          rw [writeMembers_singleton]
          exact noControl_cons.mpr ⟨by decide, hmember⟩
      | cons next members =>
          rw [writeMembers_cons, ← List.singleton_append, Text.chars_append, Text.chars_append,
            noControl_append, noControl_append]
          exact ⟨noControl_cons.mpr ⟨by decide, noControl_nil⟩, hmember,
            noControl_cons.mpr ⟨by decide, noControl_cons.mpr ⟨by decide, ih hvalues⟩⟩⟩

theorem skipCodeGap_writeMembers (member : Text × Json) (members : List (Text × Json)) (rest : Text) :
    skipCodeGap (writeMembers .unicode (member :: members) ++ rest)
      = writeMembers .unicode (member :: members) ++ rest ∧
    ∃ more, writeMembers .unicode (member :: members) = .char '"' :: more := by
  obtain ⟨key, value⟩ := member
  cases members with
  | nil =>
      rw [writeMembers_singleton]
      exact ⟨rfl, _, rfl⟩
  | cons next members =>
      rw [writeMembers_cons]
      exact ⟨rfl, _, rfl⟩

/-- A member is read up to what follows its value. -/
theorem readCodeMembers_member (key : Text) (hvalue : ReadsBack depth value) {fuel : Nat}
    (hfuel : (write .unicode value).length ≤ fuel) (hends : Ends (front rest)) :
    readCodeMembers (fuel + 1) depth (.char '"' :: (memberText key value ++ rest)) = (do
      match skipCodeGap rest with
      | .char '\x7d' :: rest => return ([(key, value)], rest)
      | .char ',' :: rest =>
        let (members, rest) ← readCodeMembers fuel depth (skipCodeGap rest)
        return ((key, value) :: members, rest)
      | rest => .error (.malformed .comma rest.length)) := by
  have hskip : skipCodeGap (write .unicode value ++ rest) = write .unicode value ++ rest := by
    obtain ⟨first, more, hcons, hfirst⟩ := hvalue.begins
    rw [hcons]
    exact skipCodeGap_of_begins hfirst
  have hread := hvalue.reads fuel rest hfuel hends
  rw [memberText, List.append_assoc, List.cons_append, readCodeMembers, readCodeText_writeString]
  change (readCodeValue fuel depth (skipCodeGap (write .unicode value ++ rest))).bind _ = _
  rw [hskip, hread]
  rfl

theorem readCodeMembers_writeMembers {members : List (Text × Json)} (hsome : members ≠ [])
    (hvalues : ∀ member ∈ members, ReadsBack depth member.2) {fuel : Nat}
    (hfuel : (writeMembers .unicode members).length < fuel) (rest : Text) :
    readCodeMembers fuel depth (writeMembers .unicode members ++ .char '\x7d' :: rest)
      = .ok (members, rest) := by
  induction members generalizing fuel with
  | nil => exact absurd rfl hsome
  | cons member members ih =>
      obtain ⟨key, value⟩ := member
      obtain ⟨hvalue, hotherValues⟩ := List.forall_mem_cons.mp hvalues
      dsimp only at hvalue
      cases fuel with
      | zero => cases hfuel
      | succ fuel =>
          cases members with
          | nil =>
              rw [writeMembers_singleton] at hfuel ⊢
              simp only [memberText, List.length_cons, List.length_append] at hfuel
              rw [List.cons_append, readCodeMembers_member key hvalue (by omega)
                (ends_front_cons (.inr (.inr rfl)))]
              rfl
          | cons next members =>
              rw [writeMembers_cons] at hfuel ⊢
              simp only [memberText, List.length_cons, List.length_append] at hfuel
              have hothers : readCodeMembers fuel depth
                  (writeMembers .unicode (next :: members) ++ .char '\x7d' :: rest)
                  = .ok (next :: members, rest) :=
                ih (List.cons_ne_nil _ _) hotherValues (by omega)
              have hskip := (skipCodeGap_writeMembers next members (.char '\x7d' :: rest)).1
              rw [List.cons_append, List.append_assoc, List.cons_append,
                readCodeMembers_member key hvalue (by omega) (ends_front_cons (.inl rfl))]
              change (readCodeMembers fuel depth (skipCodeGap
                (writeMembers .unicode (next :: members) ++ .char '\x7d' :: rest))).bind _ = _
              rw [hskip, hothers]
              rfl

theorem put_of_not_mem {key : Text} {members : List (Text × Json)} (h : key ∉ members.map Prod.fst)
    (value : Json) : put key value members = members ++ [(key, value)] := by
  induction members with
  | nil => rfl
  | cons member members ih =>
      rw [List.map_cons, List.mem_cons, not_or] at h
      rw [put, if_neg (Ne.symm h.1), ih h.2, List.cons_append]

theorem foldl_put_of_nodup {before members : List (Text × Json)}
    (h : ((before ++ members).map Prod.fst).Nodup) :
    members.foldl (fun members pair => put pair.1 pair.2 members) before = before ++ members := by
  induction members generalizing before with
  | nil => rw [List.foldl_nil, List.append_nil]
  | cons member members ih =>
      have hnew : member.1 ∉ before.map Prod.fst := by
        rw [List.map_append, List.map_cons] at h
        exact fun hmem => List.disjoint_of_nodup_append h hmem List.mem_cons_self
      rw [← List.singleton_append, ← List.append_assoc] at h
      rw [List.foldl_cons, put_of_not_mem hnew, ih h, List.append_assoc, List.singleton_append]

/-- Members with different keys are kept as they are. -/
theorem ofPairs_of_nodup {members : List (Text × Json)} (h : (members.map Prod.fst).Nodup) :
    ofPairs members = members :=
  @foldl_put_of_nodup [] members h

theorem readsBack_object {members : List (Text × Json)} (hnodup : (members.map Prod.fst).Nodup)
    (hvalues : ∀ member ∈ members, ReadsBack depth member.2) :
    ReadsBack (depth + 1) (.object members) := by
  have hmore : NoControl (Text.chars (writeMembers .unicode members ++ [.char '\x7d'])) := by
    rw [Text.chars_append, noControl_append]
    exact ⟨noControl_writeMembers fun member hmember => (hvalues member hmember).noControl,
      noControl_cons.mpr ⟨by decide, noControl_nil⟩⟩
  refine .of_cons '\x7b' (writeMembers .unicode members ++ [.char '\x7d']) rfl
    ⟨by decide, by decide, by decide⟩ hmore fun fuel rest hfuel _ => ?_
  rw [List.length_append] at hfuel
  rw [List.append_assoc, List.singleton_append, readCodeValue]
  cases members with
  | nil => rfl
  | cons member members =>
      have hread := readCodeMembers_writeMembers (List.cons_ne_nil member members) hvalues
        (Nat.lt_of_succ_le hfuel) rest
      obtain ⟨hskip, more, hcons⟩ := skipCodeGap_writeMembers member members (.char '\x7d' :: rest)
      rw [hskip]
      split
      · next heq =>
        -- a member begins with a quote
        rw [hcons] at heq
        cases heq
      · rw [hread]
        simp only [Except.map, ofPairs_of_nodup hnodup]

/-! ## All values -/

theorem readsBack_real {x : Binary64} (hx : x.InForm) : ReadsBack depth (.real x) := by
  cases x with
  | finite negative m e =>
      obtain ⟨numeral, hproper, htext, hreading⟩ := exists_numeral negative hx
      refine readsBack_numeral hproper ?_ hreading
      rw [write, htext]
  | nan => exact readsBack_word (.tail _ (.tail _ (.tail _ (.head _)))) rfl
  | infinite negative =>
      cases negative with
      | false => exact readsBack_word (.tail _ (.tail _ (.tail _ (.tail _ (.head _))))) rfl
      | true => exact readsBack_word (.tail _ (.tail _ (.tail _ (.tail _ (.tail _ (.head _)))))) rfl

theorem readsBack_of_legible (h : Legible depth value) : ReadsBack depth value := by
  induction h with
  | null => exact readsBack_word (.head _) rfl
  | @bool depth b =>
      cases b with
      | true => exact readsBack_word (.tail _ (.head _)) rfl
      | false => exact readsBack_word (.tail _ (.tail _ (.head _))) rfl
  | @int depth n digits =>
      refine readsBack_numeral (proper_toDigits n.natAbs) ?_ (reading_toDigits digits)
      rw [write, integerText_eq]
  | real form => exact readsBack_real form
  | string => exact readsBack_string _
  | array _ ih => exact readsBack_array ih
  | object keys _ ih => exact readsBack_object keys ih

theorem ends_of_gap {gap : List Char} (hgap : gap.all isGap = true) : Ends gap := by
  cases gap with
  | nil => exact ⟨nofun, nofun, nofun, nofun⟩
  | cons c gap =>
      have hc : isGap c = true := (List.all_eq_true.mp hgap) c List.mem_cons_self
      have hdiffers {d : Char} (h : isGap d = false) : (c :: gap).head? ≠ some d := by
        rintro heq
        cases heq
        rw [hc] at h
        cases h
      refine ⟨noDigit_cons ?_, hdiffers rfl, hdiffers rfl, hdiffers rfl⟩
      simp only [isGap, Bool.or_eq_true, decide_eq_true_eq] at hc
      rcases hc with ((rfl | rfl) | rfl) | rfl <;> rfl

/-- What is legible reads back as it was written, also with a gap behind it. -/
theorem readCodes_write_append (h : Legible maxDepth value) {gap : List Char}
    (hgap : gap.all isGap = true) : readCodes (write .unicode value ++ Text.ofChars gap) = .ok value := by
  obtain ⟨⟨first, more, hcons, hfirst⟩, -, hreads⟩ := readsBack_of_legible h
  have hmark : (write .unicode value ++ Text.ofChars gap).head? ≠ some (.char (Char.ofNat 0xfeff)) := by
    rw [hcons, List.cons_append, List.head?_cons]
    rintro heq
    cases heq
    exact absurd hfirst.below (by decide)
  have hskip : skipCodeGap (write .unicode value ++ Text.ofChars gap)
      = write .unicode value ++ Text.ofChars gap := by
    rw [hcons]
    exact skipCodeGap_of_begins hfirst
  have hends : Ends (front (Text.ofChars gap)) := by
    rw [front_ofChars]
    exact ends_of_gap hgap
  have hread := hreads (2 * (write .unicode value ++ Text.ofChars gap).length + 2) (Text.ofChars gap)
    (by rw [List.length_append]; omega) hends
  have hend : skipGap gap = [] := List.isEmpty_iff.mp ((Text.isEmpty_dropWhile isGap gap).trans hgap)
  unfold readCodes
  rw [if_neg hmark, hskip, hread]
  simp only [skipCodeGap_ofChars, hend, Text.ofChars_nil]

theorem readCodes_write (h : Legible maxDepth value) : readCodes (write .unicode value) = .ok value := by
  have hread := readCodes_write_append h (show List.all [] isGap = true from rfl)
  rwa [Text.ofChars_nil, List.append_nil] at hread

/-- From a file, what can be encoded is read back. -/
theorem read_written (h : Legible maxDepth value) (hencodes : (write .unicode value).Encodes)
    {gap : List Char} (hgap : gap.all isGap = true) : read (written value ++ gap) = .ok value := by
  rw [← readCodes_ofChars, Text.ofChars_append, written, Text.ofChars_chars hencodes]
  exact readCodes_write_append h hgap

end Screencast.Json
