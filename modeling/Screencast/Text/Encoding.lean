import Screencast.Text.Quoted

/-!
# Encoding texts

Only characters can be encoded.  `Text.encode` gives the characters of a text that has no
surrogates, and otherwise says where its first surrogates stand.
-/

namespace Screencast

/-- Why a text is not encoded: the surrogates that stand first in it, one after the other, and how
many code points stand before them. -/
structure EncodingFault where
  place : Nat
  surrogates : Text
  deriving DecidableEq, Repr

def EncodingFault.message (fault : EncodingFault) : String :=
  let culprit := match fault.surrogates with
    | [c] => s!"character '{String.ofList (Text.escapeCode c.toNat)}' in position {fault.place}"
    | run => s!"characters in position {fault.place}-{fault.place + run.length - 1}"
  s!"'utf-8' codec can't encode {culprit}: surrogates not allowed"

namespace Text

/-- The first surrogates of a text. -/
def encodingFault (text : Text) : EncodingFault where
  place := (text.takeWhile (!·.isSurrogate)).length
  surrogates := (text.dropWhile (!·.isSurrogate)).takeWhile CodePoint.isSurrogate

/-- The characters that a text consists of. -/
def encode (text : Text) : Except EncodingFault (List Char) :=
  if text.any CodePoint.isSurrogate then .error text.encodingFault else .ok text.chars

/-- A text with its surrogates escaped. -/
def escaped (text : Text) : List Char :=
  text.flatMap fun
    | .char c => [c]
    | c => escapeCode c.toNat

/-- A text is encoded exactly when it consists of characters. -/
theorem encode_eq_ok_iff {text : Text} {cs : List Char} :
    encode text = .ok cs ↔ text = ofChars cs := by
  constructor
  · intro h
    unfold encode at h
    split at h
    · cases h
    · next hs =>
      injection h with h
      rw [← h, ofChars_chars (by simpa using hs)]
  · rintro rfl
    have hs : (ofChars cs).any CodePoint.isSurrogate = false := by
      simp [ofChars, CodePoint.isSurrogate]
    simp [encode, hs, chars_ofChars]

/-- A text is encoded exactly when it has no surrogates. -/
theorem encode_isOk_iff (text : Text) :
    (∃ cs, encode text = .ok cs) ↔ ∀ c ∈ text, c.isSurrogate = false := by
  unfold encode
  cases h : text.any CodePoint.isSurrogate with
  | true =>
    obtain ⟨c, hc, hs⟩ := List.any_eq_true.mp h
    exact iff_of_false nofun fun hall => by rw [hall c hc] at hs; cases hs
  | false =>
    refine iff_of_true ⟨_, rfl⟩ fun c hc => ?_
    simpa using List.any_eq_false.mp h c hc

end Text

end Screencast
