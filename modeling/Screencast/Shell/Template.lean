import Screencast.Shell.Value
import Screencast.Text.Digit
import Screencast.Text.Size

/-!
# Templates

A template is a text with fields in braces; braces that are meant as such are doubled.  A field
names a value and may say how it is converted and laid out.  `Template.fill` puts the values into
the fields, from left to right and in one pass: what a value contains is never read as a field.
-/

namespace Screencast

/-- Why a template cannot be filled. -/
inductive TemplateError where
  /-- Braces, a conversion or a layout that are no such thing. -/
  | malformed
  /-- A field is numbered, but values have names. -/
  | numbered
  /-- No value has this name. -/
  | unknownName (name : Text)
  /-- Nothing of this name belongs to a value. -/
  | noAttribute (name : Text)
  /-- A value is shorter than this. -/
  | outOfRange (index : Nat)
  /-- A value has no part for this key. -/
  | noItem (key : Text)
  /-- A value that is no text is to be laid out. -/
  | noLayout
  /-- A text is to be filled up beyond all memory. -/
  | memory
  deriving DecidableEq, Repr

namespace Template

/-- What stands in one pair of braces. -/
structure Field where
  name : Text
  conversion : Option CodePoint
  layout : Text
  deriving DecidableEq, Repr

/-- A part of a template. -/
inductive Part where
  | literal (text : Text)
  | field (field : Field)
  | malformed
  deriving DecidableEq, Repr

/-- Reads the name of a field up to the character that ends it.  Brackets may hold such
characters. -/
def readName : Bool → Text → Option (Text × CodePoint × Text)
  | _, [] => none
  | inBrackets, c :: rest =>
    if inBrackets then
      (readName (c ≠ .char ']') rest).map fun (name, last, rest) => (c :: name, last, rest)
    else if c = .char '{' then none
    else if c = .char '}' ∨ c = .char ':' ∨ c = .char '!' then some ([], c, rest)
    else (readName (c = .char '[') rest).map fun (name, last, rest) => (c :: name, last, rest)

/-- Reads a layout up to the brace that closes the field; `depth` counts the braces opened in
it. -/
def readLayout : Nat → Text → Option (Text × Text)
  | _, [] => none
  | depth, c :: rest =>
    if c = .char '}' then
      match depth with
      | 0 => some ([], rest)
      | depth + 1 => (readLayout depth rest).map fun (layout, rest) => (c :: layout, rest)
    else
      (readLayout (if c = .char '{' then depth + 1 else depth) rest).map fun (layout, rest) =>
        (c :: layout, rest)

/-- Reads a field after its opening brace. -/
def readField (text : Text) : Option (Field × Text) := do
  let (name, last, rest) ← readName false text
  if last = .char '}' then return (⟨name, none, []⟩, rest)
  else if last = .char ':' then
    let (layout, rest) ← readLayout 0 rest
    return (⟨name, none, layout⟩, rest)
  else
    match rest with
    | conversion :: .char '}' :: rest => return (⟨name, some conversion, []⟩, rest)
    | conversion :: .char ':' :: rest =>
      let (layout, rest) ← readLayout 0 rest
      return (⟨name, some conversion, layout⟩, rest)
    | _ => none

/-- The parts of a template; the fuel bounds their number. -/
def partsWithin : Nat → Text → List Part
  | 0, _ => []
  | fuel + 1, text =>
    match text with
    | [] => []
    | .char '{' :: .char '{' :: rest => .literal [.char '{'] :: partsWithin fuel rest
    | .char '}' :: .char '}' :: rest => .literal [.char '}'] :: partsWithin fuel rest
    | .char '}' :: _ => [.malformed]
    | .char '{' :: rest =>
      match readField rest with
      | some (field, rest) => .field field :: partsWithin fuel rest
      | none => [.malformed]
    | c :: rest => .literal [c] :: partsWithin fuel rest

/-- The parts of a template.  Nothing is read beyond a malformed one. -/
def parts (template : Text) : List Part := partsWithin template.length template

/-! ## Values -/

def isDecimal (c : CodePoint) : Bool := c.satisfies fun c => (Text.decimalValue? c).isSome

/-- The number that a key consists of: digits and nothing else.  A key that begins with too many
digits is malformed whatever follows. -/
def number? (key : Text) : Except TemplateError (Option Nat) :=
  let digits := key.takeWhile isDecimal
  let value := (Text.decimalNumber? (Text.chars digits)).getD 0
  if Text.sizeLimit ≤ value then .error .malformed
  else .ok (if key.isEmpty ∨ digits ≠ key then none else some value)

/-- The value of a name. -/
def lookup (values : List (Text × Text)) (name : Text) : Except TemplateError Value := do
  match ← number? name with
  | some _ => .error .numbered
  | none =>
    if name.isEmpty then .error .numbered
    else
      match values.find? (·.1 = name) with
      | some (_, text) => return .text text
      | none => .error (.unknownName name)

/-- The part of a value at an index: a character of a text, or one of several kinds. -/
def partAt (index : Nat) (value : Value) (key : Text) : Except TemplateError Value :=
  let found {α : Type} (part? : Option α) (toValue : α → Value) : Except TemplateError Value :=
    match part? with
    | some part => .ok (toValue part)
    | none => .error (.outOfRange index)
  match value with
  | .text t => found t[index]? fun c => .text [c]
  | .list members => found members[index]? .kind
  | _ => .error (.noItem key)

/-- The part of a value that a key in brackets asks for. -/
def itemOf (value : Value) (key : Text) : Except TemplateError Value :=
  if key.isEmpty then .error .malformed
  else do
    match ← number? key with
    | none => .error (.noItem key)
    | some index => partAt index value key

/-- Whether a code point is part of a name and begins no access. -/
def isNamePart (c : CodePoint) : Bool := c ≠ .char '.' && c ≠ .char '['

/-- Follows the accesses after the name of a value; the fuel bounds their number. -/
def accessWithin : Nat → Value → Text → Except TemplateError Value
  | 0, value, _ => .ok value
  | fuel + 1, value, path =>
    match path with
    | [] => .ok value
    | .char '.' :: rest =>
      let name := rest.takeWhile isNamePart
      if name.isEmpty then .error .malformed
      else
        match value.attribute? name with
        | some value => accessWithin fuel value (rest.dropWhile isNamePart)
        | none => .error (.noAttribute name)
    | .char '[' :: rest =>
      match rest.dropWhile (· ≠ .char ']') with
      | [] => .error .malformed
      | _ :: more => do
        accessWithin fuel (← itemOf value (rest.takeWhile (· ≠ .char ']'))) more
    | _ => .error .malformed

/-- The value that the name of a field stands for. -/
def resolve (values : List (Text × Text)) (name : Text) : Except TemplateError Value := do
  let value ← lookup values (name.takeWhile isNamePart)
  accessWithin name.length value (name.dropWhile isNamePart)

/-- Converts a value: not at all, to its text, quoted, or quoted in ASCII.  The null character asks
for no conversion. -/
def convert (conversion : Option CodePoint) (value : Value) : Except TemplateError Value :=
  match conversion with
  | none => .ok value
  | some (.char 's') => .ok (.text value.display)
  | some (.char 'r') => .ok (.text value.inspect)
  | some (.char 'a') => .ok (.text value.inspectAscii)
  | some c => if c = .char (Char.ofNat 0) then .ok value else .error .malformed

/-! ## Layouts -/

def isAlignment (c : CodePoint) : Bool :=
  c.satisfies fun c => c = '<' || c = '>' || c = '^' || c = '='

/-- The fill character and the alignment at the start of a layout. -/
def readAlignment : Text → Option CodePoint × Option CodePoint × Text
  | fill :: alignment :: rest =>
    if isAlignment alignment then (some fill, some alignment, rest)
    else if isAlignment fill then (none, some fill, alignment :: rest)
    else (none, none, fill :: alignment :: rest)
  | [alignment] =>
    if isAlignment alignment then (none, some alignment, []) else (none, none, [alignment])
  | [] => (none, none, [])

/-- Digits at the start of a layout, and the number they form if there are any. -/
def readNumber (layout : Text) : Except TemplateError (Option Nat × Text) := do
  return (← number? (layout.takeWhile isDecimal), layout.dropWhile isDecimal)

/-- The precision of a layout, after a point. -/
def readPrecision : Text → Except TemplateError (Option Nat × Text)
  | .char '.' :: rest => do
    match ← readNumber rest with
    | (none, _) => .error .malformed
    | (some n, rest) => return (some n, rest)
  | layout => .ok (none, layout)

/-- Fills a text up to a width. -/
def pad (fill alignment : CodePoint) (width : Nat) (text : Text) : Text :=
  let missing := width - text.length
  let before :=
    if alignment = .char '>' then missing
    else if alignment = .char '^' then missing / 2
    else 0
  List.replicate before fill ++ text ++ List.replicate (missing - before) fill

/-- Lays a text out.  Of what a layout can say, texts admit a fill character, an alignment, a width
and a greatest length. -/
def arrange (layout text : Text) : Except TemplateError Text := do
  let (fill, alignment, rest) := readAlignment layout
  let (zero, rest) := match fill, rest with
    | none, .char '0' :: rest => (true, rest)
    | _, rest => (false, rest)
  let (width, rest) ← readNumber rest
  let (precision, rest) ← readPrecision rest
  if alignment = some (.char '=') ∨ (rest ≠ [] ∧ rest ≠ "s") then .error .malformed
  else
    let kept := match precision with
      | some n => text.take n
      | none => text
    let width := width.getD 0
    match Text.checkSize width with
    | .error _ => .error .memory
    | .ok () =>
      return pad (fill.getD (.char (if zero then '0' else ' '))) (alignment.getD (.char '<')) width
        kept

/-- Lays a value out; only texts can be laid out in other ways than they are. -/
def arrangeValue (layout : Text) (value : Value) : Except TemplateError Text :=
  match value with
  | .text t => arrange layout t
  | value => if layout.isEmpty then .ok value.display else .error .noLayout

/-! ## Filling -/

/-- The texts of parts one after the other. -/
def fillParts (fillField : Field → Except TemplateError Text) :
    List Part → Except TemplateError Text
  | [] => .ok []
  | .literal text :: rest => do return text ++ (← fillParts fillField rest)
  | .field field :: rest => do return (← fillField field) ++ (← fillParts fillField rest)
  | .malformed :: _ => .error .malformed

/-- Fills a template; the fuel bounds how deep fields can stand in layouts. -/
def fillWithin (values : List (Text × Text)) : Nat → Text → Except TemplateError Text
  | 0, _ => .error .malformed
  | fuel + 1, template =>
    fillParts
      (fun field => do
        let value ← convert field.conversion (← resolve values field.name)
        let layout ←
          if field.layout.contains (.char '{') then fillWithin values fuel field.layout
          else .ok field.layout
        arrangeValue layout value)
      (parts template)

/-- The depth of templates: a layout may hold fields, but the layouts of these may not. -/
def depth : Nat := 2

/-- Puts values into the fields of a template. -/
def fill (values : List (Text × Text)) (template : Text) : Except TemplateError Text :=
  fillWithin values depth template

end Template

end Screencast
