import Screencast.Text.Lines
import Screencast.Text.Quoted

/-!
# The values of templates

The fields of a template name texts, but also what belongs to a text: its kind, which is a value of
a kind of its own, and its functions.  `Value.attribute?` gives a value by its name, and
`Value.inspect` writes it.
-/

namespace Screencast.Template

/-- The kinds of values. -/
inductive Kind where
  | ofTexts
  | ofKinds
  /-- The kind that all others belong to. -/
  | ofAll
  | ofLists
  | ofNothing
  /-- Functions and operators of a text, and those that are still to be given one. -/
  | ofFunctions
  | ofOperators
  | ofFreeFunctions
  | ofFreeOperators
  deriving DecidableEq, Repr

namespace Kind

def name : Kind → String
  | .ofTexts => "str"
  | .ofKinds => "type"
  | .ofAll => "object"
  | .ofLists => "tuple"
  | .ofNothing => "NoneType"
  | .ofFunctions => "builtin_function_or_method"
  | .ofOperators => "method-wrapper"
  | .ofFreeFunctions => "method_descriptor"
  | .ofFreeOperators => "wrapper_descriptor"

/-- A kind and the ones it belongs to. -/
def lineage (kind : Kind) : List Kind := if kind = .ofAll then [kind] else [kind, .ofAll]

/-- How a kind is written. -/
def inspect (kind : Kind) : Text := s!"<class '{kind.name}'>"

/-- What texts are for. -/
def textExplanation : String :=
  "str(object='') -> str\nstr(bytes_or_buffer[, encoding[, errors]]) -> str\n\nCreate a " ++
    "new string object from the given object. If encoding or\nerrors is specified, then " ++
    "the object must expose a data buffer\nthat will be decoded using the given encoding " ++
    "and error handler.\nOtherwise, returns the result of object.__str__() (if defined)\n" ++
    "or repr(object).\nencoding defaults to sys.getdefaultencoding().\nerrors defaults to " ++
    "'strict'."

end Kind

/-! ## Functions -/

/-- A function of texts; an operator is one that is seldom called by its name. -/
structure Function where
  name : String
  isOperator : Bool
  /-- The kind whose values have the function. -/
  owner : Kind
  deriving DecidableEq, Repr

namespace Function

/-- The functions that only texts have. -/
def textFunctions : List String :=
  ["__format__", "__getnewargs__", "__init_subclass__", "__new__", "__sizeof__", "__subclasshook__",
   "capitalize", "casefold", "center", "count", "encode", "endswith", "expandtabs", "find",
   "format", "format_map", "index", "isalnum", "isalpha", "isascii", "isdecimal", "isdigit",
   "isidentifier", "islower", "isnumeric", "isprintable", "isspace", "istitle", "isupper", "join",
   "ljust", "lower", "lstrip", "maketrans", "partition", "removeprefix", "removesuffix", "replace",
   "rfind", "rindex", "rjust", "rpartition", "rsplit", "rstrip", "split", "splitlines",
   "startswith", "strip", "swapcase", "title", "translate", "upper", "zfill"]

/-- The functions that all values have. -/
def commonFunctions : List String := ["__dir__", "__getstate__", "__reduce__", "__reduce_ex__"]

/-- The operators for texts. -/
def textOperators : List String :=
  ["__add__", "__contains__", "__eq__", "__ge__", "__getattribute__", "__getitem__", "__gt__",
   "__hash__", "__iter__", "__le__", "__len__", "__lt__", "__mod__", "__mul__", "__ne__",
   "__repr__", "__rmod__", "__rmul__", "__str__"]

/-- The operators for all values. -/
def commonOperators : List String := ["__delattr__", "__init__", "__setattr__"]

/-- The function of texts with a name. -/
def ofName? (name : Text) : Option Function := do
  let name ← name.string?
  if textFunctions.contains name then some ⟨name, false, .ofTexts⟩
  else if commonFunctions.contains name then some ⟨name, false, .ofAll⟩
  else if textOperators.contains name then some ⟨name, true, .ofTexts⟩
  else if commonOperators.contains name then some ⟨name, true, .ofAll⟩
  else none

/-- The name behind that of the kind the function comes from; a function of a text comes from its
text. -/
def qualifiedName (f : Function) (ofText : Bool) : String :=
  let kind := if ofText && !f.isOperator then Kind.ofTexts else f.owner
  s!"{kind.name}.{f.name}"

end Function

/-! ## Values -/

/-- What a field can stand for. -/
inductive Value where
  | text (content : Text)
  | kind (which : Kind)
  | list (members : List Kind)
  | nothing
  /-- A function, perhaps of this text. -/
  | function (which : Function) (owner : Option Text)
  deriving DecidableEq, Repr

namespace Value

/-- The kind of a value. -/
def kindOf : Value → Kind
  | .text _ => .ofTexts
  | .kind _ => .ofKinds
  | .list _ => .ofLists
  | .nothing => .ofNothing
  | .function f owner =>
    match f.isOperator, owner with
    | false, some _ => .ofFunctions
    | true, some _ => .ofOperators
    | false, none => .ofFreeFunctions
    | true, none => .ofFreeOperators

def ofString (s : String) : Value := .text s

/-- What belongs to a text. -/
def attributeOfText? (t name : Text) : Option Value :=
  if name = "__doc__" then some (ofString Kind.textExplanation)
  else (Function.ofName? name).map (.function · (some t))

/-- What belongs to a kind. -/
def attributeOfKind? (k : Kind) (name : Text) : Option Value :=
  match name.string? with
  | some "__name__" | some "__qualname__" => some (ofString k.name)
  | some "__module__" => some (ofString "builtins")
  | some "__mro__" => some (.list k.lineage)
  | some "__bases__" => some (.list k.lineage.tail)
  | some "__base__" => some ((k.lineage.tail.head?.map Value.kind).getD .nothing)
  | _ =>
    if k = .ofTexts then
      if name = "__doc__" then some (ofString Kind.textExplanation)
      else (Function.ofName? name).map (.function · none)
    else none

/-- What belongs to a function. -/
def attributeOfFunction? (f : Function) (owner : Option Text) (name : Text) : Option Value :=
  match name.string? with
  | some "__name__" => some (ofString f.name)
  | some "__qualname__" => some (ofString (f.qualifiedName owner.isSome))
  | some "__self__" => owner.map Value.text
  | some "__objclass__" => if owner.isNone || f.isOperator then some (.kind f.owner) else none
  | some "__module__" => if owner.isNone || f.isOperator then none else some .nothing
  | _ => none

/-- What belongs to a value, by its name. -/
def attribute? (value : Value) (name : Text) : Option Value :=
  if name = "__class__" then some (.kind value.kindOf)
  else
    match value with
    | .text t => attributeOfText? t name
    | .kind k => attributeOfKind? k name
    | .function f owner => attributeOfFunction? f owner name
    | .list _ | .nothing => none

/-- How the members of a list are written together. -/
def inspectAll : List Text → Text
  | [] => "()"
  | [single] => "(" ++ single ++ ",)"
  | members => "(" ++ Text.joinWith ", " members ++ ")"

/-- How a function is written. -/
def inspectFunction (f : Function) (owner : Option Text) : String :=
  match f.isOperator, owner with
  | false, some _ => s!"<built-in method {f.name} of str object>"
  | true, some _ => s!"<method-wrapper '{f.name}' of str object>"
  | false, none => s!"<method '{f.name}' of '{f.owner.name}' objects>"
  | true, none => s!"<slot wrapper '{f.name}' of '{f.owner.name}' objects>"

/-- How a value is written; a text is written as it is. -/
def display : Value → Text
  | .text t => t
  | .kind k => k.inspect
  | .list members => inspectAll (members.map Kind.inspect)
  | .nothing => "None"
  | .function f owner => inspectFunction f owner

/-- A text in quotes, or how another value is written. -/
def inspect : Value → Text
  | .text t => .ofChars (Text.quoted t)
  | value => value.display

/-- The same in ASCII. -/
def inspectAscii : Value → Text
  | .text t => .ofChars (Text.quotedAscii t)
  | value => value.display

end Value

end Screencast.Template
