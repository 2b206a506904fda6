import Screencast.Text.Numeral
import Screencast.Text.Quoted

/-!
# The modes of a terminal

Of a terminal's screen only what can make a control function fail is kept: the scrolling margins,
the origin mode and what changes them.  `Function` lists the functions that a control sequence can
name, with the parameters each of them takes; `Screen.apply` says what a function does to the modes
and when it fails.
-/

namespace Screencast.Terminal

/-- Why a control sequence fails. -/
inductive Fault where
  /-- A parameter is written with digits that form no decimal numeral. -/
  | numeral (digits : List Char)
  /-- A parameter has more digits than are read. -/
  | longNumeral (count : Nat)
  /-- A function takes no private marker. -/
  | privateMarker (name : String)
  /-- A private marker meets a parameter that says the same. -/
  | privateTwice (name : String)
  /-- More parameters than a function takes; `fixed` says that one of them is required. -/
  | tooMany (name : String) (most given : Nat) (fixed : Bool)
  /-- An erasure names no part of the screen. -/
  | noInterval
  /-- Positions count from the margins, and there are none. -/
  | noMargins
  deriving DecidableEq, Repr

namespace Fault

def message : Fault → String
  | .numeral digits =>
    let shown := (Text.quoted (.ofChars digits)).take 200
    s!"invalid literal for int() with base 10: {String.ofList shown}"
  | .longNumeral count =>
    s!"Exceeds the limit ({Text.maxDigits} digits) for integer string conversion: value has " ++
      s!"{count} digits; use sys.set_int_max_str_digits() to increase the limit"
  | .privateMarker name => s!"Screen.{name}() got an unexpected keyword argument 'private'"
  | .privateTwice name => s!"Screen.{name}() got multiple values for argument 'private'"
  | .tooMany name most given fixed =>
    let takes := if fixed then s!"{most + 1}" else s!"from 1 to {most + 1}"
    s!"Screen.{name}() takes {takes} positional arguments but {given + 1} were given"
  | .noInterval =>
    "cannot access local variable 'interval' where it is not associated with a value"
  | .noMargins => ""

/-- The kind of error named when no message is shown. -/
def label : Fault → String
  | .numeral _ | .longNumeral _ => "ValueError"
  | .privateMarker _ | .privateTwice _ | .tooMany _ _ _ _ => "TypeError"
  | .noInterval => "UnboundLocalError"
  | .noMargins => "AssertionError"

end Fault

/-- What a control sequence asks for.  The functions that neither change a mode nor fail by
themselves are told apart by their names alone. -/
inductive Function where
  | move (name : String)
  | place (name : String)
  | eraseDisplay
  | eraseLine
  | attributes
  | setMode
  | resetMode
  | setMargins
  | cursorToLine
  | reportStatus
  | reportAttributes
  deriving DecidableEq, Repr

namespace Function

/-- The function that a final character names. -/
def ofFinal? : Char → Option Function
  | '@' => some (.move "insert_characters")
  | 'A' => some (.move "cursor_up")
  | 'B' => some (.move "cursor_down")
  | 'C' => some (.move "cursor_forward")
  | 'D' => some (.move "cursor_back")
  | 'E' => some (.move "cursor_down1")
  | 'F' => some (.move "cursor_up1")
  | 'G' => some (.move "cursor_to_column")
  | 'H' => some (.place "cursor_position")
  | 'J' => some .eraseDisplay
  | 'K' => some .eraseLine
  | 'L' => some (.move "insert_lines")
  | 'M' => some (.move "delete_lines")
  | 'P' => some (.move "delete_characters")
  | 'X' => some (.move "erase_characters")
  | 'a' => some (.move "cursor_forward")
  | 'c' => some .reportAttributes
  | 'd' => some .cursorToLine
  | 'e' => some (.move "cursor_down")
  | 'f' => some (.place "cursor_position")
  | 'g' => some (.move "clear_tab_stop")
  | 'h' => some .setMode
  | 'l' => some .resetMode
  | 'm' => some .attributes
  | 'n' => some .reportStatus
  | 'r' => some .setMargins
  | '\'' => some (.move "cursor_to_column")
  | _ => none

def name : Function → String
  | .move name => name
  | .place name => name
  | .eraseDisplay => "erase_in_display"
  | .eraseLine => "erase_in_line"
  | .attributes => "select_graphic_rendition"
  | .setMode => "set_mode"
  | .resetMode => "reset_mode"
  | .setMargins => "set_margins"
  | .cursorToLine => "cursor_to_line"
  | .reportStatus => "report_device_status"
  | .reportAttributes => "report_device_attributes"

/-- The greatest number of parameters, where there is one. -/
def mostParameters : Function → Option Nat
  | .move _ | .cursorToLine | .reportStatus | .reportAttributes => some 1
  | .place _ | .setMargins | .eraseLine => some 2
  | .eraseDisplay | .attributes | .setMode | .resetMode => none

/-- Whether a private marker may stand before the parameters. -/
def allowsPrivate : Function → Bool
  | .eraseDisplay | .eraseLine | .setMode | .resetMode | .reportAttributes => true
  | _ => false

/-- Checks the parameters of a function, the private marker first. -/
def check (function : Function) (parameters : List Nat) (isPrivate : Bool) : Except Fault Unit :=
  if isPrivate && !function.allowsPrivate then .error (.privateMarker function.name)
  else if isPrivate && function = .eraseLine && 2 ≤ parameters.length then
    .error (.privateTwice function.name)
  else
    match function.mostParameters with
    | none => .ok ()
    | some most =>
      if most < parameters.length then
        .error (.tooMany function.name most parameters.length (function = .reportStatus))
      else .ok ()

end Function

/-- The modes of a screen with 24 lines. -/
structure Screen where
  /-- First and last line of the scrolling region, counted from 0. -/
  margins : Option (Nat × Nat)
  /-- Whether positions count from the margins. -/
  origin : Bool
  columns : Nat
  /-- The columns to go back to when the wide screen is left. -/
  savedColumns : Option Nat
  /-- The origin modes saved with the cursor, the latest first. -/
  savedOrigins : List Bool
  deriving DecidableEq, Repr

namespace Screen

def initial : Screen where
  margins := none
  origin := false
  columns := 80
  savedColumns := none
  savedOrigins := []

def lines : Nat := 24

/-- The mode in which positions count from the margins. -/
def originMode : Nat := 6 * 32

/-- The mode of the wide screen. -/
def wideMode : Nat := 3 * 32

def wideColumns : Nat := 132

/-- Private modes have numbers of their own, apart from the public ones. -/
def modeNumber (isPrivate : Bool) (parameter : Nat) : Nat :=
  if isPrivate then parameter * 32 else parameter

/-- A new width takes the margins away. -/
def resize (columns : Nat) (screen : Screen) : Screen :=
  if columns = screen.columns then screen else { screen with columns, margins := none }

def setModes (modes : List Nat) (screen : Screen) : Screen :=
  let screen := if modes.contains originMode then { screen with origin := true } else screen
  if modes.contains wideMode then
    { screen with savedColumns := some screen.columns }.resize wideColumns
  else screen

def resetModes (modes : List Nat) (screen : Screen) : Screen :=
  let screen := if modes.contains originMode then { screen with origin := false } else screen
  if modes.contains wideMode then
    let screen :=
      match screen.savedColumns with
      | some columns => if screen.columns = wideColumns then screen.resize columns else screen
      | none => screen
    { screen with savedColumns := none }
  else screen

/-- Sets the scrolling region, given its first and last line counted from 1.  A region needs two
lines. -/
def setMargins (parameters : List Nat) (screen : Screen) : Screen :=
  let onScreen (line : Nat) : Nat := min (line - 1) (lines - 1)
  match parameters with
  | [] | [0] => { screen with margins := none }
  | top :: rest =>
    let top := onScreen top
    let bottom :=
      match rest with
      | bottom :: _ => onScreen bottom
      | [] => (screen.margins.getD (0, lines - 1)).2
    if top < bottom then { screen with margins := some (top, bottom) } else screen

/-- The screen as it was at first, apart from its width and what was saved with the cursor. -/
def reset (screen : Screen) : Screen :=
  { screen with margins := none, origin := false, savedColumns := none }

def saveCursor (screen : Screen) : Screen :=
  { screen with savedOrigins := screen.origin :: screen.savedOrigins }

def restoreCursor (screen : Screen) : Screen :=
  match screen.savedOrigins with
  | [] => { screen with origin := false }
  | saved :: rest => { screen with origin := screen.origin || saved, savedOrigins := rest }

/-- Carries out a function.  Erasures have to name a part of the screen, and two functions need
margins while positions count from them. -/
def apply (function : Function) (parameters : List Nat) (isPrivate : Bool) (screen : Screen) :
    Except Fault Screen := do
  function.check parameters isPrivate
  let first := parameters.headD 0
  match function with
  | .setMode => return screen.setModes (parameters.map (modeNumber isPrivate))
  | .resetMode => return screen.resetModes (parameters.map (modeNumber isPrivate))
  | .setMargins => return screen.setMargins parameters
  | .eraseDisplay => if 3 < first then .error .noInterval else return screen
  | .eraseLine => if 2 < first then .error .noInterval else return screen
  | .cursorToLine =>
    if screen.origin && screen.margins.isNone then .error .noMargins else return screen
  | .reportStatus =>
    if first = 6 && screen.origin && screen.margins.isNone then .error .noMargins
    else return screen
  | .move _ | .place _ | .attributes | .reportAttributes => return screen

end Screen

end Screencast.Terminal
