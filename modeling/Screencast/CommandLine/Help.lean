import Screencast.CommandLine.Misuse

/-!
# What the program tells about its command line

The usage stands before every complaint; the help text begins with it.
-/

namespace Screencast.CommandLine

/-- How the program is called and what it is for. -/
def usageLines : List String :=
  ["usage: termreplay script [output_path] [-c CONFIG] [-r RENDERER] [-f FPS]",
   "                  [-l LINES] [-s SEED] [-n] [--headless] [-v] [-h]",
   "",
   "Replay a script of terminal interactions and record it as an animation"]

/-- What the words and the switches mean. -/
def explanationLines : List String :=
  ["positional arguments:",
   "  script                JSON file containing the list of steps to replay",
   "  output_path           optional filename of the animation. Its extension",
   "                        selects the renderer and is replaced if the renderer",
   "                        does not support it. If missing, the OUTPUT_PATH",
   "                        environment variable is used, otherwise a random path",
   "                        is automatically generated.",
   "",
   "options:",
   "  -h, --help            show this help message and exit",
   "  -c CONFIG, --config CONFIG",
   "                        INI configuration file (options of the [GLOBAL]",
   "                        section)",
   "  -r RENDERER, --renderer RENDERER",
   "                        renderer used when the extension of output_path is not",
   "                        recognized (gif, svg, cast)",
   "  -f FPS, --fps FPS     number of frames per second of the animation",
   "  -l LINES, --line-count LINES",
   "                        number of lines visible on the screen",
   "  -s SEED, --seed SEED  seed of the pseudo-random typing speed",
   "  -n, --line-numbers    display line numbers",
   "  --headless            replay as fast as possible without displaying the",
   "                        terminal",
   "  -v, --verbose         increase log messages verbosity",
   "",
   "The script is a JSON list of steps, for example [\x7b\"action\": \"type\", \"payload\":",
   "\"ls\"\x7d, \x7b\"action\": \"enter\"\x7d]"]

/-- Lines with their line feeds. -/
def textOf (lines : List String) : String := "".intercalate (lines.map (· ++ "\n"))

def usageText : String := textOf usageLines

def helpText : String := textOf (usageLines ++ "" :: explanationLines)

/-- What is told about a misused command line. -/
def complaint (misuse : Misuse) : String :=
  usageText ++ s!"termreplay: error: {misuse.message}\n"

end Screencast.CommandLine
