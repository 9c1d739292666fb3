/-! The short help text: how the program is called and what each argument is for. -/
namespace Igmp

/-- How an argument is given and what it is for; also its values, where these are names. -/
structure Help where
  usage : String
  purpose : String
  values : List String := []
  deriving DecidableEq, Repr

namespace Help

/-- The greatest number of characters in a line. -/
def lineWidth : Nat := 100

/-- Where the purpose of an option stands, in the lines below the option. -/
def indent : String := "          "

/-- Adds a word to lines that are listed from the last. -/
def addWord (width : Nat) (lines : List String) (word : String) : List String :=
  match lines with
  | [] => [word]
  | line :: lines =>
    let longer := line ++ " " ++ word
    if longer.length ≤ width then longer :: lines else word :: line :: lines

/-- A text set in lines that are broken between words. -/
def fill (width : Nat) (text : String) : List String :=
  ((text.splitOn " ").foldl (addWord width) []).reverse

def text (help : Help) : String :=
  match help.values with
  | [] => help.purpose
  | values => help.purpose ++ " [possible values: " ++ ", ".intercalate values ++ "]"

/-- The lines on an option. -/
def lines (help : Help) : List String :=
  ("  " ++ help.usage) :: (fill (lineWidth - indent.length) help.text).map (indent ++ ·)

def files : Help := { usage := "<FILES>...", purpose := "One or more hex dump files, each holding a single frame" }

def options : List Help :=
  [{ usage := "-l, --link-header-len <LINK_HEADER_LEN>"
     purpose := "The number of link layer bytes preceding the IPv4 header [default: 14]" },
    { usage := "-c, --checksum <CHECKSUM>"
      purpose := "How to treat an invalid IGMP checksum [default: warn]"
      values := ["ignore", "warn", "strict"] },
    { usage := "-b, --show-bytes", purpose := "Print the bytes of each IGMP message" },
    { usage := "-d, --detail", purpose := "Print every decoded field of each IGMP message" },
    { usage := "    --log-format <LOG_FORMAT>"
      purpose := "The debug log format [default: pretty]"
      values := ["compact", "pretty", "json"] },
    { usage := "    --log-filter <LOG_FILTER>"
      purpose := "The debug log filter [default: igmp_packet=debug,igmp_dump=debug]" },
    { usage := "    --log-span-events <LOG_SPAN_EVENTS>"
      purpose := "The debug log span events [default: off]"
      values := ["off", "active", "full"] },
    { usage := "-v, --verbose", purpose := "Enable verbose debug logging" },
    { usage := "-h, --help", purpose := "Print help (see more with '--help')" },
    { usage := "-V, --version", purpose := "Print version" }]

end Help

namespace Program

def name : String := "igmp-dump"

def version : String := "0.1.0"

def description : String := "Decode IGMP messages from captured frame hex dumps"

def help : String :=
  "\n".intercalate <|
    [description, "", "Usage: " ++ name ++ " [OPTIONS] <FILES>...", "", "Arguments:",
      "  " ++ Help.files.usage ++ "  " ++ Help.files.purpose, "", "Options:"] ++
    Help.options.flatMap Help.lines ++ [""]

end Program
end Igmp
