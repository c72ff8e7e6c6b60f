import MoveMachine.ConfigFile.Meaning
import MoveMachine.ConfigFile.Text

set_option autoImplicit false

namespace MoveMachine

inductive Program where
  | base
  | twoPlusTwo
  | fibonacci
  | echo
  deriving DecidableEq, Inhabited

namespace Program

def all : List Program := [.base, .twoPlusTwo, .fibonacci, .echo]

def name : Program → String
  | .base => "base"
  | .twoPlusTwo => "two_plus_two"
  | .fibonacci => "fibonacci"
  | .echo => "echo"

def ofName? (text : String) : Option Program := all.find? fun program => program.name == text

def description : Program → String
  | .base => "default layout only; halts on boot"
  | .twoPlusTwo => "adds 2 and 2 into `res`"
  | .fibonacci => "fills memory from 48 with Fibonacci numbers (runs forever)"
  | .echo => "copies input to output"

def baseSource : String := "\x7b
  \"0\": \x7b \"name\": \"IP\", \"value\": 16 \x7d,
  \"1\": \x7b \"name\": \"A\" \x7d,
  \"2\": \x7b \"name\": \"B\" \x7d,
  \"3\": \x7b \"name\": \"C\" \x7d,
  \"4\": \x7b \"name\": \"add\", \"onread\": \"add\" \x7d,
  \"5\": \x7b \"name\": \"sub\", \"onread\": \"sub\" \x7d,
  \"6\": \x7b \"name\": \"mul\", \"onread\": \"mul\" \x7d,
  \"7\": \x7b \"name\": \"div\", \"onread\": \"div\" \x7d,
  \"8\": \x7b \"name\": \"gt\", \"onread\": \"gt\" \x7d,
  \"9\": \x7b \"name\": \"lt\", \"onread\": \"lt\" \x7d,
  \"10\": \x7b \"name\": \"eq\", \"onread\": \"eq\" \x7d,
  \"11\": \x7b \"name\": \"in\", \"onread\": \"getchar\" \x7d,
  \"12\": \x7b \"name\": \"out\", \"onwrite\": \"putchar\" \x7d,
  \"13\": \x7b \"name\": \"not\", \"onread\": \"not\" \x7d,
  \"14\": \x7b \"name\": \"xor\", \"onread\": \"xor\" \x7d,
  \"15\": \x7b \"name\": \"ter\", \"onread\": \"ter\" \x7d,
  \"16\": [18, 0]
\x7d
"

/-- Moves 2 to `A` and to `B`, their sum to `res`, and then 0 to the instruction pointer. -/
def twoPlusTwoSource : String := "\x7b
  \"18\": 32,
  \"20\": \x7b \"name\": \"op1\", \"value\": 2 \x7d,
  \"21\": \x7b \"name\": \"op2\", \"value\": 2 \x7d,
  \"22\": \x7b \"name\": \"res\" \x7d,
  \"32\": [20, \"@A\", 21, \"@B\", \"@add\", \"@res\"],
  \"38\": [41, 1, 41, 0]
\x7d
"

/--
Keeps two neighbours of the sequence in `tmp1` and `tmp2`. The target of the move at 34 is
the cell 35, which the move before it sets to the next free address.
-/
def fibonacciSource : String := "\x7b
  \"18\": 24,
  \"19\": \x7b \"name\": \"^1\", \"value\": 1 \x7d,
  \"20\": \x7b \"name\": \"sp\", \"value\": 48 \x7d,
  \"21\": \x7b \"name\": \"tmp1\", \"value\": 0 \x7d,
  \"22\": \x7b \"name\": \"tmp2\", \"value\": 1 \x7d,
  \"24\": [
    \"@tmp1\", \"@A\",
    \"@tmp2\", \"@B\",
    \"@tmp2\", \"@tmp1\",
    \"@add\", \"@tmp2\",
    \"@sp\", 35,
    \"@tmp2\", -1,
    \"@sp\", \"@A\",
    \"@^1\", \"@B\",
    \"@add\", \"@sp\"
  ],
  \"42\": [44, 0, 24]
\x7d
"

/-- Reads a character into `C`, and jumps to the exit if it is 0 and else to the printing. -/
def echoSource : String := "\x7b
  \"18\": 24,
  \"20\": \x7b \"name\": \"exit\", \"value\": 36 \x7d,
  \"21\": \x7b \"name\": \"cont\", \"value\": 32 \x7d,
  \"22\": \x7b \"name\": \"loop\", \"value\": 24 \x7d,
  \"24\": [
    \"@in\", \"@C\",
    \"@exit\", \"@A\",
    \"@cont\", \"@B\",
    \"@ter\", \"@IP\"
  ],
  \"32\": [\"@C\", \"@out\", \"@loop\", \"@IP\"],
  \"36\": [38, \"@IP\", 0]
\x7d
"

def source : Program → String
  | .base => baseSource
  | .twoPlusTwo => twoPlusTwoSource
  | .fibonacci => fibonacciSource
  | .echo => echoSource

def named (name : String) : Entry := .cell { name := some name }

def valued (name : String) (value : Word) : Entry :=
  .cell { name := some name, value := some (.number value) }

def computed (name device : String) : Entry :=
  .cell { name := some name, onRead := some device }

def moves (pairs : List (WrittenLiteral × WrittenLiteral)) : Entry :=
  .block (pairs.flatMap fun pair => [pair.1, pair.2])

def number (value : Word) : WrittenLiteral := .number value

def ref (symbol : String) : WrittenLiteral := .text ("@" ++ symbol)

def baseLayout : ConfigFile := .ofList
  [(0, valued "IP" 16), (1, named "A"), (2, named "B"), (3, named "C"),
    (4, computed "add" "add"), (5, computed "sub" "sub"), (6, computed "mul" "mul"),
    (7, computed "div" "div"), (8, computed "gt" "gt"), (9, computed "lt" "lt"),
    (10, computed "eq" "eq"), (11, computed "in" "getchar"),
    (12, .cell { name := some "out", onWrite := some (.one "putchar") }),
    (13, computed "not" "not"), (14, computed "xor" "xor"), (15, computed "ter" "ter"),
    (16, moves [(number 18, number 0)])]

def twoPlusTwoFile : ConfigFile := .ofList
  [(18, .literal (number 32)), (20, valued "op1" 2), (21, valued "op2" 2), (22, named "res"),
    (32, moves [(number 20, ref "A"), (number 21, ref "B"), (ref "add", ref "res")]),
    (38, moves [(number 41, number 1), (number 41, number 0)])]

def fibonacciFile : ConfigFile := .ofList
  [(18, .literal (number 24)), (19, valued "^1" 1), (20, valued "sp" 48), (21, valued "tmp1" 0),
    (22, valued "tmp2" 1),
    (24, moves [(ref "tmp1", ref "A"), (ref "tmp2", ref "B"), (ref "tmp2", ref "tmp1"),
      (ref "add", ref "tmp2"), (ref "sp", number 35), (ref "tmp2", number (-1)),
      (ref "sp", ref "A"), (ref "^1", ref "B"), (ref "add", ref "sp")]),
    (42, .block [number 44, number 0, number 24])]

def echoFile : ConfigFile := .ofList
  [(18, .literal (number 24)), (20, valued "exit" 36), (21, valued "cont" 32),
    (22, valued "loop" 24),
    (24, moves [(ref "in", ref "C"), (ref "exit", ref "A"), (ref "cont", ref "B"),
      (ref "ter", ref "IP")]),
    (32, moves [(ref "C", ref "out"), (ref "loop", ref "IP")]),
    (36, .block [number 38, ref "IP", number 0])]

def file : Program → ConfigFile
  | .base => baseLayout
  | .twoPlusTwo => twoPlusTwoFile
  | .fibonacci => fibonacciFile
  | .echo => echoFile

def layout (registry : Registry) : Except ConfigError Config := do
  (← ConfigFile.parse baseSource).toConfig registry

def config (registry : Registry) (program : Program) : Except ConfigError Config := do
  let layout ← layout registry
  if program = .base then return layout
  return layout.merge (← (← ConfigFile.parse program.source).toConfig registry)

end Program

end MoveMachine
