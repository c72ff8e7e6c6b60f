import MoveMachine.Word

set_option autoImplicit false

namespace MoveMachine

/-- Queued input, oldest first, and collected output. -/
structure Console where
  input : List Word := []
  output : Array Word := #[]
  deriving DecidableEq, Inhabited

namespace Console

def feed (console : Console) (text : String) : Console :=
  { console with input := console.input ++ text.toList.map Word.ofChar }

def ofInput (text : String) : Console := ({} : Console).feed text

def pending (console : Console) : Nat := console.input.length

def get (console : Console) : Word × Console :=
  match console.input with
  | [] => (0, console)
  | word :: rest => (word, { console with input := rest })

def put (console : Console) (word : Word) : Console :=
  { console with output := console.output.push word }

/-- The output as text. A word that is no code point shows as the replacement character. -/
def outputText (console : Console) : String :=
  String.ofList (console.output.toList.map fun word => (Word.toChar? word).getD '\ufffd')

def takeOutput (console : Console) : List Word × Console :=
  (console.output.toList, { console with output := #[] })

end Console

structure Host where
  console : Console := {}
  /-- Tagged words, oldest first. -/
  journal : Array (String × Word) := #[]
  counters : Array Word := #[]
  deriving DecidableEq, Inhabited

namespace Host

def getWord (host : Host) : Word × Host :=
  let (word, console) := host.console.get
  (word, { host with console })

def putWord (host : Host) (word : Word) : Host :=
  { host with console := host.console.put word }

def record (host : Host) (tag : String) (word : Word) : Host :=
  { host with journal := host.journal.push (tag, word) }

def takeJournal (host : Host) : List (String × Word) × Host :=
  (host.journal.toList, { host with journal := #[] })

/-- The value of a counter, which then moves on by one. -/
def count (host : Host) (index : Nat) : Word × Host :=
  (host.counters.getD index 0, { host with counters := host.counters.modify index (· + 1) })

end Host

end MoveMachine
