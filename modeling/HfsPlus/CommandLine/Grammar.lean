/-!
# Options and operands of a command line

A command line is read word by word. A word that starts with a dash names options:
one by its long name behind two dashes, or several by their letters behind one. An
option may take a value, which is joined to its name or is the next word; the next
word is no value if it starts with a dash itself. Every other word is an operand,
and so is everything behind a lone pair of dashes.

A `Grammar` says which options there are and what each word does to a state, which
may refuse it. A word can also be the name of a command: then reading stops, and
the words behind it are the command's own.
-/

namespace HfsPlus.CommandLine

/-- Why there is nothing to carry out. -/
inductive Ending where
  /-- The words ask how to write a command line. -/
  | help
  /-- The words ask which version the program is. -/
  | version
  /-- The words are no command line. -/
  | misuse
  deriving DecidableEq, Repr

/-- What an option does. -/
inductive Switch (σ : Type) where
  /-- It stands alone. -/
  | flag (apply : σ → Option σ)
  /-- It takes a value. -/
  | value (apply : String → σ → Option σ)
  /-- It ends the reading. -/
  | ending (ending : Ending)

/-- Which words a command line may have, and what they do. -/
structure Grammar (σ : Type) where
  /-- Options by their long names. -/
  long : List (String × Switch σ)
  /-- Options by their letters. -/
  short : List (Char × Switch σ)
  operand : String → σ → Option σ
  /-- Names that end this command line and start another. -/
  commands : List String

/-- What the next word is. -/
inductive Mode (σ : Type) where
  /-- An option, an operand or a command. -/
  | anything
  /-- An operand, whatever it looks like. -/
  | operands
  /-- The value of an option. -/
  | value (apply : String → σ → Option σ)

/-- What a word looks like. -/
inductive Shape where
  | separator
  | long (name : String) (value : Option String)
  | letters (letters : List Char)
  | plain

/-- Tell options from other words. A lone dash is no option. -/
def Shape.ofWord (word : String) : Shape :=
  match word.toList with
  | ['-', '-'] => .separator
  | '-' :: '-' :: rest =>
    let (name, value) := rest.span fun char => char ≠ '='
    .long (String.ofList name) (value.tail?.map String.ofList)
  | '-' :: first :: others => .letters (first :: others)
  | _ => .plain

namespace Grammar

variable {σ : Type}

/-- What is refused makes no command line. -/
def accept (outcome : Option σ) : Except Ending σ :=
  match outcome with
  | some state => .ok state
  | none => .error .misuse

/-- Read an option with a long name. -/
def readLong (grammar : Grammar σ) (name : String) (value : Option String) (state : σ) :
    Except Ending (Mode σ × σ) := do
  match grammar.long.lookup name, value with
  | some (.ending ending), none => throw ending
  | some (.flag apply), none => return (.anything, ← accept (apply state))
  | some (.value apply), none => return (.value apply, state)
  | some (.value apply), some value => return (.anything, ← accept (apply value state))
  | _, _ => throw .misuse

/-- Read options by their letters. Behind the letter of an option that takes a value
stands the value, perhaps after an equals sign. -/
def readLetters (grammar : Grammar σ) : List Char → σ → Except Ending (Mode σ × σ)
  | [], state => return (.anything, state)
  | letter :: letters, state => do
    match grammar.short.lookup letter, letters with
    | some (.ending ending), _ => throw ending
    | some (.flag apply), letters => readLetters grammar letters (← accept (apply state))
    | some (.value apply), [] => return (.value apply, state)
    | some (.value apply), '=' :: value =>
      return (.anything, ← accept (apply (String.ofList value) state))
    | some (.value apply), value =>
      return (.anything, ← accept (apply (String.ofList value) state))
    | none, _ => throw .misuse

/-- Read words to their end or to the name of a command. -/
def read (grammar : Grammar σ) :
    Mode σ → List String → σ → Except Ending (σ × Option (String × List String))
  | .value _, [], _ => throw .misuse
  | _, [], state => return (state, none)
  | .operands, word :: words, state => do
    read grammar .operands words (← accept (grammar.operand word state))
  | .value apply, word :: words, state => do
    match Shape.ofWord word with
    | .plain => read grammar .anything words (← accept (apply word state))
    | _ => throw .misuse
  | .anything, word :: words, state => do
    if grammar.commands.contains word then return (state, some (word, words))
    match Shape.ofWord word with
    | .separator => read grammar .operands words state
    | .long name value =>
      let (mode, state) ← grammar.readLong name value state
      read grammar mode words state
    | .letters letters =>
      let (mode, state) ← grammar.readLetters letters state
      read grammar mode words state
    | .plain => read grammar .anything words (← accept (grammar.operand word state))

end Grammar

end HfsPlus.CommandLine
