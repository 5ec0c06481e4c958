import VertexCover.Text.Quoted

/-! Arguments of a command line.

A grammar names the switches of a program and what its words are for. An argument that starts with a
dash is a switch, which may be shortened as long as only one switch starts so, and may carry its value
after an equals sign. Negative numbers, texts with a space and everything after a double dash are
words. Arguments that nobody wants are collected, so that the program can refuse them at the end. -/
namespace VertexCover.Command

/-- What a switch does with the argument after it. -/
inductive Arity where
  | flag
  | value
  | help
deriving DecidableEq, Repr

/-- A switch with its spellings. -/
structure Switch where
  names : List String
  arity : Arity
deriving DecidableEq, Repr

/-- What the words of a command line are for. -/
inductive Words where
  /-- There are none. -/
  | none
  /-- One word, which may be left out. -/
  | one
  /-- A command with everything after it. -/
  | command
deriving DecidableEq, Repr

/-- Why arguments are refused: the program that refuses them and what it has to say. -/
inductive Refusal where
  | error (program message : String)
  | help
deriving DecidableEq, Repr

/-- The arguments a program takes; `assign` stores a switch with its value, or says what is wrong with
the value. -/
structure Grammar (σ : Type) where
  program : String
  switches : List Switch
  words : Words
  assign : σ → String → String → Except String σ

/-- An argument by its kind. -/
inductive Token where
  | word (text : String)
  /-- The double dash. -/
  | divider
  /-- A known switch as it is spelled in full, with the value written to it: what follows an equals
  sign or, for a switch of one letter, the letter. -/
  | switch (raw : String) (switch : Switch) (name : String) (attached : Option String)
  /-- Something that looks like a switch but is none. -/
  | unknown (raw : String)
deriving DecidableEq, Repr

/-- The switch every program has. -/
def helpSwitch : Switch := ⟨["-h", "--help"], .help⟩

/-- The name of a switch in messages. -/
def Switch.title (s : Switch) : String := String.intercalate "/" s.names

/-- A text cut at its first equals sign. -/
def splitValue (text : List Char) : String × Option String :=
  let name := text.takeWhile (· != '=')
  match text.drop name.length with
  | [] => (String.ofList name, none)
  | _ :: value => (String.ofList name, some (String.ofList value))

/-- The text is a minus with digits, and perhaps a point before the last of them. -/
def looksNegative (text : List Char) : Bool :=
  let text := if text.getLast? == some '\n' then text.dropLast else text
  match text with
  | '-' :: body =>
    let whole := body.takeWhile Text.isDigit
    match body.drop whole.length with
    | [] => !whole.isEmpty
    | '.' :: fraction => !fraction.isEmpty && fraction.all Text.isDigit
    | _ => false
  | _ => false

namespace Grammar

variable {σ : Type}

/-- All spellings with their switches. -/
def spellings (g : Grammar σ) : List (String × Switch) :=
  (helpSwitch :: g.switches).flatMap fun s => s.names.map (·, s)

/-- The spellings an argument may be short for, with the value it carries. -/
def completions (g : Grammar σ) (text : List Char) : List (String × Switch × Option String) :=
  let starts (part : List Char) (name : String) := part.isPrefixOf name.toList
  match text with
  | '-' :: '-' :: _ =>
    let (name, attached) := splitValue text
    (g.spellings.filter fun s => starts name.toList s.1).map fun s => (s.1, s.2, attached)
  | _ =>
    g.spellings.filterMap fun s =>
      if s.1.toList = text.take 2 then some (s.1, s.2, some (String.ofList (text.drop 2)))
      else if starts text s.1 then some (s.1, s.2, none)
      else none

/-- The kind of an argument before any double dash. -/
def classify (g : Grammar σ) (raw : String) : Except Refusal Token :=
  let text := raw.toList
  if text.head? != some '-' then .ok (.word raw)
  else
    match g.spellings.lookup raw with
    | some s => .ok (.switch raw s raw none)
    | none =>
      if text.length = 1 then .ok (.word raw)
      else
        let (name, attached) := splitValue text
        match g.spellings.lookup name with
        | some s => .ok (.switch raw s name attached)
        | none =>
          match g.completions text with
          | [(name, s, attached)] => .ok (.switch raw s name attached)
          | [] =>
            if looksNegative text || text.contains ' ' then .ok (.word raw) else .ok (.unknown raw)
          | several =>
            let names := String.intercalate ", " (several.map Prod.fst)
            .error (.error g.program s!"ambiguous option: {raw} could match {names}")

/-- The kinds of all arguments. -/
def tokens (g : Grammar σ) : List String → Except Refusal (List Token)
  | [] => .ok []
  | raw :: rest =>
    if raw = "--" then .ok (.divider :: rest.map .word)
    else
      match g.classify raw with
      | .error refusal => .error refusal
      | .ok token =>
        match g.tokens rest with
        | .error refusal => .error refusal
        | .ok others => .ok (token :: others)

end Grammar

/-- The argument as it was given. -/
def Token.raw : Token → String
  | .word text => text
  | .divider => "--"
  | .switch raw _ _ _ => raw
  | .unknown raw => raw

/-- The token is a switch, known or not. -/
def Token.isSwitch : Token → Bool
  | .switch .. => true
  | .unknown _ => true
  | _ => false

/-- What has been read of a command line. -/
structure Parsed (σ : Type) where
  settings : σ
  /-- The word, or the command with what follows it, once they have been found. -/
  words : Option (List String)
  /-- The arguments that nobody wants. -/
  extras : List String

namespace Grammar

variable {σ : Type}

/-- Stores a switch with its value. -/
def store (g : Grammar σ) (p : Parsed σ) (s : Switch) (name value : String) :
    Except Refusal (Parsed σ) :=
  match g.assign p.settings name value with
  | .ok settings => .ok { p with settings }
  | .error message => .error (.error g.program s!"argument {s.title}: {message}")

/-- Refuses a value written to a switch that takes none. -/
def ignored (g : Grammar σ) (s : Switch) (value : List Char) : Refusal :=
  .error g.program
    s!"argument {s.title}: ignored explicit argument {Text.quoted (String.ofList value)}"

/-- The letters written to a switch of one letter must be such switches too. Help is the only one, so
nothing but the first switch has to be carried out. -/
def cluster (g : Grammar σ) (s : Switch) : List Char → Except Refusal Unit
  | [] => .ok ()
  | c :: rest =>
    match g.spellings.lookup (String.ofList ['-', c]) with
    | none => .error (g.ignored s (c :: rest))
    | some next => g.cluster next rest

/-- Takes the word at the front, with the double dashes around it. -/
def takeWord (tokens : List Token) : List String × List Token :=
  match tokens with
  | .divider :: .word text :: rest => ([text], rest)
  | .divider :: rest => ([], rest)
  | .word text :: .divider :: rest => ([text], rest)
  | .word text :: rest => ([text], rest)
  | rest => ([], rest)

/-- Reads a command from the front: a word, perhaps after a double dash, and all that follows. -/
def takeCommand (tokens : List Token) : Option (List String) :=
  match tokens with
  | .word _ :: _ => some (tokens.map Token.raw)
  | .divider :: .word _ :: _ => some (tokens.map Token.raw)
  | _ => none

/-- Gives the tokens at the front, none of which is a switch, to the words that are still wanted. -/
def consumeWords (g : Grammar σ) (p : Parsed σ) (tokens : List Token) : Parsed σ × List Token :=
  match g.words, p.words with
  | .one, none =>
    let (words, rest) := takeWord tokens
    ({ p with words := some words }, rest)
  | .command, none =>
    match takeCommand tokens with
    | some words => ({ p with words := some words }, [])
    | none => (p, tokens)
  | _, _ => (p, tokens)

/-- Reads the last tokens, among which there is no switch. -/
def finish (g : Grammar σ) (p : Parsed σ) (tokens : List Token) : Parsed σ :=
  let (p, rest) := g.consumeWords p tokens
  { p with extras := p.extras ++ rest.map Token.raw }

/-- Carries out a switch that takes no value. -/
def raise (g : Grammar σ) (p : Parsed σ) (s : Switch) (name : String) : Except Refusal (Parsed σ) :=
  if s.arity = .help then .error .help else g.store p s name ""

/-- The switch is spelled with one dash. -/
def isShort (name : String) : Bool := (name.toList.drop 1).head? != some '-'

/-- Reads a switch; `following` are the tokens after it. Gives the number of those that it used. -/
def consumeSwitch (g : Grammar σ) (p : Parsed σ) (s : Switch) (name : String)
    (attached : Option String) (following : List Token) : Except Refusal (Parsed σ × Nat) :=
  match s.arity, attached, following with
  | .value, some value, _ => (g.store p s name value).map (·, 0)
  | .value, none, .word text :: _ => (g.store p s name text).map (·, 1)
  | .value, none, _ =>
    .error (.error g.program s!"argument {s.title}: expected one argument")
  | _, none, _ => (g.raise p s name).map (·, 0)
  | _, some value, _ =>
    if isShort name && value != "" then do
      g.cluster s value.toList
      return (← g.raise p s name, 0)
    else .error (g.ignored s value.toList)

/-- Reads tokens; every round uses at least one of them. -/
def read (g : Grammar σ) : Nat → Parsed σ → List Token → Except Refusal (Parsed σ)
  | 0, p, tokens => .ok (g.finish p tokens)
  | rounds + 1, p, tokens =>
    if !tokens.any Token.isSwitch then .ok (g.finish p tokens)
    else
      match tokens with
      | [] => .ok p
      | .unknown raw :: rest => g.read rounds { p with extras := p.extras ++ [raw] } rest
      | .switch _ s name attached :: rest =>
        match g.consumeSwitch p s name attached rest with
        | .error refusal => .error refusal
        | .ok (p, used) => g.read rounds p (rest.drop used)
      | token :: rest =>
        let (next, left) := g.consumeWords p (token :: rest)
        if left.length < (token :: rest).length then g.read rounds next left
        else g.read rounds { p with extras := p.extras ++ [token.raw] } rest

/-- Reads the arguments of a program, starting from its settings. -/
def parse (g : Grammar σ) (settings : σ) (args : List String) : Except Refusal (Parsed σ) :=
  match g.tokens args with
  | .error refusal => .error refusal
  | .ok tokens => g.read tokens.length ⟨settings, none, []⟩ tokens

/-- Refuses arguments that nobody wants. -/
def refuse (program : String) (extras : List String) : Refusal :=
  .error program ("unrecognized arguments: " ++ String.intercalate " " extras)

end Grammar

/-- The line that tells of a refusal. -/
def Refusal.line : Refusal → Option String
  | .error program message => some s!"{program}: error: {message}"
  | .help => none

/-- The integer a switch is given. -/
def integerValue (value : String) : Except String Int :=
  match Text.integer? value.toList with
  | some n => .ok n
  | none => .error s!"invalid int value: {Text.quoted value}"

end VertexCover.Command
