/-!
# Options

A program's arguments are flags, which stand alone, options with a value, and free
arguments. Long names follow two dashes, and the value follows in the same word after an
equals sign or in the next word. Short names are single letters after one dash and can be
joined; the value is the rest of the word, or else the next word. After a word of two
dashes everything is free. A single dash is free.

Reading goes from left to right and stops at the first mistake.
-/

namespace Chip8.CommandLine

/-- A name of an option as it was used. -/
inductive OptionName where
  | long (name : String)
  | short (letter : Char)
  deriving DecidableEq, Repr

/-- The name with its dashes. -/
def OptionName.text : OptionName → String
  | long name => "--" ++ name
  | short letter => "-" ++ String.singleton letter

/-- A mistake in the use of a program. -/
inductive UsageError where
  | unrecognizedOption (option : OptionName)
  | missingArgument (option : OptionName)
  | unexpectedArgument (option : OptionName)
  | invalidArgument (option : OptionName) (reason : String)
  | unexpectedFree (word : String)
  | missingFree
  deriving DecidableEq, Repr

/-- The message for people. -/
def UsageError.message : UsageError → String
  | unrecognizedOption option => "unrecognized option `" ++ option.text ++ "`"
  | missingArgument option => "missing argument to option `" ++ option.text ++ "`"
  | unexpectedArgument option => "option `" ++ option.text ++ "` does not accept an argument"
  | invalidArgument option reason =>
    "invalid argument to option `" ++ option.text ++ "`: " ++ reason
  | unexpectedFree word => "unexpected free argument `" ++ word ++ "`"
  | missingFree => "missing required free argument"

/-- What an option does to the settings `σ`: set a flag, or take a value, which may not suit. -/
inductive Effect (σ : Type) where
  | flag (set : σ → σ)
  | value (set : String → σ → Except String σ)

/-- An option: its names and its effect. -/
structure OptionSpec (σ : Type) where
  long : String
  short : Char
  effect : Effect σ

variable {σ : Type}

/-- The option that a name stands for. -/
def OptionName.find? (specs : List (OptionSpec σ)) : OptionName → Option (OptionSpec σ)
  | long name => specs.find? fun spec => spec.long == name
  | short letter => specs.find? fun spec => spec.short == letter

/-- Gives an option its value. -/
def setValue (option : OptionName) (set : String → σ → Except String σ) (word : String)
    (settings : σ) : Except UsageError σ :=
  (set word settings).mapError (.invalidArgument option)

/-- What is left to do after a word: settings, or an option that takes the next word. -/
inductive Progress (σ : Type) where
  | ready (settings : σ)
  | awaiting (option : OptionName) (set : String → σ → Except String σ) (settings : σ)

/-- Reads letters joined after one dash. -/
def readShorts (specs : List (OptionSpec σ)) (settings : σ) :
    List Char → Except UsageError (Progress σ)
  | [] => .ok (.ready settings)
  | letter :: rest =>
    let option := OptionName.short letter
    match option.find? specs with
    | none => .error (.unrecognizedOption option)
    | some spec =>
      match spec.effect with
      | .flag set => readShorts specs (set settings) rest
      | .value set =>
        if rest.isEmpty then .ok (.awaiting option set settings)
        else (setValue option set (String.ofList rest) settings).map .ready

/-- Reads what follows two dashes: a name, perhaps with an equals sign and a value. -/
def readLong (specs : List (OptionSpec σ)) (settings : σ) (word : List Char) :
    Except UsageError (Progress σ) :=
  let option := OptionName.long (String.ofList (word.takeWhile (· ≠ '=')))
  match option.find? specs with
  | none => .error (.unrecognizedOption option)
  | some spec =>
    match word.dropWhile (· ≠ '='), spec.effect with
    | [], .flag set => .ok (.ready (set settings))
    | [], .value set => .ok (.awaiting option set settings)
    | _ :: _, .flag _ => .error (.unexpectedArgument option)
    | _ :: value, .value set => (setValue option set (String.ofList value) settings).map .ready

/-- Reads all words as free ones. -/
def readFree (free : String → σ → Except UsageError σ) (settings : σ) (words : List String) :
    Except UsageError σ :=
  words.foldlM (fun settings word => free word settings) settings

/-- Reads a program's words. `free` takes a free argument. -/
def readWords (specs : List (OptionSpec σ)) (free : String → σ → Except UsageError σ) :
    Progress σ → List String → Except UsageError σ
  | .ready settings, [] => .ok settings
  | .awaiting option _ _, [] => .error (.missingArgument option)
  | .awaiting option set settings, word :: rest => do
    readWords specs free (.ready (← setValue option set word settings)) rest
  | .ready settings, word :: rest =>
    match word.toList with
    | ['-', '-'] => readFree free settings rest
    | '-' :: '-' :: name => do readWords specs free (← readLong specs settings name) rest
    | '-' :: letter :: letters => do
      readWords specs free (← readShorts specs settings (letter :: letters)) rest
    | _ => do readWords specs free (.ready (← free word settings)) rest

end Chip8.CommandLine
