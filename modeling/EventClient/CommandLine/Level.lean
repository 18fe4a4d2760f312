import EventClient.CommandLine.Value

/-!
The words for one part of the program, its whole or a command. A setting is given by a long name,
its value by the word behind it or behind an equals sign. Words are looked at in order and the first
fault ends the reading, and so does the wish for help: what stands behind it is not looked at.
-/
namespace EventClient.CommandLine

/-- What some words give, and the command that the words behind them are for, if they name one. -/
structure Level where
  /-- The settings that were looked at, in order. -/
  given : List (Setting × String) := []
  /-- The last setting whose value is a word of its own. It is looked at when the next setting comes
  or when no more do, not when a command is named. -/
  held : Option (Setting × String) := none
  command : Option (CommandName × List String) := none
deriving Repr

namespace Level

def values (level : Level) (setting : Setting) : List String :=
  level.given.filterMap fun (other, value) => if other = setting then some value else none

def value? (level : Level) (setting : Setting) : Option String := (level.values setting).head?

def has (level : Level) (setting : Setting) : Bool := !(level.values setting).isEmpty

/-- One more setting, which must not be given twice and has to have a value that it takes. -/
def give (level : Level) (setting : Setting) (value : String) : Except Refusal Level :=
  if level.has setting && !setting.isRepeatable || !setting.accepts value then .error .malformed
  else .ok { level with given := level.given ++ [(setting, value)] }

def settle (level : Level) : Except Refusal Level :=
  match level.held with
  | none => .ok level
  | some (setting, value) => { level with held := none }.give setting value

/-- The next setting, its value attached to it. -/
def add (level : Level) (setting : Setting) (value : String) : Except Refusal Level := do
  (← level.settle).give setting value

/-- The next setting, its value in a word of its own. -/
def hold (level : Level) (setting : Setting) (value : String) : Except Refusal Level := do
  return { ← level.settle with held := some (setting, value) }

/-- The end by a setting that asks for help. -/
def help (level : Level) : Except Refusal Level := do
  let _ ← level.settle
  .error .help

/-- A word that can be no value; a lone dash can. -/
def isDashed (word : String) : Bool :=
  match word.toList with
  | '-' :: _ :: _ => true
  | _ => false

/-- A long name with the value that an equals sign attaches to it. -/
def splitName (word : String) : String × Option String :=
  let chars := word.toList.drop 2
  let name := chars.takeWhile (· != '=')
  match chars.drop name.length with
  | [] => (String.ofList name, none)
  | _ :: value => (String.ofList name, some (String.ofList value))

/-- The letters behind a single dash, each the short name of a setting. -/
def readLetters (level : Level) : List Char → Except Refusal Level
  | [] => .ok level
  | 'v' :: letters => do readLetters (← level.add .verbose "") letters
  | 'h' :: _ => level.help
  | _ => .error .malformed

/-- The command that a plain word names, which takes the words behind it. -/
def readCommand (level : Level) (nested : Bool) (word : String) (words : List String) :
    Except Refusal Level :=
  if !nested then .error .malformed
  else if word = "help" then
    match words with
    | [] => .error .help
    | [name] => if (CommandName.ofText? name).isSome || name = "help" then .error .help
                else .error .malformed
    | _ => .error .malformed
  else
    match CommandName.ofText? word with
    | some name => .ok { level with command := some (name, words) }
    | none => .error .malformed

/-- Read words up to the name of a command; `nested` tells whether a command may be named. -/
def read (settings : List Setting) (nested : Bool) (level : Level) :
    List String → Except Refusal Level
  | [] => level.settle
  | "--" :: words => if words.isEmpty then level.settle else .error .malformed
  | word :: words =>
    if word.startsWith "--" then
      match splitName word with
      | (name, attached) =>
        match settings.find? (·.name == name), attached with
        | none, attached =>
          if name = "help" ∧ attached = none then level.help else .error .malformed
        | some setting, some value =>
          if setting.takesValue then do read settings nested (← level.add setting value) words
          else .error .malformed
        | some setting, none =>
          if !setting.takesValue then do read settings nested (← level.add setting "") words
          else
            match words with
            | [] => .error .malformed
            | value :: words =>
              if isDashed value then .error .malformed
              else do read settings nested (← level.hold setting value) words
    else if isDashed word then do
      read settings nested (← level.readLetters (word.toList.drop 1)) words
    else level.readCommand nested word words

end Level

end EventClient.CommandLine
