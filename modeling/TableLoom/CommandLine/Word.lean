import TableLoom.Text.Line
import TableLoom.Text.Quoted

/-!
The words of a command line, and what each of them may be: an option, or a word that stands for itself.
-/

namespace TableLoom.CommandLine

/-- What an option does to the settings. -/
inductive Effect (σ : Type) where
  /-- Ends the reading with a description of how to call the program. -/
  | help
  /-- Ends the reading with the version of the program. -/
  | version
  | set (f : σ → σ)
  /-- Takes an argument, which may be refused. -/
  | take (f : String → σ → Option σ)

/-- An option: its names, and what it does. -/
structure Choice (σ : Type) where
  names : List String
  effect : Effect σ

namespace Choice

variable {σ : Type}

def takes (c : Choice σ) : Bool :=
  match c.effect with
  | .take _ => true
  | _ => false

def label (c : Choice σ) : String := Text.join "/" c.names

end Choice

/-- Why a command line cannot be followed. -/
inductive Complaint where
  | ambiguous (word : String) (names : List String)
  /-- An option has an argument that it does not take. -/
  | superfluous (option argument : String)
  | lacking (option : String)
  | notWhole (option argument : String)
  | unknown (place word : String) (choices : List String)
  | missing (places : List String)
  | unrecognized (words : List String)
  deriving DecidableEq

def Complaint.message : Complaint → String
  | .ambiguous word names =>
    s!"ambiguous option: {word} could match " ++ Text.join ", " names
  | .superfluous option argument =>
    s!"argument {option}: ignored explicit argument " ++ Text.quoted argument
  | .lacking option => s!"argument {option}: expected one argument"
  | .notWhole option argument =>
    s!"argument {option}: invalid int value: " ++ Text.quoted argument
  | .unknown place word choices =>
    s!"argument {place}: invalid choice: " ++ Text.quoted word ++ " (choose from "
      ++ Text.join ", " (choices.map Text.quoted) ++ ")"
  | .missing places => "the following arguments are required: " ++ Text.join ", " places
  | .unrecognized words => "unrecognized arguments: " ++ Text.join " " words

/-- An option as a word names it: under one of its names, perhaps with an argument in the same word. -/
structure Mention (σ : Type) where
  choice : Choice σ
  name : String
  argument : Option String := none
  /-- Whether the argument follows the letter of the option directly. -/
  isDirect : Bool := false

/-- What a word may be. -/
inductive Mark (σ : Type) where
  /-- The first `--`: all words behind it stand for themselves. -/
  | divider
  | plain
  /-- An option, or a word that looks like one and is none. -/
  | option (mention : Option (Mention σ))

namespace Mark

variable {σ : Type}

def isOption : Mark σ → Bool
  | .option _ => true
  | _ => false

def isDivider : Mark σ → Bool
  | .divider => true
  | _ => false

def isPlain : Mark σ → Bool
  | .plain => true
  | _ => false

end Mark

/-- A word with what it may be. -/
abbrev Item (σ : Type) := String × Mark σ

section

variable {σ : Type}

def named (choices : List (Choice σ)) (name : String) : Option (Choice σ) :=
  choices.find? (·.names.contains name)

/-- A word in two parts at its first sign of equality. -/
def atEquals (cs : List Char) : String × Option String :=
  match cs.dropWhile (· != '=') with
  | [] => (String.ofList cs, none)
  | _ :: rest => (String.ofList (cs.takeWhile (· != '=')), some (String.ofList rest))

/-- The options that a word abbreviates. Behind two dashes a name may be cut short; behind one dash
the letter of an option may be followed by its argument. -/
def abbreviated (choices : List (Choice σ)) (word : String) : List (Mention σ) :=
  let cs := word.toList
  let names := choices.flatMap fun c => c.names.map fun n => (n, c)
  let begins (s name : String) : Bool := s.toList.isPrefixOf name.toList
  if begins "--" word then
    let (start, argument) := atEquals cs
    (names.filter fun (n, _) => begins start n).map fun (n, c) => ⟨c, n, argument, false⟩
  else
    names.filterMap fun (n, c) =>
      if n.toList == cs.take 2 then some ⟨c, n, some (String.ofList (cs.drop 2)), true⟩
      else if begins word n then some ⟨c, n, none, false⟩
      else none

/-- A dash and a number. -/
def isNegative (cs : List Char) : Bool :=
  let allDigits (ds : List Char) : Bool := !ds.isEmpty && ds.all Char.isDigit
  match cs with
  | '-' :: rest =>
    allDigits rest || (match rest.dropWhile Char.isDigit with
      | '.' :: fraction => allDigits fraction
      | _ => false)
  | _ => false

/-- What a word may be, before the divider. -/
def markOf (choices : List (Choice σ)) (word : String) : Except Complaint (Mark σ) :=
  let cs := word.toList
  if cs.head? != some '-' then .ok .plain
  else match named choices word with
  | some c => .ok (.option (some ⟨c, word, none, false⟩))
  | none =>
    if cs.length == 1 then .ok .plain
    else
      let (name, argument) := atEquals cs
      match argument.bind fun _ => named choices name with
      | some c => .ok (.option (some ⟨c, name, argument, false⟩))
      | none =>
        match abbreviated choices word with
        | [mention] => .ok (.option (some mention))
        | [] => .ok (if isNegative cs || cs.contains ' ' then .plain else .option none)
        | mentions => .error (.ambiguous word (mentions.map (·.name)))

/-- All words with what they may be. -/
def markAll (choices : List (Choice σ)) : List String → Except Complaint (List (Item σ))
  | [] => .ok []
  | "--" :: rest => .ok (("--", .divider) :: rest.map fun w => (w, .plain))
  | word :: rest => do
    let mark ← markOf choices word
    return (word, mark) :: (← markAll choices rest)

end

end TableLoom.CommandLine
