import TableLoom.CommandLine.Reading
import TableLoom.Log
import TableLoom.Value.Whole

/-!
The commands of the program and their settings.
-/

namespace TableLoom.CommandLine

/-- How much of the notes is shown. -/
structure Volume where
  loud : Nat := 0
  quiet : Bool := false
  deriving DecidableEq

/-- The least weight of the notes that are shown. -/
def Volume.least? (v : Volume) : Option Log.Level :=
  if v.quiet then none
  else match v.loud with
    | 0 => some .warning
    | 1 => some .info
    | _ => some .debug

/-- Settings of a package that the command line gives. -/
structure Overrides where
  output : Option String := none
  runtimePackage : Option String := none
  indentSize : Option Int := none
  docstrings : Bool := true
  relations : Bool := true
  registry : Bool := true
  manifest : Bool := true
  clean : Bool := false
  deriving DecidableEq

/-- The command that writes a package. -/
structure Generate where
  schemas : String := ""
  config : Option String := none
  overrides : Overrides := {}
  volume : Volume := {}
  deriving DecidableEq

/-- The command that examines tables and writes nothing. -/
structure Validate where
  schemas : String := ""
  config : Option String := none
  volume : Volume := {}
  deriving DecidableEq

/-- The command that writes the fragments of a database's tables. -/
structure Pull where
  schemas : String := ""
  url : Option String := none
  schema : String := "public"
  only : Option (List String) := none
  exclude : List String := []
  reportOnly : Bool := false
  volume : Volume := {}
  deriving DecidableEq

inductive Command where
  | generate (settings : Generate)
  | validate (settings : Validate)
  | pull (settings : Pull)
  deriving DecidableEq

/-- Names between commas, without the blanks around them; empty ones do not count. -/
def tableList (s : String) : List String :=
  ((Text.split ',' s).map Text.strip).filter (!·.isEmpty)

/-- The place of the directory with the fragments. -/
def schemasPlace {σ : Type} (set : String → σ → σ) : Place σ :=
  ⟨"SCHEMAS_DIR", .one, fun words => set (words.head?.getD "")⟩

def helpChoice {σ : Type} : Choice σ := ⟨["-h", "--help"], .help⟩

def textChoice {σ : Type} (names : List String) (set : String → σ → σ) : Choice σ :=
  ⟨names, .take fun a s => some (set a s)⟩

/-- The options that control how much is shown. -/
def volumeChoices {σ : Type} (change : (Volume → Volume) → σ → σ) : List (Choice σ) :=
  [⟨["-v", "--verbose"], .set (change fun v => { v with loud := v.loud + 1 })⟩,
    ⟨["-q", "--quiet"], .set (change fun v => { v with quiet := true })⟩]

namespace Generate

def override (f : Overrides → Overrides) (g : Generate) : Generate :=
  { g with overrides := f g.overrides }

def grammar : Grammar Generate where
  choices := [helpChoice, textChoice ["--config"] fun a g => { g with config := some a }]
    ++ volumeChoices (fun f g => { g with volume := f g.volume })
    ++ [textChoice ["--runtime-package"] fun a =>
          override fun o => { o with runtimePackage := some a },
        ⟨["--indent-size"], .take fun a g => (Value.wholeOfText? a).map fun n =>
          g.override fun o => { o with indentSize := some n }⟩,
        ⟨["--no-docstrings"], .set (override fun o => { o with docstrings := false })⟩,
        ⟨["--no-relations"], .set (override fun o => { o with relations := false })⟩,
        ⟨["--no-registry"], .set (override fun o => { o with registry := false })⟩,
        ⟨["--no-manifest"], .set (override fun o => { o with manifest := false })⟩,
        ⟨["--clean"], .set (override fun o => { o with clean := true })⟩]
  places := [schemasPlace fun a g => { g with schemas := a },
    ⟨"OUTPUT_DIR", .atMostOne, fun words => override fun o => { o with output := words.head? }⟩]

end Generate

def Validate.grammar : Grammar Validate where
  choices := [helpChoice, textChoice ["--config"] fun a v => { v with config := some a }]
    ++ volumeChoices (fun f v => { v with volume := f v.volume })
  places := [schemasPlace fun a v => { v with schemas := a }]

def Pull.grammar : Grammar Pull where
  choices := [helpChoice,
      textChoice ["-d", "--database-url"] fun a p => { p with url := some a },
      textChoice ["-s", "--schema"] fun a p => { p with schema := a },
      textChoice ["--include"] fun a p => { p with only := some (tableList a) },
      textChoice ["--exclude"] fun a p => { p with exclude := tableList a },
      ⟨["--report-only"], .set fun p => { p with reportOnly := true }⟩]
    ++ volumeChoices (fun f p => { p with volume := f p.volume })
  places := [schemasPlace fun a p => { p with schemas := a }]

/-- The words of a command line from its command on. -/
def commandGrammar : Grammar (List String) where
  choices := [helpChoice, ⟨["--version"], .version⟩]
  places := [⟨"COMMAND", .command, fun words _ => words⟩]

/-- What a command line asks for. -/
inductive Wish where
  | run (command : Command)
  | help
  | version
  /-- A command line that cannot be followed, with the name of what complains. -/
  | refused (program : String) (c : Complaint)
  deriving DecidableEq

/-- The name under which the program speaks. -/
def program : String := "fluentorm"

def versionLine : String := "FluentORM v0.1.0"

/-- The wish that the reading of one command's words comes to; words that neither the command nor the
program knows are complained about together. -/
def wishOf {σ : Type} (command : String) (extras : List String) (wrap : σ → Command) :
    Reading σ → Wish
  | .settled s more =>
    if (extras ++ more).isEmpty then .run (wrap s)
    else .refused program (.unrecognized (extras ++ more))
  | .help => .help
  | .version => .version
  | .refused c => .refused s!"{program} {command}" c

/-- Reads a command line. -/
def Wish.read (argv : List String) : Wish :=
  match commandGrammar.read [] argv with
  | .help => .help
  | .version => .version
  | .refused c => .refused program c
  | .settled [] _ => .refused program (.missing ["COMMAND"])
  | .settled (name :: words) extras =>
    match name with
    | "generate" => wishOf name extras .generate (Generate.grammar.read {} words)
    | "validate" => wishOf name extras .validate (Validate.grammar.read {} words)
    | "pull" => wishOf name extras .pull (Pull.grammar.read {} words)
    | _ => .refused program (.unknown "COMMAND" name ["generate", "validate", "pull"])

end TableLoom.CommandLine
