import TableLoom.Value.Literal
import TableLoom.Text.Line
import TableLoom.Text.Utf8

/-!
Checking data against a shape. Every flaw is reported with the path that leads to it, in the order in
which the parts of the shape are declared.
-/

namespace TableLoom.Check

/-- A step into data: under a key or at a place of a list. -/
inductive Step where
  | key (name : String)
  | index (i : Nat)
  | number (n : Int)
  deriving DecidableEq

/-- What is wrong with a value. -/
inductive Flaw where
  | missing
  | unexpected
  | badKey
  | notText
  | unreadableText
  | tooShort
  | notBool
  | unreadableBool
  | notInt
  | unreadableInt
  | fractional
  | oversized
  | notFinite
  | notFloat
  | unreadableFloat
  | notUuid
  | below (least : Int)
  | above (most : Int)
  | notList
  | emptyList
  | notOneOf (names : List String)
  | notRecord (label : String)
  | refused (reason : String)
  deriving DecidableEq

/-- Names in quotes, the last one behind an `or`. -/
def alternatives : List String → String
  | [] => ""
  | [a] => Text.quoted a
  | [a, b] => Text.quoted a ++ " or " ++ Text.quoted b
  | a :: rest => Text.quoted a ++ ", " ++ alternatives rest

def Flaw.message : Flaw → String
  | .missing => "Field required"
  | .unexpected => "Extra inputs are not permitted"
  | .badKey => "Keys should be strings"
  | .notText => "Input should be a valid string"
  | .unreadableText =>
    "Input should be a valid string, unable to parse raw data as a unicode string"
  | .tooShort => "String should have at least 1 character"
  | .notBool => "Input should be a valid boolean"
  | .unreadableBool => "Input should be a valid boolean, unable to interpret input"
  | .notInt => "Input should be a valid integer"
  | .unreadableInt => "Input should be a valid integer, unable to parse string as an integer"
  | .fractional => "Input should be a valid integer, got a number with a fractional part"
  | .oversized => "Unable to parse input string as an integer, exceeded maximum size"
  | .notFinite => "Input should be a finite number"
  | .notFloat => "Input should be a valid number"
  | .unreadableFloat => "Input should be a valid number, unable to parse string as a number"
  | .notUuid => "Input should be a valid UUID"
  | .below least => s!"Input should be greater than or equal to {least}"
  | .above most => s!"Input should be less than or equal to {most}"
  | .notList => "Input should be a valid list"
  | .emptyList => "List should have at least 1 item after validation, not 0"
  | .notOneOf names => "Input should be " ++ alternatives names
  | .notRecord label => s!"Input should be a valid dictionary or instance of {label}"
  | .refused reason => "Value error, " ++ reason

/-- The short name of a flaw. -/
def Flaw.code : Flaw → String
  | .missing => "missing"
  | .unexpected => "extra_forbidden"
  | .badKey => "invalid_key"
  | .notText => "string_type"
  | .unreadableText => "string_unicode"
  | .tooShort => "string_too_short"
  | .notBool => "bool_type"
  | .unreadableBool => "bool_parsing"
  | .notInt => "int_type"
  | .unreadableInt => "int_parsing"
  | .fractional => "int_from_float"
  | .oversized => "int_parsing_size"
  | .notFinite => "finite_number"
  | .notFloat => "float_type"
  | .unreadableFloat => "float_parsing"
  | .notUuid => "uuid_parsing"
  | .below _ => "greater_than_equal"
  | .above _ => "less_than_equal"
  | .notList => "list_type"
  | .emptyList => "too_short"
  | .notOneOf _ => "enum"
  | .notRecord _ => "model_type"
  | .refused _ => "value_error"

/-- A flaw and the path to it. -/
structure Issue where
  path : List Step
  flaw : Flaw
  deriving DecidableEq

/-- A value that fits its shape, or all that keeps it from fitting. -/
inductive Checked (α : Type) where
  | fits (a : α)
  | flawed (issues : List Issue)

namespace Checked

def flaw {α : Type} (f : Flaw) : Checked α :=
  .flawed [⟨[], f⟩]

def issues {α : Type} : Checked α → List Issue
  | .fits _ => []
  | .flawed is => is

def value? {α : Type} : Checked α → Option α
  | .fits a => some a
  | .flawed _ => none

def map {α β : Type} (f : α → β) : Checked α → Checked β
  | .fits a => .fits (f a)
  | .flawed is => .flawed is

/-- Applies what fits; otherwise the flaws of the first stand before those of the second. -/
def seq {α β : Type} (f : Checked (α → β)) (a : Checked α) : Checked β :=
  match f, a with
  | .fits f, .fits a => .fits (f a)
  | .fits _, .flawed is => .flawed is
  | .flawed is, a => .flawed (is ++ a.issues)

instance : Applicative Checked where
  pure := .fits
  map := map
  seq f a := seq f (a ())

/-- Goes on with a value that fits. -/
def andThen {α β : Type} (a : Checked α) (f : α → Checked β) : Checked β :=
  match a with
  | .fits a => f a
  | .flawed is => .flawed is

/-- Puts a step in front of every path. -/
def under {α : Type} (s : Step) : Checked α → Checked α
  | .fits a => .fits a
  | .flawed is => .flawed (is.map fun i => { i with path := s :: i.path })

end Checked

/-- A part of a shape under one of its names; the first name that is present counts. -/
def part {α : Type} (entries : List (Value × Value)) (name : String) (read : Value → Checked α) :
    Checked α :=
  match Value.find? name entries with
  | some v => (read v).under (.key name)
  | none => (Checked.flaw .missing).under (.key name)

def partOr {α : Type} (entries : List (Value × Value)) (name : String) (default : α)
    (read : Value → Checked α) : Checked α :=
  match Value.find? name entries with
  | some v => (read v).under (.key name)
  | none => .fits default

/-- Whether a whole number fits in sixty-four bits with a sign. -/
def isMachineInt (n : Int) : Bool :=
  -9223372036854775808 ≤ n && n ≤ 9223372036854775807

def keyStep : Value → Step
  | .text k => .key k
  | .int n =>
    if isMachineInt n then .number n
    else .key (if Decimal.isWritable n then toString n else "<unprintable int object>")
  | .bool b => .number (if b then 1 else 0)
  | v => .key v.literal

/-- Every key that the shape does not know is a flaw. -/
def noOthers (known : List String) (entries : List (Value × Value)) : Checked Unit :=
  let strange := entries.filterMap fun (k, _) =>
    match k with
    | .text name => if known.contains name then none else some ⟨[.key name], Flaw.unexpected⟩
    | k => some ⟨[keyStep k], Flaw.badKey⟩
  if strange.isEmpty then .fits () else .flawed strange

/-- A map whose entries fit. -/
def record {α : Type} (label : String) (read : List (Value × Value) → Checked α) (v : Value) :
    Checked α :=
  match v with
  | .map entries => read entries
  | _ => .flaw (.notRecord label)

/-- The items of a list, checked one by one. -/
def items {α : Type} (read : Value → Checked α) (i : Nat) : List Value → Checked (List α)
  | [] => .fits []
  | v :: rest => (· :: ·) <$> (read v).under (.index i) <*> items read (i + 1) rest

def list {α : Type} (read : Value → Checked α) : Value → Checked (List α)
  | .list vs | .set vs => items read 0 vs
  | _ => .flaw .notList

/-- Nothing, or a value that fits. -/
def optional {α : Type} (read : Value → Checked α) : Value → Checked (Option α)
  | .null => .fits none
  | v => some <$> read v

/-- The text of a text, or of bytes that hold one. -/
def spelling? : Value → Option String
  | .text s => some s
  | .bytes b => Text.Utf8.decode? b
  | _ => none

/-- One of several names. -/
def oneOf {α : Type} (all : List α) (name : α → String) (v : Value) : Checked α :=
  match all.find? (fun a => some (name a) == spelling? v) with
  | some a => .fits a
  | none => .flaw (.notOneOf (all.map name))

end TableLoom.Check
