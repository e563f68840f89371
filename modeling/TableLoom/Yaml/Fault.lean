import TableLoom.Text.Quoted

/-!
Why a text has no data.
-/

namespace TableLoom.Yaml

inductive Fault where
  /-- It is not YAML, or holds something that is no plain data. -/
  | malformed
  /-- A number or moment that there is not. -/
  | impossible (reason : String)
  /-- A scalar that its tag calls a flag is none. -/
  | noFlag (text : String)
  /-- A scalar that its tag calls a moment is none. -/
  | noMoment
  /-- What its tag calls a moment is no scalar. -/
  | noScalar
  /-- A scalar that its tag calls a number is empty. -/
  | noDigits
  /-- An escape gives a code that is far too large. -/
  | farOutside
  /-- Collections hold one another too often. -/
  | tooDeep
  deriving DecidableEq

def Fault.message : Fault → String
  | .malformed => "<yaml>"
  | .impossible reason => reason
  | .noFlag text => Text.quoted text
  | .noMoment => "no moment"
  | .noScalar => "no scalar"
  | .noDigits => "string index out of range"
  | .farOutside => "Python int too large to convert to C int"
  | .tooDeep => "too deep"

/-- What reading a part of a text comes to. -/
abbrev Read := Except Fault

def refuse {α : Type} : Read α := .error .malformed

/-- Refuses where there is nothing. -/
def orRefuse {α : Type} : Option α → Read α
  | some a => .ok a
  | none => refuse

end TableLoom.Yaml
