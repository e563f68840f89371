import TableLoom.CommandLine.Word

/-!
Command lines by their options and places. The words that stand for themselves fill the places in order:
as many places as possible are filled at once, so a place that may stay empty does so when an option
comes before its word.
-/

namespace TableLoom.CommandLine

/-- How many words a place takes. -/
inductive Need where
  | one
  | atMostOne
  /-- A word and all behind it, whatever they may be. -/
  | command
  deriving DecidableEq

/-- A place for words that stand for themselves. -/
structure Place (σ : Type) where
  name : String
  need : Need
  fill : List String → σ → σ

def Place.isRequired {σ : Type} (p : Place σ) : Bool := p.need != .atMostOne

/-- How to read a command line. -/
structure Grammar (σ : Type) where
  choices : List (Choice σ)
  places : List (Place σ)

/-- Something that a command line asks for. -/
inductive Ask (σ : Type) where
  | choose (choice : Choice σ) (argument : Option String)
  | fill (place : Place σ) (words : List String)

/-- What was read: the requests in order, words that are left over, and the places that were not
filled, or a complaint. Requests before a complaint are met nevertheless. -/
structure Parse (σ : Type) where
  asks : List (Ask σ) := []
  extras : List String := []
  places : List (Place σ) := []
  complaint : Option Complaint := none

namespace Parse

variable {σ : Type}

def before (asks : List (Ask σ)) (p : Parse σ) : Parse σ :=
  { p with asks := asks ++ p.asks }

def leaving (words : List String) (p : Parse σ) : Parse σ :=
  { p with extras := words ++ p.extras }

def refuse (c : Complaint) : Parse σ :=
  { complaint := some c }

end Parse

section

variable {σ : Type}

/-- The number of words that a place takes from the front. -/
def Need.taken? (need : Need) (items : List (Item σ)) : Option Nat :=
  let isDivider (i : Item σ) : Bool := i.2.isDivider
  let lead := (items.takeWhile isDivider).length
  match items.drop lead with
  | [] => if need == .atMostOne then some lead else none
  | item :: rest =>
    let tail := (rest.takeWhile isDivider).length
    if item.2.isPlain then
      match need with
      | .command => some items.length
      | _ => some (lead + 1 + tail)
    else if need == .atMostOne then some lead
    else none

/-- The words for a place; the divider is none of them. -/
def wordsFor (need : Need) (items : List (Item σ)) : List String :=
  let words := items.map (·.1)
  if need == .command then words else words.erase "--"

/-- Fills places from the front. -/
def fillPlaces : List (Place σ) → List (Item σ) →
    List (Ask σ) × List (Place σ) × List (Item σ)
  | [], items => ([], [], items)
  | p :: places, items =>
    match p.need.taken? items with
    | none => ([], p :: places, items)
    | some n =>
      let (asks, left, rest) := fillPlaces places (items.drop n)
      (.fill p (wordsFor p.need (items.take n)) :: asks, left, rest)

/-- What one word comes to: requests, perhaps an option that still waits for its argument, and perhaps
letters that are no options. -/
structure Expansion (σ : Type) where
  asks : List (Ask σ) := []
  last : Option (Choice σ) := none
  left : Option String := none

def Expansion.after (c : Choice σ) (e : Expansion σ) : Expansion σ :=
  { e with asks := .choose c none :: e.asks }

/-- What an option with an argument in the same word comes to. Letters that follow the letter of an
option without arguments are options too. -/
def expand (choices : List (Choice σ)) (c : Choice σ) (isDirect : Bool) (argument : List Char) :
    Except Complaint (Expansion σ) :=
  if c.takes then .ok { asks := [.choose c (some (String.ofList argument))] }
  else
    let refusal : Complaint := .superfluous c.label (String.ofList argument)
    match argument with
    | [] => .error refusal
    | x :: more =>
      if !isDirect || x == '-' then .error refusal
      else match named choices (String.ofList ['-', x]), more with
        | none, _ =>
          .ok { asks := [.choose c none], left := some (String.ofList ('-' :: x :: more)) }
        | some d, [] => .ok { asks := [.choose c none], last := some d }
        | some d, '=' :: rest => (expand choices d false rest).map (·.after c)
        | some d, y :: rest => (expand choices d true (y :: rest)).map (·.after c)

/-- What a word that mentions an option comes to. -/
def Mention.expand (choices : List (Choice σ)) (m : Mention σ) :
    Except Complaint (Expansion σ) :=
  match m.argument with
  | none => .ok { last := some m.choice }
  | some a => CommandLine.expand choices m.choice m.isDirect a.toList

/-- Reads words that are marked. -/
def Grammar.readItems (g : Grammar σ) (places : List (Place σ)) (items : List (Item σ)) :
    Parse σ :=
  if items.all fun i => !i.2.isOption then
    let (asks, left, rest) := fillPlaces places items
    { asks, places := left, extras := rest.map (·.1) }
  else
    match items with
    | [] => { places }
    | (word, .option none) :: rest => (g.readItems places rest).leaving [word]
    | (_, .option (some m)) :: rest =>
      match m.expand g.choices with
      | .error c => .refuse c
      | .ok ⟨asks, none, left⟩ => ((g.readItems places rest).leaving left.toList).before asks
      | .ok ⟨asks, some c, _⟩ =>
        if !c.takes then (g.readItems places rest).before (asks ++ [.choose c none])
        else match rest with
          | (word, .plain) :: more =>
            (g.readItems places more).before (asks ++ [.choose c (some word)])
          | _ => .refuse (.lacking c.label)
    | item :: rest =>
      let (asks, left, behind) := fillPlaces places (item :: rest)
      if behind.length ≤ rest.length then (g.readItems left behind).before asks
      else
        let isOption (i : Item σ) : Bool := i.2.isOption
        let words := item.1 :: (rest.takeWhile (!isOption ·)).map (·.1)
        ((g.readItems left (rest.dropWhile (!isOption ·))).leaving words).before asks
termination_by items.length
decreasing_by
  · exact Nat.lt_succ_self _
  · exact Nat.lt_succ_self _
  · exact Nat.lt_succ_self _
  · exact Nat.lt_succ_of_le (Nat.le_succ _)
  · exact Nat.lt_succ_of_le (by assumption)
  · exact Nat.lt_succ_of_le (List.dropWhile_suffix _).length_le

/-- How reading a command line ends. -/
inductive Reading (σ : Type) where
  | settled (settings : σ) (extras : List String)
  | help
  | version
  | refused (c : Complaint)

/-- Meets requests in order, and then deals with what is left. -/
def Parse.settle (p : Parse σ) (settings : σ) : Reading σ :=
  let rec meet (s : σ) : List (Ask σ) → Reading σ
    | [] =>
      match p.complaint, p.places.filter Place.isRequired with
      | some c, _ => .refused c
      | none, [] => .settled s p.extras
      | none, missing => .refused (.missing (missing.map (·.name)))
    | .fill place words :: rest => meet (place.fill words s) rest
    | .choose c argument :: rest =>
      match c.effect with
      | .help => .help
      | .version => .version
      | .set f => meet (f s) rest
      | .take f =>
        match f (argument.getD "") s with
        | some s => meet s rest
        | none => .refused (.notWhole c.label (argument.getD ""))
  meet settings p.asks

/-- Reads a command line. -/
def Grammar.read (g : Grammar σ) (settings : σ) (words : List String) : Reading σ :=
  match markAll g.choices words with
  | .error c => .refused c
  | .ok items => (g.readItems g.places items).settle settings

end

end TableLoom.CommandLine
