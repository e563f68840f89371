import TableLoom.Yaml.Token

/-!
The nodes of a document: what its tokens are parts of. An alias stands for a copy of the node that has
its name. A node that holds itself is copied a few times over, and is empty in the innermost copy.
-/

namespace TableLoom.Yaml

inductive Node where
  | scalar (tag : Option String) (isPlain : Bool) (text : String)
  | list (tag : Option String) (items : List Node)
  | map (tag : Option String) (entries : List (Node × Node))
  /-- A copy of a node inside the node itself. -/
  | again (name : String)
  deriving Inhabited

/-- The node where nothing is written. -/
def Node.absent : Node := .scalar none true ""

/-- The beginning of the tags that this format defines itself. -/
def standardTag : String := "tag:yaml.org,2002:"

/-- The handles that need no directive. -/
def defaultHandles : List (String × String) := [("!", "!"), ("!!", standardTag)]

/-- The most levels of collections that may hold one another. -/
def deepest : Nat := 487

/-- Tokens that are not yet part of a node, the nodes that have names, the names of the nodes around,
and the number of these nodes. -/
structure Feed where
  tokens : List Token
  named : List (String × Node) := []
  open_ : List String := []
  depth : Nat := 0
  handles : List (String × String) := defaultHandles

namespace Feed

def isNext (f : Feed) (ts : List Token) : Bool := f.tokens.head?.any ts.contains

def drop (f : Feed) : Feed := { f with tokens := f.tokens.tail }

/-- Passes over a token that has to be there. -/
def expect (f : Feed) (t : Token) : Read Feed :=
  if f.isNext [t] then .ok f.drop else refuse

/-- The tag that a tag token means. -/
def meaning (f : Feed) (handle : Option String) (rest : String) : Read String :=
  match handle with
  | none => .ok rest
  | some h => orRefuse ((f.handles.lookup h).map (· ++ rest))

/-- The anchor and the tag of the node that comes next, in either order. -/
def properties (f : Feed) : Read (Option String × Option String × Feed) :=
  match f.tokens with
  | .anchor a :: .tag h r :: ts =>
    (f.meaning h r).map fun t => (some a, some t, { f with tokens := ts })
  | .tag h r :: .anchor a :: ts =>
    (f.meaning h r).map fun t => (some a, some t, { f with tokens := ts })
  | .anchor a :: ts => .ok (some a, none, { f with tokens := ts })
  | .tag h r :: ts => (f.meaning h r).map fun t => (none, some t, { f with tokens := ts })
  | _ => .ok (none, none, f)

/-- Whether a node has a name already, or is about to have it. -/
def isTaken (f : Feed) (name : String) : Bool :=
  (f.named.lookup name).isSome || f.open_.contains name

/-- The node that an alias stands for. -/
def copy (f : Feed) (name : String) : Read Node :=
  if f.open_.contains name then .ok (.again name) else orRefuse (f.named.lookup name)

def enter (f : Feed) (anchor : Option String) : Feed :=
  { f with open_ := anchor.toList ++ f.open_, depth := f.depth + 1 }

def leave (f : Feed) (anchor : Option String) (n : Node) : Feed :=
  { f with depth := f.depth - 1, open_ := f.open_.drop anchor.toList.length
           named := (anchor.toList.map fun a => (a, n)) ++ f.named }

end Feed

/-- Where a node stands: whether blocks may begin there, and whether a list may do so without being
indented. -/
structure Spot where
  block : Bool
  dashes : Bool := false

def Spot.flow : Spot := ⟨false, false⟩
def Spot.item : Spot := ⟨true, false⟩
def Spot.entry : Spot := ⟨true, true⟩

/-- Tokens before which a key or value of a block may be left out. -/
def entryStops : List Token := [.key, .value, .blockEnd]

mutual

def node (fuel : Nat) (spot : Spot) (f : Feed) : Read (Node × Feed) :=
  match fuel with
  | 0 => refuse
  | fuel + 1 =>
    match f.tokens with
    | .copy a :: _ => (f.copy a).map (·, f.drop)
    | _ => do
      let (anchor, tag, f) ← f.properties
      if anchor.any f.isTaken then refuse
      let f := f.enter anchor
      if deepest < f.depth then throw .tooDeep
      let (n, f) ← match f.tokens.head?, spot.block, spot.dashes with
        | some (.scalar isPlain text), _, _ => .ok (.scalar tag isPlain text, f.drop)
        | some .flowList, _, _ => do
          let (items, f) ← flowItems fuel true f.drop
          pure (.list tag items, f)
        | some .flowMap, _, _ => do
          let (entries, f) ← flowEntries fuel true f.drop
          pure (.map tag entries, f)
        | some .blockList, true, _ => do
          let (items, f) ← dashedItems fuel f.drop
          pure (.list tag items, ← f.expect .blockEnd)
        | some .blockMap, true, _ => do
          let (entries, f) ← blockEntries fuel f.drop
          pure (.map tag entries, ← f.expect .blockEnd)
        | some .item, _, true => do
          let (items, f) ← dashedItems fuel f
          pure (.list tag items, f)
        | _, _, _ =>
          if anchor.isSome || tag.isSome then .ok (.scalar tag true "", f) else refuse
      return (n, f.leave anchor n)

/-- Reads a node that may be left out before some tokens. -/
def nodeUnless (fuel : Nat) (stops : List Token) (spot : Spot) (f : Feed) :
    Read (Node × Feed) :=
  match fuel with
  | 0 => refuse
  | fuel + 1 => if f.isNext stops then .ok (.absent, f) else node fuel spot f

/-- Reads the value of an entry, which may be left out together with its mark. -/
def valueOf (fuel : Nat) (stops : List Token) (spot : Spot) (f : Feed) : Read (Node × Feed) :=
  match fuel with
  | 0 => refuse
  | fuel + 1 =>
    if f.isNext [.value] then nodeUnless fuel stops spot f.drop else .ok (.absent, f)

/-- The items of a list, each behind a dash. -/
def dashedItems (fuel : Nat) (f : Feed) : Read (List Node × Feed) :=
  match fuel with
  | 0 => refuse
  | fuel + 1 =>
    if f.isNext [.item] then do
      let (n, f) ← nodeUnless fuel [.item, .key, .value, .blockEnd] .item f.drop
      let (ns, f) ← dashedItems fuel f
      return (n :: ns, f)
    else .ok ([], f)

def blockEntries (fuel : Nat) (f : Feed) : Read (List (Node × Node) × Feed) :=
  match fuel with
  | 0 => refuse
  | fuel + 1 =>
    if f.isNext [.key] then do
      let (k, f) ← nodeUnless fuel entryStops .entry f.drop
      let (v, f) ← valueOf fuel entryStops .entry f
      let (es, f) ← blockEntries fuel f
      return ((k, v) :: es, f)
    else .ok ([], f)

/-- The items of a list in brackets. An entry among them is a map of its own. -/
def flowItems (fuel : Nat) (first : Bool) (f : Feed) : Read (List Node × Feed) :=
  match fuel with
  | 0 => refuse
  | fuel + 1 =>
    if f.isNext [.flowListEnd] then .ok ([], f.drop) else do
      let f ← if first then .ok f else f.expect .comma
      if f.isNext [.flowListEnd] then return ([], f.drop)
      let (n, f) ← if f.isNext [.key] then do
          let (k, f) ← nodeUnless fuel [.value, .comma, .flowListEnd] .flow f.drop
          let (v, f) ← valueOf fuel [.comma, .flowListEnd] .flow f
          .ok (Node.map none [(k, v)], f)
        else node fuel .flow f
      let (ns, f) ← flowItems fuel false f
      return (n :: ns, f)

def flowEntries (fuel : Nat) (first : Bool) (f : Feed) : Read (List (Node × Node) × Feed) :=
  match fuel with
  | 0 => refuse
  | fuel + 1 =>
    if f.isNext [.flowMapEnd] then .ok ([], f.drop) else do
      let f ← if first then .ok f else f.expect .comma
      if f.isNext [.flowMapEnd] then return ([], f.drop)
      let ((k, v), f) ← if f.isNext [.key] then do
          let (k, f) ← nodeUnless fuel [.value, .comma, .flowMapEnd] .flow f.drop
          let (v, f) ← valueOf fuel [.comma, .flowMapEnd] .flow f
          .ok ((k, v), f)
        else do
          let (k, f) ← node fuel .flow f
          .ok ((k, Node.absent), f)
      let (es, f) ← flowEntries fuel false f
      return ((k, v) :: es, f)

end

/-- The directives above a document, each at most once. -/
def directives (f : Feed) (versioned : Bool) : List Token → Read Feed
  | .directive d :: ts =>
    match d with
    | .version major _ =>
      if versioned || major != 1 then refuse else directives f true ts
    | .handle name tag =>
      if (f.handles.lookup name).isSome then refuse
      else directives { f with handles := (name, tag) :: f.handles } versioned ts
    | .other => directives f versioned ts
  | .documentStart :: ts => .ok { f with tokens := ts, handles := f.handles ++ defaultHandles }
  | _ => refuse

/-- Whether a document begins with a line of its own. -/
def isMarked : List Token → Bool
  | .directive _ :: _ => true
  | .documentStart :: _ => true
  | _ => false

def isEmptyDocument (ts : List Token) : Bool :=
  ts.isEmpty || isMarked ts || ts.head? == some .documentEnd

mutual

/-- A node with copies of the named nodes in place of those that stand inside themselves. -/
def Node.unroll (named : List (String × Node)) (copies : Nat) : Node → Node
  | .scalar tag isPlain text => .scalar tag isPlain text
  | .list tag items => .list tag (unrollItems named copies items)
  | .map tag entries => .map tag (unrollEntries named copies entries)
  | .again name =>
    match copies, named.lookup name with
    | copies + 1, some n => n.unroll named copies
    | 0, some (.map tag _) => .map tag []
    | _, _ => .list none []

def unrollItems (named : List (String × Node)) (copies : Nat) : List Node → List Node
  | [] => []
  | n :: ns => n.unroll named copies :: unrollItems named copies ns

def unrollEntries (named : List (String × Node)) (copies : Nat) :
    List (Node × Node) → List (Node × Node)
  | [] => []
  | (k, v) :: es => (k.unroll named copies, v.unroll named copies) :: unrollEntries named copies es

end

/-- How often a node that holds itself is copied. -/
def copies : Nat := 5

/-- The node of the only document that tokens hold. -/
def Node.ofTokens (tokens : List Token) : Read Node := do
  if tokens.isEmpty then return .absent
  let fuel := 4 * tokens.length + 4
  let (n, f) ← if isMarked tokens then do
      let f ← directives { tokens, handles := [] } false tokens
      if isEmptyDocument f.tokens then .ok (.absent, f) else node fuel .item f
    else node fuel .item { tokens }
  if f.tokens.all (· == .documentEnd) then return n.unroll f.named copies else refuse

end TableLoom.Yaml
