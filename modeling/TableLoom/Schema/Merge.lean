import TableLoom.Schema.Registry

/-!
One table out of all contributions to it. No two fragments may declare the same field; an alter takes
the place of the field that it names, and the last alter of a name is the one that stays.
-/

namespace TableLoom.Schema

/-- Why the contributions make no table. -/
inductive MergeError where
  | malformed (error : FragmentError)
  /-- A field that two fragments declare, with the fragments. -/
  | declaredTwice (table field : String) (sources : List String)
  deriving DecidableEq

def MergeError.message : MergeError → String
  | .malformed e => e.message
  | .declaredTwice table field sources =>
    s!"Table '{table}': field '{field}' is declared by more than one fragment ("
      ++ Text.join ", " sources ++ "). Use 'alters' to override a field."

/-- A merged table, and the alters that name no field of it. -/
structure Merged where
  table : Table
  ignored : List Field := []

/-- A field and the fragment that declares it. -/
structure Declared where
  field : Field
  origin : String

def Fragment.declarations (f : Fragment) : List Declared :=
  f.fields.map fun field => ⟨field, sourceName f.source⟩

/-- The first field whose name an earlier one has, with the sources of both. -/
def clash? (seen : List Declared) : List Declared → Option (String × List String)
  | [] => none
  | d :: rest =>
    match seen.find? (·.field.name == d.field.name) with
    | some earlier => some (d.field.name, [earlier.origin, d.origin])
    | none => clash? (seen ++ [d]) rest

/-- The fields with an alter in the place of the one that it names. -/
def applyAlter (fields : List Field) (alter : Field) : List Field :=
  fields.map fun f => if f.name == alter.name then alter else f

/-- The record name that the first fragment with one chose. -/
def chosenName (fragments : List Fragment) : Option String :=
  fragments.findSome? fun f => f.structName.filter (!·.isEmpty)

/-- Folds the contributions into one table. -/
def Entry.merge (e : Entry) : Except MergeError Merged :=
  match e.errors with
  | error :: _ => .error (.malformed error)
  | [] =>
    let declared := e.fragments.flatMap Fragment.declarations
    match clash? [] declared with
    | some (field, sources) => .error (.declaredTwice e.table field sources)
    | none =>
      let fields := declared.map (·.field)
      let known (f : Field) : Bool := fields.any (·.name == f.name)
      let alters := e.fragments.flatMap (·.alters)
      let applied := alters.filter known
      .ok {
        table :=
          { name := e.table, structName := chosenName e.fragments
            fields := applied.foldl applyAlter fields
            relationships := e.fragments.flatMap (·.relationships)
            indexes := e.fragments.flatMap (·.indexes), alters := applied }
        ignored := alters.filter fun f => !known f }

/-- The tables in order, up to the first that cannot be made, and why it cannot. -/
def mergeEach : List Entry → List Table × Option MergeError
  | [] => ([], none)
  | e :: rest =>
    match e.merge with
    | .error error => ([], some error)
    | .ok m =>
      let (tables, stopped) := mergeEach rest
      (m.table :: tables, stopped)

/-- All tables of a registry, as far as they can be made one after the other. -/
def Registry.schemas (r : Registry) : List Table × Option MergeError :=
  mergeEach r.entries

end TableLoom.Schema
