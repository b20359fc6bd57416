import PluginLint.Text.Basic

/-!
# TOML tables

A settings text is a table of keys. A table remembers how it came to be, because that decides what
later lines may add to it: a header may give a table its own line once, a dotted key gives a value
only to a table that dotted keys made, and nothing extends a table in braces.
-/
namespace PluginLint.Toml

/-- How a table came to be. -/
inductive Origin where
  /-- it lies on the way of a longer header -/
  | implied
  /-- it has a header of its own -/
  | header
  /-- it lies on the way of a dotted key -/
  | dotted
  /-- it was written in braces -/
  | braces
  deriving DecidableEq, Repr

inductive Item where
  | integer (value : Int)
  | string (value : Text)
  /-- a truth value, a number with a fraction, a moment, or an integer without a value; no setting
  is one, so nothing is kept of it -/
  | other
  | array (items : List Item)
  | table (origin : Origin) (entries : List (Text × Item))
  /-- the tables with a header in double brackets, in order -/
  | tables (elements : List (List (Text × Item)))

abbrev Entries := List (Text × Item)

/-- Changes what stands under a key; a new key goes to the end. -/
def alter (key : Text) (f : Option Item → Option Item) : Entries → Option Entries
  | [] => (f none).map fun item => [(key, item)]
  | (k, item) :: rest =>
    if k = key then (f (some item)).map fun changed => (k, changed) :: rest
    else (alter key f rest).map ((k, item) :: ·)

/-- Changes the last of the tables with a header in double brackets. -/
def inLast (f : Entries → Option Entries) (elements : List Entries) : Option Item :=
  match elements.getLast? with
  | some last => (f last).map fun changed => .tables (elements.dropLast ++ [changed])
  | none => none

/-- Goes one step of a dotted key. The last step leads into a table of dotted keys; those before it
lead also through tables that a header implied and into the last of the tables with a header in
double brackets. -/
def throughDot (isLast : Bool) (f : Entries → Option Entries) : Option Item → Option Item
  | none => (f []).map (.table .dotted)
  | some (.table .dotted inner) => (f inner).map (.table .dotted)
  | some (.table .implied inner) => if isLast then none else (f inner).map (.table .implied)
  | some (.tables elements) => if isLast then none else inLast f elements
  | some _ => none

/-- Gives a dotted key its value. No key has two. -/
def assign (value : Item) : List Text → Entries → Option Entries
  | [], _ => none
  | [key], entries => alter key (fun found => if found.isNone then some value else none) entries
  | key :: next :: rest, entries =>
    alter key (throughDot rest.isEmpty (assign value (next :: rest))) entries

/-- Goes one step of a header: into a table that is not in braces, or into the last of the tables
with that header. -/
def throughHeader (f : Entries → Option Entries) : Option Item → Option Item
  | none => (f []).map (.table .implied)
  | some (.table .braces _) => none
  | some (.table origin inner) => (f inner).map (.table origin)
  | some (.tables elements) => inLast f elements
  | some _ => none

/-- Changes the table that a header names. -/
def inTable (f : Entries → Option Entries) : List Text → Entries → Option Entries
  | [], entries => f entries
  | key :: rest, entries => alter key (throughHeader (inTable f rest)) entries

/-- A table gets its own header. -/
def openTable (found : Option Item) : Option Item :=
  match found with
  | none => some (.table .header [])
  | some (.table .implied inner) => some (.table .header inner)
  | some _ => none

/-- One more table gets a header in double brackets. -/
def openElement (found : Option Item) : Option Item :=
  match found with
  | none => some (.tables [[]])
  | some (.tables elements) => some (.tables (elements ++ [[]]))
  | some _ => none

/-- What a line of a settings text does. -/
inductive Statement where
  | table (path : List Text)
  | element (path : List Text)
  | assign (path : List Text) (value : Item)

/-- The table of a text that is read so far, and the header that is open. -/
structure Building where
  entries : Entries
  header : List Text

/-- Carries out a statement. -/
def Building.step (b : Building) : Statement → Option Building
  | .table path =>
    (inTable (alter (path.getLastD []) openTable) path.dropLast b.entries).map (⟨·, path⟩)
  | .element path =>
    (inTable (alter (path.getLastD []) openElement) path.dropLast b.entries).map (⟨·, path⟩)
  | .assign path value => (inTable (assign value path) b.header b.entries).map (⟨·, b.header⟩)

/-- The table that statements make. -/
def build (statements : List Statement) : Option Entries :=
  (statements.foldlM Building.step ⟨[], []⟩).map (·.entries)

end PluginLint.Toml
