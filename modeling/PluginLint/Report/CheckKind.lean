import PluginLint.Text.Blank
import PluginLint.Text.LetterCase

/-!
# Kinds of checks

There are five kinds of checks and they run in a fixed order. A selection names some of them,
separated by commas; however it is written, it stands for a list of kinds in that order, each once.
-/
namespace PluginLint

inductive CheckKind where
  /-- where things lie and what they are called -/
  | layout
  | manifest
  | frontmatter
  | tools
  | tokens
  deriving DecidableEq, Repr

namespace CheckKind

/-- The kinds in the order in which they run. -/
def all : List CheckKind := [.layout, .manifest, .frontmatter, .tools, .tokens]

/-- The place of a kind in that order. -/
def rank : CheckKind → Nat
  | .layout => 0
  | .manifest => 1
  | .frontmatter => 2
  | .tools => 3
  | .tokens => 4

def word : CheckKind → String
  | .layout => "structure"
  | .manifest => "manifest"
  | .frontmatter => "frontmatter"
  | .tools => "tools"
  | .tokens => "tokens"

/-- The words that name a kind. -/
def words : CheckKind → List String
  | .frontmatter => ["frontmatter", "header"]
  | .tools => ["tools", "phrase"]
  | .tokens => ["tokens", "budget"]
  | kind => [kind.word]

/-- The kind that a word names, in any case. -/
def ofText? (s : Text) : Option CheckKind :=
  all.find? fun kind => kind.words.any fun word => word.toList == Text.lowercase s

/-- Every kind is named by its own word. -/
theorem ofText?_word (kind : CheckKind) : ofText? kind.word.toList = some kind := by
  cases kind <;> decide

end CheckKind

/-- Why a selection of checks stands for none. -/
inductive SelectionError where
  | unknownCheck (name : Text)
  | unknownChecks (names : List Text)
  | nothing
  deriving DecidableEq, Repr

def SelectionError.message : SelectionError → Text
  | .unknownCheck name => "unknown check: ".toList ++ Text.lowercase name
  | .unknownChecks names =>
    "unknown checks: ".toList ++ List.intercalate [',', ' '] names ++ " (available: ".toList ++
      List.intercalate [',', ' '] (CheckKind.all.map (·.word.toList)) ++ [')']
  | .nothing => "no checks selected".toList

namespace CheckKind

/-- The kind that a word names. -/
def parse (s : Text) : Except SelectionError CheckKind :=
  match ofText? s with
  | some kind => .ok kind
  | none => .error (.unknownCheck s)

/-- Whether a selection is the word for all checks. -/
def isAll (s : Text) : Bool := (Text.trim s).map Char.toLower == "all".toList

/-- The names in a selection. -/
def names (s : Text) : List Text := ((s.splitOn ',').map Text.trim).filter (· ≠ [])

/-- Some kinds in the order in which they run, repetitions dropped. -/
def ordered (kinds : List CheckKind) : List CheckKind :=
  (kinds.mergeSort fun kind later => kind.rank ≤ later.rank).eraseReps

/-- The kinds that a selection stands for, in the order in which they run. Names that are not known
go before a selection that is empty. -/
def parseList (s : Text) : Except SelectionError (List CheckKind) :=
  if isAll s then .ok all
  else
    let unknown := (names s).filter fun name => (ofText? name).isNone
    let selected := (names s).filterMap ofText?
    if unknown ≠ [] then .error (.unknownChecks unknown)
    else if selected = [] then .error .nothing
    else .ok (ordered selected)

end CheckKind
end PluginLint
