import PluginLint.Settings.Basic
import PluginLint.Toml.Reader

/-!
# Settings files

A settings file has a table `budget` with thresholds and a table `tokenizer` with the method of
counting. A key that is not known, and a value of the wrong kind, make the whole file invalid.
Either table may also be written as an array of its values in order, and the method as a table
whose one key is its word.
-/
namespace PluginLint

/-- The items of an array, whichever way it is written. -/
def Toml.Item.elements? : Toml.Item → Option (List Toml.Item)
  | .array items => some items
  | .tables elements => some (elements.map (.table .header))
  | _ => none

/-- A threshold: an integer of 64 bits without a sign. -/
def Toml.Item.count? : Toml.Item → Option Nat
  | .integer value => if 0 ≤ value ∧ value ≤ Natural.max then some value.toNat else none
  | _ => none

/-- Whether an item is a table or an array without contents. -/
def Toml.Item.isVoid : Toml.Item → Bool
  | .array items => items.isEmpty
  | .table _ entries => entries.isEmpty
  | .tables elements => elements.isEmpty
  | _ => false

/-- A method of counting: its word, or a table with the word as its one key and nothing in it. -/
def Toml.Item.method? : Toml.Item → Option CountingMethod
  | .string word => CountingMethod.ofWord? word
  | .table _ [(word, item)] => if item.isVoid then CountingMethod.ofWord? word else none
  | _ => none

namespace Patch

/-- Whether every key is among the known ones and every item has a value. -/
def allKnown {α : Type} (keys : List String) (value? : Toml.Item → Option α)
    (entries : Toml.Entries) : Bool :=
  entries.all fun entry => keys.any (fun key => key.toList == entry.1) && (value? entry.2).isSome

/-- The first items as values, when there are enough of them. -/
def leading? {α : Type} (count : Nat) (value? : Toml.Item → Option α)
    (items : List Toml.Item) : Option (List α) :=
  if count ≤ items.length then (items.take count).mapM value? else none

/-- The thresholds of a `budget` item. -/
def thresholds? (item : Toml.Item) : Option (Threshold → Option Nat) :=
  match item, item.elements? with
  | .table _ entries, _ =>
    if allKnown (Threshold.all.map Threshold.key) Toml.Item.count? entries then
      some fun threshold => (entries.lookup threshold.key.toList).bind Toml.Item.count?
    else none
  | _, some items =>
    (leading? Threshold.all.length Toml.Item.count? items).map fun values threshold =>
      (Threshold.all.zip values).lookup threshold
  | _, none => none

/-- The method of a `tokenizer` item, if it sets one. -/
def methodSetting? (item : Toml.Item) : Option (Option CountingMethod) :=
  match item, item.elements? with
  | .table _ entries, _ =>
    if allKnown ["method"] Toml.Item.method? entries then
      some ((entries.lookup "method".toList).bind Toml.Item.method?)
    else none
  | _, some items => (leading? 1 Toml.Item.method? items).map List.head?
  | _, none => none

/-- The patch that a settings file holds. -/
def ofEntries? (entries : Toml.Entries) : Option Patch :=
  if entries.all fun entry => entry.1 = "budget".toList || entry.1 = "tokenizer".toList then do
    let threshold ← match entries.lookup "budget".toList with
      | some item => thresholds? item
      | none => some fun _ => none
    let method ← match entries.lookup "tokenizer".toList with
      | some item => methodSetting? item
      | none => some none
    some ⟨threshold, method⟩
  else none

/-- The patch that a text holds. -/
def parse? (text : Text) : Option Patch := (Toml.parse text).bind ofEntries?

end Patch
end PluginLint
