import PluginLint.Number.Binary64

/-!
# JSON values

Whole numbers stay whole while they fit 64 bits, signed or not; every other number is a binary64.
The members of an object that was read are sorted by key, and of two with the same key the later
one is kept. Whether two values are the same can be decided.
-/
namespace PluginLint

inductive Json.Number where
  | whole (value : Int)
  | binary (negative : Bool) (magnitude : Binary64)
  deriving DecidableEq, Repr

inductive Json where
  | null
  | bool (value : Bool)
  | number (value : Json.Number)
  | string (value : Text)
  | array (items : List Json)
  | object (members : List (Text × Json))
  deriving Repr

namespace Json

/-- Members sorted by key, with one more; a member with the same key gives way. -/
def insertMember (key : Text) (value : Json) : List (Text × Json) → List (Text × Json)
  | [] => [(key, value)]
  | (k, v) :: rest =>
    if key < k then (key, value) :: (k, v) :: rest
    else if key = k then (key, value) :: rest
    else (k, v) :: insertMember key value rest

/-- The object with members as they are written, a later one winning over an earlier one. -/
def ofMembers (written : List (Text × Json)) : Json :=
  .object (written.foldl (fun members m => insertMember m.1 m.2 members) [])

/-- The value of a member. -/
def member? (key : Text) (members : List (Text × Json)) : Option Json := members.lookup key

def ofNat (n : Nat) : Json := .number (.whole n)

def ofString (s : String) : Json := .string s.toList

/-- A value that may be missing, shown as null. -/
def ofOption {α : Type} (f : α → Json) : Option α → Json
  | some a => f a
  | none => .null

/-! ## Equality -/

mutual

/-- Whether two values are the same. -/
def same : Json → Json → Bool
  | .null, .null => true
  | .bool a, .bool b => a == b
  | .number a, .number b => a == b
  | .string a, .string b => a == b
  | .array a, .array b => sameItems a b
  | .object a, .object b => sameMembers a b
  | _, _ => false
termination_by structural a => a

def sameItems : List Json → List Json → Bool
  | [], [] => true
  | a :: rest, b :: rest' => same a b && sameItems rest rest'
  | _, _ => false
termination_by structural items => items

def sameMember : Text × Json → Text × Json → Bool
  | (k, a), (l, b) => k == l && same a b
termination_by structural member => member

def sameMembers : List (Text × Json) → List (Text × Json) → Bool
  | [], [] => true
  | m :: rest, m' :: rest' => sameMember m m' && sameMembers rest rest'
  | _, _ => false
termination_by structural members => members

end

mutual

theorem eq_of_same : (a b : Json) → same a b = true → a = b
  | .null, .null, _ => rfl
  | .bool a, .bool b, h => by simpa [same] using h
  | .number a, .number b, h => by simpa [same] using h
  | .string a, .string b, h => by simpa [same] using h
  | .array a, .array b, h => by rw [eq_of_sameItems a b (by simpa [same] using h)]
  | .object a, .object b, h => by rw [eq_of_sameMembers a b (by simpa [same] using h)]

theorem eq_of_sameItems : (a b : List Json) → sameItems a b = true → a = b
  | [], [], _ => rfl
  | a :: rest, b :: rest', h => by
    rw [sameItems, Bool.and_eq_true] at h
    rw [eq_of_same a b h.1, eq_of_sameItems rest rest' h.2]

theorem eq_of_sameMembers : (a b : List (Text × Json)) → sameMembers a b = true → a = b
  | [], [], _ => rfl
  | (k, a) :: rest, (l, b) :: rest', h => by
    rw [sameMembers, Bool.and_eq_true, sameMember, Bool.and_eq_true, beq_iff_eq] at h
    rw [h.1.1, eq_of_same a b h.1.2, eq_of_sameMembers rest rest' h.2]

end

mutual

theorem same_self : (a : Json) → same a a = true
  | .null => rfl
  | .bool a => by simp [same]
  | .number a => by simp [same]
  | .string a => by simp [same]
  | .array a => by rw [same, sameItems_self]
  | .object a => by rw [same, sameMembers_self]

theorem sameItems_self : (a : List Json) → sameItems a a = true
  | [] => rfl
  | a :: rest => by rw [sameItems, same_self, sameItems_self, Bool.and_self]

theorem sameMembers_self : (a : List (Text × Json)) → sameMembers a a = true
  | [] => rfl
  | (k, a) :: rest => by
    rw [sameMembers, sameMember, beq_self_eq_true, same_self, sameMembers_self, Bool.and_self,
      Bool.and_self]

end

instance : DecidableEq Json := fun a b =>
  decidable_of_iff (same a b = true) ⟨eq_of_same a b, fun h => h ▸ same_self a⟩

end Json
end PluginLint
