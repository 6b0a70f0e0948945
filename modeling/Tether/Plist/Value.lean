import Tether.Text.Decimal
import Tether.Time.Calendar
import Tether.Xpc.Object

/-!
# Property lists

The values in which the services of a device talk. Whole numbers run from `-2^63` to
`2^64 - 1`, the range that both written forms can hold; the bounds are part of the type.
Identifiers (`uid`) exist in the binary form only. `Plist.tree` shows a value to people.

Property lists and XPC objects convert into each other. An identifier of either kind has
no counterpart and becomes a number or a text.
-/

namespace Tether

/-- A whole number that a property list can hold. -/
structure Plist.Integer where
  value : Int
  lower : -2 ^ 63 ≤ value := by omega
  upper : value < 2 ^ 64 := by omega
  deriving DecidableEq

namespace Plist.Integer

/-- A signed number of 64 bits. -/
def ofInt64 (n : Int64) : Integer :=
  { value := n.toInt
    lower := Int64.le_toInt n
    upper := by have := Int64.toInt_lt n; omega }

/-- An unsigned number of 64 bits. -/
def ofUInt64 (n : UInt64) : Integer :=
  { value := n.toNat
    lower := by omega
    upper := by have := n.toNat_lt; omega }

/-- A number, if it is in range. -/
def ofInt? (n : Int) : Option Integer :=
  if h : -2 ^ 63 ≤ n ∧ n < 2 ^ 64 then some ⟨n, h.1, h.2⟩ else none

/-- The number, if it is not negative. -/
def toNat? (n : Integer) : Option Nat :=
  if 0 ≤ n.value then some n.value.toNat else none

end Plist.Integer

/-- A property list. -/
inductive Plist where
  | bool (value : Bool)
  | integer (value : Plist.Integer)
  | real (value : Double)
  /-- A point in time, in nanoseconds since the start of 1970. -/
  | date (nanoseconds : Int)
  | string (text : String)
  | data (bytes : Bytes)
  | uid (value : UInt64)
  | array (items : List Plist)
  | dictionary (entries : List (String × Plist))

namespace Plist

instance : Inhabited Plist := ⟨.bool false⟩

/-- A dictionary of a property list. -/
abbrev Dictionary := Entries Plist

/-- The entries of a dictionary. -/
def asDictionary? : Plist → Option Dictionary
  | dictionary entries => some entries
  | _ => none

/-- The items of an array. -/
def asArray? : Plist → Option (List Plist)
  | array items => some items
  | _ => none

/-- The text of a string. -/
def asString? : Plist → Option String
  | string text => some text
  | _ => none

/-- The value of a boolean. -/
def asBool? : Plist → Option Bool
  | bool value => some value
  | _ => none

/-- The bytes of a data value. -/
def asData? : Plist → Option Bytes
  | data bytes => some bytes
  | _ => none

/-- A whole number that is not negative. -/
def asUnsigned? : Plist → Option Nat
  | integer n => n.toNat?
  | _ => none

/-- A whole number in the range of signed numbers of 64 bits. -/
def asSigned? : Plist → Option Int
  | integer n => if n.value < 2 ^ 63 then some n.value else none
  | _ => none

/-- The text of a date. -/
def dateText (nanoseconds : Int) : String :=
  (Time.DateTime.ofNanoseconds nanoseconds).text

/-- The text that a value gives where a text is wanted: a string, data that is UTF-8, or a
date. -/
def asText? : Plist → Option String
  | string text => some text
  | data bytes => Bytes.toString? bytes
  | date ns => some (dateText ns)
  | _ => none

/-- The number that a value gives where a number without a sign is wanted: a whole number
that is not negative, or an identifier. -/
def asCount? : Plist → Option Nat
  | integer n => n.toNat?
  | uid n => some n.toNat
  | _ => none

mutual

/-- Whether a value or one of its parts is an identifier. -/
def hasUid : Plist → Bool
  | uid _ => true
  | array items => hasUidItems items
  | dictionary entries => hasUidEntries entries
  | _ => false

/-- Whether one of the items has an identifier in it. -/
def hasUidItems : List Plist → Bool
  | [] => false
  | v :: vs => hasUid v || hasUidItems vs

/-- Whether one of the values has an identifier in it. -/
def hasUidEntries : List (String × Plist) → Bool
  | [] => false
  | (_, v) :: es => hasUid v || hasUidEntries es

end

/-! ## For people -/

/-- The indent at a depth: two blanks for each level. -/
def blanks (depth : Nat) : String :=
  String.ofList (List.replicate (2 * depth) ' ')

/-- Lines one level down, between brackets. -/
def bracketed (first last : String) (lines : List String) (depth : Nat) : String :=
  first ++ "\n" ++ ",\n".intercalate (lines.map (blanks (depth + 1) ++ ·)) ++ "\n" ++
    blanks depth ++ last

mutual

/-- A value as an indented tree. Of binary data only the size is shown. -/
def treeAt (depth : Nat) : Plist → String
  | bool value => toString value
  | integer n => toString n.value
  | real d => d.text
  | date ns => "Date(" ++ dateText ns ++ ")"
  | string text => "\"" ++ text ++ "\""
  | data bytes => "Data(" ++ toString bytes.length ++ " bytes)"
  | uid n => "Uid(" ++ toString n.toNat ++ ")"
  | array items => if items.isEmpty then "[]" else bracketed "[" "]" (itemTrees depth items) depth
  | dictionary entries => bracketed "\x7b" "\x7d" (entryTrees depth entries) depth

/-- The trees of the items, one level down. -/
def itemTrees (depth : Nat) : List Plist → List String
  | [] => []
  | v :: vs => treeAt (depth + 1) v :: itemTrees depth vs

/-- The trees of the entries, one level down. -/
def entryTrees (depth : Nat) : List (String × Plist) → List String
  | [] => []
  | (key, v) :: es => (key ++ ": " ++ treeAt (depth + 1) v) :: entryTrees depth es

end

/-- A value as an indented tree. -/
def tree (v : Plist) : String :=
  treeAt 0 v

end Plist

/-! ## XPC objects as property lists -/

mutual

/-- The property list that says the same as an XPC object. -/
def Xpc.Object.toPlist : Xpc.Object → Plist
  | bool value => .bool value
  | int64 n => .integer (.ofInt64 n)
  | uint64 n => .integer (.ofUInt64 n)
  | double d => .real d
  | date ns => .date ns
  | data bytes => .data bytes
  | string text => .string text
  | uuid u => .string u.text
  | array items => .array (toPlistItems items)
  | dictionary entries => .dictionary (toPlistEntries entries)

/-- The property lists of the items. -/
def Xpc.Object.toPlistItems : List Xpc.Object → List Plist
  | [] => []
  | o :: os => o.toPlist :: toPlistItems os

/-- The property lists under the same keys. -/
def Xpc.Object.toPlistEntries : List (String × Xpc.Object) → List (String × Plist)
  | [] => []
  | (key, o) :: es => (key, o.toPlist) :: toPlistEntries es

end

/-- A number as an XPC object: signed if it can be. -/
def Plist.Integer.toXpc (n : Plist.Integer) : Xpc.Object :=
  if n.value < 2 ^ 63 then .int64 (Int64.ofInt n.value) else .uint64 (UInt64.ofNat n.value.toNat)

mutual

/-- The XPC object that says the same as a property list. -/
def Plist.toXpc : Plist → Xpc.Object
  | bool value => .bool value
  | integer n => n.toXpc
  | real d => .double d
  | date ns => .date ns
  | string text => .string text
  | data bytes => .data bytes
  | uid n => .uint64 n
  | array items => .array (toXpcItems items)
  | dictionary entries => .dictionary (toXpcEntries entries)

/-- The XPC objects of the items. -/
def Plist.toXpcItems : List Plist → List Xpc.Object
  | [] => []
  | v :: vs => v.toXpc :: toXpcItems vs

/-- The XPC objects under the same keys. -/
def Plist.toXpcEntries : List (String × Plist) → List (String × Xpc.Object)
  | [] => []
  | (key, v) :: es => (key, v.toXpc) :: toXpcEntries es

end

end Tether
