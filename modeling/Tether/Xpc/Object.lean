import Tether.Bytes
import Tether.Text.Double
import Tether.Text.Integer

/-!
# XPC objects

The values that XPC messages carry. A dictionary keeps the order in which its keys first
came; `Entries.insert` puts a value under a key that is already there in the old place.
Devices write numbers as integers of either sign or as decimal text, and the accessors
read all of these.
-/

namespace Tether

/-- A universally unique identifier: 128 bits. -/
structure Uuid where
  value : BitVec 128
  deriving DecidableEq, Repr

namespace Uuid

/-- The sixteen bytes of an identifier, the most significant first. -/
def toBytes (u : Uuid) : Bytes :=
  Bytes.ofNatBE 16 u.value.toNat

/-- The identifier with these sixteen bytes. -/
def ofBytes (bs : Bytes) : Uuid :=
  ⟨BitVec.ofNat 128 (Bytes.toNatBE bs)⟩

/-- The written form: lower case digits in groups of 8, 4, 4, 4 and 12. -/
def text (u : Uuid) : String :=
  let digits := Text.hexDigits false 32 u.value.toNat
  String.ofList (digits.take 8 ++ ['-'] ++ (digits.drop 8).take 4 ++ ['-'] ++
    (digits.drop 12).take 4 ++ ['-'] ++ (digits.drop 16).take 4 ++ ['-'] ++ digits.drop 20)

end Uuid

/-- Values under keys, in the order in which the keys first came. -/
abbrev Entries (α : Type) := List (String × α)

namespace Entries

variable {α : Type}

/-- The value under a key. -/
def get? (entries : Entries α) (key : String) : Option α :=
  List.lookup key entries

/-- Puts a value under a key: in the key's old place, or else at the end. -/
def insert (entries : Entries α) (key : String) (value : α) : Entries α :=
  match entries with
  | [] => [(key, value)]
  | (k, v) :: rest => if k = key then (k, value) :: rest else (k, v) :: insert rest key value

/-- Inserts pair by pair, so that a repeated key keeps its first place and last value. -/
def ofList (pairs : List (String × α)) : Entries α :=
  pairs.foldl (fun entries p => entries.insert p.1 p.2) []

/-- The keys, in order. -/
def keys (entries : Entries α) : List String :=
  entries.map Prod.fst

end Entries

namespace Xpc

/-- A value carried by an XPC message. -/
inductive Object where
  | bool (value : Bool)
  | int64 (value : Int64)
  | uint64 (value : UInt64)
  | double (value : Double)
  /-- A point in time, in nanoseconds since the start of 1970. -/
  | date (nanoseconds : Int)
  | data (bytes : Bytes)
  | string (text : String)
  | uuid (value : Uuid)
  | array (items : List Object)
  | dictionary (entries : List (String × Object))
  deriving Inhabited

namespace Object

/-- The entries of a dictionary. -/
def asDictionary? : Object → Option (Entries Object)
  | dictionary entries => some entries
  | _ => none

/-- The items of an array. -/
def asArray? : Object → Option (List Object)
  | array items => some items
  | _ => none

/-- The text of a string. -/
def asString? : Object → Option String
  | string text => some text
  | _ => none

/-- The value of a boolean. -/
def asBool? : Object → Option Bool
  | bool value => some value
  | _ => none

/-- A number in the range of 64 bit signed integers, however it is written. -/
def asSigned? : Object → Option Int64
  | string text => (Text.signed? (2 ^ 63) text).map Int64.ofInt
  | int64 value => some value
  | uint64 value => if value.toNat < 2 ^ 63 then some (Int64.ofNat value.toNat) else none
  | _ => none

/-- A number in the range of 64 bit unsigned integers, however it is written. -/
def asUnsigned? : Object → Option UInt64
  | string text => (Text.unsigned? (2 ^ 64) text).map UInt64.ofNat
  | uint64 value => some value
  | int64 value => if 0 ≤ value.toInt then some (UInt64.ofNat value.toInt.toNat) else none
  | _ => none

mutual

/-- Equality of values: numbers compare as numbers, dictionaries whatever their order. -/
def same : Object → Object → Bool
  | bool a, bool b => a == b
  | int64 a, int64 b => a == b
  | uint64 a, uint64 b => a == b
  | double a, double b => a.same b
  | date a, date b => a == b
  | data a, data b => a == b
  | string a, string b => a == b
  | uuid a, uuid b => a == b
  | array a, array b => sameItems a b
  | dictionary a, dictionary b => a.length == b.length && sameEntries a b
  | _, _ => false

/-- Items agree one by one. -/
def sameItems : List Object → List Object → Bool
  | [], [] => true
  | a :: as, b :: bs => same a b && sameItems as bs
  | _, _ => false

/-- Each entry of the first dictionary is in the second. -/
def sameEntries : List (String × Object) → List (String × Object) → Bool
  | [], _ => true
  | (key, a) :: rest, b =>
    (match Entries.get? b key with
      | some v => same a v
      | none => false) && sameEntries rest b

end

end Object

end Xpc

end Tether
