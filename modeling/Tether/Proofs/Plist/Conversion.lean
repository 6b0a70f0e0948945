import Mathlib
import Tether.Plist.Value

/-!
# Property lists and objects say the same

Every property list is converted to an object: the numbers that it can hold are those of 64 bits,
signed or not. If it has no identifiers of the binary form in it, it comes back from the object as
it was, with its dictionaries in the same order. An object tells signed numbers from unsigned ones
and has identifiers of its own, which a property list cannot say. So it comes back *settled*: a
number is signed if it can be, and an identifier is its text. What has settled stays as it is,
however often it is converted.

* `Plist.toPlist_toXpc`: a property list comes back from an object;
* `Xpc.Object.toXpc_toPlist`: an object comes back settled;
* `Plist.converts_faithfully`: both, and that a second conversion changes nothing.
-/

namespace Tether

namespace Xpc.Object

mutual

/-- The object with each number signed that can be, and the text of each identifier in its
place. -/
def settled : Object → Object
  | bool value => .bool value
  | int64 n => .int64 n
  | uint64 n => if n.toNat < 2 ^ 63 then .int64 (Int64.ofNat n.toNat) else .uint64 n
  | double d => .double d
  | date ns => .date ns
  | data bytes => .data bytes
  | string text => .string text
  | uuid u => .string u.text
  | array items => .array (settledItems items)
  | dictionary entries => .dictionary (settledEntries entries)

/-- The items, each settled. -/
def settledItems : List Object → List Object
  | [] => []
  | o :: os => o.settled :: settledItems os

/-- The entries, each settled, in the same order. -/
def settledEntries : List (String × Object) → List (String × Object)
  | [] => []
  | (key, o) :: es => (key, o.settled) :: settledEntries es

end

end Xpc.Object

namespace Plist

/-! ### Numbers -/

namespace Integer

/-- A number comes back from an object, signed or not. -/
theorem toPlist_toXpc (n : Integer) : n.toXpc.toPlist = .integer n := by
  obtain ⟨value, lower, upper⟩ := n
  by_cases h : value < 2 ^ 63
  · have hvalue : (Int64.ofInt value).toInt = value := Int64.toInt_ofInt_of_le lower h
    simp only [toXpc, h, if_true, Xpc.Object.toPlist, ofInt64, hvalue]
  · have hvalue : ((UInt64.ofNat value.toNat).toNat : Int) = value := by
      rw [UInt64.toNat_ofNat', Nat.mod_eq_of_lt (by omega)]
      omega
    simp only [toXpc, h, if_false, Xpc.Object.toPlist, ofUInt64, hvalue]

theorem toXpc_ofInt64 (n : Int64) : (ofInt64 n).toXpc = .int64 n := by
  have h : n.toInt < 2 ^ 63 := Int64.toInt_lt n
  simp only [toXpc, ofInt64, h, if_true, Int64.ofInt_toInt]

/-- An unsigned number comes back as a signed one, if it can be one. -/
theorem toXpc_ofUInt64 (n : UInt64) : (ofUInt64 n).toXpc = (Xpc.Object.uint64 n).settled := by
  have hiff : (n.toNat : Int) < 2 ^ 63 ↔ n.toNat < 2 ^ 63 := by omega
  simp only [toXpc, ofUInt64, Xpc.Object.settled, hiff, Int64.ofInt_eq_ofNat, Int.toNat_natCast,
    UInt64.ofNat_toNat]

end Integer

/-! ### From a property list and back -/

mutual

/-- A property list comes back from an object as it was, dictionaries in the same order. -/
theorem toPlist_toXpc : ∀ v : Plist, v.hasUid = false → v.toXpc.toPlist = v
  | .bool _, _ => rfl
  | .integer n, _ => n.toPlist_toXpc
  | .real _, _ => rfl
  | .date _, _ => rfl
  | .string _, _ => rfl
  | .data _, _ => rfl
  | .uid _, h => by simp [hasUid] at h
  | .array items, h => by
    rw [toXpc, Xpc.Object.toPlist, toPlistItems_toXpcItems items h]
  | .dictionary entries, h => by
    rw [toXpc, Xpc.Object.toPlist, toPlistEntries_toXpcEntries entries h]

theorem toPlistItems_toXpcItems : ∀ items, hasUidItems items = false →
    Xpc.Object.toPlistItems (toXpcItems items) = items
  | [], _ => rfl
  | v :: vs, h => by
    rw [hasUidItems, Bool.or_eq_false_iff] at h
    rw [toXpcItems, Xpc.Object.toPlistItems, toPlist_toXpc v h.1, toPlistItems_toXpcItems vs h.2]

theorem toPlistEntries_toXpcEntries : ∀ entries, hasUidEntries entries = false →
    Xpc.Object.toPlistEntries (toXpcEntries entries) = entries
  | [], _ => rfl
  | (key, v) :: es, h => by
    rw [hasUidEntries, Bool.or_eq_false_iff] at h
    rw [toXpcEntries, Xpc.Object.toPlistEntries, toPlist_toXpc v h.1,
      toPlistEntries_toXpcEntries es h.2]

end

end Plist

/-! ### From an object and back -/

namespace Xpc.Object

mutual

/-- An object comes back from a property list settled. -/
theorem toXpc_toPlist : ∀ o : Object, o.toPlist.toXpc = o.settled
  | .bool _ => rfl
  | .int64 n => Plist.Integer.toXpc_ofInt64 n
  | .uint64 n => Plist.Integer.toXpc_ofUInt64 n
  | .double _ => rfl
  | .date _ => rfl
  | .data _ => rfl
  | .string _ => rfl
  | .uuid _ => rfl
  | .array items => by rw [toPlist, Plist.toXpc, toXpcItems_toPlistItems items, settled]
  | .dictionary entries => by
    rw [toPlist, Plist.toXpc, toXpcEntries_toPlistEntries entries, settled]

theorem toXpcItems_toPlistItems : ∀ items,
    Plist.toXpcItems (toPlistItems items) = settledItems items
  | [] => rfl
  | o :: os => by
    rw [toPlistItems, Plist.toXpcItems, toXpc_toPlist o, toXpcItems_toPlistItems os, settledItems]

theorem toXpcEntries_toPlistEntries : ∀ entries,
    Plist.toXpcEntries (toPlistEntries entries) = settledEntries entries
  | [] => rfl
  | (key, o) :: es => by
    rw [toPlistEntries, Plist.toXpcEntries, toXpc_toPlist o, toXpcEntries_toPlistEntries es,
      settledEntries]

end

mutual

/-- No object becomes an identifier of the binary form. -/
theorem hasUid_toPlist : ∀ o : Object, o.toPlist.hasUid = false
  | .bool _ => rfl
  | .int64 _ => rfl
  | .uint64 _ => rfl
  | .double _ => rfl
  | .date _ => rfl
  | .data _ => rfl
  | .string _ => rfl
  | .uuid _ => rfl
  | .array items => hasUidItems_toPlistItems items
  | .dictionary entries => hasUidEntries_toPlistEntries entries

theorem hasUidItems_toPlistItems : ∀ items, Plist.hasUidItems (toPlistItems items) = false
  | [] => rfl
  | o :: os => by
    rw [toPlistItems, Plist.hasUidItems, hasUid_toPlist o, hasUidItems_toPlistItems os,
      Bool.or_false]

theorem hasUidEntries_toPlistEntries : ∀ entries,
    Plist.hasUidEntries (toPlistEntries entries) = false
  | [] => rfl
  | (key, o) :: es => by
    rw [toPlistEntries, Plist.hasUidEntries, hasUid_toPlist o, hasUidEntries_toPlistEntries es,
      Bool.or_false]

end

/-- A settled object says the same as a property list. -/
theorem toPlist_settled (o : Object) : o.settled.toPlist = o.toPlist := by
  rw [← toXpc_toPlist, Plist.toPlist_toXpc _ o.hasUid_toPlist]

/-- What has settled stays as it is. -/
theorem settled_settled (o : Object) : o.settled.settled = o.settled := by
  rw [← toXpc_toPlist, toPlist_settled, toXpc_toPlist]

end Xpc.Object

namespace Plist

/-- A property list without identifiers is what an object says that is made of it, and an object
is, once it has settled, what is made of the property list that says the same. A second conversion
changes neither of them. -/
theorem converts_faithfully :
    (∀ v : Plist, v.hasUid = false →
      v.toXpc.toPlist = v ∧ v.toXpc.toPlist.toXpc = v.toXpc) ∧
    (∀ o : Xpc.Object,
      o.toPlist.toXpc = o.settled ∧ o.toPlist.toXpc.toPlist = o.toPlist ∧
        o.settled.settled = o.settled) := by
  refine ⟨fun v hv => ?_, fun o => ⟨o.toXpc_toPlist, ?_, o.settled_settled⟩⟩
  · have hback := toPlist_toXpc v hv
    exact ⟨hback, by rw [hback]⟩
  · rw [o.toXpc_toPlist, o.toPlist_settled]

/-- The numbers at both sides of the bound, the least one, and a NaN, in dictionaries whose keys
are not in order. -/
def layers : Plist :=
  .dictionary [("z", .array [.integer ⟨2 ^ 63 - 1, by decide, by decide⟩,
      .integer ⟨2 ^ 63, by decide, by decide⟩, .integer ⟨-2 ^ 63, by decide, by decide⟩]),
    ("a", .dictionary [("y", .real (.notANumber true)), ("", .data [])])]

/-- Unsigned numbers at both sides of the bound, and an identifier. -/
def marks : Xpc.Object :=
  .dictionary [("z", .array [.uint64 (2 ^ 63 - 1), .uint64 (2 ^ 63), .int64 (-1)]),
    ("a", .uuid ⟨7⟩)]

theorem converts_faithfully_layers :
    (layers.hasUid = false ∧ layers.toXpc.toPlist = layers ∧
      layers.toXpc.toPlist.toXpc = layers.toXpc) ∧
    marks.toPlist.toXpc =
      .dictionary [("z", .array [.int64 (2 ^ 63 - 1), .uint64 (2 ^ 63), .int64 (-1)]),
        ("a", .string "00000000-0000-0000-0000-000000000007")] := by
  have huid : layers.hasUid = false := by decide
  exact ⟨⟨huid, converts_faithfully.1 layers huid⟩,
    (converts_faithfully.2 marks).1.trans (by cbv)⟩

end Plist

end Tether
