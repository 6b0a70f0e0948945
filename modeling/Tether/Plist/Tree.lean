import Tether.Plist.Value

/-!
# Property lists as documents have them

Both written forms allow any value as the key of an entry. A `Tree` is what a document
says before its keys are looked at, and `Tree.toPlist?` is the property list it means: keys
have to be texts then, and of two entries with the same key the later one counts.

A document may be of use although something is wrong behind its value. `Reading` keeps
both facts.
-/

namespace Tether.Plist

/-- The values of a document. -/
inductive Tree where
  /-- A value whose parts, if it has any, are settled. -/
  | value (v : Plist)
  | array (items : List Tree)
  | dictionary (entries : List (Tree × Tree))

instance : Inhabited Tree := ⟨.value default⟩

namespace Tree

/-- The value of a tree without parts. -/
def asValue? : Tree → Option Plist
  | value v => some v
  | _ => none

/-- The entries of a dictionary. -/
def asDictionary? : Tree → Option (List (Tree × Tree))
  | dictionary entries => some entries
  | _ => none

/-- The text of a key. -/
def keyText? (t : Tree) : Option String :=
  t.asValue?.bind Plist.asText?

mutual

/-- The property list that a tree means. -/
def toPlist? : Tree → Option Plist
  | value v => some v
  | array items => (itemsToPlist? items).map .array
  | dictionary entries => (entriesToPlist? entries).map fun es => .dictionary (Entries.ofList es)

/-- The property lists of the items. -/
def itemsToPlist? : List Tree → Option (List Plist)
  | [] => some []
  | t :: ts => (toPlist? t).bind fun v => (itemsToPlist? ts).map (v :: ·)

/-- The entries with their keys as texts. -/
def entriesToPlist? : List (Tree × Tree) → Option (List (String × Plist))
  | [] => some []
  | (key, t) :: es =>
    key.keyText?.bind fun text =>
      (toPlist? t).bind fun v => (entriesToPlist? es).map ((text, v) :: ·)

end

end Tree

/-- What was read from a document. -/
structure Reading where
  /-- The value. -/
  root : Tree
  /-- Whether nothing is wrong behind the value. -/
  sound : Bool

/-- The property list that a document means, if nothing is wrong with it. -/
def Reading.toPlist? (r : Reading) : Option Plist :=
  if r.sound then r.root.toPlist? else none

end Tether.Plist
