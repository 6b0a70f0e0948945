import Tether.Plist.Value
import Tether.Text.Base64

/-!
# Property lists written as XML

One element a line, one tab a level, the root at the margin. Binary data stands in lines
of 68 digits between the lines of its tags. Identifiers have no XML form, so a value with
one in it is not written at all (`write?_eq_none_iff`).
-/

namespace Tether.Plist.Xml

/-- What a character of text is written as. -/
def escape (c : Char) : String :=
  if c = '&' then "&amp;"
  else if c = '<' then "&lt;"
  else if c = '>' then "&gt;"
  else if c = '"' then "&quot;"
  else if c = '\'' then "&apos;"
  else String.singleton c

/-- Text with its special characters written as entities. -/
def escaped (s : String) : String :=
  String.join (s.toList.map escape)

/-- An element on one line. -/
def element (name content : String) : String :=
  "<" ++ name ++ ">" ++ content ++ "</" ++ name ++ ">"

/-- The digits of binary data in lines of 68. -/
def dataLines (bytes : Bytes) : List String :=
  (pieces 68 (Text.Base64.encode bytes)).map String.ofList

/-- The indent at a depth. -/
def tabs (depth : Nat) : String :=
  String.ofList (List.replicate depth '\t')

mutual

/-- The lines of a value. -/
def lines (depth : Nat) : Plist → List String
  | bool true => [tabs depth ++ "<true/>"]
  | bool false => [tabs depth ++ "<false/>"]
  | integer n => [tabs depth ++ element "integer" (toString n.value)]
  | real d => [tabs depth ++ element "real" d.text]
  | date ns => [tabs depth ++ element "date" (dateText ns)]
  | string text => [tabs depth ++ element "string" (escaped text)]
  | data bytes => (["<data>"] ++ dataLines bytes ++ ["</data>"]).map (tabs depth ++ ·)
  | uid _ => []
  | array [] => [tabs depth ++ "<array/>"]
  | array (v :: vs) =>
    [tabs depth ++ "<array>"] ++ (lines (depth + 1) v ++ itemLines (depth + 1) vs) ++
      [tabs depth ++ "</array>"]
  | dictionary [] => [tabs depth ++ "<dict/>"]
  | dictionary ((key, v) :: es) =>
    [tabs depth ++ "<dict>", tabs (depth + 1) ++ element "key" (escaped key)] ++
      (lines (depth + 1) v ++ entryLines (depth + 1) es) ++ [tabs depth ++ "</dict>"]

/-- The lines of the items of an array. -/
def itemLines (depth : Nat) : List Plist → List String
  | [] => []
  | v :: vs => lines depth v ++ itemLines depth vs

/-- The lines of the entries of a dictionary. -/
def entryLines (depth : Nat) : List (String × Plist) → List String
  | [] => []
  | (key, v) :: es =>
    (tabs depth ++ element "key" (escaped key)) :: (lines depth v ++ entryLines depth es)

end

/-- What stands before the value. -/
def header : String :=
  "<?xml version=\"1.0\" encoding=\"UTF-8\"?>\n" ++
  "<!DOCTYPE plist PUBLIC \"-//Apple//DTD PLIST 1.0//EN\" " ++
  "\"http://www.apple.com/DTDs/PropertyList-1.0.dtd\">\n" ++
  "<plist version=\"1.0\">\n"

/-- The document for a value. -/
def document (v : Plist) : String :=
  header ++ "\n".intercalate (lines 0 v) ++ "\n</plist>"

/-- The document for a value, unless there is an identifier in it. -/
def write? (v : Plist) : Option Bytes :=
  if v.hasUid then none else some (Bytes.ofString (document v))

theorem write?_eq_none_iff (v : Plist) : write? v = none ↔ v.hasUid = true := by
  simp [write?]

end Tether.Plist.Xml
