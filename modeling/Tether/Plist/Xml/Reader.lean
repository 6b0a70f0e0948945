import Tether.Plist.Tree
import Tether.Plist.Xml.Token
import Tether.Text.Base64

/-!
# Property lists read from XML

The tokens of a document become *events* (a value without parts, the start of a
collection, its end), and these are put together to a tree. A dictionary takes keys in turn
with values. There has to be exactly one value.

Reading goes: `Token.scan`, `events`, `firstTree?`. Each stage stops at the first fault, so
that a value in front of it is found.
-/

namespace Tether.Plist.Xml

/-- What an element contributes to a value. -/
inductive Event where
  | scalar (value : Plist)
  | openArray
  | openDictionary
  | close

/-! ## Text -/

/-- The characters that count as white space. -/
def isWhite (c : Char) : Bool :=
  let n := c.toNat
  (9 ≤ n && n ≤ 13) || n = 0x20 || n = 0x85 || n = 0xA0 || n = 0x1680 ||
    (0x2000 ≤ n && n ≤ 0x200A) || n = 0x2028 || n = 0x2029 || n = 0x202F || n = 0x205F || n = 0x3000

/-- The character with a number, which is not zero. -/
def charOf? (n : Nat) : Option Char :=
  if 0 < n ∧ n.isValidChar then some (Char.ofNat n) else none

/-- What stands for a reference, given by the text between `&` and `;`. A name that is not
known stands for nothing; a number has to be that of a character. -/
def reference? (name : List Char) : Option (Option Char) :=
  match name with
  | '#' :: 'x' :: digits => ((Text.digits? 16 Text.hexValue? digits).bind charOf?).map some
  | '#' :: digits => ((Text.natural? digits).bind charOf?).map some
  | _ =>
    match String.ofList name with
    | "amp" => some (some '&')
    | "lt" => some (some '<')
    | "gt" => some (some '>')
    | "quot" => some (some '"')
    | "apos" => some (some '\'')
    | _ => some none

/-- Resolves the references in a text; each one gives a character or nothing. `done` is the
text so far and `name` the reference being read, both latest character first. -/
def resolve? (done : List (Option Char)) (name : Option (List Char)) :
    List Char → Option (List (Option Char))
  | [] => if name.isNone then some done.reverse else none
  | c :: cs =>
    match name with
    | none => if c = '&' then resolve? done (some []) cs else resolve? (some c :: done) none cs
    | some name =>
      if c = ';' then
        match reference? name.reverse with
        | some d => resolve? (d :: done) none cs
        | none => none
      else if c = '&' then none
      else resolve? done (some (c :: name)) cs

/-- The text of a piece of a document. -/
def content? (raw : Bytes) : Option (List (Option Char)) :=
  (Bytes.toString? raw).bind fun s => resolve? [] none s.toList

/-! ## Elements -/

/-- A name without the part up to its first colon. -/
def localName (name : Bytes) : Bytes :=
  if name.contains 0x3A then (name.dropWhile (· ≠ 0x3A)).drop 1 else name

/-- The digits behind any number of hexadecimal marks. -/
def dropHexMarks : List Char → List Char
  | '0' :: 'x' :: cs => dropHexMarks cs
  | cs => cs

/-- Reads a whole number: signed if it fits, else unsigned, or hexadecimal. -/
def integer? (s : String) : Option Plist.Integer :=
  match s.toList with
  | '0' :: 'x' :: cs =>
    let digits :=
      match dropHexMarks cs with
      | '+' :: cs => cs
      | cs => cs
    ((Text.digits? 16 Text.hexValue? digits).filter (· < 2 ^ 64)).bind fun n => Integer.ofInt? n
  | _ =>
    match Text.signed? (2 ^ 63) s with
    | some n => Integer.ofInt? n
    | none => (Text.unsigned? (2 ^ 64) s).bind fun n => Integer.ofInt? n

/-- The white space that may stand between the digits of binary data. -/
def isDataBlank (c : Char) : Bool :=
  c = ' ' || c = '\t' || c = '\n' || c = '\r' || c = '\x0c'

/-- What an element stands for, by its name. -/
inductive Kind where
  /-- The element around the value, which adds nothing to it. -/
  | wrapper
  | array
  | dictionary
  /-- A value that needs no text. -/
  | plain (value : Plist)
  /-- A value read from the text of the element. -/
  | ofText (read : String → Option Plist)

/-- The kind of the element with a name. -/
def kind? (name : Bytes) : Option Kind :=
  match Bytes.toString? (localName name) with
  | some "plist" => some .wrapper
  | some "array" => some .array
  | some "dict" => some .dictionary
  | some "true" => some (.plain (.bool true))
  | some "false" => some (.plain (.bool false))
  | some "key" | some "string" => some (.ofText fun s => some (.string s))
  | some "integer" => some (.ofText fun s => (integer? s).map .integer)
  | some "real" => some (.ofText fun s => (Double.ofText? s).map .real)
  | some "date" => some (.ofText fun s => (Time.ofText? s).map .date)
  | some "data" =>
    some (.ofText fun s =>
      (Text.Base64.decode? (s.toList.filter fun c => !isDataBlank c)).map .data)
  | _ => none

/-- What a closing tag contributes. -/
def closingEvents (name : Bytes) : List Event :=
  match kind? name with
  | some .array | some .dictionary => [.close]
  | _ => []

/-- What is being read: the names of the open elements, innermost first, and the text so far
if the innermost one wants text. -/
structure Position where
  enclosing : List Bytes := []
  reading : Option ((String → Option Plist) × List Char) := none

/-- Takes one token. -/
def Position.step? (p : Position) (t : Token) : Option (List Event × Position) :=
  match p.reading, t with
  | _, .aside => some ([], p)
  | some (read, text), .text raw =>
    (content? raw).map fun more =>
      ([], { p with reading := some (read, text ++ more.filterMap id) })
  | some (read, text), .closing name =>
    match p.enclosing with
    | top :: rest =>
      if top = name then
        (read (String.ofList text)).map fun v => ([.scalar v], { enclosing := rest })
      else none
    | [] => none
  | some _, .opening _ => none
  | none, .text raw =>
    (content? raw).bind fun text => if text.all (·.any isWhite) then some ([], p) else none
  | none, .closing name =>
    match p.enclosing with
    | top :: rest => if top = name then some (closingEvents name, { enclosing := rest }) else none
    | [] => none
  | none, .opening name =>
    (kind? name).map fun kind =>
      let inside : Position := { enclosing := name :: p.enclosing }
      match kind with
      | .wrapper => ([], inside)
      | .array => ([.openArray], inside)
      | .dictionary => ([.openDictionary], inside)
      | .plain v => ([.scalar v], inside)
      | .ofText read => ([], { inside with reading := some (read, []) })

/-- The events of a row of tokens up to the first fault, and whether there is none. A
document may end inside an element that needs no text. -/
def events (p : Position) : List Token → List Event × Bool
  | [] => ([], p.reading.isNone)
  | t :: ts =>
    match p.step? t with
    | none => ([], false)
    | some (es, p) =>
      let (more, sound) := events p ts
      (es ++ more, sound)

/-! ## Assembly -/

/-- A collection that is not complete yet. -/
inductive Frame where
  /-- The items so far, latest first. -/
  | array (items : List Tree)
  /-- The entries so far, latest first, and the key that waits for its value. -/
  | dictionary (entries : List (Tree × Tree)) (key : Option Tree)

/-- How far a value has come: some collections are open, innermost first, or it is there. -/
inductive Assembly where
  | underway (frames : List Frame)
  | finished (root : Tree)

namespace Assembly

/-- Puts a value into the innermost open collection; without one it is the root. -/
def put (t : Tree) : List Frame → Assembly
  | [] => .finished t
  | .array items :: rest => .underway (.array (t :: items) :: rest)
  | .dictionary entries none :: rest => .underway (.dictionary entries (some t) :: rest)
  | .dictionary entries (some key) :: rest => .underway (.dictionary ((key, t) :: entries) none :: rest)

/-- Takes one event. A dictionary cannot end behind a key. -/
def step? (frames : List Frame) (e : Event) : Option Assembly :=
  match e with
  | .scalar v => some (put (.value v) frames)
  | .openArray => some (.underway (.array [] :: frames))
  | .openDictionary => some (.underway (.dictionary [] none :: frames))
  | .close =>
    match frames with
    | .array items :: rest => some (put (.array items.reverse) rest)
    | .dictionary entries none :: rest => some (put (.dictionary entries.reverse) rest)
    | _ => none

end Assembly

/-- The first value that events describe, and the events behind it. -/
def firstTree? (frames : List Frame) : List Event → Option (Tree × List Event)
  | [] => none
  | e :: es =>
    match Assembly.step? frames e with
    | none => none
    | some (.finished root) => some (root, es)
    | some (.underway frames) => firstTree? frames es

/-- A document without a byte order mark at its start. -/
def dropByteOrderMark : Bytes → Bytes
  | 0xEF :: 0xBB :: 0xBF :: rest => rest
  | bs => bs

/-- Reads a document. A second value is wrong like any other fault. -/
def read? (bs : Bytes) : Option Reading :=
  let (tokens, tokensSound) := Token.scan (dropByteOrderMark bs)
  let (events, eventsSound) := events {} tokens
  (firstTree? [] events).map fun (root, rest) =>
    { root, sound := tokensSound && eventsSound && rest.isEmpty }

end Tether.Plist.Xml
