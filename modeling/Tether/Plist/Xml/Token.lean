import Tether.Text.Utf8

/-!
# The tokens of an XML document

A document is cut into tags, the text between them, and all that carries no content:
comments, processing instructions, character data sections and the document type. An
empty element counts as an opening and a closing tag.

A document may be read although something is wrong further on, so `Token.scan` gives the
tokens up to the first fault and tells whether there is one. Bytes that are no valid text
are a fault wherever they stand.
-/

namespace Tether.Plist.Xml

/-- A piece of a document. -/
inductive Token where
  | opening (name : Bytes)
  | closing (name : Bytes)
  /-- Text as it stands in the document. -/
  | text (raw : Bytes)
  | aside
  deriving DecidableEq, Repr

/-- Blanks between the parts of a tag. -/
def isTagBlank (b : UInt8) : Bool :=
  b = 0x20 || b = 0x09 || b = 0x0A || b = 0x0D

/-- Whether a byte opens a quotation. -/
def isQuote (b : UInt8) : Bool :=
  b = 0x22 || b = 0x27

/-- The quotation one is in behind a byte: a quote opens one, and the same quote closes it. -/
def quoteBehind (quote : Option UInt8) (b : UInt8) : Option UInt8 :=
  match quote with
  | some q => if b = q then none else some q
  | none => if isQuote b then some b else none

/-- The bytes behind the first occurrence of a mark. -/
def skipPast? (mark : Bytes) : Bytes → Option Bytes
  | [] => if mark = [] then some [] else none
  | b :: bs => if mark.isPrefixOf (b :: bs) then some ((b :: bs).drop mark.length) else skipPast? mark bs

/-- The inside of a tag and the bytes behind it; `>` between quotes does not end it. -/
def cutTag? (quote : Option UInt8) : Bytes → Option (Bytes × Bytes)
  | [] => none
  | b :: bs =>
    if quote.isNone && b = 0x3E then some ([], bs)
    else (cutTag? (quoteBehind quote b) bs).map fun p => (b :: p.1, p.2)

/-- Where one is in a document type. It consists of a head, declarations between brackets
and nothing more; head and brackets may be missing. -/
inductive DoctypePlace where
  | head (quote : Option UInt8)
  /-- Between two declarations. -/
  | between
  | declaration (quote : Option UInt8)
  /-- In a comment, behind so many dashes. -/
  | comment (dashes : Nat)
  /-- In a processing instruction, behind a question mark or not. -/
  | instruction (marked : Bool)
  | tail

/-- The bytes behind a document type. -/
def skipDoctype? : DoctypePlace → Bytes → Option Bytes
  | _, [] => none
  | .head quote, b :: bs =>
    if quote.isNone && b = 0x3E then some bs
    else if quote.isNone && b = 0x5B then skipDoctype? .between bs
    else skipDoctype? (.head (quoteBehind quote b)) bs
  | .between, 0x3C :: 0x21 :: 0x2D :: 0x2D :: bs => skipDoctype? (.comment 0) bs
  | .between, 0x3C :: 0x3F :: bs => skipDoctype? (.instruction true) bs
  | .between, b :: bs =>
    if b = 0x3C then skipDoctype? (.declaration none) bs
    else if b = 0x5D then skipDoctype? .tail bs
    else skipDoctype? .between bs
  | .declaration quote, b :: bs =>
    if quote.isNone && b = 0x3E then skipDoctype? .between bs
    else skipDoctype? (.declaration (quoteBehind quote b)) bs
  | .comment dashes, b :: bs =>
    if b = 0x3E && 2 ≤ dashes then skipDoctype? .between bs
    else skipDoctype? (.comment (if b = 0x2D then dashes + 1 else 0)) bs
  | .instruction marked, b :: bs =>
    if b = 0x3E && marked then skipDoctype? .between bs
    else skipDoctype? (.instruction (b = 0x3F)) bs
  | .tail, b :: bs => if b = 0x3E then some bs else skipDoctype? .tail bs

/-- The name at the start of a tag. -/
def tagName (inside : Bytes) : Bytes :=
  inside.takeWhile fun b => !isTagBlank b

/-- A tag without its blanks at the end. -/
def trimEnd (inside : Bytes) : Bytes :=
  (inside.reverse.dropWhile isTagBlank).reverse

/-- The tokens of a tag or of an empty element. -/
def Token.ofTag (inside : Bytes) : List Token :=
  if inside.getLast? = some 0x2F then
    let name := tagName inside.dropLast
    [.opening name, .closing name]
  else [.opening (tagName inside)]

/-- The tokens at a `<`, which is already taken away, and the bytes behind them. A document
type must not be empty, and the first `>` of an instruction must not be its first byte. -/
def Token.afterAngle? (bs : Bytes) : Option (List Token × Bytes) :=
  if (Bytes.ofString "!--").isPrefixOf bs then
    (skipPast? (Bytes.ofString "-->") (bs.drop 3)).map ([.aside], ·)
  else if (Bytes.ofString "![CDATA[").isPrefixOf bs then
    (skipPast? (Bytes.ofString "]]>") (bs.drop 8)).map ([.aside], ·)
  else if (bs.take 8).map (fun b => if 0x61 ≤ b && b ≤ 0x7A then b - 0x20 else b) =
      Bytes.ofString "!DOCTYPE" then
    match (bs.drop 8).dropWhile isTagBlank with
    | 0x3E :: _ => none
    | rest => (skipDoctype? (.head none) rest).map ([.aside], ·)
  else
    match bs with
    | 0x21 :: _ => none
    | 0x3F :: 0x3E :: _ => none
    | 0x3F :: rest => (skipPast? (Bytes.ofString "?>") rest).map ([.aside], ·)
    | 0x2F :: rest => (cutTag? none rest).map fun p => ([.closing (trimEnd p.1)], p.2)
    | _ => (cutTag? none bs).map fun p => (Token.ofTag p.1, p.2)

/-- The tokens at the front of a document and the bytes behind them. -/
def Token.next? (bs : Bytes) : Option (List Token × Bytes) :=
  match bs with
  | 0x3C :: rest => Token.afterAngle? rest
  | _ => some ([.text (bs.takeWhile (· ≠ 0x3C))], bs.dropWhile (· ≠ 0x3C))

/-- The tokens up to the first fault, and whether there is none. Every token takes a byte at
least, so `fuel` for as many tokens as there are bytes is enough. -/
def Token.scanFrom (fuel : Nat) (bs : Bytes) : List Token × Bool :=
  match fuel, bs with
  | _, [] => ([], true)
  | 0, _ => ([], false)
  | fuel + 1, bs =>
    match Token.next? bs with
    | none => ([], false)
    | some (tokens, rest) =>
      let (more, sound) := Token.scanFrom fuel rest
      (tokens ++ more, sound)

/-- The tokens of a document up to its first fault, and whether there is none. A byte order
mark at the start is skipped by the caller. -/
def Token.scan (document : Bytes) : List Token × Bool :=
  let whole := Text.wholePrefix document
  let (tokens, sound) := Token.scanFrom whole.length whole
  (tokens, sound && whole.length = document.length)

end Tether.Plist.Xml
