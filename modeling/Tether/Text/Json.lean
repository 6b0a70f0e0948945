import Tether.Bytes
import Tether.Text.Integer
import Tether.Text.Utf16

/-!
# JSON documents

A strict reader: one value with nothing but white space around it. The tree keeps only
what its users need. A number that is no plain natural number has no value, and neither has
a string whose escapes or bytes make no text; both are well formed all the same, so that
they may stand where nobody looks.
-/

namespace Tether

/-- A JSON value. -/
inductive Json where
  | null
  | bool (value : Bool)
  /-- A number, with its value if it is written as digits alone. -/
  | number (value : Option Nat)
  /-- A string, with its text if it has one. -/
  | string (text : Option String)
  | array (items : List Json)
  | object (members : List (Option String × Json))

namespace Json

/-- White space between tokens. -/
def isBlank (b : UInt8) : Bool :=
  b = 0x20 || b = 0x0A || b = 0x09 || b = 0x0D

/-- The bytes behind white space. -/
def skipBlanks (bs : Bytes) : Bytes :=
  bs.dropWhile isBlank

/-- Whether a byte is a digit. -/
def isDigit (b : UInt8) : Bool :=
  0x30 ≤ b && b ≤ 0x39

/-! ## Numbers -/

/-- The value of a run of digits. -/
def digitsValue (bs : Bytes) : Nat :=
  bs.foldl (fun n b => 10 * n + (b.toNat - 0x30)) 0

/-- A run of digits that is not empty and the bytes behind it. -/
def takeDigits? (bs : Bytes) : Option (Bytes × Bytes) :=
  let digits := bs.takeWhile isDigit
  if digits.isEmpty then none else some (digits, bs.dropWhile isDigit)

/-- The bytes behind an optional fraction, and whether there was one. -/
def takeFraction? (bs : Bytes) : Option (Bool × Bytes) :=
  match bs with
  | 0x2E :: rest => (takeDigits? rest).map fun p => (true, p.2)
  | _ => some (false, bs)

/-- The bytes behind an optional exponent, and whether there was one. -/
def takeExponent? (bs : Bytes) : Option (Bool × Bytes) :=
  match bs with
  | e :: rest =>
    if e = 0x65 || e = 0x45 then
      let rest :=
        match rest with
        | s :: more => if s = 0x2B || s = 0x2D then more else rest
        | [] => rest
      (takeDigits? rest).map fun p => (true, p.2)
    else some (false, bs)
  | [] => some (false, bs)

/-- A number without its sign. No digit may stand behind a zero in front. -/
def unsigned? (bs : Bytes) : Option (Option Nat × Bytes) := do
  let (digits, rest) ← takeDigits? bs
  if digits.head? = some 0x30 ∧ 1 < digits.length then none
  let (fraction, rest) ← takeFraction? rest
  let (exponent, rest) ← takeExponent? rest
  return (if fraction || exponent then none else some (digitsValue digits), rest)

/-! ## Strings -/

/-- A piece of a string: bytes as they stand, or a unit of sixteen bits. -/
inductive Piece where
  | byte (b : UInt8)
  | unit (u : Nat)

/-- The four hexadecimal digits of a unit and the bytes behind them. -/
def takeUnit? (bs : Bytes) : Option (Nat × Bytes) :=
  match bs with
  | a :: b :: c :: d :: rest =>
    (Text.digits? 16 Text.hexValue? ([a, b, c, d].map fun b => Char.ofNat b.toNat)).map fun u =>
      (u, rest)
  | _ => none

/-- The byte that an escape of one letter stands for. -/
def escape? (b : UInt8) : Option UInt8 :=
  if b = 0x22 || b = 0x5C || b = 0x2F then some b
  else if b = 0x62 then some 0x08
  else if b = 0x66 then some 0x0C
  else if b = 0x6E then some 0x0A
  else if b = 0x72 then some 0x0D
  else if b = 0x74 then some 0x09
  else none

/-- The pieces of a string whose opening quote is taken away, and the bytes behind its
closing quote. -/
def takePieces? (fuel : Nat) (bs : Bytes) : Option (List Piece × Bytes) :=
  match fuel, bs with
  | 0, _ => none
  | _, [] => none
  | fuel + 1, b :: rest =>
    if b = 0x22 then some ([], rest)
    else if b < 0x20 then none
    else if b = 0x5C then
      match rest with
      | 0x75 :: rest =>
        (takeUnit? rest).bind fun (u, rest) =>
          (takePieces? fuel rest).map fun p => (.unit u :: p.1, p.2)
      | c :: rest =>
        (escape? c).bind fun b => (takePieces? fuel rest).map fun p => (.byte b :: p.1, p.2)
      | [] => none
    else (takePieces? fuel rest).map fun p => (.byte b :: p.1, p.2)

/-- The bytes of a run of pieces, if the units in it pair up. `held` are units that wait for
the end of their run. -/
def pieceBytes? (held : List Nat) : List Piece → Option Bytes
  | .unit u :: ps => pieceBytes? (held ++ [u]) ps
  | .byte b :: ps => do
    let text ← Text.ofUnits? held
    return Bytes.ofString (String.ofList text) ++ b :: (← pieceBytes? [] ps)
  | [] => do
    let text ← Text.ofUnits? held
    return Bytes.ofString (String.ofList text)

/-- The text of a string, if it has one. -/
def textOf? (pieces : List Piece) : Option String :=
  (pieceBytes? [] pieces).bind Bytes.toString?

/-- A string whose opening quote is taken away. -/
def takeString? (bs : Bytes) : Option (Option String × Bytes) :=
  (takePieces? (bs.length + 1) bs).map fun p => (textOf? p.1, p.2)

/-! ## Values -/

/-- The bytes behind a word. -/
def skipWord? (word : String) (bs : Bytes) : Option Bytes :=
  let mark := Bytes.ofString word
  if mark.isPrefixOf bs then some (bs.drop mark.length) else none

mutual

/-- A value and the bytes behind it. -/
def value? (fuel : Nat) (bs : Bytes) : Option (Json × Bytes) :=
  match fuel with
  | 0 => none
  | fuel + 1 =>
    match skipBlanks bs with
    | [] => none
    | b :: rest =>
      if b = 0x22 then (takeString? rest).map fun p => (.string p.1, p.2)
      else if b = 0x5B then
        match skipBlanks rest with
        | 0x5D :: rest => some (.array [], rest)
        | rest => (items? fuel rest).map fun p => (.array p.1, p.2)
      else if b = 0x7B then
        match skipBlanks rest with
        | 0x7D :: rest => some (.object [], rest)
        | rest => (members? fuel rest).map fun p => (.object p.1, p.2)
      else if b = 0x2D then (unsigned? rest).map fun p => (.number none, p.2)
      else if isDigit b then (unsigned? (b :: rest)).map fun p => (.number p.1, p.2)
      else if b = 0x6E then (skipWord? "null" (b :: rest)).map fun rest => (.null, rest)
      else if b = 0x74 then (skipWord? "true" (b :: rest)).map fun rest => (.bool true, rest)
      else if b = 0x66 then (skipWord? "false" (b :: rest)).map fun rest => (.bool false, rest)
      else none

/-- One item of an array or more, up to the closing bracket. -/
def items? (fuel : Nat) (bs : Bytes) : Option (List Json × Bytes) :=
  match fuel with
  | 0 => none
  | fuel + 1 =>
    (value? fuel bs).bind fun (v, rest) =>
      match skipBlanks rest with
      | 0x2C :: rest => (items? fuel rest).map fun p => (v :: p.1, p.2)
      | 0x5D :: rest => some ([v], rest)
      | _ => none

/-- One member of an object or more, up to the closing brace. -/
def members? (fuel : Nat) (bs : Bytes) : Option (List (Option String × Json) × Bytes) :=
  match fuel with
  | 0 => none
  | fuel + 1 =>
    match skipBlanks bs with
    | 0x22 :: rest =>
      (takeString? rest).bind fun (key, rest) =>
        match skipBlanks rest with
        | 0x3A :: rest =>
          (value? fuel rest).bind fun (v, rest) =>
            match skipBlanks rest with
            | 0x2C :: rest => (members? fuel rest).map fun p => ((key, v) :: p.1, p.2)
            | 0x7D :: rest => some ([(key, v)], rest)
            | _ => none
        | _ => none
    | _ => none

end

/-- The value of a document. No byte is looked at by more than two of the nested readers
before it is taken, so twice the length is fuel enough. -/
def ofBytes? (bs : Bytes) : Option Json :=
  (value? (2 * bs.length + 2) bs).bind fun (v, rest) =>
    if (skipBlanks rest).isEmpty then some v else none

/-- The natural number that a value is. -/
def asNat? : Json → Option Nat
  | number value => value
  | _ => none

/-- The text that a value is. -/
def asText? : Json → Option String
  | string text => text
  | _ => none

/-- The values of the named fields of a record: an object in which each name stands exactly
once, beside any other names, or an array of just these values in order. -/
def fields? (names : List String) (v : Json) : Option (List Json) :=
  match v with
  | array items => if items.length = names.length then some items else none
  | object members =>
    if members.all fun m => m.1.isSome then
      names.mapM fun name =>
        match members.filter fun m => m.1 = some name with
        | [m] => some m.2
        | _ => none
    else none
  | _ => none

end Json

end Tether
