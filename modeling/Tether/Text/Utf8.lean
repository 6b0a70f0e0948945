import Tether.Bytes

/-!
# Text from bytes that may not be UTF-8

Names that a device sends are shown even when they are not valid UTF-8: each *maximal
broken piece* (the longest start of a character that no valid text continues) becomes one
replacement character. Valid text is left as it is (`lossy_ofString`). Documents are read
up to their first broken piece (`wholePrefix`).
-/

namespace Tether.Text

/-- Whether a byte continues a character. -/
def isContinuation (b : UInt8) : Bool :=
  0x80 ≤ b && b ≤ 0xBF

/-- The value of the low six bits of a continuation byte. -/
def continuationBits (b : UInt8) : Nat :=
  b.toNat % 64

/-- What the second byte of a character may be, given the first one of three or four. -/
def secondRange (first : UInt8) : UInt8 × UInt8 :=
  if first = 0xE0 then (0xA0, 0xBF)
  else if first = 0xED then (0x80, 0x9F)
  else if first = 0xF0 then (0x90, 0xBF)
  else if first = 0xF4 then (0x80, 0x8F)
  else (0x80, 0xBF)

/-- The character that starts with byte `b`, or nothing if it is broken, and how many of
the bytes behind `b` belong to it or to its broken piece. -/
def nextChar (b : UInt8) (rest : Bytes) : Option Char × Nat :=
  let second (c : UInt8) : Bool := (secondRange b).1 ≤ c && c ≤ (secondRange b).2
  if b < 0x80 then (some (Char.ofNat b.toNat), 0)
  else if b < 0xC2 then (none, 0)
  else if b < 0xE0 then
    match rest with
    | c :: _ =>
      if isContinuation c then (some (Char.ofNat (b.toNat % 32 * 64 + continuationBits c)), 1)
      else (none, 0)
    | [] => (none, 0)
  else if b < 0xF0 then
    match rest with
    | c :: more =>
      if second c then
        match more with
        | d :: _ =>
          if isContinuation d then
            (some (Char.ofNat (b.toNat % 16 * 4096 + continuationBits c * 64 + continuationBits d)), 2)
          else (none, 1)
        | [] => (none, 1)
      else (none, 0)
    | [] => (none, 0)
  else if b < 0xF5 then
    match rest with
    | c :: more =>
      if second c then
        match more with
        | d :: more =>
          if isContinuation d then
            match more with
            | e :: _ =>
              if isContinuation e then
                (some (Char.ofNat (b.toNat % 8 * 262144 + continuationBits c * 4096 +
                  continuationBits d * 64 + continuationBits e)), 3)
              else (none, 2)
            | [] => (none, 2)
          else (none, 1)
        | [] => (none, 1)
      else (none, 0)
    | [] => (none, 0)
  else (none, 0)

/-- The characters of a byte string, with a replacement character for each broken piece. -/
def replaced : Bytes → List Char
  | [] => []
  | b :: rest =>
    (nextChar b rest).1.getD '\ufffd' :: replaced (rest.drop (nextChar b rest).2)
termination_by bs => bs.length
decreasing_by simp only [List.length_drop, List.length_cons]; omega

/-- How many bytes there are in front of the first broken piece; `done` are counted already. -/
def wholeLength (done : Nat) : Bytes → Nat
  | [] => done
  | b :: rest =>
    match nextChar b rest with
    | (some _, more) => wholeLength (done + 1 + more) (rest.drop more)
    | (none, _) => done
termination_by bs => bs.length
decreasing_by simp only [List.length_drop, List.length_cons]; omega

/-- The bytes in front of the first broken piece. -/
def wholePrefix (bs : Bytes) : Bytes :=
  bs.take (wholeLength 0 bs)

/-- The text of a byte string, whatever its bytes are. -/
def lossy (bs : Bytes) : String :=
  match Bytes.toString? bs with
  | some s => s
  | none => String.ofList (replaced bs)

theorem lossy_ofString (s : String) : lossy (Bytes.ofString s) = s := by
  rw [lossy, Bytes.toString?_ofString]

end Tether.Text
