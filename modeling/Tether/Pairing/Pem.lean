import Tether.Text.Base64
import Tether.Text.Integer

/-!
# PEM sections

Certificates and keys in a pairing record are texts: a line that begins a section, lines
of base 64, a line that ends it. What stands outside of sections is ignored, sections of
unknown labels are skipped unread, and `Pem.find?` gives the first section of a wanted
label. The base 64 here is lenient: blanks are skipped, and the padding at the end may be
missing.
-/

namespace Tether.Pem

/-- The labels of sections that are read. -/
inductive Label where
  | certificate
  | publicKey
  | rsaPrivateKey
  | privateKey
  | ecPrivateKey
  | revocationList
  | certificateRequest
  | encryptedHelloConfig
  deriving DecidableEq, Repr

/-- The text of a label. -/
def Label.text : Label → String
  | certificate => "CERTIFICATE"
  | publicKey => "PUBLIC KEY"
  | rsaPrivateKey => "RSA PRIVATE KEY"
  | privateKey => "PRIVATE KEY"
  | ecPrivateKey => "EC PRIVATE KEY"
  | revocationList => "X509 CRL"
  | certificateRequest => "CERTIFICATE REQUEST"
  | encryptedHelloConfig => "ECHCONFIG"

/-- Every label. -/
def Label.all : List Label :=
  [certificate, publicKey, rsaPrivateKey, privateKey, ecPrivateKey, revocationList,
    certificateRequest, encryptedHelloConfig]

/-- The label with a text. -/
def Label.ofBytes? (bs : Bytes) : Option Label :=
  all.find? fun label => Bytes.ofString label.text = bs

/-- Why base 64 could not be read. -/
inductive DigitFault where
  | invalidCharacter (byte : UInt8)
  | prematurePadding
  | invalidTrailingPadding
  deriving DecidableEq, Repr

/-- The words for it. -/
def DigitFault.text : DigitFault → String
  | invalidCharacter byte => "InvalidCharacter(" ++ toString byte.toNat ++ ")"
  | prematurePadding => "PrematurePadding"
  | invalidTrailingPadding => "InvalidTrailingPadding"

/-- Why there is no item. -/
inductive Fault where
  | missingSectionEnd (label : Bytes)
  | illegalSectionStart (line : Bytes)
  | badDigits (fault : DigitFault)
  | noItems
  deriving DecidableEq, Repr

/-- A byte string as a list of numbers. -/
def numbersText (bs : Bytes) : String :=
  "[" ++ ", ".intercalate (bs.map fun b => toString b.toNat) ++ "]"

/-- The words for a fault. -/
def Fault.text : Fault → String
  | missingSectionEnd label => "missing section end marker: " ++ numbersText label
  | illegalSectionStart line => "illegal section start: " ++ numbersText line
  | badDigits fault => "base64 decode error: " ++ fault.text
  | noItems => "no items found"

/-! ## Lenient base 64 -/

/-- A digit, or nothing for padding. -/
def digit? (b : UInt8) : Except DigitFault (Option Nat) :=
  if b = 0x3D then .ok none
  else
    match Text.Base64.value? (Char.ofNat b.toNat) with
    | some n => .ok (some n)
    | none => .error (.invalidCharacter b)

/-- The blanks between digits. -/
def isBlank (b : UInt8) : Bool :=
  (0x09 ≤ b && b ≤ 0x0D) || b = 0x20

/-- The three bytes of four digits, padding counting as zero. -/
def groupBytes (group : List (Option Nat)) : Bytes :=
  let bits := group.map (·.getD 0)
  Text.Base64.decodeThree (bits.getD 0 0) (bits.getD 1 0) (bits.getD 2 0) (bits.getD 3 0)

/-- The bytes of at most four digits at the end of the text. -/
def lastGroup (group : List (Option Nat)) : Except DigitFault Bytes :=
  match group with
  | [] => .ok []
  | [some _, some _] | [some _, some _, none, none] => .ok ((groupBytes group).take 1)
  | [some _, some _, some _] | [some _, some _, some _, none] => .ok ((groupBytes group).take 2)
  | [some _, some _, some _, some _] => .ok (groupBytes group)
  | _ => .error .invalidTrailingPadding

/-- The bytes of at most eight digits at the end of the text. -/
def lastBlock (block : List (Option Nat)) : Except DigitFault Bytes :=
  if block.length ≤ 4 then lastGroup block
  else if (block.take 4).contains none then .error .prematurePadding
  else (lastGroup (block.drop 4)).map (groupBytes (block.take 4) ++ ·)

/-- Reads digits without blanks, eight at a time. Padding inside is noticed when the first
digit behind its block has been read. -/
def decodeDigits (bs : Bytes) : Except DigitFault Bytes := do
  let block ← (bs.take 8).mapM digit?
  match _h : bs.drop 8 with
  | [] => lastBlock block
  | b :: rest =>
    let _ ← digit? b
    if block.contains none then throw .prematurePadding
    let more ← decodeDigits (b :: rest)
    return groupBytes (block.take 4) ++ groupBytes (block.drop 4) ++ more
termination_by bs.length
decreasing_by
  have hlen : (bs.drop 8).length = rest.length + 1 := by rw [_h]; rfl
  simp only [List.length_drop] at hlen
  simp only [List.length_cons]
  omega

/-- The bytes of a section's text. -/
def decode (bs : Bytes) : Except DigitFault Bytes :=
  decodeDigits (bs.filter fun b => !isBlank b)

/-! ## Sections -/

/-- The lines of a text; each line feed and each carriage return ends one. -/
def lines : Bytes → List Bytes
  | [] => []
  | b :: bs =>
    if b = 0x0A ∨ b = 0x0D then [] :: lines bs
    else
      match bs, lines bs with
      | _ :: _, line :: rest => (b :: line) :: rest
      | _, rest => [b] :: rest

/-- What begins the first line of a section. -/
def beginMark : Bytes := Bytes.ofString "-----BEGIN "

/-- The label of a line that begins a section: what stands between the mark and exactly
five dashes at the end, not counting blanks among them. -/
def sectionLabel? (line : Bytes) : Except Fault Bytes :=
  let trailer := line.reverse.takeWhile fun b => b = 0x2D || b = 0x20
  let dashes := trailer.filter (· = 0x2D)
  if dashes.length = 5 then
    let blanks := (trailer.reverse.takeWhile (· = 0x20)).length
    .ok ((line.take (line.length - trailer.length + blanks)).drop beginMark.length)
  else .error (.illegalSectionStart line)

/-- What begins the last line of a section. -/
def endMark (label : Bytes) : Bytes :=
  Bytes.ofString "-----END " ++ label ++ Bytes.ofString "-----"

/-- The content of the first section of a wanted label. `inside` is the label of the section
that the lines start in, if any, and `digits` what was collected for it. -/
def findIn (wanted : Label → Bool) (inside : Option Bytes) (digits : Bytes) :
    List Bytes → Except Fault (Label × Bytes)
  | [] =>
    match inside with
    | some label => .error (.missingSectionEnd label)
    | none => .error .noItems
  | line :: rest =>
    if beginMark.isPrefixOf line then
      match sectionLabel? line with
      | .ok label => findIn wanted (some label) digits rest
      | .error fault => .error fault
    else
      match inside with
      | none => findIn wanted none digits rest
      | some name =>
        if (endMark name).isPrefixOf line then
          match Label.ofBytes? name with
          | none => findIn wanted none [] rest
          | some label =>
            match decode digits with
            | .error fault => .error (.badDigits fault)
            | .ok content => if wanted label then .ok (label, content) else findIn wanted none [] rest
        else findIn wanted (some name) (digits ++ line) rest

/-- The first section of a wanted label. -/
def find (wanted : Label → Bool) (text : Bytes) : Except Fault (Label × Bytes) :=
  findIn wanted none [] (lines text)

/-- The first certificate. -/
def certificate (text : Bytes) : Except Fault Bytes :=
  (find (· = .certificate) text).map Prod.snd

/-- The first private key of any kind. -/
def privateKey (text : Bytes) : Except Fault (Label × Bytes) :=
  find (fun label => label = .privateKey ∨ label = .rsaPrivateKey ∨ label = .ecPrivateKey) text

/-- A section with 64 digits a line. -/
def encode (label : Label) (content : Bytes) : Bytes :=
  Bytes.ofString ("-----BEGIN " ++ label.text ++ "-----\n" ++
    String.join ((pieces 64 (Text.Base64.encode content)).map fun line => String.ofList line ++ "\n") ++
    "-----END " ++ label.text ++ "-----\n")

end Tether.Pem
