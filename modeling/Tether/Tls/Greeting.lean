import Tether.Bytes

/-!
# How a peer greets back

A peer that goes along greets back: it chooses a version, a suite of algorithms, and
answers to some of the extensions that it was offered. `Greeting.acceptable` says which
greetings in the older version are taken.
-/

namespace Tether.Tls

/-- The greeting of a peer. -/
structure Greeting where
  version : Nat
  random : Bytes
  suite : Nat
  compression : UInt8
  /-- Kinds and contents. -/
  extensions : List (Nat × Bytes)

namespace Greeting

/-- The bytes that follow a count of so many bytes, and what is behind them. -/
def takeCounted? (width : Nat) (bs : Bytes) : Option (Bytes × Bytes) :=
  let count := Bytes.toNatBE (bs.take width)
  let rest := bs.drop width
  if width ≤ bs.length ∧ count ≤ rest.length then some (rest.take count, rest.drop count) else none

/-- The extensions that a content consists of; each takes four bytes at least, so `fuel` for
as many as there are bytes is enough. -/
def extensions? (fuel : Nat) (bs : Bytes) : Option (List (Nat × Bytes)) :=
  match fuel, bs with
  | _, [] => some []
  | 0, _ => none
  | fuel + 1, bs =>
    (takeCounted? 2 (bs.drop 2)).bind fun (content, rest) =>
      (extensions? fuel rest).map ((Bytes.toNatBE (bs.take 2), content) :: ·)

/-- Reads a greeting. There may be nothing behind the compression. -/
def ofBytes? (bs : Bytes) : Option Greeting := do
  let (session, rest) ← takeCounted? 1 (bs.drop 34)
  if bs.length < 34 ∨ 32 < session.length then none
  match rest with
  | high :: low :: compression :: rest =>
    let extensions ←
      if rest.isEmpty then some []
      else
        (takeCounted? 2 rest).bind fun (content, rest) =>
          if rest.isEmpty then extensions? content.length content else none
    return {
      version := Bytes.toNatBE (bs.take 2)
      random := (bs.drop 2).take 32
      suite := Bytes.toNatBE [high, low]
      compression, extensions }
  | _ => none

/-- The older version. -/
def olderVersion : Nat := 0x0303

/-- The suites of the older version. -/
def olderSuites : List Nat := [0xC02C, 0xC02B, 0xCCA9, 0xC030, 0xC02F, 0xCCA8]

/-- How the random bytes of a peer end that could do better than the older version. -/
def betterMark : Bytes := Bytes.ofString "DOWNGRD" ++ [1]

/-- Whether an extension may stand in a greeting of the older version: the name of the
server, its status and the extended secret are only confirmed, the points have to include
the usual form, renegotiation comes with a count, and of groups and signatures the content
does not matter. -/
def extensionAcceptable (kind : Nat) (content : Bytes) : Bool :=
  match kind with
  | 0 | 5 | 23 => content = []
  | 11 =>
    match takeCounted? 1 content with
    | some (forms, []) => forms.contains 0
    | _ => false
  | 0xFF01 => (takeCounted? 1 content).any fun p => p.2 = []
  | 10 | 13 => true
  | _ => false

/-- Whether a greeting is taken. With someone who can only do the older version there is
nothing better to be had. -/
def acceptable (legacy : Bool) (g : Greeting) : Bool :=
  g.version = olderVersion && g.compression = 0 && olderSuites.contains g.suite &&
    (g.extensions.map Prod.fst).Nodup && (g.extensions.all fun x => extensionAcceptable x.1 x.2) &&
    (legacy || g.random.drop 24 ≠ betterMark)

end Greeting

end Tether.Tls
