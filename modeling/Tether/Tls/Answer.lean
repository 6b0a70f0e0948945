import Tether.Tls.Greeting

/-!
# What a peer answers

The bytes from a peer are records, each a header and a content. The messages of a handshake
run through the contents of one or more records, and no other record may come in between.
`Answer.judge` takes one record and tells whether the peer still goes along: it may greet
back, and it may warn a few times.
-/

namespace Tether.Tls

/-- The types of records that matter here. -/
def alertType : UInt8 := 21
def handshakeType : UInt8 := 22
def dataType : UInt8 := 23

/-- The type of the message that is a greeting. -/
def greetingType : UInt8 := 2

/-- The bound on the content of a record. -/
def recordBound : Nat := 18432

/-- The longest message. -/
def longestMessage : Nat := 65535

/-- How many warnings are borne. -/
def warningsBorne : Nat := 4

/-- Whether a record may state a version: all of the third generation, the last one of the
second, and three for datagrams. -/
def isRecordVersion (major minor : UInt8) : Bool :=
  major = 3 || (major = 2 && minor = 0) ||
    (major = 0xFE && (minor = 0xFF || minor = 0xFD || minor = 0xFC))

/-- What stands at the front of some bytes. -/
inductive Front where
  | incomplete
  | malformed
  | complete (type : UInt8) (content rest : Bytes)

/-- The record at the front. Only data may be empty. -/
def Front.ofRecords : Bytes → Front
  | [] => .incomplete
  | type :: rest =>
    if type < 20 || 24 < type then .malformed
    else
      match rest with
      | major :: minor :: rest =>
        if !isRecordVersion major minor then .malformed
        else
          match rest with
          | high :: low :: rest =>
            let length := Bytes.toNatBE [high, low]
            if (length = 0 && type ≠ dataType) || recordBound ≤ length then .malformed
            else if rest.length < length then .incomplete
            else .complete type (rest.take length) (rest.drop length)
          | _ => .incomplete
      | _ => .incomplete

/-- The message at the front. -/
def Front.ofMessages : Bytes → Front
  | type :: a :: b :: c :: rest =>
    let length := Bytes.toNatBE [a, b, c]
    if longestMessage < length then .malformed
    else if rest.length < length then .incomplete
    else .complete type (rest.take length) (rest.drop length)
  | _ => .incomplete

/-- What a peer has answered so far. -/
structure Answer where
  /-- The bytes that were not looked at yet. -/
  unread : Bytes := []
  /-- The start of a message that goes on in the next record. -/
  begun : Bytes := []
  warnings : Nat := 0
  /-- Whether the peer has greeted back. -/
  greeted : Bool := false

/-- What the record at the front of an answer amounts to. -/
inductive Verdict where
  /-- The record is not complete. -/
  | incomplete
  /-- The record is in order. -/
  | further (a : Answer)
  /-- The peer does not go along. -/
  | refusal

namespace Answer

/-- Takes the messages that are complete; the one that is understood is the greeting. -/
def takeMessages (legacy : Bool) (a : Answer) : Verdict :=
  match Front.ofMessages a.begun with
  | .incomplete => .further a
  | .malformed => .refusal
  | .complete type content rest =>
    if !a.greeted && type = greetingType && (Greeting.ofBytes? content).any (Greeting.acceptable legacy) then
      match Front.ofMessages rest with
      | .incomplete => .further { a with begun := rest, greeted := true }
      | _ => .refusal
    else .refusal

/-- Judges the record at the front. -/
def judge (legacy : Bool) (a : Answer) : Verdict :=
  match Front.ofRecords a.unread with
  | .incomplete => .incomplete
  | .malformed => .refusal
  | .complete type content rest =>
    if type = handshakeType then
      takeMessages legacy { a with unread := rest, begun := a.begun ++ content }
    else if type = alertType && a.begun = [] && a.warnings < warningsBorne &&
        content.length = 2 && content.head? = some 1 then
      .further { a with unread := rest, warnings := a.warnings + 1 }
    else .refusal

end Answer

end Tether.Tls
