import Tether.Plist.Binary.Reader
import Tether.Plist.Xml.Reader

/-!
# Property lists read from bytes

A document says by its first eight bytes which form it is in; what is not binary is read
as XML. What services exchange are dictionaries.
-/

namespace Tether.Plist

/-- Reads a document in either form. -/
def Reading.ofBytes? (bs : Bytes) : Option Reading :=
  if bs.length < 8 then none
  else if bs.take 8 = Binary.magic then
    (Binary.read? bs).map fun root => { root, sound := true }
  else Xml.read? bs

/-- The value of a document in either form. -/
def ofBytes? (bs : Bytes) : Option Plist :=
  (Reading.ofBytes? bs).bind Reading.toPlist?

/-- The dictionary that a document holds. -/
def dictionaryOfBytes? (bs : Bytes) : Option Dictionary :=
  (ofBytes? bs).bind asDictionary?

end Tether.Plist
