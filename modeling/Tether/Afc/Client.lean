import Tether.Afc.Packet
import Tether.Text.Utf8
import Tether.Time.Calendar

/-!
# The file service

The service gives access to a part of the file system of a device. Each request is one
packet with the next number, and one packet answers it. The client keeps the descriptors
of the files it has opened and not closed: closing the client closes them first.

`File` is an open file. Reading and writing go in pieces of bounded size.
-/

namespace Tether.Afc

/-- The name of the service. -/
def name : String := "com.apple.afc"

/-- The name of the service in the directory of a tunnel. -/
def tunnelName : String := "com.apple.afc.shim.remote"

/-- The label by which the host introduces itself to the service in a tunnel. -/
def tunnelLabel : String := "devicelink-afc"

/-- The host's end of the service. -/
structure Client where
  connection : Connection
  /-- The number of the next request. -/
  nextNumber : UInt64 := 0
  /-- The descriptors of files that were opened and not closed. -/
  openFiles : List UInt64 := []

/-! ## What answers contain -/

/-- The strings between zero bytes, without the empty ones. -/
def strings (bs : Bytes) : List String :=
  ((bs.splitOnP (· = 0)).filter fun piece => !piece.isEmpty).map Text.lossy

/-- The strings in pairs; one that is left over is dropped. -/
def pairUp : List String → List (String × String)
  | key :: value :: rest => (key, value) :: pairUp rest
  | _ => []

/-- The attributes in an answer. A repeated key has its last value. -/
def attributes (bs : Bytes) : Entries String :=
  Entries.ofList (pairUp (strings bs))

/-- Strings with a zero byte behind each. -/
def terminated (parts : List String) : Bytes :=
  parts.flatMap fun part => Bytes.ofString part ++ [0]

/-- An attribute that has to be there and be readable. -/
def need {α : Type} (attrs : Entries String) (read : String → Option α) (key : String) :
    Except DeviceError α :=
  ((attrs.get? key).bind read).elim (.error .afcMissingAttribute) .ok

/-- A number of bytes or blocks. -/
def size? (s : String) : Option UInt64 :=
  (Text.unsigned? (2 ^ 64) s).map UInt64.ofNat

/-- A point in time. -/
def time? (s : String) : Option Time.DateTime :=
  (Text.signed? (2 ^ 63) s).map Time.DateTime.ofNanoseconds

/-- What is known about a file. -/
structure FileInfo where
  size : UInt64
  blocks : UInt64
  created : Time.DateTime
  modified : Time.DateTime
  /-- How many links there are to it. -/
  links : String
  /-- The kind of file. -/
  kind : String
  /-- Where a link points to. -/
  target : Option String
  deriving DecidableEq, Repr

/-- The file described by attributes. -/
def FileInfo.ofAttributes (attrs : Entries String) : Except DeviceError FileInfo := do
  return {
    size := ← need attrs size? "st_size"
    blocks := ← need attrs size? "st_blocks"
    created := ← need attrs time? "st_birthtime"
    modified := ← need attrs time? "st_mtime"
    links := ← need attrs some "st_nlink"
    kind := ← need attrs some "st_ifmt"
    target := attrs.get? "st_link_target" }

/-- What is known about a device. -/
structure DeviceInfo where
  model : String
  totalBytes : UInt64
  freeBytes : UInt64
  blockSize : UInt64
  deriving DecidableEq, Repr

/-- The device described by attributes. -/
def DeviceInfo.ofAttributes (attrs : Entries String) : Except DeviceError DeviceInfo := do
  return {
    model := ← need attrs some "Model"
    totalBytes := ← need attrs size? "FSTotalBytes"
    freeBytes := ← need attrs size? "FSFreeBytes"
    blockSize := ← need attrs size? "FSBlockSize" }

namespace Client

/-- Runs a call on the connection. -/
@[inline] def onConnection {α : Type} (c : Call DeviceError Connection α) :
    Call DeviceError Client α :=
  Call.zoom Client.connection (fun client connection => { client with connection }) id c

/-- A client in a tunnel: the host introduces itself first. -/
def checkIn : Call DeviceError Client Unit :=
  onConnection Connection.checkIn

/-- Sends a packet. -/
def send (p : Packet) : Call DeviceError Client Unit :=
  onConnection (Connection.sendRaw p.toBytes)

/-- The failure that a packet reports, if it does. -/
def failureOf (p : Packet) : Except DeviceError Unit := do
  if p.header.operation = .status then
    let status := Status.ofCode (← p.leadNumber).toNat
    if status ≠ .success then throw (.afc status)

/-- Receives a packet. One that reports a failure fails with it. -/
def receive : Call DeviceError Client Packet := do
  let p ← onConnection Packet.receive
  Call.ofExcept (failureOf p)
  return p

/-- Sends a request with the next number and receives a packet. -/
def request (operation : Operation) (lead content : Bytes) : Call DeviceError Client Packet := do
  let number := (← get).nextNumber
  modify fun client => { client with nextNumber := number + 1 }
  send (.make operation number lead content)
  receive

/-- Sends a request that has no result. -/
def order (operation : Operation) (lead : Bytes) : Call DeviceError Client Unit := do
  let _ ← request operation lead []

/-- The names in a directory. -/
def listDirectory (path : String) : Call DeviceError Client (List String) := do
  let answer ← request .readDir (Bytes.ofString path) []
  return (strings answer.content).filter fun name => name ≠ "." ∧ name ≠ ".."

/-- Makes a directory. -/
def makeDirectory (path : String) : Call DeviceError Client Unit :=
  order .makeDir (Bytes.ofString path)

/-- Removes a file or an empty directory. -/
def remove (path : String) : Call DeviceError Client Unit :=
  order .removePath (Bytes.ofString path)

/-- Removes a path and all below it. -/
def removeAll (path : String) : Call DeviceError Client Unit :=
  order .removePathAndContents (Bytes.ofString path)

/-- Moves a path. -/
def rename (source target : String) : Call DeviceError Client Unit :=
  order .renamePath (terminated [source, target])

/-- Makes a link at `source` that points to `target`. -/
def link (target source : String) (kind : LinkKind) : Call DeviceError Client Unit :=
  order .makeLink (Bytes.ofNatLE 8 kind.code.toNat ++ terminated [target, source])

/-- What is known about a file. -/
def fileInfo (path : String) : Call DeviceError Client FileInfo := do
  let answer ← request .getFileInfo (Bytes.ofString path) []
  Call.ofExcept (FileInfo.ofAttributes (attributes answer.content))

/-- What is known about the device. -/
def deviceInfo : Call DeviceError Client DeviceInfo := do
  let answer ← request .getDeviceInfo [] []
  Call.ofExcept (DeviceInfo.ofAttributes (attributes answer.content))

/-- How many files are open. -/
def openFileCount (client : Client) : Nat :=
  client.openFiles.length

end Client

/-! ## Open files -/

/-- An open file. -/
structure File where
  descriptor : UInt64
  path : String
  deriving DecidableEq, Repr

/-- The most that one packet carries of a file. -/
def maxTransfer : Nat := 64 * 1024

/-- Where a position is counted from. -/
inductive Origin where
  | fromStart (offset : UInt64)
  | fromCurrent (offset : Int64)
  | fromEnd (offset : Int64)
  deriving DecidableEq, Repr

/-- The numbers that say where a position is counted from and how far. -/
def Origin.codes? : Origin → Option (Nat × UInt64)
  | fromStart offset => if offset.toNat < 2 ^ 63 then some (0, offset) else none
  | fromCurrent offset => some (1, offset.toUInt64)
  | fromEnd offset => some (2, offset.toUInt64)

namespace File

/-- A number as the eight bytes of a request. -/
def word (n : UInt64) : Bytes :=
  Bytes.ofNatLE 8 n.toNat

/-- Opens a file. -/
def openAt (path : String) (mode : OpenMode) : Call DeviceError Client File := do
  let answer ← Client.request .fileOpen (word mode.code ++ terminated [path]) []
  let descriptor ← Call.ofExcept answer.leadNumber
  modify fun client => { client with openFiles := client.openFiles.insert descriptor }
  return { descriptor, path }

/-- Reads at most so many bytes, fewer at the end of the file. -/
def read (f : File) (most : Nat) : Call DeviceError Client Bytes := do
  let answer ← Client.request .read
    (word f.descriptor ++ Bytes.ofNatLE 8 (min most maxTransfer)) []
  return answer.content

/-- Reads pieces up to an empty one. Each answer has forty bytes at least, so `fuel` for the
unread bytes is enough. -/
def readPieces (f : File) : Nat → Call DeviceError Client Bytes
  | 0 => throw .waiting
  | fuel + 1 => do
    let piece ← f.read maxTransfer
    if piece.isEmpty then return []
    return piece ++ (← f.readPieces fuel)

/-- Reads from the current position to the end of the file. -/
def readToEnd (f : File) : Call DeviceError Client Bytes := do
  f.readPieces ((← get).connection.transport.unread.length / headerLength + 1)

/-- Writes bytes, a piece with each request. -/
def write (f : File) (bs : Bytes) : Call DeviceError Client Unit :=
  (pieces maxTransfer bs).forM fun piece => do
    let _ ← Client.request .write (word f.descriptor) piece

/-- The current position. -/
def tell (f : File) : Call DeviceError Client UInt64 := do
  let answer ← Client.request .fileTell (word f.descriptor) []
  Call.ofExcept answer.leadNumber

/-- Moves the position and returns the new one. -/
def seek (f : File) (origin : Origin) : Call DeviceError Client UInt64 := do
  let (whence, offset) ← Call.ofOption .invalidArgument origin.codes?
  Client.order .fileSeek (word f.descriptor ++ Bytes.ofNatLE 8 whence ++ word offset)
  f.tell

end File

namespace Client

/-- Closes a descriptor. The device forgets it also when it reports a failure. -/
def closeDescriptor (descriptor : UInt64) : Call DeviceError Client Unit := do
  let answer : Except DeviceError Packet ←
    Call.attempt (request .fileClose (File.word descriptor) [])
  modify fun client => { client with openFiles := client.openFiles.erase descriptor }
  let _ ← Call.ofExcept answer

/-- Closes the client: first each file that is still open, up to the first failure, then the
connection. Returns how many files were open. -/
def close : Call DeviceError Client Nat := do
  let left := (← get).openFiles
  left.forM closeDescriptor
  onConnection Connection.close
  return left.length

end Client

/-- Closes a file. -/
def File.close (f : File) : Call DeviceError Client Unit :=
  Client.closeDescriptor f.descriptor

end Tether.Afc
