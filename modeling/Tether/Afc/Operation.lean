/-!
# Operations of the file service

Each packet of the file service names its operation by a number. Some are requests, some
are answers. The numbers that stand in requests, for the mode a file is opened in and the
kind of a link, are here too.
-/

namespace Tether.Afc

/-- What a packet is about. -/
inductive Operation where
  | status
  | data
  | readDir
  | removePath
  | makeDir
  | getFileInfo
  | getDeviceInfo
  | fileOpen
  | fileOpenResult
  | read
  | write
  | fileSeek
  | fileTell
  | fileTellResult
  | fileClose
  | renamePath
  | makeLink
  | removePathAndContents
  deriving DecidableEq, Repr

namespace Operation

/-- Every operation. -/
def all : List Operation :=
  [status, data, readDir, removePath, makeDir, getFileInfo, getDeviceInfo, fileOpen,
    fileOpenResult, read, write, fileSeek, fileTell, fileTellResult, fileClose, renamePath,
    makeLink, removePathAndContents]

/-- The number of an operation. -/
def code : Operation → UInt64
  | status => 0x01
  | data => 0x02
  | readDir => 0x03
  | removePath => 0x08
  | makeDir => 0x09
  | getFileInfo => 0x0A
  | getDeviceInfo => 0x0B
  | fileOpen => 0x0D
  | fileOpenResult => 0x0E
  | read => 0x0F
  | write => 0x10
  | fileSeek => 0x11
  | fileTell => 0x12
  | fileTellResult => 0x13
  | fileClose => 0x14
  | renamePath => 0x18
  | makeLink => 0x1C
  | removePathAndContents => 0x22

/-- The operation with a number. -/
def ofCode? (n : UInt64) : Option Operation :=
  all.find? (·.code == n)

theorem ofCode?_code (op : Operation) : ofCode? op.code = some op := by
  cases op <;> rfl

/-- The name of an operation in reports. -/
def name : Operation → String
  | status => "Status"
  | data => "Data"
  | readDir => "ReadDir"
  | removePath => "RemovePath"
  | makeDir => "MakeDir"
  | getFileInfo => "GetFileInfo"
  | getDeviceInfo => "GetDevInfo"
  | fileOpen => "FileOpen"
  | fileOpenResult => "FileOpenRes"
  | read => "Read"
  | write => "Write"
  | fileSeek => "FileSeek"
  | fileTell => "FileTell"
  | fileTellResult => "FileTellRes"
  | fileClose => "FileClose"
  | renamePath => "RenamePath"
  | makeLink => "MakeLink"
  | removePathAndContents => "RemovePathAndContents"

end Operation

/-- How a file is opened. -/
inductive OpenMode where
  | readOnly
  | readWrite
  /-- For writing, with the old content gone. -/
  | writeOnly
  /-- For reading and writing, with the old content gone. -/
  | truncate
  | append
  | readAppend
  deriving DecidableEq, Repr

/-- The number of a mode. -/
def OpenMode.code : OpenMode → UInt64
  | readOnly => 1
  | readWrite => 2
  | writeOnly => 3
  | truncate => 4
  | append => 5
  | readAppend => 6

/-- The kinds of link. -/
inductive LinkKind where
  | hard
  | symbolic
  deriving DecidableEq, Repr

/-- The number of a kind of link. -/
def LinkKind.code : LinkKind → UInt64
  | hard => 1
  | symbolic => 2

end Tether.Afc
