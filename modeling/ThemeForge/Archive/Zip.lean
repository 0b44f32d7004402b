/-!
# Archives as bytes

An archive is a list of named members. Its bytes hold each member as it is, without compression, and
end with a directory of all members.
-/

namespace ThemeForge

structure Member where
  name : String
  content : ByteArray

namespace Zip

def crcBit (crc : UInt32) : UInt32 :=
  if crc &&& 1 = 1 then (crc >>> 1) ^^^ 0xEDB88320 else crc >>> 1

def crcByte (crc : UInt32) (byte : UInt8) : UInt32 :=
  (List.range 8).foldl (fun crc _ => crcBit crc) (crc ^^^ byte.toUInt32)

def checksum (content : ByteArray) : UInt32 :=
  content.foldl crcByte 0xFFFFFFFF ^^^ 0xFFFFFFFF

/-- A number in some bytes, least significant first. -/
def number : (width n : Nat) → List UInt8
  | 0, _ => []
  | width + 1, n => UInt8.ofNat n :: number width (n / 256)

def fields (values : List (Nat × Nat)) : ByteArray :=
  (values.flatMap fun (width,n) => number width n).toByteArray

/-- What both records of a member say about it: the version and the flag for UTF-8 names, no
compression, the first day of the calendar, the checksum, two sizes and the length of the name. -/
def description (member : Member) : List (Nat × Nat) :=
  [(2,20),(2,0x0800),(2,0),(2,0),(2,0x21),(4,(checksum member.content).toNat),
    (4,member.content.size),(4,member.content.size),(2,member.name.utf8ByteSize),(2,0)]

def localRecord (member : Member) : ByteArray :=
  fields ((4,0x04034B50) :: description member) ++ member.name.toUTF8 ++ member.content

def directoryRecord (offset : Nat) (member : Member) : ByteArray :=
  fields ((4,0x02014B50) :: (2,0x0314) :: description member
      ++ [(2,0),(2,0),(2,0),(4,0o100644 * 65536),(4,offset)])
    ++ member.name.toUTF8

def records (body directory : ByteArray) : List Member → ByteArray × ByteArray
  | [] => (body,directory)
  | member :: rest =>
    records (body ++ localRecord member) (directory ++ directoryRecord body.size member) rest

def encode (members : List Member) : ByteArray :=
  let (body,directory) := records .empty .empty members
  body ++ directory ++ fields [(4,0x06054B50),(2,0),(2,0),(2,members.length),
    (2,members.length),(4,directory.size),(4,body.size),(2,0)]

end Zip

end ThemeForge
