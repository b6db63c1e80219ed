import Mathlib
import MiniErp.Lib.Bytes
import MiniErp.Lib.Layout
import MiniErp.Lib.Run

/-! The ZIP archive of a machine file: the writer of stored entries, and the reader that checks
each entry of the directory against its local header. -/
namespace MiniErp.Aasx
open Text Std Run
open Layout (At littleEndian ofLittleEndian numbers Readable)

def contentTypesPath : String := "[Content_Types].xml"
def rootRelationshipsPath : String := "_rels/.rels"
def aasxOriginPath : String := "aasx/aasx-origin"
def aasxOriginRelationshipsPath : String := "aasx/_rels/aasx-origin.rels"
def aasSpecPath : String := "aasx/data.xml"

def maxAasxPackageSize : Nat := 16*1024*1024
def maxAasxPartSize : Nat := 8*1024*1024

def packageParts : List String :=
  [contentTypesPath,rootRelationshipsPath,aasxOriginPath,aasxOriginRelationshipsPath,aasSpecPath]

inductive AasxExportError where
  | packageTooLarge
  | xmlTooLarge
  deriving DecidableEq, Repr

inductive AasxImportError where
  | malformedPackage (message : String)
  | unsupportedZip (message : String)
  deriving DecidableEq, Repr

def unsupported (message : String) : AasxImportError := .unsupportedZip message

/- The checksum. -/

def crc32Bit (crc : UInt32) : UInt32 :=
  let mask := 0-(crc &&& 1)
  (crc >>> 1) ^^^ (0xedb88320 &&& mask)

def crc32Byte (crc : UInt32) (byte : UInt8) : UInt32 :=
  (List.range 8).foldl (fun crc _ => crc32Bit crc) (crc ^^^ byte.toUInt32)

def crc32 (bytes : List UInt8) : UInt32 := ~~~(bytes.foldl crc32Byte 0xffffffff)

example : crc32 (bytes "123456789")=0xcbf43926 := by decide +kernel

/- The writer. -/

structure ZipEntry where
  name : String
  contents : List UInt8

def pushU16 (value : Nat) : Nat × Nat := (2, value)
def pushU32 (value : Nat) : Nat × Nat := (4, value)

def writeLocalHeader (nameLen size crc : Nat) : List UInt8 :=
  numbers [pushU32 0x04034b50,pushU16 20,pushU16 0,pushU16 0,pushU16 0,pushU16 0,pushU32 crc,
    pushU32 size,pushU32 size,pushU16 nameLen,pushU16 0]

def writeCentralHeader (nameLen size crc offset : Nat) : List UInt8 :=
  numbers [pushU32 0x02014b50,pushU16 20,pushU16 20,pushU16 0,pushU16 0,pushU16 0,pushU16 0,
    pushU32 crc,pushU32 size,pushU32 size,pushU16 nameLen,pushU16 0,pushU16 0,pushU16 0,
    pushU16 0,pushU32 0,pushU32 offset]

def writeEndRecord (count centralSize centralOffset : Nat) : List UInt8 :=
  numbers [pushU32 0x06054b50,pushU16 0,pushU16 0,pushU16 count,pushU16 count,
    pushU32 centralSize,pushU32 centralOffset,pushU16 0]

/-- `u16::try_from` and `u32::try_from`. -/
def tryFrom (width value : Nat) : Except AasxExportError Nat :=
  if value<256^width then .ok value else .error .packageTooLarge

/-- One entry: its local record behind the package, its directory record behind the others. -/
def writeEntry (written : List UInt8 × List UInt8) (entry : ZipEntry) :
    Except AasxExportError (List UInt8 × List UInt8) := do
  ensure (entry.contents.length ≤ maxAasxPartSize) .packageTooLarge
  let name := bytes entry.name
  let size ← tryFrom 4 entry.contents.length
  let offset ← tryFrom 4 written.1.length
  let nameLen ← tryFrom 2 name.length
  let crc := (crc32 entry.contents).toNat
  return (written.1++(writeLocalHeader nameLen size crc++(name++entry.contents)),
    written.2++(writeCentralHeader nameLen size crc offset++name))

def writeZip (entries : List ZipEntry) : Except AasxExportError (List UInt8) := do
  ensure (entries.length≤65535) .packageTooLarge
  let (package, central) ← entries.foldlM writeEntry ([], [])
  let centralOffset ← tryFrom 4 package.length
  let centralSize ← tryFrom 4 central.length
  let package := package++(central++writeEndRecord entries.length centralSize centralOffset)
  ensure (package.length ≤ maxAasxPackageSize) .packageTooLarge
  return package

/- The reader. -/

def slice (bytes : List UInt8) (start stop : Nat) : Except AasxImportError (List UInt8) :=
  required (Layout.slice bytes start stop) (unsupported "truncated ZIP record")

def readU16 (bytes : List UInt8) (offset : Nat) : Except AasxImportError Nat :=
  (slice bytes offset (offset+2)).map ofLittleEndian

def readU32 (bytes : List UInt8) (offset : Nat) : Except AasxImportError Nat :=
  (slice bytes offset (offset+4)).map ofLittleEndian

def rejectFlags (flags : Nat) : Except AasxImportError Unit :=
  ensure (flags == 0)
    (unsupported "encrypted, descriptor, or non-canonical ZIP flags are not supported")

structure CentralRecord where
  nextOffset : Nat
  localOffset : Nat
  compression : Nat
  crc : Nat
  compressedSize : Nat
  uncompressedSize : Nat
  name : String

def readCentralRecord (package : List UInt8) (offset centralEnd : Nat) :
    Except AasxImportError CentralRecord := do
  let signature ← readU32 package offset
  ensure (signature == 0x02014b50) (unsupported "invalid ZIP central directory entry")
  let flags ← readU16 package (offset+8)
  rejectFlags flags
  let compression ← readU16 package (offset+10)
  ensure (compression == 0 || compression == 8)
    (unsupported "ZIP compression method is not supported")
  let crc ← readU32 package (offset+16)
  let compressedSize ← readU32 package (offset+20)
  let uncompressedSize ← readU32 package (offset+24)
  ensure (uncompressedSize ≤ maxAasxPartSize) (unsupported "AASX part exceeds the supported size")
  let nameLen ← readU16 package (offset+28)
  let extraLen ← readU16 package (offset+30)
  let commentLen ← readU16 package (offset+32)
  let startDisk ← readU16 package (offset+34)
  ensure (startDisk == 0 && extraLen == 0 && commentLen == 0)
    (unsupported "ZIP entry metadata is not canonical")
  let nextOffset := offset+46+nameLen
  ensure (nextOffset ≤ centralEnd) (unsupported "ZIP central entry range is invalid")
  let nameBytes ← slice package (offset+46) nextOffset
  let name ← required (fromUtf8 nameBytes) (unsupported "ZIP entry name is not UTF-8")
  ensure (name.toList.getLast? != some '/') (unsupported "directory entries are not supported")
  let localOffset ← readU32 package (offset+42)
  return { nextOffset, localOffset, compression, crc, compressedSize, uncompressedSize, name }

/-- The range of a local entry and the bytes stored in it. -/
def readLocalRecord (package : List UInt8) (centralOffset : Nat) (record : CentralRecord) :
    Except AasxImportError ((Nat × Nat) × List UInt8) := do
  let offset := record.localOffset
  ensure (offset < centralOffset) (unsupported "ZIP local entry offset is invalid")
  let signature ← readU32 package offset
  ensure (signature == 0x04034b50) (unsupported "invalid ZIP local entry")
  let flags ← readU16 package (offset+6)
  rejectFlags flags
  let compression ← readU16 package (offset+8)
  let crc ← readU32 package (offset+14)
  let compressedSize ← readU32 package (offset+18)
  let uncompressedSize ← readU32 package (offset+22)
  let nameLen ← readU16 package (offset+26)
  let extraLen ← readU16 package (offset+28)
  ensure (extraLen == 0) (unsupported "ZIP local entry metadata is not canonical")
  let dataStart := offset+30+nameLen
  let dataEnd := dataStart+compressedSize
  ensure (dataEnd ≤ centralOffset && flags == 0 && compression == record.compression &&
      crc == record.crc && compressedSize == record.compressedSize &&
      uncompressedSize == record.uncompressedSize)
    (unsupported "ZIP local entry does not match its central directory record")
  let name ← slice package (offset+30) dataStart
  ensure (name == bytes record.name)
    (unsupported "ZIP local entry does not match its central directory record")
  let data ← slice package dataStart dataEnd
  return ((offset, dataEnd), data)

def isEndRecord (package : List UInt8) (offset : Nat) : Except AasxImportError Bool := do
  let signature ← readU32 package offset
  if signature == 0x06054b50 then
    let commentLen ← readU16 package (offset+20)
    return offset+22+commentLen == package.length
  else return false

def findEocdIn (package : List UInt8) : List Nat → Except AasxImportError Nat
  | [] => .error (unsupported "ZIP end record is invalid")
  | offset::rest => do
    if ← isEndRecord package offset then return offset else findEocdIn package rest

/-- The end record, searched from the end of the package. -/
def findEocd (package : List UInt8) : Except AasxImportError Nat := do
  ensure (22≤package.length) (unsupported "ZIP end record is missing")
  let start := package.length-(22+65535)
  findEocdIn package (List.range' start (package.length-22-start+1)).reverse

structure ReadState where
  cursor : Nat
  parts : TreeMap String (List UInt8)
  localRanges : List (Nat × Nat)

section
/- DEFLATE: the contents of a compressed entry of a declared size. -/
variable (inflate : List UInt8 → Nat → Except AasxImportError (List UInt8))

def entryContents (record : CentralRecord) (compressed : List UInt8) :
    Except AasxImportError (List UInt8) :=
  if record.compression=0 then .ok compressed
  else if record.compression=8 then inflate compressed record.uncompressedSize
  else .error (unsupported "ZIP compression method is not supported")

def readEntry (package : List UInt8) (centralOffset centralEnd : Nat) (state : ReadState) :
    Except AasxImportError ReadState := do
  let record ← readCentralRecord package state.cursor centralEnd
  ensure (packageParts.contains record.name) (unsupported "unsupported AASX package structure")
  ensure (!state.parts.contains record.name) (.malformedPackage "duplicate ZIP entry")
  let (range, compressed) ← readLocalRecord package centralOffset record
  ensure (!state.localRanges.any fun other => range.1<other.2 && other.1 < range.2)
    (unsupported "ZIP local entries overlap")
  let contents ← entryContents inflate record compressed
  ensure (contents.length == record.uncompressedSize && (crc32 contents).toNat == record.crc)
    (unsupported "ZIP entry checksum or size does not match its contents")
  return {
    cursor := record.nextOffset
    parts := state.parts.insert record.name contents
    localRanges := state.localRanges++[range] }

def readEntries (package : List UInt8) (centralOffset centralEnd : Nat) :
    Nat → ReadState → Except AasxImportError ReadState
  | 0, state => .ok state
  | count+1, state => do
    let state ← readEntry inflate package centralOffset centralEnd state
    readEntries package centralOffset centralEnd count state

def readZipParts (package : List UInt8) : Except AasxImportError (TreeMap String (List UInt8)) := do
  ensure (package.length ≤ maxAasxPackageSize) (unsupported "AASX package exceeds the supported size")
  let eocd ← findEocd package
  let disk ← readU16 package (eocd+4)
  let centralDisk ← readU16 package (eocd+6)
  let diskEntries ← readU16 package (eocd+8)
  let entryCount ← readU16 package (eocd+10)
  let centralSize ← readU32 package (eocd+12)
  let centralOffset ← readU32 package (eocd+16)
  ensure (disk == 0 && centralDisk == 0 && diskEntries == entryCount &&
      entryCount≤packageParts.length)
    (unsupported "multi-disk or ZIP64 archives are not supported")
  let centralEnd := centralOffset+centralSize
  ensure (centralEnd == eocd && centralEnd≤package.length)
    (unsupported "ZIP central directory range is invalid")
  let state ← readEntries inflate package centralOffset centralEnd entryCount
    { cursor := centralOffset, parts := ∅, localRanges := [] }
  ensure (state.cursor == centralEnd) (unsupported "ZIP central directory contains trailing data")
  return state.parts

end

end MiniErp.Aasx
