import VhdlStyle.Digest.Key
import VhdlStyle.Disk.Basic
import VhdlStyle.MessagePack
import VhdlStyle.Release
import VhdlStyle.Time

/-! # The cache of formatted inputs

A folder that remembers inputs which formatting leaves as they are. There is one small record for
each input and settings; its name is the digest of both. A record that cannot be read, that another
layout wrote, or that does not fit the length of the input counts for nothing. -/

namespace VhdlStyle

/-- What is stored for an input. -/
structure CacheRecord where
  layout : UInt16 := 0
  size : UInt32 := 0
  clean : Bool := false
  stamp : Int := 0
  deriving DecidableEq, Inhabited

namespace CacheRecord

/-- The number of the layout below. -/
def currentLayout : UInt16 := 1

/-- The record of an input; very long inputs have none. -/
def ofInput? (content : Bytes) (clean : Bool) (now : Instant) : Option CacheRecord :=
  if content.length < 0x100000000 then
    some ⟨currentLayout, UInt32.ofNat content.length, clean, now.seconds⟩
  else none

/-- The record as bytes. -/
def encode (r : CacheRecord) : Bytes :=
  MessagePack.shortMap [("Schema", MessagePack.word16 r.layout),
    ("Size", MessagePack.word32 r.size), ("Clean", MessagePack.bool r.clean),
    ("Stamp", MessagePack.int64 r.stamp)]

/-- A whole number; nothing counts as zero. -/
def int? : MessagePack.Value → Option Int
  | .nil => some 0
  | .int n => some n
  | _ => none

/-- A truth value; nothing counts as false. -/
def bool? : MessagePack.Value → Option Bool
  | .nil => some false
  | .bool b => some b
  | _ => none

/-- The name of a member; nothing counts as the empty name. -/
def name? : MessagePack.Value → Option Bytes
  | .nil => some []
  | .text t => some t
  | _ => none

/-- Enters the layout. -/
def setLayout (r : CacheRecord) (v : MessagePack.Value) : Option CacheRecord :=
  (int? v).map fun n => { r with layout := UInt16.ofNat (n % 0x10000).toNat }

/-- Enters the length. -/
def setSize (r : CacheRecord) (v : MessagePack.Value) : Option CacheRecord :=
  (int? v).map fun n => { r with size := UInt32.ofNat (n % 0x100000000).toNat }

/-- Enters the verdict. -/
def setClean (r : CacheRecord) (v : MessagePack.Value) : Option CacheRecord :=
  (bool? v).map fun b => { r with clean := b }

/-- Enters the time. -/
def setStamp (r : CacheRecord) (v : MessagePack.Value) : Option CacheRecord :=
  (int? v).map fun n => { r with stamp := Int.bmod n 0x10000000000000000 }

/-- Enters a member; unknown names are passed over. -/
def setMember (r : CacheRecord) (member : MessagePack.Value × MessagePack.Value) :
    Option CacheRecord := do
  let name ← name? member.1
  if name == "Schema" then r.setLayout member.2
  else if name == "Size" then r.setSize member.2
  else if name == "Clean" then r.setClean member.2
  else if name == "Stamp" then r.setStamp member.2
  else some r

/-- The record of a value: a map, the bare members in order, or nothing at all. -/
def ofValue? : MessagePack.Value → Option CacheRecord
  | .nil => some {}
  | .map members => members.foldlM setMember {}
  | .list [] => some {}
  | .list [layout, size, clean, stamp] => do
    let r ← setLayout {} layout
    let r ← r.setSize size
    let r ← r.setClean clean
    r.setStamp stamp
  | _ => none

/-- The record in some bytes. -/
def decode? (bytes : Bytes) : Option CacheRecord := do ofValue? (← MessagePack.read? bytes)

/-- The record says that an input is formatted. -/
def vouchesFor (r : CacheRecord) (content : Bytes) : Bool :=
  r.clean && r.size.toNat == content.length

end CacheRecord

/-- A folder of records. -/
structure Cache where
  folder : Bytes
  deriving DecidableEq, Inhabited

namespace Cache

/-- Where a record is. -/
def recordPath (c : Cache) (key : Bytes) : Bytes :=
  let name := Bytes.toHex key
  Path.join [c.folder, "files", name.take 2, name ++ Bytes.ofString ".mp"]

/-- Opens a cache; its folder is made if it does not exist. -/
def ofFolder (d : Disk) (folder : Bytes) : Except Disk.Fault (Cache × Disk) := do
  return (⟨folder⟩, ← d.makeFolders folder)

/-- Stores a record. -/
def put (c : Cache) (d : Disk) (key : Bytes) (r : CacheRecord) : Except Disk.Fault Disk := do
  let path := c.recordPath key
  let d ← d.makeFolders (Path.dir path)
  d.write path r.encode

/-- What is stored under a key. -/
inductive Lookup where
  | found (record : CacheRecord)
  | absent
  | broken
  deriving DecidableEq, Inhabited

/-- Reads a record; one in another layout is absent. -/
def get (c : Cache) (d : Disk) (key : Bytes) : Lookup :=
  match d.read (c.recordPath key) with
  | .error fault => if fault.isMissing then .absent else .broken
  | .ok bytes =>
    match CacheRecord.decode? bytes with
    | none => .broken
    | some r => if r.layout == CacheRecord.currentLayout then .found r else .absent

/-- The cache vouches for an input under a digest of settings. -/
def isClean (c : Cache) (d : Disk) (settings content : Bytes) : Bool :=
  match c.get d (Digest.ofInput settings content) with
  | .found r => r.vouchesFor content
  | _ => false

/-- Remembers that an input is formatted. -/
def markClean (c : Cache) (d : Disk) (settings content : Bytes) (now : Instant) :
    Except Disk.Fault Disk :=
  match CacheRecord.ofInput? content true now with
  | some r => c.put d (Digest.ofInput settings content) r
  | none => .ok d

/-- Forgets all records. -/
def clear (c : Cache) (d : Disk) : Except Disk.Fault Disk :=
  match d.locate c.folder, d.find c.folder with
  | .ok l, .ok _ => .ok { d with root := d.root.put l (.folder []) }
  | .error reason, _ => .error ⟨"rename", c.folder, reason⟩
  | _, .error reason => .error ⟨"rename", c.folder, reason⟩

end Cache

end VhdlStyle
