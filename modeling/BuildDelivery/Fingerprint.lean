import BuildDelivery.Manifest.Basic

/-! The checksum of a manifest: a digest of a byte stream in which every listed block is
spelled out. Every field has a fixed width or stands behind its length, so the stream tells
the block size and the listed blocks. -/

set_option autoImplicit false

namespace BuildDelivery

namespace Listing

/-- What sets the stream apart from other digested data. -/
def streamTag : Bytes := Utf8.encode "buildsync.manifest"

def streamVersion : Nat := 1

/-- A block under its location, as it stands in the stream. -/
def blockBytes (entry : Location × Block) : Bytes :=
  LittleEndian.encode 8 entry.1.path.utf8ByteSize ++ Utf8.encode entry.1.path ++
    LittleEndian.encode 4 entry.1.index.toNat ++ entry.2.hash.bytes ++
    LittleEndian.encode 4 entry.2.size.toNat

def stream (listing : Listing) : Bytes :=
  streamTag ++ LittleEndian.encode 4 streamVersion ++
    LittleEndian.encode 4 listing.maxBlockSize.toNat ++ listing.blocks.flatMap blockBytes ++
    LittleEndian.encode 8 listing.blocks.length

/-- The first eight bytes of the digest of the stream, as a number. -/
def checksum (listing : Listing) : Checksum :=
  ⟨UInt64.ofNat (LittleEndian.decode ((Blake3.digest listing.stream).take 8))⟩

end Listing

def Manifest.checksum (manifest : Manifest) : Checksum := manifest.listing.checksum

/-- Checksums of builds that were computed before. A build never changes, so an entry stays
right for ever and is never replaced. -/
structure ChecksumCache where
  entries : Std.ExtTreeMap BuildId Checksum
  deriving DecidableEq

namespace ChecksumCache

def empty : ChecksumCache := ⟨∅⟩

def size (cache : ChecksumCache) : Nat := cache.entries.size

def isEmpty (cache : ChecksumCache) : Bool := cache.entries.isEmpty

def get? (cache : ChecksumCache) (id : BuildId) : Option Checksum := cache.entries[id]?

/-- The checksum of a build, computed only where it is not known yet. -/
def ask (cache : ChecksumCache) (id : BuildId) (manifest : Manifest) : Checksum × ChecksumCache :=
  match cache.get? id with
  | some known => (known, cache)
  | none => (manifest.checksum, ⟨cache.entries.insert id manifest.checksum⟩)

end ChecksumCache

end BuildDelivery
