import BuildDelivery.Exchange.Message

/-! The binary formats of everything that is sent or stored. -/

set_option autoImplicit false

namespace BuildDelivery.Wire

open Format

def blockHash : Format BlockHash :=
  (fixed 32).via (fun bytes => ⟨bytes.val, bytes.property⟩) fun hash => ⟨hash.bytes, hash.length_bytes⟩

def block : Format Block :=
  (pair blockHash uint32).via (fun (hash, size) => ⟨hash, size⟩) fun block => (block.hash, block.size)

def location : Format Location :=
  (pair text uint32).via (fun (path, index) => ⟨path, index⟩) fun location =>
    (location.path, location.index)

def checksum : Format Checksum := uint64.via Checksum.mk Checksum.value

def buildId : Format BuildId := octets.via BuildId.mk BuildId.bytes

def operation : Format Operation where
  encode
    | .add place content => encodeVariant 0 ((pair location block).encode (place, content))
    | .remove place => encodeVariant 1 (location.encode place)
    | .modify place content => encodeVariant 2 ((pair location block).encode (place, content))
  size
    | .add place content => sizeVariant 0 ((pair location block).size (place, content))
    | .remove place => sizeVariant 1 (location.size place)
    | .modify place content => sizeVariant 2 ((pair location block).size (place, content))
  decode := decodeVariant [
    reader (pair location block) fun (place, content) => .add place content,
    reader location .remove,
    reader (pair location block) fun (place, content) => .modify place content]

def delta : Format Delta :=
  (pair uint32 (pair checksum (pair checksum (list operation)))).via
    (fun (size, base, target, operations) => ⟨size, base, target, operations⟩)
    fun delta => (delta.maxBlockSize, delta.baseChecksum, delta.targetChecksum, delta.operations)

/-- A manifest, whose files may come in any order; of two with one path the later counts. -/
def manifest : Format Manifest :=
  (pair uint32 (list (pair text (list block)))).via
    (fun (size, files) => ⟨size, Std.ExtTreeMap.ofList files⟩)
    fun manifest => (manifest.maxBlockSize, manifest.files.toList)

def target : Format Target where
  encode target := encodeVariant target.index []
  size target := sizeVariant target.index 0
  decode := decodeVariant (Target.all.map fun target rest => .ok (target, rest))

def request : Format Request :=
  (pair (uint64.via BranchId.mk BranchId.value) (pair (list target) (option buildId))).via
    (fun (branch, targets, held) => ⟨branch, targets, held⟩)
    fun request => (request.branch, request.targets, request.held?)

def payload : Format Payload where
  encode
    | .upToDate => encodeVariant 0 []
    | .manifest content => encodeVariant 1 (manifest.encode content)
    | .delta content => encodeVariant 2 (delta.encode content)
  size
    | .upToDate => sizeVariant 0 0
    | .manifest content => sizeVariant 1 (manifest.size content)
    | .delta content => sizeVariant 2 (delta.size content)
  decode := decodeVariant [
    fun rest => .ok (.upToDate, rest),
    reader manifest .manifest,
    reader delta .delta]

def response : Format Response :=
  (pair buildId (pair checksum payload)).via
    (fun (build, checksum, payload) => ⟨build, checksum, payload⟩)
    fun response => (response.build, response.checksum, response.payload)

def message : Format Message where
  encode
    | .getLatestBuild content => encodeVariant 0 (request.encode content)
    | .latestBuild content => encodeVariant 1 (response.encode content)
    | .error code content => encodeVariant 2 ((pair uint32 text).encode (code, content))
    | .ping number => encodeVariant 3 (uint64.encode number)
    | .pong number => encodeVariant 4 (uint64.encode number)
  size
    | .getLatestBuild content => sizeVariant 0 (request.size content)
    | .latestBuild content => sizeVariant 1 (response.size content)
    | .error code content => sizeVariant 2 ((pair uint32 text).size (code, content))
    | .ping number => sizeVariant 3 (uint64.size number)
    | .pong number => sizeVariant 4 (uint64.size number)
  decode := decodeVariant [
    reader request .getLatestBuild,
    reader response .latestBuild,
    reader (pair uint32 text) fun (code, content) => .error code content,
    reader uint64 .ping,
    reader uint64 .pong]

end BuildDelivery.Wire

namespace BuildDelivery

namespace Manifest

def toBytes (manifest : Manifest) : Bytes := Wire.manifest.encode manifest

/-- The manifest at the front of a byte string, as it stands there: it need not be valid. -/
def ofBytes (bytes : Bytes) : Except Wire.Fault Manifest := Wire.manifest.decodeFront bytes

end Manifest

/-- The bytes that a delta takes in a message, counted and not written. -/
def Delta.wireSize (delta : Delta) : Nat := Wire.delta.size delta

end BuildDelivery
