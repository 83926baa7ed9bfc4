import BuildDelivery.Proofs.Manifest.Valid
import BuildDelivery.Proofs.Wire.Format
import BuildDelivery.Wire.Frame
import Mathlib.Algebra.Ring.Nat

/-! How many bytes things take when they are written. A format counts as many bytes as it writes,
and every way to put formats together keeps this. Numbers, hashes and the numbers of variants have
one width, and byte strings, texts and rows add eight bytes for their length, so what is counted is
a sum over what varies: paths, blocks, operations, targets and names of builds. -/

set_option autoImplicit false

namespace BuildDelivery

namespace Wire

namespace Format

variable {α β : Type}

/-- The format counts as many bytes as it writes. -/
def Counts (format : Format α) : Prop :=
  ∀ value, format.size value = (format.encode value).length

theorem via_counts {format : Format α} (inner : format.Counts) (read : α → β) (write : β → α) :
    (format.via read write).Counts := fun value => inner (write value)

theorem fixed_counts (count : Nat) : (fixed count).Counts := fun bytes => bytes.property.symm

theorem number_counts (width : Nat) : (number width).Counts := fun value =>
  (LittleEndian.length_encode width value).symm

theorem uint32_counts : uint32.Counts := via_counts (number_counts 4) _ _

theorem uint64_counts : uint64.Counts := via_counts (number_counts 8) _ _

theorem pair_counts {first : Format α} {second : Format β} (left : first.Counts)
    (right : second.Counts) : (pair first second).Counts := by
  intro value
  simp only [pair, List.length_append]
  rw [left, right]

theorem octets_counts : octets.Counts := by
  intro bytes
  simp only [octets, List.length_append]
  rw [number_counts]

theorem text_counts : text.Counts := by
  intro value
  simp only [text, List.length_append, Utf8.length_encode]
  rw [number_counts]

theorem size_list (format : Format α) (values : List α) :
    (list format).size values = 8 + (values.map format.size).sum := by
  calc
    (list format).size values = (values.map format.size).foldl (· + ·) (8 + 0) := by
      rw [List.foldl_map]
      rfl
    _ = 8 + (values.map format.size).foldl (· + ·) 0 := List.foldl_assoc
    _ = 8 + (values.map format.size).sum := by rw [List.sum_eq_foldl]

/-- A row of values that all take the same number of bytes. -/
theorem size_list_of_width {format : Format α} {width : Nat}
    (sizes : ∀ value, format.size value = width) (values : List α) :
    (list format).size values = 8 + width * values.length := by
  rw [size_list, funext sizes, List.map_const', List.sum_replicate_nat, Nat.mul_comm]

theorem list_counts {format : Format α} (element : format.Counts) : (list format).Counts := by
  intro values
  rw [size_list]
  simp only [list, List.length_append, List.length_flatMap, ← element _]
  rw [← number_counts]
  rfl

theorem option_counts {format : Format α} (inner : format.Counts) : (option format).Counts := by
  intro value
  cases value with
  | none => rfl
  | some value => exact (congrArg (1 + ·) (inner value)).trans (Nat.add_comm _ _)

theorem variant_counts (tag : Nat) {size : Nat} {content : Bytes} (inner : size = content.length) :
    sizeVariant tag size = (encodeVariant tag content).length := by
  rw [length_encodeVariant, inner]
  rfl

end Format

open Format

theorem block_counts : block.Counts :=
  via_counts (pair_counts (via_counts (fixed_counts 32) _ _) uint32_counts) _ _

theorem location_counts : location.Counts := via_counts (pair_counts text_counts uint32_counts) _ _

theorem checksum_counts : checksum.Counts := via_counts uint64_counts _ _

theorem buildId_counts : buildId.Counts := via_counts octets_counts _ _

theorem operation_counts : operation.Counts := by
  have placed := pair_counts location_counts block_counts
  intro value
  cases value with
  | add place content => exact variant_counts 0 (placed (place, content))
  | remove place => exact variant_counts 1 (location_counts place)
  | modify place content => exact variant_counts 2 (placed (place, content))

theorem delta_counts : delta.Counts :=
  via_counts (pair_counts uint32_counts (pair_counts checksum_counts
    (pair_counts checksum_counts (list_counts operation_counts)))) _ _

theorem manifest_counts : manifest.Counts :=
  via_counts (pair_counts uint32_counts
    (list_counts (pair_counts text_counts (list_counts block_counts)))) _ _

theorem target_counts : target.Counts := fun value => variant_counts value.index rfl

theorem request_counts : request.Counts :=
  via_counts (pair_counts (via_counts uint64_counts _ _)
    (pair_counts (list_counts target_counts) (option_counts buildId_counts))) _ _

theorem payload_counts : payload.Counts := by
  intro value
  cases value with
  | upToDate => exact variant_counts 0 rfl
  | manifest content => exact variant_counts 1 (manifest_counts content)
  | delta content => exact variant_counts 2 (delta_counts content)

theorem response_counts : response.Counts :=
  via_counts (pair_counts buildId_counts (pair_counts checksum_counts payload_counts)) _ _

theorem message_counts : message.Counts := by
  intro value
  cases value with
  | getLatestBuild content => exact variant_counts 0 (request_counts content)
  | latestBuild content => exact variant_counts 1 (response_counts content)
  | error code content =>
    exact variant_counts 2 (pair_counts uint32_counts text_counts (code, content))
  | ping number => exact variant_counts 3 (uint64_counts number)
  | pong number => exact variant_counts 4 (uint64_counts number)

end Wire

/-- The bytes of a file in a manifest: its path and its blocks, and a length before each. -/
def Manifest.fileSize (path : String) (blocks : List Block) : Nat :=
  16 + path.utf8ByteSize + 36 * blocks.length

def Manifest.wireSize (manifest : Manifest) : Nat :=
  12 + (manifest.files.toList.map fun entry => fileSize entry.1 entry.2).sum

/-- The bytes of an operation: the number of its variant, its path with the length before it, its
index, and a hash and a size if there is a block. -/
def Delta.operationSize (operation : Operation) : Nat :=
  16 + operation.location.path.utf8ByteSize + if operation.block?.isSome then 36 else 0

/-- The bytes that what is conveyed takes behind the number of its variant. -/
def Payload.wireSize : Payload → Nat
  | .upToDate => 0
  | .manifest content => content.wireSize
  | .delta changes => changes.wireSize

def Response.wireSize (response : Response) : Nat :=
  20 + response.build.bytes.length + response.payload.wireSize

def Request.wireSize (request : Request) : Nat :=
  17 + 4 * request.targets.length + (request.held?.map fun held => 8 + held.bytes.length).getD 0

/-- The bytes of a message, which is what a frame has behind its header. -/
def Message.wireSize : Message → Nat
  | .getLatestBuild request => 4 + request.wireSize
  | .latestBuild response => 4 + response.wireSize
  | .error _ text => 16 + text.utf8ByteSize
  | .ping _ | .pong _ => 12

namespace Wire

open Format

theorem size_block (value : Block) : block.size value = 36 := rfl

theorem size_target (value : Target) : target.size value = 4 := rfl

theorem size_location (value : Location) : location.size value = 12 + value.path.utf8ByteSize :=
  show 8 + value.path.utf8ByteSize + 4 = _ by omega

theorem size_operation (value : Operation) : operation.size value = Delta.operationSize value := by
  have placed (place : Location) (content : Block) (tag : Nat) :
      sizeVariant tag ((pair location block).size (place, content)) =
        16 + place.path.utf8ByteSize + 36 := by
    change 4 + (location.size place + block.size content) = _
    rw [size_location, size_block]
    omega
  cases value with
  | add place content => exact placed place content 0
  | remove place =>
    change 4 + location.size place = 16 + place.path.utf8ByteSize
    rw [size_location]
    omega
  | modify place content => exact placed place content 2

theorem size_manifest (value : Manifest) : manifest.size value = value.wireSize := by
  have file (entry : String × List Block) :
      (pair text (list block)).size entry = Manifest.fileSize entry.1 entry.2 := by
    change 8 + entry.1.utf8ByteSize + (list block).size entry.2 = _
    rw [size_list_of_width size_block]
    unfold Manifest.fileSize
    omega
  change 4 + (list (pair text (list block))).size value.files.toList = _
  rw [size_list, funext file]
  unfold Manifest.wireSize
  omega

theorem size_payload (value : Payload) : payload.size value = 4 + value.wireSize := by
  cases value with
  | upToDate => rfl
  | manifest content => exact congrArg (4 + ·) (size_manifest content)
  | delta content => rfl

theorem size_response (value : Response) : response.size value = value.wireSize := by
  change 8 + value.build.bytes.length + (8 + payload.size value.payload) = _
  rw [size_payload]
  unfold Response.wireSize
  omega

theorem size_request (value : Request) : request.size value = value.wireSize := by
  have held (held? : Option BuildId) : (option buildId).size held? =
      1 + (held?.map fun held => 8 + held.bytes.length).getD 0 := by
    cases held? with
    | none => rfl
    | some held => rfl
  change 8 + ((list target).size value.targets + (option buildId).size value.held?) = _
  rw [size_list_of_width size_target, held]
  unfold Request.wireSize
  omega

theorem size_message (value : Message) : message.size value = value.wireSize := by
  cases value with
  | getLatestBuild request => exact congrArg (4 + ·) (size_request request)
  | latestBuild response => exact congrArg (4 + ·) (size_response response)
  | error code content =>
    change 4 + (4 + (8 + content.utf8ByteSize)) = 16 + content.utf8ByteSize
    omega
  | ping number => rfl
  | pong number => rfl

end Wire

namespace Delta

theorem wireSize_eq_sum (delta : Delta) :
    delta.wireSize = 28 + (delta.operations.map operationSize).sum := by
  change 4 + (8 + (8 + (Wire.Format.list Wire.operation).size delta.operations)) = _
  rw [Wire.Format.size_list, funext Wire.size_operation]
  omega

theorem operationSize_pos (operation : Operation) : 0 < operationSize operation :=
  Nat.add_pos_left (Nat.add_pos_left (by decide) _) _

theorem wireSize_of_perm {delta : Delta} {operations : List Operation}
    (reordered : operations.Perm delta.operations) :
    { delta with operations }.wireSize = delta.wireSize := by
  rw [wireSize_eq_sum, wireSize_eq_sum, (reordered.map operationSize).sum_nat]

theorem wireSize_concat (delta : Delta) (operation : Operation) :
    { delta with operations := delta.operations ++ [operation] }.wireSize =
      delta.wireSize + operationSize operation := by
  rw [wireSize_eq_sum, wireSize_eq_sum, List.map_append, List.sum_append_nat, List.map_singleton,
    List.sum_singleton, Nat.add_assoc]

theorem length_encode (delta : Delta) : (Wire.delta.encode delta).length =
    28 + (delta.operations.map fun operation =>
      16 + (Utf8.encode operation.location.path).length + match operation with
        | .add _ _ | .modify _ _ => 36
        | .remove _ => 0).sum := by
  rw [← Wire.delta_counts]
  refine (wireSize_eq_sum delta).trans ?_
  refine congrArg (fun sizes => 28 + List.sum sizes) (List.map_congr_left fun operation _ => ?_)
  rw [Utf8.length_encode]
  cases operation <;> rfl

/-- The size that is told for a delta is the number of bytes that are written for it. So it does not
depend on the order of the operations, and every further operation adds to it. -/
theorem wireSize_exact (delta : Delta) :
    delta.wireSize = (Wire.delta.encode delta).length ∧
    (Wire.delta.encode delta).length = 28 + (delta.operations.map fun operation =>
      16 + (Utf8.encode operation.location.path).length + match operation with
        | .add _ _ | .modify _ _ => 36
        | .remove _ => 0).sum ∧
    (∀ operations : List Operation, operations.Perm delta.operations →
      { delta with operations }.wireSize = delta.wireSize) ∧
    ∀ operation, delta.wireSize <
      { delta with operations := delta.operations ++ [operation] }.wireSize := by
  refine ⟨Wire.delta_counts delta, length_encode delta, fun operations => wireSize_of_perm,
    fun operation => ?_⟩
  rw [wireSize_concat]
  exact Nat.lt_add_of_pos_right (operationSize_pos operation)

/-- Changes of every kind, at paths whose characters take up to three bytes. -/
def multilingual : Delta :=
  ⟨4096, ⟨1⟩, ⟨2⟩, [.add ⟨"ä/b", 0⟩ (.uniform 1), .remove ⟨"日本", 1⟩, .modify ⟨"", 2⟩ (.uniform 3)]⟩

theorem wireSize_exact_multilingual :
    (Wire.delta.encode multilingual).length = 158 ∧
    { multilingual with operations := multilingual.operations.reverse }.wireSize = 158 ∧
    158 < { multilingual with
      operations := multilingual.operations ++ [Operation.remove ⟨"", 0⟩] }.wireSize := by
  obtain ⟨written, -, reordered, longer⟩ := wireSize_exact multilingual
  have size : multilingual.wireSize = 158 := by decide
  exact ⟨written.symm.trans size, (reordered _ (List.reverse_perm _)).trans size,
    size ▸ longer (Operation.remove ⟨"", 0⟩)⟩

end Delta

theorem Message.length_toBytes (message : Message) :
    message.toBytes.length = message.wireSize :=
  (Wire.message_counts message).symm.trans (Wire.size_message message)

end BuildDelivery
