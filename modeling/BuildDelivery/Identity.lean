import BuildDelivery.Blake3
import BuildDelivery.Text.Hex
import Std.Data.ExtTreeMap

/-! The names of things that are delivered: branches, targets, builds, block contents and
whole manifests. -/

set_option autoImplicit false

namespace BuildDelivery

/-- A line of releases. Zero means that no branch was given. -/
structure BranchId where
  value : UInt64
  deriving DecidableEq, Repr

def BranchId.isUnset (branch : BranchId) : Bool := branch.value == 0

def BranchId.toText (branch : BranchId) : String := toString branch.value.toNat

/-- A platform that a build can be made for, in the order of the wire format. -/
inductive Target where
  | windowsX64
  | windowsX86
  | linuxX64
  | linuxArm64
  | macosX64
  | macosArm64
  deriving DecidableEq, Repr

namespace Target

def all : List Target := [windowsX64, windowsX86, linuxX64, linuxArm64, macosX64, macosArm64]

def index : Target → Nat
  | windowsX64 => 0
  | windowsX86 => 1
  | linuxX64 => 2
  | linuxArm64 => 3
  | macosX64 => 4
  | macosArm64 => 5

/-- The name that files and command lines use. -/
def name : Target → String
  | windowsX64 => "windows-x64"
  | windowsX86 => "windows-x86"
  | linuxX64 => "linux-x64"
  | linuxArm64 => "linux-arm64"
  | macosX64 => "macos-x64"
  | macosArm64 => "macos-arm64"

/-- The name that failure messages use. -/
def label : Target → String
  | windowsX64 => "WindowsX64"
  | windowsX86 => "WindowsX86"
  | linuxX64 => "LinuxX64"
  | linuxArm64 => "LinuxArm64"
  | macosX64 => "MacosX64"
  | macosArm64 => "MacosArm64"

def aliases : Target → List String
  | windowsX64 => ["win64", "windows-x86_64"]
  | windowsX86 => ["win32"]
  | linuxX64 => ["linux-x86_64", "linux64"]
  | linuxArm64 => ["linux-aarch64"]
  | macosX64 => ["macos-x86_64", "osx64"]
  | macosArm64 => ["macos-aarch64"]

def ofName? (name : String) : Option Target := all.find? (·.name == name)

/-- The target with this name or spelling, in letters of any case. Every spelling is ASCII,
and no letter outside ASCII becomes one of its letters in lower case. -/
def ofSpelling? (text : String) : Option Target :=
  let lower := text.toLower
  all.find? fun target => (target.name :: target.aliases).contains lower

theorem index_lt (target : Target) : target.index < 6 := by cases target <;> decide

theorem index_injective {left right : Target} (same : left.index = right.index) :
    left = right := by
  cases left <;> cases right <;> first | rfl | (exact absurd same (by decide))

end Target

/-- What a release names: one target of one branch. -/
structure Channel where
  branch : BranchId
  target : Target
  deriving DecidableEq, Repr

/-- The name of an immutable build: any byte string. -/
structure BuildId where
  bytes : Bytes
  deriving DecidableEq, Repr

namespace BuildId

def isEmpty (id : BuildId) : Bool := id.bytes.isEmpty

/-- Lowercase hexadecimal text, also the stem of the file that holds the manifest. -/
def toHex (id : BuildId) : String := Hex.encode id.bytes

def ofHex (text : String) : Except Hex.Fault BuildId := (Hex.decode text).map BuildId.mk

end BuildId

/-- The BLAKE3 digest of a block's bytes. -/
structure BlockHash where
  bytes : Bytes
  length_bytes : bytes.length = 32
  deriving DecidableEq, Repr

namespace BlockHash

def ofData (data : Bytes) : BlockHash := ⟨Blake3.digest data, Blake3.length_digest data⟩

def toHex (hash : BlockHash) : String := Hex.encode hash.bytes

def ofHex (text : String) : Except Hex.Fault BlockHash :=
  match read : Hex.decodeExactly 32 text with
  | .ok bytes => .ok ⟨bytes, Hex.length_of_decodeExactly read⟩
  | .error fault => .error fault

/-- The first sixteen digits, enough to tell hashes apart by eye. -/
def abbreviation (hash : BlockHash) : String := Hex.encode (hash.bytes.take 8)

end BlockHash

/-- The fingerprint of everything that a manifest lists. -/
structure Checksum where
  value : UInt64
  deriving DecidableEq, Repr

def Checksum.toText (checksum : Checksum) : String :=
  String.ofList (Numeral.padded 16 16 checksum.value.toNat)

instance : Ord BuildId := ⟨compareOn BuildId.bytes⟩

instance : Std.TransOrd BuildId := inferInstanceAs (Std.TransCmp (compareOn BuildId.bytes))

instance : Std.LawfulEqOrd BuildId where
  eq_of_compare {left right} same := by
    have bytes : left.bytes = right.bytes := Std.LawfulEqOrd.eq_of_compare same
    cases left
    cases right
    simp_all

instance : Ord Channel :=
  ⟨compareLex (compareOn fun channel => channel.branch.value) (compareOn fun channel => channel.target.index)⟩

instance : Std.TransOrd Channel :=
  inferInstanceAs (Std.TransCmp
    (compareLex (compareOn fun channel : Channel => channel.branch.value)
      (compareOn fun channel : Channel => channel.target.index)))

instance : Std.LawfulEqOrd Channel where
  eq_of_compare {left right} same := by
    obtain ⟨⟨branch⟩, target⟩ := left
    obtain ⟨⟨branch'⟩, target'⟩ := right
    have parts := compareLex_eq_eq.mp same
    have branches : branch = branch' := Std.LawfulEqOrd.eq_of_compare parts.1
    have targets : target.index = target'.index := Std.LawfulEqOrd.eq_of_compare parts.2
    rw [branches, Target.index_injective targets]

end BuildDelivery
