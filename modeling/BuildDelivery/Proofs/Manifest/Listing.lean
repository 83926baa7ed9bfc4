import Mathlib.Data.List.Nodup
import BuildDelivery.Proofs.Manifest.Valid

/-! What a listing says about a location. Of several blocks that are listed for one location the
last counts. A manifest whose blocks all have an index lists each of its locations once and in
order, and says of every location what the manifest holds there. -/

set_option autoImplicit false

namespace BuildDelivery

/-- The last hit is one behind the first entry, or else the first entry. -/
theorem find?_reverse_cons {α : Type} (test : α → Bool) (entry : α) (rest : List α) :
    (entry :: rest).reverse.find? test =
      (rest.reverse.find? test).or (if test entry then some entry else none) := by
  rw [List.reverse_cons, List.find?_append, List.find?_singleton]

theorem ne_of_compare_eq_lt {α : Type} [Ord α] [Std.ReflOrd α] {left right : α}
    (before : compare left right = .lt) : left ≠ right := by
  rintro rfl
  rw [Std.ReflOrd.compare_self] at before
  cases before

namespace Location

theorem compare_eq_lt_iff {left right : Location} :
    compare left right = .lt ↔
      compare left.path right.path = .lt ∨
        left.path = right.path ∧ compare left.index right.index = .lt := by
  change (compare left.path right.path).then (compare left.index right.index) = .lt ↔ _
  rw [Ordering.then_eq_lt, Std.LawfulEqOrd.compare_eq_iff_eq]

theorem compare_index {path : String} {left right : Nat} (before : left < right)
    (small : right < Numeral.capacity 32) :
    compare (⟨path, UInt32.ofNat left⟩ : Location) ⟨path, UInt32.ofNat right⟩ = .lt := by
  have bound : Numeral.capacity 32 = 2 ^ 32 := rfl
  have ascending : UInt32.ofNat left < UInt32.ofNat right := by
    rw [UInt32.lt_iff_toNat_lt, UInt32.toNat_ofNat', UInt32.toNat_ofNat']
    omega
  exact compare_eq_lt_iff.mpr (.inr ⟨rfl, if_pos ascending⟩)

end Location

namespace Listing

/-- The block that counts at a location: of several the last. -/
def block? (listing : Listing) (location : Location) : Option Block :=
  (listing.blocks.reverse.find? fun entry => entry.1 = location).map Prod.snd

theorem block?_cons (size : UInt32) (entry : Location × Block)
    (rest : List (Location × Block)) (location : Location) :
    (mk size (entry :: rest)).block? location =
      ((mk size rest).block? location).or
        (if entry.1 = location then some entry.2 else none) := by
  rw [block?, block?, find?_reverse_cons]
  cases List.find? (fun entry => decide (entry.1 = location)) rest.reverse with
  | some found => rfl
  | none =>
    by_cases here : entry.1 = location
    · simp [here]
    · simp [here]

/-- No location is listed twice. -/
def Distinct (listing : Listing) : Prop := (listing.blocks.map Prod.fst).Nodup

/-- Locations go up, file by file and index by index. -/
def Ascending (listing : Listing) : Prop :=
  listing.blocks.Pairwise fun left right => compare left.1 right.1 = .lt

theorem Ascending.distinct {listing : Listing} (ascending : listing.Ascending) :
    listing.Distinct := List.pairwise_map.mpr (ascending.imp ne_of_compare_eq_lt)

theorem mem_of_block? {listing : Listing} {location : Location} {block : Block}
    (counts : listing.block? location = some block) : (location, block) ∈ listing.blocks := by
  obtain ⟨⟨place, content⟩, found, rfl⟩ := Option.map_eq_some_iff.mp counts
  have here : place = location := by simpa using List.find?_some found
  subst here
  simpa using List.mem_of_find?_eq_some found

theorem block?_eq_none_iff {listing : Listing} {location : Location} :
    listing.block? location = none ↔ location ∉ listing.blocks.map Prod.fst := by
  simp only [block?, Option.map_eq_none_iff, List.find?_eq_none, List.mem_reverse,
    decide_eq_true_eq, List.mem_map, not_exists, not_and]

theorem Distinct.eq_of_mem {listing : Listing} (distinct : listing.Distinct) {location : Location}
    {block other : Block} (first : (location, block) ∈ listing.blocks)
    (second : (location, other) ∈ listing.blocks) : block = other := by
  have same := List.inj_on_of_nodup_map distinct first second rfl
  exact congrArg Prod.snd same

/-- Without repetition, what counts is what is listed. -/
theorem Distinct.block?_eq_some_iff {listing : Listing} (distinct : listing.Distinct)
    {location : Location} {block : Block} :
    listing.block? location = some block ↔ (location, block) ∈ listing.blocks := by
  refine ⟨mem_of_block?, fun listed => ?_⟩
  cases counts : listing.block? location with
  | none => exact absurd (List.mem_map_of_mem listed) (block?_eq_none_iff.mp counts)
  | some other => rw [distinct.eq_of_mem (mem_of_block? counts) listed]

end Listing

theorem mem_locate_iff {path : String} {start : Nat} {blocks : List Block} {location : Location}
    {block : Block} :
    (location, block) ∈ locate path start blocks ↔
      ∃ number, blocks[number]? = some block ∧ location = ⟨path, UInt32.ofNat (start + number)⟩ := by
  induction blocks generalizing start with
  | nil => simp [locate]
  | cons first rest step =>
    simp only [locate, List.mem_cons, Prod.mk.injEq, step]
    constructor
    · rintro (⟨rfl, rfl⟩ | ⟨number, held, rfl⟩)
      · exact ⟨0, by simp⟩
      · exact ⟨number + 1, by simpa using held, by rw [Nat.add_assoc, Nat.add_comm 1]⟩
    · rintro ⟨number, held, rfl⟩
      cases number with
      | zero => exact .inl ⟨rfl, by simpa using held.symm⟩
      | succ number =>
        exact .inr ⟨number, by simpa using held, by rw [Nat.add_assoc, Nat.add_comm 1]⟩

theorem pairwise_locate {path : String} {start : Nat} {blocks : List Block}
    (small : start + blocks.length ≤ Numeral.capacity 32) :
    (locate path start blocks).Pairwise fun left right => compare left.1 right.1 = .lt := by
  induction blocks generalizing start with
  | nil => exact .nil
  | cons first rest step =>
    rw [List.length_cons] at small
    refine .cons (fun entry later => ?_) (step (by omega))
    obtain ⟨number, held, place⟩ := mem_locate_iff.mp later
    have bound := (List.getElem?_eq_some_iff.mp held).1
    rw [place]
    exact Location.compare_index (by omega) (by omega)

namespace Manifest

/-- The block that a manifest holds at a location. -/
def block? (manifest : Manifest) (location : Location) : Option Block :=
  (manifest.file? location.path).bind fun blocks => blocks[location.index.toNat]?

/-- No file has more blocks than there are indices. -/
def Indexable (manifest : Manifest) : Prop :=
  ∀ (path : String) (blocks : List Block),
    manifest.file? path = some blocks → blocks.length ≤ Numeral.capacity 32

/-- A manifest whose blocks have an index each lists them in order. -/
theorem Indexable.ascending {manifest : Manifest} (indexable : manifest.Indexable) :
    manifest.listing.Ascending := by
  refine List.pairwise_flatMap.mpr ⟨fun entry member => ?_, ?_⟩
  · have few := indexable entry.1 entry.2 (mem_toList_iff.mp member)
    exact pairwise_locate (by omega)
  -- Blocks of different files are in the order of the paths.
  · refine Std.ExtTreeMap.ordered_keys_toList.imp fun {left right} before first here second there => ?_
    obtain ⟨number, -, place⟩ := mem_locate_iff.mp here
    obtain ⟨other, -, place'⟩ := mem_locate_iff.mp there
    rw [place, place']
    exact Location.compare_eq_lt_iff.mpr (.inl before)

theorem Addressable.indexable {manifest : Manifest} (addressable : manifest.Addressable) :
    manifest.Indexable :=
  fun path blocks found => Nat.le_of_lt (addressable path blocks found)

theorem ascending_listing {manifest : Manifest} (addressable : manifest.Addressable) :
    manifest.listing.Ascending := addressable.indexable.ascending

theorem distinct_listing {manifest : Manifest} (addressable : manifest.Addressable) :
    manifest.listing.Distinct := (ascending_listing addressable).distinct

theorem mem_listing_iff {manifest : Manifest} (addressable : manifest.Addressable)
    {location : Location} {block : Block} :
    (location, block) ∈ manifest.listing.blocks ↔ manifest.block? location = some block := by
  simp only [listing, List.mem_flatMap, Prod.exists, mem_toList_iff, mem_locate_iff, block?,
    Option.bind_eq_some_iff, Nat.zero_add]
  constructor
  · rintro ⟨path, blocks, found, number, held, rfl⟩
    have few := addressable path blocks found
    have bound : Numeral.capacity 32 = 2 ^ 32 := rfl
    have small := (List.getElem?_eq_some_iff.mp held).1
    have index : (UInt32.ofNat number).toNat = number := by
      rw [UInt32.toNat_ofNat', Nat.mod_eq_of_lt (by omega)]
    exact ⟨blocks, found, by rw [index]; exact held⟩
  · rintro ⟨blocks, found, held⟩
    exact ⟨location.path, blocks, found, location.index.toNat, held, by rw [UInt32.ofNat_toNat]⟩

/-- The listing says of every location what the manifest holds there. -/
theorem block?_listing {manifest : Manifest} (addressable : manifest.Addressable)
    (location : Location) : manifest.listing.block? location = manifest.block? location := by
  refine Option.ext fun block => ?_
  rw [(distinct_listing addressable).block?_eq_some_iff, mem_listing_iff addressable]

theorem file?_of_block? {manifest : Manifest} {location : Location} {block : Block}
    (held : manifest.block? location = some block) :
    ∃ blocks, manifest.file? location.path = some blocks := by
  obtain ⟨blocks, found, -⟩ := Option.bind_eq_some_iff.mp held
  exact ⟨blocks, found⟩

theorem block?_of_file? {manifest : Manifest} {path : String} {blocks : List Block}
    (found : manifest.file? path = some blocks) (index : UInt32) :
    manifest.block? ⟨path, index⟩ = blocks[index.toNat]? := by
  simp only [block?, found, Option.bind_some]

/-- Two rows that are no longer than there are indices are equal if they agree on every index. -/
theorem eq_of_index {left right : List Block} (shortLeft : left.length < Numeral.capacity 32)
    (shortRight : right.length < Numeral.capacity 32)
    (same : ∀ index : UInt32, left[index.toNat]? = right[index.toNat]?) : left = right := by
  have bound : Numeral.capacity 32 = 2 ^ 32 := rfl
  refine List.ext_getElem? fun number => ?_
  -- Places that no index can tell lie behind both rows.
  by_cases small : number < 2 ^ 32
  · have index : (UInt32.ofNat number).toNat = number := by
      rw [UInt32.toNat_ofNat', Nat.mod_eq_of_lt small]
    have here := same (UInt32.ofNat number)
    rwa [index] at here
  · rw [List.getElem?_eq_none (by omega), List.getElem?_eq_none (by omega)]

theorem Valid.first_block {manifest : Manifest} (valid : manifest.Valid) {path : String}
    {blocks : List Block} (found : manifest.file? path = some blocks) :
    ∃ block, manifest.block? ⟨path, 0⟩ = some block := by
  obtain ⟨first, rest, rfl⟩ := List.exists_cons_of_ne_nil (valid.nonempty path blocks found)
  exact ⟨first, block?_of_file? found 0⟩

/-- The files of a valid manifest are known from its blocks. -/
theorem file?_eq_of_block? {left right : Manifest} (validLeft : left.Valid)
    (addressableLeft : left.Addressable) (validRight : right.Valid)
    (addressableRight : right.Addressable) {path : String}
    (same : ∀ index : UInt32, left.block? ⟨path, index⟩ = right.block? ⟨path, index⟩) :
    left.file? path = right.file? path := by
  cases foundLeft : left.file? path with
  | none =>
    cases foundRight : right.file? path with
    | none => rfl
    | some blocks =>
      obtain ⟨block, first⟩ := validRight.first_block foundRight
      obtain ⟨_, found⟩ := file?_of_block? ((same 0).trans first)
      cases foundLeft.symm.trans found
  | some blocks =>
    cases foundRight : right.file? path with
    | none =>
      obtain ⟨block, first⟩ := validLeft.first_block foundLeft
      obtain ⟨_, found⟩ := file?_of_block? ((same 0).symm.trans first)
      cases foundRight.symm.trans found
    | some others =>
      refine congrArg some (eq_of_index (addressableLeft path blocks foundLeft)
        (addressableRight path others foundRight) fun index => ?_)
      rw [← block?_of_file? foundLeft, ← block?_of_file? foundRight]
      exact same index

end Manifest

end BuildDelivery
