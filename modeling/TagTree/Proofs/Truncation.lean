import TagTree.Proofs.Loading
import TagTree.Proofs.Resolution
import TagTree.Proofs.Succession

/-!
# Images cut short

An image that is cut short says less, but nothing else: whatever can still be read of it can be read
of the whole image with the same result. So each of its walks is the beginning of a walk over the
whole image, and a record or a text is either found where it was or not at all.
-/

namespace TagTree

/-- What the first computation gives, the second gives as well. -/
def CarriesOver {α : Type} (first second : Except Error α) : Prop :=
  ∀ value, first = .ok value → second = .ok value

namespace CarriesOver

variable {α β : Type} {first second : Except Error α} {next next' : α → Except Error β}

theorem refl (first : Except Error α) : CarriesOver first first :=
  fun _ gives => gives

theorem of_error {cause : Error} (second : Except Error α) : CarriesOver (.error cause) second := by
  intro value gives
  cases gives

/-- Two computations carry over one after the other. -/
theorem bind (carries : CarriesOver first second)
    (carriesNext : ∀ value, CarriesOver (next value) (next' value)) :
    CarriesOver (first >>= next) (second >>= next') := by
  intro result gives
  cases firstly : first with
  | error cause =>
      rw [firstly] at gives
      cases gives
  | ok value =>
      rw [firstly] at gives
      rw [carries value firstly]
      exact carriesNext value result gives

theorem map (carries : CarriesOver first second) (change : α → β) :
    CarriesOver (first.map change) (second.map change) := by
  intro result gives
  cases firstly : first with
  | error cause =>
      rw [firstly] at gives
      cases gives
  | ok value =>
      rw [firstly] at gives
      rw [carries value firstly]
      exact gives

theorem toOption {value : α} (carries : CarriesOver first second)
    (gives : first.toOption = some value) : second.toOption = some value := by
  cases firstly : first with
  | error cause =>
      rw [firstly] at gives
      cases gives
  | ok found =>
      rw [firstly] at gives
      rw [carries found firstly]
      exact gives

end CarriesOver

/-! ## Images -/

namespace Image

/-- One image is the beginning of another, or all of it. -/
def CutFrom (part whole : Image) : Prop :=
  part.toList <+: whole.toList

namespace CutFrom

variable {part whole : Image} {parent id offset previous : Nat} {tag : Tag} {kind : Kind}

theorem size_le (cut : part.CutFrom whole) : part.size ≤ whole.size :=
  cut.length_le

theorem holds {bytes : List UInt8} (cut : part.CutFrom whole) (stands : part.Holds offset bytes) :
    whole.Holds offset bytes := by
  obtain ⟨front, back, split, place⟩ := stands
  obtain ⟨more, longer⟩ := cut
  refine ⟨front, back ++ more, ?_, place⟩
  rw [← longer, split, List.append_assoc]

theorem slice (cut : part.CutFrom whole) (offset length : Nat) :
    CarriesOver (part.slice offset length) (whole.slice offset length) := by
  intro bytes read
  obtain ⟨rfl, stands⟩ := holds_of_slice read
  exact (cut.holds stands).slice

theorem number (cut : part.CutFrom whole) (offset width : Nat) :
    CarriesOver (part.number offset width) (whole.number offset width) :=
  (cut.slice offset width).map LittleEndian.decode

/-! ### Records -/

/-- A tag that can be read stays. Only the null tag may stand for one that was cut off. -/
theorem tagAt (cut : part.CutFrom whole) (readable : part.tagAt id ≠ .null) :
    whole.tagAt id = part.tagAt id := by
  cases number : part.number id tagSize with
  | error cause =>
      rw [Image.tagAt, number] at readable
      exact absurd rfl readable
  | ok raw => rw [Image.tagAt, Image.tagAt, number, cut.number id tagSize raw number]

theorem tagAt_of_kindAt? (cut : part.CutFrom whole) (kindAt : part.kindAt? id = some kind) :
    whole.tagAt id = part.tagAt id := by
  apply cut.tagAt
  intro isNull
  rw [Image.kindAt?, isNull] at kindAt
  cases kindAt

theorem kindAt? (cut : part.CutFrom whole) (kindAt : part.kindAt? id = some kind) :
    whole.kindAt? id = some kind := by
  rw [Image.kindAt?, cut.tagAt_of_kindAt? kindAt]
  exact kindAt

theorem exists_kindAt? (readable : part.sizeOf id ≠ 0) : ∃ kind, part.kindAt? id = some kind := by
  cases kindAt : part.kindAt? id with
  | none =>
      rw [Image.sizeOf, kindAt] at readable
      exact absurd rfl readable
  | some kind => exact ⟨kind, rfl⟩

/-- The size of a record that can be read stays, even where its contents were cut off. -/
theorem sizeOf (cut : part.CutFrom whole) (readable : part.sizeOf id ≠ 0) :
    whole.sizeOf id = part.sizeOf id := by
  obtain ⟨kind, kindAt⟩ := exists_kindAt? readable
  cases fixed : kind.fixedSize? with
  | some size =>
      rw [sizeOf_of_fixedSize? kindAt fixed, sizeOf_of_fixedSize? (cut.kindAt? kindAt) fixed]
  | none =>
      obtain ⟨length, number, small, size⟩ := exists_length_of_sizeOf kindAt fixed readable
      rw [size]
      exact sizeOf_of_number (cut.kindAt? kindAt) fixed (cut.number _ _ _ number) small

theorem readScalar {form : Scalar} {value : form.Value} (cut : part.CutFrom whole)
    (stored : part.GivesNumber form id value) : whole.GivesNumber form id value := by
  rw [givesNumber_iff] at stored ⊢
  exact ⟨cut.kindAt? stored.1, cut.number _ _ _ stored.2⟩

theorem binaryData? {bytes : List UInt8} (cut : part.CutFrom whole)
    (found : part.binaryData? id = some bytes) : whole.binaryData? id = some bytes := by
  rw [binaryData?_eq_some_iff] at found ⊢
  exact ⟨cut.kindAt? found.1, cut.holds found.2⟩

/-! ### Walks -/

theorem firstChild {first : Nat} (cut : part.CutFrom whole)
    (isFirst : part.firstChild parent = some first) : whole.firstChild parent = some first := by
  have longer := cut.size_le
  by_cases isRoot : parent = root
  · subst isRoot
    rw [firstChild_root, Option.ite_none_right_eq_some] at isFirst ⊢
    exact ⟨by omega, isFirst.2⟩
  · rw [Image.firstChild, if_neg isRoot, Option.ite_none_right_eq_some] at isFirst ⊢
    obtain ⟨⟨isList, nonempty⟩, place⟩ := isFirst
    rw [cut.sizeOf (Nat.ne_zero_of_lt nonempty)]
    exact ⟨⟨cut.kindAt? isList, nonempty⟩, place⟩

theorem encloses (cut : part.CutFrom whole) (encloses : part.Encloses parent offset) :
    whole.Encloses parent offset := by
  rcases encloses with isRoot | below
  · exact .inl isRoot
  · right
    rw [cut.sizeOf below.1]
    exact below

theorem nextChild {next : Nat} (cut : part.CutFrom whole)
    (step : part.nextChild parent previous = some next) :
    whole.nextChild parent previous = some next := by
  have longer := cut.size_le
  simp only [Image.nextChild, Option.ite_none_right_eq_some, Option.some.injEq] at step
  obtain ⟨⟨readable, inside, encloses⟩, rfl⟩ := step
  have same := cut.sizeOf readable
  rw [← same]
  apply nextChild_eq_some
  · rwa [same]
  · rw [same]
    omega
  · rw [same]
    exact cut.encloses encloses

theorem siblingsFrom (cut : part.CutFrom whole) (parent id : Nat) :
    part.siblingsFrom parent id <+: whole.siblingsFrom parent id := by
  fun_induction part.siblingsFrom parent id with
  | case1 id stop =>
      rw [siblingsFrom_eq whole]
      exact ⟨_, rfl⟩
  | case2 id next step ih =>
      rw [siblingsFrom_of_some (cut.nextChild step), List.prefix_cons_inj]
      exact ih

/-- The children that are left are the first of those that there were. -/
theorem children (cut : part.CutFrom whole) (parent : Nat) :
    part.children parent <+: whole.children parent := by
  rw [Image.children]
  cases isFirst : part.firstChild parent with
  | none => exact List.nil_prefix
  | some id =>
      rw [Image.children, cut.firstChild isFirst]
      exact cut.siblingsFrom parent id

/-- A record that a search goes past has a tag that can be read, so it is gone past in the whole
image too. -/
theorem findFrom {found : Nat} (cut : part.CutFrom whole) (notNull : tag ≠ .null)
    (search : part.findFrom parent tag id = some found) :
    whole.findFrom parent tag id = some found := by
  fun_induction part.findFrom parent tag id with
  | case1 id same =>
      have readable : part.tagAt id ≠ .null := by
        rw [same]
        exact notNull
      rw [Image.findFrom, if_pos ((cut.tagAt readable).trans same)]
      exact search
  | case2 => cases search
  | case3 id other next step ih =>
      have readable : part.sizeOf id ≠ 0 := by
        intro unreadable
        rw [Image.nextChild, if_neg fun both => both.1 unreadable] at step
        cases step
      obtain ⟨kind, kindAt⟩ := exists_kindAt? readable
      rw [Image.findFrom, if_neg (cut.tagAt_of_kindAt? kindAt ▸ other)]
      split
      · next stop =>
          rw [cut.nextChild step] at stop
          cases stop
      · next following isNext =>
          rw [cut.nextChild step, Option.some.injEq] at isNext
          subst isNext
          exact ih search

theorem findFirst {found : Nat} (cut : part.CutFrom whole) (notNull : tag ≠ .null)
    (search : part.findFirst parent tag = some found) :
    whole.findFirst parent tag = some found := by
  rw [Image.findFirst, Option.bind_eq_some_iff] at search ⊢
  obtain ⟨first, isFirst, search⟩ := search
  exact ⟨first, cut.firstChild isFirst, cut.findFrom notNull search⟩

end CutFrom

end Image

/-! ## Databases -/

namespace Database

open Image

/-- Whatever can be read of one database can be read of the other with the same result. A number
counts as read where it does not depend on the default. -/
structure ReadableIn (part whole : Database) : Prop where
  children : ∀ parent, part.image.children parent <+: whole.image.children parent
  stringTable : ∀ table, part.stringTable = some table → whole.stringTable = some table
  findFirst : ∀ parent tag child, tag ≠ .null →
    part.image.findFirst parent tag = some child → whole.image.findFirst parent tag = some child
  sizeOf : ∀ id, part.image.sizeOf id ≠ 0 → whole.image.sizeOf id = part.image.sizeOf id
  readScalar : ∀ (form : Scalar) (id : Nat) (value : form.Value),
    (∀ default, part.image.readScalar form id default = value) →
      ∀ default, whole.image.readScalar form id default = value
  binaryData? : ∀ id bytes,
    part.image.binaryData? id = some bytes → whole.image.binaryData? id = some bytes
  resolveString : ∀ id found,
    part.resolveString id = .ok found → whole.resolveString id = .ok found
  stringBytes? : ∀ id bytes, part.stringBytes? id = some bytes → whole.stringBytes? id = some bytes
  string? : ∀ id text, part.string? id = some text → whole.string? id = some text

variable {part whole : Database}

theorem carriesOver_offsetBehind (part whole : Database) (base distance : Nat) :
    CarriesOver (part.offsetBehind base distance) (whole.offsetBehind base distance) := by
  rw [offsetBehind, offsetBehind]
  split
  · exact .refl _
  · exact .of_error _

section Texts

variable (cut : part.image.CutFrom whole.image)
  (sameTable : ∀ table, part.stringTable = some table → whole.stringTable = some table)

include cut

theorem carriesOver_textStretch (item : Nat) :
    CarriesOver (part.textStretch item) (whole.textStretch item) := by
  apply (carriesOver_offsetBehind part whole _ _).bind
  intro place
  apply (cut.number _ _).bind
  intro length
  apply (cut.slice _ _).bind
  intro bytes
  exact .refl _

include sameTable

theorem carriesOver_followReference (id : Nat) :
    CarriesOver (part.followReference id) (whole.followReference id) := by
  rw [followReference, followReference]
  cases hasTable : part.stringTable with
  | none => exact .of_error _
  | some table =>
      rw [sameTable table hasTable]
      apply (cut.number _ _).bind
      intro relative
      exact carriesOver_offsetBehind part whole table relative

theorem carriesOver_textItem (id : Nat) :
    CarriesOver (part.textItem id) (whole.textItem id) := by
  apply (cut.number _ _).bind
  intro raw
  dsimp only
  cases (Tag.mk (UInt16.ofNat raw)).kind? with
  | none => exact .of_error _
  | some kind =>
      cases kind with
      | string => exact .refl _
      | stringRef => exact carriesOver_followReference cut sameTable id
      | _ => exact .of_error _

/-- A text that can be resolved is resolved to the same stretch. -/
theorem carriesOver_resolveString (id : Nat) :
    CarriesOver (part.resolveString id) (whole.resolveString id) := by
  rw [resolveString_eq_bind, resolveString_eq_bind]
  exact (carriesOver_textItem cut sameTable id).bind (carriesOver_textStretch cut)

theorem stringBytes?_of_cut {id : Nat} {bytes : List UInt8}
    (found : part.stringBytes? id = some bytes) : whole.stringBytes? id = some bytes := by
  rw [stringBytes?] at found ⊢
  cases resolved : part.resolveString id with
  | error cause =>
      rw [resolved] at found
      cases found
  | ok stretch =>
      rw [resolved] at found
      rw [carriesOver_resolveString cut sameTable id stretch resolved]
      exact (cut.slice _ _).toOption found

end Texts

theorem readableIn_of_cut (cut : part.image.CutFrom whole.image)
    (sameTable : ∀ table, part.stringTable = some table → whole.stringTable = some table) :
    part.ReadableIn whole where
  children := cut.children
  stringTable := sameTable
  findFirst parent tag child := cut.findFirst
  sizeOf id := cut.sizeOf
  readScalar form id value := cut.readScalar
  binaryData? id bytes := cut.binaryData?
  resolveString := carriesOver_resolveString cut sameTable
  stringBytes? id bytes := stringBytes?_of_cut cut sameTable
  string? id text found := by
    rw [Database.string?, Option.map_eq_some_iff] at found ⊢
    obtain ⟨bytes, read, decoded⟩ := found
    exact ⟨bytes, stringBytes?_of_cut cut sameTable read, decoded⟩

/-- A header is read from the first bytes alone, so it is read from every beginning that has it. -/
theorem parse_of_isPrefix {bytes front : List UInt8} {header : Header}
    (parsed : Header.parse bytes = .ok header) (isPrefix : front <+: bytes)
    (long : Header.size ≤ front.length) : Header.parse front = .ok header := by
  have begins : front.take Header.size = header.encode := by
    rw [Header.encode_of_parse parsed]
    obtain ⟨more, rfl⟩ := isPrefix
    exact (List.take_append_of_le_length long).symm
  rw [← List.take_append_drop Header.size front, begins]
  exact Header.parse_encode_append header _

/-- Bytes that are accepted are still accepted when they are cut anywhere behind the header, and
whatever can be read of what is left can be read of the whole with the same result. -/
theorem readableIn_of_isPrefix {bytes front : List UInt8} {whole : Database}
    (accepted : ofBytes bytes = .ok whole) (isPrefix : front <+: bytes)
    (long : Header.size ≤ front.length) :
    ∃ part, ofBytes front = .ok part ∧ part.ReadableIn whole := by
  obtain ⟨header, image, parsed, supported, kept, rfl⟩ := ofBytes_eq_ok_iff.mp accepted
  have sameBytes := Image.toList_of_ofList kept
  have fits : front.length < sizeLimit := by
    have shorter := isPrefix.length_le
    rw [← sameBytes] at shorter
    exact Nat.lt_of_le_of_lt shorter image.size_lt
  obtain ⟨left, keptLeft⟩ := Image.ofList_of_lt fits
  have cut : left.CutFrom image := by
    rw [CutFrom, Image.toList_of_ofList keptLeft, sameBytes]
    exact isPrefix
  have parsedLeft := parse_of_isPrefix parsed isPrefix long
  refine ⟨_, ofBytes_eq_ok_iff.mpr ⟨header, left, parsedLeft, supported, keptLeft, rfl⟩, ?_⟩
  apply readableIn_of_cut cut
  intro table located
  exact cut.findFirst (by decide) located

/-- A reference to a text of the table behind it. -/
def referringBytes : List UInt8 :=
  (⟨Header.supportedMajor, 1⟩ : Header).encode ++
    [0x01, 0x60, 6, 0, 0, 0,
      0x01, 0x78, 10, 0, 0, 0,
      0x01, 0x88, 4, 0, 0, 0, 0xE9, 0, 0, 0,
      0x01, 0x90, 2, 0, 0, 0, 0x07, 0x70]

/-- The table is left whole, and only the tag and half the length are left of what stands behind. -/
theorem readableIn_referringBytes :
    ∃ whole part, ofBytes referringBytes = .ok whole ∧
      referringBytes.take 38 <+: referringBytes ∧
        Header.size ≤ (referringBytes.take 38).length ∧
          ofBytes (referringBytes.take 38) = .ok part ∧ part.ReadableIn whole := by
  have accepted : (ofBytes referringBytes).isOk = true := by
    decide +kernel
  cases loaded : ofBytes referringBytes with
  | error cause =>
      rw [loaded] at accepted
      cases accepted
  | ok whole =>
      have isPrefix : referringBytes.take 38 <+: referringBytes := List.take_prefix ..
      have long : Header.size ≤ (referringBytes.take 38).length := by decide
      obtain ⟨part, loadedPart, readable⟩ := readableIn_of_isPrefix loaded isPrefix long
      exact ⟨whole, part, rfl, isPrefix, long, loadedPart, readable⟩

end Database

end TagTree
