import TagTree.Proofs.Draft

/-!
# Running out of places

A record is added part by part: its tag, then its number or its length, then its bytes. A part for
which there is no room is refused, but the parts before it stay. So does a text that was taken into
the pool for a reference that no longer fits, and the texts of a string table that does not fit are
gone. What was there before is kept: only the end of the image, the pool and the open lists differ.
Nothing at all changes just where what a call tries first is already refused.
-/

namespace TagTree

/-! ## Parts -/

/-- The bytes of parts, one after the other, as long as there is room for the next one. -/
def fitting (size : Nat) : List (List UInt8) → List UInt8
  | [] => []
  | part :: rest =>
      if size + part.length < sizeLimit then part ++ fitting (size + part.length) rest else []

section Fitting

variable {size : Nat} {parts more : List (List UInt8)}

theorem fitting_lt (inside : size < sizeLimit) :
    size + (fitting size parts).length < sizeLimit := by
  fun_induction fitting size parts with
  | case1 => exact inside
  | case2 size part rest fits ih =>
      rw [List.length_append, ← Nat.add_assoc]
      exact ih fits
  | case3 => exact inside

/-- Where all of some parts fit, further ones come behind them. -/
theorem fitting_append_of_lt (fits : size + parts.flatten.length < sizeLimit) :
    fitting size (parts ++ more) =
      parts.flatten ++ fitting (size + parts.flatten.length) more := by
  induction parts generalizing size with
  | nil => rfl
  | cons part rest ih =>
      rw [List.flatten_cons, List.length_append, ← Nat.add_assoc] at fits ⊢
      rw [List.cons_append, fitting, if_pos (by omega), ih fits, List.append_assoc]

/-- Where not all of some parts fit, nothing comes behind them. -/
theorem fitting_append_of_not_lt (inside : size < sizeLimit)
    (noRoom : ¬size + parts.flatten.length < sizeLimit) :
    fitting size (parts ++ more) = fitting size parts := by
  induction parts generalizing size with
  | nil => exact absurd inside noRoom
  | cons part rest ih =>
      rw [List.flatten_cons, List.length_append, ← Nat.add_assoc] at noRoom
      rw [List.cons_append, fitting, fitting]
      split
      · next fits => rw [ih fits noRoom]
      · rfl

end Fitting

namespace Image

variable {image : Image}

theorem room_fitting (image : Image) (parts : List (List UInt8)) :
    image.HasRoom (fitting image.size parts).length :=
  fitting_lt image.size_lt

/-- There is never room for bytes whose number is no 32-bit number. -/
theorem noRoom_of_le (image : Image) {bytes : List UInt8} (large : sizeLimit ≤ bytes.length)
    (first second : List UInt8) : ¬image.HasRoom (first ++ (second ++ bytes)).length := by
  rw [hasRoom_iff, List.length_append, List.length_append]
  omega

/-- Doubling on the way to a larger number is doubling to it. -/
theorem doubled_doubled {required more : Nat} (le : required ≤ more) (capacity : Nat)
    (positive : 0 < capacity) (positive' : 0 < doubled required capacity positive) :
    doubled more (doubled required capacity positive) positive' =
      doubled more capacity positive := by
  fun_induction doubled required capacity positive with
  | case1 => rfl
  | case2 capacity positive small ih =>
      have step : doubled more capacity positive = doubled more (2 * capacity) (by omega) := by
        rw [doubled, if_neg (by omega)]
      exact (ih _).trans step.symm

@[simp] theorem extend_nil (room : image.HasRoom ([] : List UInt8).length) :
    image.extend [] room = image := by
  have enough : doubled image.bytes.size image.capacity image.capacity_pos = image.capacity := by
    rw [doubled, if_pos image.size_le_capacity]
  cases image
  simpa [extend] using enough

/-- Adding bytes twice is adding them at once, the space that is set aside included. -/
theorem extend_extend (first second : List UInt8) (room : image.HasRoom first.length)
    (again : (image.extend first room).HasRoom second.length)
    (together : image.HasRoom (first ++ second).length) :
    (image.extend first room).extend second again = image.extend (first ++ second) together := by
  have total : (image.bytes ++ first).size + second.length =
      image.bytes.size + (first ++ second).length := by
    rw [size_append_list, List.length_append, Nat.add_assoc]
  have further : image.bytes.size + first.length ≤ (image.bytes ++ first).size + second.length := by
    rw [size_append_list]
    omega
  simp only [extend, mk.injEq]
  constructor
  · exact Array.toList_inj.mp (by simp)
  · rw [doubled_doubled further, total]

end Image

namespace Database

/-- The database with bytes added at the end of its image. -/
def extend (before : Database) (bytes : List UInt8) (room : before.image.HasRoom bytes.length) :
    Database :=
  { before with image := before.image.extend bytes room }

/-- The database with as many of some parts at the end of its image as there is room for. -/
def extendFitting (before : Database) (parts : List (List UInt8)) : Database :=
  before.extend (fitting before.image.size parts) (before.image.room_fitting parts)

variable {before : Database} {parts more : List (List UInt8)}

@[simp] theorem extend_nil (room : before.image.HasRoom ([] : List UInt8).length) :
    before.extend [] room = before := by
  simp [extend]

@[simp] theorem extendFitting_nil (before : Database) : before.extendFitting [] = before :=
  extend_nil _

theorem size_image_extend {bytes : List UInt8} (room : before.image.HasRoom bytes.length) :
    (before.extend bytes room).image.size = before.image.size + bytes.length :=
  Image.size_extend _ _ room

theorem extend_extend {first second : List UInt8} (room : before.image.HasRoom first.length)
    (again : (before.extend first room).image.HasRoom second.length)
    (together : before.image.HasRoom (first ++ second).length) :
    (before.extend first room).extend second again =
      before.extend (first ++ second) together :=
  congrArg (fun image => { before with image })
    (Image.extend_extend first second room again together)

theorem extend_congr {first second : List UInt8} (same : first = second)
    (room : before.image.HasRoom first.length) :
    before.extend first room = before.extend second (same ▸ room) := by
  subst same
  rfl

theorem toList_extendFitting (before : Database) (parts : List (List UInt8)) :
    (before.extendFitting parts).image.toList =
      before.image.toList ++ fitting before.image.size parts :=
  Image.toList_extend _ _ (before.image.room_fitting parts)

theorem extendFitting_of_noRoom {part : List UInt8}
    (noRoom : ¬before.image.HasRoom part.length) (rest : List (List UInt8)) :
    before.extendFitting (part :: rest) = before := by
  have none : fitting before.image.size (part :: rest) = [] := if_neg noRoom
  rw [extendFitting, extend_congr none, extend_nil]

/-- Nothing is added just where there is no room for the first part. -/
theorem extendFitting_eq_self_iff {part : List UInt8} (someBytes : part ≠ [])
    (rest : List (List UInt8)) :
    before.extendFitting (part :: rest) = before ↔ ¬before.image.HasRoom part.length := by
  constructor
  · intro same room
    rw [Image.hasRoom_iff] at room
    have added := congrArg (fun database => database.image.size) same
    simp only [extendFitting, size_image_extend, fitting, if_pos room, List.length_append] at added
    have counted := List.length_pos_iff.mpr someBytes
    omega
  · intro noRoom
    exact extendFitting_of_noRoom noRoom rest

/-- Where all of some parts fit, further ones are added to what they make up. -/
theorem extendFitting_extend (room : before.image.HasRoom parts.flatten.length) :
    (before.extend parts.flatten room).extendFitting more =
      before.extendFitting (parts ++ more) := by
  have both : fitting before.image.size (parts ++ more) =
      parts.flatten ++ fitting (before.extend parts.flatten room).image.size more := by
    rw [size_image_extend room]
    exact fitting_append_of_lt room
  rw [extendFitting, extendFitting, extend_congr both]
  exact extend_extend room _ _

/-- Where not all of some parts fit, further ones change nothing. -/
theorem extendFitting_append_of_noRoom (noRoom : ¬before.image.HasRoom parts.flatten.length) :
    before.extendFitting (parts ++ more) = before.extendFitting parts :=
  extend_congr (fitting_append_of_not_lt before.image.size_lt noRoom) _

end Database

/-- An action adds certain parts, or as many of them as there is room for. -/
structure Action.AddsParts (action : Action Unit) (parts : List (List UInt8)) : Prop where
  done : ∀ {before after : Database}, action.run before = .ok () after →
    ∃ room, after = before.extend parts.flatten room
  stopped : ∀ {before after : Database} {cause : Error},
    action.run before = .error cause after → cause.NoRoom →
      ¬before.image.HasRoom parts.flatten.length ∧ after = before.extendFitting parts

namespace Action.AddsParts

open Database

variable {action next : Action Unit} {parts more : List (List UInt8)}

/-- One action after the other adds the parts of both. -/
theorem seq (first : AddsParts action parts) (second : AddsParts next more) :
    AddsParts (action >>= fun _ => next) (parts ++ more) where
  done {before after} ran := by
    rw [EStateM.run_bind] at ran
    cases began : action.run before with
    | ok _ middle =>
        rw [began] at ran
        obtain ⟨room, rfl⟩ := first.done began
        obtain ⟨again, rfl⟩ := second.done ran
        have together : before.image.HasRoom (parts.flatten ++ more.flatten).length := by
          rw [Image.hasRoom_iff, size_image_extend, Nat.add_assoc, ← List.length_append] at again
          exact again
        rw [extend_extend room again together, extend_congr List.flatten_append.symm]
        exact ⟨_, rfl⟩
    | error cause middle =>
        rw [began] at ran
        cases ran
  stopped {before after cause} ran isNoRoom := by
    rw [EStateM.run_bind] at ran
    rw [Image.hasRoom_iff, List.flatten_append, List.length_append, ← Nat.add_assoc]
    cases began : action.run before with
    | ok _ middle =>
        rw [began] at ran
        obtain ⟨room, rfl⟩ := first.done began
        obtain ⟨noRoom, rfl⟩ := second.stopped ran isNoRoom
        rw [Image.hasRoom_iff, size_image_extend] at noRoom
        exact ⟨noRoom, extendFitting_extend room⟩
    | error cause middle =>
        rw [began] at ran
        cases ran
        obtain ⟨noRoom, rfl⟩ := first.stopped began isNoRoom
        rw [Image.hasRoom_iff] at noRoom
        exact ⟨by omega, (extendFitting_append_of_noRoom noRoom).symm⟩

/-- What only ever refuses for other reasons adds no parts. -/
theorem of_quiet (quiet : ∀ before, action.run before = .ok () before ∨
    ∃ cause, action.run before = .error cause before ∧ ¬cause.NoRoom) : AddsParts action [] where
  done {before after} ran := by
    rcases quiet before with passed | ⟨_, refused, -⟩
    · rw [passed] at ran
      cases ran
      exact ⟨before.image.size_lt, (extend_nil _).symm⟩
    · rw [refused] at ran
      cases ran
  stopped {before after cause} ran isNoRoom := by
    rcases quiet before with passed | ⟨_, refused, otherwise⟩
    · rw [passed] at ran
      cases ran
    · rw [refused] at ran
      cases ran
      exact absurd isNoRoom otherwise

theorem after_quiet (first : AddsParts action []) (second : AddsParts next more) :
    AddsParts (action >>= fun _ => next) more :=
  first.seq second

end Action.AddsParts

/-! ## The parts of a record -/

/-- The bytes of which a record gives the number. -/
def Leaf.payload : Leaf → List UInt8
  | .string text => Text.Utf16.encode text
  | .binary bytes => bytes
  | _ => []

namespace Record

/-- The parts of a record with a length of its contents. If no 32-bit number is that length, the
record is only ever added as a whole. -/
def sizedParts (tag : Tag) (payload : List UInt8) : List (List UInt8) :=
  if sizeLimit ≤ payload.length then
    [LittleEndian.encode Image.tagSize tag.raw.toNat ++
      (LittleEndian.encode 4 payload.length ++ payload)]
  else
    [LittleEndian.encode Image.tagSize tag.raw.toNat, LittleEndian.encode 4 payload.length, payload]

/-- The parts in which a record is added. The length of a list is zero at first. -/
def parts : Record → List (List UInt8)
  | leaf tag .null => [LittleEndian.encode Image.tagSize tag.raw.toNat]
  | leaf tag (.scalar form value) =>
      [LittleEndian.encode Image.tagSize tag.raw.toNat,
        LittleEndian.encode form.width value.toNat]
  | leaf tag (.string text) => sizedParts tag (Text.Utf16.encode text)
  | leaf tag (.binary bytes) => sizedParts tag bytes
  | list tag _ => [LittleEndian.encode Image.tagSize tag.raw.toNat, List.replicate 4 0]

end Record

namespace Database

open TagTree.Action (AddsParts)

variable {before after : Database} {tag : Tag} {text : String} {cause : Error}

theorem appendBytes_of_room {bytes : List UInt8} (room : before.image.HasRoom bytes.length) :
    (appendBytes bytes).run before = .ok () (before.extend bytes room) :=
  dif_pos room

theorem appendBytes_of_noRoom {bytes : List UInt8} (noRoom : ¬before.image.HasRoom bytes.length) :
    (appendBytes bytes).run before = .error (before.image.noRoom bytes.length) before :=
  dif_neg noRoom

theorem addsParts_appendBytes (bytes : List UInt8) : AddsParts (appendBytes bytes) [bytes] where
  done {before after} ran := by
    by_cases room : before.image.HasRoom bytes.length
    · rw [appendBytes_of_room room] at ran
      cases ran
      rw [extend_congr List.flatten_singleton.symm]
      exact ⟨_, rfl⟩
    · rw [appendBytes_of_noRoom room] at ran
      cases ran
  stopped {before after cause} ran _ := by
    by_cases room : before.image.HasRoom bytes.length
    · rw [appendBytes_of_room room] at ran
      cases ran
    · rw [appendBytes_of_noRoom room] at ran
      cases ran
      rw [List.flatten_singleton, extendFitting_of_noRoom room]
      exact ⟨room, rfl⟩

theorem addsParts_appendTag (tag : Tag) :
    AddsParts (appendTag tag) [LittleEndian.encode Image.tagSize tag.raw.toNat] :=
  addsParts_appendBytes _

theorem addsParts_appendSized (tag : Tag) (payload : List UInt8) :
    AddsParts (appendSized tag payload) (Record.sizedParts tag payload) := by
  rw [Record.sizedParts]
  split
  · next large =>
      constructor
      · intro before after ran
        rw [appendSized_of_le large] at ran
        cases ran
      · intro before after cause ran _
        rw [appendSized_of_le large] at ran
        cases ran
        have noRoom := before.image.noRoom_of_le large
          (LittleEndian.encode Image.tagSize tag.raw.toNat) (LittleEndian.encode 4 payload.length)
        rw [List.flatten_singleton, extendFitting_of_noRoom noRoom]
        exact ⟨noRoom, rfl⟩
  · next small =>
      rw [appendSized_of_lt (Nat.not_le.mp small)]
      exact (addsParts_appendTag tag).seq
        ((addsParts_appendBytes _).seq (addsParts_appendBytes payload))

theorem addsParts_requireKind (tag : Tag) (kind : Kind) : AddsParts (requireKind tag kind) [] := by
  apply AddsParts.of_quiet
  intro before
  by_cases fits : tag.kind? = some kind
  · rw [requireKind_of_eq fits]
    exact .inl rfl
  · rw [requireKind_of_ne fits]
    exact .inr ⟨_, rfl, by simp [Error.NoRoom]⟩

theorem addsParts_requireNoZero (text : String) : AddsParts (requireNoZero text) [] := by
  apply AddsParts.of_quiet
  intro before
  by_cases zero : '\x00' ∈ text.toList
  · obtain ⟨index, refusal⟩ := requireNoZero_of_mem zero
    rw [refusal]
    exact .inr ⟨_, rfl, by simp [Error.NoRoom]⟩
  · rw [requireNoZero_of_notMem zero]
    exact .inl rfl

theorem addsParts_write (tag : Tag) (content : Leaf) :
    AddsParts (content.write tag) (Record.leaf tag content).parts := by
  rw [Leaf.write_eq]
  apply (addsParts_requireKind tag content.kind).after_quiet
  cases content with
  | null => exact addsParts_appendTag tag
  | scalar form value => exact (addsParts_appendTag tag).seq (addsParts_appendBytes _)
  | string text => exact (addsParts_requireNoZero text).after_quiet (addsParts_appendSized tag _)
  | binary bytes => exact addsParts_appendSized tag bytes

theorem addsParts_writeBinaryFile (tag : Tag) (directory : Directory) (path : Path)
    (texts : List String) :
    AddsParts (writeBinaryFile tag directory path)
      (((Call.writeFile tag directory path).added texts).flatMap Record.parts) := by
  apply (addsParts_requireKind tag .binary).after_quiet
  rw [Call.added]
  cases directory.read path with
  | ok bytes =>
      have parts := addsParts_appendSized tag bytes
      rwa [← List.append_nil (Record.sizedParts tag bytes)] at parts
  | error fault => exact .of_quiet fun _ => .inr ⟨_, rfl, by simp [Error.NoRoom]⟩

theorem addsParts_items (texts : List String) :
    AddsParts (texts.forM (writeString .stringTableItem))
      ((texts.map tableItem).flatMap Record.parts) := by
  induction texts with
  | nil => exact .of_quiet fun _ => .inl rfl
  | cons text rest ih =>
      rw [List.map_cons, List.flatMap_cons]
      have first : AddsParts (writeString .stringTableItem text) (tableItem text).parts :=
        addsParts_write .stringTableItem (.string text)
      exact first.seq ih

/-! ## Lists -/

theorem addsParts_listHeader (tag : Tag) (length : Nat) :
    AddsParts (appendTag tag >>= fun _ => appendBytes (List.replicate 4 0))
      (Record.list tag length).parts :=
  (addsParts_appendTag tag).seq (addsParts_appendBytes _)

theorem flatten_parts_list (tag : Tag) (length : Nat) :
    (Record.list tag length).parts.flatten = (Record.list tag 0).encode :=
  rfl

theorem length_parts_list (tag : Tag) (length : Nat) :
    (Record.list tag length).parts.flatten.length = Image.listHeaderSize :=
  Record.size_list tag 0

/-- A list that is begun is open, and stands where the image ended. -/
theorem beginList_done {id : Nat} (ran : (beginList tag).run before = .ok id after) (length : Nat) :
    ∃ room, id = before.image.size ∧
      after = { before.extend (Record.list tag length).parts.flatten room with
        openLists := before.image.size :: before.openLists } := by
  by_cases fits : tag.kind? = some .list
  · rw [beginList_eq fits, EStateM.run_bind] at ran
    cases header : (appendTag tag >>= fun _ => appendBytes (List.replicate 4 0)).run before with
    | ok _ middle =>
        rw [header] at ran
        obtain ⟨room, rfl⟩ := (addsParts_listHeader tag length).done header
        cases ran
        exact ⟨room, rfl, rfl⟩
    | error cause middle =>
        rw [header] at ran
        cases ran
  · rw [beginList_of_ne fits] at ran
    cases ran

theorem beginList_stopped (ran : (beginList tag).run before = .error cause after)
    (isNoRoom : cause.NoRoom) (length : Nat) :
    ¬before.image.HasRoom Image.listHeaderSize ∧
      after = before.extendFitting (Record.list tag length).parts := by
  rw [← length_parts_list tag length]
  by_cases fits : tag.kind? = some .list
  · rw [beginList_eq fits, EStateM.run_bind] at ran
    cases header : (appendTag tag >>= fun _ => appendBytes (List.replicate 4 0)).run before with
    | ok _ middle =>
        rw [header] at ran
        cases ran
    | error cause' middle =>
        rw [header] at ran
        cases ran
        exact (addsParts_listHeader tag length).stopped header isNoRoom
  · rw [beginList_of_ne fits] at ran
    cases ran
    obtain ⟨offset, length, size, other⟩ := isNoRoom
    cases other

/-- A list that cannot be closed is left as it is. -/
theorem endList_stopped {id : Nat} (ran : (endList id).run before = .error cause after) :
    after = before := by
  by_cases fits : (before.image.tagAt id).kind? = some .list
  · by_cases inside : id + Image.listHeaderSize ≤ before.image.size
    · rw [endList_of_le fits inside] at ran
      cases ran
    · simp [endList, requireKind_of_eq fits, inside] at ran
      exact ran.2.symm
  · simp [endList, requireKind_of_ne fits] at ran
    exact ran.2.symm

/-! ## The string table -/

theorem flatMap_parts_tableRecords (texts : List String) :
    (tableRecords texts).flatMap Record.parts =
      (Record.list .stringTable (Layout.size (texts.map tableItem))).parts ++
        (texts.map tableItem).flatMap Record.parts := by
  rw [tableRecords_eq, List.flatMap_cons]

/-- Once the items of a table are written it can be closed. -/
theorem endTable_run {length : Nat} {bytes : List UInt8} {openLists : List Nat}
    (room : before.image.HasRoom (Record.list .stringTable length).parts.flatten.length)
    (again : { before.extend (Record.list .stringTable length).parts.flatten room with
      openLists }.image.HasRoom bytes.length) :
    ∃ closed, (endList before.image.size).run
      ({ before.extend (Record.list .stringTable length).parts.flatten room with
        openLists }.extend bytes again) = .ok () closed := by
  have split : ({ before.extend (Record.list .stringTable length).parts.flatten room with
      openLists }.extend bytes again).image.toList =
        before.image.toList ++ (Record.list .stringTable 0).encode ++ bytes := by
    rw [← flatten_parts_list .stringTable length, ← Image.toList_extend _ _ room]
    exact Image.toList_extend _ bytes again
  obtain ⟨image, ended, -⟩ :=
    endList_run _ split before.image.length_toList kind?_stringTable
  exact ⟨_, ended⟩

/-- A table that does not fit is left as far as it was written, and still open. -/
theorem writeTable_stopped {α : Type} {texts : List String} {next : Nat → Action α}
    (finishes : ∀ table state, ∃ answer last, (next table).run state = .ok answer last)
    (ran : (beginList .stringTable >>= fun table =>
        texts.forM (writeString .stringTableItem) >>= fun _ =>
          endList table >>= fun _ => next table).run before = .error cause after)
    (isNoRoom : cause.NoRoom) :
    after = { before.extendFitting ((tableRecords texts).flatMap Record.parts) with
      openLists :=
        if before.image.HasRoom Image.listHeaderSize then before.image.size :: before.openLists
        else before.openLists } := by
  rw [EStateM.run_bind] at ran
  rw [flatMap_parts_tableRecords]
  cases began : (beginList .stringTable).run before with
  | error cause' middle =>
      rw [began] at ran
      cases ran
      obtain ⟨noRoom, rfl⟩ := beginList_stopped began isNoRoom
        (Layout.size (texts.map tableItem))
      rw [extendFitting_append_of_noRoom (by rwa [length_parts_list]), if_neg noRoom]
      rfl
  | ok table middle =>
      obtain ⟨room, rfl, begun⟩ := beginList_done began (Layout.size (texts.map tableItem))
      simp only [began, EStateM.run_bind] at ran
      -- Once the list is begun, only the items can run out: closing and finishing succeed.
      cases items : (texts.forM (writeString .stringTableItem)).run middle with
      | error cause' filled =>
          rw [items] at ran
          cases ran
          obtain ⟨-, rfl⟩ := (addsParts_items texts).stopped items isNoRoom
          rw [← extendFitting_extend room, if_pos (by rwa [← length_parts_list]), begun]
          rfl
      | ok _ filled =>
          subst begun
          obtain ⟨again, rfl⟩ := (addsParts_items texts).done items
          obtain ⟨closed, ended⟩ := endTable_run room again
          obtain ⟨answer, last, finished⟩ := finishes before.image.size closed
          simp only [items, ended, finished] at ran
          cases ran

/-- The texts of a table that does not fit are gone. -/
theorem commitStringTable_stopped (ran : commitStringTable.run before = .error cause after)
    (isNoRoom : cause.NoRoom) :
    before.pool.texts ≠ [] ∧
      after = { before.extendFitting ((tableRecords before.pool.texts).flatMap Record.parts) with
        pool := .empty
        openLists :=
          if before.image.HasRoom Image.listHeaderSize then
            before.image.size :: before.openLists
          else before.openLists } := by
  by_cases noTexts : before.pool.texts = []
  · rw [commitStringTable_of_nil noTexts] at ran
    cases ran
  · refine ⟨noTexts, ?_⟩
    cases openLists : before.openLists with
    | cons list others =>
        rw [commitStringTable_of_open noTexts openLists] at ran
        cases ran
        obtain ⟨offset, length, size, other⟩ := isNoRoom
        cases other
    | nil =>
        rw [commitStringTable_eq noTexts openLists] at ran
        rw [writeTable_stopped (fun _ _ => ⟨_, _, rfl⟩) ran isNoRoom, ← openLists]
        rfl

/-! ## References -/

/-- A text that the pool takes in stays there when the reference to it does not fit. -/
theorem writeInterned_stopped (ran : (writeInterned tag text).run before = .error cause after)
    (isNoRoom : cause.NoRoom) :
    after =
      if before.pool.Accepts text then
        { before.extendFitting (reference tag before.pool.texts text).parts with
          pool := ⟨addText before.pool.texts text⟩ }
      else before := by
  by_cases fits : tag.kind? = some .stringRef ∧ before.stringTable = none ∧ '\x00' ∉ text.toList
  · obtain ⟨kind, noTable, clean⟩ := fits
    rw [writeInterned_eq kind noTable clean] at ran
    split
    · next accepted =>
        rw [StringPool.intern_eq _ _ accepted] at ran
        exact ((addsParts_write tag _).stopped ran isNoRoom).2
    · next refused =>
        obtain ⟨cause', failed, -⟩ := StringPool.intern_noRoom refused
        rw [failed] at ran
        cases ran
        rfl
  · obtain ⟨cause', failed, otherwise⟩ := writeInterned_refused fits
    rw [failed] at ran
    cases ran
    exact absurd isNoRoom otherwise

end Database

/-! ## What is left behind -/

namespace Call

open Database

/-- The parts that a call adds to the image. -/
def parts (pool : StringPool) : Call → List (List UInt8)
  | writeInterned tag text =>
      if pool.Accepts text then (reference tag pool.texts text).parts else []
  | call => (call.added pool.texts).flatMap Record.parts

/-- The pool after a call that runs out of places. -/
def poolLeft (pool : StringPool) : Call → StringPool
  | writeInterned _ text => if pool.Accepts text then ⟨addText pool.texts text⟩ else pool
  | commit => .empty
  | _ => pool

/-- The open lists after a call that runs out of places. -/
def listsLeft (before : Database) : Call → List Nat
  | commit =>
      if before.image.HasRoom Image.listHeaderSize then before.image.size :: before.openLists
      else before.openLists
  | _ => before.openLists

/-- The database that a call leaves behind when it runs out of places. -/
def leftovers (before : Database) (call : Call) : Database :=
  { before.extendFitting (call.parts before.pool) with
    pool := call.poolLeft before.pool
    openLists := call.listsLeft before }

/-- What the call tried first was already refused. -/
def RefusedAtOnce (before : Database) : Call → Prop
  | write _ content => sizeLimit ≤ content.payload.length ∨ ¬before.image.HasRoom Image.tagSize
  | writeFile _ directory path =>
      ∀ bytes, directory.read path = .ok bytes →
        sizeLimit ≤ bytes.length ∨ ¬before.image.HasRoom Image.tagSize
  | writeInterned _ text =>
      ¬before.pool.Accepts text ∨
        text ∈ before.pool.texts ∧ ¬before.image.HasRoom Image.tagSize
  | beginList _ => ¬before.image.HasRoom Image.tagSize
  | commit => False
  | endList _ | dropList _ => True

variable {before after : Database} {cause : Error} {call : Call}

theorem error_of_answering {α β : Type} {action : Action α} {answer : α → β}
    (ran : (action >>= fun result => pure (answer result)).run before = .error cause after) :
    action.run before = .error cause after := by
  rw [EStateM.run_bind] at ran
  cases first : action.run before with
  | ok result middle =>
      rw [first] at ran
      cases ran
  | error cause' middle =>
      rw [first] at ran
      cases ran
      rfl

/-- Whatever call it is, it leaves exactly that behind. -/
theorem eq_leftovers (ran : call.action.run before = .error cause after)
    (isNoRoom : cause.NoRoom) : after = call.leftovers before := by
  cases call with
  | write tag content =>
      have stopped := (addsParts_write tag content).stopped (error_of_answering ran) isNoRoom
      rw [stopped.2, ← List.append_nil (Record.leaf tag content).parts]
      rfl
  | writeFile tag directory path =>
      exact ((addsParts_writeBinaryFile tag directory path before.pool.texts).stopped
        (error_of_answering ran) isNoRoom).2
  | writeInterned tag text =>
      rw [writeInterned_stopped (error_of_answering ran) isNoRoom, leftovers, parts, poolLeft]
      split
      · rfl
      · rw [extendFitting_nil]
        rfl
  | beginList tag =>
      have stopped := beginList_stopped (error_of_answering ran) isNoRoom 0
      rw [stopped.2, ← List.append_nil (Record.list tag 0).parts]
      rfl
  | endList id =>
      rw [endList_stopped (error_of_answering ran)]
      exact (extendFitting_nil before).symm
  | dropList id => cases ran
  | commit =>
      obtain ⟨someTexts, rfl⟩ := commitStringTable_stopped ran isNoRoom
      have own : Call.commit.parts before.pool =
          (tableRecords before.pool.texts).flatMap Record.parts :=
        congrArg (List.flatMap Record.parts) (if_neg someTexts)
      rw [leftovers, own]
      rfl

/-! ## What is left as it was -/

theorem encode_tag_ne_nil (tag : Tag) : LittleEndian.encode Image.tagSize tag.raw.toNat ≠ [] := by
  rw [← List.length_pos_iff, LittleEndian.length_encode]
  decide

theorem extendFitting_tag_eq_self_iff (tag : Tag) (rest : List (List UInt8)) :
    before.extendFitting (LittleEndian.encode Image.tagSize tag.raw.toNat :: rest) = before ↔
      ¬before.image.HasRoom Image.tagSize := by
  rw [extendFitting_eq_self_iff (encode_tag_ne_nil tag), LittleEndian.length_encode]

theorem extendFitting_sizedParts_eq_self_iff (tag : Tag) (payload : List UInt8) :
    before.extendFitting (Record.sizedParts tag payload) = before ↔
      sizeLimit ≤ payload.length ∨ ¬before.image.HasRoom Image.tagSize := by
  rw [Record.sizedParts]
  split
  · next large =>
      have noRoom := before.image.noRoom_of_le large
        (LittleEndian.encode Image.tagSize tag.raw.toNat) (LittleEndian.encode 4 payload.length)
      exact iff_of_true (extendFitting_of_noRoom noRoom []) (.inl large)
  · next small => rw [extendFitting_tag_eq_self_iff, or_iff_right small]

theorem extendFitting_parts_eq_self_iff (tag : Tag) (content : Leaf) :
    before.extendFitting (Record.leaf tag content).parts = before ↔
      sizeLimit ≤ content.payload.length ∨ ¬before.image.HasRoom Image.tagSize := by
  have empty : ¬sizeLimit ≤ ([] : List UInt8).length := by decide
  cases content with
  | null => exact (extendFitting_tag_eq_self_iff tag _).trans (or_iff_right empty).symm
  | scalar form value =>
      exact (extendFitting_tag_eq_self_iff tag _).trans (or_iff_right empty).symm
  | string text => exact extendFitting_sizedParts_eq_self_iff tag _
  | binary bytes => exact extendFitting_sizedParts_eq_self_iff tag bytes

theorem leftovers_eq_self_iff (waiting : call = .commit → before.pool.texts ≠ []) :
    call.leftovers before = before ↔ call.RefusedAtOnce before := by
  cases call with
  | write tag content =>
      have own : (write tag content).parts before.pool = (Record.leaf tag content).parts :=
        List.append_nil _
      rw [leftovers, own]
      exact extendFitting_parts_eq_self_iff tag content
  | writeFile tag directory path =>
      cases contents : directory.read path with
      | ok bytes =>
          have own : (writeFile tag directory path).parts before.pool =
              Record.sizedParts tag bytes := by
            rw [← List.append_nil (Record.sizedParts tag bytes)]
            simp [parts, added, contents, Record.parts]
          rw [leftovers, own]
          apply (extendFitting_sizedParts_eq_self_iff tag bytes).trans
          simp [RefusedAtOnce, contents]
      | error fault =>
          have own : (writeFile tag directory path).parts before.pool = [] := by
            simp [parts, added, contents]
          rw [leftovers, own]
          apply iff_of_true (extendFitting_nil before)
          simp [RefusedAtOnce, contents]
  | writeInterned tag text =>
      rw [leftovers, parts, poolLeft, RefusedAtOnce]
      by_cases accepted : before.pool.Accepts text
      · rw [if_pos accepted, if_pos accepted, or_iff_right (not_not_intro accepted)]
        by_cases pooled : text ∈ before.pool.texts
        · have same : addText before.pool.texts text = before.pool.texts := if_pos pooled
          rw [same, and_iff_right pooled]
          exact extendFitting_tag_eq_self_iff tag _
        · apply iff_of_false
          · intro same
            have texts := congrArg (fun database => database.pool.texts) same
            exact pooled (texts ▸ mem_addText.mpr (.inr rfl))
          · exact fun atOnce => pooled atOnce.1
      · rw [if_neg accepted, if_neg accepted]
        exact iff_of_true (extendFitting_nil before) (.inl accepted)
  | beginList tag =>
      exact extendFitting_tag_eq_self_iff tag _
  | endList id => exact iff_of_true (extendFitting_nil before) trivial
  | dropList id => exact iff_of_true (extendFitting_nil before) trivial
  | commit =>
      constructor
      · intro same
        exact waiting rfl (congrArg (fun database => database.pool.texts) same).symm
      · exact False.elim

/-- A call that runs out of places leaves the parts for which there was room, and changes nothing
just where what it tried first was already refused. -/
theorem left_behind (ran : call.action.run before = .error cause after)
    (isNoRoom : cause.NoRoom) :
    after = call.leftovers before ∧ (after = before ↔ call.RefusedAtOnce before) := by
  have left := eq_leftovers ran isNoRoom
  refine ⟨left, ?_⟩
  rw [left]
  apply leftovers_eq_self_iff
  rintro rfl
  exact (commitStringTable_stopped ran isNoRoom).1

/-- The texts of a table that does not fit are gone. -/
theorem left_behind_crowded :
    ∃ (before after : Database) (cause : Error),
      before.pool.texts = ["ab"] ∧ commit.action.run before = .error cause after ∧ cause.NoRoom ∧
        after = commit.leftovers before ∧ (after = before ↔ commit.RefusedAtOnce before) ∧
          after.pool.texts = [] := by
  have limit : sizeLimit = 2 ^ 32 := rfl
  have newSize : (Database.inMemory {}).image.size = 12 := by decide
  have tableSize : Layout.size (tableRecords ["ab"]) = 18 := by decide
  have clean : ∀ text ∈ ["ab"], '\x00' ∉ text.toList := by decide
  obtain ⟨zeros, length⟩ : ∃ zeros : List UInt8, zeros.length = sizeLimit - 16 :=
    ⟨List.replicate _ 0, List.length_replicate⟩
  have room : (Database.inMemory {}).image.HasRoom zeros.length := by
    rw [Image.hasRoom_iff, newSize]
    omega
  have size := size_image_extend room
  let before : Database := { (Database.inMemory {}).extend zeros room with pool := ⟨["ab"]⟩ }
  have someTexts : before.pool.texts ≠ [] := List.cons_ne_nil _ _
  have noRoom : ¬before.image.HasRoom (Layout.size (tableRecords before.pool.texts)) := by
    rw [Image.hasRoom_iff, tableSize, size, newSize]
    omega
  obtain ⟨cause, after, ran, isNoRoom⟩ := commitStringTable_noRoom someTexts rfl clean noRoom
  have failed : commit.action.run before = .error cause after := ran
  obtain ⟨left, unchanged⟩ := left_behind failed isNoRoom
  exact ⟨before, after, cause, rfl, failed, isNoRoom, left, unchanged, by rw [left]; rfl⟩

/-- Where four bytes are left, a number of four bytes is refused and leaves its tag behind. The
bytes that fill up the image are only counted. -/
theorem exists_tag_left {filler : List UInt8} (length : filler.length = sizeLimit - 22) :
    ∃ (before after : Database) (cause : Error),
      (write ⟨0x9001⟩ (.binary filler)).action.run (.inMemory {}) = .ok none before ∧
        (write ⟨0x4001⟩ (.scalar .dword 5)).action.run before = .error cause after ∧
          cause.NoRoom ∧ after.image.toList = before.image.toList ++ [0x01, 0x40] := by
  have limit : sizeLimit = 2 ^ 32 := rfl
  have binarySound : (Record.leaf ⟨0x9001⟩ (.binary filler)).Sound :=
    ⟨(by decide : Tag.kind? ⟨0x9001⟩ = some .binary), trivial⟩
  have numberSound : (Record.leaf ⟨0x4001⟩ (.scalar .dword 5)).Sound :=
    ⟨(by decide : Tag.kind? ⟨0x4001⟩ = some .dword), trivial⟩
  have newSize : (Database.inMemory {}).image.size = 12 := by decide
  have binarySize : (Record.leaf ⟨0x9001⟩ (.binary filler)).encode.length = sizeLimit - 16 := by
    simp only [Record.encode, Leaf.encode, List.length_append, LittleEndian.length_encode, length,
      Image.tagSize]
    omega
  have numberSize : (Record.leaf ⟨0x4001⟩ (.scalar .dword 5)).encode.length = 6 := by decide
  have tagOnly : fitting (sizeLimit - 4) (Record.leaf ⟨0x4001⟩ (.scalar .dword 5)).parts =
      [0x01, 0x40] := by decide
  have room : (Database.inMemory {}).image.HasRoom
      (Record.leaf ⟨0x9001⟩ (.binary filler)).encode.length := by
    rw [Image.hasRoom_iff, newSize, binarySize]
    omega
  obtain ⟨before, wrote, grows⟩ := (Leaf.appends_write binarySound).done (.inMemory {}) room
  have size : before.image.size = sizeLimit - 4 := by
    rw [grows.size_eq, newSize, binarySize]
    omega
  have noRoom : ¬before.image.HasRoom
      (Record.leaf ⟨0x4001⟩ (.scalar .dword 5)).encode.length := by
    rw [Image.hasRoom_iff, size, numberSize]
    omega
  obtain ⟨cause, after, failed, isNoRoom⟩ :=
    (Leaf.appends_write numberSound).refused before noRoom
  refine ⟨before, after, cause, ?_, ?_, isNoRoom, ?_⟩
  · rw [action, EStateM.run_bind, wrote]
    rfl
  · rw [action, EStateM.run_bind, failed]
  · rw [((addsParts_write ⟨0x4001⟩ (.scalar .dword 5)).stopped failed isNoRoom).2,
      toList_extendFitting, size, tagOnly]

/-- A refused number can leave its tag in the image. -/
theorem tag_left_behind :
    ∃ (before after : Database) (cause : Error),
      (write ⟨0x9001⟩ (.binary (List.replicate (sizeLimit - 22) 0))).action.run (.inMemory {}) =
          .ok none before ∧
        (write ⟨0x4001⟩ (.scalar .dword 5)).action.run before = .error cause after ∧
          cause.NoRoom ∧ after.image.toList = before.image.toList ++ [0x01, 0x40] ∧
            after ≠ before := by
  obtain ⟨before, after, cause, wrote, failed, isNoRoom, added⟩ :=
    exists_tag_left List.length_replicate
  refine ⟨before, after, cause, wrote, failed, isNoRoom, added, ?_⟩
  rintro rfl
  have sizes := congrArg List.length added
  rw [List.length_append] at sizes
  exact absurd sizes (by simp)

end Call

end TagTree
