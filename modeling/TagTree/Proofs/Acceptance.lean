import TagTree.Proofs.Pool

/-!
# When writers succeed

A writer makes its checks in a fixed order before it changes anything. The first check that fails
gives the error. If all of them hold and there is room, the writer succeeds, and what it then does
to the database is its whole effect. `Action.Exact` says all of this of one action on one database,
and `Database.writes_exactly` of all writers on any database.
-/

namespace TagTree

/-- A condition that an action checks, and the error if it fails. -/
structure Check where
  holds : Prop
  cause : Error

/-- The first of the checks that fails has this error. -/
inductive FirstFailing : List Check → Error → Prop where
  | here {check : Check} {others : List Check} (fails : ¬check.holds) :
      FirstFailing (check :: others) check.cause
  | later {check : Check} {others : List Check} {cause : Error} (holds : check.holds)
      (failing : FirstFailing others cause) : FirstFailing (check :: others) cause

/-! ## Exact actions -/

/-- On a database, an action that fits succeeds just if all checks hold. Whenever it succeeds, it
has a certain answer and effect. The first check that fails is its error, and nothing changes. -/
structure Action.Exact {α : Type} (action : Action α) (before : Database) (checks : List Check)
    (fits : Prop) (answer : α) (effect : Database → Prop) : Prop where
  succeeds : fits →
    ((∃ result after, action.run before = .ok result after) ↔ ∀ check ∈ checks, check.holds)
  effect : ∀ result after, action.run before = .ok result after → result = answer ∧ effect after
  refused : ∀ cause, FirstFailing checks cause → action.run before = .error cause before

namespace Action.Exact

variable {α : Type} {action rest : Action α} {before : Database} {checks : List Check}
  {fits : Prop} {answer : α} {effect : Database → Prop}

/-- An action that makes no checks. -/
theorem unchecked
    (done : fits → ∃ after, action.run before = .ok answer after ∧ effect after)
    (failed : ¬fits → ∃ cause after, action.run before = .error cause after) :
    action.Exact before [] fits answer effect where
  succeeds room := by
    obtain ⟨after, ran, -⟩ := done room
    exact ⟨fun _ _ member => (List.not_mem_nil member).elim, fun _ => ⟨answer, after, ran⟩⟩
  effect result reached succeeded := by
    by_cases room : fits
    · obtain ⟨after, ran, isEffect⟩ := done room
      rw [ran] at succeeded
      cases succeeded
      exact ⟨rfl, isEffect⟩
    · obtain ⟨cause, after, ran⟩ := failed room
      rw [ran] at succeeded
      cases succeeded
  refused _ failing := nomatch failing

/-- An action that makes one check more before the others. -/
theorem checked (check : Check) (passes : check.holds → action.run before = rest.run before)
    (stops : ¬check.holds → action.run before = .error check.cause before)
    (exact : check.holds → rest.Exact before checks fits answer effect) :
    action.Exact before (check :: checks) fits answer effect where
  succeeds inside := by
    rw [List.forall_mem_cons]
    by_cases holds : check.holds
    · rw [passes holds, (exact holds).succeeds inside]
      exact (and_iff_right holds).symm
    · rw [stops holds]
      constructor
      · rintro ⟨_, _, succeeded⟩
        cases succeeded
      · intro all
        exact absurd all.1 holds
  effect result after succeeded := by
    by_cases holds : check.holds
    · exact (exact holds).effect result after ((passes holds).symm.trans succeeded)
    · rw [stops holds] at succeeded
      cases succeeded
  refused cause failing := by
    cases failing with
    | here fails => exact stops fails
    | later holds failing => exact (passes holds).trans ((exact holds).refused cause failing)

end Action.Exact

/-- What adds certain bytes does that without further checks. -/
theorem Action.Appends.exact {action : Action Unit} {bytes : List UInt8}
    (appends : action.Appends bytes) (before : Database) :
    action.Exact before [] (before.image.HasRoom bytes.length) () (before.Grows · bytes) := by
  apply Action.Exact.unchecked (appends.done before)
  intro noRoom
  obtain ⟨cause, after, failed, -⟩ := appends.refused before noRoom
  exact ⟨cause, after, failed⟩

/-! ## The checks -/

/-- The number of bytes of a text before its first zero character, or all if it has none. -/
def bytesBeforeZero (text : String) : Nat :=
  (String.ofList (text.toList.takeWhile (· ≠ '\x00'))).utf8ByteSize

namespace Check

/-- A tag is of the kind that is written. -/
def kind (tag : Tag) (kind : Kind) : Check :=
  ⟨tag.kind? = some kind, .typeMismatch tag kind⟩

/-- A text has no zero character. -/
def noZero (text : String) : Check :=
  ⟨'\x00' ∉ text.toList, .format (.zeroInText (bytesBeforeZero text))⟩

/-- A database has no string table yet. -/
def noTable (database : Database) : Check :=
  ⟨database.stringTable = none, .format .tableExists⟩

/-- The tag and the length of a list stand inside an image. -/
def inside (image : Image) (id : Nat) : Check :=
  ⟨id + Image.listHeaderSize ≤ image.size, .outOfRange id Image.listHeaderSize image.size⟩

end Check

/-- What is checked before a leaf is written. -/
def Leaf.checks (tag : Tag) : Leaf → List Check
  | string text => [.kind tag .string, .noZero text]
  | content => [.kind tag content.kind]

namespace Database

variable {α : Type} {before : Database} {tag : Tag} {kind : Kind} {text : String}
  {rest : Action α} {checks : List Check} {fits : Prop} {answer : α} {effect : Database → Prop}

theorem requireNoZero_of_zero (zero : '\x00' ∈ text.toList) :
    requireNoZero text = throw (Check.noZero text).cause := by
  rw [requireNoZero, zeroIndex?, if_pos zero]
  rfl

theorem exact_requireKind (exact : rest.Exact before checks fits answer effect) :
    (requireKind tag kind >>= fun _ => rest).Exact before (.kind tag kind :: checks) fits answer
      effect := by
  apply Action.Exact.checked _ _ _ fun _ => exact
  · intro sameKind
    rw [requireKind_of_eq sameKind, pure_bind]
  · intro otherKind
    rw [requireKind_of_ne otherKind]
    rfl

theorem exact_requireNoZero (exact : '\x00' ∉ text.toList →
      rest.Exact before checks fits answer effect) :
    (requireNoZero text >>= fun _ => rest).Exact before (.noZero text :: checks) fits answer
      effect := by
  apply Action.Exact.checked _ _ _ exact
  · intro clean
    rw [requireNoZero_of_notMem clean, pure_bind]
  · intro zero
    rw [requireNoZero_of_zero (Classical.not_not.mp zero)]
    rfl

end Database

/-! ## The writers -/

namespace Database

/-- The length that stands behind the tag at a place becomes that of everything behind it, and the
place is no longer open. -/
def Closes (before : Database) (id : Nat) (after : Database) : Prop :=
  ∃ image, after = { before with image, openLists := before.openLists.erase id } ∧
    image.capacity = before.image.capacity ∧
      image.toList = before.image.toList.take (id + Image.tagSize) ++
        LittleEndian.encode 4 (before.image.size - id - Image.listHeaderSize) ++
          before.image.toList.drop (id + Image.listHeaderSize)

/-- Every writer on a database: what it checks, what it answers, and what it changes. -/
structure WritesExactly (before : Database) : Prop where
  leaf : ∀ (tag : Tag) (content : Leaf), (content.write tag).Exact before (content.checks tag)
    (before.image.HasRoom (Record.leaf tag content).size) ()
    (before.Grows · (Record.leaf tag content).encode)
  interned : ∀ (tag : Tag) (text : String), (writeInterned tag text).Exact before
    [.kind tag .stringRef, .noTable before, .noZero text]
    (before.pool.Accepts text ∧ before.image.HasRoom (reference tag before.pool.texts text).size) ()
    fun after => { before with pool := ⟨addText before.pool.texts text⟩ }.Grows after
      (reference tag before.pool.texts text).encode
  beginList : ∀ tag : Tag, (beginList tag).Exact before [.kind tag .list]
    (before.image.HasRoom Image.listHeaderSize) before.image.size
    fun after => { before with openLists := before.image.size :: before.openLists }.Grows after
      (Record.list tag 0).encode
  endList : ∀ id : Nat, (endList id).Exact before
    [.kind (before.image.tagAt id) .list, .inside before.image id] True () (before.Closes id)

/-- A leaf whose kind is all that is checked. -/
theorem exact_write_of_clean {content : Leaf} (before : Database) (tag : Tag)
    (checksKind : content.checks tag = [.kind tag content.kind]) (clean : content.Clean) :
    (content.write tag).Exact before (content.checks tag)
      (before.image.HasRoom (Record.leaf tag content).size) ()
      (before.Grows · (Record.leaf tag content).encode) := by
  rw [Leaf.write_eq, checksKind]
  exact exact_requireKind ((Leaf.appends_add clean).exact before)

theorem exact_write (before : Database) (tag : Tag) (content : Leaf) :
    (content.write tag).Exact before (content.checks tag)
      (before.image.HasRoom (Record.leaf tag content).size) ()
      (before.Grows · (Record.leaf tag content).encode) := by
  cases content with
  | string text =>
      apply exact_requireKind
      apply exact_requireNoZero
      intro _
      exact (appends_appendSized tag (Text.Utf16.encode text)).exact before
  | null => exact exact_write_of_clean before tag rfl trivial
  | scalar form value => exact exact_write_of_clean before tag rfl trivial
  | binary bytes => exact exact_write_of_clean before tag rfl trivial

/-- An interned text changes the pool and nothing else beside the image. -/
theorem exact_writeInterned (before : Database) (tag : Tag) (text : String) :
    (writeInterned tag text).Exact before [.kind tag .stringRef, .noTable before, .noZero text]
      (before.pool.Accepts text ∧
        before.image.HasRoom (reference tag before.pool.texts text).size) ()
      fun after => { before with pool := ⟨addText before.pool.texts text⟩ }.Grows after
        (reference tag before.pool.texts text).encode := by
  refine .checked _ (fun _ => rfl) ?otherKind fun fits =>
    .checked _ (fun _ => rfl) ?hasTable fun noTable =>
      .checked _ (fun _ => rfl) ?zero fun clean => .unchecked ?done ?noRoom
  case otherKind =>
    intro otherKind
    rw [writeInterned, requireKind_of_ne otherKind]
    rfl
  case hasTable =>
    intro hasTable
    have isSome : before.stringTable.isSome := Option.isSome_iff_ne_none.mpr hasTable
    simp [writeInterned, requireKind_of_eq fits, isSome, Check.noTable]
  case zero =>
    intro zero
    have refusal := requireNoZero_of_zero (Classical.not_not.mp zero)
    have isNone : before.stringTable = none := noTable
    simp [writeInterned, requireKind_of_eq fits, isNone, refusal]
  case done =>
    rintro ⟨accepted, room⟩
    obtain ⟨image, ran, added⟩ := writeInterned_run fits noTable clean accepted room
    exact ⟨_, ran, image, rfl, added⟩
  case noRoom =>
    intro noRoom
    obtain ⟨cause, after, failed, -⟩ := writeInterned_noRoom fits noTable clean noRoom
    exact ⟨cause, after, failed⟩

theorem exact_beginList (before : Database) (tag : Tag) :
    (beginList tag).Exact before [.kind tag .list] (before.image.HasRoom Image.listHeaderSize)
      before.image.size
      fun after => { before with openLists := before.image.size :: before.openLists }.Grows after
        (Record.list tag 0).encode := by
  refine .checked _ (fun _ => rfl) (fun otherKind => beginList_of_ne otherKind before) fun fits =>
    .unchecked ?done ?noRoom
  case done =>
    intro room
    obtain ⟨image, ran, added⟩ := beginList_run fits room
    exact ⟨_, ran, image, rfl, added⟩
  case noRoom =>
    intro noRoom
    obtain ⟨cause, after, failed, -⟩ := beginList_noRoom fits noRoom
    exact ⟨cause, after, failed⟩

/-- Any place can be tried. Only where a list stands with its length inside the image is something
changed. -/
theorem exact_endList (before : Database) (id : Nat) :
    (endList id).Exact before [.kind (before.image.tagAt id) .list, .inside before.image id] True ()
      (before.Closes id) := by
  refine .checked _ (fun _ => rfl) ?otherKind fun isList =>
    .checked _ (fun _ => rfl) ?outside fun inside =>
      .unchecked (fun _ => ⟨_, endList_of_le isList inside, _, rfl,
        Image.capacity_replace _ _ _, ?bytes⟩)
        fun fails => absurd trivial fails
  case otherKind =>
    intro otherKind
    simp only [endList, EStateM.run_bind, EStateM.run_get, requireKind_of_ne otherKind]
    rfl
  case outside =>
    intro outside
    have beyond : ¬id + Image.listHeaderSize ≤ before.image.size := outside
    simp only [endList, EStateM.run_bind, EStateM.run_get, requireKind_of_eq isList,
      EStateM.run_pure, beyond, if_false]
    rfl
  case bytes =>
    have fourBytes : id + Image.tagSize + (LittleEndian.encode 4
        (before.image.size - id - Image.listHeaderSize)).length = id + Image.listHeaderSize := by
      rw [LittleEndian.length_encode, Nat.add_assoc]
      rfl
    rw [Image.toList_replace _ (Nat.le_trans (Nat.le_of_eq fourBytes) inside), fourBytes]

/-- On every database, every writer succeeds just when its checks hold and it fits, and has just the
effect of its record. -/
theorem writes_exactly (before : Database) : before.WritesExactly where
  leaf := exact_write before
  interned := exact_writeInterned before
  beginList := exact_beginList before
  endList := exact_endList before

end Database

end TagTree
