import TagTree.Proofs.Run

/-!
# Lists that are no longer open

Apart from writing the string table, no call looks at which lists are open. So it makes no
difference whether a list is taken off the open ones before or after some calls, and ending a list
right after its beginning does no more than that.
-/

namespace TagTree

namespace Image

theorem eq_of_toList_eq {image other : Image} (bytes : image.toList = other.toList)
    (capacity : image.capacity = other.capacity) : image = other := by
  cases image with
  | mk bytes₁ capacity₁ =>
      cases other with
      | mk bytes₂ capacity₂ =>
          obtain rfl : bytes₁ = bytes₂ := Array.toList_inj.mp bytes
          cases capacity
          rfl

end Image

namespace Database

/-- The database with a list taken off the open ones. -/
def forget (database : Database) (id : Nat) : Database :=
  { database with openLists := database.openLists.erase id }

end Database

section Results

variable {α : Type}

/-- The database in a result. -/
def reached : EStateM.Result Error Database α → Database
  | .ok _ after | .error _ after => after

/-- A result with a list taken off the open ones. -/
def forgetReached (id : Nat) : EStateM.Result Error Database α → EStateM.Result Error Database α
  | .ok answer after => .ok answer (after.forget id)
  | .error cause after => .error cause (after.forget id)

theorem reached_forgetReached (id : Nat) (result : EStateM.Result Error Database α) :
    reached (forgetReached id result) = (reached result).forget id := by
  cases result <;> rfl

end Results

/-- While a place lies inside the image, it makes no difference to an action whether the list there
is taken off the open ones before or after, and the place still lies inside the image then. -/
structure Action.Ignores {α : Type} (action : Action α) (id : Nat) : Prop where
  forgets : ∀ before, id < before.image.size →
    action.run (before.forget id) = forgetReached id (action.run before)
  stays : ∀ before, id < before.image.size → id < (reached (action.run before)).image.size

namespace Action.Ignores

variable {α β : Type} {id : Nat}

theorem done (answer : α) : Action.Ignores (pure answer) id where
  forgets _ _ := rfl
  stays _ inside := inside

theorem failed (cause : Error) : Action.Ignores (α := α) (throw cause) id where
  forgets _ _ := rfl
  stays _ inside := inside

/-- What would come behind a failure does not matter. -/
theorem failed_seq (cause : Error) (next : α → Action β) :
    Action.Ignores (throw cause >>= next) id where
  forgets _ _ := rfl
  stays _ inside := inside

theorem seq {action : Action α} {next : α → Action β} (first : action.Ignores id)
    (second : ∀ answer, (next answer).Ignores id) : (action >>= next).Ignores id where
  forgets before inside := by
    have stays := first.stays before inside
    rw [EStateM.run_bind, EStateM.run_bind, first.forgets before inside]
    cases ran : action.run before with
    | ok answer after =>
        rw [ran] at stays
        exact (second answer).forgets after stays
    | error cause after => rfl
  stays before inside := by
    have stays := first.stays before inside
    rw [EStateM.run_bind]
    cases ran : action.run before with
    | ok answer after =>
        rw [ran] at stays
        exact (second answer).stays after stays
    | error cause after =>
        rw [ran] at stays
        exact stays

/-- An action may look at anything in the database but the open lists. -/
theorem look {next : Database → Action α}
    (blind : ∀ database, next (database.forget id) = next database)
    (second : ∀ database, id < database.image.size → (next database).Ignores id) :
    (get >>= next).Ignores id where
  forgets before inside := by
    have same := (second before inside).forgets before inside
    rw [EStateM.run_bind, EStateM.run_bind, EStateM.run_get, EStateM.run_get]
    simp only [blind]
    exact same
  stays before inside := (second before inside).stays before inside

/-- An action may change anything but the image, and treat the open lists alike. -/
theorem change {update : Database → Database}
    (alike : ∀ database, update (database.forget id) = (update database).forget id)
    (image : ∀ database, (update database).image = database.image) :
    (modify update : Action Unit).Ignores id where
  forgets before inside := congrArg (EStateM.Result.ok ()) (alike before)
  stays before inside := by
    change id < (update before).image.size
    rw [image]
    exact inside

/-- An action that looks at no open lists and does nothing but change the image. -/
theorem onImage {action : Action Unit} (ran : ∀ before : Database,
      (∃ image, before.image.size ≤ image.size ∧ ∀ openLists,
        action.run { before with openLists } = .ok () { before with image, openLists }) ∨
      ∃ cause, ∀ openLists,
        action.run { before with openLists } = .error cause { before with openLists }) :
    action.Ignores id where
  forgets before _ := by
    obtain ⟨image, -, done⟩ | ⟨cause, failed⟩ := ran before
    · exact (done _).trans (congrArg (forgetReached id) (done before.openLists).symm)
    · exact (failed _).trans (congrArg (forgetReached id) (failed before.openLists).symm)
  stays before inside := by
    obtain ⟨image, grows, done⟩ | ⟨cause, failed⟩ := ran before
    · have ran := done before.openLists
      rw [ran]
      exact Nat.lt_of_lt_of_le inside grows
    · have ran := failed before.openLists
      rw [ran]
      exact inside

end Action.Ignores

/-! ## Each call -/

namespace Database

open Action.Ignores

variable {id : Nat}

theorem ignores_appendBytes (bytes : List UInt8) (id : Nat) : (appendBytes bytes).Ignores id := by
  apply onImage
  intro before
  by_cases room : before.image.HasRoom bytes.length
  · refine .inl ⟨before.image.extend bytes room, ?_, fun _ => dif_pos room⟩
    rw [Image.size_extend]
    exact Nat.le_add_right _ _
  · exact .inr ⟨before.image.noRoom bytes.length, fun _ => dif_neg room⟩

theorem ignores_patchNumber (offset width value id : Nat) :
    (patchNumber offset width value).Ignores id := by
  apply onImage
  intro before
  by_cases inside : offset + width ≤ before.image.size
  · have sameSize := before.image.size_replace offset (LittleEndian.encode width value)
    exact .inl ⟨_, Nat.le_of_eq sameSize.symm, fun _ => if_pos inside⟩
  · exact .inr ⟨.outOfRange offset width before.image.size, fun _ => if_neg inside⟩

theorem ignores_requireKind (tag : Tag) (kind : Kind) (id : Nat) :
    (requireKind tag kind).Ignores id := by
  rw [requireKind]
  split
  · exact .done ()
  · exact .failed _

theorem ignores_requireNoZero (text : String) (id : Nat) : (requireNoZero text).Ignores id := by
  rw [requireNoZero]
  split
  · exact .failed _
  · exact .done ()

theorem ignores_appendTag (tag : Tag) (id : Nat) : (appendTag tag).Ignores id :=
  ignores_appendBytes _ id

theorem ignores_appendSized (tag : Tag) (payload : List UInt8) (id : Nat) :
    (appendSized tag payload).Ignores id := by
  by_cases small : payload.length < sizeLimit
  · rw [appendSized_of_lt small]
    exact (ignores_appendTag tag id).seq fun _ => (ignores_appendBytes _ id).seq fun _ =>
      ignores_appendBytes payload id
  · apply onImage
    intro before
    exact .inr ⟨before.image.noRoom payload.length,
      fun _ => appendSized_of_le (Nat.not_lt.mp small) _⟩

theorem ignores_write (tag : Tag) (content : Leaf) (id : Nat) : (content.write tag).Ignores id := by
  rw [Leaf.write_eq]
  apply (ignores_requireKind tag _ id).seq
  intro _
  cases content with
  | null => exact ignores_appendTag tag id
  | scalar form value => exact (ignores_appendTag tag id).seq fun _ => ignores_appendBytes _ id
  | string text => exact (ignores_requireNoZero text id).seq fun _ => ignores_appendSized tag _ id
  | binary bytes => exact ignores_appendSized tag bytes id

theorem ignores_writeBinaryFile (tag : Tag) (directory : Directory) (path : Path) (id : Nat) :
    (writeBinaryFile tag directory path).Ignores id := by
  apply (ignores_requireKind tag _ id).seq
  intro _
  split
  · exact ignores_appendSized tag _ id
  · exact .failed _

theorem ignores_writeInterned (tag : Tag) (text : String) (id : Nat) :
    (writeInterned tag text).Ignores id := by
  apply (ignores_requireKind tag _ id).seq
  intro _
  apply look fun _ => rfl
  intro before _
  dsimp only
  split
  · exact failed_seq _ _
  apply (ignores_requireNoZero text id).seq
  intro _
  apply look fun _ => rfl
  intro before' _
  cases before'.pool.intern text with
  | error cause => exact failed_seq _ _
  | ok interned =>
      apply (done interned).seq
      rintro ⟨pool, offset⟩
      have intoPool : (modify fun database => { database with pool } : Action Unit).Ignores id :=
        change (fun _ => rfl) fun _ => rfl
      exact intoPool.seq fun _ => ignores_write tag (.scalar .stringRef (.ofNat _ offset)) id

theorem ignores_beginList (tag : Tag) (id : Nat) : (beginList tag).Ignores id := by
  apply (ignores_requireKind tag _ id).seq
  intro _
  apply look fun _ => rfl
  intro before inside
  apply (ignores_appendTag tag id).seq
  intro _
  apply (ignores_appendBytes _ id).seq
  intro _
  apply Action.Ignores.seq
  · have different : before.image.size ≠ id := Nat.ne_of_gt inside
    apply change
    · intro database
      simp [forget, different]
    · exact fun _ => rfl
  · exact fun _ => done _

theorem ignores_dropList (other id : Nat) : (dropList other).Ignores id := by
  apply change
  · intro database
    simp only [forget, List.erase_comm]
  · exact fun _ => rfl

theorem ignores_endList (other id : Nat) : (endList other).Ignores id := by
  apply look fun _ => rfl
  intro before _
  apply (ignores_requireKind _ _ id).seq
  intro _
  apply look fun _ => rfl
  intro before' _
  dsimp only
  split
  · exact (ignores_patchNumber _ _ _ id).seq fun _ => ignores_dropList other id
  · exact failed _

end Database

/-! ## Runs of calls -/

namespace Call

variable {call : Call} {before : Database} {id : Nat}

theorem ignores_action (noCommit : call ≠ .commit) (id : Nat) : call.action.Ignores id := by
  cases call with
  | write tag content => exact (Database.ignores_write tag content id).seq fun _ => .done none
  | writeFile tag directory path =>
      exact (Database.ignores_writeBinaryFile tag directory path id).seq fun _ => .done none
  | writeInterned tag text =>
      exact (Database.ignores_writeInterned tag text id).seq fun _ => .done none
  | beginList tag => exact (Database.ignores_beginList tag id).seq fun new => .done (some new)
  | endList other => exact (Database.ignores_endList other id).seq fun _ => .done none
  | dropList other => exact (Database.ignores_dropList other id).seq fun _ => .done none
  | commit => exact absurd rfl noCommit

theorem after_event (call : Call) (before : Database) :
    (call.event before).after = reached (call.action.run before) := by
  rw [event]
  split
  · next ran => rw [ran, reached]
  · next ran => rw [ran, reached]

theorem after_event_forget (noCommit : call ≠ .commit) (inside : id < before.image.size) :
    (call.event (before.forget id)).after = (call.event before).after.forget id ∧
      id < (call.event before).after.image.size := by
  have ignores := call.ignores_action noCommit id
  rw [after_event, after_event, ignores.forgets before inside, reached_forgetReached]
  exact ⟨rfl, ignores.stays before inside⟩

end Call

section Play

variable {config : Config} {id : Nat} {tag : Tag} {calls base other earlier inside : List Call}

/-- If two runs only differ in whether a list is open, they still do after further calls. -/
theorem play_append_forget (same : (play config other).2 = (play config base).2.forget id)
    (stands : id < (play config base).2.image.size) (noCommit : ∀ call ∈ calls, call ≠ .commit) :
    (play config (calls ++ other)).2 = (play config (calls ++ base)).2.forget id ∧
      id < (play config (calls ++ base)).2.image.size := by
  induction calls with
  | nil => exact ⟨same, stands⟩
  | cons call rest ih =>
      obtain ⟨notThis, notRest⟩ := List.forall_mem_cons.mp noCommit
      obtain ⟨sameRest, standsRest⟩ := ih notRest
      simp only [List.cons_append, play, sameRest]
      exact call.after_event_forget notThis standsRest

theorem begun_event {before : Database} (isList : tag.kind? = some .list)
    (room : before.image.HasRoom Image.listHeaderSize) :
    ∃ image, (Call.beginList tag).event before =
        ⟨.beginList tag, before, .ok (some before.image.size),
          { before with image, openLists := before.image.size :: before.openLists }⟩ ∧
      image.toList = before.image.toList ++ (Record.list tag 0).encode := by
  obtain ⟨image, ran, added⟩ := Database.beginList_run isList room
  refine ⟨image, ?_, added⟩
  rw [Call.event, Call.action, EStateM.run_bind, ran]
  rfl

/-- A list at the end of the image that is ended claims nothing, as it did before. -/
theorem endList_run_last {before : Database} {bytes : List UInt8} (isList : tag.kind? = some .list)
    (last : before.image.toList = bytes ++ (Record.list tag 0).encode) :
    (Database.endList bytes.length).run before = .ok () (before.forget bytes.length) := by
  have split : before.image.toList = bytes ++ (Record.list tag 0).encode ++ [] := by
    rw [List.append_nil, last]
  have holds : before.image.Holds bytes.length (Record.list tag 0).encode :=
    ⟨bytes, [], split, rfl⟩
  have size : before.image.size = bytes.length + Image.listHeaderSize := by
    rw [← Image.length_toList, last, List.length_append, ← Record.size, Record.size_list]
  have nothing : before.image.size - bytes.length - Image.listHeaderSize = 0 := by omega
  have unchanged : before.image.replace (bytes.length + Image.tagSize) (LittleEndian.encode 4 0) =
      before.image :=
    Image.eq_of_toList_eq ((Database.toList_replace_length 0 split).trans split.symm)
      (Image.capacity_replace _ _ _)
  have isListThere : (before.image.tagAt bytes.length).kind? = some .list := by
    rw [holds.tagAt]
    exact isList
  rw [Database.endList_of_le isListThere (Nat.le_of_eq size.symm), nothing, unchanged]
  rfl

/-- A list that is ended at once only ceases to be open. -/
theorem Call.after_end_begin {before : Database} (isList : tag.kind? = some .list)
    (room : before.image.HasRoom Image.listHeaderSize) :
    ((Call.endList before.image.size).event ((Call.beginList tag).event before).after).after =
        ((Call.beginList tag).event before).after.forget before.image.size ∧
      before.image.size < ((Call.beginList tag).event before).after.image.size := by
  obtain ⟨image, began, added⟩ := begun_event isList room
  rw [began]
  constructor
  · have ended : (Database.endList before.image.toList.length).run
        { before with image, openLists := before.image.size :: before.openLists } = _ :=
      endList_run_last isList added
    rw [Image.length_toList] at ended
    rw [after_event, Call.action, EStateM.run_bind, ended]
    rfl
  · have grown := Image.size_eq_of_added added
    rw [← Record.size, Record.size_list] at grown
    exact Nat.lt_of_lt_of_eq (Nat.lt_add_of_pos_right (by decide)) grown.symm

/-- Dropping a list behind some calls comes to the same as ending it before them. -/
theorem play_drop_eq_play_end (isList : tag.kind? = some .list)
    (room : (play config earlier).2.image.HasRoom Image.listHeaderSize)
    (noCommit : ∀ call ∈ inside, call ≠ .commit) (place : (play config earlier).2.image.size = id) :
    (play config (.dropList id :: (inside ++ .beginList tag :: earlier))).2 =
      (play config (inside ++ .endList id :: .beginList tag :: earlier)).2 := by
  subst place
  obtain ⟨ended, stands⟩ := Call.after_end_begin isList room
  have forgotten : (play config (.endList _ :: .beginList tag :: earlier)).2 =
      (play config (.beginList tag :: earlier)).2.forget _ := ended
  exact (play_append_forget forgotten stands noCommit).1.symm

end Play

end TagTree
