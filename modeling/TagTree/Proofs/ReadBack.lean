import TagTree.Proofs.Interning

/-!
# Reading back what was written

Whatever else a run does, and in whatever order it closes its lists, each record that it wrote can
be read from its place in every later state: its tag, its size, and what it holds. A reference to an
interned text leads nowhere until the string table is written, and to the text from then on.
-/

namespace TagTree

/-- Every reader says that a record of a certain tag and content stands at one place and ends at
another. -/
structure Leaf.ReadableAt (database : Database) (id behind : Nat) (tag : Tag) (content : Leaf) :
    Prop where
  tagAt : database.image.tagAt id = tag
  sizeOf : id + database.image.sizeOf id = behind
  found : content.FoundAt database id
  others : ∀ form : Scalar, form.kind ≠ content.kind →
    ∀ default, database.image.readScalar form id default = default

/-- What a successful call wrote is read back where the image ended before it. -/
def Event.ReadBack (event : Event) (events : List Event) (database : Database) : Prop :=
  let id := event.before.image.size
  let behind := event.after.image.size
  match event.call with
  | .write tag content => content.ReadableAt database id behind tag
  | .writeFile tag directory path =>
      ∃ bytes, directory.read path = .ok bytes ∧
        (Leaf.binary bytes).ReadableAt database id behind tag
  | .writeInterned tag text =>
      (Leaf.scalar .stringRef (.ofNat _ (placeOf event.before.pool.texts text))).ReadableAt
          database id behind tag ∧
        ((¬∃ table, Committed events table) → database.string? id = none ∧
          database.resolveString id = .error (.notFound (.stringTable id))) ∧
        ((∃ table, Committed events table) → database.string? id = some text)
  | _ => True

variable {config : Config} {events : List Event} {database : Database} {event : Event} {id : Nat}
  {tag : Tag} {content : Leaf}

/-- A leaf that stands in an image is read there. -/
theorem Leaf.readableAt_of_placed {records : List Record}
    (written : database.image.Written records)
    (member : (id, .leaf tag content) ∈ Layout.placed Header.size records) :
    content.ReadableAt database id (id + (Record.leaf tag content).size) tag where
  tagAt := written.tagAt member
  sizeOf := congrArg (id + ·) (written.sizeOf member)
  found := Database.foundAt_of_holds (written.laidOut.holds member) (written.sound_of_placed member)
  others _ other default := Image.readScalar_of_kind_ne (written.kindAt? member) other default

namespace Traced

/-- The one record that a call added is read from where the image ended before. -/
theorem readableAt_of_added (traced : Traced config events database) (isCall : event ∈ events)
    (added : event.added = [.leaf tag content]) :
    content.ReadableAt database event.before.image.size event.after.image.size tag := by
  rw [traced.size_after isCall, added, Layout.size_cons, Layout.size_nil, Nat.add_zero]
  apply Leaf.readableAt_of_placed traced.written
  apply traced.mem_placed_of_added isCall
  rw [added]
  exact List.mem_singleton.mpr rfl

/-- Without a table a reference leads nowhere. -/
theorem unresolved_of_reference {value : Scalar.stringRef.Value}
    (traced : Traced config events database)
    (member : (id, .leaf tag (.scalar .stringRef value)) ∈ (Draft.ofEvents events).placed)
    (noTable : ¬∃ table, Committed events table) :
    database.string? id = none ∧
      database.resolveString id = .error (.notFound (.stringTable id)) := by
  have holds := traced.written.laidOut.holds member
  have sound := traced.written.sound_of_placed member
  have table := traced.stringTable_eq_none_iff.mpr noTable
  exact ⟨Database.string?_stringRef_none holds sound table,
    Database.resolveString_stringRef_none holds sound table⟩

/-- A reference to the place of an interned text leads to it once there is a table. -/
theorem string?_of_reference {text : String} {table : Nat}
    (traced : Traced config events database) (interned : text ∈ internedTexts events)
    (member : (id, Database.reference tag (internedTexts events) text) ∈
      (Draft.ofEvents events).placed)
    (committed : Committed events table) : database.string? id = some text := by
  have hasTable := traced.table_eq_some.mpr committed
  have item := traced.written.laidOut.holds (traced.mem_placed_of_table hasTable interned)
  exact Database.string?_reference (traced.written.laidOut.holds member)
    (traced.written.sound_of_placed member) (traced.describes.table.trans hasTable)
    (traced.clean_internedTexts text interned) item

end Traced

/-- Every successful write of a run is read back in every later state. -/
theorem Run.readBack (run : Run config events database) (isCall : event ∈ events)
    (succeeded : event.Succeeded) : event.ReadBack events database := by
  have traced := run.traced
  obtain ⟨answer, isOk⟩ := succeeded
  cases event with
  | mk call before outcome after =>
      cases isOk
      cases call with
      | write tag content => exact traced.readableAt_of_added isCall rfl
      | writeFile tag directory path =>
          obtain ⟨bytes, read⟩ := traced.exists_contents isCall ⟨_, rfl⟩ rfl
          refine ⟨bytes, read, traced.readableAt_of_added isCall ?_⟩
          simp only [Event.added, Call.added, read]
      | writeInterned tag text =>
          obtain ⟨interned, samePlace⟩ := traced.placeOf_eq isCall rfl
          have member := traced.mem_placed_of_added isCall (List.mem_singleton.mpr rfl)
          refine ⟨traced.readableAt_of_added isCall rfl, ?_, ?_⟩
          · exact traced.unresolved_of_reference member
          · rintro ⟨table, committed⟩
            rw [samePlace] at member
            exact traced.string?_of_reference interned member committed
      | _ => trivial

/-- The text that was interned at 18 is got back from its reference as soon as the table is written
at 54, and not before. -/
theorem readBack_sampleCalls :
    Playable {} sampleCalls ∧
      (Leaf.string "é").ReadableAt (play {} sampleCalls).2 44 54 ⟨0x8001⟩ ∧
      (Leaf.scalar .stringRef 6).ReadableAt (play {} sampleCalls).2 18 24 .name ∧
      (play {} sampleCalls).2.string? 18 = some "ab" ∧
      (play {} (sampleCalls.drop 2)).2.string? 18 = none ∧
      (play {} (sampleCalls.drop 2)).2.resolveString 18 =
        .error (.notFound (.stringTable 18)) := by
  have run := run_play playable_sampleCalls
  let written := (Call.write ⟨0x8001⟩ (.string "é")).event (play {} (sampleCalls.drop 5)).2
  have isCall : written ∈ (play {} sampleCalls).1 :=
    mem_play {} (sampleCalls.take 4) _ (sampleCalls.drop 5)
  have places : written.before.image.size = 44 ∧ written.after.image.size = 54 := by
    decide +kernel
  have inline := Run.readBack run isCall (Event.succeeded_of_isOk (by decide +kernel))
  rw [Event.ReadBack, places.1, places.2, Call.event_call] at inline
  let interned := (Call.writeInterned .name "ab").event (play {} (sampleCalls.drop 11)).2
  have succeeded : interned.Succeeded := Event.succeeded_of_isOk (by decide +kernel)
  have offsets : interned.before.image.size = 18 ∧ interned.after.image.size = 24 ∧
      placeOf interned.before.pool.texts "ab" = 6 := by
    decide +kernel
  have isEarly : interned ∈ (play {} (sampleCalls.drop 2)).1 :=
    mem_play {} ((sampleCalls.drop 2).take 8) _ (sampleCalls.drop 11)
  have early : Run {} (play {} (sampleCalls.drop 2)).1 (play {} (sampleCalls.drop 2)).2 :=
    run_play (by decide +kernel)
  have before := Run.readBack early isEarly succeeded
  rw [Event.ReadBack, offsets.1, offsets.2.1, Call.event_call] at before
  have noTable := early.traced.stringTable_eq_none_iff.mp (by decide +kernel)
  let last := (Call.write ⟨0x1001⟩ .null).event (play {} (sampleCalls.drop 1)).2
  let commit := Call.commit.event (play {} (sampleCalls.drop 2)).2
  have traced : Traced {} ([last] ++ commit :: (play {} (sampleCalls.drop 2)).1)
      (play {} sampleCalls).2 := run.traced
  have committed := traced.exists_committed (Call.event_call _ _)
    (Event.succeeded_of_isOk (by decide +kernel)) (by decide +kernel)
  have afterwards := Run.readBack run (mem_play {} (sampleCalls.take 10) _ (sampleCalls.drop 11))
    succeeded
  rw [Event.ReadBack, offsets.1, offsets.2.1, Call.event_call] at afterwards
  obtain ⟨readable, -, found⟩ := afterwards
  rw [offsets.2.2] at readable
  exact ⟨playable_sampleCalls, inline, readable, found committed, before.2.1 noTable⟩

end TagTree
