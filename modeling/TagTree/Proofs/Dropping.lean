import TagTree.Proofs.Forgetting
import TagTree.Proofs.Growth

/-!
# Lists that are dropped

Dropping a list is the same as ending it at once and writing what was to be inside it behind it
instead. So when all other lists are closed in turn, a list that was dropped has no children, and
what would have been its children follows it, whole and in order, in the innermost list around it
that is ended, or at the top if there is none.
-/

namespace TagTree

open Layout

/-! ## Forests without pending texts -/

namespace Forest

/-- The same nodes with each reference as a mere number. -/
def plain : Forest → Forest
  | nil => nil
  | leaf tag content rest => leaf tag content rest.plain
  | interned tag text rest =>
      leaf tag (.scalar .stringRef (.ofNat _ (placeOf [] text))) rest.plain
  | list tag children rest => list tag children.plain rest.plain

variable {forest front back : Forest} {start : Nat} {table : List String} {records : List Record}

theorem texts_plain (forest : Forest) : forest.plain.texts = [] := by
  induction forest with
  | nil => rfl
  | leaf tag content rest ih => exact ih
  | interned tag text rest ih => exact ih
  | list tag children rest ihChildren ihRest => rw [plain, texts, ihChildren, ihRest]; rfl

@[simp] theorem size_plain (forest : Forest) : forest.plain.size = forest.size := by
  induction forest with
  | nil => rfl
  | leaf tag content rest ih => rw [plain, size, ih, size]
  | interned tag text rest ih =>
      rw [plain, size, ih, size, ← size_reference tag [] text]
      rfl
  | list tag children rest ihChildren ihRest => rw [plain, size, ihChildren, ihRest, size]

theorem records_plain (forest : Forest) : forest.plain.records [] = forest.records [] := by
  induction forest with
  | nil => rfl
  | leaf tag content rest ih => rw [plain, Forest.records, ih, Forest.records]
  | interned tag text rest ih =>
      rw [plain, Forest.records, ih, Forest.records]
      rfl
  | list tag children rest ihChildren ihRest =>
      rw [plain, Forest.records, ihChildren, ihRest, size_plain, Forest.records]

theorem tops_plain (start : Nat) (forest : Forest) :
    forest.plain.tops start = forest.tops start := by
  induction forest generalizing start with
  | nil => rfl
  | leaf tag content rest ih => rw [plain, tops, ih, tops]
  | interned tag text rest ih =>
      rw [plain, tops, ih, tops, ← size_reference tag [] text]
      rfl
  | list tag children rest _ ihRest => rw [plain, tops, ihRest, tops, size_plain]

/-- Going over nodes that stand in an image gives them back. -/
theorem readAlong_plain {database : Database} (written : database.image.Written records)
    (stands : forest.StandsAt [] start records) :
    forest.plain.ReadAlong database (forest.tops start) := by
  have standsPlain : forest.plain.StandsAt [] start records := by
    rwa [StandsAt, records_plain]
  rw [← tops_plain]
  apply readAlong_tops written standsPlain
  intro id tag text waits
  rw [texts_plain] at waits
  cases waits

theorem StandsAt.append (stands : (front.append back).StandsAt table start records) :
    front.StandsAt table start records ∧
      back.StandsAt table (start + front.size) records := by
  rw [StandsAt, records_append, placed_append, size_records] at stands
  exact List.forall_mem_append.mp stands

end Forest

/-! ## Nodes behind a dropped list -/

namespace Growth

variable {growth : Growth} {draft : Draft} {block inner : Forest} {place id : Nat}
  {around : List Nat} {later : List Call} {call : Call} {tag : Tag}

/-- Some nodes are at the end of an open list or of the top, or inside a list that was ended. All
lists between it and those that were around the nodes at first were dropped by certain calls. -/
inductive Rests (block : Forest) (place : Nat) (around : List Nat) (later : List Call)
    (growth : Growth) : Prop where
  | inOpen {gone lists : List Nat} (split : around = gone ++ lists)
      (dropped : ∀ list ∈ gone, .dropList list ∈ later)
      (has : growth.Has block place Header.size [] lists)
  | inEnded {gone outer : List Nat} {list : Nat} {tag : Tag} {front back : Forest}
      (split : around = gone ++ list :: outer) (dropped : ∀ list ∈ gone, .dropList list ∈ later)
      (ended : .endList list ∈ later)
      (settled : ∀ entry ∈
        placed list ((Forest.ended tag (front.append (block.append back))).records []),
        entry ∈ growth.settled Header.size)
      (stands : list + Image.listHeaderSize + front.size = place)

theorem Rests.refused (rests : growth.Rests block place around later) (call : Call) :
    growth.Rests block place around (call :: later) := by
  cases rests with
  | inOpen split dropped has =>
      exact .inOpen split (fun list isGone => List.mem_cons_of_mem _ (dropped list isGone)) has
  | inEnded split dropped ended settled stands =>
      exact .inEnded split (fun list isGone => List.mem_cons_of_mem _ (dropped list isGone))
        (List.mem_cons_of_mem _ ended) settled stands

theorem settled_follow {entry : Nat × Record} {start : Nat} (texts : List String) (call : Call)
    (member : entry ∈ growth.settled start) :
    entry ∈ (growth.follow texts call).settled start := by
  cases call with
  | beginList tag => exact settled_begin member
  | endList id => exact settled_close keepsInside_ended member
  | dropList id => exact settled_close keepsInside_dropped member
  | write tag content => exact settled_add member
  | writeFile tag directory path => exact settled_add member
  | writeInterned tag text => exact settled_add member
  | commit => exact settled_add member

/-- Further calls keep the nodes where they are, or end or drop the list around them. -/
theorem Rests.follow (rests : growth.Rests block place around later) (forms : growth.Forms draft)
    (inTurn : ∀ id ∈ call.closed?, draft.openLists.head? = some id) :
    (growth.follow draft.texts call).Rests block place around (call :: later) := by
  cases rests.refused call with
  | inEnded split dropped ended settled stands =>
      exact .inEnded split dropped ended
        (fun entry member => settled_follow _ _ (settled entry member)) stands
  | inOpen split dropped has =>
      cases call with
      | beginList tag => exact .inOpen split dropped (has.begin tag)
      | endList id =>
          obtain ⟨tag, inner, innermost⟩ := forms.exists_innermost (inTurn id rfl)
          rcases has.close innermost Forest.ended with same | ⟨rfl, front, back, rfl, stands⟩
          · exact .inOpen split dropped same
          · rw [openLists_close innermost Forest.ended] at split
            exact .inEnded split dropped (List.mem_cons_self ..)
              (fun entry member => settled_put innermost member) stands
      | dropList id =>
          obtain ⟨tag, inner, innermost⟩ := forms.exists_innermost (inTurn id rfl)
          rcases has.close innermost Forest.dropped with same | ⟨rfl, front, back, rfl, stands⟩
          · exact .inOpen split dropped same
          · -- The list around the nodes is dropped itself, so they come behind it one level up.
            have place : id + (Forest.dropped tag front).size = place := by
              rw [← stands, Forest.dropped, Forest.size, Forest.size, Nat.add_zero, Nat.add_assoc]
            have whole : Forest.dropped tag (front.append (block.append back)) =
                (Forest.dropped tag front).append (block.append back) := rfl
            have outside : (growth.close Forest.dropped).Has block _ Header.size [] _ :=
              innermost.has_close whole place
            rw [openLists_close innermost Forest.dropped, List.cons_append,
              List.append_cons] at split
            apply Rests.inOpen split _ outside
            rw [List.forall_mem_append, List.forall_mem_singleton]
            exact ⟨dropped, List.mem_cons_self ..⟩
      | write tag content => exact .inOpen split dropped (has.add _)
      | writeFile tag directory path => exact .inOpen split dropped (has.add _)
      | writeInterned tag text => exact .inOpen split dropped (has.add _)
      | commit => exact .inOpen split dropped (has.add _)

/-- What was inside a list is at the end of the list around it once the list is dropped. -/
theorem rests_dropped (innermost : growth.Innermost Header.size id tag inner) :
    (growth.close Forest.dropped).Rests (Forest.dropped tag inner) id
      ((growth.close Forest.dropped).openLists Header.size) [] := by
  have whole : Forest.dropped tag inner =
      Forest.nil.append ((Forest.dropped tag inner).append .nil) := by
    rw [Forest.append_nil, Forest.append]
  have has : (growth.close Forest.dropped).Has _ id Header.size [] _ :=
    innermost.has_close whole (Nat.add_zero id)
  rw [List.append_nil] at has
  apply Rests.inOpen (List.nil_append _).symm _ has
  intro list isGone
  cases isGone

end Growth

/-! ## What is found when all lists are closed -/

/-- A list has no children, and those that it has in another database follow it, with the same
forest inside them. They are in the first of the lists around that was not dropped but ended by
certain calls, or at the top if all were dropped. -/
structure Database.LeavesBeside (database filled : Database) (id : Nat) (around : List Nat)
    (later : List Call) : Prop where
  childless : database.image.children id = []
  whole : ∃ content : Forest, content.ReadAlong filled (filled.image.children id) ∧
    content.ReadAlong database (filled.image.children id)
  follow : ∃ gone outer front back, around = gone ++ outer ∧
    (∀ list ∈ gone, .dropList list ∈ later) ∧ (∀ list ∈ outer.head?, .endList list ∈ later) ∧
      database.image.children (outer.head?.getD Image.root) =
        front ++ id :: (filled.image.children id ++ back)

namespace Forest

variable {front inner back : Forest} {start place : Nat} {tag : Tag} {table : List String}
  {records : List Record} {image : Image}

/-- Behind an empty list at the top come the nodes behind it. -/
theorem tops_dropped (tag : Tag) (inner back : Forest) (stands : start + front.size = place) :
    (front.append ((dropped tag inner).append back)).tops start =
      front.tops start ++ place :: (inner.tops (place + Image.listHeaderSize) ++
        back.tops (place + Image.listHeaderSize + inner.size)) := by
  rw [tops_append, stands, dropped, append, tops, tops_append, size, Nat.add_zero]

/-- An empty list has no children, and going over the nodes behind it gives them back. -/
theorem StandsAt.dropped {database : Database} (written : database.image.Written records)
    (stands : start + front.size = place)
    (standsAll : (front.append ((dropped tag inner).append back)).StandsAt [] start records) :
    database.image.children place = [] ∧
      inner.plain.ReadAlong database (inner.tops (place + Image.listHeaderSize)) := by
  have standsList : (Forest.list tag .nil (inner.append back)).StandsAt [] place records :=
    stands ▸ standsAll.append.2
  exact ⟨children_list written standsList, readAlong_plain written standsList.list.2.2.append.1⟩

/-- The records of a whole image are those of its nodes at the top. -/
theorem children_root_records {forest : Forest} (written : image.Written (forest.records table)) :
    image.children Image.root = forest.tops Header.size := by
  have tiles := tiles_tops written fun _ member => member
  rw [← size_records table, ← written.laidOut.size_eq] at tiles
  exact tiles.children_root

end Forest

namespace Growth

variable {growth : Growth} {database filled : Database} {inner : Forest} {id : Nat}
  {around : List Nat} {later : List Call} {tag : Tag}

/-- When no list is open any more, the nodes behind a dropped list are found where they rest. -/
theorem Rests.leavesBeside
    (rests : growth.Rests (Forest.dropped tag inner) id around later)
    (written : database.image.Written growth.records) (closed : growth.openLists Header.size = [])
    (children : filled.image.children id = inner.tops (id + Image.listHeaderSize))
    (reads : inner.plain.ReadAlong filled (inner.tops (id + Image.listHeaderSize))) :
    database.LeavesBeside filled id around later := by
  cases rests with
  | inOpen split dropped has =>
      cases has with
      | inside has => simp [openLists] at closed
      | @here _ _ _ front back splitNodes stands =>
          cases growth with
          | opened nodes outer within => simp [openLists] at closed
          | level nodes =>
              obtain rfl : nodes = _ := splitNodes
              have walk := Forest.children_root_records written
              rw [Forest.tops_dropped tag inner back stands] at walk
              obtain ⟨childless, readsHere⟩ :=
                Forest.StandsAt.dropped written stands fun _ member => member
              constructor
              · exact childless
              · rw [children]
                exact ⟨inner.plain, reads, readsHere⟩
              · rw [children]
                refine ⟨_, [], _, _, split, dropped, ?_, walk⟩
                intro list isFirst
                cases isFirst
  | @inEnded gone outer list listTag front back split dropped ended settled stands =>
      have standsList : (Forest.list listTag
          (front.append ((Forest.dropped tag inner).append back)) .nil).StandsAt [] list
            growth.records := fun entry member => mem_placed_of_settled (settled entry member)
      have walk := Forest.children_list written standsList
      rw [Forest.tops_dropped tag inner back stands] at walk
      obtain ⟨childless, readsHere⟩ := standsList.list.2.1.dropped written stands
      constructor
      · exact childless
      · rw [children]
        exact ⟨inner.plain, reads, readsHere⟩
      · rw [children]
        refine ⟨gone, list :: outer, _, _, split, dropped, ?_, walk⟩
        intro first isFirst
        cases isFirst
        exact ended

end Growth

/-! ## Runs -/

section Run

variable {config : Config} {events : List Event} {database : Database} {event : Event}
  {id place : Nat} {tag : Tag} {block : Forest} {inners outer around : List Nat} {call : Call}
  {calls earlier inside later : List Call}

/-- Some calls make up a run. -/
abbrev Plays (config : Config) (calls : List Call) : Prop :=
  Run config (play config calls).1 (play config calls).2

theorem Run.of_cons (run : Run config (event :: events) database) :
    Run config events event.before ∧ ∀ id ∈ event.call.closed?, id ∈ answers events := by
  cases run with
  | step run call known room =>
      rw [Call.event_before, Call.event_call]
      exact ⟨run, known⟩

theorem Plays.of_cons (plays : Plays config (call :: calls)) :
    Plays config calls ∧ ∀ id ∈ call.closed?, id ∈ answers (play config calls).1 := by
  obtain ⟨run, known⟩ := Run.of_cons plays
  rw [Call.event_before] at run
  rw [Call.event_call] at known
  exact ⟨run, known⟩

theorem Plays.of_append (plays : Plays config (later ++ calls))
    (inTurn : InTurn (play config (later ++ calls)).1) :
    Plays config calls ∧ InTurn (play config calls).1 := by
  induction later with
  | nil => exact ⟨plays, inTurn⟩
  | cons call rest ih => exact ih plays.of_cons.1 inTurn.1

theorem Event.call_closed?_of_closed? (closes : event.closed? = some id) :
    event.call.closed? = some id := by
  rw [Event.closed?] at closes
  split at closes
  · exact closes
  · cases closes

/-- As long as a list is not closed, the lists around it are not closed either. -/
theorem exists_unclosed_cons
    (inTurn : ∀ closing ∈ event.call.closed?, (unclosed events).head? = some closing)
    (stillOpen : event.closed? ≠ some id) (split : unclosed events = inners ++ id :: outer) :
    ∃ inners, unclosed (event :: events) = inners ++ id :: outer := by
  rw [unclosed]
  cases begins : event.begun? with
  | some new => exact ⟨new :: inners, congrArg (new :: ·) split⟩
  | none =>
      cases closes : event.closed? with
      | none => exact ⟨inners, split⟩
      | some closing =>
          have isFirst := inTurn closing (Event.call_closed?_of_closed? closes)
          rw [split] at isFirst
          cases inners with
          | nil =>
              rw [closes] at stillOpen
              exact absurd isFirst.symm stillOpen
          | cons first rest =>
              cases isFirst
              refine ⟨rest, ?_⟩
              dsimp only
              rw [split, List.cons_append, List.erase_cons_head]

theorem exists_unclosed_append (inTurn : InTurn (play config (inside ++ calls)).1)
    (stillOpen : id ∉ closed (play config (inside ++ calls)).1)
    (split : unclosed (play config calls).1 = id :: outer) :
    ∃ inners, unclosed (play config (inside ++ calls)).1 = inners ++ id :: outer := by
  induction inside with
  | nil => exact ⟨[], split⟩
  | cons call rest ih =>
      obtain ⟨inners, splitRest⟩ := ih inTurn.1 fun isClosed =>
        stillOpen (mem_closed_cons.mpr (.inr isClosed))
      exact exists_unclosed_cons inTurn.2
        (fun closes => stillOpen (mem_closed_cons.mpr (.inl closes))) splitRest

/-- When a list is next to be closed, the lists around it are those that were open before it. -/
theorem unclosed_of_isFirst (isList : tag.kind? = some .list)
    (room : (play config earlier).2.image.HasRoom Image.listHeaderSize)
    (place : (play config earlier).2.image.size = id)
    (plays : Plays config (inside ++ .beginList tag :: earlier))
    (inTurn : InTurn (play config (inside ++ .beginList tag :: earlier)).1)
    (isFirst : (unclosed (play config (inside ++ .beginList tag :: earlier)).1).head? = some id) :
    unclosed (play config (inside ++ .beginList tag :: earlier)).1 =
      id :: unclosed (play config earlier).1 := by
  have tracks := plays.traced.tracks
  have began : unclosed (play config (.beginList tag :: earlier)).1 =
      id :: unclosed (play config earlier).1 := by
    obtain ⟨image, event, -⟩ := begun_event isList room
    rw [play, event, ← place]
    rfl
  have stillOpen : id ∉ closed (play config (inside ++ .beginList tag :: earlier)).1 := by
    have isOpen := List.mem_of_head? isFirst
    rw [← plays.traced.openLists_eq, tracks.openLists, List.mem_filter,
      decide_eq_true_iff] at isOpen
    exact isOpen.2
  obtain ⟨inners, split⟩ := exists_unclosed_append inTurn stillOpen began
  have distinct := tracks.nodup
  rw [plays.traced.openLists_eq, split] at distinct
  rw [split] at isFirst ⊢
  cases inners with
  | nil => rfl
  | cons first rest =>
      cases isFirst
      simp at distinct

/-- Ending a list that was answered always succeeds. -/
theorem Traced.endList_ran (traced : Traced config events database)
    (answered : id ∈ answers events) :
    ∃ after, (Call.endList id).action.run database = .ok none after := by
  obtain ⟨tag, length, member⟩ := traced.listAt answered
  have fits : (database.image.tagAt id).kind? = some .list := by
    rw [traced.written.tagAt member]
    exact traced.written.sound_of_placed member
  have inside : id + Image.listHeaderSize ≤ database.image.size := by
    rw [traced.describes.size_eq]
    exact (traced.listAt answered).end_le
  exact ⟨_, Draft.run_answering_ok (Database.endList_of_le fits inside) none⟩

theorem Traced.written_end (traced : Traced config events database)
    (answered : id ∈ answers events) :
    ((Call.endList id).event database).after.image.Written
      ((Draft.ofEvents events).revise (.endList id)).records := by
  obtain ⟨after, ended⟩ := traced.endList_ran answered
  cases traced.describes.react_endList traced.proper (traced.listAt answered) with
  | noRoom ran => cases ended.symm.trans ran
  | refused ran => cases ended.symm.trans ran
  | done allowed ran describes =>
      rw [Call.event, ran]
      exact {
        laidOut := describes.laidOut
        sound := (traced.proper.revise allowed).sound
        aligned := (traced.proper.revise allowed).aligned }

theorem Traced.rests_cons (traced : Traced config (event :: events) database)
    (inTurn : InTurn (event :: events))
    (rests : (Growth.ofEvents events).Rests block place around later) :
    (Growth.ofEvents (event :: events)).Rests block place around (event.call :: later) := by
  cases traced with
  | refused traced call cause => exact rests.refused call
  | done traced call known allowed describes =>
      apply rests.follow (traced.forms inTurn.1)
      rw [traced.openLists_eq]
      exact inTurn.2

theorem rests_append (plays : Plays config (later ++ calls))
    (inTurn : InTurn (play config (later ++ calls)).1)
    (rests : (Growth.ofEvents (play config calls).1).Rests block place around []) :
    (Growth.ofEvents (play config (later ++ calls)).1).Rests block place around later := by
  induction later with
  | nil => exact rests
  | cons call rest ih =>
      have restsCons := plays.traced.rests_cons inTurn (ih plays.of_cons.1 inTurn.1)
      rw [Call.event_call] at restsCons
      exact restsCons

/-- A list is begun, some calls are made, and it is dropped. -/
def droppedCalls (id : Nat) (tag : Tag) (inside earlier : List Call) : List Call :=
  .dropList id :: (inside ++ .beginList tag :: earlier)

/-- A list is begun and ended at once, and some calls are made. -/
def emptiedCalls (id : Nat) (tag : Tag) (inside earlier : List Call) : List Call :=
  inside ++ .endList id :: .beginList tag :: earlier

/-- A list is begun, some calls are made, and it is ended. -/
def filledCalls (id : Nat) (tag : Tag) (inside earlier : List Call) : List Call :=
  .endList id :: (inside ++ .beginList tag :: earlier)

/-- Ending a list instead of dropping it makes the nodes inside it its children. -/
theorem Growth.Forms.children_filled {growth : Growth} {inner : Forest}
    (traced : Traced config events database) (answered : id ∈ answers events)
    (forms : growth.Forms (Draft.ofEvents events)) (isFirst : (unclosed events).head? = some id)
    (innermost : growth.Innermost Header.size id tag inner) :
    ((Call.endList id).event database).after.image.children id =
        inner.tops (id + Image.listHeaderSize) ∧
      inner.plain.ReadAlong ((Call.endList id).event database).after
        (inner.tops (id + Image.listHeaderSize)) := by
  have inTurn : ∀ closing ∈ (Call.endList id).closed?,
      (Draft.ofEvents events).openLists.head? = some closing := by
    intro closing closes
    cases closes
    rw [traced.openLists_eq]
    exact isFirst
  have written := traced.written_end answered
  rw [(forms.follow inTurn).records] at written
  have standsList : (Forest.list tag inner .nil).StandsAt [] id
      (growth.close Forest.ended).records := by
    intro entry member
    have settled : entry ∈ (growth.close Forest.ended).settled Header.size :=
      Growth.settled_put innermost member
    exact Growth.mem_placed_of_settled settled
  exact ⟨Forest.children_list written standsList,
    Forest.readAlong_plain written standsList.list.2.1⟩

/-- Dropping a list comes to the same as ending it at once and doing behind it what was to be done
inside it. When in the end all lists are closed, each before the one around it, the dropped list has
no children, and those that it would have if it had been ended instead follow it. -/
theorem play_drop_beside (isList : tag.kind? = some .list)
    (room : (play config earlier).2.image.HasRoom Image.listHeaderSize)
    (noCommit : ∀ call ∈ inside, call ≠ .commit) (place : (play config earlier).2.image.size = id) :
    (play config (droppedCalls id tag inside earlier)).2 =
        (play config (emptiedCalls id tag inside earlier)).2 ∧
      ∀ later, Plays config (later ++ droppedCalls id tag inside earlier) →
        InTurn (play config (later ++ droppedCalls id tag inside earlier)).1 →
        unclosed (play config (later ++ droppedCalls id tag inside earlier)).1 = [] →
        (play config (later ++ droppedCalls id tag inside earlier)).2.LeavesBeside
          (play config (filledCalls id tag inside earlier)).2 id
            (unclosed (play config earlier).1) later := by
  refine ⟨play_drop_eq_play_end isList room noCommit place, ?_⟩
  intro later plays inTurn allClosed
  obtain ⟨playsDrop, inTurnDrop⟩ := plays.of_append inTurn
  obtain ⟨playsInside, answered⟩ := playsDrop.of_cons
  have traced := playsInside.traced
  have isFirst : (unclosed (play config (inside ++ .beginList tag :: earlier)).1).head? = some id :=
    inTurnDrop.2 id rfl
  have around := unclosed_of_isFirst isList room place playsInside inTurnDrop.1 isFirst
  have forms := traced.forms inTurnDrop.1
  obtain ⟨listTag, inner, innermost⟩ := forms.exists_innermost (by
    rw [traced.openLists_eq]
    exact isFirst)
  obtain ⟨children, reads⟩ :=
    Growth.Forms.children_filled traced (answered id rfl) forms isFirst innermost
  -- At first the nodes rest behind the dropped list, at the end of the list around it.
  have rests := Growth.rests_dropped innermost
  have lists := forms.openLists
  rw [traced.openLists_eq, around, Growth.openLists_close innermost Forest.dropped] at lists
  rw [← (List.cons.inj lists).2] at rests
  have formsEnd := plays.traced.forms inTurn
  have written := plays.traced.written
  have closedEnd := plays.traced.openLists_eq
  rw [formsEnd.records] at written
  rw [formsEnd.openLists, allClosed] at closedEnd
  exact (rests_append plays inTurn rests).leavesBeside written closedEnd children reads

/-- What is done inside a list that is dropped: another list is written in it, and a text. -/
def insideDropped : List Call := [
  .writeInterned .name "ab", .endList 24, .write ⟨0x1001⟩ .null, .beginList ⟨0x7002⟩]

/-- What is done then: the list around it is ended behind one more record. -/
def afterDropped : List Call := [.commit, .endList 12, .write ⟨0x1001⟩ .null]

theorem play_drop_beside_insideDropped :
    Tag.exe.kind? = some .list ∧
      (play {} [.beginList .database]).2.image.HasRoom Image.listHeaderSize ∧
      (∀ call ∈ insideDropped, call ≠ .commit) ∧
      (play {} [.beginList .database]).2.image.size = 18 ∧
      Plays {} (afterDropped ++ droppedCalls 18 .exe insideDropped [.beginList .database]) ∧
      (play {} (droppedCalls 18 .exe insideDropped [.beginList .database])).2 =
        (play {} (emptiedCalls 18 .exe insideDropped [.beginList .database])).2 ∧
      (play {}
        (afterDropped ++ droppedCalls 18 .exe insideDropped [.beginList .database])).2.LeavesBeside
          (play {} (filledCalls 18 .exe insideDropped [.beginList .database])).2 18 [12]
            afterDropped := by
  have isList : Tag.exe.kind? = some .list := by decide
  have room : (play {} [.beginList .database]).2.image.HasRoom Image.listHeaderSize := by
    decide +kernel
  have noCommit : ∀ call ∈ insideDropped, call ≠ .commit := by simp [insideDropped]
  have place : (play {} [.beginList .database]).2.image.size = 18 := by decide +kernel
  have playable : Playable {}
      (afterDropped ++ droppedCalls 18 .exe insideDropped [.beginList .database]) := by
    decide +kernel
  have inTurn : InTurn (play {}
      (afterDropped ++ droppedCalls 18 .exe insideDropped [.beginList .database])).1 := by
    decide +kernel
  have allClosed : unclosed (play {}
      (afterDropped ++ droppedCalls 18 .exe insideDropped [.beginList .database])).1 = [] := by
    decide +kernel
  have around : unclosed (play {} [.beginList .database]).1 = [12] := by decide +kernel
  obtain ⟨same, beside⟩ := play_drop_beside isList room noCommit place
  have leaves := beside afterDropped (run_play playable) inTurn allClosed
  rw [around] at leaves
  exact ⟨isList, room, noCommit, place, run_play playable, same, leaves⟩

example : (play {}
    (afterDropped ++ droppedCalls 18 .exe insideDropped [.beginList .database])).2.image.children 12 =
      [18, 24, 32, 38] := by
  decide +kernel

end Run

end TagTree
