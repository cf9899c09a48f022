import TagTree.Proofs.OpenLists
import TagTree.Proofs.Reloading
import TagTree.Proofs.RoundTrip

/-!
# Forests while they are written

When each list is closed before the one around it, the records form a forest at any time, apart from
the lists that are still open: these stand one inside the other, each behind everything else that is
written at its level. A call puts something behind the innermost level or begins or closes a level.
Ending a list leaves what was written inside it as its children. Dropping a list leaves an empty
list with the same nodes behind it.
-/

namespace TagTree

open Layout

namespace Forest

/-- A list with some children. -/
def ended (tag : Tag) (inner : Forest) : Forest :=
  .list tag inner .nil

/-- An empty list with some nodes behind it. -/
def dropped (tag : Tag) (inner : Forest) : Forest :=
  .list tag .nil inner

theorem append_nil (forest : Forest) : forest.append .nil = forest := by
  induction forest with
  | nil => rfl
  | leaf tag content rest ih => rw [append, ih]
  | interned tag text rest ih => rw [append, ih]
  | list tag children rest _ ih => rw [append, ih]

theorem append_assoc (first second third : Forest) :
    (first.append second).append third = first.append (second.append third) := by
  induction first with
  | nil => rfl
  | leaf tag content rest ih => rw [append, append, ih, append]
  | interned tag text rest ih => rw [append, append, ih, append]
  | list tag children rest _ ih => rw [append, append, ih, append]

end Forest

/-- A forest that is being written: the nodes at its top, with an open list behind them perhaps, and
what is inside that list so far. -/
inductive Growth where
  | level (nodes : Forest)
  | opened (nodes : Forest) (tag : Tag) (inside : Growth)

namespace Growth

/-- The nodes at the top, apart from the open list. -/
def nodes : Growth → Forest
  | level nodes | opened nodes _ _ => nodes

/-- The records. An open list claims nothing. -/
def records : Growth → List Record
  | level nodes => nodes.records []
  | opened nodes tag inside => nodes.records [] ++ .list tag 0 :: inside.records

/-- The places of the open lists, the innermost first, where the first record has a given place. -/
def openLists : (start : Nat) → Growth → List Nat
  | _, level _ => []
  | start, opened nodes _ inside =>
      openLists (start + nodes.size + Image.listHeaderSize) inside ++ [start + nodes.size]

/-- The records that stand at some level and not behind it in an open list, with their places. -/
def settled : (start : Nat) → Growth → List (Nat × Record)
  | start, level nodes => placed start (nodes.records [])
  | start, opened nodes _ inside =>
      placed start (nodes.records []) ++
        settled (start + nodes.size + Image.listHeaderSize) inside

/-- Further nodes at the innermost level. -/
def add (more : Forest) : Growth → Growth
  | level nodes => level (nodes.append more)
  | opened nodes tag inside => opened nodes tag (inside.add more)

/-- A further level. -/
def begin (tag : Tag) : Growth → Growth
  | level nodes => opened nodes tag (level .nil)
  | opened nodes outer inside => opened nodes outer (inside.begin tag)

/-- The innermost open list and what is inside it are put behind the nodes before. -/
def close (put : Tag → Forest → Forest) : Growth → Growth
  | level nodes => level nodes
  | opened nodes tag (level inner) => level (nodes.append (put tag inner))
  | opened nodes tag (opened nodes' tag' inside) =>
      opened nodes tag ((opened nodes' tag' inside).close put)

/-- The innermost open list is at a place, has a tag, and has some nodes inside. -/
inductive Innermost : (start : Nat) → Growth → (id : Nat) → Tag → Forest → Prop where
  | here {start : Nat} {nodes inner : Forest} {tag : Tag} :
      Innermost start (opened nodes tag (level inner)) (start + nodes.size) tag inner
  | inside {start id : Nat} {nodes inner : Forest} {outer tag : Tag} {within : Growth}
      (innermost : Innermost (start + nodes.size + Image.listHeaderSize) within id tag inner) :
      Innermost start (opened nodes outer within) id tag inner

variable {growth within : Growth} {start id : Nat} {more nodes inner : Forest} {tag outer : Tag}
  {put : Tag → Forest → Forest} {entry : Nat × Record}

/-! ## What a growth holds -/

theorem close_opened (innermost : Innermost start within id tag inner) :
    (opened nodes outer within).close put = opened nodes outer (within.close put) := by
  cases innermost <;> rfl

theorem exists_innermost {others : List Nat} (isOpen : growth.openLists start = id :: others) :
    ∃ tag inner, Innermost start growth id tag inner := by
  induction growth generalizing start others with
  | level nodes => cases isOpen
  | opened nodes tag inside ih =>
      cases inside with
      | level inner =>
          cases isOpen
          exact ⟨tag, inner, .here⟩
      | opened nodes' tag' inside' =>
          rw [openLists] at isOpen
          cases first : openLists (start + nodes.size + Image.listHeaderSize)
              (opened nodes' tag' inside') with
          | nil => simp [openLists] at first
          | cons id' others' =>
              rw [first] at isOpen
              cases isOpen
              obtain ⟨tag, inner, innermost⟩ := ih first
              exact ⟨tag, inner, .inside innermost⟩

theorem Innermost.start_le (innermost : Innermost start growth id tag inner) : start ≤ id := by
  induction innermost with
  | here => omega
  | inside _ ih => omega

theorem openLists_close (innermost : Innermost start growth id tag inner)
    (put : Tag → Forest → Forest) :
    growth.openLists start = id :: (growth.close put).openLists start := by
  induction innermost with
  | here => rfl
  | inside innermost ih => rw [close_opened innermost, openLists, openLists, ih, List.cons_append]

/-! ## Records -/

theorem records_add (growth : Growth) (more : Forest) :
    (growth.add more).records = growth.records ++ more.records [] := by
  induction growth with
  | level nodes => exact Forest.records_append [] nodes more
  | opened nodes tag inside ih =>
      rw [add, records, ih, records, List.append_assoc]
      rfl

theorem openLists_add (growth : Growth) (more : Forest) (start : Nat) :
    (growth.add more).openLists start = growth.openLists start := by
  induction growth generalizing start with
  | level nodes => rfl
  | opened nodes tag inside ih => rw [add, openLists, ih, openLists]

theorem records_begin (growth : Growth) (tag : Tag) :
    (growth.begin tag).records = growth.records ++ [.list tag 0] := by
  induction growth with
  | level nodes => rfl
  | opened nodes outer inside ih =>
      rw [begin, records, ih, records, List.append_assoc]
      rfl

theorem openLists_begin (growth : Growth) (tag : Tag) (start : Nat) :
    (growth.begin tag).openLists start =
      (start + Layout.size growth.records) :: growth.openLists start := by
  induction growth generalizing start with
  | level nodes =>
      rw [begin, openLists, openLists, records, Forest.size_records, openLists]
      rfl
  | opened nodes outer inside ih =>
      rw [begin, openLists, ih, openLists, records, size_append, size_cons, Record.size_list,
        Forest.size_records]
      simp [Nat.add_assoc]

/-- Ending the innermost list makes it claim everything behind its own bytes. -/
theorem records_ended (innermost : Innermost start growth id tag inner) :
    (growth.close Forest.ended).records =
      relength id (start + Layout.size growth.records - id - Image.listHeaderSize) start
        growth.records := by
  induction innermost with
  | @here start nodes inner tag =>
      have claimed : start + Layout.size (opened nodes tag (level inner)).records -
          (start + nodes.size) - Image.listHeaderSize = inner.size := by
        rw [records, records, size_append, size_cons, Record.size_list, Forest.size_records,
          Forest.size_records]
        omega
      rw [claimed, records, ← Forest.size_records [] nodes, relength_split, close, records,
        Forest.records_append]
      simp [Forest.ended, Forest.records, records]
  | @inside start id nodes inner outer tag within innermost ih =>
      have behind := innermost.start_le
      have sameEnd : start + Layout.size (opened nodes outer within).records =
          start + nodes.size + Image.listHeaderSize + Layout.size within.records := by
        rw [records, size_append, size_cons, Record.size_list, Forest.size_records]
        omega
      have outerStays : start + Layout.size (nodes.records []) ≤ id := by
        rw [Forest.size_records]
        omega
      have notOuter : start + nodes.size ≠ id := by
        rw [Image.listHeaderSize] at behind
        omega
      rw [close_opened innermost, sameEnd, records, ih, records, relength_append outerStays,
        Forest.size_records, relength, if_neg notOuter, Record.size_list]

/-- Dropping the innermost list changes no record. -/
theorem records_dropped (innermost : Innermost start growth id tag inner) :
    (growth.close Forest.dropped).records = growth.records := by
  induction innermost with
  | here =>
      rw [close, records, Forest.records_append]
      rfl
  | inside innermost ih => rw [close_opened innermost, records, ih, records]

/-! ## What is settled -/

/-- What is settled are records. -/
theorem mem_placed_of_settled (member : entry ∈ growth.settled start) :
    entry ∈ placed start growth.records := by
  induction growth generalizing start with
  | level nodes => exact member
  | opened nodes tag inside ih =>
      rw [records, placed_append, placed, Forest.size_records, Record.size_list]
      rcases List.mem_append.mp member with before | behind
      · exact List.mem_append_left _ before
      · exact List.mem_append_right _ (List.mem_cons_of_mem _ (ih behind))

theorem settled_add (member : entry ∈ growth.settled start) :
    entry ∈ (growth.add more).settled start := by
  induction growth generalizing start with
  | level nodes =>
      rw [add, settled, Forest.records_append]
      exact mem_placed_append_left _ member
  | opened nodes tag inside ih =>
      rcases List.mem_append.mp member with before | behind
      · exact List.mem_append_left _ before
      · exact List.mem_append_right _ (ih behind)

theorem settled_begin (member : entry ∈ growth.settled start) :
    entry ∈ (growth.begin tag).settled start := by
  induction growth generalizing start with
  | level nodes => exact List.mem_append_left _ member
  | opened nodes outer inside ih =>
      rcases List.mem_append.mp member with before | behind
      · exact List.mem_append_left _ before
      · exact List.mem_append_right _ (ih behind)

/-- Closing a list keeps the records that are inside it. -/
def KeepsInside (put : Tag → Forest → Forest) : Prop :=
  ∀ tag inner, ∃ length, (put tag inner).records [] = .list tag length :: inner.records []

theorem keepsInside_ended : KeepsInside Forest.ended := fun _ inner =>
  ⟨inner.size, congrArg (_ :: ·) (List.append_nil _)⟩

theorem keepsInside_dropped : KeepsInside Forest.dropped := fun _ _ => ⟨0, rfl⟩

/-- What is put for the innermost list is settled then. -/
theorem settled_put (innermost : Innermost start growth id tag inner)
    (member : entry ∈ placed id ((put tag inner).records [])) :
    entry ∈ (growth.close put).settled start := by
  induction innermost with
  | here =>
      rw [close, settled, Forest.records_append, placed_append, Forest.size_records]
      exact List.mem_append_right _ member
  | inside innermost ih =>
      rw [close_opened innermost]
      exact List.mem_append_right _ (ih member)

theorem settled_close (keeps : KeepsInside put) (member : entry ∈ growth.settled start) :
    entry ∈ (growth.close put).settled start := by
  induction growth generalizing start with
  | level nodes => exact member
  | opened nodes tag inside ih =>
      cases inside with
      | level inner =>
          obtain ⟨length, recordsPut⟩ := keeps tag inner
          rw [close, settled, Forest.records_append, placed_append, Forest.size_records, recordsPut,
            placed, Record.size_list]
          rcases List.mem_append.mp member with before | behind
          · exact List.mem_append_left _ before
          · exact List.mem_append_right _ (List.mem_cons_of_mem _ behind)
      | opened nodes' tag' inside' =>
          rcases List.mem_append.mp member with before | behind
          · exact List.mem_append_left _ before
          · exact List.mem_append_right _ (ih behind)

/-! ## A stretch of nodes -/

/-- Some nodes stand at a place at the end of certain open lists, the innermost first, or at the top
if there are none. The other lists are those around the growth itself. -/
inductive Has (block : Forest) (place : Nat) :
    (start : Nat) → (around : List Nat) → Growth → (lists : List Nat) → Prop where
  | here {start : Nat} {around : List Nat} {growth : Growth} {front back : Forest}
      (split : growth.nodes = front.append (block.append back))
      (stands : start + front.size = place) : Has block place start around growth around
  | inside {start : Nat} {around lists : List Nat} {nodes : Forest} {tag : Tag} {within : Growth}
      (has : Has block place (start + nodes.size + Image.listHeaderSize)
        ((start + nodes.size) :: around) within lists) :
      Has block place start around (opened nodes tag within) lists

variable {block : Forest} {place : Nat} {around lists : List Nat}

/-- More nodes behind change nothing. -/
theorem Has.extend {revised : Growth} {front back : Forest}
    (split : growth.nodes = front.append (block.append back)) (stands : start + front.size = place)
    (extended : revised.nodes = growth.nodes.append more) :
    Has block place start around revised around := by
  have splitBehind : revised.nodes = front.append (block.append (back.append more)) := by
    rw [extended, split, Forest.append_assoc, Forest.append_assoc]
  exact .here splitBehind stands

theorem Has.add (has : Has block place start around growth lists) (more : Forest) :
    Has block place start around (growth.add more) lists := by
  induction has with
  | @here start around growth front back split stands =>
      cases growth with
      | level nodes => exact .extend split stands rfl
      | opened nodes tag inside => exact .here split stands
  | inside _ ih => exact .inside ih

theorem Has.begin (has : Has block place start around growth lists) (tag : Tag) :
    Has block place start around (growth.begin tag) lists := by
  induction has with
  | @here start around growth front back split stands =>
      cases growth with
      | level nodes => exact .here split stands
      | opened nodes outer inside => exact .here split stands
  | inside _ ih => exact .inside ih

/-- Where the innermost list is closed, the nodes stay where they are unless they stand inside this
list, at its end. -/
theorem Has.close (has : Has block place start around growth lists)
    (innermost : Innermost start growth id tag inner) (put : Tag → Forest → Forest) :
    Has block place start around (growth.close put) lists ∨
      lists = growth.openLists start ++ around ∧ ∃ front back : Forest,
        inner = front.append (block.append back) ∧
          id + Image.listHeaderSize + front.size = place := by
  induction innermost generalizing around with
  | here =>
      cases has with
      | here split stands => exact .inl (.extend split stands rfl)
      | inside has =>
          cases has with
          | here split stands => exact .inr ⟨rfl, _, _, split, stands⟩
  | inside innermost ih =>
      rw [close_opened innermost]
      cases has with
      | here split stands => exact .inl (.here split stands)
      | inside has =>
          refine (ih has).imp .inside ?_
          rintro ⟨rfl, found⟩
          refine ⟨?_, found⟩
          rw [openLists, List.append_assoc]
          rfl

/-- What is put for the innermost list stands at the end of the list around it. -/
theorem Innermost.has_close {front back : Forest} (innermost : Innermost start growth id tag inner)
    (split : put tag inner = front.append (block.append back))
    (stands : id + front.size = place) :
    Has block place start around (growth.close put)
      ((growth.close put).openLists start ++ around) := by
  induction innermost generalizing around with
  | @here start nodes inner tag =>
      have splitAll : (level (nodes.append (put tag inner))).nodes =
          (nodes.append front).append (block.append back) := by
        rw [Growth.nodes, split, Forest.append_assoc]
      apply Has.here splitAll
      rw [Forest.size_append, ← Nat.add_assoc]
      exact stands
  | inside innermost ih =>
      rw [close_opened innermost, openLists, List.append_assoc]
      exact .inside (ih split stands)

end Growth

/-! ## Calls -/

/-- The nodes that a call adds where certain texts wait for a table. A reference is a mere number. -/
def Call.nodes (texts : List String) : Call → Forest
  | write tag content => .leaf tag content .nil
  | writeFile tag directory path =>
      match directory.read path with
      | .ok bytes => .leaf tag (.binary bytes) .nil
      | .error _ => .nil
  | writeInterned tag text => .leaf tag (.scalar .stringRef (.ofNat _ (placeOf texts text))) .nil
  | commit => Forest.tableOf texts
  | beginList _ | endList _ | dropList _ => .nil

theorem Call.records_nodes {call : Call} (texts : List String) (noList : call.listTag? = none) :
    (call.nodes texts).records [] = call.added texts := by
  cases call with
  | writeFile tag directory path =>
      rw [nodes, added]
      cases directory.read path <;> rfl
  | beginList tag => cases noList
  | commit =>
      rw [nodes, added]
      split
      · next noTexts => rw [Forest.tableOf, if_pos noTexts, Forest.records]
      · next someTexts => exact Forest.records_tableOf [] someTexts
  | _ => rfl

namespace Growth

/-- What becomes of a growth by a call. -/
def follow (growth : Growth) (texts : List String) : Call → Growth
  | .beginList tag => growth.begin tag
  | .endList _ => growth.close Forest.ended
  | .dropList _ => growth.close Forest.dropped
  | call => growth.add (call.nodes texts)

/-- A growth has the records and the open lists of a draft. -/
structure Forms (growth : Growth) (draft : Draft) : Prop where
  records : draft.records = growth.records
  openLists : draft.openLists = growth.openLists Header.size

variable {growth : Growth} {draft revised : Draft} {call : Call} {id : Nat}

theorem Forms.add (forms : growth.Forms draft) (noList : call.listTag? = none)
    (records : revised.records = draft.records ++ call.added draft.texts)
    (openLists : revised.openLists = draft.openLists) :
    (growth.add (call.nodes draft.texts)).Forms revised where
  records := by rw [records, forms.records, records_add, Call.records_nodes _ noList]
  openLists := by rw [openLists, forms.openLists, openLists_add]

theorem Forms.exists_innermost (forms : growth.Forms draft)
    (isFirst : draft.openLists.head? = some id) :
    ∃ tag inner, growth.Innermost Header.size id tag inner := by
  obtain ⟨others, isOpen⟩ := List.head?_eq_some_iff.mp isFirst
  exact Growth.exists_innermost (forms.openLists.symm.trans isOpen)

/-- The innermost list is closed in a growth where it is closed in a draft. -/
theorem Forms.close {put : Tag → Forest → Forest} (forms : growth.Forms draft)
    (isFirst : draft.openLists.head? = some id)
    (records : ∀ tag inner, growth.Innermost Header.size id tag inner →
      revised.records = (growth.close put).records)
    (openLists : revised.openLists = draft.openLists.erase id) :
    (growth.close put).Forms revised := by
  obtain ⟨tag, inner, innermost⟩ := forms.exists_innermost isFirst
  refine ⟨records tag inner innermost, ?_⟩
  rw [openLists, forms.openLists, openLists_close innermost put, List.erase_cons_head]

/-- A growth follows a draft if lists are only closed in turn. -/
theorem Forms.follow (forms : growth.Forms draft)
    (inTurn : ∀ id ∈ call.closed?, draft.openLists.head? = some id) :
    (growth.follow draft.texts call).Forms (draft.revise call) := by
  cases call with
  | beginList tag =>
      constructor
      · rw [Growth.follow, records_begin, ← forms.records]
        rfl
      · rw [Growth.follow, openLists_begin, ← forms.records, ← forms.openLists]
        rfl
  | endList id =>
      apply forms.close (inTurn id rfl) _ rfl
      intro tag inner innermost
      rw [records_ended innermost, ← forms.records]
      rfl
  | dropList id =>
      apply forms.close (inTurn id rfl) _ rfl
      intro tag inner innermost
      rw [records_dropped innermost, ← forms.records]
      rfl
  | commit =>
      rcases draft.records_revise .commit with appended | ⟨_, isEnd, _⟩
      · exact forms.add rfl appended (Draft.openLists_revise_commit draft)
      · cases isEnd
  | write tag content => exact forms.add rfl rfl rfl
  | writeFile tag directory path => exact forms.add rfl rfl rfl
  | writeInterned tag text => exact forms.add rfl rfl rfl

/-- The growth of the calls made so far. -/
def ofEvents : List Event → Growth
  | [] => level .nil
  | event :: earlier =>
      match event.outcome with
      | .ok _ => (ofEvents earlier).follow (Draft.ofEvents earlier).texts event.call
      | .error _ => ofEvents earlier

end Growth

/-- Lists are only closed each before the one around it. -/
def InTurn : List Event → Prop
  | [] => True
  | event :: earlier =>
      InTurn earlier ∧ ∀ id ∈ event.call.closed?, (unclosed earlier).head? = some id

instance decidableInTurn : (events : List Event) → Decidable (InTurn events)
  | [] => inferInstanceAs (Decidable True)
  | _ :: earlier =>
      have := decidableInTurn earlier
      inferInstanceAs (Decidable (_ ∧ _))

/-- The growth of a run in which lists are closed in turn has the records of the run. -/
theorem Traced.forms {config : Config} {events : List Event} {database : Database}
    (traced : Traced config events database) (inTurn : InTurn events) :
    (Growth.ofEvents events).Forms (Draft.ofEvents events) := by
  induction traced with
  | start => exact ⟨rfl, rfl⟩
  | refused _ _ _ ih => exact ih inTurn.1
  | done traced call _ _ _ ih =>
      apply (ih inTurn.1).follow
      rw [traced.openLists_eq]
      exact inTurn.2

end TagTree
