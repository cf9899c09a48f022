import TagTree.Proofs.Termination

/-!
# Searches as filters

A search by tag goes from record to record, and the next search reads the tag to look for again from
the record that was found. Still nothing is passed over and nothing is found twice: the searches
inside a parent find just those of its children that have the tag, in order. A search by name gives
the first of them whose name it is.
-/

namespace TagTree

/-! ## The first that passes -/

/-- What a search over a list answers: the first member that passes, or nothing if none does. -/
inductive FirstOf (passes : Nat → Prop) (ids : List Nat) : Option Nat → Prop where
  | found {id : Nat} {before after : List Nat} (split : ids = before ++ id :: after)
      (isMatch : passes id) (noneBefore : ∀ other ∈ before, ¬passes other) :
      FirstOf passes ids (some id)
  | missing (noMatch : ∀ id ∈ ids, ¬passes id) : FirstOf passes ids none

theorem firstOf_nil (passes : Nat → Prop) : FirstOf passes [] none := by
  apply FirstOf.missing
  intro id member
  cases member

/-- There is just one such answer. -/
theorem firstOf_iff {passes : Nat → Prop} {test : Nat → Bool}
    (decides : ∀ id, test id = true ↔ passes id) {ids : List Nat} {answer : Option Nat} :
    FirstOf passes ids answer ↔ ids.find? test = answer := by
  constructor
  · intro first
    cases first with
    | found split isMatch noneBefore =>
        rw [List.find?_eq_some_iff_append]
        refine ⟨(decides _).mpr isMatch, _, _, split, ?_⟩
        intro other member
        have refused : test other ≠ true := by
          intro passing
          exact noneBefore other member ((decides other).mp passing)
        simpa using refused
    | missing noMatch =>
        rw [List.find?_eq_none]
        intro id member
        simpa [decides] using noMatch id member
  · rintro rfl
    cases answer : ids.find? test with
    | none =>
        apply FirstOf.missing
        intro id member passing
        exact List.find?_eq_none.mp answer id member ((decides id).mpr passing)
    | some id =>
        obtain ⟨isMatch, before, after, split, noneBefore⟩ :=
          List.find?_eq_some_iff_append.mp answer
        apply FirstOf.found split ((decides id).mp isMatch)
        intro other member passing
        have refused := noneBefore other member
        rw [(decides other).mpr passing] at refused
        cases refused

namespace Image

variable {image : Image} {parent child : Nat} {tag : Tag} {before after : List Nat}

/-- The first child with a tag, as a search answers it. -/
theorem firstOf_children_iff {answer : Option Nat} :
    FirstOf (fun child => image.tagAt child = tag) (image.children parent) answer ↔
      image.findFirst parent tag = answer := by
  rw [findFirst_eq_find?]
  exact firstOf_iff fun id => decide_eq_true_iff

/-- Behind any child the search for its tag goes over just the children that follow it. -/
theorem firstOf_findNext (walk : image.children parent = before ++ child :: after) :
    FirstOf (fun sibling => image.tagAt sibling = image.tagAt child) after
      (image.findNext parent child) := by
  have follows := follows_children image parent
  rw [walk] at follows
  have behind := follows.of_append
  by_cases isNull : image.tagAt child = .null
  · rw [findNext, if_pos isNull]
    -- Nothing follows a record with the null tag, so nothing is lost by not searching there.
    rw [nextChild_of_null isNull] at behind
    cases behind with
    | done => exact firstOf_nil _
  · rw [findNext, if_neg isNull]
    cases step : image.nextChild parent child with
    | none =>
        rw [step] at behind
        cases behind with
        | done => exact firstOf_nil _
    | some next =>
        rw [step] at behind
        have rest := behind.unique (follows_siblingsFrom image parent next)
        rw [Option.bind_some, findFrom_eq_find?, ← rest]
        exact (firstOf_iff fun id => decide_eq_true_iff).mpr rfl

end Image

namespace Database

open Image

variable {database : Database} {parent child : Nat} {tag nameTag : Tag} {name : String}

/-- A record has a name under a tag: it is the text of the first child with that tag. -/
def IsNamed (database : Database) (record : Nat) (nameTag : Tag) (name : String) : Prop :=
  ∃ holder, FirstOf (fun child => database.image.tagAt child = nameTag)
      (database.image.children record) (some holder) ∧
    database.string? holder = some name

theorem childString?_eq_some_iff :
    database.childString? child nameTag = some name ↔ database.IsNamed child nameTag name := by
  rw [childString?, Option.bind_eq_some_iff]
  constructor
  · rintro ⟨holder, isFirst, text⟩
    exact ⟨holder, firstOf_children_iff.mpr isFirst, text⟩
  · rintro ⟨holder, isFirst, text⟩
    exact ⟨holder, firstOf_children_iff.mp isFirst, text⟩

/-- A search by name goes over all children and asks each for its tag and its name. -/
theorem firstOf_findNamed :
    FirstOf (fun child => database.image.tagAt child = tag ∧ database.IsNamed child nameTag name)
      (database.image.children parent) (database.findNamed parent tag nameTag name) := by
  rw [findNamed, childrenTagged_eq_filter, List.find?_filter]
  refine (firstOf_iff ?_).mpr rfl
  intro child
  rw [decide_eq_true_iff, decide_eq_true_iff, decide_eq_true_iff, childString?_eq_some_iff]

/-- The searches inside a parent stand for filters of its children. Beginning with the first child
with a tag and going on from each to the next until there is none names the children with the tag,
each once and in order; from whichever child it starts, the search for the next goes over just those
behind it. -/
structure SearchesFilter (database : Database) (parent : Nat) : Prop where
  ascending : (database.image.children parent).Pairwise (· < ·)
  first : ∀ tag, FirstOf (fun child => database.image.tagAt child = tag)
    (database.image.children parent) (database.image.findFirst parent tag)
  following : ∀ before child after,
    database.image.children parent = before ++ child :: after →
      FirstOf (fun sibling => database.image.tagAt sibling = database.image.tagAt child) after
        (database.image.findNext parent child)
  enumerates : ∀ tag ids,
    Follows (database.image.findNext parent) (database.image.findFirst parent tag) ids ↔
      ids = (database.image.children parent).filter fun child => database.image.tagAt child = tag
  named : ∀ tag nameTag name,
    FirstOf (fun child => database.image.tagAt child = tag ∧ database.IsNamed child nameTag name)
      (database.image.children parent) (database.findNamed parent tag nameTag name)

/-- Whatever the bytes of a database, its searches are the filters that they stand for. -/
theorem searches_filter (database : Database) (parent : Nat) : database.SearchesFilter parent where
  ascending := (walksForward database.image parent).ascending
  first _ := firstOf_children_iff.mpr rfl
  following _ _ _ := firstOf_findNext
  enumerates := by
    intro tag ids
    have walk := follows_childrenTagged database.image parent tag
    rw [childrenTagged_eq_filter] at walk
    constructor
    · intro follows
      exact follows.unique walk
    · rintro rfl
      exact walk
  named _ _ _ := firstOf_findNamed

end Database

end TagTree
