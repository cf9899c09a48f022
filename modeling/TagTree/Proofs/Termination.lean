import TagTree.Database.Text
import TagTree.Proofs.Succession

/-!
# Walks end on every image

The lengths in an image can be anything, and still every walk ends. A step goes over the record
where it starts, which has at least the two bytes of its tag, and never leaves the image; so a walk
has at most one record for every two bytes and one more. The children of a list stand behind its own
bytes, so going down from list to list ends as well, and every search is a walk that may stop before
its end.
-/

namespace TagTree

/-- Go from one record to the next until one passes a test, in so many turns at most. There is no
answer where the turns run out. -/
def search (next : Nat → Option Nat) (test : Nat → Bool) :
    (turns : Nat) → (start : Option Nat) → Option (Option Nat)
  | _, none => some none
  | 0, some _ => none
  | turns + 1, some id =>
      if test id then some (some id) else search next test turns (next id)

/-- A search over a walk ends when it has a turn for each record, with the first that passes. -/
theorem Follows.search_eq {next : Nat → Option Nat} {start : Option Nat} {ids : List Nat}
    (follows : Follows next start ids) (test : Nat → Bool) {turns : Nat}
    (enough : ids.length ≤ turns) : search next test turns start = some (ids.find? test) := by
  induction follows generalizing turns with
  | done => rw [search, List.find?_nil]
  | @step id rest behind ih =>
      cases turns with
      | zero => cases enough
      | succ turns =>
          rw [search]
          by_cases passes : test id = true
          · rw [if_pos passes, List.find?_cons_of_pos passes]
          · rw [if_neg passes, List.find?_cons_of_neg passes]
            exact ih (Nat.le_of_succ_le_succ enough)

namespace Image

variable {image : Image} {parent id previous next child length : Nat}

/-! ## Steps -/

/-- A number that can be read stands inside the image. -/
theorem le_size_of_number {offset width value : Nat}
    (number : image.number offset width = .ok value) : offset + width ≤ image.size := by
  rw [Image.number, slice] at number
  split at number
  · assumption
  · cases number

/-- A step goes over a record of at least two bytes, stays in the image and, below the top, in what
the parent claims. -/
theorem bounds_of_nextChild (step : image.nextChild parent previous = some next) :
    next = previous + image.sizeOf previous ∧ tagSize ≤ image.sizeOf previous ∧
      next < image.size ∧ (parent ≠ root → next < parent + image.sizeOf parent) := by
  simp only [nextChild, Option.ite_none_right_eq_some, Option.some.injEq] at step
  obtain ⟨⟨readable, inside, encloses⟩, rfl⟩ := step
  refine ⟨rfl, (image.sizeOf_eq_zero_or previous).resolve_left readable, inside, ?_⟩
  intro notRoot
  exact (encloses.resolve_left notRoot).2.2

/-- A list says that it has some bytes, and not more than can be counted. -/
def ClaimsLength (image : Image) (parent length : Nat) : Prop :=
  image.kindAt? parent = some .list ∧ image.number (parent + tagSize) 4 = .ok length ∧
    0 < length ∧ length + listHeaderSize < sizeLimit

theorem ClaimsLength.sizeOf_eq (claims : image.ClaimsLength parent length) :
    image.sizeOf parent = length + listHeaderSize :=
  sizeOf_of_number claims.1 rfl claims.2.1 claims.2.2.2

/-- A list that is longer than its own bytes can only be so by the length that it says. -/
theorem exists_claimsLength (isList : image.kindAt? parent = some .list)
    (nonempty : listHeaderSize < image.sizeOf parent) :
    ∃ length, image.ClaimsLength parent length := by
  obtain ⟨length, number, small, size⟩ :=
    exists_length_of_sizeOf isList rfl (Nat.ne_zero_of_lt nonempty)
  rw [size] at nonempty
  exact ⟨length, isList, number, Nat.lt_add_left_iff_pos.mp nonempty, small⟩

theorem firstChild_of_ne_root (notRoot : parent ≠ root) {first : Nat} :
    image.firstChild parent = some first ↔
      first = parent + listHeaderSize ∧ ∃ length, image.ClaimsLength parent length := by
  rw [firstChild, if_neg notRoot, Option.ite_none_right_eq_some, Option.some.injEq]
  constructor
  · rintro ⟨⟨isList, nonempty⟩, rfl⟩
    exact ⟨rfl, exists_claimsLength isList nonempty⟩
  · rintro ⟨rfl, length, claims⟩
    have size := claims.sizeOf_eq
    have positive := claims.2.2.1
    exact ⟨⟨claims.1, by omega⟩, rfl⟩

/-! ## Walks -/

/-- The records inside a parent come one behind the other, each where the one before ends. -/
structure WalksForward (image : Image) (parent : Nat) : Prop where
  ascending : (image.children parent).Pairwise (· < ·)
  steps : (image.children parent).IsChain fun child following =>
    following = child + image.sizeOf child ∧ tagSize ≤ image.sizeOf child ∧
      following < image.size
  count : (image.children parent).length ≤ image.size / 2 + 1
  top : parent = root →
    image.size ≤ Header.size ∧ image.children parent = [] ∨
      Header.size < image.size ∧ (image.children parent).head? = some Header.size
  below : parent ≠ root →
    image.children parent = [] ∨
      (∃ length, image.ClaimsLength parent length) ∧
        (image.children parent).head? = some (parent + listHeaderSize) ∧
          ∀ child ∈ image.children parent,
            parent + listHeaderSize ≤ child ∧ child < parent + image.sizeOf parent

theorem isChain_children (image : Image) (parent : Nat) :
    (image.children parent).IsChain fun child following =>
      following = child + image.sizeOf child ∧ tagSize ≤ image.sizeOf child ∧
        following < image.size := by
  apply (follows_children image parent).isChain.imp
  intro child following step
  obtain ⟨place, readable, inside, -⟩ := bounds_of_nextChild step
  exact ⟨place, readable, inside⟩

/-- Every two bytes from a record on make room for one record behind it. -/
theorem length_siblingsFrom_le (image : Image) (parent id : Nat) :
    2 * (image.siblingsFrom parent id).length ≤ image.size - id + 2 := by
  fun_induction image.siblingsFrom parent id with
  | case1 id stop =>
      rw [List.length_singleton]
      omega
  | case2 id next step ih =>
      obtain ⟨place, readable, inside, -⟩ := bounds_of_nextChild step
      rw [tagSize] at readable
      rw [List.length_cons]
      omega

theorem length_siblingsFrom_le_half (image : Image) (parent id : Nat) :
    (image.siblingsFrom parent id).length ≤ image.size / 2 + 1 := by
  have bound := length_siblingsFrom_le image parent id
  omega

theorem length_children_le (image : Image) (parent : Nat) :
    (image.children parent).length ≤ image.size / 2 + 1 := by
  rw [children]
  cases image.firstChild parent with
  | none => exact Nat.zero_le _
  | some id => exact length_siblingsFrom_le_half image parent id

/-- The children of a list stand in the stretch that it claims behind its own bytes. -/
theorem bounds_of_mem_children (notRoot : parent ≠ root)
    (member : child ∈ image.children parent) :
    parent + listHeaderSize ≤ child ∧ child < parent + image.sizeOf parent := by
  apply (follows_children image parent).forall_mem
    (motive := fun child => parent + listHeaderSize ≤ child ∧ child < parent + image.sizeOf parent)
  · intro first isFirst
    obtain ⟨rfl, length, claims⟩ := (firstChild_of_ne_root notRoot).mp isFirst
    have size := claims.sizeOf_eq
    have positive := claims.2.2.1
    omega
  · intro here following inside step
    obtain ⟨place, readable, -, enclosed⟩ := bounds_of_nextChild step
    have within := enclosed notRoot
    omega
  · exact member

theorem walksForward (image : Image) (parent : Nat) : image.WalksForward parent where
  ascending := by
    have ascends := (isChain_children image parent).imp fun child following step => by
      have readable := step.2.1
      rw [tagSize] at readable
      exact (by omega : child < following)
    exact List.isChain_iff_pairwise.mp ascends
  steps := isChain_children image parent
  count := length_children_le image parent
  top := by
    rintro rfl
    by_cases nonempty : Header.size < image.size
    · right
      rw [children_root_of_lt nonempty, siblingsFrom_eq, List.head?_cons]
      exact ⟨nonempty, rfl⟩
    · have empty := Nat.not_lt.mp nonempty
      exact .inl ⟨empty, children_root_of_le empty⟩
  below := by
    intro notRoot
    have first := (follows_children image parent).head?_eq
    cases isFirst : image.firstChild parent with
    | none =>
        left
        rwa [isFirst, List.head?_eq_none_iff] at first
    | some id =>
        right
        obtain ⟨rfl, claims⟩ := (firstChild_of_ne_root notRoot).mp isFirst
        refine ⟨claims, first.trans isFirst, ?_⟩
        intro child member
        exact bounds_of_mem_children notRoot member

/-! ## Going down -/

/-- Every child stands behind the beginning of its parent, and none behind the end of the image. -/
theorem lt_of_mem_children (member : child ∈ image.children parent) :
    parent < child ∧ child ≤ image.size := by
  apply (follows_children image parent).forall_mem
    (motive := fun child => parent < child ∧ child ≤ image.size)
  · intro first isFirst
    by_cases isRoot : parent = root
    · subst isRoot
      rw [firstChild_root, Option.mem_def, Option.ite_none_right_eq_some, Option.some.injEq]
        at isFirst
      obtain ⟨nonempty, rfl⟩ := isFirst
      exact ⟨by decide, Nat.le_of_lt nonempty⟩
    · obtain ⟨rfl, length, claims⟩ := (firstChild_of_ne_root isRoot).mp isFirst
      have inside := le_size_of_number claims.2.1
      rw [tagSize] at inside
      rw [listHeaderSize]
      omega
  · intro here following bounds step
    obtain ⟨place, readable, inside, -⟩ := bounds_of_nextChild step
    omega
  · exact member

/-- The records inside a parent in document order, each list followed by those inside it. -/
def below (image : Image) (parent : Nat) : List Nat :=
  (image.children parent).attach.flatMap fun ⟨child, _member⟩ =>
    child :: if image.kindAt? child = some .list then below image child else []
termination_by image.size + 1 - parent
decreasing_by
  have := lt_of_mem_children _member
  omega

theorem below_eq (image : Image) (parent : Nat) :
    image.below parent = (image.children parent).flatMap fun child =>
      child :: if image.kindAt? child = some .list then image.below child else [] := by
  rw [below]
  simp

/-- Go down through so many levels of lists at most. There is no answer where the levels run out. -/
def descend (image : Image) : (levels parent : Nat) → Option (List Nat)
  | 0, _ => none
  | levels + 1, parent => do
      let parts ← (image.children parent).mapM fun child =>
        if image.kindAt? child = some .list then (descend image levels child).map (child :: ·)
        else some [child]
      return parts.flatten

theorem mapM_eq_some {α β : Type} {action : α → Option β} {result : α → β} {values : List α}
    (each : ∀ value ∈ values, action value = some (result value)) :
    values.mapM action = some (values.map result) := by
  induction values with
  | nil => rfl
  | cons value rest ih =>
      obtain ⟨first, others⟩ := List.forall_mem_cons.mp each
      rw [List.mapM_cons, first, ih others]
      rfl

/-- Going down from a parent ends when there is a level for each byte behind it. -/
theorem descend_eq (image : Image) {levels : Nat} (enough : image.size - parent < levels) :
    image.descend levels parent = some (image.below parent) := by
  induction levels generalizing parent with
  | zero => cases enough
  | succ levels ih =>
      have each : ∀ child ∈ image.children parent,
          (if image.kindAt? child = some .list then (image.descend levels child).map (child :: ·)
            else some [child]) =
          some (child :: if image.kindAt? child = some .list then image.below child else []) := by
        intro child member
        have behind := lt_of_mem_children member
        split
        · rw [ih (by omega)]
          rfl
        · rfl
      rw [descend, mapM_eq_some each, below_eq]
      simp [List.flatMap]

/-- Going down from a parent ends with enough levels, and more of them change nothing. -/
def DescentEnds (image : Image) (parent : Nat) : Prop :=
  ∃ ids, ∀ levels, image.size - parent < levels → image.descend levels parent = some ids

end Image

namespace Database

open Image

variable {database : Database} {parent : Nat}

/-- Every search inside a parent ends in one turn more than there are pairs of bytes, and finds the
first record that passes. Behind a record with the null tag nothing is searched for. -/
structure SearchesEnd (database : Database) (parent : Nat) : Prop where
  first : ∀ tag turns, database.image.size / 2 < turns →
    search (database.image.nextChild parent) (fun child => database.image.tagAt child = tag) turns
        (database.image.firstChild parent) =
      some (database.image.findFirst parent tag)
  following : ∀ previous turns, database.image.size / 2 < turns →
    (if database.image.tagAt previous = .null then some none
      else
        search (database.image.nextChild parent)
          (fun child => database.image.tagAt child = database.image.tagAt previous) turns
          (database.image.nextChild parent previous)) =
      some (database.image.findNext parent previous)
  named : ∀ tag nameTag name turns, database.image.size / 2 < turns →
    search (database.image.findNext parent)
        (fun child => database.childString? child nameTag = some name) turns
        (database.image.findFirst parent tag) =
      some (database.findNamed parent tag nameTag name)

theorem searchesEnd (database : Database) (parent : Nat) : database.SearchesEnd parent where
  first := by
    intro tag turns enough
    have count := length_children_le database.image parent
    rw [(follows_children database.image parent).search_eq _ (by omega), findFirst_eq_find?]
  following := by
    intro previous turns enough
    by_cases isNull : database.image.tagAt previous = .null
    · rw [if_pos isNull, findNext, if_pos isNull]
    · rw [if_neg isNull, findNext, if_neg isNull]
      cases step : database.image.nextChild parent previous with
      | none => rw [search, Option.bind_none]
      | some next =>
          have count := length_siblingsFrom_le_half database.image parent next
          rw [(follows_siblingsFrom database.image parent next).search_eq _ (by omega),
            Option.bind_some, findFrom_eq_find?]
  named := by
    intro tag nameTag name turns enough
    have count := length_children_le database.image parent
    have fewer : (database.image.childrenTagged parent tag).length ≤
        (database.image.children parent).length := by
      rw [childrenTagged_eq_filter]
      exact List.length_filter_le ..
    rw [(follows_childrenTagged database.image parent tag).search_eq _ (by omega), findNamed]

/-- In every database, whatever its bytes, walks go forward and end, going down from list to list
ends, and every search ends. -/
theorem walks_end (database : Database) (parent : Nat) :
    database.image.WalksForward parent ∧ database.image.DescentEnds parent ∧
      database.SearchesEnd parent := by
  refine ⟨walksForward database.image parent, ?_, searchesEnd database parent⟩
  refine ⟨database.image.below parent, ?_⟩
  intro levels enough
  exact descend_eq database.image enough

end Database

end TagTree
