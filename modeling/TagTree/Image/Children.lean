import TagTree.Image.Record

/-!
# Walking over records

The children of the root are the records after the header, one behind the other. The children of a
list are the records in the stretch that the list claims. A walk ends at the end of the image, at
the end of the list, and at a record whose size cannot be read, so it ends on every image;
`lt_of_nextChild` is the reason.
-/

namespace TagTree.Image

/-- The first record inside a parent. Only the root and lists that claim some bytes have one. -/
def firstChild (image : Image) (parent : Nat) : Option Nat :=
  if parent = root then
    if Header.size < image.size then some Header.size else none
  else if image.kindAt? parent = some .list ∧ listHeaderSize < image.sizeOf parent then
    some (parent + listHeaderSize)
  else none

/-- Whether a record may begin at an offset inside a parent. The stretch of a list has to end at a
32-bit offset. -/
def Encloses (image : Image) (parent : Nat) (offset : Nat) : Prop :=
  parent = root ∨
    image.sizeOf parent ≠ 0 ∧ parent + image.sizeOf parent < sizeLimit ∧
      offset < parent + image.sizeOf parent

instance (image : Image) (parent : Nat) (offset : Nat) :
    Decidable (image.Encloses parent offset) :=
  inferInstanceAs (Decidable (_ ∨ _))

/-- The record behind another one inside the same parent. -/
def nextChild (image : Image) (parent previous : Nat) : Option Nat :=
  let next := previous + image.sizeOf previous
  if image.sizeOf previous ≠ 0 ∧ next < image.size ∧ image.Encloses parent next then some next
  else none

/-- What `nextChild` finds lies behind the record it started from and inside the image. -/
theorem lt_of_nextChild {image : Image} {parent previous next : Nat}
    (found : image.nextChild parent previous = some next) :
    previous < next ∧ next < image.size := by
  simp only [nextChild, Option.ite_none_right_eq_some, Option.some.injEq] at found
  omega

/-- A record and those behind it inside the same parent. -/
def siblingsFrom (image : Image) (parent id : Nat) : List Nat :=
  match _step : image.nextChild parent id with
  | none => [id]
  | some next => id :: siblingsFrom image parent next
termination_by image.size - id
decreasing_by
  have := lt_of_nextChild _step
  omega

/-- A walk is a record and the walk from the next one on. -/
theorem siblingsFrom_eq (image : Image) (parent id : Nat) :
    image.siblingsFrom parent id =
      id :: ((image.nextChild parent id).map (image.siblingsFrom parent)).getD [] := by
  rw [siblingsFrom]
  split
  · next step => rw [step, Option.map_none, Option.getD_none]
  · next next step => rw [step, Option.map_some, Option.getD_some]

theorem siblingsFrom_of_none {image : Image} {parent id : Nat}
    (step : image.nextChild parent id = none) : image.siblingsFrom parent id = [id] := by
  rw [siblingsFrom_eq, step, Option.map_none, Option.getD_none]

theorem siblingsFrom_of_some {image : Image} {parent id next : Nat}
    (step : image.nextChild parent id = some next) :
    image.siblingsFrom parent id = id :: image.siblingsFrom parent next := by
  rw [siblingsFrom_eq, step, Option.map_some, Option.getD_some]

/-- The records inside a parent, in order. -/
def children (image : Image) (parent : Nat) : List Nat :=
  match image.firstChild parent with
  | none => []
  | some id => image.siblingsFrom parent id

/-- The first record with a tag, from a given one on. -/
def findFrom (image : Image) (parent : Nat) (tag : Tag) (id : Nat) : Option Nat :=
  if image.tagAt id = tag then some id
  else
    match _step : image.nextChild parent id with
    | none => none
    | some next => findFrom image parent tag next
termination_by image.size - id
decreasing_by
  have := lt_of_nextChild _step
  omega

/-- The first child with a tag. -/
def findFirst (image : Image) (parent : Nat) (tag : Tag) : Option Nat :=
  (image.firstChild parent).bind (image.findFrom parent tag)

/-- The next child with the same tag as a given one. -/
def findNext (image : Image) (parent previous : Nat) : Option Nat :=
  if image.tagAt previous = .null then none
  else (image.nextChild parent previous).bind (image.findFrom parent (image.tagAt previous))

/-- A search finds the record it starts from or one behind it inside the image. -/
theorem le_of_findFrom {image : Image} {parent id result : Nat} {tag : Tag}
    (found : image.findFrom parent tag id = some result) :
    id ≤ result ∧ (result = id ∨ result < image.size) := by
  fun_induction image.findFrom parent tag id with
  | case1 id _ => simp only [Option.some.injEq] at found; omega
  | case2 => contradiction
  | case3 id _ next step ih =>
      have := lt_of_nextChild step
      have := ih found
      omega

theorem lt_of_findNext {image : Image} {parent previous next : Nat}
    (found : image.findNext parent previous = some next) :
    previous < next ∧ next < image.size := by
  simp only [findNext, Option.ite_none_left_eq_some, Option.bind_eq_some_iff] at found
  obtain ⟨_, id, step, found⟩ := found
  have := lt_of_nextChild step
  have := le_of_findFrom found
  omega

/-- A record and those behind it that are found one after the other by their tag. -/
def matchesFrom (image : Image) (parent id : Nat) : List Nat :=
  match _step : image.findNext parent id with
  | none => [id]
  | some next => id :: matchesFrom image parent next
termination_by image.size - id
decreasing_by
  have := lt_of_findNext _step
  omega

/-- The children with a tag, found one after the other. -/
def childrenTagged (image : Image) (parent : Nat) (tag : Tag) : List Nat :=
  match image.findFirst parent tag with
  | none => []
  | some id => image.matchesFrom parent id

/-- A search from a record on finds the first of it and its siblings that has the tag. -/
theorem findFrom_eq_find? (image : Image) (parent : Nat) (tag : Tag) (id : Nat) :
    image.findFrom parent tag id =
      (image.siblingsFrom parent id).find? fun sibling => image.tagAt sibling = tag := by
  fun_induction image.findFrom parent tag id with
  | case1 id same => rw [siblingsFrom_eq, List.find?_cons_of_pos (by simpa using same)]
  | case2 id other stop =>
      rw [siblingsFrom_of_none stop, List.find?_cons_of_neg (by simpa using other), List.find?_nil]
  | case3 id other next step ih =>
      rw [siblingsFrom_of_some step, List.find?_cons_of_neg (by simpa using other), ih]

/-- The first child with a tag is the first of all children that has it. -/
theorem findFirst_eq_find? (image : Image) (parent : Nat) (tag : Tag) :
    image.findFirst parent tag =
      (image.children parent).find? fun child => image.tagAt child = tag := by
  simp only [findFirst, children]
  cases image.firstChild parent with
  | none => rfl
  | some id => exact findFrom_eq_find? image parent tag id

end TagTree.Image
