import TagTree.Proofs.Layout

/-!
# Walks over laid out images

Every step of a walk goes from the place of a record to where that record ends, which is the place
of another one or the end of the image. So a walk that begins at a record stays on records, and one
at the top goes on until the image ends.
-/

namespace TagTree.Image

/-- The next record, if there is one, begins where the one before ends. -/
theorem eq_of_nextChild {image : Image} {parent previous next : Nat}
    (step : image.nextChild parent previous = some next) :
    next = previous + image.sizeOf previous ∧ next < image.size := by
  simp only [nextChild, Option.ite_none_right_eq_some, Option.some.injEq] at step
  omega

theorem nextChild_eq_some {image : Image} {parent previous : Nat}
    (readable : image.sizeOf previous ≠ 0)
    (inside : previous + image.sizeOf previous < image.size)
    (encloses : image.Encloses parent (previous + image.sizeOf previous)) :
    image.nextChild parent previous = some (previous + image.sizeOf previous) :=
  if_pos ⟨readable, inside, encloses⟩

theorem nextChild_eq_none {image : Image} {parent previous : Nat}
    (outside : ¬(previous + image.sizeOf previous < image.size ∧
      image.Encloses parent (previous + image.sizeOf previous))) :
    image.nextChild parent previous = none := by
  apply if_neg
  intro both
  exact outside both.2

theorem encloses_root (image : Image) (offset : Nat) : image.Encloses root offset :=
  .inl rfl

theorem firstChild_root (image : Image) :
    image.firstChild root = if Header.size < image.size then some Header.size else none :=
  if_pos rfl

theorem children_root_of_lt {image : Image} (nonempty : Header.size < image.size) :
    image.children root = image.siblingsFrom root Header.size := by
  rw [children, firstChild_root, if_pos nonempty]

theorem children_root_of_le {image : Image} (empty : image.size ≤ Header.size) :
    image.children root = [] := by
  rw [children, firstChild_root, if_neg (Nat.not_lt.mpr empty)]

/-- Only lists have children. -/
theorem children_of_kind_ne {image : Image} {id : Nat} {kind : Kind}
    (kindAt : image.kindAt? id = some kind) (noList : kind ≠ .list) (notRoot : id ≠ root) :
    image.children id = [] := by
  rw [children, firstChild, if_neg notRoot, if_neg]
  rintro ⟨isList, -⟩
  exact noList (Option.some.inj (kindAt.symm.trans isList))

/-- The first child with a tag is found behind children with other tags. -/
theorem findFirst_eq {image : Image} {parent child : Nat} {tag : Tag} {before after : List Nat}
    (walk : image.children parent = before ++ child :: after)
    (noneBefore : ∀ other ∈ before, image.tagAt other ≠ tag) (isMatch : image.tagAt child = tag) :
    image.findFirst parent tag = some child := by
  have noMatch : before.find? (fun other => image.tagAt other = tag) = none := by
    rw [List.find?_eq_none]
    intro other member
    rw [decide_eq_true_iff]
    exact noneBefore other member
  rw [findFirst_eq_find?, walk, List.find?_append, noMatch, Option.none_or, List.find?_cons_of_pos]
  exact decide_eq_true isMatch

namespace Written

open Layout

variable {image : Image} {records : List Record} {parent id next : Nat} {record : Record}

theorem sizeOf_ne_zero (written : image.Written records)
    (member : (id, record) ∈ placed Header.size records) : image.sizeOf id ≠ 0 := by
  have positive := record.size_pos
  have covers := record.size_le_extent
  rw [written.sizeOf member]
  omega

/-- Inside the image every boundary is the place of a record. -/
theorem mem_places_of_lt (written : image.Written records)
    (boundary : Boundary Header.size records id) (inside : id < image.size) :
    id ∈ places Header.size records := by
  rw [written.laidOut.size_eq] at inside
  exact boundary.mem_places inside

theorem mem_places_of_nextChild (written : image.Written records)
    (member : id ∈ places Header.size records) (step : image.nextChild parent id = some next) :
    next ∈ places Header.size records := by
  obtain ⟨record, placed⟩ := exists_of_mem_places member
  obtain ⟨rfl, inside⟩ := eq_of_nextChild step
  exact written.mem_places_of_lt (written.boundary placed) inside

/-- A walk that begins at a record stays on records. -/
theorem mem_places_of_mem_siblingsFrom (written : image.Written records)
    (member : id ∈ places Header.size records) :
    ∀ sibling ∈ image.siblingsFrom parent id, sibling ∈ places Header.size records := by
  fun_induction image.siblingsFrom parent id with
  | case1 id step =>
      intro sibling isId
      rw [List.mem_singleton.mp isId]
      exact member
  | case2 id next step ih =>
      intro sibling found
      rcases List.mem_cons.mp found with rfl | later
      · exact member
      · exact ih (written.mem_places_of_nextChild member step) sibling later

/-- A walk at the top only ends at the end of the image. -/
theorem getLast?_siblingsFrom_root (written : image.Written records)
    (member : id ∈ places Header.size records) :
    ∃ last, (image.siblingsFrom root id).getLast? = some last ∧
      last + image.sizeOf last = image.size := by
  fun_induction image.siblingsFrom root id with
  | case1 id stop =>
      obtain ⟨record, placed⟩ := exists_of_mem_places member
      have within := (written.boundary placed).le
      rw [← written.laidOut.size_eq] at within
      refine ⟨id, rfl, Nat.le_antisymm within (Nat.not_lt.mp fun inside => ?_)⟩
      rw [nextChild_eq_some (written.sizeOf_ne_zero placed) inside (encloses_root image _)] at stop
      contradiction
  | case2 id next step ih =>
      obtain ⟨last, isLast, ends⟩ := ih (written.mem_places_of_nextChild member step)
      refine ⟨last, ?_, ends⟩
      rw [List.getLast?_cons, isLast, Option.getD_some]

theorem ne_root_of_mem_placed (member : (id, record) ∈ placed Header.size records) : id ≠ root := by
  have behind := start_le_of_mem_places (mem_places_of_mem_placed member)
  rintro rfl
  exact absurd behind (by decide)

/-- Only a list has children, and the first of them stands right behind the list's own bytes. -/
theorem mem_places_of_firstChild (written : image.Written records)
    (member : (id, record) ∈ placed Header.size records)
    (first : image.firstChild id = some next) : next ∈ places Header.size records := by
  rw [firstChild, if_neg (ne_root_of_mem_placed member), Option.ite_none_right_eq_some,
    Option.some.injEq] at first
  obtain ⟨⟨isList, nonempty⟩, rfl⟩ := first
  rw [written.kindAt? member] at isList
  cases record with
  | leaf tag content => exact absurd (Option.some.inj isList) content.kind_ne_list
  | list tag length =>
      have inside := written.end_le_size member
      rw [← written.sizeOf member] at inside
      have boundary := boundary_behind member
      rw [Record.size_list] at boundary
      exact written.mem_places_of_lt boundary (by omega)

theorem nextChild_root_of_front {front behind : List Record}
    (written : image.Written (front ++ behind)) (aligned : Aligned Header.size front)
    (more : behind ≠ []) (member : (id, record) ∈ placed Header.size front) :
    image.nextChild root id = some (id + image.sizeOf id) ∧
      Boundary Header.size front (id + image.sizeOf id) := by
  have stands := mem_placed_append_left behind member
  have ends := aligned id record member
  rw [← written.sizeOf stands] at ends
  have within := ends.le
  have positive : 0 < Layout.size behind := by
    cases behind with
    | nil => exact absurd rfl more
    | cons first rest => exact Nat.lt_of_lt_of_le first.size_pos (by simp)
  have inside : id + image.sizeOf id < image.size := by
    rw [written.laidOut.size_eq, size_append]
    omega
  exact ⟨nextChild_eq_some (written.sizeOf_ne_zero stands) inside (encloses_root image _), ends⟩

/-- A walk at the top over records that are aligned among themselves comes to what stands behind
them, and to no other place behind them before. -/
theorem exists_siblingsFrom_root_eq {front behind : List Record}
    (written : image.Written (front ++ behind)) (aligned : Aligned Header.size front)
    (more : behind ≠ []) (boundary : Boundary Header.size front id) :
    ∃ before, image.siblingsFrom root id =
        before ++ image.siblingsFrom root (Header.size + Layout.size front) ∧
      ∀ sibling ∈ before, sibling ∈ places Header.size front := by
  fun_induction image.siblingsFrom root id with
  | case1 id stop =>
      rcases boundary with member | rfl
      · obtain ⟨record, placed⟩ := exists_of_mem_places member
        rw [(written.nextChild_root_of_front aligned more placed).1] at stop
        contradiction
      · exact ⟨[], (siblingsFrom_of_none stop).symm, by intro sibling found; cases found⟩
  | case2 id next step ih =>
      rcases boundary with member | rfl
      · obtain ⟨record, placed⟩ := exists_of_mem_places member
        obtain ⟨step', ends⟩ := written.nextChild_root_of_front aligned more placed
        rw [step, Option.some.injEq] at step'
        obtain ⟨before, walk, onFront⟩ := ih (step' ▸ ends)
        refine ⟨id :: before, by rw [walk, List.cons_append], ?_⟩
        intro sibling found
        rcases List.mem_cons.mp found with rfl | later
        · exact member
        · exact onFront sibling later
      · exact ⟨[], (siblingsFrom_of_some step).symm, by intro sibling found; cases found⟩

end Written

/-! ## Tilings -/

/-- Records stand one behind the other from one offset to another. -/
inductive Tiles (image : Image) : Nat → List Nat → Nat → Prop where
  | nil (offset : Nat) : Tiles image offset [] offset
  | cons {id stop : Nat} {rest : List Nat} (forward : image.sizeOf id ≠ 0)
      (tiles : Tiles image (id + image.sizeOf id) rest stop) : Tiles image id (id :: rest) stop

namespace Tiles

variable {image : Image} {parent id start stop : Nat} {ids rest : List Nat}

theorem le (tiles : image.Tiles start ids stop) : start ≤ stop := by
  induction tiles with
  | nil => exact Nat.le_refl _
  | cons _ _ ih => omega

theorem eq_of_nil (tiles : image.Tiles start [] stop) : start = stop := by
  cases tiles
  rfl

theorem of_cons (tiles : image.Tiles start (id :: rest) stop) :
    start = id ∧ image.sizeOf id ≠ 0 ∧ image.Tiles (id + image.sizeOf id) rest stop := by
  cases tiles with
  | cons forward tiles => exact ⟨rfl, forward, tiles⟩

/-- The first record of a tiling ends where it does at the latest. -/
theorem lt_of_cons (tiles : image.Tiles start (id :: rest) stop) : start < stop := by
  obtain ⟨rfl, forward, following⟩ := tiles.of_cons
  have behind := following.le
  omega

/-- Every record of a tiling ends where it does at the latest. -/
theorem end_le_of_mem {child : Nat} (tiles : image.Tiles start ids stop) (member : child ∈ ids) :
    child + image.sizeOf child ≤ stop := by
  induction tiles with
  | nil => cases member
  | cons _ tiles ih =>
      rcases List.mem_cons.mp member with rfl | later
      · exact tiles.le
      · exact ih later

/-- A walk inside a parent that ends where the tiling does visits just the records of the tiling. -/
theorem siblingsFrom_eq (tiles : image.Tiles start (id :: rest) stop)
    (ends : ∀ offset, offset < image.size ∧ image.Encloses parent offset ↔ offset < stop) :
    image.siblingsFrom parent id = id :: rest := by
  induction rest generalizing start id with
  | nil =>
      obtain ⟨-, -, following⟩ := tiles.of_cons
      apply siblingsFrom_of_none
      apply nextChild_eq_none
      rw [ends, following.eq_of_nil]
      exact Nat.lt_irrefl _
  | cons next rest ih =>
      obtain ⟨-, forward, following⟩ := tiles.of_cons
      have inside := (ends (id + image.sizeOf id)).mpr following.lt_of_cons
      have isNext := following.of_cons.1
      rw [siblingsFrom_of_some (nextChild_eq_some forward inside.1 inside.2), isNext, ih following]

/-- The records at the top are those that tile the image behind its header. -/
theorem children_root (tiles : image.Tiles Header.size ids image.size) :
    image.children root = ids := by
  cases ids with
  | nil => exact children_root_of_le (Nat.le_of_eq tiles.eq_of_nil.symm)
  | cons id rest =>
      have first := tiles.of_cons.1
      rw [children_root_of_lt tiles.lt_of_cons, first]
      apply tiles.siblingsFrom_eq
      intro offset
      exact and_iff_left (encloses_root image offset)

/-- The children of a list are the records that tile what it claims behind its own bytes. -/
theorem children_eq (isList : image.kindAt? parent = some .list) (notRoot : parent ≠ root)
    (inside : parent + image.sizeOf parent ≤ image.size)
    (tiles : image.Tiles (parent + listHeaderSize) ids (parent + image.sizeOf parent)) :
    image.children parent = ids := by
  have limit : image.size < sizeLimit := image.size_lt
  rw [children, firstChild, if_neg notRoot]
  cases ids with
  | nil =>
      have empty := tiles.eq_of_nil
      rw [if_neg (by omega)]
  | cons id rest =>
      have nonempty := tiles.lt_of_cons
      have first := tiles.of_cons.1
      rw [if_pos ⟨isList, by omega⟩, first]
      apply tiles.siblingsFrom_eq
      intro offset
      rw [Encloses]
      omega

end Tiles

instance decidableTiles (image : Image) :
    (start : Nat) → (ids : List Nat) → (stop : Nat) → Decidable (image.Tiles start ids stop)
  | start, [], stop =>
      decidable_of_iff (start = stop) ⟨fun same => same ▸ .nil start, Tiles.eq_of_nil⟩
  | start, id :: rest, stop =>
      have := decidableTiles image (id + image.sizeOf id) rest stop
      decidable_of_iff
        (start = id ∧ image.sizeOf id ≠ 0 ∧ image.Tiles (id + image.sizeOf id) rest stop)
        ⟨fun ⟨same, readable, tiles⟩ => same.symm ▸ .cons readable tiles, Tiles.of_cons⟩

namespace Written

open Layout

variable {image : Image} {records : List Record}

/-- The children of a list that stands in an image tile what the list claims. -/
theorem children_eq {id length : Nat} {tag : Tag} {ids : List Nat} (written : image.Written records)
    (member : (id, .list tag length) ∈ placed Header.size records)
    (tiles : image.Tiles (id + listHeaderSize) ids (id + image.sizeOf id)) :
    image.children id = ids := by
  apply tiles.children_eq
  · exact written.kindAt? member
  · exact ne_root_of_mem_placed member
  · rw [written.sizeOf member]
    exact written.end_le_size member

/-- A record comes before whatever tiles the stretch behind what it claims. -/
theorem tiles_cons {start stop : Nat} {record : Record} {rest : List Nat}
    (written : image.Written records) (member : (start, record) ∈ placed Header.size records)
    (following : image.Tiles (start + record.extent) rest stop) :
    image.Tiles start (start :: rest) stop := by
  apply Tiles.cons (written.sizeOf_ne_zero member)
  rw [written.sizeOf member]
  exact following

/-- Records that claim nothing but themselves tile the stretch where they stand. -/
theorem tiles_of_bare (start : Nat) (segment : List Record) (written : image.Written records)
    (inside : ∀ entry ∈ placed start segment, entry ∈ placed Header.size records)
    (bare : ∀ record ∈ segment, record.extent = record.size) :
    image.Tiles start (places start segment) (start + Layout.size segment) := by
  induction segment generalizing start with
  | nil => exact .nil start
  | cons record rest ih =>
      have tiles := ih _ (fun entry later => inside entry (List.mem_cons_of_mem _ later))
        fun other later => bare other (List.mem_cons_of_mem _ later)
      rw [size_cons, ← Nat.add_assoc]
      apply written.tiles_cons (inside _ (List.mem_cons_self ..))
      rw [bare record (List.mem_cons_self ..)]
      exact tiles

end Written

end TagTree.Image
