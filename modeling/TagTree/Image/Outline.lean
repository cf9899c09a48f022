import TagTree.Image.Children

/-!
# Outlines

Whoever goes down through the lists of an image comes to its records in the order of a listing. A
list may claim more bytes than the list in which it stands, and then one comes to the records behind
both more than once, in all perhaps far more often than the image has bytes. An outline shows what
one comes to first, and is for looking at images of which nothing is known: it has a fixed number of
rows and a fixed depth, and what is left out of it is never gone through. `outline_eq_take` says
that nothing else is lost.
-/

namespace TagTree.Image

/-- A record with the number of lists in which it was come to. -/
structure Row where
  depth : Nat
  id : Nat
  deriving DecidableEq, Repr

/-- The records to which one comes through so many levels of lists, each with its depth. -/
def visits (image : Image) : (levels depth parent : Nat) → List Row
  | 0, _, _ => []
  | levels + 1, depth, parent =>
      (image.children parent).flatMap fun child =>
        ⟨depth, child⟩ ::
          if image.kindAt? child = some .list then visits image levels (depth + 1) child else []

/-- The rows of some records and of those inside them, with so many levels, as far as there is
room. -/
def rows (image : Image) (levels depth : Nat) (ids : List Nat) (room : Nat) : List Row :=
  match levels, ids, room with
  | _, [], _ => []
  | _, _, 0 => []
  | 0, id :: rest, room + 1 => ⟨depth, id⟩ :: rows image 0 depth rest room
  | levels + 1, id :: rest, room + 1 =>
      let inner :=
        if image.kindAt? id = some .list then
          rows image levels (depth + 1) (image.children id) room
        else []
      ⟨depth, id⟩ :: inner ++ rows image (levels + 1) depth rest (room - inner.length)
termination_by (levels, ids.length)

/-- The rows of the records below a parent. -/
def outline (image : Image) (parent : Nat) : List Row :=
  image.rows 40 0 (image.children parent) 400

/-- Rows are the first visits to the records and to what is below them. -/
theorem rows_eq_take (image : Image) (levels depth : Nat) (ids : List Nat) (room : Nat) :
    image.rows levels depth ids room =
      (ids.flatMap fun id =>
        ⟨depth, id⟩ ::
          if image.kindAt? id = some .list then image.visits levels (depth + 1) id
          else []).take room := by
  fun_induction image.rows levels depth ids room with
  | case1 => exact List.take_nil.symm
  | case2 => exact List.take_zero.symm
  | case3 depth id rest room ih => simp [visits, ih]
  | case4 depth levels id rest room inner below behind =>
      have isInner : inner =
          (if image.kindAt? id = some .list then
            image.visits (levels + 1) (depth + 1) id else []).take room := by
        simp only [inner]
        split
        · rw [below, visits]
        · exact List.take_nil.symm
      -- Where the inner rows fill the room, none is left for the records behind.
      have left (used : Nat) : room - min room used = room - used := by omega
      rw [behind, isInner, List.flatMap_cons, List.cons_append, List.cons_append,
        List.take_succ_cons, List.take_append, List.length_take, left]

/-- An outline is the beginning of the visits to what is below the parent. -/
theorem outline_eq_take (image : Image) (parent : Nat) :
    image.outline parent = (image.visits 41 0 parent).take 400 := by
  rw [outline, rows_eq_take, visits]

end TagTree.Image
