import TagTree.Proofs.Run

/-!
# Walks over what was written

Lists may be left open, closed in any order, closed again after more was written, or dropped. Still
every walk over the image of a run stays on the places at which records were added, and the walk at
the top comes to the end of the image.
-/

namespace TagTree

/-- Every walk stays on certain places, and none at the top ends before the image does. -/
structure Image.WalksOn (image : Image) (starts : List Nat) : Prop where
  top : ∀ child ∈ image.children Image.root, child ∈ starts
  first : image.children Image.root = [] ∧ image.size = Header.size ∨
    (image.children Image.root).head? = some Header.size
  last : ∀ child, (image.children Image.root).getLast? = some child →
    child + image.sizeOf child = image.size
  inside : ∀ id ∈ starts, ∀ child ∈ image.children id, child ∈ starts
  behind : ∀ id ∈ starts, id + image.sizeOf id ∈ starts ∨ id + image.sizeOf id = image.size

namespace Image.Written

open Layout

variable {image : Image} {records : List Record} {id : Nat}

/-- An image without records is just its header; otherwise a record follows the header. -/
theorem start_mem_places (written : image.Written records) (nonempty : Header.size < image.size) :
    Header.size ∈ places Header.size records :=
  written.mem_places_of_lt (boundary_start _ _) nonempty

/-- The children of whatever stands somewhere stand somewhere. -/
theorem mem_places_of_mem_children (written : image.Written records)
    (member : id ∈ places Header.size records) :
    ∀ child ∈ image.children id, child ∈ places Header.size records := by
  intro child isChild
  rw [children] at isChild
  split at isChild
  · cases isChild
  · next next first =>
      obtain ⟨record, placed⟩ := exists_of_mem_places member
      exact written.mem_places_of_mem_siblingsFrom (written.mem_places_of_firstChild placed first)
        child isChild

/-- Walks stay on records. -/
theorem walksOn_places (written : image.Written records) :
    image.WalksOn (places Header.size records) where
  top := by
    by_cases nonempty : Header.size < image.size
    · rw [children_root_of_lt nonempty]
      exact written.mem_places_of_mem_siblingsFrom (written.start_mem_places nonempty)
    · rw [children_root_of_le (Nat.not_lt.mp nonempty)]
      intro child isChild
      cases isChild
  first := by
    by_cases nonempty : Header.size < image.size
    · right
      rw [children_root_of_lt nonempty, siblingsFrom_eq, List.head?_cons]
    · left
      have least := written.laidOut.size_eq
      exact ⟨children_root_of_le (Nat.not_lt.mp nonempty), by omega⟩
  last := by
    intro child isLast
    by_cases nonempty : Header.size < image.size
    · obtain ⟨last, found, ends⟩ :=
        written.getLast?_siblingsFrom_root (written.start_mem_places nonempty)
      rw [children_root_of_lt nonempty, found] at isLast
      cases isLast
      exact ends
    · rw [children_root_of_le (Nat.not_lt.mp nonempty)] at isLast
      cases isLast
  inside id member := written.mem_places_of_mem_children member
  behind id member := by
    obtain ⟨record, placed⟩ := exists_of_mem_places member
    rw [written.laidOut.size_eq]
    exact written.boundary placed

end Image.Written

variable {config : Config} {events : List Event} {database : Database}

/-- In every state of a run, walks stay on the places at which calls of the run added records. -/
theorem Run.walksOn (run : Run config events database) :
    database.image.WalksOn (starts events) := by
  have traced := run.traced
  have walks := traced.written.walksOn_places
  constructor
  · intro child isChild
    exact traced.mem_starts.mp (walks.top child isChild)
  · exact walks.first
  · exact walks.last
  · intro id member child isChild
    exact traced.mem_starts.mp (walks.inside id (traced.mem_starts.mpr member) child isChild)
  · intro id member
    rcases walks.behind id (traced.mem_starts.mpr member) with behind | ends
    · exact .inl (traced.mem_starts.mp behind)
    · exact .inr ends

theorem walksOn_sampleCalls :
    Playable {} sampleCalls ∧
      starts (play {} sampleCalls).1 = [72, 54, 60, 44, 38, 30, 24, 18, 12] ∧
      (play {} sampleCalls).2.image.WalksOn (starts (play {} sampleCalls).1) :=
  ⟨playable_sampleCalls, by decide +kernel, Run.walksOn (run_play playable_sampleCalls)⟩

end TagTree
