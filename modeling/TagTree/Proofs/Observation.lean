import TagTree.Match
import TagTree.Proofs.Succession

/-!
# What is seen of a database

Of an image only its bytes can be seen, not the space that is set aside for it. Two databases with
the same bytes can therefore only be told apart by reading if they have different string tables.
-/

namespace TagTree

/-! ## Images -/

namespace Image

/-- Two images differ in nothing but the space that is set aside. -/
def SameBytes (left right : Image) : Prop :=
  left.toList = right.toList

namespace SameBytes

variable {left right : Image}

theorem size_eq (same : left.SameBytes right) : left.size = right.size :=
  congrArg List.length same

theorem slice_eq (same : left.SameBytes right) : left.slice = right.slice := by
  funext offset length
  by_cases inside : offset + length ≤ left.size
  · have insideRight := inside
    rw [same.size_eq] at insideRight
    rw [slice_of_le left inside, slice_of_le right insideRight, same]
  · have outside := Nat.not_le.mp inside
    have outsideRight := outside
    rw [same.size_eq] at outsideRight
    rw [slice_of_lt left outside, slice_of_lt right outsideRight, same.size_eq]

theorem number_eq (same : left.SameBytes right) : left.number = right.number := by
  funext offset width
  rw [number, number, same.slice_eq]

theorem tagAt_eq (same : left.SameBytes right) : left.tagAt = right.tagAt := by
  funext id
  rw [tagAt, tagAt, same.number_eq]

theorem kindAt?_eq (same : left.SameBytes right) : left.kindAt? = right.kindAt? := by
  funext id
  rw [kindAt?, kindAt?, same.tagAt_eq]

theorem sizeOf_eq (same : left.SameBytes right) : left.sizeOf = right.sizeOf := by
  funext id
  simp only [sizeOf, same.kindAt?_eq, same.number_eq]

theorem firstChild_eq (same : left.SameBytes right) : left.firstChild = right.firstChild := by
  funext parent
  simp only [firstChild, same.size_eq, same.kindAt?_eq, same.sizeOf_eq]

theorem nextChild_eq (same : left.SameBytes right) : left.nextChild = right.nextChild := by
  funext parent previous
  simp only [nextChild, Encloses, same.size_eq, same.sizeOf_eq]
  congr

theorem children_eq (same : left.SameBytes right) : left.children = right.children := by
  funext parent
  have walk := follows_children left parent
  rw [same.firstChild_eq, same.nextChild_eq] at walk
  exact walk.unique (follows_children right parent)

theorem findFirst_eq (same : left.SameBytes right) : left.findFirst = right.findFirst := by
  funext parent tag
  rw [findFirst_eq_find?, findFirst_eq_find?, same.children_eq, same.tagAt_eq]

theorem childrenTagged_eq (same : left.SameBytes right) :
    left.childrenTagged = right.childrenTagged := by
  funext parent tag
  rw [childrenTagged_eq_filter, childrenTagged_eq_filter, same.children_eq, same.tagAt_eq]

end SameBytes

end Image

/-! ## Databases -/

namespace Database

/-- Two databases have the same string table, and the same comes of every reader of texts and of
every search by text, errors included. -/
structure Agrees (left right : Database) : Prop where
  stringTable : left.stringTable = right.stringTable
  resolveString : ∀ id, left.resolveString id = right.resolveString id
  string? : ∀ id, left.string? id = right.string? id
  findNamed : ∀ parent tag nameTag name,
    left.findNamed parent tag nameTag name = right.findNamed parent tag nameTag name
  findMatch : ∀ {m : Type → Type} [Monad m] (provider : Provider m) (path : Path),
    left.findMatch provider path = right.findMatch provider path

section Same

variable {left right : Database} (same : left.image.SameBytes right.image)
  (sameTable : left.stringTable = right.stringTable)

include same sameTable

theorem resolveString_eq : left.resolveString = right.resolveString := by
  have behind : left.offsetBehind = right.offsetBehind := by
    funext base distance
    rw [offsetBehind, offsetBehind, same.size_eq]
  have reference : left.followReference = right.followReference := by
    funext id
    rw [followReference, followReference, sameTable, same.number_eq, behind]
  funext id
  rw [resolveString, resolveString, same.number_eq, same.slice_eq, behind, reference]

theorem string?_eq : left.string? = right.string? := by
  funext id
  rw [string?, string?, stringBytes?, stringBytes?, resolveString_eq same sameTable,
    same.slice_eq]

theorem childString?_eq : left.childString? = right.childString? := by
  funext parent tag
  rw [childString?, childString?, same.findFirst_eq, string?_eq same sameTable]

theorem findMatch_eq {m : Type → Type} [Monad m] :
    left.findMatch (m := m) = right.findMatch := by
  have name : left.entryName? = right.entryName? := by
    funext list
    rw [entryName?, entryName?, childString?_eq same sameTable]
  have present : left.isPresent (m := m) = right.isPresent := by
    funext provider directory file
    rw [isPresent, isPresent, name]
  have entry : left.entryMatches (m := m) = right.entryMatches := by
    funext provider fileName directory exe
    rw [entryMatches, entryMatches, name, same.childrenTagged_eq, present]
  funext provider path
  simp only [findMatch, same.findFirst_eq, same.childrenTagged_eq, entry]

end Same

/-- Databases with the same bytes agree if they have the same string table. -/
theorem agrees_iff {left right : Database} (same : left.image.SameBytes right.image) :
    left.Agrees right ↔ left.stringTable = right.stringTable := by
  constructor
  · exact Agrees.stringTable
  · intro sameTable
    constructor
    · exact sameTable
    · exact congrFun (resolveString_eq same sameTable)
    · exact congrFun (string?_eq same sameTable)
    · intro parent tag nameTag name
      rw [findNamed, findNamed, same.childrenTagged_eq, childString?_eq same sameTable]
    · intro m _ provider path
      rw [findMatch_eq same sameTable]

end Database

end TagTree
