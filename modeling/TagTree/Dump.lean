import TagTree.Database.Text
import TagTree.Tag.Catalogue

/-!
# Listings

A listing shows one record a line, each list followed by its children, indented by their depth. A
record whose number cannot be read is shown with zero. Lists are followed to a fixed depth; beyond
it three dots stand for all that would come.
-/

namespace TagTree.Database

/-- The deepest level at which records are still shown. -/
def maxDepth : Nat := 64

/-- The blanks at the beginning of a line. -/
def indentation (depth : Nat) : String :=
  "".pushn ' ' (2 * depth)

/-- A number with two digits for each of its bytes. -/
def scalarText (database : Database) (scalar : Scalar) (id : Nat) : String :=
  "0x" ++ Numeral.paddedHex (2 * scalar.width) (database.image.readScalar scalar id 0).toNat

/-- What a listing shows of the contents of a record, other than its children. -/
def contentsText? (database : Database) (id : Nat) : Kind → Option String
  | .null | .list => none
  | .byte => some (database.scalarText .byte id)
  | .word => some (database.scalarText .word id)
  | .dword => some (database.scalarText .dword id)
  | .qword => some (database.scalarText .qword id)
  | .string | .stringRef =>
      match database.string? id with
      | some text => some (Text.Quoted.ofString text)
      | none => some "<unresolved>"
  | .binary =>
      let length := ((database.image.binaryData? id).getD []).length
      some s!"<{length} bytes>"

/-- The line of a record. -/
def recordLine (database : Database) (depth id : Nat) : String :=
  let tag := database.image.tagAt id
  let label :=
    indentation depth ++ tag.displayName ++ " [" ++ tag.display ++ "] @ " ++ Numeral.place id
  match tag.kind?.bind (database.contentsText? id) with
  | some text => label ++ " = " ++ text
  | none => label

/-- The lines of the records inside a parent, with so many levels of them. -/
def listing (database : Database) : (levels depth parent : Nat) → List String
  | 0, depth, _ => [indentation depth ++ "..."]
  | levels + 1, depth, parent =>
      (database.image.children parent).flatMap fun child =>
        database.recordLine depth child ::
          if database.image.kindAt? child = some .list then
            listing database levels (depth + 1) child
          else []

/-- The lines of the records inside a parent at a depth. -/
def dump (database : Database) (parent depth : Nat) : List String :=
  database.listing (maxDepth + 1 - depth) depth parent

end TagTree.Database
