import TagTree.Proofs.Listing
import TagTree.Proofs.Matching

/-!
# Where files are looked for

The files that an entry asks for are to be in the directory of the file that is matched. Their names
are texts of the database, and each is followed from the directory as it is written. So a name of
one step leads to an entry of the directory, a name with more steps or with `..` leads elsewhere,
and so does an absolute name unless it spells out the directory itself. Nothing but these names
decides which paths are asked for.
-/

namespace TagTree

namespace Path

/-! ## Steps of a path -/

/-- The segments of a path that name something. -/
def steps (path : Path) : List Segment :=
  (cut path.bytes).filter fun segment => !isVoid segment

/-- A segment is the name of an entry: it is not empty, has no slash in it, and is neither `.` nor
`..`. -/
structure IsName (segment : Segment) : Prop where
  nonempty : segment ≠ []
  whole : slash ∉ segment
  notHere : segment ≠ [dot]
  notAbove : segment ≠ [dot, dot]

/-- A path is a directory followed by the name of one entry. -/
def LiesIn (path directory : Path) : Prop :=
  path.isAbsolute = directory.isAbsolute ∧
    ∃ name, IsName name ∧ path.steps = directory.steps ++ [name]

/-- A path is the name of an entry when it is followed from a directory: it has just one step, which
is a name, or it is absolute and the directory is spelled out in it. -/
def NamesEntryOf (name directory : Path) : Prop :=
  if name.isAbsolute then name.LiesIn directory
  else ∃ segment, IsName segment ∧ name.steps = [segment]

theorem cut_append_slash (front back : List UInt8) :
    cut (front ++ slash :: back) = cut front ++ cut back := by
  induction front with
  | nil => simp [cut]
  | cons byte rest ih =>
      by_cases isSlash : byte = slash
      · simp [cut, isSlash, ih]
      · cases parts : cut rest with
        | nil => exact absurd parts (cut_ne_nil rest)
        | cons part others => simp [cut, isSlash, ih, parts]

/-- A relative path that is followed from a directory adds its steps. -/
theorem steps_join (directory : Path) {name : Path} (relative : name.isAbsolute = false) :
    (directory.join name).steps = directory.steps ++ name.steps := by
  have split (front : List UInt8) : (⟨front ++ slash :: name.bytes⟩ : Path).steps =
      steps ⟨front⟩ ++ name.steps := by
    rw [steps, cut_append_slash, List.filter_append, steps, steps]
  rw [join, if_neg (by simp [relative])]
  cases ends : directory.bytes.getLast? with
  | none =>
      have isEmpty := List.getLast?_eq_none_iff.mp ends
      simp [steps, isEmpty, cut, isVoid]
  | some last =>
      by_cases isSlash : last = slash
      · obtain ⟨front, shape⟩ := List.getLast?_eq_some_iff.mp ends
        rw [isSlash] at shape
        have alone : directory.steps = steps ⟨front⟩ := by
          simp [steps, shape, cut_append_slash, cut, isVoid]
        rw [alone, ← split front]
        simp [isSlash, shape]
      · rw [if_neg (by simpa using isSlash)]
        exact split directory.bytes

theorem isAbsolute_join (directory : Path) {name : Path} (relative : name.isAbsolute = false) :
    (directory.join name).isAbsolute = directory.isAbsolute := by
  rw [join, if_neg (by simp [relative])]
  obtain ⟨bytes⟩ := directory
  cases bytes with
  | nil => simpa [isAbsolute] using relative
  | cons byte rest =>
      split
      · rfl
      · rfl

/-- Followed from a directory, a path lies in it just if it is the name of an entry there. -/
theorem join_liesIn_iff (directory name : Path) :
    (directory.join name).LiesIn directory ↔ name.NamesEntryOf directory := by
  rw [NamesEntryOf]
  cases absolute : name.isAbsolute with
  | true =>
      rw [if_pos rfl, join, if_pos absolute]
  | false =>
      rw [if_neg (by simp), LiesIn, steps_join directory absolute,
        isAbsolute_join directory absolute]
      simp only [true_and, List.append_cancel_left_eq]

end Path

/-! ## What a provider is asked -/

/-- A provider that keeps, beside the state of its own, the list of the paths whose presence it was
asked for, the last one first. -/
def Provider.noting {σ : Type} (provider : Provider (StateM σ)) :
    Provider (StateT (List Path) (StateM σ)) where
  holds path := do
    modify (path :: ·)
    provider.holds path
  attributes path := provider.attributes path

section Asking

variable {σ α β : Type} {allowed : Path → Prop}

/-- Whatever the state of the provider, an action asks only for certain paths. -/
def AsksOnly (allowed : Path → Prop) (action : StateT (List Path) (StateM σ) α) : Prop :=
  ∀ log state, ∃ asked, ((action.run log).run state).1.2 = asked ++ log ∧
    ∀ path ∈ asked, allowed path

namespace AsksOnly

theorem answer (value : α) : AsksOnly (σ := σ) allowed (pure value) := by
  intro log state
  exact ⟨[], rfl, by simp⟩

theorem bind {action : StateT (List Path) (StateM σ) α}
    {next : α → StateT (List Path) (StateM σ) β} (first : AsksOnly allowed action)
    (second : ∀ value, AsksOnly allowed (next value)) : AsksOnly allowed (action >>= next) := by
  intro log state
  obtain ⟨asked, ends, fine⟩ := first log state
  let between := (action.run log).run state
  obtain ⟨later, endsLater, fineLater⟩ := second between.1.1 between.1.2 between.2
  refine ⟨later ++ asked, ?_, ?_⟩
  · rw [List.append_assoc, ← ends]
    exact endsLater
  · intro path member
    rcases List.mem_append.mp member with isLater | isFirst
    · exact fineLater path isLater
    · exact fine path isFirst

theorem holds (provider : Provider (StateM σ)) {path : Path} (isAllowed : allowed path) :
    AsksOnly allowed (provider.noting.holds path) := by
  intro log state
  exact ⟨[path], rfl, by simpa using isAllowed⟩

theorem attributes (provider : Provider (StateM σ)) (path : Path) :
    AsksOnly allowed (provider.noting.attributes path) := by
  intro log state
  exact ⟨[], rfl, by simp⟩

theorem allM {action : α → StateT (List Path) (StateM σ) Bool} {values : List α}
    (each : ∀ value ∈ values, AsksOnly allowed (action value)) :
    AsksOnly allowed (values.allM action) := by
  induction values with
  | nil => exact answer true
  | cons value rest ih =>
      obtain ⟨first, others⟩ := List.forall_mem_cons.mp each
      apply first.bind
      intro passes
      cases passes with
      | true => exact ih others
      | false => exact answer false

theorem findM? {action : α → StateT (List Path) (StateM σ) Bool} {values : List α}
    (each : ∀ value ∈ values, AsksOnly allowed (action value)) :
    AsksOnly allowed (values.findM? action) := by
  induction values with
  | nil => exact answer none
  | cons value rest ih =>
      obtain ⟨first, others⟩ := List.forall_mem_cons.mp each
      apply first.bind
      intro passes
      cases passes with
      | true => exact answer (some value)
      | false => exact ih others

end AsksOnly

end Asking

namespace Database

/-- An entry with the name of the file at the end of a path asks for a file with a certain name. -/
inductive AsksFor (database : Database) (path : Path) : String → Prop where
  | entry {fileName name : String} {list exe file : Nat}
      (named : path.fileName?.bind Text.Utf8.decode? = some fileName)
      (isFirst : (database.tagged Image.root .database).head? = some list)
      (isEntry : exe ∈ database.tagged list .exe)
      (fits : database.nameOf? exe = some fileName)
      (isFile : file ∈ database.tagged exe .matchingFile)
      (asks : database.nameOf? file = some name) : AsksFor database path name

variable {σ : Type} (database : Database) (provider : Provider (StateM σ)) (path : Path)

/-- The search for a match asks only for names that entries ask for, followed from the directory. -/
theorem findMatch_asksOnly :
    AsksOnly (fun place => ∃ name, database.AsksFor path name ∧
      place = path.directory.join (.ofString name)) (database.findMatch provider.noting path) := by
  rw [findMatch]
  split
  · exact .answer _
  · next fileName named =>
      apply (AsksOnly.attributes provider path).bind
      intro known
      split
      · exact .answer _
      · next list found =>
          rw [findFirst_eq_head?] at found
          rw [childrenTagged_eq]
          apply AsksOnly.bind
          · apply AsksOnly.findM?
            intro exe isEntry
            rw [entryMatches, entryName?_eq]
            split
            · next fits =>
                rw [childrenTagged_eq]
                apply AsksOnly.allM
                intro file isFile
                rw [isPresent, entryName?_eq]
                split
                · next name asks =>
                    exact .holds provider
                      ⟨name, .entry named found isEntry fits isFile asks, rfl⟩
                · exact .answer _
            · exact .answer _
          · intro chosen
            split
            · exact .answer _
            · exact .answer _

/-- The paths whose presence a provider is asked for in the search for a match, the last one
first. -/
def consulted (state : σ) : List Path :=
  (((database.findMatch provider.noting path).run []).run state).1.2

/-- Each path that is asked for is a name that an entry asks for, followed from the directory of the
file. All of them lie in this directory just if each of these names is that of an entry there. -/
theorem consulted_lie_in_iff (state : σ) :
    (∀ place ∈ database.consulted provider path state, ∃ name, database.AsksFor path name ∧
      place = path.directory.join (.ofString name)) ∧
    ((∀ place ∈ database.consulted provider path state, place.LiesIn path.directory) ↔
      ∀ name, path.directory.join (.ofString name) ∈ database.consulted provider path state →
        (Path.ofString name).NamesEntryOf path.directory) := by
  obtain ⟨asked, ends, fine⟩ := database.findMatch_asksOnly provider path [] state
  rw [List.append_nil] at ends
  rw [consulted, ends]
  refine ⟨fine, ?_, ?_⟩
  · intro inside name isAsked
    exact (Path.join_liesIn_iff _ _).mp (inside _ isAsked)
  · intro names place isAsked
    obtain ⟨name, -, rfl⟩ := fine place isAsked
    exact (Path.join_liesIn_iff _ _).mpr (names name isAsked)

/-- An entry that asks for one file in the directory above and one at the top of the file system. -/
def outsideBytes : List UInt8 :=
  (⟨Header.supportedMajor, 1⟩ : Header).encode ++
    [0x01, 0x70, 36, 0, 0, 0,
      0x07, 0x70, 30, 0, 0, 0,
      0x01, 0x60, 6, 0, 0, 0,
      0x08, 0x70, 6, 0, 0, 0,
      0x01, 0x60, 16, 0, 0, 0,
      0x08, 0x70, 6, 0, 0, 0,
      0x01, 0x60, 32, 0, 0, 0,
      0x01, 0x78, 38, 0, 0, 0,
      0x01, 0x88, 4, 0, 0, 0, 0x61, 0, 0, 0,
      0x01, 0x88, 10, 0, 0, 0, 0x2E, 0, 0x2E, 0, 0x2F, 0, 0x78, 0, 0, 0,
      0x01, 0x88, 6, 0, 0, 0, 0x2F, 0, 0x78, 0, 0, 0]

/-- A provider that knows nothing of any file but that it is there. -/
def agreeing : Provider (StateM Unit) where
  holds _ := return true
  attributes _ := return none

/-- Neither of the files that are asked for lies in the directory `d`. -/
theorem consulted_outsideBytes :
    let path := Path.ofString "d/a"
    path.fileName?.isSome ∧
      ∃ database, ofBytes outsideBytes = .ok database ∧
        database.consulted agreeing path () = [.ofString "/x", .ofString "d/../x"] ∧
          ¬∀ place ∈ database.consulted agreeing path (), place.LiesIn path.directory := by
  intro path
  have asks : ∃ database ∈ (ofBytes outsideBytes).toOption,
      database.consulted agreeing path () = [.ofString "/x", .ofString "d/../x"] := by
    decide +kernel
  obtain ⟨database, accepted, consults⟩ := asks
  refine ⟨by decide, database, eq_ok_of_toOption accepted, consults, ?_⟩
  rw [consults]
  intro inside
  obtain ⟨sameStart, -⟩ := inside (.ofString "/x") (by simp)
  have differs : (Path.ofString "/x").isAbsolute ≠ path.directory.isAbsolute := by
    decide
  exact differs sameStart

end Database

end TagTree
