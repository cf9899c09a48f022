import TagTree.Match
import TagTree.Proofs.Succession

/-!
# The first entry that matches

An entry is good for a file when it has the file's name and each file that it asks for has a name
and is held in the same directory. The search for a match gives the first good entry and asks the
provider for exactly the files that it needs to know about, in order.
-/

namespace TagTree

/-! ## Asking in order -/

/-- The members of a list up to the first that passes a test, that one included. -/
def upTo {α : Type} (test : α → Bool) : List α → List α
  | [] => []
  | value :: rest => value :: if test value then [] else upTo test rest

section Asking

variable {α β : Type} {test : α → Bool} {values before after : List α}

theorem upTo_eq_self (noneBefore : ∀ value ∈ values, test value = false) :
    upTo test values = values := by
  induction values with
  | nil => rfl
  | cons value rest ih =>
      obtain ⟨first, others⟩ := List.forall_mem_cons.mp noneBefore
      simp [upTo, first, ih others]

theorem upTo_append_cons {value : α} (noneBefore : ∀ other ∈ before, test other = false)
    (passes : test value = true) :
    upTo test (before ++ value :: after) = before ++ [value] := by
  induction before with
  | nil => simp [upTo, passes]
  | cons other rest ih =>
      obtain ⟨first, others⟩ := List.forall_mem_cons.mp noneBefore
      simp [upTo, first, ih others]

/-- An action answers a test and notes certain things on the way, the last one first. -/
def Notes (action : α → StateM (List β) Bool) (test : α → Bool) (noted : α → List β) : Prop :=
  ∀ value log, (action value).run log = (test value, (noted value).reverse ++ log)

variable {action : α → StateM (List β) Bool} {noted : α → List β}

/-- Whether all pass is asked up to the first that does not. -/
theorem Notes.allM (notes : Notes action test noted) (values : List α) (log : List β) :
    (values.allM action).run log =
      (values.all test,
        ((upTo (fun value => !test value) values).flatMap noted).reverse ++ log) := by
  induction values generalizing log with
  | nil => rfl
  | cons value rest ih =>
      rw [List.allM, StateT.run_bind, notes]
      cases answer : test value with
      | true =>
          apply (ih ((noted value).reverse ++ log)).trans
          simp [upTo, answer]
      | false =>
          change (false, (noted value).reverse ++ log) = _
          simp [upTo, answer]

/-- Which is the first that passes is asked up to that one. -/
theorem Notes.findM? (notes : Notes action test noted) (values : List α) (log : List β) :
    (values.findM? action).run log =
      (values.find? test, ((upTo test values).flatMap noted).reverse ++ log) := by
  induction values generalizing log with
  | nil => rfl
  | cons value rest ih =>
      rw [List.findM?, StateT.run_bind, notes]
      cases answer : test value with
      | true =>
          change (some value, (noted value).reverse ++ log) = _
          simp [upTo, answer]
      | false =>
          apply (ih ((noted value).reverse ++ log)).trans
          simp [upTo, answer]

end Asking

namespace Database

variable (database : Database) (isHeld : Path → Bool) (fileName : String) (directory : Path)

/-- The name of a list is the text of its first child with the name tag. -/
def nameOf? (list : Nat) : Option String :=
  ((database.image.children list).find? fun child => database.image.tagAt child = .name).bind
    database.string?

/-- The path of a file that an entry asks for. -/
def pathOf? (file : Nat) : Option Path :=
  (database.nameOf? file).map fun name => directory.join (.ofString name)

/-- The children of a list that have a tag. -/
def tagged (list : Nat) (tag : Tag) : List Nat :=
  (database.image.children list).filter fun child => database.image.tagAt child = tag

/-- A file that an entry asks for has a name and is held. -/
def Present (file : Nat) : Prop :=
  ∃ path, database.pathOf? directory file = some path ∧ isHeld path = true

instance (file : Nat) : Decidable (database.Present isHeld directory file) :=
  decidable_of_iff ((database.pathOf? directory file).any isHeld = true) (by
    simp [Present, Option.any_eq_true])

/-- An entry has the name of the file, and all that it asks for is present. -/
structure Good (entry : Nat) : Prop where
  name : database.nameOf? entry = some fileName
  files : ∀ file ∈ database.tagged entry .matchingFile, database.Present isHeld directory file

instance (entry : Nat) : Decidable (database.Good isHeld fileName directory entry) :=
  decidable_of_iff (database.nameOf? entry = some fileName ∧
      ∀ file ∈ database.tagged entry .matchingFile, database.Present isHeld directory file)
    ⟨fun ⟨name, files⟩ => ⟨name, files⟩, fun ⟨name, files⟩ => ⟨name, files⟩⟩

/-- The paths that have to be asked for to know whether an entry is good: none where it has another
name, otherwise those of the files up to the first that is not present. -/
def asked (entry : Nat) : List Path :=
  if database.nameOf? entry = some fileName then
    (upTo (fun file => ¬database.Present isHeld directory file)
      (database.tagged entry .matchingFile)).filterMap (database.pathOf? directory)
  else []

/-- The answers to a search for the entry that matches a file, each with the paths that are asked
for before it is given. -/
inductive Answers (attributes : Path → Option FileAttributes) (path : Path) :
    Except Error Match → List Path → Prop where
  | noFileName (unnamed : path.fileName?.bind Text.Utf8.decode? = none) :
      Answers attributes path (.error (.notFound (.fileName path))) []
  | noDatabase {fileName : String}
      (named : path.fileName?.bind Text.Utf8.decode? = some fileName)
      (noList : database.tagged Image.root .database = []) :
      Answers attributes path (.error (.notFound .databaseList)) []
  | noEntry {fileName : String} {list : Nat}
      (named : path.fileName?.bind Text.Utf8.decode? = some fileName)
      (isFirst : (database.tagged Image.root .database).head? = some list)
      (noneGood : ∀ entry ∈ database.tagged list .exe,
        ¬database.Good isHeld fileName path.directory entry) :
      Answers attributes path (.error (.notFound (.matchingEntry path)))
        ((database.tagged list .exe).flatMap (database.asked isHeld fileName path.directory))
  | found {fileName : String} {list exe : Nat} {before after : List Nat}
      (named : path.fileName?.bind Text.Utf8.decode? = some fileName)
      (isFirst : (database.tagged Image.root .database).head? = some list)
      (split : database.tagged list .exe = before ++ exe :: after)
      (noneBefore : ∀ entry ∈ before, ¬database.Good isHeld fileName path.directory entry)
      (good : database.Good isHeld fileName path.directory exe) :
      Answers attributes path (.ok ⟨list, exe, (attributes path).getD {}⟩)
        ((before ++ [exe]).flatMap (database.asked isHeld fileName path.directory))

variable {database isHeld fileName directory}

theorem entryName?_eq (list : Nat) : database.entryName? list = database.nameOf? list := by
  rw [entryName?, childString?, Image.findFirst_eq_find?, nameOf?]

theorem findFirst_eq_head? (list : Nat) (tag : Tag) :
    database.image.findFirst list tag = (database.tagged list tag).head? := by
  rw [Image.findFirst_eq_find?, tagged, List.head?_filter]

theorem childrenTagged_eq (list : Nat) (tag : Tag) :
    database.image.childrenTagged list tag = database.tagged list tag :=
  Image.childrenTagged_eq_filter database.image list tag

variable {attributes : Path → Option FileAttributes}

/-- Whether a file is present is asked for by its path, if it has one. -/
theorem notes_isPresent :
    Notes (database.isPresent (.recording isHeld attributes) directory)
      (fun file => database.Present isHeld directory file)
      fun file => (database.pathOf? directory file).toList := by
  intro file log
  rw [isPresent, entryName?_eq]
  cases named : database.nameOf? file with
  | none =>
      change (false, log) = _
      simp [Present, pathOf?, named]
  | some name =>
      change (isHeld (directory.join (.ofString name)), directory.join (.ofString name) :: log) = _
      simp [Present, pathOf?, named]

/-- Whether an entry is good is asked by the paths of its files. -/
theorem notes_entryMatches :
    Notes (database.entryMatches (.recording isHeld attributes) fileName directory)
      (fun entry => database.Good isHeld fileName directory entry)
      (database.asked isHeld fileName directory) := by
  intro entry log
  rw [entryMatches, entryName?_eq, asked]
  by_cases named : database.nameOf? entry = some fileName
  · rw [if_pos named, if_pos named, childrenTagged_eq, notes_isPresent.allM,
      ← List.filterMap_eq_flatMap_toList]
    have good : (database.tagged entry .matchingFile).all
        (fun file => database.Present isHeld directory file) =
        decide (database.Good isHeld fileName directory entry) := by
      rw [Bool.eq_iff_iff, List.all_eq_true, decide_eq_true_iff]
      constructor
      · intro present
        exact ⟨named, fun file member => of_decide_eq_true (present file member)⟩
      · intro good file member
        exact decide_eq_true (good.files file member)
    simp only [good, decide_not]
  · rw [if_neg named, if_neg named]
    have notGood : ¬database.Good isHeld fileName directory entry := fun good => named good.name
    change (false, log) = _
    simp [notGood]

/-- With a file name and a list of entries, the search goes over the entries. -/
theorem findMatch_run {list : Nat} {path : Path}
    (named : path.fileName?.bind Text.Utf8.decode? = some fileName)
    (isFirst : (database.tagged Image.root .database).head? = some list) :
    let entries := database.tagged list .exe
    let good := fun entry => decide (database.Good isHeld fileName path.directory entry)
    (database.findMatch (.recording isHeld attributes) path).run [] =
      (match entries.find? good with
        | some exe => .ok ⟨list, exe, (attributes path).getD {}⟩
        | none => .error (.notFound (.matchingEntry path)),
      ((upTo good entries).flatMap (database.asked isHeld fileName path.directory)).reverse) := by
  intro entries good
  have notes : Notes
      (database.entryMatches (.recording isHeld attributes) fileName path.directory) good
      (database.asked isHeld fileName path.directory) := notes_entryMatches
  have goesOver := notes.findM? entries []
  have known : (Provider.recording isHeld attributes).attributes path = pure (attributes path) :=
    rfl
  rw [← findFirst_eq_head?] at isFirst
  simp only [findMatch, named, isFirst, childrenTagged_eq, known, pure_bind, StateT.run_bind]
  rw [goesOver, List.append_nil]
  cases entries.find? good with
  | none => rfl
  | some exe => rfl

/-- The first good entry answers the search over the entries of a list, if there is one. -/
theorem answers_entries {list : Nat} {path : Path}
    (named : path.fileName?.bind Text.Utf8.decode? = some fileName)
    (isFirst : (database.tagged Image.root .database).head? = some list) :
    let entries := database.tagged list .exe
    let good := fun entry => decide (database.Good isHeld fileName path.directory entry)
    database.Answers isHeld attributes path
      (match entries.find? good with
        | some exe => .ok ⟨list, exe, (attributes path).getD {}⟩
        | none => .error (.notFound (.matchingEntry path)))
      ((upTo good entries).flatMap (database.asked isHeld fileName path.directory)) := by
  intro entries good
  cases chosen : entries.find? good with
  | none =>
      have noneGood := List.find?_eq_none.mp chosen
      rw [upTo_eq_self]
      · apply Answers.noEntry named isFirst
        intro entry member
        simpa [good] using noneGood entry member
      · intro entry member
        simpa using noneGood entry member
  | some exe =>
      obtain ⟨isGood, before, after, split, noneBefore⟩ := List.find?_eq_some_iff_append.mp chosen
      rw [split, upTo_append_cons]
      · apply Answers.found named isFirst split
        · simpa [good] using noneBefore
        · exact of_decide_eq_true isGood
      · simpa using noneBefore
      · exact isGood

/-- The search for a match gives the first good entry among those of the first list of entries, and
asks just for the paths that it needs to know about up to there. What is known of the file is handed
on and decides nothing. -/
theorem findMatch_answers (database : Database) (isHeld : Path → Bool)
    (attributes : Path → Option FileAttributes) (path : Path) :
    let run := (database.findMatch (.recording isHeld attributes) path).run []
    database.Answers isHeld attributes path run.1 run.2.reverse := by
  intro run
  cases named : path.fileName?.bind Text.Utf8.decode? with
  | none =>
      have unnamed : run = (.error (.notFound (.fileName path)), []) := by
        simp only [run, findMatch, named]
        rfl
      rw [unnamed]
      exact .noFileName named
  | some fileName =>
      cases isFirst : (database.tagged Image.root .database).head? with
      | none =>
          have noList : run = (.error (.notFound .databaseList), []) := by
            simp only [run, findMatch, named, findFirst_eq_head?, isFirst]
            rfl
          rw [noList]
          exact .noDatabase named (List.head?_eq_none_iff.mp isFirst)
      | some list =>
          have goesOver : run = _ := findMatch_run named isFirst
          rw [goesOver, List.reverse_reverse]
          exact answers_entries named isFirst

end Database

end TagTree
