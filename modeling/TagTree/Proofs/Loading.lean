import TagTree.Database.File
import TagTree.Proofs.Walk

/-!
# Loading what was stored

A file that was made at the end of a path and written is found there again with what was written.
The bytes of an image with a supported header are loaded as an image with the same bytes.
-/

namespace TagTree

theorem Image.Written.of_toList_eq {image other : Image} {records : List Record}
    (written : image.Written records) (same : other.toList = image.toList) :
    other.Written records where
  laidOut := by
    obtain ⟨header, length, split⟩ := written.laidOut
    exact ⟨header, length, same.trans split⟩
  sound := written.sound
  aligned := written.aligned

theorem Image.ofList_toList (image : Image) :
    ∃ loaded, Image.ofList image.toList = .ok loaded ∧ loaded.toList = image.toList := by
  rw [Image.ofList]
  exact ⟨_, dif_pos image.size_lt, rfl⟩

theorem Image.ofList_of_lt {bytes : List UInt8} (fits : bytes.length < sizeLimit) :
    ∃ image, Image.ofList bytes = .ok image := by
  rw [Image.ofList]
  exact ⟨_, dif_pos fits⟩

theorem Image.toList_of_ofList {bytes : List UInt8} {image : Image}
    (kept : Image.ofList bytes = .ok image) : image.toList = bytes := by
  rw [Image.ofList] at kept
  split at kept
  · cases kept
    rfl
  · cases kept

namespace Database

/-- Loading the bytes of an image keeps them and looks for the string table among them. -/
theorem ofBytes_toList {image : Image} {header : Header} {rest : List UInt8}
    (bytes : image.toList = header.encode ++ rest)
    (supported : header.major = Header.supportedMajor) :
    ∃ loaded, ofBytes image.toList = .ok loaded ∧ loaded.image.toList = image.toList ∧
      loaded.header = header ∧ loaded.file = none ∧
        loaded.stringTable = loaded.image.findFirst Image.root .stringTable := by
  obtain ⟨loaded, kept, same⟩ := image.ofList_toList
  have parsed : Header.parse image.toList = .ok header := by
    rw [bytes]
    exact Header.parse_encode_append header rest
  refine ⟨⟨loaded, none, header, locateStringTable loaded, .empty, []⟩, ?_, same, rfl, rfl, rfl⟩
  simp [ofBytes, parsed, supported, kept, bind, Except.bind, pure, Except.pure]

/-- Bytes are accepted if they begin with a supported header and are not too many for an image. -/
theorem ofBytes_eq_ok_iff {bytes : List UInt8} {database : Database} :
    ofBytes bytes = .ok database ↔
      ∃ header image, Header.parse bytes = .ok header ∧ header.major = Header.supportedMajor ∧
        Image.ofList bytes = .ok image ∧
          database = ⟨image, none, header, locateStringTable image, .empty, []⟩ := by
  cases parsed : Header.parse bytes with
  | error cause => simp [ofBytes, parsed, bind, Except.bind]
  | ok header =>
      by_cases supported : header.major = Header.supportedMajor
      · cases kept : Image.ofList bytes with
        | error cause => simp [ofBytes, parsed, supported, kept, bind, Except.bind]
        | ok image =>
            simp [ofBytes, parsed, supported, kept, bind, Except.bind, pure, Except.pure, eq_comm]
      · simp [ofBytes, parsed, supported, bind, Except.bind, throw, throwThe,
          MonadExceptOf.throw]

/-- Bytes that are accepted become the image, and the header is the one with which they begin. -/
theorem of_ofBytes {bytes : List UInt8} {database : Database}
    (accepted : ofBytes bytes = .ok database) :
    database.image.toList = bytes ∧ Header.parse bytes = .ok database.header := by
  obtain ⟨header, image, parsed, -, kept, rfl⟩ := ofBytes_eq_ok_iff.mp accepted
  exact ⟨Image.toList_of_ofList kept, parsed⟩

end Database

namespace Directory

variable {directory : Directory} {names : List Segment} {location : Location}

theorem lookup_insert_self (directory : Directory) (names : List Segment) (entry : Entry) :
    (directory.insert names entry).lookup names = some entry := by
  simp [lookup, insert]

theorem find?_insert {other : List Segment} (entry : Entry) (elsewhere : other ≠ names) :
    (directory.insert names entry).entries.find? (·.1 = other) =
      directory.entries.find? (·.1 = other) := by
  have both : (fun stood : List Segment × Entry =>
      decide (stood.1 ≠ names ∧ stood.1 = other)) = fun stood => decide (stood.1 = other) := by
    funext stood
    rw [decide_eq_decide]
    constructor
    · exact And.right
    · rintro rfl
      exact ⟨elsewhere, rfl⟩
  rw [insert, List.find?_cons_of_neg (by simpa using Ne.symm elsewhere), List.find?_filter]
  simpa using congrArg (fun test => directory.entries.find? test) both

/-- What stands on the way to an entry still does when an entry is put somewhere. -/
theorem any_isPrefixOf_insert {other : List Segment} (entry : Entry)
    (isAbove : directory.entries.any (fun stood => other.isPrefixOf stood.1) = true) :
    (directory.insert names entry).entries.any (fun stood => other.isPrefixOf stood.1) = true := by
  obtain ⟨stood, member, above⟩ := List.any_eq_true.mp isAbove
  apply List.any_eq_true.mpr
  by_cases replaced : stood.1 = names
  · exact ⟨(names, entry), List.mem_cons_self .., replaced ▸ above⟩
  · refine ⟨stood, List.mem_cons_of_mem _ (List.mem_filter.mpr ⟨member, ?_⟩), above⟩
    exact decide_eq_true replaced

/-- A folder stays one when a file is put elsewhere. -/
theorem lookup_insert_folder {other : List Segment} (contents : List UInt8)
    (elsewhere : other ≠ names) (isFolder : directory.lookup other = some .folder) :
    (directory.insert names (.file contents)).lookup other = some .folder := by
  rw [lookup] at isFolder
  rw [lookup, find?_insert _ elsewhere]
  cases found : directory.entries.find? (·.1 = other) with
  | some stood =>
      rw [found] at isFolder
      exact isFolder
  | none =>
      rw [found] at isFolder
      simp only [Option.ite_none_right_eq_some] at isFolder
      apply if_pos
      exact isFolder.1.imp_right (any_isPrefixOf_insert _)

/-- A way over folders is not changed by a file that is put where no folder is. -/
theorem foldlM_follow_insert {segments : List Segment} {start : Location} (contents : List UInt8)
    (noFolder : directory.lookup names ≠ some .folder)
    (followed : segments.foldlM directory.follow start = .ok location) :
    segments.foldlM (directory.insert names (.file contents)).follow start = .ok location := by
  induction segments generalizing start with
  | nil => exact followed
  | cons segment rest ih =>
      rw [List.foldlM_cons] at followed ⊢
      have isFolder : directory.entryAt? start = some .folder := by
        rw [follow] at followed
        split at followed
        · assumption
        · cases followed
        · cases followed
      have stays : (directory.insert names (.file contents)).entryAt? start = some .folder := by
        cases start with
        | below other =>
            apply lookup_insert_folder contents _ isFolder
            rintro rfl
            exact noFolder isFolder
        | above => rfl
        | elsewhere => cases isFolder
      rw [follow, isFolder] at followed
      rw [follow, stays]
      exact ih followed

/-- A path that leads to no folder leads to the same place when a file is put there. -/
theorem resolve_insert {path : Path} {entry : Option Entry} (contents : List UInt8)
    (noFolder : directory.lookup names ≠ some .folder)
    (resolved : directory.resolve path = .ok (.below names, entry)) :
    (directory.insert names (.file contents)).resolve path =
      .ok (.below names, some (.file contents)) := by
  rw [resolve] at resolved ⊢
  split at resolved
  · cases resolved
  · next someBytes =>
      rw [if_neg someBytes]
      simp only [bind, Except.bind] at resolved ⊢
      split at resolved
      · cases resolved
      · next followed =>
          rw [foldlM_follow_insert contents noFolder (by
            cases resolved
            exact followed)]
          simp [entryAt?, lookup_insert_self, pure, Except.pure]

theorem entry_of_resolve {path : Path} {entry : Option Entry}
    (resolved : directory.resolve path = .ok (location, entry)) :
    entry = directory.entryAt? location := by
  rw [resolve] at resolved
  split at resolved
  · cases resolved
  · simp only [bind, Except.bind] at resolved
    split at resolved
    · cases resolved
    · cases resolved
      rfl

/-- A file is made where a path leads, if that is no folder. -/
theorem create_eq {path : Path} {made : Directory}
    (created : directory.create path = .ok (made, location)) :
    ∃ names entry, location = .below names ∧ made = directory.insert names (.file []) ∧
      directory.resolve path = .ok (.below names, entry) ∧
      directory.lookup names ≠ some .folder ∧ endsInSlash path = false := by
  cases resolved : directory.resolve path with
  | error fault =>
      simp only [create, resolved, bind, Except.bind] at created
      cases created
  | ok found =>
      simp only [create, resolved, bind, Except.bind] at created
      split at created
      · cases created
      · next names entry noFolder =>
          split at created
          · cases created
          · next noSlash =>
              cases created
              refine ⟨names, entry, rfl, rfl, rfl, ?_, Bool.eq_false_iff.mpr noSlash⟩
              intro isFolder
              exact noFolder ((entry_of_resolve resolved).trans isFolder)
      · cases created

/-- The file that was made at the end of a path is found there with whatever is put into it. -/
theorem find_of_create {path : Path} {made : Directory}
    (created : directory.create path = .ok (made, location)) :
    ∃ names, location = .below names ∧ ∀ contents,
      (made.insert names (.file contents)).find path = .ok (.below names, .file contents) := by
  obtain ⟨names, entry, rfl, rfl, resolved, noFolder, noSlash⟩ := create_eq created
  refine ⟨names, rfl, ?_⟩
  intro contents
  have isFile : (directory.insert names (.file [])).lookup names ≠ some .folder := by
    rw [lookup_insert_self]
    intro isFolder
    cases isFolder
  have again := resolve_insert contents isFile (resolve_insert [] noFolder resolved)
  simp [find, again, noSlash, bind, Except.bind, pure, Except.pure]

end Directory

namespace Database

/-- Bytes that are written to the file of a new database are what is loaded from its path. -/
theorem openFile_of_create {directory made : Directory} {path : Path} {config : Config}
    {database : Database} (created : create directory path config = .ok (made, database)) :
    ∃ handle, database = { inMemory config with file := some handle } ∧
      ∀ bytes : List UInt8, bytes.length < sizeLimit →
        ∃ stored, (handle.writeAll made bytes).map (·.1) = .ok stored ∧
          ∀ loaded, ofBytes bytes = .ok loaded →
            ∃ opened, openFile stored path = .ok { loaded with file := some opened } := by
  cases makes : directory.create path with
  | error fault =>
      simp only [create, Handle.create, makes, bind, Except.bind] at created
      cases created
  | ok found =>
      obtain ⟨made', location⟩ := found
      simp only [create, Handle.create, makes, bind, Except.bind] at created
      cases created
      obtain ⟨names, rfl, finds⟩ := Directory.find_of_create makes
      refine ⟨⟨path, .below names, true, 0⟩, rfl, ?_⟩
      intro bytes small
      have contents : Handle.write ⟨path, .below names, true, 0⟩ [] bytes =
          (bytes, ⟨path, .below names, true, bytes.length⟩) := by
        simp [Handle.write, Handle.seek]
      refine ⟨made.insert names (.file bytes), ?_, ?_⟩
      · simp [Handle.writeAll, Handle.seek, contents, pure, Except.pure, Except.map]
      · intro loaded isLoaded
        refine ⟨⟨path, .below names, false, bytes.length⟩, ?_⟩
        have large : ¬sizeLimit ≤ bytes.length := Nat.not_le.mpr small
        simp [openFile, Handle.openRead, finds, Handle.readAll, Handle.contents,
          Directory.entryAt?, Directory.lookup_insert_self, large, Handle.seek, Handle.read,
          isLoaded, bind, Except.bind, pure, Except.pure]

end Database

end TagTree
