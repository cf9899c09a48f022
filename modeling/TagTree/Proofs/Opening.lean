import TagTree.Proofs.Loading
import TagTree.Proofs.Sequence

/-!
# Opening a file

The version of a database in a file is read from the first bytes alone, and loading reads all of
them. Both judge the header alike: a file whose version cannot be read cannot be loaded, for the
same reason, and a file whose version can be read is loaded if the version is supported.
-/

namespace TagTree

namespace Header

/-- Only the first bytes are looked at. Where there are fewer, as many are reported. -/
theorem parse_take (bytes : List UInt8) : parse (bytes.take size) = parse bytes := by
  by_cases short : bytes.length ≤ size
  · rw [List.take_of_length_le short]
  · have long : ¬bytes.length < size := fun less => short (Nat.le_of_lt less)
    have exactly : (bytes.take size).length = size := by
      rw [List.length_take]
      omega
    have fields (start : Nat) (inside : start + 4 ≤ size) :
        ((bytes.take size).drop start).take 4 = (bytes.drop start).take 4 := by
      rw [List.drop_take, List.take_take, Nat.min_eq_left (by omega)]
    have major : (bytes.take size).take 4 = bytes.take 4 := fields 0 (by decide)
    rw [parse, parse, if_neg long, if_neg (by rw [exactly]; exact Nat.lt_irrefl size), major,
      fields 4 (by decide), fields 8 (by decide)]

theorem parse_of_lt {bytes : List UInt8} (short : bytes.length < size) :
    parse bytes = .error (.format (.truncatedHeader bytes.length)) := by
  rw [parse, if_pos short]

theorem parse_of_ne {bytes : List UInt8} (long : size ≤ bytes.length)
    (mark : (bytes.drop 8).take 4 ≠ magic) :
    parse bytes = .error (.format (.badMagic ((bytes.drop 8).take 4))) := by
  simp only [parse, if_neg (Nat.not_lt.mpr long), if_neg mark]

theorem parse_of_eq {bytes : List UInt8} (long : size ≤ bytes.length)
    (mark : (bytes.drop 8).take 4 = magic) :
    parse bytes = .ok {
      major := UInt32.ofNat (LittleEndian.decode (bytes.take 4))
      minor := UInt32.ofNat (LittleEndian.decode ((bytes.drop 4).take 4)) } := by
  simp only [parse, if_neg (Nat.not_lt.mpr long), if_pos mark]

/-- A word of up to four bytes is the number that they write. -/
theorem toNat_word {chunk : List UInt8} (small : chunk.length ≤ 4) :
    (UInt32.ofNat (LittleEndian.decode chunk)).toNat = Sequence.ofDigits chunk := by
  have fits : LittleEndian.decode chunk < UInt32.size := by
    apply Nat.lt_of_lt_of_le (LittleEndian.decode_lt chunk)
    rw [Sequence.span_eq_pow]
    exact Nat.pow_le_pow_right (by decide) small
  rw [UInt32.toNat_ofNat_of_lt' fits, Sequence.decode_eq_ofDigits]

/-- A header is read if there are enough bytes and the letters stand at their place. -/
theorem exists_parse_iff {bytes : List UInt8} :
    (∃ header, parse bytes = .ok header) ↔
      size ≤ bytes.length ∧ (bytes.drop 8).take 4 = magic := by
  constructor
  · rintro ⟨header, parsed⟩
    have long : size ≤ bytes.length := by
      apply Nat.not_lt.mp
      intro short
      rw [parse_of_lt short] at parsed
      cases parsed
    refine ⟨long, ?_⟩
    by_contra mark
    rw [parse_of_ne long mark] at parsed
    cases parsed
  · rintro ⟨long, mark⟩
    exact ⟨_, parse_of_eq long mark⟩

/-- The versions are the numbers before the letters. -/
theorem words_of_parse {bytes : List UInt8} {header : Header} (parsed : parse bytes = .ok header) :
    header.major.toNat = Sequence.ofDigits (bytes.take 4) ∧
      header.minor.toNat = Sequence.ofDigits ((bytes.drop 4).take 4) := by
  obtain ⟨long, mark⟩ := exists_parse_iff.mp ⟨header, parsed⟩
  rw [parse_of_eq long mark] at parsed
  cases parsed
  exact ⟨toNat_word (List.length_take_le 4 _), toNat_word (List.length_take_le 4 _)⟩

end Header

theorem Directory.entryAt?_of_find {directory : Directory} {path : Path} {location : Location}
    {entry : Entry} (found : directory.find path = .ok (location, entry)) :
    directory.entryAt? location = some entry := by
  cases resolved : directory.resolve path with
  | error fault =>
      simp only [find, resolved, bind, Except.bind] at found
      cases found
  | ok result =>
      obtain ⟨there, stands⟩ := result
      have isThere := entry_of_resolve resolved
      simp only [find, resolved, bind, Except.bind] at found
      split at found
      · cases found
      · next same =>
          cases same
          cases found
          exact isThere.symm
      · next same =>
          cases same
          split at found
          · cases found
          · cases found
            exact isThere.symm

namespace Database

variable {directory : Directory} {path : Path} {location : Location} {bytes : List UInt8}

/-- The version is what the first bytes of the file say. -/
theorem version_eq (found : directory.find path = .ok (location, .file bytes)) :
    version directory path = Header.parse bytes := by
  have stands := Directory.entryAt?_of_find found
  have someBytes : Header.size ≠ 0 := by decide
  simp only [version, Handle.openRead, found, Handle.readPrefix, someBytes, if_false,
    Handle.contents, Handle.seek, Handle.read, stands, bind, Except.bind, pure, Except.pure]
  rw [List.drop_zero, Header.parse_take]

/-- The database is what all bytes of the file make up. -/
theorem openFile_eq (found : directory.find path = .ok (location, .file bytes))
    (small : bytes.length < sizeLimit) :
    openFile directory path = (ofBytes bytes).map fun database =>
      { database with file := some ⟨path, location, false, bytes.length⟩ } := by
  have stands := Directory.entryAt?_of_find found
  have fits : ¬sizeLimit ≤ bytes.length := Nat.not_le.mpr small
  simp only [openFile, Handle.openRead, found, Handle.readAll, Handle.contents, fits, if_false,
    Handle.seek, Handle.read, stands, bind, Except.bind, pure, Except.pure]
  rw [List.drop_zero, List.take_length, Nat.zero_add]
  cases ofBytes bytes with
  | error cause => rfl
  | ok database => rfl

theorem openFile_eq_ok_iff {database : Database}
    (found : directory.find path = .ok (location, .file bytes))
    (small : bytes.length < sizeLimit) :
    openFile directory path = .ok database ↔
      ∃ loaded, ofBytes bytes = .ok loaded ∧
        { loaded with file := some ⟨path, location, false, bytes.length⟩ } = database := by
  rw [openFile_eq found small]
  cases ofBytes bytes with
  | error cause => simp [Except.map]
  | ok loaded => simp [Except.map]

theorem exists_openFile_iff (found : directory.find path = .ok (location, .file bytes))
    (small : bytes.length < sizeLimit) :
    (∃ database, openFile directory path = .ok database) ↔
      ∃ loaded, ofBytes bytes = .ok loaded := by
  constructor
  · rintro ⟨database, opened⟩
    obtain ⟨loaded, accepted, -⟩ := (openFile_eq_ok_iff found small).mp opened
    exact ⟨loaded, accepted⟩
  · rintro ⟨loaded, accepted⟩
    exact ⟨_, (openFile_eq_ok_iff found small).mpr ⟨loaded, accepted, rfl⟩⟩

/-- Bytes are refused for the header alone: as the header is, or for its version. -/
theorem ofBytes_of_error {cause : Error} (refused : Header.parse bytes = .error cause) :
    ofBytes bytes = .error cause := by
  rw [ofBytes, refused]
  rfl

theorem ofBytes_of_unsupported {header : Header} (parsed : Header.parse bytes = .ok header)
    (other : header.major ≠ Header.supportedMajor) :
    ofBytes bytes = .error (.format (.unsupportedVersion header.major)) := by
  simp only [ofBytes, parsed, bind, Except.bind, if_pos other]
  rfl

theorem exists_ofBytes_iff (small : bytes.length < sizeLimit) :
    (∃ database, ofBytes bytes = .ok database) ↔
      ∃ header, Header.parse bytes = .ok header ∧ header.major = Header.supportedMajor := by
  constructor
  · rintro ⟨database, accepted⟩
    obtain ⟨header, image, parsed, supported, -⟩ := ofBytes_eq_ok_iff.mp accepted
    exact ⟨header, parsed, supported⟩
  · rintro ⟨header, parsed, supported⟩
    obtain ⟨image, kept⟩ := Image.ofList_of_lt small
    exact ⟨_, ofBytes_eq_ok_iff.mpr ⟨header, image, parsed, supported, kept, rfl⟩⟩

/-- The version of the database in a file and the database itself are judged by the same bytes. The
version is given for twelve bytes that end in the right letters, and otherwise the reason is what is
wrong with them. The database is there if the version is and is supported. -/
structure JudgedAlike (directory : Directory) (path : Path) (bytes : List UInt8) : Prop where
  succeeds : (∃ header, version directory path = .ok header) ↔
    12 ≤ bytes.length ∧ (bytes.drop 8).take 4 = Header.magic
  words : ∀ header, version directory path = .ok header →
    header.major.toNat = Sequence.ofDigits (bytes.take 4) ∧
      header.minor.toNat = Sequence.ofDigits ((bytes.drop 4).take 4)
  truncated : bytes.length < 12 →
    version directory path = .error (.format (.truncatedHeader bytes.length))
  otherLetters : 12 ≤ bytes.length → (bytes.drop 8).take 4 ≠ Header.magic →
    version directory path = .error (.format (.badMagic ((bytes.drop 8).take 4)))
  opens : (∃ database, openFile directory path = .ok database) ↔
    ∃ header, version directory path = .ok header ∧ header.major = 2
  opened : ∀ database, openFile directory path = .ok database →
    version directory path = .ok database.header ∧ database.image.toList = bytes
  refused : ∀ cause, version directory path = .error cause →
    openFile directory path = .error cause
  unsupported : ∀ header, version directory path = .ok header → header.major ≠ 2 →
    openFile directory path = .error (.format (.unsupportedVersion header.major))

theorem judgedAlike (found : directory.find path = .ok (location, .file bytes))
    (small : bytes.length < sizeLimit) : JudgedAlike directory path bytes := by
  have reads := version_eq found
  have loads := openFile_eq found small
  constructor
  · rw [reads]
    exact Header.exists_parse_iff
  · intro header read
    exact Header.words_of_parse (reads.symm.trans read)
  · intro short
    exact reads.trans (Header.parse_of_lt short)
  · intro long mark
    exact reads.trans (Header.parse_of_ne long mark)
  · rw [reads]
    exact (exists_openFile_iff found small).trans (exists_ofBytes_iff small)
  · intro database opened
    obtain ⟨loaded, accepted, rfl⟩ := (openFile_eq_ok_iff found small).mp opened
    obtain ⟨sameBytes, parsed⟩ := of_ofBytes accepted
    exact ⟨reads.trans parsed, sameBytes⟩
  · intro cause refused
    rw [loads, ofBytes_of_error (reads.symm.trans refused)]
    rfl
  · intro header read other
    rw [loads, ofBytes_of_unsupported (reads.symm.trans read) other]
    rfl

/-- The header of a file is read alike, whether it is read alone or with all that follows it. It is
read back from its bytes whatever follows them, and its bytes are those that it was read from. -/
theorem header_read_alike (found : directory.find path = .ok (location, .file bytes))
    (small : bytes.length < 2 ^ 32) :
    JudgedAlike directory path bytes ∧
      (∀ (header : Header) rest, Header.parse (header.encode ++ rest) = .ok header) ∧
        ∀ front header, Header.parse front = .ok header → header.encode = front.take 12 := by
  refine ⟨judgedAlike found small, Header.parse_encode_append, ?_⟩
  intro front header parsed
  exact Header.encode_of_parse parsed

/-- A file that begins with a header of a version that is not supported. -/
def laterVersionBytes : List UInt8 :=
  (⟨3, 1⟩ : Header).encode ++ [0x01, 0x10]

theorem header_read_alike_laterVersionBytes :
    let directory : Directory := ⟨[([[0x64], [0x61]], .file laterVersionBytes)]⟩
    let path := Path.ofString "d/./a"
    directory.find path = .ok (.below [[0x64], [0x61]], .file laterVersionBytes) ∧
      laterVersionBytes.length < 2 ^ 32 ∧ JudgedAlike directory path laterVersionBytes := by
  intro directory path
  have found : directory.find path = .ok (.below [[0x64], [0x61]], .file laterVersionBytes) := by
    rfl
  have small : laterVersionBytes.length < 2 ^ 32 := by
    decide
  exact ⟨found, small, (header_read_alike found small).1⟩

end Database

end TagTree
