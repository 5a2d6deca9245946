import Retrieval.Files
import Retrieval.Proofs.Steps
import Retrieval.Proofs.Table

/-!
# Files that are stored

To store a file, the directories on the way to it are made, and then it is put into its place, which holds no directory.
Making directories only adds to what is there (`extends_makeDirectories`), and following a path looks at directories
only (`follow_of_directories`). So a file that was stored is read back, and a file in another place is as it was
(`read_of_store`, `read_other_of_store`).
-/

set_option autoImplicit false

namespace Retrieval.Files

/-! ### Places -/

theorem at?_insert_self {place : Path} (files : Files) (entry : FileEntry) (proper : place.isUpward = false) :
    Files.at? (files.insert place entry) place = some entry := by
  rw [at?, proper, Table.get?_insert]
  simp

theorem at?_insert_of_ne {place other : Path} (files : Files) (entry : FileEntry) (ne : other ≠ place) :
    Files.at? (files.insert place entry) other = files.at? other := by
  rw [at?, at?, Table.get?_insert, if_neg ne]

/-- A place that holds no directory does not only lead upwards. -/
theorem not_isUpward {files : Files} {place : Path} (h : files.at? place ≠ some .directory) :
    place.isUpward = false := by
  cases upward : place.isUpward with
  | false => rfl
  | true =>
    rw [at?, upward] at h
    exact absurd rfl h

/-- Whether all that is in some place stays in it. -/
def Extends (files later : Files) : Prop := ∀ place entry, files.at? place = some entry → later.at? place = some entry

theorem Extends.refl (files : Files) : files.Extends files := fun _ _ found => found

theorem Extends.trans {files middle later : Files} (h : files.Extends middle) (h' : middle.Extends later) :
    files.Extends later :=
  fun place entry found => h' place entry (h place entry found)

/-- What is put into an empty place leaves all others as they are. -/
theorem extends_insert {files : Files} {place : Path} (free : files.at? place = none) (entry : FileEntry) :
    files.Extends (files.insert place entry) := by
  intro other e found
  have ne : other ≠ place := by
    rintro rfl
    rw [free] at found
    cases found
  rw [at?_insert_of_ne files entry ne, found]

/-- A path leads to the same place as long as the directories on its way are there. -/
theorem follow_of_directories {files later : Files}
    (kept : ∀ place, files.at? place = some .directory → later.at? place = some .directory) {names : List String}
    {place found : Path} (h : files.follow place names = .ok found) : later.follow place names = .ok found := by
  induction names generalizing place with
  | nil => exact h
  | cons name names ih =>
    rw [follow] at h ⊢
    cases here : files.at? place with
    | none =>
      rw [here] at h
      cases h
    | some entry =>
      rw [here] at h
      cases entry with
      | file data => cases h
      | directory =>
        rw [kept place here]
        dsimp only at h ⊢
        split at h
        · cases h
        · rename_i fits
          rw [if_neg fits]
          exact ih h

theorem locate_of_directories {files later : Files}
    (kept : ∀ place, files.at? place = some .directory → later.at? place = some .directory) {path found : Path}
    (h : files.locate path = .ok found) : later.locate path = .ok found := by
  rw [locate, followText] at h ⊢
  split at h
  · cases h
  · rename_i proper
    rw [if_neg proper]
    split at h
    · cases h
    · rename_i some_text
      rw [if_neg some_text]
      split at h
      · cases h
      · rename_i fits
        rw [if_neg fits]
        exact follow_of_directories kept h

/-! ### Directories that are made -/

theorem run_get (files : Files) : (get : Change Files).run files = (.ok files, files) := rfl

theorem run_ofExcept {α : Type} (r : Except FileError α) (files : Files) :
    (ofExcept r : Change α).run files = (r, files) := by
  cases r with
  | error e => rfl
  | ok a => rfl

theorem run_makeDirectory (path : Path) (files : Files) :
    (makeDirectory path).run files =
      match files.locate path with
      | .error e => (.error e, files)
      | .ok place =>
        match files.at? place with
        | some .directory => (.ok (), files)
        | some (.file _) => (.error .occupied, files)
        | none => (.ok (), files.insert place .directory) := by
  rw [makeDirectory, run_bind_ok (run_get files), run_bind, run_ofExcept]
  cases files.locate path with
  | error e => rfl
  | ok place =>
    dsimp only
    rw [run_bind_ok (run_get files)]
    cases files.at? place with
    | none => rfl
    | some entry => cases entry <;> rfl

theorem extends_makeDirectory (path : Path) (files : Files) : files.Extends ((makeDirectory path).run files).2 := by
  rw [run_makeDirectory]
  cases files.locate path with
  | error e => exact .refl files
  | ok place =>
    dsimp only
    cases here : files.at? place with
    | none => exact extends_insert here .directory
    | some entry => cases entry <;> exact .refl files

/-- Each directory on the way is added to what is there. -/
theorem extends_makeDirectories (rooted : Bool) (names : List String) (files : Files) :
    files.Extends ((makeDirectories rooted names).run files).2 := by
  induction names generalizing files with
  | nil => exact .refl files
  | cons name earlier ih =>
    have first := extends_makeDirectory ⟨rooted, (name :: earlier).reverse⟩ files
    rw [makeDirectories, run_tryCatch]
    cases made : (makeDirectory ⟨rooted, (name :: earlier).reverse⟩).run files with
    | mk r files₁ =>
      rw [made] at first
      cases r with
      | ok u => exact first
      | error e =>
        cases e with
        | notFound =>
          dsimp only
          have second := ih files₁
          rw [run_bind]
          cases earlierMade : (makeDirectories rooted earlier).run files₁ with
          | mk r' files₂ =>
            rw [earlierMade] at second
            cases r' with
            | ok u => exact (first.trans second).trans (extends_makeDirectory _ files₂)
            | error e' => exact first.trans second
        | _ => exact first

/-! ### Files that are put into their places -/

/-- What storing a file does if it succeeds. -/
theorem exists_of_store {files later : Files} {path : String} {data : ByteArray}
    (h : (store path data).run files = (.ok (), later)) :
    ∃ made place, files.Extends made ∧ made.locate (.ofText path) = .ok place ∧ made.at? place ≠ some .directory ∧
      later = made.insert place (.file data) := by
  rw [store] at h
  obtain ⟨_, made, directories, h⟩ := exists_of_run_bind h
  have grown := extends_makeDirectories (Path.ofText path).rooted (Path.ofText path).parent.names.reverse files
  rw [directories] at grown
  rw [write, run_bind_ok (run_get made)] at h
  obtain ⟨place, files₁, located, h⟩ := exists_of_run_bind h
  rw [run_ofExcept] at located
  obtain ⟨found, rfl⟩ := Prod.mk.inj located
  rw [fill, run_bind_ok (run_get made)] at h
  refine ⟨made, place, grown, found, ?_⟩
  cases here : made.at? place with
  | none =>
    rw [here] at h
    cases h
    exact ⟨by simp, rfl⟩
  | some entry =>
    rw [here] at h
    cases entry with
    | directory => cases h
    | file before =>
      cases h
      exact ⟨by simp, rfl⟩

/-- Putting a file into a place that holds no directory takes no directory away. -/
theorem directories_insert {files : Files} {place : Path} (proper : files.at? place ≠ some .directory)
    (data : ByteArray) (other : Path) (h : files.at? other = some .directory) :
    Files.at? (files.insert place (.file data)) other = some .directory := by
  have ne : other ≠ place := by
    rintro rfl
    exact proper h
  rw [at?_insert_of_ne files _ ne, h]

theorem contents_of_at? {files : Files} {place : Path} {data : ByteArray} (h : files.at? place = some (.file data)) :
    files.contents place = .ok data := by
  rw [contents, h]

theorem at?_of_contents {files : Files} {place : Path} {data : ByteArray} (h : files.contents place = .ok data) :
    files.at? place = some (.file data) := by
  rw [contents] at h
  split at h
  · cases h
  · cases h
  · rename_i here
    cases h
    exact here

/-- A file that was stored is read back. -/
theorem read_of_store {files later : Files} {path : String} {data : ByteArray}
    (h : (store path data).run files = (.ok (), later)) : later.read path = .ok data := by
  obtain ⟨made, place, -, found, proper, rfl⟩ := exists_of_store h
  have located := locate_of_directories (directories_insert proper data) found
  rw [read, bind_eq located]
  exact contents_of_at? (at?_insert_self made _ (not_isUpward proper))

/-- A file is as it was after another one was stored, if the two are not in the same place. -/
theorem read_other_of_store {files later : Files} {path other : String} {data text : ByteArray}
    (h : (store path data).run files = (.ok (), later)) (before : files.read other = .ok text)
    (apart : later.locate (.ofText other) ≠ later.locate (.ofText path)) : later.read other = .ok text := by
  obtain ⟨made, place, grown, found, proper, rfl⟩ := exists_of_store h
  obtain ⟨place', found', held⟩ := exists_of_bind before
  have located := locate_of_directories (directories_insert proper data) found
  have located' := locate_of_directories (fun q here => directories_insert proper data q (grown q _ here)) found'
  have ne : place' ≠ place := by
    rintro rfl
    exact apart (located'.trans located.symm)
  rw [read, bind_eq located']
  refine contents_of_at? ?_
  rw [at?_insert_of_ne made _ ne]
  exact grown _ _ (at?_of_contents held)

end Retrieval.Files
