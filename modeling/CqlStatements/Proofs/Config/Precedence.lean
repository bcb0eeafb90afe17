import CqlStatements.Proofs.Config.Acceptance

/-!
# Which file the settings come from

The first candidate that is a file decides. If it cannot be read, or holds no settings that can be used,
its error is the answer; no other file is tried for it, and the defaults are taken only where there is no
file at all. What lies behind the first file is not looked at. A file that is asked for decides alone as
well, and has to be there. So settings that are found are accepted ones or the defaults, and either can be
written again.
-/
namespace CqlStatements.Config

/-- The path leads to a file, whether it can be read or not. -/
def IsFile (files : Files) (path : String) : Prop := ∃ content, files.entry path = .file content

/-- The path is the first candidate that is a file, and this is what reading it gives. -/
def FirstFile (files : Files) (candidates : List String) (path : String)
    (content : Except Files.Fault String) : Prop :=
  ∃ front back, candidates = front ++ path :: back ∧ (∀ earlier ∈ front, ¬IsFile files earlier) ∧
    files.entry path = .file content

/-- What a settings file comes to, given what reading it gives. -/
inductive Settles (path : String) : Except Files.Fault String → Except LoadError Found → Prop
  | unreadable (fault : Files.Fault) : Settles path (.error fault) (.error (.unreadable fault))
  | malformed {text : String} : Toml.ofText? text = none →
      Settles path (.ok text) (.error (.unusable .malformed))
  | unfit {text : String} {entries : Toml.Entries} : Toml.ofText? text = some entries →
      (∀ c, ¬Takes entries c) → Settles path (.ok text) (.error (.unusable .unfit))
  | refused {text : String} {entries : Toml.Entries} {c : Config} {fault : Fault} :
      Toml.ofText? text = some entries → Takes entries c → c.validate = .error fault →
      Settles path (.ok text) (.error (.unusable fault))
  | accepted {text : String} {entries : Toml.Entries} {c : Config} :
      Toml.ofText? text = some entries → Takes entries c → c.validate = .ok () →
      Settles path (.ok text) (.ok ⟨c, some path⟩)

variable {files files' : Files} {path : String} {candidates front : List String}
  {content : Except Files.Fault String} {answer : Except LoadError Found}

section Loading

theorem exists_settles (path : String) (content : Except Files.Fault String) :
    ∃ answer, Settles path content answer := by
  cases content with
  | error fault => exact ⟨_, .unreadable fault⟩
  | ok text =>
      cases document : Toml.ofText? text with
      | none => exact ⟨_, .malformed document⟩
      | some entries =>
          by_cases fits : ∃ c, Takes entries c
          · obtain ⟨c, takes⟩ := fits
            cases valid : c.validate with
            | error fault => exact ⟨_, .refused document takes valid⟩
            | ok => exact ⟨_, .accepted document takes valid⟩
          · exact ⟨_, .unfit document (not_exists.mp fits)⟩

theorem Settles.loadFrom (settles : Settles path content answer)
    (read : files.read path = content) : loadFrom files path = answer := by
  rw [Config.loadFrom, load, read]
  cases settles with
  | unreadable fault => rfl
  | malformed document =>
      simp only [ofTomlText, document]
      rfl
  | unfit document unfit =>
      have missed := Option.eq_none_iff_forall_ne_some.mpr fun c =>
        mt ofEntries?_eq_some_iff.mp (unfit c)
      simp only [ofTomlText, document, missed]
      rfl
  | refused document takes refused =>
      simp only [ofTomlText, document, ofEntries?_eq_some_iff.mpr takes, refused]
      rfl
  | accepted document takes valid =>
      simp only [ofTomlText, document, ofEntries?_eq_some_iff.mpr takes, valid]
      rfl

theorem settles_iff : Settles path (files.read path) answer ↔ loadFrom files path = answer := by
  constructor
  · exact fun settles => settles.loadFrom rfl
  · intro loaded
    obtain ⟨other, settles⟩ := exists_settles path (files.read path)
    rwa [← loaded, settles.loadFrom rfl]

/-- Only what is read from the file counts. -/
theorem loadFrom_congr (read : files'.read path = files.read path) :
    loadFrom files' path = loadFrom files path := by
  rw [loadFrom, loadFrom, load, load, read]

theorem read_of_entry (entry : files.entry path = .file content) : files.read path = content := by
  rw [Files.read, entry]
  rfl

theorem read_of_absent {fault : Files.Fault} (entry : files.entry path = .absent fault) :
    files.read path = .error fault := by
  rw [Files.read, entry]
  rfl

end Loading

section Candidates

theorem firstExisting_append (missing : ∀ earlier ∈ front, ¬IsFile files earlier)
    (paths : List String) :
    firstExisting files (front ++ paths) = firstExisting files paths := by
  induction front with
  | nil => rfl
  | cons earlier front ih =>
      rw [List.forall_mem_cons] at missing
      rw [List.cons_append, firstExisting]
      split
      · rename_i content entry
        exact absurd ⟨content, entry⟩ missing.1
      · exact ih missing.2
      · exact ih missing.2

theorem firstExisting_cons (entry : files.entry path = .file content) (paths : List String) :
    firstExisting files (path :: paths) = loadFrom files path := by
  rw [firstExisting, entry]

theorem firstExisting_of_no_file (missing : ∀ candidate ∈ candidates, ¬IsFile files candidate) :
    firstExisting files candidates = .ok ⟨{}, none⟩ := by
  rw [← List.append_nil candidates, firstExisting_append missing, firstExisting]

theorem FirstFile.firstExisting (first : FirstFile files candidates path content) :
    firstExisting files candidates = loadFrom files path := by
  obtain ⟨front, back, rfl, missing, entry⟩ := first
  rw [firstExisting_append missing, firstExisting_cons entry]

theorem FirstFile.settles_iff (first : FirstFile files candidates path content) :
    Settles path content answer ↔ Config.firstExisting files candidates = answer := by
  obtain ⟨front, back, -, -, entry⟩ := id first
  rw [first.firstExisting, ← Config.settles_iff, read_of_entry entry]

theorem firstFile_or_no_file (files : Files) (candidates : List String) :
    (∃ path content, FirstFile files candidates path content) ∨
      ∀ candidate ∈ candidates, ¬IsFile files candidate := by
  induction candidates with
  | nil => exact Or.inr (List.forall_mem_nil _)
  | cons candidate candidates ih =>
      by_cases is_file : IsFile files candidate
      · obtain ⟨content, entry⟩ := is_file
        exact Or.inl ⟨candidate, content, [], candidates, rfl, List.forall_mem_nil _, entry⟩
      · rcases ih with ⟨path, content, front, back, rfl, missing, entry⟩ | missing
        · have missing' : ∀ earlier ∈ candidate :: front, ¬IsFile files earlier :=
            List.forall_mem_cons.mpr ⟨is_file, missing⟩
          exact Or.inl ⟨path, content, candidate :: front, back, rfl, missing', entry⟩
        · exact Or.inr (List.forall_mem_cons.mpr ⟨is_file, missing⟩)

theorem firstExisting_eq_iff :
    firstExisting files candidates = answer ↔
      (∃ path content, FirstFile files candidates path content ∧ Settles path content answer) ∨
        ((∀ candidate ∈ candidates, ¬IsFile files candidate) ∧ answer = .ok ⟨{}, none⟩) := by
  constructor
  · intro found
    rcases firstFile_or_no_file files candidates with ⟨path, content, first⟩ | missing
    · exact Or.inl ⟨path, content, first, first.settles_iff.mpr found⟩
    · exact Or.inr ⟨missing, found.symm.trans (firstExisting_of_no_file missing)⟩
  · intro decided
    rcases decided with ⟨path, content, first, settles⟩ | ⟨missing, same⟩
    · exact first.settles_iff.mp settles
    · rw [same]
      exact firstExisting_of_no_file missing

/-- Settings without a path are the defaults, and these are found where there is no file. -/
theorem firstExisting_defaults_iff :
    (∃ c, firstExisting files candidates = .ok ⟨c, none⟩) ↔
      ∀ candidate ∈ candidates, ¬IsFile files candidate := by
  constructor
  · intro found
    obtain ⟨c, found⟩ := found
    rcases firstExisting_eq_iff.mp found with ⟨path, content, -, settles⟩ | ⟨missing, -⟩
    · cases settles
    · exact missing
  · exact fun missing => ⟨_, firstExisting_of_no_file missing⟩

/-- Behind the first file neither the candidates nor what they lead to matter. -/
theorem firstExisting_congr (missing : ∀ earlier ∈ front, ¬IsFile files earlier)
    (is_file : IsFile files path)
    (same : ∀ looked ∈ front ++ [path], files'.entry looked = files.entry looked)
    (back back' : List String) :
    firstExisting files' (front ++ path :: back') = firstExisting files (front ++ path :: back) := by
  rw [List.forall_mem_append, List.forall_mem_singleton] at same
  obtain ⟨content, entry⟩ := is_file
  have entry' := same.2.trans entry
  have missing' : ∀ earlier ∈ front, ¬IsFile files' earlier := by
    intro earlier mem
    rw [IsFile, same.1 earlier mem]
    exact missing earlier mem
  rw [firstExisting_append missing, firstExisting_append missing', firstExisting_cons entry,
    firstExisting_cons entry']
  exact loadFrom_congr ((read_of_entry entry').trans (read_of_entry entry).symm)

end Candidates

section Prioritised

/-- How settings are searched for: among candidates, or at a path in their place. -/
structure Prioritised (files : Files) (candidates : List String) : Prop where
  /-- The first candidate that is a file decides; if there is none, the defaults are the answer. -/
  answer : ∀ answer, firstExisting files candidates = answer ↔
    (∃ path content, FirstFile files candidates path content ∧ Settles path content answer) ∨
      ((∀ candidate ∈ candidates, ¬IsFile files candidate) ∧ answer = .ok ⟨{}, none⟩)
  defaults : (∃ c, firstExisting files candidates = .ok ⟨c, none⟩) ↔
    ∀ candidate ∈ candidates, ¬IsFile files candidate
  /-- Behind the first file neither the candidates nor what they lead to matter. -/
  behind : ∀ front path back, candidates = front ++ path :: back →
    (∀ earlier ∈ front, ¬IsFile files earlier) → IsFile files path →
    ∀ (files' : Files) (back' : List String),
      (∀ looked ∈ front ++ [path], files'.entry looked = files.entry looked) →
      firstExisting files' (front ++ path :: back') = firstExisting files candidates
  explicit : ∀ path, Settles path (files.read path) (discover files candidates (some path))
  missing : ∀ path fault, files.entry path = .absent fault →
    discover files candidates (some path) = .error (.unreadable fault)
  /-- In place of the candidates nothing but the file counts. -/
  alone : ∀ path (files' : Files) (candidates' : List String), files'.read path = files.read path →
    discover files' candidates' (some path) = discover files candidates (some path)

theorem prioritised (files : Files) (candidates : List String) : Prioritised files candidates where
  answer _ := firstExisting_eq_iff
  defaults := firstExisting_defaults_iff
  behind front path back split missing is_file files' back' same := by
    rw [split]
    exact firstExisting_congr missing is_file same back back'
  explicit _ := settles_iff.mpr rfl
  missing path fault absent := by
    have settles : Settles path (.error fault) (.error (.unreadable fault)) := .unreadable fault
    exact settles.loadFrom (read_of_absent absent)
  alone _ _ _ read := loadFrom_congr read

end Prioritised

section Written

variable {found : Found}

theorem Settles.writable (settles : Settles path content (.ok found)) : found.config.Writable := by
  cases settles with
  | accepted document takes valid =>
      exact writable_of_accepted (ofTomlText_eq_ok_iff.mpr ⟨_, document, takes, valid⟩)

theorem writable_defaults : ({} : Config).Writable := by
  show ((30 : UInt64).toNat : Int) ≤ Int64.maxValue.toInt
  decide

theorem writable_of_discover {asked : Option String}
    (discovered : discover files candidates asked = .ok found) : found.config.Writable := by
  cases asked with
  | some path => exact (settles_iff.mpr discovered).writable
  | none =>
      rcases firstExisting_eq_iff.mp discovered with ⟨path, content, -, settles⟩ | ⟨-, same⟩
      · exact settles.writable
      · obtain rfl := Except.ok.inj same
        exact writable_defaults

end Written

end CqlStatements.Config
