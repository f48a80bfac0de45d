/-
How loading a file ends.

The files of a command may hold any bytes.  Loading one either has a result or reports that
the file cannot be used, but for two kinds of content: a configuration that is no text,
and a configuration or data in which reading JSON comes to an integer that is too
long.  These end the command without a report (`loading_settles`).
-/
import RecordQuery.Command.Execution
import RecordQuery.Proofs.Loading.Encoding
import RecordQuery.Proofs.Loading.Integers

namespace RecordQuery
namespace Command

open Text (unifyLineEnds)
open Text.Utf8 (encode decode decodeFrom)

/-- The content of a file is no text. -/
def File.Undecodable (file : File) : Prop :=
  ∃ bytes, file = .bytes bytes ∧ ∀ cs, bytes ≠ encode cs

/-- The content of a file is a text in which reading JSON comes to an integer of so many
digits, which are too many. -/
def File.MeetsOverlong (file : File) (n : Nat) : Prop :=
  ∃ cs, file = .bytes (encode cs) ∧ Json.MeetsOverlong (unifyLineEnds cs) n

/-- Loading has a result, or reports a value that cannot be used. -/
inductive Settles {α : Type} : Except Failure α → Prop
  | result (result : α) : Settles (.ok result)
  | report (problem : String) : Settles (.error (.usage ("Invalid value: " ++ problem)))

section

variable {α β : Type}

theorem Settles.map {outcome : Except Failure α} (h : Settles outcome) (f : α → β) :
    Settles (outcome.map f) := by
  cases h with
  | result result => exact .result (f result)
  | report problem => exact .report problem

theorem not_settles_abort {abort : Abort} :
    ¬ Settles (.error (.abort abort) : Except Failure α) :=
  nofun

theorem settles_of_message {message : String} (problem : String)
    (h : message.toList = "Invalid value: ".toList ++ problem.toList) :
    Settles (.error (.usage message) : Except Failure α) := by
  rw [String.toList_inj.mp (h.trans String.toList_append.symm)]
  exact .report problem

end

variable {world : World} {name : String}

/-! ## Texts -/

/-- A text is read from a file exactly if the content of the file is one. -/
theorem readFile_eq_ok {description : String} {cs : List Char} :
    readFile world name description = .ok cs ↔
      ∃ text, world.file name = .bytes (encode text) ∧ cs = unifyLineEnds text := by
  unfold readFile
  constructor
  · intro h
    dsimp only at h
    split at h
    · cases h
    · cases h
    · cases h
    · next bytes hfile =>
      split at h
      · next text htext =>
        cases h
        exact ⟨text, hfile.trans (congrArg _ (Text.Utf8.decode_eq_ok.mp htext)), rfl⟩
      · cases h
  · rintro ⟨text, hfile, rfl⟩
    simp only [hfile, Text.Utf8.decode_eq_ok.mpr rfl]

theorem readFile_settles (description : String) : Settles (readFile world name description) := by
  have hrefuse : ∀ problem : String, Settles (.error (.usage
      s!"Invalid value: {description} '{name}' {problem}") : Except Failure (List Char)) := by
    intro problem
    refine settles_of_message s!"{description} '{name}' {problem}" ?_
    simp [toString]
  unfold readFile
  dsimp only
  split
  · exact hrefuse _
  · refine settles_of_message s!"Permission denied for '{name}'" ?_
    simp [toString]
  · exact hrefuse _
  · split
    · exact .result _
    · exact hrefuse _

theorem readQuery_settles (inline : Option String) : Settles (readQuery world name inline) := by
  unfold readQuery
  split
  · exact .result _
  · split
    · exact .report "--query can only be used when QUERY_FILE is '-'"
    · exact (readFile_settles _).map _

/-! ## Data -/

/-- Loading data settles unless reading JSON comes to an integer that is too long. -/
theorem readData_ends : Settles (readData world name) ∨
    ∃ n, (world.file name).MeetsOverlong n ∧
      readData world name = .error (.abort (.fault (.unreadableInteger n))) := by
  unfold readData
  split
  · next failure hfile =>
    have hsettles : Settles (readFile world name "Data file") := readFile_settles _
    rw [hfile] at hsettles
    cases hsettles with
    | report problem => exact .inl (.report problem)
  · next cs hfile =>
    obtain ⟨text, htext, rfl⟩ := readFile_eq_ok.mp hfile
    split
    · exact .inl (.result _)
    · next message _ =>
      refine .inl (settles_of_message s!"Invalid JSON in '{name}': {message}" ?_)
      simp [toString]
    · next fault hread =>
      obtain ⟨n, hn, rfl⟩ := Json.read_eq_unreadable.mp hread
      exact .inr ⟨n, ⟨text, htext, hn⟩, rfl⟩

theorem readData_of_meetsOverlong {n : Nat} (h : (world.file name).MeetsOverlong n) :
    readData world name = .error (.abort (.fault (.unreadableInteger n))) := by
  obtain ⟨text, htext, hn⟩ := h
  have hfile : readFile world name "Data file" = .ok (unifyLineEnds text) :=
    readFile_eq_ok.mpr ⟨text, htext, rfl⟩
  simp only [readData, hfile, Json.read_eq_unreadable.mpr ⟨n, hn, rfl⟩]

theorem readData_settles :
    Settles (readData world name) ↔ ∀ n, ¬ (world.file name).MeetsOverlong n := by
  constructor
  · intro h n hn
    rw [readData_of_meetsOverlong hn] at h
    exact not_settles_abort h
  · intro h
    exact readData_ends.resolve_right fun ⟨n, hn, _⟩ => h n hn

/-! ## Configurations -/

/-- What the name of a configuration leads to.  An empty name is that of the directory. -/
def configFile (world : World) (name : String) : File :=
  if name.isEmpty then .directory else world.file name

theorem loadSettings_eq_undecodable {error : Text.Utf8.Error} :
    loadSettings world name = .error (.undecodableConfig error) ↔
      ∃ bytes, configFile world name = .bytes bytes ∧ decode bytes = .error error := by
  unfold loadSettings
  constructor
  · intro h
    split at h
    · cases h
    · cases h
    · cases h
    · next bytes hfile =>
      refine ⟨bytes, hfile, ?_⟩
      split at h
      · next herror =>
        cases h
        exact herror
      · split at h
        · cases h
        · cases h
        · split at h <;> cases h
  · rintro ⟨bytes, hfile, herror⟩
    rw [configFile] at hfile
    simp only [hfile, herror]

theorem loadSettings_eq_fault {fault : Fault} :
    loadSettings world name = .error (.fault fault) ↔
      ∃ n, (configFile world name).MeetsOverlong n ∧ fault = .unreadableInteger n := by
  unfold loadSettings
  constructor
  · intro h
    split at h
    · cases h
    · cases h
    · cases h
    · next bytes hfile =>
      split at h
      · cases h
      · next text htext =>
        obtain rfl := Text.Utf8.decode_eq_ok.mp htext
        split at h
        · cases h
        · next hread =>
          cases h
          obtain ⟨n, hn, rfl⟩ := Json.read_eq_unreadable.mp hread
          exact ⟨n, ⟨text, hfile, hn⟩, rfl⟩
        · split at h <;> cases h
  · rintro ⟨n, ⟨text, hfile, hn⟩, rfl⟩
    rw [configFile] at hfile
    simp only [hfile, Text.Utf8.decode_eq_ok.mpr rfl, Json.read_eq_unreadable.mpr ⟨n, hn, rfl⟩]

/-- Loading a configuration has settings or reports it malformed exactly if its content is a
text in which reading JSON does not come to an integer that is too long. -/
theorem loadSettings_settles :
    ((∃ settings, loadSettings world name = .ok settings) ∨
        loadSettings world name = .error .malformedConfig) ↔
      ¬ (configFile world name).Undecodable ∧
        ∀ n, ¬ (configFile world name).MeetsOverlong n := by
  constructor
  · intro h
    constructor
    · rintro ⟨bytes, hfile, htext⟩
      obtain ⟨error, herror⟩ := Text.Utf8.decode_eq_error.mpr htext
      have hload := loadSettings_eq_undecodable.mpr ⟨bytes, hfile, herror⟩
      obtain ⟨settings, h⟩ | h := h <;> cases h.symm.trans hload
    · intro n hn
      have hload := loadSettings_eq_fault.mpr ⟨n, hn, rfl⟩
      obtain ⟨settings, h⟩ | h := h <;> cases h.symm.trans hload
  · rintro ⟨htext, hinteger⟩
    cases h : loadSettings world name with
    | ok settings => exact .inl ⟨settings, rfl⟩
    | error abort =>
      cases abort with
      | malformedConfig => exact .inr rfl
      | undecodableConfig error =>
        obtain ⟨bytes, hfile, herror⟩ := loadSettings_eq_undecodable.mp h
        exact absurd ⟨bytes, hfile, Text.Utf8.decode_eq_error.mp ⟨error, herror⟩⟩ htext
      | fault fault =>
        obtain ⟨n, hn, -⟩ := loadSettings_eq_fault.mp h
        exact absurd hn (hinteger n)

/-! ## Every file -/

/-- Whatever the files of a command hold, loading one has a result or reports that it cannot
be used, except for a configuration that is no text, and a configuration or data in which
reading JSON comes to an integer that is too long. -/
theorem loading_settles (world : World) (name : String) :
    (((∃ settings, loadSettings world name = .ok settings) ∨
        loadSettings world name = .error .malformedConfig) ↔
      ¬ (configFile world name).Undecodable ∧
        ∀ n, ¬ (configFile world name).MeetsOverlong n) ∧
    (∀ description, Settles (readFile world name description)) ∧
    (∀ inline, Settles (readQuery world name inline)) ∧
    (Settles (readData world name) ↔ ∀ n, ¬ (world.file name).MeetsOverlong n) :=
  ⟨loadSettings_settles, readFile_settles, readQuery_settles, readData_settles⟩

/-- What escapes from loading the configuration ends the command line. -/
theorem execute_of_loadSettings {args : List String} {abort : Abort}
    (h : loadSettings world (configName args) = .error abort) :
    execute world args = .error abort := by
  unfold execute
  exact bind_eq_error.mpr (.inl h)

/-- A text of ones only, one more than an integer may have digits. -/
def manyOnes : List Char :=
  List.replicate (digitLimit + 1) '1'

theorem meetsOverlong_manyOnes :
    (File.bytes (encode manyOnes)).MeetsOverlong (digitLimit + 1) := by
  have hdigits : ∀ c ∈ manyOnes, c = '1' := fun c hc => List.eq_of_mem_replicate hc
  have hunify : unifyLineEnds manyOnes = manyOnes := by
    refine Text.unifyLineEnds_of_not_mem fun hreturn => ?_
    exact absurd (hdigits _ hreturn) (by decide)
  have hskip : Json.skip manyOnes = manyOnes := by
    rw [manyOnes, List.replicate_succ]
    exact List.dropWhile_cons_of_neg (by decide)
  refine ⟨manyOnes, rfl, manyOnes, ?_, manyOnes, [], .inl ?_, ?_, ?_, nofun, ?_, ?_⟩
  · rw [hunify, hskip]
    exact .here
  · exact (List.append_nil _).symm
  · exact fun c hc => hdigits c hc ▸ rfl
  · rw [manyOnes, List.replicate_succ]
    decide
  · exact List.length_replicate
  · exact Nat.lt_succ_self digitLimit

/-- Three contents that end a command without a report: a configuration that is no text,
and a number of too many digits as a configuration and as data. -/
theorem loading_escapes :
    execute ⟨fun name => if name = ".ssoql.json" then .bytes [0xff] else .bytes [], "", false⟩
        ["tokens", "q"] = .error (.undecodableConfig ⟨.start, 0xff, 0, 1⟩) ∧
      loadSettings ⟨fun _ => .bytes (encode manyOnes), "", false⟩ ".ssoql.json" =
        .error (.fault (.unreadableInteger (digitLimit + 1))) ∧
      readData ⟨fun _ => .bytes (encode manyOnes), "", false⟩ "d" =
        .error (.abort (.fault (.unreadableInteger (digitLimit + 1)))) := by
  refine ⟨?_, ?_, ?_⟩
  · refine execute_of_loadSettings (loadSettings_eq_undecodable.mpr ⟨[0xff], rfl, ?_⟩)
    rw [decode, decodeFrom]
    rfl
  · exact loadSettings_eq_fault.mpr ⟨_, meetsOverlong_manyOnes, rfl⟩
  · exact readData_of_meetsOverlong meetsOverlong_manyOnes

end Command
end RecordQuery
