/-
The order in which a program reads and writes its variables.

The order can be listed without running the program: blocks in order, in a block
statements in order, and a statement reads before it writes.  `Access.stray?`
finds the first read in such a list that no write to the same name precedes.  It
takes the names that are known at the start, so a list can be gone through piece
by piece (`stray?_append`).
-/
import RecordQuery.Execution

namespace RecordQuery

/-- What a program does to a variable. -/
inductive Access
  | read (name : String)
  | write (name : String)
  deriving DecidableEq

/-- The variables that the condition of a selection reads, from left to right. -/
def Select.reads (select : Select) : List String :=
  (select.condition.map Condition.reads).getD []

def Operation.reads : Operation → List String
  | select selection | count selection => selection.reads
  | aggregate _ => []
  | arithmetic _ left right => [left, right]
  | percentOf part whole => part.reads ++ whole.reads

/-- An assignment reads what its operation reads and then writes its name. -/
def Statement.accesses (statement : Statement) : List Access :=
  statement.operation.reads.map Access.read ++ statement.target.toList.map Access.write

def Block.accesses (block : Block) : List Access :=
  block.statements.flatMap Statement.accesses

def Program.accesses (program : Program) : List Access :=
  program.blocks.flatMap Block.accesses

namespace Access

/-- Every read comes after a write to the same name. -/
def Settled (accesses : List Access) : Prop :=
  ∀ before name after, accesses = before ++ read name :: after → write name ∈ before

/-- The name of the first read that no write to the same name precedes. -/
def FirstStray (accesses : List Access) (name : String) : Prop :=
  ∃ before after, accesses = before ++ read name :: after ∧ write name ∉ before ∧ Settled before

/-- The first name that is read and is neither known nor written before. -/
def stray? : List String → List Access → Option String
  | _, [] => none
  | known, read name :: rest => if name ∈ known then stray? known rest else some name
  | known, write name :: rest => stray? (name :: known) rest

/-- The names known after some accesses. -/
def learn : List String → List Access → List String
  | known, [] => known
  | known, read _ :: rest => learn known rest
  | known, write name :: rest => learn (name :: known) rest

theorem stray?_append (known : List String) (a b : List Access) :
    stray? known (a ++ b) = (stray? known a).or (stray? (learn known a) b) := by
  induction a generalizing known with
  | nil => rfl
  | cons access rest ih =>
    cases access with
    | read name =>
      simp only [List.cons_append, stray?, learn]
      split
      · exact ih known
      · rfl
    | write name => exact ih (name :: known)

theorem learn_append (known : List String) (a b : List Access) :
    learn known (a ++ b) = learn (learn known a) b := by
  induction a generalizing known with
  | nil => rfl
  | cons access rest ih =>
    cases access with
    | read name => exact ih known
    | write name => exact ih (name :: known)

theorem stray?_reads (known names : List String) :
    stray? known (names.map read) = names.find? fun name => decide (name ∉ known) := by
  induction names with
  | nil => rfl
  | cons name rest ih =>
    by_cases h : name ∈ known
    · simp [stray?, h, ih]
    · simp [stray?, h]

theorem mem_learn {known : List String} {accesses : List Access} {name : String} :
    name ∈ learn known accesses ↔ name ∈ known ∨ write name ∈ accesses := by
  induction accesses generalizing known with
  | nil => simp [learn]
  | cons access rest ih =>
    cases access with
    | read other => simp [learn, ih]
    | write other =>
      simp only [learn, ih, List.mem_cons, write.injEq]
      constructor
      · rintro ((rfl | h) | h)
        · exact .inr (.inl rfl)
        · exact .inl h
        · exact .inr (.inr h)
      · rintro (h | rfl | h)
        · exact .inl (.inr h)
        · exact .inl (.inl rfl)
        · exact .inr h

/-- A read that is not stray has its name known or written before it. -/
theorem stray?_eq_none_iff {known : List String} {accesses : List Access} :
    stray? known accesses = none ↔
      ∀ before name after, accesses = before ++ read name :: after →
        name ∈ learn known before := by
  induction accesses generalizing known with
  | nil => simp [stray?]
  | cons access rest ih =>
    constructor
    · intro h before name after heq
      cases before with
      | nil =>
        obtain ⟨rfl, rfl⟩ : access = read name ∧ rest = after := by simpa using heq
        by_cases hk : name ∈ known
        · exact hk
        · simp [stray?, hk] at h
      | cons first before =>
        obtain ⟨rfl, rfl⟩ : access = first ∧ rest = before ++ read name :: after := by
          simpa using heq
        cases access with
        | read other =>
          by_cases hk : other ∈ known
          · simp only [stray?, hk, if_true] at h
            exact ih.mp h before name after rfl
          · simp [stray?, hk] at h
        | write other => exact ih.mp h before name after rfl
    · intro h
      have hrest : ∀ before name after, rest = before ++ read name :: after →
          name ∈ learn known (access :: before) := fun before name after heq =>
        h (access :: before) name after (by rw [heq, List.cons_append])
      cases access with
      | read name =>
        have hk : name ∈ known := h [] name rest rfl
        simp only [stray?, hk, if_true]
        exact ih.mpr hrest
      | write name => exact ih.mpr hrest

theorem settled_iff {accesses : List Access} : Settled accesses ↔ stray? [] accesses = none := by
  simp [stray?_eq_none_iff, Settled, mem_learn]

theorem exists_of_stray? {known : List String} {accesses : List Access} {name : String}
    (h : stray? known accesses = some name) :
    ∃ before after, accesses = before ++ read name :: after ∧ stray? known before = none ∧
      name ∉ learn known before := by
  induction accesses generalizing known with
  | nil => simp [stray?] at h
  | cons access rest ih =>
    cases access with
    | read other =>
      by_cases hk : other ∈ known
      · simp only [stray?, hk, if_true] at h
        obtain ⟨before, after, rfl, hs, hn⟩ := ih h
        exact ⟨read other :: before, after, rfl, by simpa [stray?, hk] using hs, hn⟩
      · obtain rfl : other = name := by simpa [stray?, hk] using h
        exact ⟨[], rest, rfl, rfl, hk⟩
    | write other =>
      obtain ⟨before, after, rfl, hs, hn⟩ := ih h
      exact ⟨write other :: before, after, rfl, hs, hn⟩

theorem firstStray_of_stray? {accesses : List Access} {name : String}
    (h : stray? [] accesses = some name) : FirstStray accesses name := by
  obtain ⟨before, after, heq, hs, hn⟩ := exists_of_stray? h
  exact ⟨before, after, heq, fun hw => hn (mem_learn.mpr (.inr hw)), settled_iff.mpr hs⟩

end Access

end RecordQuery
