/-
Independent blocks can change places.

A block leaves the variables it does not assign alone (`Block.get?_run`), and what
it computes depends on the variables it reads only (`Block.run_alike`).  So where
neither of two blocks assigns a variable that the other reads or assigns, each
runs alike before and after the other, and the variables afterwards are the same
apart from their order (`Block.runAll_swap`).  The working set and the fields
referred to are new for every block and cannot tell the orders apart.
-/
import RecordQuery.Proofs.Expansion
import RecordQuery.Proofs.FirstAppearance

namespace RecordQuery

/-! ## Computations that succeed together -/

/-- Two computations both stop, each at a fault of its own, or both end, with
related results. -/
def Abreast {α β : Type} (related : α → β → Prop) : Except Fault α → Except Fault β → Prop
  | .ok a, .ok b => related a b
  | .error _, .error _ => True
  | _, _ => False

namespace Abreast

variable {α β γ δ : Type} {related : α → β → Prop} {x : Except Fault α} {y : Except Fault β}

theorem of_alike {looser : α → β → Prop} (h : Alike related x y)
    (hl : ∀ a b, related a b → looser a b) : Abreast looser x y := by
  obtain ⟨fault, rfl, rfl⟩ | ⟨a, b, rfl, rfl, hab⟩ := h.cases
  · trivial
  · exact hl a b hab

theorem cases (h : Abreast related x y) :
    (∃ fault other, x = .error fault ∧ y = .error other) ∨
      ∃ a b, x = .ok a ∧ y = .ok b ∧ related a b := by
  cases x with
  | error fault =>
    cases y with
    | error other => exact .inl ⟨fault, other, rfl, rfl⟩
    | ok b => exact h.elim
  | ok a =>
    cases y with
    | error other => exact h.elim
    | ok b => exact .inr ⟨a, b, rfl, rfl, h⟩

theorem map {other : γ → δ → Prop} {f : α → γ} {g : β → δ} (h : Abreast related x y)
    (hfg : ∀ a b, related a b → other (f a) (g b)) : Abreast other (x.map f) (y.map g) := by
  obtain ⟨fault, stop, rfl, rfl⟩ | ⟨a, b, rfl, rfl, hab⟩ := h.cases
  · trivial
  · exact hfg a b hab

theorem mapM {f : γ → Except Fault α} {g : γ → Except Fault β} {xs : List γ}
    (h : ∀ c ∈ xs, Abreast related (f c) (g c)) :
    Abreast (List.Forall₂ related) (xs.mapM f) (xs.mapM g) := by
  induction xs with
  | nil => exact List.Forall₂.nil
  | cons c rest ih =>
    have hrest := ih fun other hm => h other (List.mem_cons_of_mem _ hm)
    rw [List.mapM_cons, List.mapM_cons]
    obtain ⟨fault, stop, hx, hy⟩ | ⟨a, b, hx, hy, hab⟩ := (h c List.mem_cons_self).cases
    · rw [hx, hy]
      trivial
    · rw [hx, hy]
      obtain ⟨fault, stop, hxs, hys⟩ | ⟨as, bs, hxs, hys, habs⟩ := hrest.cases
      · rw [hxs, hys]
        trivial
      · rw [hxs, hys]
        exact List.Forall₂.cons hab habs

end Abreast

/-! ## Tables that read alike -/

/-- Two tables have the same value under every name, whatever their order. -/
def Table.Same {α : Type} (a b : Table α) : Prop :=
  ∀ name, a.get? name = b.get? name

namespace Table.Same

variable {α : Type} {a b : Table α}

theorem agreeOn (h : a.Same b) (names : List String) : a.AgreeOn names b :=
  fun name _ => h name

theorem put (h : a.Same b) (key : String) (value : α) : (a.put key value).Same (b.put key value) :=
  fun name => by rw [get?_put, get?_put, h name]

theorem put_comm (a : Table α) {first second : String} (hne : first ≠ second) (v w : α) :
    ((a.put first v).put second w).Same ((a.put second w).put first v) := by
  intro name
  simp only [get?_put]
  by_cases h : second = name
  · rw [if_pos h, if_neg fun h' => hne (h'.trans h.symm), if_pos h]
  · rw [if_neg h, if_neg h]

end Table.Same

/-! ## What a block reads and assigns -/

namespace Block

def reads (block : Block) : List String :=
  block.statements.flatMap fun statement => statement.operation.reads

def writes (block : Block) : List String :=
  block.statements.filterMap Statement.target

/-- Neither block assigns a variable that the other reads or assigns. -/
def Independent (first second : Block) : Prop :=
  (∀ name ∈ first.writes, name ∉ second.reads ∧ name ∉ second.writes) ∧
    ∀ name ∈ second.writes, name ∉ first.reads ∧ name ∉ first.writes

instance (first second : Block) : Decidable (first.Independent second) :=
  inferInstanceAs (Decidable (_ ∧ _))

theorem Independent.symm {first second : Block} (h : first.Independent second) :
    second.Independent first :=
  ⟨h.2, h.1⟩

theorem read_mem_accesses {block : Block} {name : String} :
    .read name ∈ block.accesses ↔ name ∈ block.reads := by
  simp [accesses, reads, Statement.accesses]

theorem write_mem_accesses {block : Block} {name : String} :
    .write name ∈ block.accesses ↔ name ∈ block.writes := by
  simp [accesses, writes, Statement.accesses]

/-- From the variables a block reads, no read is stray. -/
theorem stray?_of_reads {block : Block} {known : List String} (h : block.reads ⊆ known) :
    Access.stray? known block.accesses = none := by
  refine Access.stray?_eq_none_iff.mpr fun before name after heq => ?_
  have hread : .read name ∈ block.accesses := heq ▸ List.mem_append_right _ List.mem_cons_self
  exact Access.mem_learn.mpr (.inl (h (read_mem_accesses.mp hread)))

end Block

/-! ## Runs of a block from different variables -/

theorem Statement.get?_keep {statement : Statement} {name : String}
    (h : name ∉ statement.target) (value : Value) (store : Table Value) :
    (statement.keep (.ok value) store).get? name = store.get? name := by
  obtain ⟨target, operation⟩ := statement
  cases target with
  | none => rfl
  | some written =>
    have hne : written ≠ name := fun heq => h (congrArg some heq)
    show (store.put written value).get? name = _
    rw [Table.get?_put, if_neg hne]

theorem Statement.get?_runAll {binding : Binding} {statements : List Statement} {name : String}
    (h : name ∉ statements.filterMap Statement.target) {last : Value} {session : Session}
    {result : Value × Session} (hr : runAll binding last statements session = .ok result) :
    result.2.store.get? name = session.store.get? name := by
  induction statements generalizing last session with
  | nil =>
    cases hr
    rfl
  | cons statement rest ih =>
    have hhead : name ∉ statement.target := fun hm =>
      h (List.mem_filterMap.mpr ⟨statement, List.mem_cons_self, hm⟩)
    have hrest : name ∉ rest.filterMap Statement.target := fun hm =>
      h ((List.mem_filterMap.mp hm).elim fun other ho =>
        List.mem_filterMap.mpr ⟨other, List.mem_cons_of_mem _ ho.1, ho.2⟩)
    simp only [runAll, run_eq] at hr
    cases ho : (statement.operation.run binding session).1 with
    | error fault =>
      rw [ho] at hr
      cases hr
    | ok value =>
      rw [ho] at hr
      exact (ih hrest hr).trans (get?_keep hhead value session.store)

namespace Block

variable {binding : Binding} {block first second : Block} {store other : Table Value}

/-- A block leaves the variables that it does not assign alone. -/
theorem get?_run {name : String} (h : name ∉ block.writes) {result : Value × Table Value}
    (hr : block.run binding store = .ok result) : result.2.get? name = store.get? name := by
  unfold run at hr
  cases hs : Statement.runAll binding .null block.statements (.start store) with
  | error fault =>
    rw [hs] at hr
    cases hr
  | ok ended =>
    rw [hs] at hr
    cases hr
    exact Statement.get?_runAll h hs

/-- From variables that agree on what it reads, a block computes the same value
and assigns the same values. -/
theorem run_agree (h : store.AgreeOn block.reads other) (binding : Binding) :
    Alike (fun a b => a.1 = b.1 ∧ a.2.AgreeOn block.writes b.2)
      (block.run binding store) (block.run binding other) := by
  have hrun := run_alike (stray?_of_reads (List.Subset.refl _)) h binding
  obtain ⟨fault, hx, hy⟩ | ⟨a, b, hx, hy, heq, hab⟩ := hrun.cases
  · rw [hx, hy]
    rfl
  · rw [hx, hy]
    refine ⟨heq, fun name hn => hab name ?_⟩
    exact Access.mem_learn.mpr (.inr (write_mem_accesses.mpr hn))

theorem run_same (block : Block) (h : store.Same other) (binding : Binding) :
    Alike (fun a b => a.1 = b.1 ∧ a.2.Same b.2)
      (block.run binding store) (block.run binding other) := by
  obtain ⟨fault, hx, hy⟩ | ⟨a, b, hx, hy, heq, hab⟩ := (run_agree (h.agreeOn _) binding).cases
  · rw [hx, hy]
    rfl
  · rw [hx, hy]
    refine ⟨heq, fun name => ?_⟩
    by_cases hw : name ∈ block.writes
    · exact hab name hw
    · rw [get?_run hw hx, get?_run hw hy, h name]

theorem runAll_same {values others : Table Value} (hv : values.Same others)
    (hs : store.Same other) (binding : Binding) (blocks : List Block) :
    Alike (fun a b => a.1.Same b.1 ∧ a.2.Same b.2)
      (runAll binding blocks values store) (runAll binding blocks others other) := by
  induction blocks generalizing values others store other with
  | nil => exact ⟨hv, hs⟩
  | cons block rest ih =>
    simp only [runAll]
    obtain ⟨fault, hx, hy⟩ | ⟨⟨v, after⟩, ⟨w, after'⟩, hx, hy, heq, hab⟩ :=
      (run_same block hs binding).cases
    · rw [hx, hy]
      rfl
    · obtain rfl : v = w := heq
      rw [hx, hy]
      exact ih (hv.put block.name v) hab

/-! ## Blocks in the other order -/

/-- A block runs alike after one that assigns nothing it reads. -/
theorem run_after (h : ∀ name ∈ first.writes, name ∉ second.reads)
    {result : Value × Table Value} (hr : first.run binding store = .ok result) :
    Alike (fun a b => a.1 = b.1 ∧ a.2.AgreeOn second.writes b.2)
      (second.run binding store) (second.run binding result.2) :=
  run_agree (fun name hn => (get?_run (fun hw => h name hw hn) hr).symm) binding

/-- Two independent blocks that have run one after the other run alike in the other order,
and leave the same variables. -/
theorem run_both (hi : first.Independent second) {binding : Binding} {v w : Value}
    {left both : Table Value} (hx : first.run binding store = .ok (v, left))
    (hxy : second.run binding left = .ok (w, both)) :
    ∃ right others, second.run binding store = .ok (w, right) ∧
      first.run binding right = .ok (v, others) ∧ both.Same others := by
  obtain ⟨fault, -, h⟩ | ⟨⟨w', right⟩, ⟨_, _⟩, hy, h, hw, hright⟩ :=
    (run_after (fun name hn => (hi.1 name hn).1) hx).cases
  · rw [hxy] at h
    cases h
  rw [hxy] at h
  cases h
  obtain rfl : w' = w := hw
  obtain ⟨fault, h, -⟩ | ⟨⟨_, _⟩, ⟨v', others⟩, h, hyx, hv, hleft⟩ :=
    (run_after (fun name hn => (hi.2 name hn).1) hy).cases
  · rw [hx] at h
    cases h
  rw [hx] at h
  cases h
  obtain rfl : v = v' := hv
  refine ⟨right, others, hy, hyx, fun name => ?_⟩
  -- A variable has the value of the block that assigns it, or the one it had.
  by_cases h₁ : name ∈ first.writes
  · rw [get?_run (hi.1 name h₁).2 hxy]
    exact hleft name h₁
  · rw [get?_run h₁ hyx]
    by_cases h₂ : name ∈ second.writes
    · exact (hright name h₂).symm
    · rw [get?_run h₂ hxy, get?_run h₂ hy, get?_run h₁ hx]

theorem runAll_stops {binding : Binding} (rest : List Block) (values : Table Value)
    (h : ¬ ∃ v left w both, first.run binding store = .ok (v, left) ∧
      second.run binding left = .ok (w, both)) :
    ∃ fault, runAll binding (first :: second :: rest) values store = .error fault := by
  simp only [runAll]
  cases hx : first.run binding store with
  | error fault => exact ⟨fault, rfl⟩
  | ok result =>
    obtain ⟨v, left⟩ := result
    cases hxy : second.run binding left with
    | error fault => exact ⟨fault, by simp only [hxy]⟩
    | ok result => exact absurd ⟨v, left, result.1, result.2, hx, hxy⟩ h

/-- Two independent blocks at the head of several can change places. -/
theorem runAll_swap (hn : first.name ≠ second.name) (hi : first.Independent second)
    (binding : Binding) (rest : List Block) (values store : Table Value) :
    Abreast (fun a b => a.1.Same b.1)
      (runAll binding (first :: second :: rest) values store)
      (runAll binding (second :: first :: rest) values store) := by
  by_cases h : ∃ v left w both, first.run binding store = .ok (v, left) ∧
      second.run binding left = .ok (w, both)
  · obtain ⟨v, left, w, both, hx, hxy⟩ := h
    obtain ⟨right, others, hy, hyx, hsame⟩ := run_both hi hx hxy
    simp only [runAll, hx, hxy, hy, hyx]
    have hrest := runAll_same (Table.Same.put_comm values hn v w) hsame binding rest
    exact Abreast.of_alike hrest fun _ _ hab => hab.1
  · have hback : ¬ ∃ w right v both, second.run binding store = .ok (w, right) ∧
        first.run binding right = .ok (v, both) := by
      rintro ⟨w, right, v, both, hy, hyx⟩
      obtain ⟨left, others, hx, hxy, -⟩ := run_both hi.symm hy hyx
      exact h ⟨v, left, w, others, hx, hxy⟩
    obtain ⟨fault, hl⟩ := runAll_stops rest values h
    obtain ⟨stop, hr⟩ := runAll_stops rest values hback
    rw [hl, hr]
    trivial

theorem runAll_append (binding : Binding) (before after : List Block) (values store : Table Value) :
    runAll binding (before ++ after) values store =
      (runAll binding before values store).bind fun result =>
        runAll binding after result.1 result.2 := by
  induction before generalizing values store with
  | nil => rfl
  | cons block rest ih =>
    simp only [List.cons_append, runAll]
    cases block.run binding store with
    | error fault => rfl
    | ok result => exact ih _ _

end Block

/-! ## Programs -/

namespace Program

theorem assemble_congr {leaves others : List (List String × Table Value)}
    (h : List.Forall₂ (fun a b => a.1 = b.1 ∧ a.2.Same b.2) leaves others) (axes : List Axis)
    (name : String) : assemble axes leaves name = assemble axes others name := by
  unfold assemble
  split
  · cases h with
    | nil => rfl
    | cons hab _ => exact congrArg (·.getD Value.null) (hab.2 name)
  · congr 1
    generalize ([] : List (String × Value)) = fields
    induction h generalizing fields with
    | nil => rfl
    | @cons a b _ _ hab _ ih =>
      obtain ⟨key, values⟩ := a
      obtain ⟨key', values'⟩ := b
      obtain ⟨rfl, hsame⟩ : key = key' ∧ values.Same values' := hab
      simp only [List.foldl_cons, hsame name]
      exact ih _

section Swap

variable (paths : List UsePath) (before after : List Block) {first second : Block}

theorem ownValues_swap (hn : first.name ≠ second.name) (hi : first.Independent second)
    (data : Value) (key : List String) :
    Abreast Table.Same (ownValues ⟨paths, before ++ first :: second :: after⟩ data key)
      (ownValues ⟨paths, before ++ second :: first :: after⟩ data key) := by
  have hleaf : leafOf ⟨paths, before ++ second :: first :: after⟩ data key =
      leafOf ⟨paths, before ++ first :: second :: after⟩ data key := rfl
  unfold ownValues
  rw [hleaf]
  generalize (leafOf ⟨paths, before ++ first :: second :: after⟩ data key).binding = binding
  refine Abreast.map ?_ fun a b (hab : a.1.Same b.1) => hab
  rw [Block.runAll_append, Block.runAll_append]
  cases Block.runAll binding before [] [] with
  | error fault => trivial
  | ok result => exact Block.runAll_swap hn hi binding after result.1 result.2

theorem blockNames_swap (first second : Block) :
    (blockNames ⟨paths, before ++ first :: second :: after⟩).Perm
      (blockNames ⟨paths, before ++ second :: first :: after⟩) := by
  refine (List.perm_ext_iff_of_nodup (nodup_eraseDups _) (nodup_eraseDups _)).mpr fun name => ?_
  rw [List.mem_eraseDups, List.mem_eraseDups]
  exact (((List.Perm.swap second first after).append_left before).map Block.name).mem_iff

theorem run_abreast (hn : first.name ≠ second.name) (hi : first.Independent second)
    (data : Value) :
    Abreast (fun results others => results.Same others ∧ results.Perm others)
      (run ⟨paths, before ++ first :: second :: after⟩ data)
      (run ⟨paths, before ++ second :: first :: after⟩ data) := by
  have hkeys : keys ⟨paths, before ++ second :: first :: after⟩ =
      keys ⟨paths, before ++ first :: second :: after⟩ := rfl
  rw [run_eq, run_eq, hkeys]
  have hleaf : ∀ key ∈ keys ⟨paths, before ++ first :: second :: after⟩,
      Abreast (fun a b => a.1 = b.1 ∧ a.2.Same b.2)
        ((ownValues ⟨paths, before ++ first :: second :: after⟩ data key).map (key, ·))
        ((ownValues ⟨paths, before ++ second :: first :: after⟩ data key).map (key, ·)) :=
    fun key _ => (ownValues_swap paths before after hn hi data key).map fun a b hab => ⟨rfl, hab⟩
  refine (Abreast.mapM hleaf).map fun leaves others h => ?_
  have hnames := blockNames_swap paths before after first second
  simp only [assemble_congr h]
  refine ⟨fun name => ?_, hnames.map _⟩
  rw [Table.get?_tabulate, Table.get?_tabulate]
  simp only [hnames.mem_iff]

end Swap

/-- Two adjacent blocks of different names, neither of which assigns a variable
that the other reads or assigns, can change places: the program still succeeds on
the same data, and every block still has its value, in a result that differs in
its order at most. -/
theorem run_swap (paths : List UsePath) (before after : List Block) {first second : Block}
    (hn : first.name ≠ second.name) (hi : first.Independent second) (data : Value) :
    ((∃ results, run ⟨paths, before ++ first :: second :: after⟩ data = .ok results) ↔
      ∃ results, run ⟨paths, before ++ second :: first :: after⟩ data = .ok results) ∧
    ∀ results others, run ⟨paths, before ++ first :: second :: after⟩ data = .ok results →
      run ⟨paths, before ++ second :: first :: after⟩ data = .ok others →
      (∀ name, results.get? name = others.get? name) ∧ results.Perm others := by
  obtain ⟨fault, stop, hx, hy⟩ | ⟨a, b, hx, hy, hsame, hperm⟩ :=
    (run_abreast paths before after hn hi data).cases
  · simp [hx, hy]
  · rw [hx, hy]
    refine ⟨⟨fun _ => ⟨b, rfl⟩, fun _ => ⟨a, rfl⟩⟩, ?_⟩
    rintro _ _ ⟨⟩ ⟨⟩
    exact ⟨hsame, hperm⟩

/-- A block that keeps the rows of a field in one variable. -/
def keepRows : Block :=
  ⟨"p", [⟨some "u", .select ⟨.named ⟨"x", []⟩, none, false⟩⟩]⟩

/-- A block that keeps the number of some of these rows in another. -/
def countMatches : Block :=
  let matching : Condition := .compare "x" .equal (.literal (.text "y"))
  ⟨"q", [⟨some "w", .count ⟨.named ⟨"x", []⟩, some matching, false⟩⟩]⟩

/-- The field of one of two records. -/
def eitherX : List UsePath :=
  [⟨⟨"a", ["b"]⟩, [], some ⟨"x", []⟩⟩]

def twoRecords : Value :=
  .record [("a", .record [("x", .text "y")]), ("b", .record [("x", .text "z")])]

theorem run_swap_keepRows_countMatches :
    keepRows.name ≠ countMatches.name ∧ keepRows.Independent countMatches ∧
      run ⟨eitherX, [keepRows, countMatches]⟩ twoRecords =
        .ok [("p", .record [("a", .text "y"), ("b", .text "z")]),
          ("q", .record [("a", .int 1), ("b", .int 0)])] ∧
      ((∃ results, run ⟨eitherX, [keepRows, countMatches]⟩ twoRecords = .ok results) ↔
        ∃ results, run ⟨eitherX, [countMatches, keepRows]⟩ twoRecords = .ok results) ∧
      ∀ results others, run ⟨eitherX, [keepRows, countMatches]⟩ twoRecords = .ok results →
        run ⟨eitherX, [countMatches, keepRows]⟩ twoRecords = .ok others →
        (∀ name, results.get? name = others.get? name) ∧ results.Perm others := by
  have hn : keepRows.name ≠ countMatches.name := by decide
  have hi : keepRows.Independent countMatches := by decide
  exact ⟨hn, hi, rfl, run_swap eitherX [] [] hn hi twoRecords⟩

end Program
end RecordQuery
