/-
Percentages of all rows.

A percentage whose second selection is left out compares with a selection of everything.
That reads from the source that exposes most of the fields which the block has referred
to so far, and of several such sources from the one declared first (`Binding.Leads`); the
first selection need not have read from there.

A selection that does not spread lists has at most as many rows as its source
(`Select.run_length_le`), and rounding does not take a quotient beyond a bound with few
bits (`Double.nearest_le_of_le`).  So the percentage is at most a hundred where both
selections read from one source (`Operation.run_percentOf_everything`).
-/
import RecordQuery.Proofs.Overflow.Runs
import RecordQuery.Proofs.Selection.Choice
import RecordQuery.Proofs.Selection.Columns

namespace RecordQuery

/-! ## Up to a hundred -/

namespace Double

theorem hundred_units : unit * 100 = 25 * 2 ^ 1076 := by
  unfold unit
  decide +kernel

theorem hundred_lt_ceiling : unit * 100 < ceiling := by
  unfold unit ceiling
  decide +kernel

end Double

namespace Arithmetic

variable {part whole : Nat}

theorem percentage_eq_ok {value : Value} (hw : 0 < whole) :
    percentage part whole = .ok value ↔
      Double.nearest (Double.unit * (100 * part)) whole < Double.ceiling ∧
      value = .double (.finite false (Double.nearest (Double.unit * (100 * part)) whole)) := by
  have hsign : (decide ((100 : Int) * part < 0) ^^ decide ((whole : Int) < 0)) = false := by
    have hpart : ¬ (100 : Int) * part < 0 := by omega
    have hwhole : ¬ (whole : Int) < 0 := by omega
    simp [hpart, hwhole]
  have habs : ((100 : Int) * part).natAbs = 100 * part := by omega
  rw [percentage, if_neg (Nat.pos_iff_ne_zero.mp hw), Number.quotientOfInts, hsign, habs,
    Int.natAbs_natCast, Double.ofQuotient]
  by_cases hlt : Double.nearest (Double.unit * (100 * part)) whole < Double.ceiling
  · rw [if_pos hlt, and_iff_right hlt]
    exact ⟨fun h => (Except.ok.inj h).symm, fun h => congrArg Except.ok h.symm⟩
  · rw [if_neg hlt]
    exact iff_of_false (fun h => by cases h) fun h => hlt h.1

theorem percentage_nonneg {value : Value} (h : percentage part whole = .ok value) :
    ∃ n units, value = .number n ∧ n.place = some (0, units) ∧ 0 ≤ units := by
  rcases Nat.eq_zero_or_pos whole with rfl | hw
  · cases h
    exact ⟨.int 0, 0, rfl, rfl, Int.le_refl 0⟩
  · obtain ⟨-, rfl⟩ := (percentage_eq_ok hw).mp h
    exact ⟨_, _, rfl, rfl, Int.natCast_nonneg _⟩

/-- A part is at most a hundred percent of the whole. -/
theorem percentage_le (h : part ≤ whole) :
    ∃ n units, percentage part whole = .ok (.number n) ∧ n.place = some (0, units) ∧
      0 ≤ units ∧ units ≤ Double.unit * 100 := by
  rcases Nat.eq_zero_or_pos whole with rfl | hw
  · exact ⟨.int 0, 0, rfl, rfl, Int.le_refl 0, Int.mul_nonneg (Int.natCast_nonneg _) (by decide)⟩
  · have hle : Double.nearest (Double.unit * (100 * part)) whole ≤ Double.unit * 100 := by
      have hproduct : Double.unit * (100 * part) ≤ Double.unit * 100 * whole := by
        rw [← Nat.mul_assoc]
        exact Nat.mul_le_mul_left _ h
      rw [Double.hundred_units] at hproduct ⊢
      exact Double.nearest_le_of_le hw (by decide) hproduct
    have hok := (percentage_eq_ok hw).mpr
      ⟨Nat.lt_of_le_of_lt hle Double.hundred_lt_ceiling, rfl⟩
    exact ⟨_, _, hok, rfl, Int.natCast_nonneg _, Int.ofNat_le.mpr hle⟩

end Arithmetic

/-! ## The rows of a selection -/

theorem Condition.filter_sublist {store : Table Value} {condition : Condition}
    {rows kept : List Value} (h : condition.filter store rows = .ok kept) :
    kept.Sublist rows := by
  induction rows generalizing kept with
  | nil =>
    cases h
    exact .slnil
  | cons row rest ih =>
    obtain ⟨keep, -, h⟩ := bind_eq_ok.mp h
    obtain ⟨others, hothers, h⟩ := bind_eq_ok.mp h
    cases h
    cases keep with
    | true => exact (ih hothers).cons_cons row
    | false => exact (ih hothers).cons row

namespace Source

/-- The rows of a source, if there is one. -/
def allRows : Option Source → List Value
  | none => []
  | some source => source.rows

end Source

namespace Select

variable {select : Select} {binding : Binding} {store : Table Value} {seen : List String}

/-- The source that a selection reads from. -/
def source? (select : Select) (binding : Binding) (seen : List String) : Option Source :=
  (Binding.source binding select.fields seen).1

theorem filter_sublist {rows kept : List Value} (h : select.filter store rows = .ok kept) :
    kept.Sublist rows := by
  unfold filter at h
  split at h
  · cases h
    exact .refl rows
  · exact Condition.filter_sublist h

theorem length_shape (he : select.each = false) (source : Source) (byName : Bool)
    (records : List Value) : (select.shape source byName records).rows.length = records.length := by
  unfold shape
  split
  · rfl
  · rw [he]
    dsimp only
    cases byName && !source.exposes _ <;> simp
  · exact List.length_map _

/-- Without spreading lists a selection has no more rows than its source. -/
theorem run_length_le (he : select.each = false) {selected : Selection}
    (h : select.run binding store seen = .ok selected) :
    selected.rows.length ≤ (Source.allRows (select.source? binding seen)).length := by
  unfold run at h
  split at h
  · cases h
  · split at h
    · cases h
      exact Nat.zero_le _
    · next source byName hs =>
      obtain ⟨kept, hkept, rfl⟩ := map_eq_ok.mp h
      rw [length_shape he, source?, hs]
      exact (filter_sublist hkept).length_le

theorem run_everything (binding : Binding) (store : Table Value) (seen : List String) :
    everything.run binding store seen =
      .ok ⟨Source.allRows (everything.source? binding seen), false⟩ := by
  have hsource : Binding.source binding everything.fields seen =
      (everything.source? binding seen, false) := rfl
  rw [run, hsource]
  cases everything.source? binding seen <;> rfl

/-- A selection reads nothing, or from where a selection of everything reads. -/
def ReadsAll (select : Select) (binding : Binding) (seen : List String) : Prop :=
  ∀ source, select.source? binding seen = some source →
    everything.source? binding seen = some source

theorem readsAll_of_all (h : select.fields = .all) : select.ReadsAll binding seen := by
  intro source hs
  rwa [source?, h] at hs

theorem readsAll_of_single (h : ∀ one ∈ binding, ∀ other ∈ binding, one.2 = other.2) :
    select.ReadsAll binding seen := by
  intro source hs
  obtain ⟨one, hone, rfl⟩ := Binding.mem_of_source hs
  cases hall : everything.source? binding seen with
  | none =>
    rw [Binding.best?_eq_none.mp hall] at hone
    cases hone
  | some other =>
    obtain ⟨pair, hpair, rfl⟩ := Binding.mem_of_best? hall
    exact congrArg some (h pair hpair one hone)

/-- Fields that are no bound names are looked for where they are exposed, just as
everything is once they have been referred to. -/
theorem readsAll_of_unbound {names : Names} (hf : select.fields = .named names)
    (hunbound : ∀ name ∈ names.toList, binding.get? name = none)
    (hseen : ∀ name, name ∈ seen ↔ name ∈ names.toList) : select.ReadsAll binding seen := by
  intro source hs
  have hnamed : Binding.named? binding names.toList = none :=
    List.findSome?_eq_none_iff.mpr hunbound
  simp only [source?, hf, Binding.source, hnamed] at hs
  have hbest := (Option.filter_eq_some_iff.mp hs).1
  rwa [Binding.best?_congr fun name => (hseen name).symm] at hbest

end Select

theorem Session.mem_refer {session : Session} {select : Select} {name : String} :
    name ∈ (session.refer select).seen ↔ name ∈ session.seen ∨ name ∈ select.references := by
  show name ∈ select.references.foldl addSeen session.seen ↔ _
  generalize select.references = names, session.seen = seen
  induction names generalizing seen with
  | nil => simp
  | cons first rest ih =>
    rw [List.foldl_cons, ih, addSeen]
    split
    · next hm =>
      have hfirst : name = first → name ∈ seen := fun heq => heq ▸ hm
      grind
    · simp [or_assoc]

namespace Operation

variable {binding : Binding} {session : Session} {part : Select}

theorem run_percentOf_error {whole : Select} {fault : Fault}
    (h : (session.select binding part).1 = .error fault) :
    ((percentOf part whole).run binding session).1 = .error fault := by
  rw [run_percentOf, h]
  rfl

/-- A percentage of all rows compares with the rows of the source that everything is
selected from. -/
theorem run_percentOf_ok {numerator : Selection}
    (h : (session.select binding part).1 = .ok numerator) :
    ((percentOf part .everything).run binding session).1 =
      Arithmetic.percentage numerator.rows.length
        (Source.allRows (Select.everything.source? binding (session.refer part).seen)).length := by
  have hwhole : ((session.refer part).select binding .everything).1 =
      .ok ⟨Source.allRows (Select.everything.source? binding (session.refer part).seen), false⟩ :=
    Select.run_everything binding _ _
  rw [run_percentOf, h, hwhole]
  rfl

/-- A percentage of all rows compares with the rows of the bound source that exposes most
of the fields referred to so far.  It is never below zero, and at most a hundred where the
first selection reads nothing or from that source too: for instance if it asks for all
fields, if there is only one source, or if it asks for fields that are no bound names and
the block has referred to no others. -/
theorem run_percentOf_everything (binding : Binding) (session : Session) {part : Select}
    (he : part.each = false) :
    let seen := (session.refer part).seen
    let whole := Select.everything.source? binding seen
    let outcome := ((percentOf part .everything).run binding session).1
    (∀ source, whole = some source → binding.Leads seen source) ∧
    (whole = none → binding = []) ∧
    (∀ fault, (session.select binding part).1 = .error fault → outcome = .error fault) ∧
    (∀ numerator, (session.select binding part).1 = .ok numerator →
      outcome = Arithmetic.percentage numerator.rows.length (Source.allRows whole).length ∧
      (∀ value, outcome = .ok value →
        ∃ n units, value = .number n ∧ n.place = some (0, units) ∧ 0 ≤ units) ∧
      (part.ReadsAll binding seen → ∃ n units, outcome = .ok (.number n) ∧
        n.place = some (0, units) ∧ 0 ≤ units ∧ units ≤ Double.unit * 100)) ∧
    (part.fields = .all ∨ (∀ one ∈ binding, ∀ other ∈ binding, one.2 = other.2) ∨
      (∃ names, part.fields = .named names ∧ (∀ name ∈ names.toList, binding.get? name = none) ∧
        ∀ name ∈ seen, name ∈ names.toList) → part.ReadsAll binding seen) := by
  refine ⟨fun source => Binding.leads_of_best?, Binding.best?_eq_none.mp,
    fun fault => run_percentOf_error, fun numerator hn => ?_, ?_⟩
  · rw [run_percentOf_ok hn]
    refine ⟨rfl, fun value => Arithmetic.percentage_nonneg, fun hreads => ?_⟩
    refine Arithmetic.percentage_le (Nat.le_trans (Select.run_length_le he hn) ?_)
    cases hs : part.source? binding (session.refer part).seen with
    | none => exact Nat.zero_le _
    | some source => rw [hreads source hs]
  · rintro (hall | hsingle | ⟨names, hf, hunbound, hseen⟩)
    · exact Select.readsAll_of_all hall
    · exact Select.readsAll_of_single hsingle
    · refine Select.readsAll_of_unbound hf hunbound fun name => ⟨hseen name, fun hm => ?_⟩
      refine Session.mem_refer.mpr (.inr (List.mem_append_left _ ?_))
      rwa [hf]

/-- A desk, whose price is known, and a lamp. -/
def furniture : Source :=
  ⟨.list [.record [("kind", .text "desk"), ("price", .text "9")],
    .record [("kind", .text "lamp")]], 1⟩

/-- The shops are declared before the furniture. -/
def market : Binding :=
  [("shops", ⟨.list [.text "near"], 0⟩), ("kind", furniture), ("price", furniture)]

def deskPrices : Select :=
  .one "price" (some (.compare "kind" .equal (.literal (.text "desk"))))

theorem run_percentOf_everything_market :
    deskPrices.each = false ∧ market.Leads ["price", "kind"] furniture ∧ ∃ n units,
      ((percentOf deskPrices .everything).run market ⟨[], [], ["price"]⟩).1 =
        Arithmetic.percentage 1 2 ∧
      ((percentOf deskPrices .everything).run market ⟨[], [], ["price"]⟩).1 =
        .ok (.number n) ∧ n.place = some (0, units) ∧ 0 ≤ units ∧ units ≤ Double.unit * 100 := by
  have hsources : Binding.sources market = [⟨.list [.text "near"], 0⟩, furniture, furniture] :=
    List.mergeSort_of_pairwise (by decide)
  have hwhole : Select.everything.source? market ["price", "kind"] = some furniture := by
    show Binding.best? market _ = _
    rw [Binding.best?, hsources]
    rfl
  have heach : deskPrices.each = false := rfl
  obtain ⟨hleads, -, -, hok, -⟩ := run_percentOf_everything market ⟨[], [], ["price"]⟩ heach
  obtain ⟨hvalue, -, hle⟩ := hok ⟨[.text "9"], false⟩ rfl
  obtain ⟨n, units, hn⟩ := hle fun source hs => by
    cases hs
    exact hwhole
  refine ⟨heach, hleads furniture hwhole, n, units, hvalue.trans ?_, hn⟩
  exact congrArg (fun whole => Arithmetic.percentage 1 (Source.allRows whole).length) hwhole

/-- One source of three rows, declared after one of a single row. -/
def counted : Binding :=
  [("one", ⟨.list [.null], 0⟩), ("three", ⟨.list [.null, .null, .null], 1⟩)]

theorem run_percentOf_everything_exceeds :
    ¬ ∀ (binding : Binding) (session : Session) (part : Select), part.each = false →
      ∀ n units, ((percentOf part .everything).run binding session).1 = .ok (.number n) →
        n.place = some (0, units) → units ≤ Double.unit * 100 := by
  intro h
  have hselect : (Session.select (.start []) counted (.one "three" none)).1 =
      .ok ⟨[.null, .null, .null], false⟩ := rfl
  have hsources : Binding.sources counted =
      [⟨.list [.null], 0⟩, ⟨.list [.null, .null, .null], 1⟩] :=
    List.mergeSort_of_pairwise (by decide)
  have hwhole : (Source.allRows (Select.everything.source? counted ["three"])).length = 1 := by
    show (Source.allRows (Binding.best? counted _)).length = 1
    rw [Binding.best?, hsources]
    rfl
  have hrun : ((percentOf (.one "three" none) .everything).run counted (.start [])).1 =
      Arithmetic.percentage 3 1 :=
    (run_percentOf_ok hselect).trans (congrArg (Arithmetic.percentage 3) hwhole)
  have hnearest : Double.nearest (Double.unit * (100 * 3)) 1 = Double.unit * 300 := by
    unfold Double.unit
    decide +kernel
  have hlt : Double.nearest (Double.unit * (100 * 3)) 1 < Double.ceiling := by
    unfold Double.unit Double.ceiling
    decide +kernel
  have hvalue := (Arithmetic.percentage_eq_ok Nat.one_pos).mpr ⟨hlt, rfl⟩
  have hle := h counted (.start []) (.one "three" none) rfl _ _ (hrun.trans hvalue) rfl
  rw [hnearest] at hle
  have hle : Double.unit * 300 ≤ Double.unit * 100 := Int.ofNat_le.mp hle
  have hpos := Double.unit_pos
  omega

end Operation
end RecordQuery
