/-
Which source a selection reads from.

Sources are gone through in the order of their declarations, and one that exposes more of
the fields than those before it takes the lead.  The source that leads in the end exposes
most of the fields, and is the one declared first among those that expose as many
(`Binding.Leads`).  In a binding as paths make it there is just one such source, so neither
the order of the names in the binding nor how often a source is bound makes a difference,
and a tie is noted if and only if another source is level with it
(`Binding.source_leads`).
-/
import Mathlib.Data.Finset.Card
import Mathlib.Data.List.Induction
import RecordQuery.Journal
import RecordQuery.Proofs.FirstAppearance
import RecordQuery.Proofs.Overflow.Conditions

namespace RecordQuery

/-! ## What is counted -/

/-- The score of a source is the number of different fields among those given that some
record of it has. -/
theorem Source.score_eq_card (source : Source) (fields : List String) :
    source.score fields = (fields.toFinset.filter fun name => source.exposes name).card := by
  have hset : fields.eraseDups.toFinset = fields.toFinset := by
    ext name
    simp only [List.mem_toFinset, List.mem_eraseDups]
  rw [score, List.countP_eq_length_filter, ← hset, ← List.toFinset_filter,
    List.toFinset_card_of_nodup ((nodup_eraseDups fields).filter _)]

theorem Source.score_pos {source : Source} {fields : List String} :
    0 < source.score fields ↔ ∃ name ∈ fields, source.exposes name := by
  rw [score, List.countP_pos_iff]
  simp only [List.mem_eraseDups]

/-- The fields that a source is to expose: those asked for, or else those referred to. -/
def Fields.sought (seen : List String) : Fields → List String
  | all => seen
  | named names => names.toList

namespace Binding

/-! ## The source that leads -/

/-- A source of a list that exposes more of the fields than those before it, and no fewer
than those after it. -/
def Foremost (fields : List String) (sources : List Source) (source : Source) : Prop :=
  ∃ before after, sources = before ++ source :: after ∧
    (∀ earlier ∈ before, earlier.score fields < source.score fields) ∧
    ∀ later ∈ after, later.score fields ≤ source.score fields

theorem Foremost.mem {fields : List String} {sources : List Source} {source : Source}
    (h : Foremost fields sources source) : source ∈ sources := by
  obtain ⟨before, after, rfl, -⟩ := h
  exact List.mem_append_right _ List.mem_cons_self

theorem Foremost.score_le {fields : List String} {sources : List Source} {source other : Source}
    (h : Foremost fields sources source) (hm : other ∈ sources) :
    other.score fields ≤ source.score fields := by
  obtain ⟨before, after, rfl, hbefore, hafter⟩ := h
  rcases List.mem_append.mp hm with hm | hm
  · exact Nat.le_of_lt (hbefore other hm)
  · rcases List.mem_cons.mp hm with rfl | hm
    · exact Nat.le_refl _
    · exact hafter other hm

/-- One more source takes the lead or leaves it. -/
theorem Foremost.concat {fields : List String} {sources : List Source} {source : Source}
    (h : Foremost fields sources source) (last : Source) :
    Foremost fields (sources ++ [last]) (preferred fields source last) := by
  unfold preferred
  split
  · next hlt =>
    refine ⟨sources, [], rfl, fun earlier hm => ?_, by simp⟩
    exact Nat.lt_of_le_of_lt (h.score_le hm) hlt
  · next hle =>
    obtain ⟨before, after, rfl, hbefore, hafter⟩ := h
    refine ⟨before, after ++ [last], by rw [List.append_assoc, List.cons_append], hbefore, ?_⟩
    exact List.forall_mem_append.mpr
      ⟨hafter, List.forall_mem_singleton.mpr (Nat.le_of_not_lt hle)⟩

theorem foremost_foldl (fields : List String) (first : Source) (rest : List Source) :
    Foremost fields (first :: rest) (rest.foldl (preferred fields) first) := by
  induction rest using List.reverseRecOn with
  | nil => exact ⟨[], [], rfl, by simp, by simp⟩
  | append_singleton rest last ih =>
    rw [List.foldl_append, List.foldl_cons, List.foldl_nil]
    exact ih.concat last

/-- The bound source that exposes most of the fields; of several such, one that is declared
first. -/
structure Leads (binding : Binding) (fields : List String) (source : Source) : Prop where
  bound : ∃ pair ∈ binding, pair.2 = source
  most : ∀ pair ∈ binding, pair.2.score fields ≤ source.score fields
  first : ∀ pair ∈ binding, pair.2.score fields = source.score fields →
    source.declaration ≤ pair.2.declaration

/-- A source other than the given one exposes as many of the fields. -/
def Rivaled (binding : Binding) (fields : List String) (source : Source) : Prop :=
  ∃ pair ∈ binding, pair.2 ≠ source ∧ pair.2.score fields = source.score fields

theorem leads_of_foremost {binding : Binding} {fields : List String} {among : List Source}
    (hsorted : among.Pairwise fun a b => a.declaration ≤ b.declaration)
    (hmem : ∀ source, source ∈ among ↔ ∃ pair ∈ binding, pair.2 = source) {source : Source}
    (h : Foremost fields among source) : Leads binding fields source := by
  have hbound : ∀ pair ∈ binding, pair.2 ∈ among := fun pair hm => (hmem _).mpr ⟨pair, hm, rfl⟩
  refine ⟨(hmem source).mp h.mem, fun pair hm => h.score_le (hbound pair hm), fun pair hm heq => ?_⟩
  obtain ⟨before, after, rfl, hbefore, -⟩ := h
  rcases List.mem_append.mp (hbound pair hm) with hm | hm
  · exact absurd heq (Nat.ne_of_lt (hbefore _ hm))
  · rcases List.mem_cons.mp hm with heq | hm
    · exact Nat.le_of_eq (congrArg Source.declaration heq.symm)
    · exact List.rel_of_pairwise_cons (List.pairwise_append.mp hsorted).2.1 hm

theorem sources_sorted (binding : Binding) :
    (sources binding).Pairwise fun a b => a.declaration ≤ b.declaration := by
  refine (List.pairwise_mergeSort ?_ ?_ _).imp fun hle => of_decide_eq_true hle
  · intro a b c hab hbc
    exact decide_eq_true (Nat.le_trans (of_decide_eq_true hab) (of_decide_eq_true hbc))
  · simpa using fun a b : Source => Nat.le_total a.declaration b.declaration

theorem mem_sources {binding : Binding} {source : Source} :
    source ∈ sources binding ↔ ∃ pair ∈ binding, pair.2 = source := by
  rw [sources, List.mem_mergeSort, List.mem_map]

theorem leads_of_best? {binding : Binding} {fields : List String} {source : Source}
    (h : best? binding fields = some source) : Leads binding fields source := by
  refine leads_of_foremost (sources_sorted binding) (fun _ => mem_sources) ?_
  unfold best? at h
  split at h
  · cases h
  · next first rest hs =>
    cases h
    exact hs ▸ foremost_foldl fields first rest

theorem best?_eq_none {binding : Binding} {fields : List String} :
    best? binding fields = none ↔ binding = [] := by
  have hsources : sources binding = [] ↔ binding = [] := by
    rw [← List.length_eq_zero_iff, sources, List.length_mergeSort, List.length_map,
      List.length_eq_zero_iff]
  rw [← hsources, best?]
  cases sources binding with
  | nil => exact iff_of_true rfl rfl
  | cons first rest => exact iff_of_false (fun h => by cases h) (fun h => by cases h)

/-- The choice of a source looks at which fields there are, not at their order or number. -/
theorem best?_congr {binding : Binding} {fields others : List String}
    (h : ∀ name, name ∈ fields ↔ name ∈ others) : best? binding fields = best? binding others := by
  have hperm : fields.eraseDups.Perm others.eraseDups := by
    refine (List.perm_ext_iff_of_nodup (nodup_eraseDups _) (nodup_eraseDups _)).mpr fun name => ?_
    rw [List.mem_eraseDups, List.mem_eraseDups, h]
  have hscore : ∀ source : Source, source.score fields = source.score others := fun source =>
    hperm.countP_eq source.exposes
  have hpreferred : preferred fields = preferred others := by
    funext earlier later
    rw [preferred, preferred, hscore, hscore]
  rw [best?, best?, hpreferred]

/-! ## Bindings as paths make them -/

/-- What paths bind: no name comes twice, and what bears the number of one declaration is one
source. -/
structure Proper (binding : Binding) : Prop where
  names : (Table.names binding).Nodup
  sources : ∀ one ∈ binding, ∀ other ∈ binding,
    one.2.declaration = other.2.declaration → one.2 = other.2

theorem names_nodup_bind {binding : Binding} (h : (Table.names binding).Nodup)
    (names : List String) (source : Source) :
    (Table.names (Context.bind binding names source)).Nodup := by
  induction names generalizing binding with
  | nil => exact h
  | cons name rest ih => exact ih (Table.nodup_put h name source)

theorem mem_bind {binding : Binding} {names : List String} {source : Source}
    {pair : String × Source} (h : pair ∈ Context.bind binding names source) :
    pair ∈ binding ∨ pair.2 = source := by
  induction names generalizing binding with
  | nil => exact .inl h
  | cons name rest ih =>
    rcases ih h with hm | heq
    · exact Table.mem_put hm
    · exact .inr heq

theorem declaration_of_locate? {data : Value} {choice : Choice} {path : UsePath}
    {declaration : Nat} {names : List String} {source : Source}
    (h : Context.locate? data choice path declaration = some (names, source)) :
    source.declaration = declaration := by
  obtain ⟨found, -, h⟩ := Option.bind_eq_some_iff.mp h
  obtain ⟨value, -, h⟩ := Option.bind_eq_some_iff.mp h
  cases h
  rfl

/-- What one more declaration binds is told from the sources before by its number. -/
theorem Proper.declare {binding : Binding} {count : Nat} (h : Proper binding)
    (hb : ∀ pair ∈ binding, pair.2.declaration < count) (data : Value) (choice : Choice)
    (path : UsePath) :
    Proper (Context.declare data choice binding path count) ∧
      ∀ pair ∈ Context.declare data choice binding path count,
        pair.2.declaration < count + 1 := by
  unfold Context.declare
  split
  · next names source hl =>
    have hnumber := declaration_of_locate? hl
    have hcases : ∀ pair ∈ Context.bind binding (path.exposed names) source,
        pair ∈ binding ∨ pair.2 = source := fun pair hm => mem_bind hm
    refine ⟨⟨names_nodup_bind h.names _ source, fun one hone two htwo heq => ?_⟩,
      fun pair hm => ?_⟩
    · rcases hcases one hone with h1 | h1 <;> rcases hcases two htwo with h2 | h2
      · exact h.sources one h1 two h2 heq
      · have hlt := hb one h1
        rw [heq, h2, hnumber] at hlt
        exact absurd hlt (Nat.lt_irrefl count)
      · have hlt := hb two h2
        rw [← heq, h1, hnumber] at hlt
        exact absurd hlt (Nat.lt_irrefl count)
      · rw [h1, h2]
    · rcases hcases pair hm with hm | heq
      · exact Nat.lt_succ_of_lt (hb pair hm)
      · rw [heq, hnumber]
        exact Nat.lt_succ_self count
  · exact ⟨h, fun pair hm => Nat.lt_succ_of_lt (hb pair hm)⟩

/-- Each leaf of a context has such a binding. -/
theorem proper_bindingFor (paths : List UsePath) (data : Value) (choice : Choice) :
    Proper (Context.bindingFor paths data choice) := by
  suffices Proper (Context.bindingFor paths data choice) ∧
      ∀ pair ∈ Context.bindingFor paths data choice, pair.2.declaration < paths.length from this.1
  induction paths using List.reverseRecOn with
  | nil => exact ⟨⟨List.nodup_nil, by simp [Context.bindingFor]⟩, by simp [Context.bindingFor]⟩
  | append_singleton paths last ih =>
    have hlast : Context.bindingFor (paths ++ [last]) data choice =
        Context.declare data choice (Context.bindingFor paths data choice) last paths.length := by
      simp [Context.bindingFor_eq, List.zipIdx_append]
    rw [hlast, List.length_append]
    exact ih.1.declare ih.2 data choice last

namespace Leads

variable {binding : Binding} {fields : List String} {source other : Source}

theorem unique (hp : Proper binding) (h : Leads binding fields source)
    (ho : Leads binding fields other) : source = other := by
  obtain ⟨one, hone, rfl⟩ := h.bound
  obtain ⟨two, htwo, rfl⟩ := ho.bound
  have hscore : one.2.score fields = two.2.score fields :=
    Nat.le_antisymm (ho.most one hone) (h.most two htwo)
  exact hp.sources one hone two htwo
    (Nat.le_antisymm (h.first two htwo hscore.symm) (ho.first one hone hscore))

end Leads

section

variable {binding : Binding} {fields : List String} {source : Source}

theorem best?_eq_some (hp : Proper binding) :
    best? binding fields = some source ↔ Leads binding fields source := by
  refine ⟨leads_of_best?, fun h => ?_⟩
  cases hb : best? binding fields with
  | none =>
    obtain ⟨pair, hm, -⟩ := h.bound
    rw [best?_eq_none.mp hb] at hm
    cases hm
  | some found => exact congrArg some ((leads_of_best? hb).unique hp h)

theorem overlapping?_eq_some (hp : Proper binding) :
    overlapping? binding fields = some source ↔
      Leads binding fields source ∧ ∃ name ∈ fields, source.exposes name := by
  rw [overlapping?, Option.filter_eq_some_iff, best?_eq_some hp, ← Source.score_pos,
    decide_eq_true_eq]

/-- There is no source for fields if and only if none exposes any of them. -/
theorem overlapping?_eq_none :
    overlapping? binding fields = none ↔
      ∀ pair ∈ binding, ∀ name ∈ fields, pair.2.exposes name = false := by
  have hnone : ∀ source : Source, source.score fields = 0 ↔
      ∀ name ∈ fields, source.exposes name = false := by
    intro source
    rw [← Nat.le_zero, ← Nat.not_lt, Source.score_pos]
    simp
  simp only [← hnone]
  cases hb : best? binding fields with
  | none =>
    rw [overlapping?, hb, best?_eq_none.mp hb]
    exact iff_of_true rfl (by simp)
  | some source =>
    have hleads := leads_of_best? hb
    rw [overlapping?, hb, Option.filter_some]
    by_cases hzero : source.score fields = 0
    · refine iff_of_true (by simp [hzero]) fun pair hm => ?_
      exact Nat.le_zero.mp (hzero ▸ hleads.most pair hm)
    · obtain ⟨pair, hm, rfl⟩ := hleads.bound
      refine iff_of_false (by simp [Nat.pos_of_ne_zero hzero]) fun h => hzero (h pair hm)

/-- The first of the fields that is a bound name leads to a source. -/
def FirstBound (binding : Binding) (fields : List String) (source : Source) : Prop :=
  ∃ before name after, fields = before ++ name :: after ∧
    (∀ earlier ∈ before, Table.get? binding earlier = none) ∧
    Table.get? binding name = some source

theorem named?_eq_some :
    named? binding fields = some source ↔ FirstBound binding fields source := by
  rw [named?, List.findSome?_eq_some_iff]
  constructor
  · rintro ⟨before, name, after, heq, hname, hbefore⟩
    exact ⟨before, name, after, heq, hbefore, hname⟩
  · rintro ⟨before, name, after, heq, hbefore, hname⟩
    exact ⟨before, name, after, heq, hname, hbefore⟩

/-- The source that fields lead to, and whether one of them does so as a bound name. -/
def listed (binding : Binding) (fields : List String) : Option Source × Bool :=
  match named? binding fields with
  | some source => (some source, true)
  | none => (overlapping? binding fields, false)

theorem listed_byName :
    listed binding fields = (some source, true) ↔ FirstBound binding fields source := by
  rw [← named?_eq_some, listed]
  cases named? binding fields <;> simp

/-- A source that is not found by name leads. -/
theorem leads_of_source {fields : Fields} {seen : List String}
    (h : Binding.source binding fields seen = (some source, false)) :
    Leads binding (fields.sought seen) source := by
  cases fields with
  | all => exact leads_of_best? (Prod.ext_iff.mp h).1
  | named names =>
    have h : listed binding names.toList = (some source, false) := h
    rw [listed] at h
    split at h
    · cases h
    · exact leads_of_best? (Option.filter_eq_some_iff.mp (Prod.ext_iff.mp h).1).1

theorem listed_unbound (h : ∀ name ∈ fields, Table.get? binding name = none) :
    listed binding fields = (overlapping? binding fields, false) := by
  rw [listed, named?, List.findSome?_eq_none_iff.mpr h]

end

/-! ## The order of a binding -/

section

variable {binding other : Binding}

theorem Proper.perm (h : Proper binding) (ho : other.Perm binding) : Proper other := by
  refine ⟨(ho.map Prod.fst).nodup_iff.mpr h.names, fun one hone two htwo => ?_⟩
  exact h.sources one (ho.mem_iff.mp hone) two (ho.mem_iff.mp htwo)

theorem Leads.perm {fields : List String} {source : Source} (h : Leads other fields source)
    (ho : other.Perm binding) : Leads binding fields source := by
  obtain ⟨⟨pair, hm, heq⟩, hmost, hfirst⟩ := h
  exact ⟨⟨pair, ho.mem_iff.mp hm, heq⟩, fun pair hm => hmost pair (ho.mem_iff.mpr hm),
    fun pair hm => hfirst pair (ho.mem_iff.mpr hm)⟩

theorem best?_perm (h : Proper binding) (ho : other.Perm binding) (fields : List String) :
    best? other fields = best? binding fields := by
  refine Option.ext fun source => ?_
  rw [best?_eq_some (h.perm ho), best?_eq_some h]
  exact ⟨fun hl => hl.perm ho, fun hl => hl.perm ho.symm⟩

theorem source_perm (h : Proper binding) (ho : other.Perm binding) (fields : Fields)
    (seen : List String) : source other fields seen = source binding fields seen := by
  have hget : ∀ name, Table.get? other name = Table.get? binding name := Table.get?_perm h.names ho
  cases fields with
  | all => exact Prod.ext (best?_perm h ho seen) rfl
  | named names =>
    have hnamed : named? other names.toList = named? binding names.toList :=
      congrArg (List.findSome? · names.toList) (funext hget)
    rw [source, source, hnamed, overlapping?, overlapping?, best?_perm h ho]

end

end Binding

/-! ## Ties -/

namespace Note

open Binding

section
variable {binding : Binding}

theorem mem_distinctSources (h : Proper binding) {source : Source} :
    source ∈ distinctSources binding ↔ ∃ pair ∈ binding, pair.2 = source := by
  rw [← mem_sources]
  refine ⟨fun hm => (eraseDupsBy_sublist _).subset hm, fun hm => ?_⟩
  obtain ⟨kept, hkept, heq⟩ := exists_mem_eraseDupsBy
    (r := fun a b : Source => a.declaration == b.declaration) (fun _ => beq_self_eq_true _) _ hm
  obtain ⟨one, hone, rfl⟩ := mem_sources.mp hm
  obtain ⟨two, htwo, rfl⟩ := mem_sources.mp ((eraseDupsBy_sublist _).subset hkept)
  rw [h.sources one hone two htwo (by simpa using heq)]
  exact hkept

variable {fields : List String}

/-- A front that stands for the sources gone through: its source is foremost, and it is level
if and only if another of them exposes as many of the fields. -/
structure Front.Fits (fields : List String) (sources : List Source) (front : Front) : Prop where
  foremost : Foremost fields sources front.source
  level : front.level ↔ ∃ other ∈ sources, other.declaration ≠ front.source.declaration ∧
    other.score fields = front.source.score fields

theorem Front.source_pass (front : Front) (next : Source) :
    (front.pass fields next).source = preferred fields front.source next := by
  unfold Front.pass preferred
  split
  · rfl
  · split <;> rfl

/-- A front fits after one more source with a declaration of its own. -/
theorem Front.Fits.concat {sources : List Source} {front : Front} (h : front.Fits fields sources)
    {last : Source} (hlast : ∀ other ∈ sources, other.declaration ≠ last.declaration) :
    (front.pass fields last).Fits fields (sources ++ [last]) := by
  refine ⟨front.source_pass last ▸ h.foremost.concat last, ?_⟩
  have hother : last.declaration ≠ front.source.declaration := (hlast _ h.foremost.mem).symm
  unfold Front.pass
  split
  · next hlt =>
    -- The new source is ahead of all others.
    refine iff_of_false Bool.false_ne_true ?_
    rintro ⟨other, hm, hne, heq⟩
    rcases List.mem_append.mp hm with hm | hm
    · exact absurd heq (Nat.ne_of_lt (Nat.lt_of_le_of_lt (h.foremost.score_le hm) hlt))
    · exact hne (congrArg Source.declaration (List.mem_singleton.mp hm))
  · split
    · next heq =>
      exact iff_of_true rfl ⟨last, List.mem_append_right _ (List.mem_singleton_self last),
        hother, heq⟩
    · next hne =>
      rw [h.level]
      constructor
      · rintro ⟨other, hm, hother⟩
        exact ⟨other, List.mem_append_left _ hm, hother⟩
      · rintro ⟨other, hm, hdeclaration, heq⟩
        rcases List.mem_append.mp hm with hm | hm
        · exact ⟨other, hm, hdeclaration, heq⟩
        · exact absurd (List.mem_singleton.mp hm ▸ heq) hne

/-- Going through sources with different declarations ends with a front that fits. -/
theorem Front.fits_foldl (fields : List String) (first : Source) (rest : List Source)
    (h : (first :: rest).Pairwise fun a b => a.declaration ≠ b.declaration) :
    (rest.foldl (Front.pass fields) ⟨first, false⟩).Fits fields (first :: rest) := by
  induction rest using List.reverseRecOn with
  | nil => exact ⟨foremost_foldl fields first [], by simp⟩
  | append_singleton rest last ih =>
    obtain ⟨hearlier, -, hlast⟩ := List.pairwise_append.mp (List.cons_append ▸ h)
    rw [List.foldl_append, List.foldl_cons, List.foldl_nil, ← List.cons_append]
    exact (ih hearlier).concat fun other hm => hlast other hm last (List.mem_singleton_self last)

/-- Where a source leads there is a front, which is level if the source has a rival. -/
theorem front?_of_leads (h : Proper binding) {source : Source}
    (hl : Leads binding fields source) :
    ∃ front, front? binding fields = some front ∧
      (front.level ↔ Rivaled binding fields source) := by
  have hmem : ∀ source, source ∈ distinctSources binding ↔ ∃ pair ∈ binding, pair.2 = source :=
    fun _ => mem_distinctSources h
  have hsorted := (sources_sorted binding).sublist (eraseDupsBy_sublist
    (r := fun a b : Source => a.declaration == b.declaration) (sources binding))
  have hdistinct : (distinctSources binding).Pairwise fun a b => a.declaration ≠ b.declaration :=
    (pairwise_eraseDupsBy _).imp fun hab heq => by simp [heq] at hab
  cases hs : distinctSources binding with
  | nil =>
    have hm := (hmem source).mpr hl.bound
    rw [hs] at hm
    cases hm
  | cons first rest =>
    rw [hs] at hmem hdistinct
    -- The source of the front leads too, and in a proper binding only one does.
    have hfront : front? binding fields = some (rest.foldl (Front.pass fields) ⟨first, false⟩) := by
      rw [front?, hs]
    have hfits := Front.fits_foldl fields first rest hdistinct
    have hsource := (leads_of_foremost (hs ▸ hsorted) hmem hfits.foremost).unique h hl
    refine ⟨_, hfront, hfits.level.trans ?_⟩
    rw [hsource]
    obtain ⟨own, hown, rfl⟩ := hl.bound
    constructor
    · rintro ⟨other, hm, hne, hscore⟩
      obtain ⟨pair, hpair, rfl⟩ := (hmem other).mp hm
      exact ⟨pair, hpair, fun heq => hne (congrArg Source.declaration heq), hscore⟩
    · rintro ⟨pair, hpair, hne, hscore⟩
      exact ⟨pair.2, (hmem _).mpr ⟨pair, hpair, rfl⟩,
        fun heq => hne (h.sources pair hpair own hown heq), hscore⟩

/-- A tie is noted of a source that leads, at most once, if and only if there is another
source level with it. -/
theorem mem_tied (h : Proper binding) {chosen : Option Source}
    (hc : ∀ source, chosen = some source → Leads binding fields source) :
    (∀ note, note ∈ tied binding fields chosen ↔ ∃ source, chosen = some source ∧
      Rivaled binding fields source ∧ note = .tie (source.score fields) fields source.declaration) ∧
    (tied binding fields chosen).length ≤ 1 := by
  cases chosen with
  | none => exact ⟨by simp [tied], Nat.zero_le 1⟩
  | some source =>
    obtain ⟨front, hfront, hlevel⟩ := front?_of_leads h (hc source rfl)
    have htied : tied binding fields (some source) =
        if front.level then [tie (source.score fields) fields source.declaration] else [] := by
      simp only [tied, hfront]
    rw [htied]
    by_cases hl : front.level
    · rw [if_pos hl]
      simp [hlevel.mp hl]
    · rw [if_neg hl]
      simp [hlevel.not.mp hl]

/-- What a selection notes where it refers to no variable in vain. -/
theorem ofSelect_eq {session : Session} {select : Select}
    (hm : select.missingVariable? session.store = none) :
    let seen := (session.refer select).seen
    let source := Binding.source binding select.fields seen
    ofSelect binding session select =
      if source.2 then [] else tied binding (select.fields.sought seen) source.1 := by
  have hm : select.missingVariable? (session.refer select).store = none := hm
  dsimp only
  unfold ofSelect
  dsimp only
  rw [hm, if_neg (by decide)]
  generalize Binding.source binding select.fields (session.refer select).seen = source
  obtain ⟨source, byName⟩ := source
  cases select.fields <;> cases byName <;> rfl

end

end Note

namespace Binding

/-- The source that a selection reads from, in a binding where a number of a declaration
belongs to one source.  For fields it is that of the first bound name among them.  If there
is no such name, it is the one that exposes most of the fields, each counted once, and of
several such the one declared first; there is none if and only if no source exposes any of
them.  For everything it is the one that exposes most of the fields referred to, in the same
way, and there is none only if nothing is bound.  The order of the bound names does not
matter.  A tie is noted, once, if and only if a source is found otherwise than by name and
another one is level with it. -/
theorem source_leads {binding : Binding} (h : Proper binding) :
    (∀ (source : Source) (fields : List String), source.score fields =
      (fields.toFinset.filter fun name => source.exposes name).card) ∧
    (∀ (names : Names) (seen : List String),
      source binding (.named names) seen = listed binding names.toList) ∧
    (∀ (fields : List String) (found : Source),
      listed binding fields = (some found, true) ↔ FirstBound binding fields found) ∧
    (∀ fields : List String, (∀ name ∈ fields, Table.get? binding name = none) →
      (∀ found, listed binding fields = (some found, false) ↔
        Leads binding fields found ∧ ∃ name ∈ fields, found.exposes name) ∧
      (listed binding fields = (none, false) ↔
        ∀ pair ∈ binding, ∀ name ∈ fields, pair.2.exposes name = false)) ∧
    (∀ seen : List String,
      (∀ found, source binding .all seen = (some found, false) ↔ Leads binding seen found) ∧
      (source binding .all seen = (none, false) ↔ binding = [])) ∧
    (∀ other : Binding, other.Perm binding → ∀ (fields : Fields) (seen : List String),
      source other fields seen = source binding fields seen) ∧
    ∀ (session : Session) (select : Select), select.missingVariable? session.store = none →
      let seen := (session.refer select).seen
      let sought := select.fields.sought seen
      (∀ note, note ∈ Note.ofSelect binding session select ↔ ∃ found,
        source binding select.fields seen = (some found, false) ∧
        Rivaled binding sought found ∧
        note = .tie (found.score sought) sought found.declaration) ∧
      (Note.ofSelect binding session select).length ≤ 1 := by
  refine ⟨Source.score_eq_card, fun _ _ => rfl, fun _ _ => listed_byName, fun fields hunbound => ?_,
    fun seen => ⟨fun found => ?_, ?_⟩, fun _ ho => source_perm h ho, fun session select hm => ?_⟩
  · simp only [listed_unbound hunbound, Prod.mk.injEq, and_true]
    exact ⟨fun found => overlapping?_eq_some h, overlapping?_eq_none⟩
  · rw [source, Prod.mk.injEq, and_iff_left rfl, best?_eq_some h]
  · rw [source, Prod.mk.injEq, and_iff_left rfl, best?_eq_none]
  · dsimp only
    rw [Note.ofSelect_eq hm]
    cases hs : source binding select.fields (session.refer select).seen with
    | mk chosen byName =>
      cases byName with
      | true => simp
      | false =>
        have hleads : ∀ found, chosen = some found →
            Leads binding (select.fields.sought (session.refer select).seen) found :=
          fun found heq => leads_of_source (heq ▸ hs)
        simpa using Note.mem_tied h hleads

/-- What lies at a path that binds its last name. -/
def nearby : Source :=
  ⟨.list [.record [("x", .text "1"), ("y", .text "2")], .null], 0⟩

/-- What lies at a path that binds two names. -/
def faraway : Source :=
  ⟨.list [.record [("x", .text "3"), ("z", .text "4")]], 1⟩

def crossed : Binding :=
  [("near", nearby), ("x", faraway), ("z", faraway)]

theorem bindingFor_crossed :
    Context.bindingFor [⟨⟨"near", []⟩, [], none⟩, ⟨⟨"far", []⟩, [], some ⟨"x", ["z"]⟩⟩]
      (.record [("near", nearby.value), ("far", faraway.value)]) [] = crossed := by
  rfl

theorem forall_crossed {p : Source → Prop} (hn : p nearby) (hf : p faraway) :
    ∀ pair ∈ crossed, p pair.2 := by
  simp [crossed, hn, hf]

theorem source_leads_crossed :
    Proper crossed ∧
      source crossed (.named ⟨"y", ["x", "near"]⟩) [] = (some faraway, true) ∧
      source crossed (.named ⟨"w", ["y"]⟩) [] = (some nearby, false) ∧
      source crossed (.named ⟨"w", []⟩) [] = (none, false) ∧
      source crossed.reverse .all ["x"] = (some nearby, false) ∧
      Note.ofSelect crossed ⟨[], [], ["x"]⟩ ⟨.all, none, false⟩ = [.tie 1 ["x"] 0] := by
  have hproper : Proper crossed := bindingFor_crossed ▸ proper_bindingFor _ _ _
  obtain ⟨-, hnamed, hbound, hunbound, hall, hperm, htie⟩ := source_leads hproper
  have hy : nearby.score ["w", "y"] = 1 ∧ faraway.score ["w", "y"] = 0 := ⟨rfl, rfl⟩
  have hx : nearby.score ["x"] = 1 ∧ faraway.score ["x"] = 1 := ⟨rfl, rfl⟩
  have hw : Table.get? crossed "w" = none := rfl
  have hleads : ∀ fields, faraway.score fields ≤ nearby.score fields →
      Leads crossed fields nearby := by
    intro fields hle
    refine ⟨⟨_, List.mem_cons_self, rfl⟩, ?_, fun _ _ _ => Nat.zero_le _⟩
    exact forall_crossed (p := fun source => source.score fields ≤ nearby.score fields)
      (Nat.le_refl _) hle
  have hsource : source crossed .all ["x"] = (some nearby, false) :=
    ((hall ["x"]).1 nearby).mpr (hleads _ (Nat.le_of_eq (hx.2.trans hx.1.symm)))
  refine ⟨hproper, ?_, ?_, ?_, ?_, ?_⟩
  · exact (hnamed _ _).trans ((hbound _ _).mpr
      ⟨["y"], "x", ["near"], rfl, List.forall_mem_singleton.mpr rfl, rfl⟩)
  · have hfields : ∀ name ∈ ["w", "y"], Table.get? crossed name = none :=
      List.forall_mem_cons.mpr ⟨hw, List.forall_mem_singleton.mpr rfl⟩
    have hle : faraway.score ["w", "y"] ≤ nearby.score ["w", "y"] := by
      rw [hy.1, hy.2]
      exact Nat.zero_le 1
    exact (hnamed _ _).trans (((hunbound _ hfields).1 nearby).mpr
      ⟨hleads _ hle, "y", by simp, rfl⟩)
  · refine (hnamed _ _).trans ((hunbound _ (List.forall_mem_singleton.mpr hw)).2.mpr ?_)
    have hw : nearby.exposes "w" = false ∧ faraway.exposes "w" = false := ⟨rfl, rfl⟩
    exact forall_crossed (p := fun source => ∀ name ∈ ["w"], source.exposes name = false)
      (List.forall_mem_singleton.mpr hw.1) (List.forall_mem_singleton.mpr hw.2)
  · rw [hperm _ crossed.reverse_perm, hsource]
  · obtain ⟨hnote, hlength⟩ := htie ⟨[], [], ["x"]⟩ ⟨.all, none, false⟩ rfl
    have hrival : Rivaled crossed ["x"] nearby := by
      refine ⟨("x", faraway), by simp [crossed], fun heq => ?_, hx.2.trans hx.1.symm⟩
      exact absurd (congrArg Source.declaration heq) (by decide)
    have hmem := (hnote _).mpr ⟨nearby, hsource, hrival, rfl⟩
    obtain ⟨note, hone⟩ := List.length_eq_one_iff.mp
      (Nat.le_antisymm hlength (List.length_pos_of_mem hmem))
    rw [hone, List.mem_singleton] at hmem
    rw [hone, ← hmem]
    exact congrArg (fun score => [Note.tie score ["x"] 0]) hx.1

end Binding
end RecordQuery
