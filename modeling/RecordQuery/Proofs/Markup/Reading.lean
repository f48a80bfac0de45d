/-
What is read from markup.

A tag is a bracketed name; of the backslashes before it half are shown, and an odd one
makes it plain text.  All other characters are shown as they are.  `Reads` says so as a
relation between markup and what is shown of it, and `reads_iff` that the scanner of markup
computes it, apart from how pieces are set off from each other.
-/
import Mathlib.Data.List.TakeWhile
import RecordQuery.Markup.Terminal

namespace RecordQuery
namespace Markup

/-! ## Tags -/

/-- The name of a tag: brackets cannot stand in it. -/
def IsTagName (name : List Char) : Prop :=
  ∃ c body, name = c :: body ∧ beginsTag c ∧ ∀ d ∈ body, d ≠ '[' ∧ d ≠ ']'

variable {cs rest name later : List Char}

theorem ne_of_beginsTag {c : Char} (h : beginsTag c) : c ≠ '\\' ∧ c ≠ '[' ∧ c ≠ ']' := by
  refine ⟨?_, ?_, ?_⟩ <;> rintro rfl <;> exact absurd h (by decide)

theorem IsTagName.not_mem (h : IsTagName name) : '[' ∉ name := by
  obtain ⟨c, body, rfl, hc, hbody⟩ := h
  intro hm
  obtain heq | hm := List.mem_cons.mp hm
  · exact (ne_of_beginsTag hc).2.1 heq.symm
  · exact (hbody _ hm).1 rfl

theorem tag?_eq_some :
    tag? cs = some (name, later) ↔ IsTagName name ∧ cs = name ++ ']' :: later := by
  constructor
  · intro h
    unfold tag? at h
    split at h
    · cases h
    · next c rest =>
      dsimp only at h
      split at h
      · next hc =>
        split at h
        · next heq =>
          cases h
          refine ⟨⟨c, _, rfl, hc, fun d hd => ?_⟩, ?_⟩
          · simpa using List.mem_takeWhile_imp hd
          · rw [← heq, List.cons_append, List.cons_inj_right]
            exact (List.prefix_iff_eq_append.mp (List.takeWhile_prefix _)).symm
        · cases h
      · cases h
  · rintro ⟨⟨c, body, rfl, hc, hbody⟩, rfl⟩
    have hpos : ∀ d ∈ body, (fun d => d ≠ '[' && d ≠ ']') d := by simpa using hbody
    have htake : (body ++ ']' :: later).takeWhile (fun d => d ≠ '[' && d ≠ ']') = body := by
      rw [List.takeWhile_append_of_pos hpos, List.takeWhile_cons_of_neg (by decide),
        List.append_nil]
    simp only [List.cons_append, tag?, hc, if_true, htake, List.drop_left]

/-! ## Reading -/

/-- A piece, character by character. -/
def Piece.loose : Piece → List Piece
  | shown c => [.shown c]
  | apart cs => shownAll cs
  | tag name => [.tag name]

/-- What is read from markup before which so many backslashes were met. -/
def read (bare : Nat → Nat) (met : Nat) (cs : List Char) : List Piece :=
  (pieces bare met cs).flatMap Piece.loose

section

variable {bare : Nat → Nat} {met : Nat}

@[simp] theorem shownAll_nil : shownAll [] = [] := rfl

@[simp] theorem shownAll_cons (c : Char) (cs : List Char) :
    shownAll (c :: cs) = .shown c :: shownAll cs := rfl

@[simp] theorem shownAll_append (cs ds : List Char) :
    shownAll (cs ++ ds) = shownAll cs ++ shownAll ds :=
  List.map_append

theorem shownAll_inj {cs ds : List Char} : shownAll cs = shownAll ds ↔ cs = ds :=
  List.map_inj_right fun _ _ => Piece.shown.inj

@[simp] theorem loose_shownAll (cs : List Char) :
    (shownAll cs).flatMap Piece.loose = shownAll cs := by
  induction cs with
  | nil => rfl
  | cons c cs ih => rw [shownAll_cons, List.flatMap_cons, ih]; rfl

theorem backslashes_succ (n : Nat) (cs : List Char) :
    backslashes (n + 1) ++ cs = backslashes n ++ '\\' :: cs := by
  simp [backslashes, List.replicate_succ']

theorem backslashes_add (m n : Nat) : backslashes (m + n) = backslashes m ++ backslashes n :=
  List.replicate_append_replicate.symm

theorem read_nil : read bare met [] = shownAll (backslashes met) := by
  rw [read, pieces, loose_shownAll]

theorem read_backslash : read bare met ('\\' :: rest) = read bare (met + 1) rest := by
  rw [read, pieces, read]

theorem read_backslashes (n : Nat) :
    read bare met (backslashes n ++ cs) = read bare (met + n) cs := by
  induction n generalizing met with
  | zero => rfl
  | succ n ih =>
    rw [backslashes, List.replicate_succ, List.cons_append, read_backslash]
    exact (@ih (met + 1)).trans (by rw [Nat.add_right_comm, Nat.add_assoc])

theorem read_plain {c : Char} (hs : c ≠ '\\') (hb : c ≠ '[') :
    read bare met (c :: rest) =
      shownAll (backslashes met) ++ .shown c :: read bare 0 rest := by
  rw [read, pieces, List.flatMap_append, loose_shownAll, List.flatMap_cons]
  · rfl
  · exact fun heq => hs heq
  · exact fun heq => hb heq

theorem read_untagged (h : tag? rest = none) : read bare met ('[' :: rest) =
    shownAll (backslashes (bare met)) ++ .shown '[' :: read bare 0 rest := by
  rw [read, pieces]
  split
  · rw [List.flatMap_append, loose_shownAll, List.flatMap_cons]
    rfl
  · next heq => cases h.symm.trans heq

theorem read_tagged (h : tag? rest = some (name, later)) : read bare met ('[' :: rest) =
    shownAll (backslashes (met / 2)) ++
      (if met % 2 = 0 then [.tag name] else shownAll ('[' :: name ++ [']'])) ++
        read bare 0 later := by
  rw [read, pieces]
  split
  · next heq => cases h.symm.trans heq
  · next heq =>
    cases h.symm.trans heq
    rw [List.flatMap_cons, List.flatMap_cons, List.append_assoc]
    split <;> rfl

/-- Up to the end of a name nothing is a tag. -/
theorem read_flat {c : Char} (h : '[' ∉ cs) (hs : c ≠ '\\') (hb : c ≠ '[') :
    read bare met (cs ++ c :: rest) =
      shownAll (backslashes met ++ cs ++ [c]) ++ read bare 0 rest := by
  induction cs generalizing met with
  | nil => simp [read_plain hs hb]
  | cons d cs ih =>
    obtain ⟨hd, hcs⟩ := not_or.mp (List.mem_cons.not.mp h)
    rw [List.cons_append]
    by_cases hslash : d = '\\'
    · subst hslash
      rw [read_backslash, ih hcs, backslashes_succ]
    · rw [read_plain hslash (Ne.symm hd), ih hcs]
      simp [backslashes]

/-- A tag that an odd backslash keeps from being one is read as its characters. -/
theorem read_kept (h : (tag? rest).isSome) (ho : met % 2 = 1) : read bare met ('[' :: rest) =
    shownAll (backslashes (met / 2)) ++ .shown '[' :: read bare 0 rest := by
  obtain ⟨⟨name, later⟩, htag⟩ := Option.isSome_iff_exists.mp h
  obtain ⟨hname, rfl⟩ := tag?_eq_some.mp htag
  rw [read_tagged htag, if_neg (by omega), read_flat hname.not_mem (by decide) (by decide)]
  simp [backslashes]

end

/-! ## Reading as a relation -/

/-- A tag begins here, or backslashes before one. -/
def Begins (n : Nat) (name later cs : List Char) : Prop :=
  IsTagName name ∧ cs = backslashes n ++ '[' :: (name ++ ']' :: later)

/-- What is read from markup, tag by tag and character by character. -/
inductive Reads : List Char → List Piece → Prop
  | nil : Reads [] []
  | shown {c : Char} {cs : List Char} {ps : List Piece}
      (h : ∀ n name later, ¬ Begins n name later (c :: cs)) (hr : Reads cs ps) :
      Reads (c :: cs) (.shown c :: ps)
  | tag {n : Nat} {name later cs : List Char} {ps : List Piece} (h : Begins n name later cs)
      (he : n % 2 = 0) (hr : Reads later ps) :
      Reads cs (shownAll (backslashes (n / 2)) ++ .tag name :: ps)
  | kept {n : Nat} {name later cs : List Char} {ps : List Piece} (h : Begins n name later cs)
      (ho : n % 2 = 1) (hr : Reads later ps) :
      Reads cs (shownAll (backslashes (n / 2) ++ '[' :: name ++ [']']) ++ ps)

theorem Begins.read {n : Nat} (h : Begins n name later cs) : read id 0 cs =
    shownAll (backslashes (n / 2)) ++
      (if n % 2 = 0 then [.tag name] else shownAll ('[' :: name ++ [']'])) ++ read id 0 later := by
  obtain ⟨hname, rfl⟩ := h
  rw [read_backslashes, Nat.zero_add, read_tagged (tag?_eq_some.mpr ⟨hname, rfl⟩)]

/-- Backslashes that no tag follows are shown. -/
theorem read_before {m k : Nat} (h : ∀ n name later, ¬ Begins n name later (backslashes k ++ cs)) :
    read id (m + k) cs = shownAll (backslashes m) ++ read id k cs := by
  induction cs generalizing k with
  | nil => rw [read_nil, read_nil, backslashes_add, shownAll_append]
  | cons c cs ih =>
    by_cases hs : c = '\\'
    · subst hs
      rw [read_backslash, read_backslash]
      exact ih (k := k + 1) (by rwa [backslashes_succ])
    by_cases hb : c = '['
    · subst hb
      have hnone : tag? cs = none := by
        refine Option.eq_none_iff_forall_ne_some.mpr fun ⟨name, later⟩ htag => ?_
        obtain ⟨hname, rfl⟩ := tag?_eq_some.mp htag
        exact h k name later ⟨hname, rfl⟩
      rw [read_untagged hnone, read_untagged hnone, id, backslashes_add]
      simp
    · rw [read_plain hs hb, read_plain hs hb, backslashes_add]
      simp

theorem read_unmatched {c : Char} (h : ∀ n name later, ¬ Begins n name later (c :: cs)) :
    read id 0 (c :: cs) = .shown c :: read id 0 cs := by
  by_cases hs : c = '\\'
  · subst hs
    have hnext : ∀ n name later, ¬ Begins n name later (backslashes 0 ++ cs) :=
      fun n name later hbegins =>
        h (n + 1) name later ⟨hbegins.1, congrArg (List.cons '\\') hbegins.2⟩
    rw [read_backslash, Nat.add_comm, read_before hnext]
    rfl
  by_cases hb : c = '['
  · subst hb
    refine read_untagged (Option.eq_none_iff_forall_ne_some.mpr fun ⟨name, later⟩ htag => ?_)
    obtain ⟨hname, rfl⟩ := tag?_eq_some.mp htag
    exact h 0 name later ⟨hname, rfl⟩
  · exact read_plain hs hb

theorem reads_read (cs : List Char) : Reads cs (read id 0 cs) := by
  by_cases h : ∃ n name later, Begins n name later cs
  · obtain ⟨n, name, later, hbegins⟩ := h
    have hshort : later.length < cs.length := by
      rw [hbegins.2]
      simp only [List.length_append, List.length_cons]
      omega
    have hlater := reads_read later
    rw [hbegins.read]
    obtain he | ho := Nat.mod_two_eq_zero_or_one n
    · simpa [he] using Reads.tag hbegins he hlater
    · simpa [ho] using Reads.kept hbegins ho hlater
  · cases cs with
    | nil => exact @read_nil id 0 ▸ .nil
    | cons c cs =>
      have hunmatched : ∀ n name later, ¬ Begins n name later (c :: cs) :=
        fun n name later hbegins => h ⟨n, name, later, hbegins⟩
      rw [read_unmatched hunmatched]
      exact .shown hunmatched (reads_read cs)
termination_by cs.length

/-- The scanner reads what the relation says, and nothing else is read. -/
theorem reads_iff {ps : List Piece} : Reads cs ps ↔ ps = read id 0 cs := by
  refine ⟨fun h => ?_, fun h => h ▸ reads_read cs⟩
  induction h with
  | nil => exact (@read_nil id 0).symm
  | shown h _ ih => rw [ih, read_unmatched h]
  | tag h he _ ih => rw [ih, h.read, if_pos he]; simp
  | kept h ho _ ih => rw [ih, h.read, if_neg (by omega)]; simp

end Markup
end RecordQuery
