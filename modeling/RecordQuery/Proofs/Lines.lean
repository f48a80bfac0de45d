/-
Lines that end at line feeds, among the lines of a text.

More than a line feed breaks a line, so a text that ends with a line feed has at least as
many lines as line feeds, and just as many only if nothing else breaks a line in it
(`Text.length_lines`).  On this depends which line it is that has the number which counting
line feeds gives to a place (`Text.getElem?_lines_count`).
-/
import Mathlib.Data.List.Basic
import Mathlib.Data.List.TakeWhile
import RecordQuery.Text.Lines

namespace RecordQuery
namespace Text

section
variable {c : Char} {cs rest : List Char}

/-! ## Lines -/

theorem lines_cons_break (hc : isLineBreak c) (h : ∀ ds, c = '\r' → cs = '\n' :: ds → False) :
    lines (c :: cs) = [] :: lines cs := by
  rw [lines.eq_def]
  split
  · next heq => cases heq
  · next heq =>
    obtain ⟨rfl, rfl⟩ := List.cons.inj heq
    exact (h _ rfl rfl).elim
  · next heq =>
    obtain ⟨rfl, rfl⟩ := List.cons.inj heq
    rw [if_pos hc]

theorem lines_cons_plain (hc : isLineBreak c = false) :
    lines (c :: cs) = (c :: (lines cs).headD []) :: (lines cs).tail := by
  rw [lines.eq_def]
  split
  · next heq => cases heq
  · next heq =>
    obtain ⟨rfl, rfl⟩ := List.cons.inj heq
    exact absurd hc (by decide)
  · next heq =>
    obtain ⟨rfl, rfl⟩ := List.cons.inj heq
    rw [if_neg (by simp [hc])]
    cases lines cs <;> rfl

/-- What breaks a line leaves it empty. -/
theorem exists_lines_break (hc : isLineBreak c) (cs : List Char) :
    ∃ rest, lines (c :: cs) = [] :: lines rest := by
  by_cases h : ∃ ds, c = '\r' ∧ cs = '\n' :: ds
  · obtain ⟨ds, rfl, rfl⟩ := h
    exact ⟨ds, by rw [lines]⟩
  · exact ⟨cs, lines_cons_break hc fun ds hr hcs => h ⟨ds, hr, hcs⟩⟩

theorem lines_ne_nil (h : cs ≠ []) : lines cs ≠ [] := by
  obtain ⟨c, cs, rfl⟩ := List.exists_cons_of_ne_nil h
  by_cases hc : isLineBreak c
  · obtain ⟨rest, hlines⟩ := exists_lines_break hc cs
    rw [hlines]
    exact List.cons_ne_nil _ _
  · rw [lines_cons_plain (by simpa using hc)]
    exact List.cons_ne_nil _ _

/-- The first line of a text reaches to the first character that breaks a line. -/
theorem headD_lines (cs : List Char) :
    (lines cs).headD [] = cs.takeWhile fun c => !isLineBreak c := by
  induction cs with
  | nil => rfl
  | cons c cs ih =>
    by_cases hc : isLineBreak c
    · obtain ⟨rest, hlines⟩ := exists_lines_break hc cs
      rw [hlines, List.takeWhile_cons_of_neg (by simp [hc])]
      rfl
    · rw [Bool.not_eq_true] at hc
      rw [lines_cons_plain hc, List.headD_cons, ih, List.takeWhile_cons_of_pos (by simp [hc])]

/-! ## Texts up to a line feed -/

/-- That a text ends with a line feed, if it is not empty. -/
def Terminated (cs : List Char) : Prop :=
  ∀ c ∈ cs.getLast?, c = '\n'

/-- Whether lines are broken by line feeds only, with or without a carriage return. -/
def ruled : List Char → Bool
  | [] => true
  | '\r' :: '\n' :: rest => ruled rest
  | c :: rest => (c = '\n' || !isLineBreak c) && ruled rest

theorem Terminated.tail (h : Terminated (c :: cs)) : Terminated cs := by
  cases cs with
  | nil => exact fun _ hm => nomatch hm
  | cons d ds => exact fun e he => h e he

theorem Terminated.ne_nil (h : Terminated (c :: cs)) (hc : c ≠ '\n') : cs ≠ [] := by
  intro hnil
  subst hnil
  exact hc (h c rfl)

/-- The lines of what follows a line feed are lines of their own. -/
theorem lines_append (h : Terminated cs) : lines (cs ++ rest) = lines cs ++ lines rest := by
  fun_induction ruled cs with
  | case1 => rfl
  | case2 cs ih =>
    show lines ('\r' :: '\n' :: (cs ++ rest)) = _
    rw [lines, lines, ih h.tail.tail]
    rfl
  | case3 c cs hne ih =>
    by_cases hc : isLineBreak c
    · have hne' : ∀ ds, c = '\r' → cs ++ rest = '\n' :: ds → False := by
        intro ds hr hcs
        obtain ⟨d, more, rfl⟩ := List.exists_cons_of_ne_nil (h.ne_nil (by simp [hr]))
        obtain ⟨rfl, -⟩ := List.cons.inj hcs
        exact hne more hr rfl
      rw [List.cons_append, lines_cons_break hc hne, lines_cons_break hc hne', ih h.tail]
      rfl
    · rw [Bool.not_eq_true] at hc
      have hcs : cs ≠ [] := h.ne_nil fun hfeed => absurd hc (by rw [hfeed]; decide)
      obtain ⟨first, others, hlines⟩ := List.exists_cons_of_ne_nil (lines_ne_nil hcs)
      rw [List.cons_append, lines_cons_plain hc, lines_cons_plain hc, ih h.tail, hlines]
      rfl

/-- Up to a line feed there are as many lines as line feeds, and more if something else breaks
a line. -/
theorem length_lines (h : Terminated cs) : cs.count '\n' ≤ (lines cs).length ∧
    ((lines cs).length = cs.count '\n' ↔ ruled cs) := by
  fun_induction ruled cs with
  | case1 => exact ⟨Nat.le_refl 0, by simp [lines]⟩
  | case2 cs ih =>
    obtain ⟨hle, heq⟩ := ih h.tail.tail
    have hcount : ('\r' :: '\n' :: cs).count '\n' = cs.count '\n' + 1 := by simp
    rw [lines, List.length_cons, hcount, ← heq]
    omega
  | case3 c cs hne ih =>
    obtain ⟨hle, heq⟩ := ih h.tail
    by_cases hc : isLineBreak c
    · rw [lines_cons_break hc hne, List.length_cons]
      by_cases hfeed : c = '\n'
      · subst hfeed
        have hcount : ('\n' :: cs).count '\n' = cs.count '\n' + 1 := List.count_cons_self
        simp only [hcount, decide_true, Bool.true_or, Bool.true_and, ← heq]
        omega
      · rw [List.count_cons_of_ne hfeed]
        simp only [hc, hfeed, decide_false, Bool.not_true, Bool.or_false, Bool.false_and]
        exact ⟨by omega, iff_of_false (by omega) Bool.false_ne_true⟩
    · rw [Bool.not_eq_true] at hc
      have hfeed : c ≠ '\n' := fun hfeed => absurd hc (by rw [hfeed]; decide)
      have hlength := List.length_pos_iff.mpr (lines_ne_nil (h.ne_nil hfeed))
      rw [lines_cons_plain hc, List.length_cons, List.length_tail, List.count_cons_of_ne hfeed]
      simp only [hc, Bool.not_false, Bool.or_true, Bool.true_and, ← heq]
      omega

end

/-! ## The line of a place -/

/-- What stands behind the last line feed of a text. -/
def lastLine (cs : List Char) : List Char :=
  (cs.reverse.takeWhile (· ≠ '\n')).reverse

/-- A text up to its last line feed. -/
def earlier (cs : List Char) : List Char :=
  (cs.reverse.dropWhile (· ≠ '\n')).reverse

/-- The line between line feeds on which two texts meet, without a carriage return at its
end. -/
def sourceLine (before after : List Char) : List Char :=
  let line := lastLine before ++ after.takeWhile (· ≠ '\n')
  if line.getLast? = some '\r' then line.dropLast else line

/-- That nothing in the line of a place breaks it, and that nothing but line feeds breaks a line
before it, or else the line with its number happens to be the same. -/
structure Intact (before after : List Char) : Prop where
  unbroken : ∀ c ∈ sourceLine before after, isLineBreak c = false
  numbered : ruled (earlier before) ∨
    (lines (earlier before))[before.count '\n']? = some (sourceLine before after)

theorem earlier_append_lastLine (cs : List Char) : earlier cs ++ lastLine cs = cs := by
  rw [earlier, lastLine, ← List.reverse_append, List.takeWhile_append_dropWhile,
    List.reverse_reverse]

/-- Behind the characters up to a line feed there is a line feed. -/
theorem eq_of_mem_head?_dropWhile {cs : List Char} {c : Char}
    (h : c ∈ (cs.dropWhile (· ≠ '\n')).head?) : c = '\n' := by
  have hhead := List.head?_dropWhile_not (fun c => decide (c ≠ '\n')) cs
  rw [Option.mem_def.mp h] at hhead
  simpa using hhead

theorem terminated_earlier (cs : List Char) : Terminated (earlier cs) := by
  intro c hc
  rw [earlier, List.getLast?_reverse] at hc
  exact eq_of_mem_head?_dropWhile hc

theorem not_mem_lastLine (cs : List Char) : '\n' ∉ lastLine cs := by
  intro hm
  have := List.mem_takeWhile_imp (List.mem_reverse.mp hm)
  simp at this

theorem count_earlier (cs : List Char) : (earlier cs).count '\n' = cs.count '\n' := by
  have hsum := @List.count_append _ _ '\n' (earlier cs) (lastLine cs)
  rw [earlier_append_lastLine, List.count_eq_zero_of_not_mem (not_mem_lastLine cs)] at hsum
  exact hsum.symm

section
variable {before after : List Char}

theorem length_lines_earlier (h : ruled (earlier before)) :
    (lines (earlier before)).length = before.count '\n' := by
  rw [← count_earlier]
  exact (length_lines (terminated_earlier before)).2.mpr h

theorem lt_length_lines_earlier (h : ¬ ruled (earlier before)) :
    before.count '\n' < (lines (earlier before)).length := by
  obtain ⟨hle, heq⟩ := length_lines (terminated_earlier before)
  rw [count_earlier] at hle heq
  exact Nat.lt_of_le_of_ne hle fun hlength => h (heq.mp hlength.symm)

/-- The line with the number that counting line feeds gives to a place. -/
theorem getElem?_lines_count (h : after ≠ []) :
    (lines (before ++ after))[before.count '\n']? =
      if ruled (earlier before) then
        some ((lastLine before ++ after).takeWhile fun c => !isLineBreak c)
      else (lines (earlier before))[before.count '\n']? := by
  have hlines : lines (before ++ after) =
      lines (earlier before) ++ lines (lastLine before ++ after) := by
    rw [← lines_append (terminated_earlier before), ← List.append_assoc, earlier_append_lastLine]
  rw [hlines]
  by_cases hr : ruled (earlier before)
  · have hlength := length_lines_earlier hr
    have hne : lastLine before ++ after ≠ [] := fun hnil => h (List.append_eq_nil_iff.mp hnil).2
    obtain ⟨first, others, hfirst⟩ := List.exists_cons_of_ne_nil (lines_ne_nil hne)
    rw [if_pos hr, List.getElem?_append_right (by omega), hlength, Nat.sub_self, ← headD_lines,
      hfirst]
    rfl
  · rw [if_neg hr, List.getElem?_append_left (lt_length_lines_earlier hr)]

/-- Behind the line of a place a line is broken, if the text does not end there. -/
theorem exists_ending (before after : List Char) :
    ∃ ending, lastLine before ++ after = sourceLine before after ++ ending ∧
      ∀ c ∈ ending.head?, isLineBreak c := by
  have hsplit : lastLine before ++ after =
      (lastLine before ++ after.takeWhile (· ≠ '\n')) ++ after.dropWhile (· ≠ '\n') := by
    rw [List.append_assoc, List.takeWhile_append_dropWhile]
  rw [hsplit, sourceLine]
  split
  · next h =>
    refine ⟨'\r' :: after.dropWhile (· ≠ '\n'), ?_, fun c hc => ?_⟩
    · rw [← List.singleton_append, ← List.append_assoc, List.dropLast_append_getLast? _ h]
    · rw [← Option.some.inj hc]
      decide
  · refine ⟨_, rfl, fun c hc => ?_⟩
    rw [eq_of_mem_head?_dropWhile hc]
    decide

/-- What begins with the line of a place has it as its first line, unless something in the
line breaks it. -/
theorem takeWhile_eq_sourceLine_iff :
    (lastLine before ++ after).takeWhile (fun c => !isLineBreak c) = sourceLine before after ↔
      ∀ c ∈ sourceLine before after, isLineBreak c = false := by
  constructor
  · intro heq c hc
    rw [← heq] at hc
    simpa using List.mem_takeWhile_imp hc
  · intro hplain
    obtain ⟨ending, heq, hending⟩ := exists_ending before after
    have hnone : ending.takeWhile (fun c => !isLineBreak c) = [] := by
      cases ending with
      | nil => rfl
      | cons c rest => rw [List.takeWhile_cons_of_neg (by simp [hending c rfl])]
    rw [heq, List.takeWhile_append_of_pos (fun c hc => by simp [hplain c hc]), hnone,
      List.append_nil]

/-- The line with the number that counting line feeds gives to a place holds no line feed, and
it is the line of the place if and only if that is intact. -/
theorem exists_line_count (h : after ≠ []) :
    ∃ line, (lines (before ++ after))[before.count '\n']? = some line ∧ '\n' ∉ line ∧
      (line = sourceLine before after ↔ Intact before after) := by
  have hfeed {line : List Char}
      (hline : (lines (before ++ after))[before.count '\n']? = some line) : '\n' ∉ line :=
    fun hm => absurd (isLineBreak_of_mem_lines (List.mem_of_getElem? hline) hm) (by decide)
  have hat := @getElem?_lines_count before after h
  by_cases hr : ruled (earlier before)
  · rw [if_pos hr] at hat
    refine ⟨_, hat, hfeed hat, takeWhile_eq_sourceLine_iff.trans ?_⟩
    exact ⟨fun hplain => ⟨hplain, .inl hr⟩, fun hintact => hintact.unbroken⟩
  · rw [if_neg hr] at hat
    have hlength := lt_length_lines_earlier hr
    have hline := List.getElem?_eq_getElem hlength
    refine ⟨_, hat.trans hline, hfeed (hat.trans hline), ?_⟩
    constructor
    · intro hsame
      refine ⟨fun c hc => ?_, .inr (hline.trans (congrArg some hsame))⟩
      rw [← hsame] at hc
      exact isLineBreak_of_mem_lines (List.getElem_mem hlength) hc
    · intro hintact
      have hsame := hintact.numbered.resolve_left hr
      exact Option.some.inj (hline.symm.trans hsame)

/-- What stands at a place stands on its line, unless it is the end of the line. -/
theorem getElem?_sourceLine {c : Char} (hf : c ≠ '\n') (hr : c ≠ '\r') (rest : List Char) :
    (sourceLine before (c :: rest))[(lastLine before).length]? = some c := by
  have hat : ∀ cs ds : List Char, (cs ++ c :: ds)[cs.length]? = some c := by simp
  rw [sourceLine, List.takeWhile_cons_of_pos (by simpa using hf)]
  split
  · next h =>
    have hrest : rest.takeWhile (· ≠ '\n') ≠ [] := by
      intro hnil
      rw [hnil, List.getLast?_concat] at h
      exact hr (Option.some.inj h)
    rw [List.dropLast_append_of_ne_nil (List.cons_ne_nil c _), List.dropLast_cons_of_ne_nil hrest]
    exact hat _ _
  · exact hat _ _

end

end Text
end RecordQuery
