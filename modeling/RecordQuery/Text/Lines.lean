/-
Lines of a text, for excerpts.

A line ends at any of the Unicode line boundaries or at one of the information
separators; a carriage return and the line feed after it end one line together.
An empty remainder after the last boundary is no line.
-/
namespace RecordQuery
namespace Text

def isLineBreak (c : Char) : Bool :=
  let n := c.toNat
  (0x0a ≤ n && n ≤ 0x0d) || (0x1c ≤ n && n ≤ 0x1e) || n == 0x85 || n == 0x2028 || n == 0x2029

/-- The lines of a text without their boundaries. -/
def lines : List Char → List (List Char)
  | [] => []
  | '\r' :: '\n' :: rest => [] :: lines rest
  | c :: rest =>
    if isLineBreak c then [] :: lines rest
    else match lines rest with
      | [] => [[c]]
      | first :: others => (c :: first) :: others

/-- No line holds a boundary. -/
theorem isLineBreak_of_mem_lines {cs line : List Char} (h : line ∈ lines cs) {c : Char}
    (hc : c ∈ line) : isLineBreak c = false := by
  fun_induction lines cs generalizing line with
  | case1 => simp at h
  | case2 rest ih =>
    rcases List.mem_cons.mp h with rfl | h
    · simp at hc
    · exact ih h hc
  | case3 d rest _ _ ih =>
    rcases List.mem_cons.mp h with rfl | h
    · simp at hc
    · exact ih h hc
  | case4 d rest _ hd _ ih =>
    simp only [List.mem_singleton] at h
    subst h
    simp only [List.mem_singleton] at hc
    subst hc
    simpa using hd
  | case5 d rest _ hd first others heq ih =>
    rcases List.mem_cons.mp h with rfl | h
    · rcases List.mem_cons.mp hc with rfl | hc
      · simpa using hd
      · exact ih (by simp [heq]) hc
    · exact ih (by simp [heq, h]) hc

end Text
end RecordQuery
