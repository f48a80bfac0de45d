/-
Which sections of options are accepted, and what they decide.

A section is accepted as a whole or not at all: it is refused if and only if some option
does not accept what it is given, as no unknown option does, or both colour options are
true.  Otherwise its settings are those that the options decide one by one (`Decides`), a
colour option set to false deciding nothing, and so do not depend on the order of the
options.  What a section decides the command accepts that takes it: an output format that
is accepted here is one there, and the other way around (`ofOptions?_whole`).
-/
import Mathlib.Data.List.DropRight
import Mathlib.Data.List.Nodup
import RecordQuery.Command.Execution
import RecordQuery.Proofs.Tables

namespace RecordQuery

/-! ## Names of formats -/

namespace Text

/-- A trimmed text has no blank at its ends. -/
theorem trim_trim (cs : List Char) : trim (trim cs) = trim cs := by
  obtain ⟨after, hafter⟩ := List.rdropWhile_prefix isBlank (cs.dropWhile isBlank)
  have hprefix : trim cs ++ after = cs.dropWhile isBlank := hafter
  have hstart : (trim cs).dropWhile isBlank = trim cs := by
    cases htrim : trim cs with
    | nil => rfl
    | cons c rest =>
      have hhead := List.head?_dropWhile_not isBlank cs
      rw [← hprefix, htrim] at hhead
      exact List.dropWhile_cons_of_neg (Bool.eq_false_iff.mp hhead)
  have hend : (trim cs).rdropWhile isBlank = trim cs :=
    List.rdropWhile_idempotent isBlank (cs.dropWhile isBlank)
  calc trim (trim cs) = ((trim cs).dropWhile isBlank).rdropWhile isBlank := rfl
    _ = trim cs := by rw [hstart, hend]

end Text

namespace Format

/-- A text names the format whose name it is, without the blanks around it and in
lowercase. -/
theorem ofName?_eq_some {name : String} {format : Format} :
    ofName? name = some format ↔
      (Text.trim name.toList).map Char.toLower = format.name.toList := by
  have hwanted : ∀ wanted : String, (all.find? fun f => f.name == wanted) = some format ↔
      wanted = format.name := by
    intro wanted
    by_cases hjson : wanted = json.name
    · subst hjson
      cases format <;> decide
    · by_cases htext : wanted = text.name
      · subst htext
        cases format <;> decide
      · have hnone : (all.find? fun f => f.name == wanted) = none := by
          simp [all, Ne.symm hjson, Ne.symm htext]
        rw [hnone]
        cases format <;> simp [hjson, htext]
  rw [ofName?, hwanted, ← String.toList_inj, String.toList_ofList]

end Format

/-- A name for which there is a format to report in. -/
theorem Report.format_eq_ok {name : String} {found : Format} :
    Report.format name = .ok found ↔
      (Text.trim name.toList).map Char.toLower = found.name.toList := by
  rw [← Format.ofName?_eq_some, Report.format]
  cases Format.ofName? name <;> simp

namespace Settings

/-! ## Single options -/

/-- The options that a section may set. -/
inductive Known
  | color
  | noColor
  | verbose
  | out
  | outTheme
  | indent
  deriving DecidableEq

namespace Known

/-- How an option is written in a section. -/
def label : Known → String
  | color => "--color"
  | noColor => "--no-color"
  | verbose => "--verbose"
  | out => "--out"
  | outTheme => "--out-theme"
  | indent => "--indent"

/-- The name of the setting that an option decides. -/
def setting : Known → String
  | color | noColor => "color_flag"
  | verbose => "verbose"
  | out => "out"
  | outTheme => "out_theme"
  | indent => "indent"

theorem label_inj {one two : Known} : one.label = two.label ↔ one = two := by
  cases one <;> cases two <;> decide

/-- What an option makes of what it is given. -/
inductive Makes : Known → Value → Value → Prop
  | color : Makes color (.bool true) (.bool true)
  | noColor : Makes noColor (.bool true) (.bool false)
  | verbose (truth : Bool) : Makes verbose (.bool truth) (.bool truth)
  | out {s : String} {format : Format}
      (h : (Text.trim s.toList).map Char.toLower = format.name.toList) :
      Makes out (.text s) (.text (String.ofList (Text.trim s.toList)))
  | outTheme {s : String} (h : Text.trim s.toList ≠ []) :
      Makes outTheme (.text s) (.text (String.ofList (Text.trim s.toList)))
  | indent {n : Int} (h : 0 ≤ n) : Makes indent (.number (.int n)) (.number (.int n))

def all : List Known := [color, noColor, verbose, out, outTheme, indent]

end Known

/-- The name of the setting that an option decides. -/
def settingOf (option : String) : String :=
  ((Known.all.find? fun known => known.label == option).map Known.setting).getD option

theorem settingOf_label (known : Known) : settingOf known.label = known.setting := by
  cases known <;> decide

/-- What an option of a section decides: the name of a setting and its value. -/
def Decides (option : String) (given : Value) (name : String) (value : Value) : Prop :=
  ∃ known : Known, known.label = option ∧ known.setting = name ∧ known.Makes given value

/-- A colour option that is set to false. -/
def isOff : String × Value → Bool
  | (option, .bool false) => isColorOption option
  | _ => false

/-- An option is known and accepts what it is given. -/
def Accepts (option : String) (given : Value) : Prop :=
  isOff (option, given) ∨ ∃ name value, Decides option given name value

variable {option second name : String} {given found value other : Value}

theorem Decides.name_eq (h : Decides option given name value) : name = settingOf option := by
  obtain ⟨known, rfl, rfl, -⟩ := h
  exact (settingOf_label known).symm

theorem Decides.not_isOff (h : Decides option given name value) :
    isOff (option, given) = false := by
  obtain ⟨known, rfl, -, h⟩ := h
  cases h with
  | verbose truth => cases truth <;> decide
  | _ => rfl

/-- Of two options that decide one setting both are colour options and true. -/
theorem Decides.eq_or_color (h : Decides option given name value)
    (h' : Decides second found name other) : option = second ∨
      option = "--color" ∧ given = .bool true ∧ second = "--no-color" ∧ found = .bool true ∨
      second = "--color" ∧ found = .bool true ∧ option = "--no-color" ∧ given = .bool true := by
  obtain ⟨one, rfl, rfl, h⟩ := h
  obtain ⟨two, rfl, hs, h'⟩ := h'
  cases h <;> cases h' <;> simp [Known.setting, Known.label] at hs ⊢

theorem trimmed?_eq_some {s trimmed : String} : trimmed? s = some trimmed ↔
    Text.trim s.toList ≠ [] ∧ String.ofList (Text.trim s.toList) = trimmed := by
  unfold trimmed?
  split
  · next h => simp [h]
  · next cs hne => exact ⟨fun h => ⟨hne, Option.some.inj h⟩, fun h => congrArg some h.2⟩

/-- A format is accepted under a name that is trimmed. -/
theorem accept?_out {s : String} : accept? "--out" (.text s) = some (name, value) ↔
    (∃ format : Format, (Text.trim s.toList).map Char.toLower = format.name.toList) ∧
      "out" = name ∧ .text (String.ofList (Text.trim s.toList)) = value := by
  have hbind : accept? "--out" (.text s) = (trimmed? s).bind fun trimmed =>
      (Format.ofName? trimmed).map fun _ => ("out", .text trimmed) := by
    unfold accept?
    simp only [Option.map_eq_bind]
    rfl
  have htrim : ∀ format : Format, (Text.trim s.toList).map Char.toLower = format.name.toList ↔
      Format.ofName? (String.ofList (Text.trim s.toList)) = some format := by
    intro format
    rw [Format.ofName?_eq_some, String.toList_ofList, Text.trim_trim]
  have hne : ∀ format : Format, (Text.trim s.toList).map Char.toLower = format.name.toList →
      Text.trim s.toList ≠ [] := by
    rintro format h hnil
    rw [hnil] at h
    cases format <;> exact absurd h (by decide)
  simp only [hbind, Option.bind_eq_some_iff, Option.map_eq_some_iff, trimmed?_eq_some,
    Prod.mk.injEq]
  constructor
  · rintro ⟨_, ⟨-, rfl⟩, format, hformat, heq⟩
    exact ⟨⟨format, (htrim format).mpr hformat⟩, heq⟩
  · rintro ⟨⟨format, h⟩, heq⟩
    exact ⟨_, ⟨hne format h, rfl⟩, format, (htrim format).mp h, heq⟩

/-- Options that are no colour options are accepted with what they decide. -/
theorem accept?_eq_some : accept? option given = some (name, value) ↔
    isColorOption option = false ∧ Decides option given name value := by
  constructor
  · intro h
    unfold accept? at h
    split at h
    · next n =>
      split at h
      · cases h
      · next hn =>
        cases h
        exact ⟨rfl, .indent, rfl, rfl, .indent (Int.not_lt.mp hn)⟩
    · next truth =>
      cases h
      exact ⟨rfl, .verbose, rfl, rfl, .verbose truth⟩
    · next s =>
      obtain ⟨⟨format, hformat⟩, rfl, rfl⟩ := accept?_out.mp h
      exact ⟨rfl, .out, rfl, rfl, .out hformat⟩
    · next s =>
      obtain ⟨_, htrimmed, h⟩ := Option.bind_eq_some_iff.mp h
      obtain ⟨hne, rfl⟩ := trimmed?_eq_some.mp htrimmed
      cases h
      exact ⟨rfl, .outTheme, rfl, rfl, .outTheme hne⟩
    · cases h
  · rintro ⟨hcolor, known, rfl, rfl, h⟩
    cases h with
    | color => cases hcolor
    | noColor => cases hcolor
    | verbose truth => rfl
    | out h => exact accept?_out.mpr ⟨⟨_, h⟩, rfl, rfl⟩
    | outTheme h =>
      exact Option.bind_eq_some_iff.mpr ⟨_, trimmed?_eq_some.mpr ⟨h, rfl⟩, rfl⟩
    | indent h => exact if_neg (Int.not_lt.mpr h)

/-! ## The colour options -/

/-- Both colour options are true. -/
def Contradictory (options : Table Value) : Prop :=
  ("--color", .bool true) ∈ options ∧ ("--no-color", .bool true) ∈ options

variable {options : Table Value} {color settings after : Settings}

theorem isColorOption_iff : isColorOption option ↔ option = "--color" ∨ option = "--no-color" := by
  simp [isColorOption]

/-- Where no name comes twice, a colour option stands under one of two names. -/
theorem exists_color (h : options.names.Nodup) (p : String → Value → Prop) :
    (∃ entry ∈ options, isColorOption entry.1 ∧ p entry.1 entry.2) ↔
      (∃ given, options.get? "--color" = some given ∧ p "--color" given) ∨
        ∃ given, options.get? "--no-color" = some given ∧ p "--no-color" given := by
  simp only [Table.get?_eq_some_iff h, isColorOption_iff]
  constructor
  · rintro ⟨⟨_, given⟩, hm, rfl | rfl, hp⟩
    · exact .inl ⟨given, hm, hp⟩
    · exact .inr ⟨given, hm, hp⟩
  · rintro (⟨given, hm, hp⟩ | ⟨given, hm, hp⟩)
    · exact ⟨_, hm, .inl rfl, hp⟩
    · exact ⟨_, hm, .inr rfl, hp⟩

theorem decides_color : Decides "--color" given name value ↔
    given = .bool true ∧ name = "color_flag" ∧ value = .bool true := by
  constructor
  · rintro ⟨known, hlabel, rfl, h⟩
    have hknown : known = .color := Known.label_inj.mp hlabel
    subst hknown
    cases h
    exact ⟨rfl, rfl, rfl⟩
  · rintro ⟨rfl, rfl, rfl⟩
    exact ⟨.color, rfl, rfl, .color⟩

theorem decides_noColor : Decides "--no-color" given name value ↔
    given = .bool true ∧ name = "color_flag" ∧ value = .bool false := by
  constructor
  · rintro ⟨known, hlabel, rfl, h⟩
    have hknown : known = .noColor := Known.label_inj.mp hlabel
    subst hknown
    cases h
    exact ⟨rfl, rfl, rfl⟩
  · rintro ⟨rfl, rfl, rfl⟩
    exact ⟨.noColor, rfl, rfl, .noColor⟩

/-- The colour options are refused exactly if one of them is no boolean or both are true. -/
theorem color?_eq_none (h : options.names.Nodup) : color? options = none ↔
    (∃ entry ∈ options, isColorOption entry.1 ∧ ∀ truth, entry.2 ≠ .bool truth) ∨
      Contradictory options := by
  rw [exists_color h fun _ given => ∀ truth, given ≠ .bool truth, Contradictory,
    ← Table.get?_eq_some_iff h, ← Table.get?_eq_some_iff h, color?]
  generalize options.get? "--color" = yes
  generalize options.get? "--no-color" = no
  rcases yes with _ | _ | (_ | _) | _ | _ | _ | _ <;>
    rcases no with _ | _ | (_ | _) | _ | _ | _ | _ <;> simp

theorem mem_color? (h : options.names.Nodup) (hc : color? options = some color) :
    (name, value) ∈ color ↔
      ∃ entry ∈ options, isColorOption entry.1 ∧ Decides entry.1 entry.2 name value := by
  rw [exists_color h fun option given => Decides option given name value]
  simp only [decides_color, decides_noColor]
  unfold color? at hc
  revert hc
  generalize options.get? "--color" = yes
  generalize options.get? "--no-color" = no
  rcases yes with _ | _ | (_ | _) | _ | _ | _ | _ <;>
    rcases no with _ | _ | (_ | _) | _ | _ | _ | _ <;> rintro ⟨⟩ <;> simp

theorem names_color? (hc : color? options = some color) : color.names.Nodup := by
  unfold color? at hc
  split at hc <;> cases hc <;> simp [Table.names]

/-! ## The other options -/

/-- Settings with those that further options decide, unless one is refused. -/
def addAll? (settings : Settings) (entries : Table Value) : Option Settings :=
  entries.foldlM (fun settings (option, given) => add? settings option given) settings

variable {entries : Table Value}

theorem addAll?_cons {entry : String × Value} : addAll? settings (entry :: entries) = some after ↔
    ∃ name value, accept? entry.1 entry.2 = some (name, value) ∧
      addAll? (settings.put name value) entries = some after := by
  have hstep : addAll? settings (entry :: entries) =
      (accept? entry.1 entry.2).bind fun made => addAll? (settings.put made.1 made.2) entries := by
    simp only [addAll?, List.foldlM_cons, add?, Option.bind_eq_bind, Option.bind_map]
    rfl
  simp [hstep, Option.bind_eq_some_iff]

theorem addAll?_eq_some : (∃ after, addAll? settings entries = some after) ↔
    ∀ entry ∈ entries, ∃ name value, accept? entry.1 entry.2 = some (name, value) := by
  induction entries generalizing settings with
  | nil => exact ⟨fun _ => nofun, fun _ => ⟨settings, rfl⟩⟩
  | cons entry rest ih =>
    simp only [addAll?_cons, List.forall_mem_cons]
    constructor
    · rintro ⟨after, name, value, hentry, hrest⟩
      exact ⟨⟨name, value, hentry⟩, ih.mp ⟨after, hrest⟩⟩
    · rintro ⟨⟨name, value, hentry⟩, hrest⟩
      obtain ⟨after, hafter⟩ := ih.mpr hrest
      exact ⟨after, name, value, hentry, hafter⟩

theorem addAll?_nodup (h : addAll? settings entries = some after) (hn : settings.names.Nodup) :
    after.names.Nodup := by
  induction entries generalizing settings with
  | nil =>
    cases h
    exact hn
  | cons entry rest ih =>
    obtain ⟨name, value, -, hrest⟩ := addAll?_cons.mp h
    exact ih hrest (Table.nodup_put hn name value)

/-- Two options that are no colour options do not decide one setting. -/
theorem accept?_inj (h : accept? option given = some (name, value))
    (h' : accept? second found = some (name, other)) : option = second := by
  obtain ⟨hcolor, h⟩ := accept?_eq_some.mp h
  obtain ⟨-, h'⟩ := accept?_eq_some.mp h'
  obtain heq | ⟨rfl, -⟩ | ⟨-, -, rfl, -⟩ := h.eq_or_color h'
  · exact heq
  · cases hcolor
  · cases hcolor

/-- The settings are those that the options decide, and those that were there under names
that they do not decide. -/
theorem get?_addAll? (h : addAll? settings entries = some after) (hn : entries.names.Nodup) :
    after.get? name = some value ↔
      (∃ entry ∈ entries, accept? entry.1 entry.2 = some (name, value)) ∨
        settings.get? name = some value ∧
          ∀ entry ∈ entries, ∀ other, accept? entry.1 entry.2 ≠ some (name, other) := by
  induction entries generalizing settings with
  | nil =>
    cases h
    simp
  | cons entry rest ih =>
    obtain ⟨hname, hrest⟩ := List.nodup_cons.mp hn
    obtain ⟨made, first, hentry, hafter⟩ := addAll?_cons.mp h
    rw [ih hafter hrest, Table.get?_put]
    by_cases hmade : made = name
    · subst hmade
      have hnone : ∀ later ∈ rest, ∀ other, accept? later.1 later.2 ≠ some (made, other) := by
        intro later hm other hother
        exact hname (List.mem_map.mpr ⟨later, hm, accept?_inj hother hentry⟩)
      have hrest : ¬ ∃ later ∈ rest, accept? later.1 later.2 = some (made, value) :=
        fun ⟨later, hm, hlater⟩ => hnone later hm value hlater
      simpa [hentry, hrest] using fun _ option given hm => hnone (option, given) hm
    · simp [hentry, hmade]

/-! ## Whole sections -/

theorem ofOptions?_eq : ofOptions? options = (color? options).bind fun color =>
    addAll? color (options.filter fun entry => !isColorOption entry.1) :=
  rfl

theorem accepts_of_color (h : isColorOption option) :
    Accepts option given ↔ ∃ truth, given = .bool truth := by
  obtain rfl | rfl := isColorOption_iff.mp h <;>
    rcases given with _ | (_ | _) | _ | _ | _ | _ <;>
    simp [Accepts, isOff, h, decides_color, decides_noColor]

theorem accepts_of_not_color (h : isColorOption option = false) :
    Accepts option given ↔ ∃ name value, accept? option given = some (name, value) := by
  simp only [accept?_eq_some, h, true_and, Accepts]
  refine or_iff_right fun hoff => ?_
  unfold isOff at hoff
  split at hoff
  · next heq =>
    cases heq
    rw [h] at hoff
    cases hoff
  · cases hoff

/-- A section is refused exactly if an option in it does not accept what it is given, or both
colour options are true. -/
theorem ofOptions?_eq_none (h : options.names.Nodup) : ofOptions? options = none ↔
    (∃ entry ∈ options, ¬ Accepts entry.1 entry.2) ∨ Contradictory options := by
  have hothers : ∀ color, addAll? color (options.filter fun entry => !isColorOption entry.1) =
      none ↔ ∃ entry ∈ options, isColorOption entry.1 = false ∧ ¬ Accepts entry.1 entry.2 := by
    intro color
    rw [Option.eq_none_iff_forall_ne_some, ← not_exists, addAll?_eq_some]
    simp only [List.mem_filter, Bool.not_eq_true', not_forall, exists_prop, and_assoc]
    refine exists_congr fun entry => and_congr_right fun _ => and_congr_right fun hcolor => ?_
    rw [accepts_of_not_color hcolor]
  have hcolors : (∃ entry ∈ options, isColorOption entry.1 ∧ ∀ truth, entry.2 ≠ .bool truth) ↔
      ∃ entry ∈ options, isColorOption entry.1 ∧ ¬ Accepts entry.1 entry.2 := by
    refine exists_congr fun entry => and_congr_right fun _ => and_congr_right fun hcolor => ?_
    rw [accepts_of_color hcolor, not_exists]
  have hsplit : (∃ entry ∈ options, ¬ Accepts entry.1 entry.2) ↔
      (∃ entry ∈ options, isColorOption entry.1 ∧ ¬ Accepts entry.1 entry.2) ∨
        ∃ entry ∈ options, isColorOption entry.1 = false ∧ ¬ Accepts entry.1 entry.2 := by
    simp only [← exists_or, ← and_or_left, ← or_and_right, Bool.eq_true_or_eq_false_self, true_and]
  rw [ofOptions?_eq, Option.bind_eq_none_iff, hsplit, ← hcolors, or_right_comm,
    ← color?_eq_none h]
  cases hc : color? options with
  | none => simp
  | some color => simp [hothers]

/-- The options of a section that decide something. -/
def deciding (options : Table Value) : Table Value :=
  options.filter fun entry => !isOff entry

/-- What a section decides that is accepted. -/
structure Decided (options : Table Value) (settings : Settings) : Prop where
  nodup : settings.names.Nodup
  get? : ∀ name value, settings.get? name = some value ↔
    ∃ entry ∈ options, Decides entry.1 entry.2 name value
  names : settings.names.Perm ((deciding options).names.map settingOf)

theorem get?_ofOptions? (h : options.names.Nodup) (hs : ofOptions? options = some settings) :
    settings.get? name = some value ↔ ∃ entry ∈ options, Decides entry.1 entry.2 name value := by
  obtain ⟨color, hc, hs⟩ := Option.bind_eq_some_iff.mp hs
  have hfilter : (Table.names (options.filter fun entry => !isColorOption entry.1)).Nodup :=
    h.sublist (List.filter_sublist.map Prod.fst)
  rw [get?_addAll? hs hfilter, Table.get?_eq_some_iff (names_color? hc), mem_color? h hc]
  simp only [List.mem_filter, Bool.not_eq_true', accept?_eq_some]
  constructor
  · rintro (⟨entry, ⟨hm, -⟩, -, hentry⟩ | ⟨⟨entry, hm, -, hentry⟩, -⟩)
    · exact ⟨entry, hm, hentry⟩
    · exact ⟨entry, hm, hentry⟩
  · rintro ⟨entry, hm, hentry⟩
    cases hcolor : isColorOption entry.1 with
    | false => exact .inl ⟨entry, ⟨hm, hcolor⟩, hcolor, hentry⟩
    | true =>
      refine .inr ⟨⟨entry, hm, hcolor, hentry⟩, fun second ⟨_, hsecond⟩ other hother => ?_⟩
      obtain heq | ⟨-, -, heq, -⟩ | ⟨heq, -⟩ := hentry.eq_or_color (accept?_eq_some.mp hother).2
      · rw [heq, hsecond] at hcolor
        cases hcolor
      · rw [heq] at hsecond
        cases hsecond
      · rw [heq] at hsecond
        cases hsecond

/-- An option that is accepted and not set off decides the setting that goes with it. -/
theorem exists_decides (h : Accepts option given) (ho : isOff (option, given) = false) :
    ∃ value, Decides option given (settingOf option) value := by
  obtain hoff | ⟨name, value, known, rfl, -, hmakes⟩ := h
  · rw [ho] at hoff
    cases hoff
  · exact ⟨value, known, rfl, (settingOf_label known).symm, hmakes⟩

theorem ofOptions?_decided (h : options.names.Nodup) (hs : ofOptions? options = some settings) :
    Decided options settings := by
  have hrefused := (ofOptions?_eq_none h).not.mp (by simp [hs])
  obtain ⟨haccepts, hcontrary⟩ := not_or.mp hrefused
  have hget : ∀ name value, settings.get? name = some value ↔
      ∃ entry ∈ options, Decides entry.1 entry.2 name value := fun _ _ => get?_ofOptions? h hs
  have hnodup : settings.names.Nodup := by
    obtain ⟨color, hc, hs⟩ := Option.bind_eq_some_iff.mp hs
    exact addAll?_nodup hs (names_color? hc)
  have hdeciding : ∀ option ∈ (deciding options).names, ∃ given value,
      (option, given) ∈ options ∧ Decides option given (settingOf option) value := by
    intro option hm
    obtain ⟨⟨_, given⟩, hkept, rfl⟩ := List.mem_map.mp hm
    obtain ⟨hin, hoff⟩ := List.mem_filter.mp hkept
    have haccept : Accepts _ given := not_not.mp fun hnot => haccepts ⟨_, hin, hnot⟩
    obtain ⟨value, hvalue⟩ := exists_decides haccept (by simpa using hoff)
    exact ⟨given, value, hin, hvalue⟩
  refine ⟨hnodup, hget, (List.perm_ext_iff_of_nodup hnodup ?_).mpr fun name => ?_⟩
  · have hkept : (deciding options).names.Nodup := h.sublist (List.filter_sublist.map Prod.fst)
    refine hkept.map_on fun option hm second hm' hs => ?_
    obtain ⟨given, value, hin, hone⟩ := hdeciding option hm
    obtain ⟨found, other, hin', htwo⟩ := hdeciding second hm'
    rw [hs] at hone
    -- Two options could only share a setting if both colour options were true.
    obtain heq | ⟨rfl, rfl, rfl, rfl⟩ | ⟨rfl, rfl, rfl, rfl⟩ := hone.eq_or_color htwo
    · exact heq
    · exact absurd ⟨hin, hin'⟩ hcontrary
    · exact absurd ⟨hin', hin⟩ hcontrary
  · have hname : name ∈ settings.names ↔ ∃ value, settings.get? name = some value := by
      simp [Table.get?_eq_some_iff hnodup, Table.names]
    simp only [hname, hget, List.mem_map]
    constructor
    · rintro ⟨value, ⟨option, given⟩, hin, hentry⟩
      have hkept : (option, given) ∈ deciding options :=
        List.mem_filter.mpr ⟨hin, by simp [hentry.not_isOff]⟩
      exact ⟨option, List.mem_map.mpr ⟨_, hkept, rfl⟩, hentry.name_eq.symm⟩
    · rintro ⟨option, hm, rfl⟩
      obtain ⟨given, value, hin, hentry⟩ := hdeciding option hm
      exact ⟨value, (option, given), hin, hentry⟩

/-- The settings do not depend on the order of the options. -/
theorem get?_shuffled {shuffled : Table Value} (h : options.names.Nodup)
    (hp : shuffled.Perm options) :
    (ofOptions? shuffled).map Table.get? = (ofOptions? options).map Table.get? := by
  have hshuffled : shuffled.names.Nodup := (hp.map Prod.fst).nodup_iff.mpr h
  have hnone : ofOptions? shuffled = none ↔ ofOptions? options = none := by
    simp only [ofOptions?_eq_none hshuffled, ofOptions?_eq_none h, Contradictory, hp.mem_iff]
  cases hs : ofOptions? options with
  | none => rw [hnone.mpr hs]
  | some settings =>
    cases hs' : ofOptions? shuffled with
    | none => rw [hnone.mp hs'] at hs; cases hs
    | some settings' =>
      refine congrArg some (funext fun name => Option.ext fun value => ?_)
      simp only [get?_ofOptions? h hs, get?_ofOptions? hshuffled hs', hp.mem_iff]

/-! ## Agreement with the command -/

theorem decides_out : Decides option given "out" value ↔ option = "--out" ∧ ∃ s, given = .text s ∧
    value = .text (String.ofList (Text.trim s.toList)) ∧
      ∃ format, Report.format s = .ok format := by
  simp only [Report.format_eq_ok]
  constructor
  · rintro ⟨known, rfl, hs, h⟩
    cases h with
    | out h => exact ⟨rfl, _, rfl, rfl, _, h⟩
    | _ => exact absurd hs (by decide)
  · rintro ⟨rfl, s, rfl, rfl, format, h⟩
    exact ⟨.out, rfl, rfl, .out h⟩

theorem decides_indent : Decides option given "indent" value ↔
    option = "--indent" ∧ ∃ n : Int, 0 ≤ n ∧ given = .number (.int n) ∧ value = given := by
  constructor
  · rintro ⟨known, rfl, hs, h⟩
    cases h with
    | indent h => exact ⟨rfl, _, h, rfl, rfl⟩
    | _ => exact absurd hs (by decide)
  · rintro ⟨rfl, n, h, rfl, rfl⟩
    exact ⟨.indent, rfl, rfl, .indent h⟩

/-- A name and what is left of it when it is trimmed name one format. -/
theorem format_trimmed (s : String) :
    Report.format (String.ofList (Text.trim s.toList)) = .ok format ↔
      Report.format s = .ok format := by
  rw [Report.format_eq_ok, Report.format_eq_ok, String.toList_ofList, Text.trim_trim]

theorem add?_out {s : String} : (∃ made, add? settings "--out" (.text s) = some made) ↔
    ∃ format, Report.format s = .ok format := by
  simp only [add?, Option.map_eq_some_iff, Prod.exists, accept?_out, Report.format_eq_ok]
  constructor
  · rintro ⟨-, -, -, ⟨hformat, -⟩, -⟩
    exact hformat
  · intro hformat
    exact ⟨_, _, _, ⟨hformat, rfl, rfl⟩, rfl⟩

theorem format_of_accepted (h : options.names.Nodup) (hs : ofOptions? options = some settings) :
    ∃ format, Report.format (settings.textOr "out" Format.json.name) = .ok format ∧
      ∀ s, ("--out", .text s) ∈ options → Report.format s = .ok format := by
  have haccepts := (not_or.mp ((ofOptions?_eq_none h).not.mp (by simp [hs]))).1
  cases hout : settings.get? "out" with
  | none =>
    have hdefault : Report.format Format.json.name = .ok .json :=
      Report.format_eq_ok.mpr (by decide)
    refine ⟨.json, by simpa only [textOr, hout] using hdefault, fun s hm => ?_⟩
    have haccept : Accepts "--out" (.text s) := not_not.mp fun hnot => haccepts ⟨_, hm, hnot⟩
    obtain ⟨value, hvalue⟩ := exists_decides haccept rfl
    have hset := (get?_ofOptions? h hs).mpr ⟨_, hm, hvalue⟩
    cases hout.symm.trans hset
  | some value =>
    obtain ⟨⟨option, given⟩, hm, hentry⟩ := (get?_ofOptions? h hs).mp hout
    obtain ⟨rfl, t, rfl, rfl, format, hformat⟩ := decides_out.mp hentry
    refine ⟨format, ?_, fun s hm' => ?_⟩
    · simp only [textOr, hout]
      exact (format_trimmed t).mpr hformat
    · have hone := (Table.get?_eq_some_iff h).mpr hm
      have htwo := (Table.get?_eq_some_iff h).mpr hm'
      cases hone.symm.trans htwo
      exact hformat

theorem indent_of_accepted (h : options.names.Nodup) (hs : ofOptions? options = some settings) :
    0 ≤ settings.indent := by
  unfold indent
  split
  · next n hn =>
    obtain ⟨entry, -, hentry⟩ := (get?_ofOptions? h hs).mp hn
    obtain ⟨-, m, hm, hgiven, hvalue⟩ := decides_indent.mp hentry
    cases hvalue.trans hgiven
    exact hm
  · decide

/-- A section is accepted as a whole or not at all, whatever the order of its options.  What
it decides is one setting for each option but colour options set to false, and a command
that takes its format and its indentation from there accepts both.  A format that the
command accepts is accepted in a section, too. -/
theorem ofOptions?_whole (options : Table Value) (h : options.names.Nodup) :
    (ofOptions? options = none ↔
      (∃ entry ∈ options, ¬ Accepts entry.1 entry.2) ∨ Contradictory options) ∧
    (∀ shuffled : Table Value, shuffled.Perm options →
      (ofOptions? shuffled).map Table.get? = (ofOptions? options).map Table.get?) ∧
    (∀ settings, ofOptions? options = some settings → Decided options settings ∧
      ∀ call : Command.Call,
        (call.out = none → ∃ format,
          Report.format (Command.Job.ofCall settings call).out = .ok format ∧
            ∀ s, ("--out", .text s) ∈ options → Report.format s = .ok format) ∧
        (call.indent = none → 0 ≤ (Command.Job.ofCall settings call).indent)) ∧
    ∀ settings s, (∃ made, add? settings "--out" (.text s) = some made) ↔
      ∃ format, Report.format s = .ok format := by
  refine ⟨ofOptions?_eq_none h, fun shuffled hp => get?_shuffled h hp,
    fun settings hs => ⟨ofOptions?_decided h hs, fun call => ⟨fun hout => ?_, fun hindent => ?_⟩⟩,
    fun settings s => ?_⟩
  · simpa [Command.Job.ofCall, hout] using format_of_accepted h hs
  · simpa [Command.Job.ofCall, hindent] using indent_of_accepted h hs
  · exact add?_out

/-- A section in which a colour option is set off, and a format is written with blanks and in
capitals. -/
def spaced : Table Value :=
  [("--no-color", .bool true), ("--out", .text " TEXT\t"), ("--color", .bool false),
    ("--indent", .number (.int 0))]

def spacedSettings : Settings :=
  [("color_flag", .bool false), ("out", .text "TEXT"), ("indent", .number (.int 0))]

/-- A call that leaves everything to the settings. -/
def openCall : Command.Call :=
  ⟨.run, ["q", "d"], none, none, none, none, none, false⟩

theorem ofOptions?_whole_spaced :
    spaced.names.Nodup ∧ spaced.reverse.Perm spaced ∧
      ofOptions? spaced = some spacedSettings ∧ Decided spaced spacedSettings ∧
      (ofOptions? spaced.reverse).map Table.get? = (ofOptions? spaced).map Table.get? ∧
      (∃ format, Report.format (Command.Job.ofCall spacedSettings openCall).out = .ok format ∧
        ∀ s, ("--out", .text s) ∈ spaced → Report.format s = .ok format) ∧
      0 ≤ (Command.Job.ofCall spacedSettings openCall).indent := by
  have hnames : spaced.names.Nodup := by decide
  have hperm : spaced.reverse.Perm spaced := spaced.reverse_perm
  have hmade : ofOptions? spaced = some spacedSettings := rfl
  obtain ⟨-, hshuffled, hdecided, -⟩ := ofOptions?_whole spaced hnames
  obtain ⟨hsettings, hcalls⟩ := hdecided _ hmade
  obtain ⟨hformat, hindent⟩ := hcalls openCall
  exact ⟨hnames, hperm, hmade, hsettings, hshuffled _ hperm, hformat rfl, hindent rfl⟩

end Settings
end RecordQuery
