/-
What jobs answer.

A job notes lines while it runs, but nothing it reads, computes or prints depends on them.
So its answer is that of its steps without any notes (`Job.answers_run`), and it can be
compared with the answer of another job step by step (`Agree`).
-/
import Mathlib.Data.List.Forall2
import RecordQuery.Command.Execution

namespace RecordQuery
namespace Command

/-! ## Scripts without their notes -/

section
variable {α β : Type} {script : Script α} {answer : Except Failure α}

/-- That a script ends in one way, whatever has been noted before. -/
def Answers (script : Script α) (answer : Except Failure α) : Prop :=
  ∀ notes, (script.run.run notes).1 = answer

namespace Answers

theorem done (a : α) : Answers (pure a) (.ok a) :=
  fun _ => rfl

theorem failed (failure : Failure) (next : α → Script β) :
    Answers (throw failure >>= next) (.error failure) :=
  fun _ => rfl

theorem lifted (answer : Except Failure α) : Answers (liftM answer) answer :=
  fun _ => rfl

theorem noted (verbose : Bool) (line : String) : Answers (note verbose line) (.ok ()) := by
  intro notes
  cases verbose <;> rfl

theorem bind {next : α → Script β} {after : α → Except Failure β} (h : Answers script answer)
    (hnext : ∀ a, Answers (next a) (after a)) : Answers (script >>= next) (answer >>= after) := by
  intro notes
  rw [ExceptT.run_bind, StateT.run_bind, ← h notes]
  rcases script.run.run notes with ⟨_ | a, noted⟩
  · rfl
  · exact hnext a noted

/-- Notes come and go without a trace. -/
theorem skip {first : Script Unit} (hfirst : Answers first (.ok ())) (h : Answers script answer) :
    Answers (first >>= fun _ => script) answer :=
  bind hfirst fun _ => h

theorem notedAll (verbose : Bool) (lines : List Note) :
    Answers (forIn lines PUnit.unit fun line _ => do
      note verbose line.text
      pure (ForInStep.yield PUnit.unit)) (.ok ()) := by
  induction lines with
  | nil => exact done ()
  | cons line lines ih =>
    rw [List.forIn_cons, bind_assoc]
    exact skip (noted verbose line.text) (by simpa using ih)

end Answers

end

/-! ## Jobs -/

namespace Job

/-- What a program reports of its run. -/
def reported (world : World) (color : Bool) (job : Job) : Except Failure (List Report.Part) :=
  if job.indent < 0 then .error (.usage "Invalid value: --indent must be non-negative")
  else do
    let format ← (Report.format job.out).mapError reportFailure
    let program ← (readQuery world job.queryFile job.query).bind parseQuery
    let data ← readData world job.dataFile
    let results ← (program.run data).mapError failureOf
    (Report.results format color job.outTheme job.indent results).mapError reportFailure

/-- What a job answers. -/
def answer (world : World) (color : Bool) (job : Job) : Except Failure (List Report.Part) :=
  match job.name with
  | .run => reported world color job
  | .paths => do
    let program ← (readQuery world job.queryFile job.query).bind parseQuery
    return program.expectedPaths.map fun path =>
      Report.line color (Markup.colorize .resultValue color path)
  | .tokens => do
    let query ← readQuery world job.queryFile job.query
    return (Token.ofText query).map fun token =>
      Report.line color (Report.tokenLine color token)

variable (world : World) (verbose color : Bool) (settings : Settings) (job : Job)

theorem answers_report : Answers (report world verbose color job) (reported world color job) := by
  unfold report reported
  dsimp only
  split
  · exact Answers.failed _ _
  · refine (Answers.lifted _).bind fun format => (Answers.lifted _).bind fun program =>
      (Answers.lifted _).bind fun data => ?_
    refine (Answers.noted verbose _).skip ((Answers.notedAll verbose _).skip ?_)
    exact (Answers.lifted _).bind fun results => Answers.lifted _

/-- What a job answers does not depend on what is noted. -/
theorem answers_run : Answers (job.run world verbose settings)
    (job.answer world (job.color.getD world.terminal)) := by
  unfold run answer
  dsimp only
  generalize job.color.getD world.terminal = color
  split
  case' h_1 => refine (Answers.noted verbose _).skip ?_
  all_goals
    refine (Answers.noted verbose _).skip ((Answers.noted verbose _).skip ?_)
    cases job.name with
    | run => exact answers_report world verbose color job
    | paths => exact (Answers.lifted _).bind fun program => Answers.done _
    | tokens => exact (Answers.lifted _).bind fun query => Answers.done _

/-- How a job ends with colour or without it. -/
def outcome : Except Failure (List Report.Part) :=
  ((run world verbose settings { job with color := some color }).run.run []).1

theorem outcome_eq : outcome world verbose color settings job = answer world color job :=
  answers_run world verbose settings { job with color := some color } []

end Job

/-! ## Answers that agree -/

/-- That two answers are the same failure, or related results. -/
inductive Agree {ε α β : Type} (r : α → β → Prop) : Except ε α → Except ε β → Prop
  | error (e : ε) : Agree r (.error e) (.error e)
  | ok {a : α} {b : β} (h : r a b) : Agree r (.ok a) (.ok b)

namespace Agree

variable {ε α β γ δ : Type} {r : α → β → Prop} {q : γ → δ → Prop}

theorem bind {x : Except ε α} {y : Except ε β} {f : α → Except ε γ} {g : β → Except ε δ}
    (h : Agree r x y) (hnext : ∀ a b, r a b → Agree q (f a) (g b)) :
    Agree q (x >>= f) (y >>= g) := by
  cases h with
  | error e => exact .error e
  | ok h => exact hnext _ _ h

/-- After the same step, with the same result. -/
theorem after {x : Except ε α} {f : α → Except ε γ} {g : α → Except ε δ}
    (hnext : ∀ a, x = .ok a → Agree q (f a) (g a)) : Agree q (x >>= f) (x >>= g) := by
  cases x with
  | error e => exact .error e
  | ok a => exact hnext a rfl

theorem mapError {ε' : Type} {x : Except ε α} {y : Except ε β} (f : ε → ε') (h : Agree r x y) :
    Agree r (x.mapError f) (y.mapError f) := by
  cases h with
  | error e => exact .error (f e)
  | ok h => exact .ok h

theorem mapM {xs : List α} {f : α → Except ε γ} {g : α → Except ε δ}
    (h : ∀ x ∈ xs, Agree q (f x) (g x)) : Agree (List.Forall₂ q) (xs.mapM f) (xs.mapM g) := by
  induction xs with
  | nil => exact .ok .nil
  | cons x xs ih =>
    obtain ⟨hx, hxs⟩ := List.forall_mem_cons.mp h
    rw [List.mapM_cons, List.mapM_cons]
    exact hx.bind fun a b hab => (ih hxs).bind fun as bs habs => .ok (.cons hab habs)

end Agree

end Command
end RecordQuery
