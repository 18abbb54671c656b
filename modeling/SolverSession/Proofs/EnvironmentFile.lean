import SolverSession.EnvironmentFile

/-!
# Loading environment files

What is relied on of a library that loads environment files: it adds the variables that are not set,
each as the file sets it first, and leaves the others as they are. A reader that takes the file line
by line does so.
-/
namespace SolverSession

/-- What loading a file does to the variables. -/
structure Dotenv.Documented (d : Dotenv) : Prop where
  /-- No value holds a null character, which no variable can have. -/
  loads {vars : Variables} {file : String} : (∀ e ∈ d.settings vars file, '\x00' ∉ e.2.toList) →
    ∃ loaded, d.load? vars file = some loaded
  keeps {vars loaded : Variables} {file name value : String} : d.load? vars file = some loaded →
    vars name = some value → loaded name = some value
  adds {vars loaded : Variables} {file name : String} : d.load? vars file = some loaded →
    vars name = none → loaded name = (d.settings vars file).lookup name

namespace EnvironmentFile

variable {vars loaded : Variables} {lines : List (List Char)} {name value : String}

theorem add_of_some {key : String} (h : vars name = some value) (other : String) :
    vars.add key other name = some value := by
  unfold Variables.add
  split <;> rw [h]
  rfl

theorem add_of_ne {key : String} (h : name ≠ key) (other : String) :
    vars.add key other name = vars name := if_neg h

theorem add_self (h : vars name = none) (value : String) :
    vars.add name value name = some value := by
  rw [Variables.add, if_pos rfl, h, Option.none_or]

theorem load?_isSome (h : ∀ e ∈ settings vars lines, '\x00' ∉ e.2.toList) :
    ∃ loaded, load? vars lines = some loaded := by
  induction lines generalizing vars with
  | nil => exact ⟨vars,rfl⟩
  | cons line rest ih =>
    unfold settings at h
    unfold load?
    split at h
    case h_1 => exact ih h
    case h_2 name value _ =>
      obtain ⟨hvalue,hrest⟩ := List.forall_mem_cons.mp h
      have hnull : ¬(vars name = none ∧ '\x00' ∈ value.toList) := fun hnull => hvalue hnull.2
      simpa only [if_neg hnull] using ih hrest
    case h_3 => exact ⟨vars,rfl⟩

theorem load?_of_set (hload : load? vars lines = some loaded) (h : vars name = some value) :
    loaded name = some value := by
  induction lines generalizing vars with
  | nil => exact Option.some.inj hload ▸ h
  | cons line rest ih =>
    unfold load? at hload
    split at hload
    case h_1 => exact ih hload h
    case h_2 => exact ih (Option.ite_none_left_eq_some.mp hload).2 (add_of_some h _)
    case h_3 => exact Option.some.inj hload ▸ h

/-- Once it is added a variable is set, so that later lines do not change it. -/
theorem load?_of_unset (hload : load? vars lines = some loaded) (h : vars name = none) :
    loaded name = (settings vars lines).lookup name := by
  induction lines generalizing vars with
  | nil => exact Option.some.inj hload ▸ h
  | cons line rest ih =>
    unfold load? at hload
    unfold settings
    split at hload
    case h_1 => exact ih hload h
    case h_2 key other _ =>
      have hrest := (Option.ite_none_left_eq_some.mp hload).2
      by_cases hkey : name = key
      · subst hkey
        rw [load?_of_set hrest (add_self h other), List.lookup_cons_self]
      · rw [ih hrest ((add_of_ne hkey other).trans h), List.lookup_cons, beq_false_of_ne hkey]
    case h_3 => exact Option.some.inj hload ▸ h

end EnvironmentFile

theorem Dotenv.standard_documented : Dotenv.standard.Documented where
  loads := EnvironmentFile.load?_isSome
  keeps := EnvironmentFile.load?_of_set
  adds := EnvironmentFile.load?_of_unset

end SolverSession
