import Mathlib.Data.List.DropRight
import Mathlib.Data.List.TakeWhile
import SolverSession.Proofs.EnvironmentFile
import SolverSession.Proofs.NumberTexts
import SolverSession.Proofs.OptionTable

/-!
# Fields read from the environment

Every field of the configuration is fed by one variable, and no other variable bears on it. A value
that says nothing leaves the field as it is without the variable, even where the file has another.
This is so whichever library loads the file, as long as it adds what is not set and nothing else.
-/
namespace SolverSession

/-! ## Trimming -/

namespace Text

/-- `middle` is what is left of a text when the white space at both of its ends is gone. -/
structure Trimmed (cs middle : List Char) : Prop where
  parts : ∃ before after, (∀ c ∈ before, isBlank c = true) ∧ (∀ c ∈ after, isBlank c = true) ∧
    cs = before ++ (middle ++ after)
  first : ∀ c ∈ middle.head?, isBlank c = false
  last : ∀ c ∈ middle.getLast?, isBlank c = false

theorem dropWhile_of_head {cs : List Char} (h : ∀ c ∈ cs.head?, isBlank c = false) :
    cs.dropWhile isBlank = cs := by
  cases cs with
  | nil => rfl
  | cons c rest => exact List.dropWhile_cons_of_neg (by simp [h c rfl])

theorem trimEnd_append {middle after : List Char} (hafter : ∀ c ∈ after, isBlank c = true)
    (hlast : ∀ c ∈ middle.getLast?, isBlank c = false) : trimEnd (middle ++ after) = middle := by
  have hhead : ∀ c ∈ middle.reverse.head?, isBlank c = false := by
    rwa [List.head?_reverse]
  have hreverse : ∀ c ∈ after.reverse, isBlank c = true := fun c hc =>
    hafter c (List.mem_reverse.mp hc)
  rw [trimEnd, List.reverse_append, List.dropWhile_append_of_pos hreverse, dropWhile_of_head hhead,
    List.reverse_reverse]

theorem Trimmed.trim_eq {cs middle : List Char} (h : Trimmed cs middle) : trim cs = middle := by
  obtain ⟨⟨before,after,hbefore,hafter,rfl⟩,hfirst,hlast⟩ := h
  rw [trim, List.dropWhile_append_of_pos hbefore]
  cases middle with
  | nil =>
    have hnothing : after.dropWhile isBlank = [] := List.dropWhile_eq_nil_iff.mpr hafter
    rw [List.nil_append, hnothing]
    rfl
  | cons c rest =>
    rw [dropWhile_of_head (by simpa using hfirst)]
    exact trimEnd_append hafter hlast

theorem head?_dropWhile {cs : List Char} :
    ∀ c ∈ (cs.dropWhile isBlank).head?, isBlank c = false := by
  intro c hc
  have hhead := List.head?_dropWhile_not isBlank cs
  rwa [hc] at hhead

theorem getLast?_trimEnd {cs : List Char} : ∀ c ∈ (trimEnd cs).getLast?, isBlank c = false := by
  rw [trimEnd, List.getLast?_reverse]
  exact head?_dropWhile

theorem trimmed_dropWhile (cs : List Char) : Trimmed cs ((trimEnd cs).dropWhile isBlank) where
  parts := by
    refine ⟨(trimEnd cs).takeWhile isBlank,cs.rtakeWhile isBlank,
      fun c hc => List.mem_takeWhile_imp hc,fun c hc => List.mem_rtakeWhile_imp hc,?_⟩
    rw [← List.append_assoc, List.takeWhile_append_dropWhile]
    exact List.rdropWhile_append_rtakeWhile.symm
  first := head?_dropWhile
  last := by
    intro c hc
    have hend : (trimEnd cs).getLast? = some c := by
      rw [← List.takeWhile_append_dropWhile (p := isBlank) (l := trimEnd cs), List.getLast?_append,
        hc, Option.some_or]
    exact getLast?_trimEnd c hend

/-- The ends may be cut off in any order. -/
theorem dropWhile_trimEnd (cs : List Char) : (trimEnd cs).dropWhile isBlank = trim cs :=
  (trimmed_dropWhile cs).trim_eq.symm

theorem trimmed_iff {cs middle : List Char} : Trimmed cs middle ↔ trim cs = middle :=
  ⟨Trimmed.trim_eq,fun h => h ▸ dropWhile_trimEnd cs ▸ trimmed_dropWhile cs⟩

end Text

namespace Environment

/-! ## Variables and their fields -/

inductive Variable where
  | outputFlag
  | logToConsole
  | logFile
  | timeLimit
  | threads
  | presolve
deriving DecidableEq

inductive BoolText : List Char → Bool → Prop where
  | yes : BoolText "true".toList true
  | no : BoolText "false".toList false

theorem readBool?_eq_some_iff {cs : List Char} {b : Bool} :
    readBool? cs = some b ↔ BoolText cs b := by
  constructor
  · intro h
    unfold readBool? at h
    split_ifs at h with hyes hno
    · obtain rfl := Option.some.inj h
      exact hyes ▸ .yes
    · obtain rfl := Option.some.inj h
      exact hno ▸ .no
  · intro h
    cases h <;> decide

namespace Variable

def name : Variable → String
  | outputFlag => "HIGHS_OUTPUT_FLAG"
  | logToConsole => "HIGHS_LOG_TO_CONSOLE"
  | logFile => "HIGHS_LOG_FILE"
  | timeLimit => "HIGHS_TIME_LIMIT"
  | threads => "HIGHS_THREADS"
  | presolve => "HIGHS_PRESOLVE"

def field (c : SessionConfig) : Variable → Option OptionValue
  | outputFlag => some (.bool c.outputFlag)
  | logToConsole => some (.bool c.logToConsole)
  | logFile => c.logFile.map .text
  | timeLimit => c.options.get? "time_limit"
  | threads => c.options.get? "threads"
  | presolve => c.options.get? "presolve"

def unset : Variable → Option OptionValue
  | outputFlag | logToConsole => some (.bool false)
  | logFile | timeLimit | threads | presolve => none

/-- A value means this to the variable. Truth values and numbers may have white space around them,
texts are taken as they are. -/
inductive Means : Variable → String → OptionValue → Prop where
  | outputFlag {value : String} {text : List Char} {b : Bool}
      (htrim : Text.Trimmed value.toList text) (h : BoolText text b) :
      Means outputFlag value (.bool b)
  | logToConsole {value : String} {text : List Char} {b : Bool}
      (htrim : Text.Trimmed value.toList text) (h : BoolText text b) :
      Means logToConsole value (.bool b)
  | logFile (value : String) : Means logFile value (.text value)
  | timeLimit {value : String} {text : List Char} {x : Float}
      (htrim : Text.Trimmed value.toList text) (h : DoubleText text x) :
      Means timeLimit value (.double x)
  | threads {value : String} {text : List Char} {n : Int64}
      (htrim : Text.Trimmed value.toList text) (h : IntegerText text n.toInt) :
      Means threads value (.int n)
  | presolve (value : String) : Means presolve value (.text value)

def read? (value : String) : Variable → Option OptionValue
  | outputFlag | logToConsole => (readBool? (Text.trim value.toList)).map .bool
  | timeLimit => (readDouble? (Text.trim value.toList)).map .double
  | threads => (readInt? (Text.trim value.toList)).map .int
  | logFile | presolve => some (.text value)

theorem read?_eq_some_iff {x : Variable} {value : String} {o : OptionValue} :
    x.read? value = some o ↔ x.Means value o := by
  have htrimmed := Text.trimmed_iff.mpr (Eq.refl (Text.trim value.toList))
  constructor
  · intro h
    cases x with
    | outputFlag =>
      obtain ⟨b,hb,rfl⟩ := Option.map_eq_some_iff.mp h
      exact .outputFlag htrimmed (readBool?_eq_some_iff.mp hb)
    | logToConsole =>
      obtain ⟨b,hb,rfl⟩ := Option.map_eq_some_iff.mp h
      exact .logToConsole htrimmed (readBool?_eq_some_iff.mp hb)
    | timeLimit =>
      obtain ⟨x,hx,rfl⟩ := Option.map_eq_some_iff.mp h
      exact .timeLimit htrimmed (readDouble?_eq_some_iff.mp hx)
    | threads =>
      obtain ⟨n,hn,rfl⟩ := Option.map_eq_some_iff.mp h
      exact .threads htrimmed (readInt?_eq_some_iff.mp hn)
    | logFile => exact Option.some.inj h ▸ .logFile value
    | presolve => exact Option.some.inj h ▸ .presolve value
  · intro h
    cases h with
    | outputFlag htrim h | logToConsole htrim h =>
      rw [read?, htrim.trim_eq, readBool?_eq_some_iff.mpr h, Option.map_some]
    | timeLimit htrim h =>
      rw [read?, htrim.trim_eq, readDouble?_eq_some_iff.mpr h, Option.map_some]
    | threads htrim h =>
      rw [read?, htrim.trim_eq, readInt?_eq_some_iff.mpr h, Option.map_some]
    | logFile | presolve => rfl

end Variable

/-! ## The configuration -/

theorem lookup_option {α : Type} (o : Option α) (key name : String) (f : α → OptionValue) :
    (o.map fun x => (key,f x)).toList.reverse.lookup name =
      if name = key then o.map f else none := by
  cases o with
  | none => exact (ite_self _).symm
  | some x => exact OptionTable.lookup_cons_eq (key,f x) [] name

theorem get?_ofVariables (vars : Variables) (name : String) :
    (SessionConfig.ofVariables vars).options.get? name =
      (if name = "presolve" then (vars "HIGHS_PRESOLVE").map .text else none).or
        ((if name = "threads" then (parse? vars "HIGHS_THREADS" readInt?).map .int else none).or
          (if name = "time_limit" then
            (parse? vars "HIGHS_TIME_LIMIT" readDouble?).map .double else none)) := by
  refine (OptionTable.get?_insertAll .empty _ name).trans ?_
  have hempty : OptionTable.empty.get? name = none := rfl
  rw [hempty, Option.or_none, List.reverse_append, List.reverse_append, List.lookup_append,
    List.lookup_append, lookup_option, lookup_option, lookup_option]

theorem parse?_map {β : Type} (vars : Variables) (name : String) (read : List Char → Option β)
    (f : β → OptionValue) : (parse? vars name read).map f =
      (vars name).bind fun value => (read (Text.trim value.toList)).map f := Option.map_bind ..

theorem flag_eq (flag : Option Bool) : some (OptionValue.bool (flag.getD false)) =
    (flag.map .bool).or (some (.bool false)) := by
  cases flag <;> rfl

/-- A field is what its variable says, if it says something. -/
theorem field_ofVariables (vars : Variables) (x : Variable) :
    x.field (.ofVariables vars) = ((vars x.name).bind x.read?).or x.unset := by
  cases x with
  | outputFlag => exact (flag_eq _).trans (congrArg (Option.or · _) (parse?_map ..))
  | logToConsole => exact (flag_eq _).trans (congrArg (Option.or · _) (parse?_map ..))
  | logFile => exact Option.map_eq_bind.trans Option.or_none.symm
  | timeLimit => exact (get?_ofVariables ..).trans ((parse?_map ..).trans Option.or_none.symm)
  | threads =>
    refine (get?_ofVariables ..).trans ?_
    exact congrArg (Option.or · none) (parse?_map ..)
  | presolve =>
    refine (get?_ofVariables ..).trans ?_
    exact congrArg (Option.or · none) Option.map_eq_bind

theorem get?_ofVariables_other (vars : Variables) {name : String}
    (h : name ∉ ["presolve","threads","time_limit"]) :
    (SessionConfig.ofVariables vars).options.get? name = none := by
  simp only [List.mem_cons, List.not_mem_nil, or_false, not_or] at h
  rw [get?_ofVariables, if_neg h.1, if_neg h.2.1, if_neg h.2.2]
  rfl

section

variable {vars others : Variables} {x : Variable}

theorem field_of_means {v : String} {o : OptionValue} (hv : vars x.name = some v)
    (ho : x.Means v o) : x.field (.ofVariables vars) = some o := by
  rw [field_ofVariables, hv, Option.bind_some, Variable.read?_eq_some_iff.mpr ho, Option.some_or]

theorem field_of_silent (hsilent : ∀ v, vars x.name = some v → ∀ o, ¬x.Means v o) :
    x.field (.ofVariables vars) = x.unset := by
  have hnone : (vars x.name).bind x.read? = none := by
    rw [Option.bind_eq_none_iff]
    intro v hv
    exact Option.eq_none_iff_forall_ne_some.mpr fun o ho =>
      hsilent v hv o (Variable.read?_eq_some_iff.mp ho)
  rw [field_ofVariables, hnone, Option.none_or]

theorem field_congr (hvalue : others x.name = vars x.name) :
    x.field (.ofVariables others) = x.field (.ofVariables vars) := by
  rw [field_ofVariables, field_ofVariables, hvalue]

/-- Two configurations from variables are the same if their fields are. -/
theorem ofVariables_eq
    (h : ∀ x : Variable, x.field (.ofVariables others) = x.field (.ofVariables vars)) :
    SessionConfig.ofVariables others = .ofVariables vars := by
  have hoptions : (SessionConfig.ofVariables others).options =
      (SessionConfig.ofVariables vars).options := by
    refine OptionTable.ext_get? fun name => ?_
    by_cases hname : name ∈ ["presolve","threads","time_limit"]
    · simp only [List.mem_cons, List.not_mem_nil, or_false] at hname
      rcases hname with rfl | rfl | rfl
      · exact h .presolve
      · exact h .threads
      · exact h .timeLimit
    · rw [get?_ofVariables_other others hname, get?_ofVariables_other vars hname]
  have hflag := OptionValue.bool.inj (Option.some.inj (h .outputFlag))
  have hconsole := OptionValue.bool.inj (Option.some.inj (h .logToConsole))
  have hfile := Option.map_injective (fun _ _ => OptionValue.text.inj) (h .logFile)
  exact (SessionConfig.mk.injEq ..).mpr ⟨hflag,hconsole,hfile,hoptions⟩

/-- Where the value of a variable means nothing the variable may as well not be there. -/
theorem ofVariables_of_silent (hsilent : ∀ v, vars x.name = some v → ∀ o, ¬x.Means v o)
    (habsent : others x.name = none) (hothers : ∀ y ≠ x, others y.name = vars y.name) :
    SessionConfig.ofVariables others = .ofVariables vars := by
  refine ofVariables_eq fun y => ?_
  by_cases hxy : y = x
  · subst hxy
    rw [field_of_silent hsilent]
    refine field_of_silent fun v hv => ?_
    rw [habsent] at hv
    cases hv
  · exact field_congr (hothers y hxy)

end

/-! ## Loading the file -/

/-- The value that is set, else the first of the file. -/
def effective? (d : Dotenv) (e : Environment) : Variables :=
  fun name => (e.vars name).or ((d.settings e.vars e.file).lookup name)

theorem ofEnvironment?_eq_some {d : Dotenv} (hd : d.Documented) {e : Environment}
    {c : SessionConfig} (h : SessionConfig.ofEnvironment? d e = some c) :
    c = .ofVariables (effective? d e) := by
  obtain ⟨loaded,hload,rfl⟩ := Option.map_eq_some_iff.mp h
  have hloaded : loaded = effective? d e := by
    funext name
    cases hset : e.vars name with
    | some value => rw [effective?, hset, hd.keeps hload hset, Option.some_or]
    | none => rw [effective?, hset, hd.adds hload hset, Option.none_or]
  rw [hloaded]

/-- The configuration is read unless the file holds a value that cannot be set. Every field is what
the value of its variable means, and what it is without the variable where the value means nothing;
no other option is given. A field depends on its own variable alone. A variable that is set to
something without a meaning is as good as absent, whatever the file has. -/
theorem ofEnvironment_fieldwise {d : Dotenv} (hd : d.Documented) (e : Environment) :
    let value := effective? d e
    ((∀ s ∈ d.settings e.vars e.file, '\x00' ∉ s.2.toList) →
      ∃ c, SessionConfig.ofEnvironment? d e = some c) ∧
    ∀ c, SessionConfig.ofEnvironment? d e = some c →
      (∀ (x : Variable) (v : String) (o : OptionValue), value x.name = some v → x.Means v o →
        x.field c = some o) ∧
      (∀ x : Variable, (∀ v, value x.name = some v → ∀ o, ¬x.Means v o) → x.field c = x.unset) ∧
      (∀ name, name ∉ ["presolve","threads","time_limit"] → c.options.get? name = none) ∧
      ∀ (e' : Environment) (c' : SessionConfig), SessionConfig.ofEnvironment? d e' = some c' →
        let value' := effective? d e'
        (∀ x : Variable, value' x.name = value x.name → x.field c' = x.field c) ∧
        ((∀ x : Variable, value' x.name = value x.name) → c' = c) ∧
        ∀ (x : Variable) (v : String), e.vars x.name = some v → (∀ o, ¬x.Means v o) →
          value' x.name = none → (∀ y ≠ x, value' y.name = value y.name) → c' = c := by
  intro value
  constructor
  · intro hvalues
    obtain ⟨loaded,hload⟩ := hd.loads hvalues
    exact ⟨_,congrArg (Option.map _) hload⟩
  · intro c hc
    obtain rfl := ofEnvironment?_eq_some hd hc
    refine ⟨fun x v o => field_of_means,fun x => field_of_silent,
      fun name => get?_ofVariables_other value,fun e' c' hc' => ?_⟩
    obtain rfl := ofEnvironment?_eq_some hd hc'
    refine ⟨fun x => field_congr,fun h => ofVariables_eq fun x => field_congr (h x),
      fun x v hv hsilent => ofVariables_of_silent fun w hw => ?_⟩
    have heffective : value x.name = some v := by
      rw [show value = effective? d e from rfl, effective?, hv, Option.some_or]
    obtain rfl := Option.some.inj (heffective.symm.trans hw)
    exact hsilent

/-- The time limit of the file is shadowed by a value that says nothing, the first of the two
numbers of threads counts, and a quoted text is taken with its blanks. -/
theorem ofEnvironment_fieldwise_shadowed_limit :
    let rest := "export HIGHS_THREADS = \" +2 \"\nHIGHS_THREADS=3\nHIGHS_LOG_FILE=' run 1.log '\n"
    let flag := ("HIGHS_OUTPUT_FLAG"," true\t")
    let e : Environment := ⟨fun name => [("HIGHS_TIME_LIMIT","soon"),flag].lookup name,
      " # limits\nHIGHS_TIME_LIMIT=5\r\n" ++ rest⟩
    let e' : Environment := ⟨fun name => [flag].lookup name,rest⟩
    Dotenv.standard.Documented ∧
    ∃ c, SessionConfig.ofEnvironment? .standard e = some c ∧ c.outputFlag = true ∧
      c.options.get? "time_limit" = none ∧ c.options.get? "threads" = some (.int 2) ∧
      c.logFile = some " run 1.log " ∧ SessionConfig.ofEnvironment? .standard e' = some c := by
  intro rest flag e e'
  have hd := Dotenv.standard_documented
  let settings := [("HIGHS_THREADS"," +2 "),("HIGHS_THREADS","3"),("HIGHS_LOG_FILE"," run 1.log ")]
  have hfile : Dotenv.standard.settings e.vars e.file = ("HIGHS_TIME_LIMIT","5") :: settings := by
    decide +kernel
  have hfile' : Dotenv.standard.settings e'.vars e'.file = settings := by decide +kernel
  have hvalue : effective? .standard e = fun name =>
      (e.vars name).or ((("HIGHS_TIME_LIMIT","5") :: settings).lookup name) := by
    rw [← hfile]
    rfl
  have hvalue' : effective? .standard e' = fun name =>
      (e'.vars name).or (settings.lookup name) := by
    rw [← hfile']
    rfl
  obtain ⟨hreturns,hfields⟩ := ofEnvironment_fieldwise hd e
  obtain ⟨c,hc⟩ := hreturns (hfile ▸ by decide)
  obtain ⟨c',hc'⟩ := (ofEnvironment_fieldwise hd e').1 (hfile' ▸ by decide)
  obtain ⟨hmeans,hsilent,-,hothers⟩ := hfields c hc
  rw [hvalue] at hmeans hsilent
  have hsoon : ∀ o, ¬Variable.timeLimit.Means "soon" o := fun o ho => by
    have hread := Variable.read?_eq_some_iff.mpr ho
    cases hread
  have hflag := hmeans .outputFlag " true\t" (.bool true) rfl
    (Variable.read?_eq_some_iff.mp (by decide))
  have hlog := hmeans .logFile " run 1.log " (.text " run 1.log ") rfl (.logFile _)
  have hthreads := hmeans .threads " +2 " (.int 2) rfl
    (Variable.read?_eq_some_iff.mp (by decide +kernel))
  have hlimit := hsilent .timeLimit fun v hv => by
    obtain rfl : "soon" = v := Option.some.inj hv
    exact hsoon
  have hsame : c' = c := by
    refine (hothers e' c' hc').2.2 .timeLimit "soon" rfl hsoon ?_ fun y hy => ?_
    · rw [hvalue']
      rfl
    · rw [hvalue, hvalue']
      cases y with
      | timeLimit => exact absurd rfl hy
      | _ => rfl
  refine ⟨hd,c,hc,OptionValue.bool.inj (Option.some.inj hflag),hlimit,hthreads,?_,hsame ▸ hc'⟩
  exact Option.map_injective (fun _ _ => OptionValue.text.inj) hlog

end Environment
end SolverSession
