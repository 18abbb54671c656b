import Mathlib.Data.List.Induction
import SolverSession.Proofs.SettingOptions

/-!
# Configured options

What a configuration says about an option is what the last call for the option says, or else what
the log sink was last set to, and a session that is opened with it has its options so. The engine is
given the log sink first and then the options by name, so a name may come twice, and the second
value is the one that was asked for.
-/
namespace SolverSession

/-! ## What calls ask for -/

namespace ConfigCall

def option? : ConfigCall → Option (String × OptionValue)
  | option name value => some (name,value)
  | _ => none

/-- The part of the log sink that is set, as an option. -/
def sink? : ConfigCall → Option (String × OptionValue)
  | outputFlag on => some ("output_flag",.bool on)
  | logToConsole on => some ("log_to_console",.bool on)
  | logFile path => some ("log_file",.text path)
  | option _ _ => none

end ConfigCall

/-- The value of the last call that sets the option by its name. -/
def lastOption? (calls : List ConfigCall) (name : String) : Option OptionValue :=
  (calls.filterMap ConfigCall.option?).reverse.lookup name

/-- The value of the last call that sets this part of the log sink; without one the flags are
off. -/
def lastSink? (calls : List ConfigCall) (name : String) : Option OptionValue :=
  ((calls.filterMap ConfigCall.sink?).reverse.lookup name).or
    ([("output_flag",.bool false),("log_to_console",.bool false)].lookup name)

namespace SessionConfig

def sink (c : SessionConfig) : List (String × OptionValue) :=
  [("output_flag",.bool c.outputFlag),("log_to_console",.bool c.logToConsole)]
    ++ (match c.logFile with
      | none => []
      | some path => [("log_file",.text path)])

theorem settings_eq (c : SessionConfig) : c.settings = c.sink ++ c.options.entries := rfl

theorem sink_nodup (c : SessionConfig) : (c.sink.map (·.1)).Nodup := by
  unfold sink
  cases c.logFile with
  | none => exact show ["output_flag","log_to_console"].Nodup by decide
  | some path => exact show ["output_flag","log_to_console","log_file"].Nodup by decide

theorem lookup_sink (c : SessionConfig) (name : String) : c.sink.lookup name =
    if name = "output_flag" then some (.bool c.outputFlag)
    else if name = "log_to_console" then some (.bool c.logToConsole)
    else if name = "log_file" then c.logFile.map .text
    else none := by
  unfold sink
  cases c.logFile with
  | none => simp [OptionTable.lookup_cons_eq]
  | some path => simp [OptionTable.lookup_cons_eq]

theorem ofCalls_concat (calls : List ConfigCall) (c : ConfigCall) :
    ofCalls (calls ++ [c]) = (ofCalls calls).apply c := List.foldl_concat ..

theorem get?_apply (c : SessionConfig) (call : ConfigCall) (name : String) :
    (c.apply call).options.get? name =
      (call.option?.toList.lookup name).or (c.options.get? name) := by
  cases call with
  | option key value =>
    refine (OptionTable.get?_insert ..).trans ?_
    rw [ConfigCall.option?, Option.toList_some, OptionTable.lookup_cons_eq]
    split <;> rfl
  | _ => rfl

theorem lookup_sink_apply (c : SessionConfig) (call : ConfigCall) (name : String) :
    (c.apply call).sink.lookup name =
      (call.sink?.toList.lookup name).or (c.sink.lookup name) := by
  rw [lookup_sink, lookup_sink]
  cases call with
  | option key value => rfl
  | outputFlag on =>
    simp only [apply, ConfigCall.sink?, Option.toList_some, OptionTable.lookup_cons_eq]
    by_cases h : name = "output_flag" <;> simp [h]
  | logToConsole on =>
    simp only [apply, ConfigCall.sink?, Option.toList_some, OptionTable.lookup_cons_eq]
    by_cases h : name = "log_to_console" <;> simp [h]
  | logFile path =>
    simp only [apply, ConfigCall.sink?, Option.toList_some, OptionTable.lookup_cons_eq]
    by_cases h : name = "log_file" <;> simp [h]

theorem options_ofCalls (calls : List ConfigCall) (name : String) :
    (ofCalls calls).options.get? name = lastOption? calls name := by
  induction calls using List.reverseRecOn with
  | nil => rfl
  | append_singleton calls c ih =>
    rw [ofCalls_concat, get?_apply, ih, lastOption?, lastOption?, List.filterMap_append,
      List.reverse_append, List.lookup_append]
    cases c <;> rfl

theorem sink_ofCalls (calls : List ConfigCall) (name : String) :
    (ofCalls calls).sink.lookup name = lastSink? calls name := by
  induction calls using List.reverseRecOn with
  | nil => rfl
  | append_singleton calls c ih =>
    rw [ofCalls_concat, lookup_sink_apply, ih, lastSink?, lastSink?, List.filterMap_append,
      List.reverse_append, List.lookup_append, Option.or_assoc]
    cases c <;> rfl

/-- Of the values an engine is given for an option, the last is the one asked for by name. -/
theorem lookup_settings (calls : List ConfigCall) (name : String) :
    (ofCalls calls).settings.reverse.lookup name =
      (lastOption? calls name).or (lastSink? calls name) := by
  have hoptions := nodup_of_increasing (ofCalls calls).options.ordered
  rw [settings_eq, List.reverse_append, List.lookup_append, lookup_reverse hoptions,
    lookup_reverse (sink_nodup _), sink_ofCalls, ← options_ofCalls]
  rfl

theorem mem_settings {calls : List ConfigCall} {name : String} {value : OptionValue} :
    (name,value) ∈ (ofCalls calls).settings ↔
      lastSink? calls name = some value ∨ lastOption? calls name = some value := by
  rw [settings_eq, List.mem_append, OptionTable.mem_entries_iff, options_ofCalls,
    ← lookup_eq_some_iff_mem (sink_nodup _), sink_ofCalls]

end SessionConfig

/-! ## What the engine is given -/

/-- The options of the log sink are there, and of the kinds that it is set to. -/
structure OptionTable.HasLogSink (t : OptionTable) : Prop where
  outputFlag : t.kind? "output_flag" = some .bool
  logToConsole : t.kind? "log_to_console" = some .bool
  logFile : t.kind? "log_file" = some .text

theorem Scripted.adjustAll_options (e : Scripted) (xs : List Setting) :
    (xs.foldl adjust e).options = e.options := by
  induction xs generalizing e with
  | nil => rfl
  | cons x xs ih =>
    rw [List.foldl_cons, ih]
    cases x <;> rfl

theorem Scripted.fresh_hasLogSink (xs : List Setting) :
    (xs.foldl adjust fresh).options.HasLogSink := by
  rw [adjustAll_options]
  exact ⟨by decide,by decide,by decide⟩

theorem lastSink?_cases {calls : List ConfigCall} {name : String} {value : OptionValue}
    (h : lastSink? calls name = some value) :
    (name = "output_flag" ∧ value.kind = .bool) ∨ (name = "log_to_console" ∧ value.kind = .bool) ∨
      (name = "log_file" ∧ value.kind = .text) := by
  rw [← SessionConfig.sink_ofCalls, SessionConfig.lookup_sink] at h
  split at h
  case isTrue hname =>
    cases h
    exact .inl ⟨hname,rfl⟩
  case isFalse =>
    split at h
    case isTrue hname =>
      cases h
      exact .inr (.inl ⟨hname,rfl⟩)
    case isFalse =>
      split at h
      case isTrue hname =>
        obtain ⟨path,-,rfl⟩ := Option.map_eq_some_iff.mp h
        exact .inr (.inr ⟨hname,rfl⟩)
      case isFalse => cases h

theorem OptionValue.asKind_self (value : OptionValue) : value.asKind value.kind = some value := by
  cases value <;> rfl

theorem OptionValue.asKind_eq_self {value coerced : OptionValue} {wanted : OptionKind}
    (hkind : value.kind ≠ .int) (h : value.asKind wanted = some coerced) : coerced = value := by
  unfold asKind at h
  split at h
  · exact absurd rfl hkind
  · split at h
    · exact (Option.some.inj h).symm
    · cases h

theorem OptionTable.HasLogSink.coerce? {t : OptionTable} (h : t.HasLogSink)
    {calls : List ConfigCall} {name : String} {value : OptionValue}
    (hvalue : lastSink? calls name = some value) : t.coerce? name value = some value := by
  have hkind : t.kind? name = some value.kind := by
    rcases lastSink?_cases hvalue with ⟨rfl,hkind⟩ | ⟨rfl,hkind⟩ | ⟨rfl,hkind⟩
    · rw [h.outputFlag, hkind]
    · rw [h.logToConsole, hkind]
    · rw [h.logFile, hkind]
  rw [OptionTable.coerce?, hkind, Option.bind_some, OptionValue.asKind_self]

/-- A value that the log sink is set to is taken as it is, if it is taken at all. -/
theorem coerce?_lastSink? {t : OptionTable} {calls : List ConfigCall} {name : String}
    {value coerced : OptionValue} (hvalue : lastSink? calls name = some value)
    (h : t.coerce? name value = some coerced) : coerced = value := by
  obtain ⟨kind,-,hcoerced⟩ := Option.bind_eq_some_iff.mp h
  refine OptionValue.asKind_eq_self ?_ hcoerced
  rcases lastSink?_cases hvalue with ⟨-,hkind⟩ | ⟨-,hkind⟩ | ⟨-,hkind⟩ <;> simp [hkind]

namespace Session

theorem create_outcome {σ : Type} [Engine σ] (engine : σ) (config : SessionConfig) :
    (create engine config).outcome =
      (setOptions ⟨engine,.notSet,Engine.numCols engine,Engine.numRows engine,Option.none⟩
        config.settings).outcome := by
  unfold create
  dsimp only
  split
  case h_1 hok => exact hok.symm
  case h_2 => rfl

theorem option_eq_ok_iff {s : Session Scripted} {name : String} {value : OptionValue} :
    (s.option name).outcome = .ok value ↔ s.engine.options.get? name = some value := by
  rw [← Scripted.getOption_eq_ok_iff]
  unfold option
  cases Engine.getOption name s.engine <;> simp

variable {engine : Scripted} {calls : List ConfigCall}

theorem setOptions_ok_iff (s : Session Scripted) (options : List (String × OptionValue)) :
    (s.setOptions options).outcome = .ok () ↔ ¬OptionsRefused s.engine options := by
  rcases setOptions_cases s options with ⟨⟨cause,hfailed⟩,hrefused,-⟩ | ⟨hok,htaken,-⟩
  · simp [hfailed, hrefused]
  · simp [hok, htaken]

theorem create_ok_iff (hrejected : engine.rejected ≠ some .setOption)
    (hoption : engine.rejectedOption = none) :
    (create engine (.ofCalls calls) : Answer Scripted Unit).outcome = .ok () ↔
      ∀ name value, lastSink? calls name = some value ∨ lastOption? calls name = some value →
        (engine.options.coerce? name value).isSome := by
  rw [create_outcome, setOptions_ok_iff, optionsRefused_iff]
  simp [SessionConfig.mem_settings, hrejected, hoption]

theorem get?_create
    (hok : (create engine (.ofCalls calls) : Answer Scripted Unit).outcome = .ok ())
    (name : String) :
    (create engine (.ofCalls calls)).session.engine.options.get? name =
      (((lastOption? calls name).or (lastSink? calls name)).bind (engine.options.coerce? name)).or
        (engine.options.get? name) := by
  rw [create_outcome] at hok
  rw [create_session]
  rcases setOptions_cases _ (SessionConfig.ofCalls calls).settings with
    ⟨⟨cause,hfailed⟩,-⟩ | ⟨-,-,taken,htakes,hset⟩
  · rw [hfailed] at hok
    cases hok
  · have hlast : taken.reverse.lookup name = _ :=
      OptionTable.lookup_of_takes (List.forall₂_reverse_iff.mpr htakes)
    rw [hset, OptionTable.get?_insertAll, hlast, SessionConfig.lookup_settings]

/-- An option that is asked for by name has the last value asked for. -/
theorem option_create_of_named
    (hok : (create engine (.ofCalls calls) : Answer Scripted Unit).outcome = .ok ())
    {name : String} {value coerced : OptionValue} (hvalue : lastOption? calls name = some value)
    (hcoerced : engine.options.coerce? name value = some coerced) :
    ((create engine (.ofCalls calls) : Answer Scripted Unit).session.option name).outcome =
      .ok coerced := by
  rw [option_eq_ok_iff, get?_create hok, hvalue, Option.some_or, Option.bind_some, hcoerced,
    Option.some_or]

theorem option_create_of_unnamed
    (hok : (create engine (.ofCalls calls) : Answer Scripted Unit).outcome = .ok ())
    (hsinks : ∀ name value, lastSink? calls name = some value →
      ∃ coerced, engine.options.coerce? name value = some coerced)
    {name : String} {before : OptionValue} (hnone : lastOption? calls name = none)
    (hbefore : engine.options.get? name = some before) :
    ((create engine (.ofCalls calls) : Answer Scripted Unit).session.option name).outcome =
      .ok ((lastSink? calls name).getD before) := by
  rw [option_eq_ok_iff, get?_create hok, hnone, Option.none_or, hbefore]
  cases hsink : lastSink? calls name with
  | none => rfl
  | some value =>
    obtain ⟨coerced,hcoerced⟩ := hsinks name value hsink
    rw [Option.bind_some, hcoerced, coerce?_lastSink? hsink hcoerced]
    rfl

/-- Over an engine that rejects nothing, a session can be opened exactly if the log sink and the
last value for every option suit their options; the log sink does where its options are those of the
scripted engine. Every option then has the last value asked for by its name, as its kind takes it;
else what the log sink was last set to; else what it had. -/
theorem create_applies_calls (engine : Scripted) (calls : List ConfigCall)
    (hrejected : engine.rejected ≠ some .setOption) (hoption : engine.rejectedOption = none) :
    let a : Answer Scripted Unit := create engine (.ofCalls calls)
    let takes := fun name value => ∃ coerced, engine.options.coerce? name value = some coerced
    (a.outcome = .ok () ↔ (∀ name value, lastSink? calls name = some value → takes name value) ∧
      ∀ name value, lastOption? calls name = some value → takes name value) ∧
    (engine.options.HasLogSink → (a.outcome = .ok () ↔
      ∀ name value, lastOption? calls name = some value → takes name value)) ∧
    (a.outcome = .ok () → ∀ name before, engine.options.get? name = some before →
      (∀ value, lastOption? calls name = some value →
        ∃ coerced, engine.options.coerce? name value = some coerced ∧
          (a.session.option name).outcome = .ok coerced) ∧
      (lastOption? calls name = none →
        (a.session.option name).outcome = .ok ((lastSink? calls name).getD before))) := by
  intro a takes
  have hiff : a.outcome = .ok () ↔
      (∀ name value, lastSink? calls name = some value → takes name value) ∧
        ∀ name value, lastOption? calls name = some value → takes name value := by
    simp only [a, takes, create_ok_iff hrejected hoption, Option.isSome_iff_exists, or_imp,
      forall_and]
  refine ⟨hiff,fun hsink => ?_,fun hok name before hbefore => ⟨fun value hvalue => ?_,?_⟩⟩
  · rw [hiff]
    exact and_iff_right fun name value hvalue => ⟨value,hsink.coerce? hvalue⟩
  · obtain ⟨coerced,hcoerced⟩ := (hiff.mp hok).2 name value hvalue
    exact ⟨coerced,hcoerced,option_create_of_named hok hvalue hcoerced⟩
  · exact fun hnone => option_create_of_unnamed hok (hiff.mp hok).1 hnone hbefore

/-- The flag set by its name outlasts the call that clears it, and the integer comes as a double. -/
theorem create_applies_calls_flag_by_name :
    let engine := [Scripted.Setting.keepSolution true].foldl Scripted.adjust .fresh
    let calls : List ConfigCall := [.option "output_flag" (.bool true),.logFile "old",
      .option "time_limit" (.text "soon"),.logFile "new",.option "time_limit" (.int 5),
      .outputFlag false]
    let a : Answer Scripted Unit := create engine (.ofCalls calls)
    a.outcome = .ok () ∧ (a.session.option "output_flag").outcome = .ok (.bool true) ∧
      (a.session.option "time_limit").outcome = .ok (.double (Float.ofInt 5)) ∧
      (a.session.option "log_file").outcome = .ok (.text "new") ∧
      (a.session.option "threads").outcome = .ok (.int 0) := by
  intro engine calls a
  obtain ⟨-,hok,hvalues⟩ := create_applies_calls engine calls nofun rfl
  have hcreated : a.outcome = .ok () := by
    refine (hok (Scripted.fresh_hasLogSink _)).mpr fun name value hvalue => ?_
    have hlast : lastOption? calls name = [("time_limit",.int 5),("time_limit",.text "soon"),
        ("output_flag",.bool true)].lookup name := rfl
    rw [hlast, OptionTable.lookup_cons_eq, OptionTable.lookup_cons_eq, OptionTable.lookup_cons_eq]
      at hvalue
    split_ifs at hvalue with htime hflag
    · obtain rfl := Option.some.inj hvalue
      exact ⟨.double (Float.ofInt 5),htime ▸ rfl⟩
    · obtain rfl := Option.some.inj hvalue
      exact ⟨.bool true,hflag ▸ rfl⟩
    · cases hvalue
  have hvalues := hvalues hcreated
  have hflag := (hvalues "output_flag" (.bool true) (by decide)).1 (.bool true) (by decide)
  have hlimit : engine.options.get? "time_limit" = some (.double unboundedAbove) := by decide
  have htime := (hvalues "time_limit" _ hlimit).1 (.int 5) (by decide)
  obtain ⟨_,hcoerced,hflag⟩ := hflag
  obtain rfl := Option.some.inj hcoerced
  obtain ⟨_,hcoerced,htime⟩ := htime
  obtain rfl := Option.some.inj hcoerced
  exact ⟨hcreated,hflag,htime,(hvalues "log_file" (.text "") (by decide)).2 (by decide),
    (hvalues "threads" (.int 0) (by decide)).2 (by decide)⟩

end Session
end SolverSession
