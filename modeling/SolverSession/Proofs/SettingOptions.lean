import SolverSession.Proofs.OptionTable
import SolverSession.Proofs.Runs

/-!
# Setting options

Setting options over the scripted engine is all or nothing. While options are set, those that were
set are kept with their earlier values, and `Session.Undoes` is what makes undoing them restore the
table: the values are those of the table, every one of them is accepted again, and the other options
have not been touched. No call but this one touches options at all, so their kinds never change.
-/
namespace SolverSession

namespace Scripted

variable {e : Scripted} {name : String} {value : OptionValue}

theorem setOption_rejected (h : e.rejected = some .setOption) :
    e.setOption name value = .failed "scripted rejection" { e with rejected := none } := by
  simp [setOption, checked, h]

theorem setOption_taken (h : e.rejected ≠ some .setOption) (hname : e.rejectedOption ≠ some name) :
    e.setOption name value = .ok { e with options := e.options.insert name value } := by
  simp [setOption, checked, h, hname]

theorem setOption_refused (value : OptionValue) (h : e.rejected ≠ some .setOption)
    (hname : e.rejectedOption = some name) :
    ∃ message, e.setOption name value = .failed message e := by
  unfold setOption checked
  rw [if_neg h]
  exact ⟨_,if_pos hname⟩

theorem optionKind_eq_ok_iff {kind : OptionKind} :
    Engine.optionKind name e = .ok kind ↔ e.options.kind? name = some kind := by
  change (e.getOption name).map OptionValue.kind = .ok kind ↔ _
  unfold getOption OptionTable.kind?
  cases e.options.get? name with
  | none => simp [Except.map]
  | some value => simp [Except.map]

theorem getOption_eq_ok_iff :
    Engine.getOption name e = .ok value ↔ e.options.get? name = some value := by
  change e.getOption name = .ok value ↔ _
  unfold getOption
  cases e.options.get? name with
  | none => simp
  | some value => simp

end Scripted

namespace Session

theorem checkOptions_cases (e : Scripted) (options : List (String × OptionValue)) :
    (∃ checked, (checkOptions e options).1 = .ok checked ∧
      List.Forall₂ e.options.Takes options checked) ∨
    ((∃ cause, (checkOptions e options).1 = .error cause) ∧
      ∃ given ∈ options, e.options.coerce? given.1 given.2 = none) := by
  induction options with
  | nil => exact .inl ⟨[],rfl,.nil⟩
  | cons given rest ih =>
    obtain ⟨name,value⟩ := given
    cases hkind : Engine.optionKind name e with
    | error message =>
      have herror : (checkOptions e ((name,value) :: rest)).1 =
          .error (.native .setOption message) := by
        simp only [checkOptions, hkind]
      have hnone : e.options.kind? name = none := by
        rw [Option.eq_none_iff_forall_ne_some]
        intro kind hsome
        rw [Scripted.optionKind_eq_ok_iff.mpr hsome] at hkind
        cases hkind
      exact .inr ⟨⟨_,herror⟩,(name,value),List.mem_cons_self,
        by simp [OptionTable.coerce?, hnone]⟩
    | ok kind =>
      have hcoerce : e.options.coerce? name value = value.asKind kind := by
        rw [OptionTable.coerce?, Scripted.optionKind_eq_ok_iff.mp hkind]
        rfl
      cases hvalue : value.asKind kind with
      | none =>
        have herror : (checkOptions e ((name,value) :: rest)).1 =
            .error (unsuitable name kind value) := by
          simp only [checkOptions, hkind, hvalue]
        exact .inr ⟨⟨_,herror⟩,(name,value),List.mem_cons_self,hcoerce.trans hvalue⟩
      | some coerced =>
        rcases ih with ⟨checked,hchecked,htakes⟩ | ⟨⟨cause,hcause⟩,bad,hbad,hnone⟩
        · refine .inl ⟨(name,coerced) :: checked,?_,.cons ⟨rfl,hcoerce.trans hvalue⟩ htakes⟩
          simp only [checkOptions, hkind, hvalue, hchecked]
          rfl
        · refine .inr ⟨⟨cause,?_⟩,bad,List.mem_cons_of_mem _ hbad,hnone⟩
          simp only [checkOptions, hkind, hvalue, hcause]
          rfl

theorem currentValues_ok {e : Scripted} {checked : List (String × OptionValue)}
    (h : ∀ entry ∈ checked, ∃ earlier, e.options.get? entry.1 = some earlier) :
    ∃ values, (currentValues e checked).1 = .ok values ∧
      List.Forall₂ (fun entry earlier => e.options.get? entry.1 = some earlier) checked values := by
  induction checked with
  | nil => exact ⟨[],rfl,.nil⟩
  | cons entry rest ih =>
    obtain ⟨⟨earlier,hearlier⟩,hrest⟩ := List.forall_mem_cons.mp h
    obtain ⟨values,hvalues,hall⟩ := ih hrest
    refine ⟨earlier :: values,?_,.cons hearlier hall⟩
    simp only [currentValues, Scripted.getOption_eq_ok_iff.mpr hearlier, hvalues]
    rfl

theorem undoOptions_scripted {s : Session Scripted} {values : List (String × OptionValue)}
    (hpending : s.engine.rejected ≠ some .setOption)
    (haccepted : ∀ e ∈ values, s.engine.rejectedOption ≠ some e.1) :
    (s.undoOptions values).outcome = .ok () ∧
      (s.undoOptions values).session.engine.options = s.engine.options.insertAll values := by
  induction values generalizing s with
  | nil => exact ⟨rfl,rfl⟩
  | cons e rest ih =>
    obtain ⟨he,hrest⟩ := List.forall_mem_cons.mp haccepted
    have htaken : Engine.setOption e.1 e.2 s.engine = _ := Scripted.setOption_taken hpending he
    rw [undoOptions, htaken, calling_ok rfl]
    exact ih hpending hrest

/-- The options in `applied` have values that bring `table` back. -/
structure Undoes (s : Session Scripted) (table : OptionTable)
    (applied : List (String × OptionValue)) : Prop where
  earlier : ∀ e ∈ applied, table.get? e.1 = some e.2
  accepted : ∀ e ∈ applied, s.engine.rejectedOption ≠ some e.1
  others : ∀ name, (∀ e ∈ applied, e.1 ≠ name) → s.engine.options.get? name = table.get? name

theorem Undoes.restores {s : Session Scripted} {table : OptionTable}
    {applied : List (String × OptionValue)} (h : s.Undoes table applied)
    (hpending : s.engine.rejected ≠ some .setOption) :
    (s.undoOptions applied).outcome = .ok () ∧
      (s.undoOptions applied).session.engine.options = table := by
  obtain ⟨hok,hoptions⟩ := undoOptions_scripted hpending h.accepted
  exact ⟨hok,hoptions.trans (OptionTable.insertAll_restores h.earlier h.others)⟩

theorem Undoes.taken {s : Session Scripted} {table : OptionTable}
    {applied : List (String × OptionValue)} (h : s.Undoes table applied) {name : String}
    (value : OptionValue) {earlier : OptionValue} (hname : s.engine.rejectedOption ≠ some name)
    (hearlier : table.get? name = some earlier) :
    Undoes { s with engine := { s.engine with options := s.engine.options.insert name value } }
      table ((name,earlier) :: applied) where
  earlier := List.forall_mem_cons.mpr ⟨hearlier,h.earlier⟩
  accepted := List.forall_mem_cons.mpr ⟨hname,h.accepted⟩
  others := by
    intro key hkey
    obtain ⟨hne,hrest⟩ := List.forall_mem_cons.mp hkey
    exact (OptionTable.get?_insert _ _ _ _).trans ((if_neg hne.symm).trans (h.others key hrest))

/-- Either every option is accepted, or the first one that is refused brings the table back. -/
theorem applyOptions_cases {s : Session Scripted} {table : OptionTable}
    {applied : List (String × OptionValue)} {todo : List ((String × OptionValue) × OptionValue)}
    (hpending : s.engine.rejected ≠ some .setOption) (hundo : s.Undoes table applied)
    (htodo : ∀ entry ∈ todo, table.get? entry.1.1 = some entry.2) :
    ((s.applyOptions applied todo).outcome = .ok () ∧
      (∀ entry ∈ todo, s.engine.rejectedOption ≠ some entry.1.1) ∧
      (s.applyOptions applied todo).session.engine.options =
        s.engine.options.insertAll (todo.map (·.1))) ∨
    ((∃ cause, (s.applyOptions applied todo).outcome = .failed cause) ∧
      (∃ entry ∈ todo, s.engine.rejectedOption = some entry.1.1) ∧
      (s.applyOptions applied todo).session.engine.options = table) := by
  -- `table` stays while the engine's own table moves on; `Undoes` ties the two together.
  induction todo generalizing s applied with
  | nil => exact .inl ⟨rfl,by simp,rfl⟩
  | cons entry rest ih =>
    obtain ⟨⟨name,value⟩,earlier⟩ := entry
    obtain ⟨hearlier,hrest⟩ := List.forall_mem_cons.mp htodo
    by_cases hname : s.engine.rejectedOption = some name
    · obtain ⟨message,hrefused⟩ :=
        Scripted.setOption_refused value hpending hname
      replace hrefused : Engine.setOption name value s.engine = _ := hrefused
      obtain ⟨hok,hoptions⟩ := hundo.restores hpending
      rw [applyOptions, hrefused, calling_failed rfl]
      dsimp only [Reply.failed]
      rw [hok]
      exact .inr ⟨⟨_,rfl⟩,⟨_,List.mem_cons_self,hname⟩,hoptions⟩
    · have htaken : Engine.setOption name value s.engine = _ :=
        Scripted.setOption_taken hpending hname
      rw [applyOptions, htaken, calling_ok rfl]
      let e := { s.engine with options := s.engine.options.insert name value }
      rcases ih (s := { s with engine := e }) hpending (hundo.taken value hname hearlier) hrest with
        ⟨hok,hnames,hoptions⟩ | ⟨hfailed,⟨bad,hbad,hrejected⟩,hoptions⟩
      · exact .inl ⟨hok,List.forall_mem_cons.mpr ⟨hname,hnames⟩,hoptions⟩
      · exact .inr ⟨hfailed,⟨bad,List.mem_cons_of_mem _ hbad,hrejected⟩,hoptions⟩

theorem applyOptions_rejected {s : Session Scripted} (h : s.engine.rejected = some .setOption)
    (entry : (String × OptionValue) × OptionValue)
    (rest : List ((String × OptionValue) × OptionValue)) :
    (∃ cause, (s.applyOptions [] (entry :: rest)).outcome = .failed cause) ∧
      (s.applyOptions [] (entry :: rest)).session.engine.options = s.engine.options := by
  obtain ⟨⟨name,value⟩,earlier⟩ := entry
  have hrejected : Engine.setOption name value s.engine = _ := Scripted.setOption_rejected h
  rw [applyOptions, hrejected, calling_failed rfl]
  exact ⟨⟨_,rfl⟩,rfl⟩

inductive OptionsRefused (e : Scripted) (options : List (String × OptionValue)) : Prop where
  | unsuitable {given : String × OptionValue} (hgiven : given ∈ options)
      (h : e.options.coerce? given.1 given.2 = Option.none)
  | outOfRange {given : String × OptionValue} (hgiven : given ∈ options)
      (h : e.rejectedOption = some given.1)
  | rejected (hoptions : options ≠ []) (h : e.rejected = some .setOption)

/-- Options that were checked, with the values they have now, are applied or refused. -/
theorem applyChecked_cases {s : Session Scripted} {options checked : List (String × OptionValue)}
    {values : List OptionValue} (hoptions : options ≠ [])
    (htakes : List.Forall₂ s.engine.options.Takes options checked)
    (hearlier : List.Forall₂ (fun entry earlier => s.engine.options.get? entry.1 = some earlier)
      checked values) :
    ((∃ cause, (s.applyOptions [] (checked.zip values)).outcome = .failed cause) ∧
      OptionsRefused s.engine options ∧
      (s.applyOptions [] (checked.zip values)).session.engine.options = s.engine.options) ∨
    ((s.applyOptions [] (checked.zip values)).outcome = .ok () ∧
      ¬ OptionsRefused s.engine options ∧
      (s.applyOptions [] (checked.zip values)).session.engine.options =
        s.engine.options.insertAll checked) := by
  obtain ⟨hlength,hzip⟩ := List.forall₂_iff_zip.mp hearlier
  have hfst : (checked.zip values).map (·.1) = checked := List.map_fst_zip (Nat.le_of_eq hlength)
  have hnames : (checked.zip values).map (fun entry => entry.1.1) = options.map (·.1) := calc
    _ = ((checked.zip values).map (·.1)).map (·.1) := List.map_map.symm
    _ = checked.map (·.1) := by rw [hfst]
    _ = options.map (·.1) := OptionTable.names_of_takes htakes
  have htodo : ∀ entry ∈ checked.zip values, s.engine.options.get? entry.1.1 = some entry.2 :=
    fun entry hentry => hzip hentry
  generalize checked.zip values = todo at hfst hnames htodo
  by_cases hpending : s.engine.rejected = some .setOption
  · cases todo with
    | nil => exact absurd (List.map_eq_nil_iff.mp hnames.symm) hoptions
    | cons entry rest =>
      obtain ⟨hfailed,hsame⟩ := applyOptions_rejected hpending entry rest
      exact .inl ⟨hfailed,.rejected hoptions hpending,hsame⟩
  have hundo : s.Undoes s.engine.options [] := ⟨by simp,by simp,fun _ _ => rfl⟩
  -- Nothing is due any more, so the rejected option is the only one that can stop the loop.
  rcases applyOptions_cases hpending hundo htodo with
    ⟨hok,haccepted,hset⟩ | ⟨hfailed,⟨entry,hentry,hname⟩,hsame⟩
  · refine .inr ⟨hok,?_,hfst ▸ hset⟩
    rintro (⟨hgiven,h⟩ | @⟨given,hgiven,h⟩ | ⟨-,h⟩)
    · obtain ⟨coerced,hcoerced⟩ := OptionTable.exists_coerce?_of_takes htakes _ hgiven
      exact absurd (h.symm.trans hcoerced) nofun
    · have hmem : given.1 ∈ options.map (·.1) := List.mem_map_of_mem hgiven
      rw [← hnames] at hmem
      obtain ⟨entry,hentry,heq⟩ := List.mem_map.mp hmem
      exact haccepted entry hentry (heq ▸ h)
    · exact hpending h
  · have hmem : entry.1.1 ∈ todo.map (fun entry => entry.1.1) := List.mem_map_of_mem hentry
    rw [hnames] at hmem
    obtain ⟨given,hgiven,heq⟩ := List.mem_map.mp hmem
    exact .inl ⟨hfailed,.outOfRange hgiven (heq ▸ hname),hsame⟩

/-- Options are refused with a reason and nothing is changed, or they are all taken. -/
theorem setOptions_cases (s : Session Scripted) (options : List (String × OptionValue)) :
    ((∃ cause, (s.setOptions options).outcome = .failed cause) ∧
      OptionsRefused s.engine options ∧
      (s.setOptions options).session.engine.options = s.engine.options) ∨
    ((s.setOptions options).outcome = .ok () ∧ ¬ OptionsRefused s.engine options ∧
      ∃ taken, List.Forall₂ s.engine.options.Takes options taken ∧
        (s.setOptions options).session.engine.options = s.engine.options.insertAll taken) := by
  by_cases hoptions : options = []
  · subst hoptions
    refine .inr ⟨rfl,?_,[],.nil,rfl⟩
    rintro (⟨hgiven,-⟩ | ⟨hgiven,-⟩ | ⟨hoptions,-⟩)
    · cases hgiven
    · cases hgiven
    · exact hoptions rfl
  unfold setOptions
  rcases checkOptions_cases s.engine options with
    ⟨checked,hchecked,htakes⟩ | ⟨⟨cause,hcause⟩,bad,hbad,hnone⟩
  case inr =>
    rw [show checkOptions s.engine options = (.error cause,(checkOptions s.engine options).2) from
      Prod.ext hcause rfl]
    exact .inl ⟨⟨cause,rfl⟩,.unsuitable hbad hnone,rfl⟩
  obtain ⟨values,hvalues,hearlier⟩ := currentValues_ok (OptionTable.exists_get?_of_takes htakes)
  rw [show checkOptions s.engine options = (.ok checked,(checkOptions s.engine options).2) from
    Prod.ext hchecked rfl]
  dsimp only
  rw [show currentValues s.engine checked = (.ok values,(currentValues s.engine checked).2) from
    Prod.ext hvalues rfl]
  simp only [Answer.after_outcome, Answer.after_session]
  exact (applyChecked_cases hoptions htakes hearlier).imp_right fun ⟨hok,hrefused,hset⟩ =>
    ⟨hok,hrefused,checked,htakes,hset⟩

theorem setOptions_kinds (s : Session Scripted) (options : List (String × OptionValue))
    (name : String) : (s.setOptions options).session.engine.options.kind? name =
      s.engine.options.kind? name := by
  rcases setOptions_cases s options with ⟨-,-,hsame⟩ | ⟨-,-,taken,htakes,hset⟩
  · rw [hsame]
  · rw [hset]
    exact OptionTable.kind?_insertAll htakes (fun _ => rfl) name

/-! ## No other call touches options -/

theorem checked_options {e : Scripted} {method : Method} {fails : Scripted → Scripted}
    {goesOn : Scripted → Reply Scripted} (hfails : ∀ f : Scripted, (fails f).options = f.options)
    (hgoesOn : (goesOn e).engine.options = e.options) :
    (e.checked method fails goesOn).engine.options = e.options :=
  Scripted.checked_cases (P := fun r => r.engine.options = e.options) (fun _ => hfails _)
    (fun _ => hgoesOn)

theorem calling_options {s : Session Scripted} {call : EngineCall} {reply : Reply Scripted}
    {β : Type} {refused : String → Session Scripted → Answer Scripted β}
    {returned : Session Scripted → Answer Scripted β}
    (hreply : reply.engine.options = s.engine.options)
    (hrefused : ∀ message t, (refused message t).session.engine = t.engine)
    (hreturned : ∀ t, (returned t).session.engine = t.engine) :
    (s.calling call reply refused returned).session.engine.options = s.engine.options := by
  refine calling_cases (P := fun _ (t : Session Scripted) => t.engine.options = s.engine.options)
    (fun _ => ?_) (fun message _ => ?_) (fun _ => hreply)
  · rw [hreturned]
    exact hreply
  · rw [hrefused]
    exact hreply

theorem writeText_options (path text : String) (e : Scripted) :
    (e.writeText path text).engine.options = e.options := by
  unfold Scripted.writeText
  split <;> rfl

theorem longCall_options (s : Session Scripted) (c : LongCall) :
    (c.perform s).session.engine.options = s.engine.options := by
  cases c <;> simp only [LongCall.perform, Answer.mapValue_session]
  case load model =>
    unfold load
    cases model.flatten with
    | error fault => rfl
    | ok flat => refine calling_options (checked_options ?_ ?_) ?_ ?_ <;> intros <;> rfl
  case loadFile path =>
    refine calling_options (checked_options (fun _ => rfl) ?_) (fun _ _ => rfl) (fun _ => rfl)
    split <;> rfl
  case solve options =>
    refine calling_options (checked_options ?_ rfl) (fun _ _ => rfl) (fun t => ?_)
    · exact fun _ => rfl
    · rw [Answer.after_session, conclude_session]
      rfl
  case writeModel path =>
    refine calling_options (checked_options ?_ (writeText_options _ _ _)) ?_ ?_ <;> intros <;> rfl
  case writeSolution path style =>
    refine calling_options (checked_options ?_ (writeText_options _ _ _)) ?_ ?_ <;> intros <;> rfl

theorem addConstraints_options (s : Session Scripted) (rows : List (Constraint Float)) :
    (s.addConstraints rows).session.engine.options = s.engine.options := by
  unfold addConstraints
  cases RowBatch.ofConstraints rows s.numCols with
  | error fault => rfl
  | ok batch =>
    dsimp only
    split
    · rfl
    · refine calling_options (checked_options (fun _ => rfl) ?_) (fun _ _ => rfl)
        (fun t => refresh_engine _)
      dsimp only
      split
      · split <;> rfl
      · rfl

theorem addVariables_options (s : Session Scripted) (columns : List (Column Float)) :
    (s.addVariables columns).session.engine.options = s.engine.options := by
  unfold addVariables
  cases ColumnBatch.ofColumns columns s.numRows with
  | error fault => rfl
  | ok batch =>
    dsimp only
    split
    · rfl
    · exact calling_options (checked_options (fun _ => rfl) rfl) (fun _ _ => rfl)
        (fun t => refresh_engine _)

theorem warmStart_options (s : Session Scripted) (start : WarmStart) :
    (s.warmStart start).session.engine.options = s.engine.options := by
  unfold warmStart
  cases start.fault? s.numCols s.numRows with
  | some fault => rfl
  | none => refine calling_options (checked_options ?_ ?_) ?_ ?_ <;> intros <;> rfl

theorem reset_options (s : Session Scripted) :
    s.reset.session.engine.options = s.engine.options := by
  refine calling_options (checked_options ?_ ?_) ?_ ?_ <;> intros <;> rfl

/-- No call changes which options there are, nor their kinds. -/
theorem perform_kinds (s : Session Scripted) (c : SessionCall) (name : String) :
    (c.perform s).session.engine.options.kind? name = s.engine.options.kind? name := by
  cases c with
  | long c => exact congrArg (OptionTable.kind? · name) (longCall_options s c)
  | short c =>
    cases c <;> simp only [SessionCall.perform, ShortCall.perform, Answer.mapValue_session]
    case addConstraints rows => rw [addConstraints_options]
    case addVariables columns => rw [addVariables_options]
    case warmStart start => rw [warmStart_options]
    case setOptions options => exact setOptions_kinds s options name
    case option key => rw [option_session]
    case reset => rw [reset_options]

theorem create_kinds (engine : Scripted) (config : SessionConfig) (name : String) :
    (create engine config).session.engine.options.kind? name = engine.options.kind? name := by
  rw [create_session]
  exact setOptions_kinds _ config.settings name

end Session

theorem run_kinds {allowed : Session Scripted → SessionCall → Prop} {first s : Session Scripted}
    {records : List CallRecord} (hrun : Run allowed first records s) (name : String) :
    s.engine.options.kind? name = first.engine.options.kind? name := by
  induction hrun with
  | start => rfl
  | @adjust records s x h ih =>
    rw [← ih]
    cases x <;> rfl
  | call c hc h ih => rw [Session.perform_kinds, ih]

namespace Session

theorem optionsRefused_iff {e : Scripted} {options : List (String × OptionValue)} :
    ¬ OptionsRefused e options ↔
      (∀ name value, (name,value) ∈ options →
        (e.options.coerce? name value).isSome ∧ e.rejectedOption ≠ some name) ∧
      (options ≠ [] → e.rejected ≠ some .setOption) := by
  constructor
  · intro h
    refine ⟨fun name value hgiven => ⟨?_,fun hname => h (.outOfRange hgiven hname)⟩,
      fun hoptions hpending => h (.rejected hoptions hpending)⟩
    rw [Option.isSome_iff_ne_none]
    exact fun hnone => h (.unsuitable hgiven hnone)
  · rintro ⟨hall,hpending⟩ (⟨hgiven,h⟩ | ⟨hgiven,h⟩ | ⟨hoptions,h⟩)
    · have hsome := (hall _ _ hgiven).1
      rw [h] at hsome
      cases hsome
    · exact (hall _ _ hgiven).2 h
    · exact hpending hoptions h

/-- Setting options is all or nothing: it succeeds exactly when there are all the options, they all
suit, none of them refuses every value and no rejection is due; otherwise it fails and the table is
what it was. When it succeeds, every option that is named has the last value given to it, and the
others have what they had. So no run changes which options there are, nor their kinds. -/
theorem setOptions_all_or_nothing (s : Session Scripted) (options : List (String × OptionValue)) :
    ((s.setOptions options).outcome = .ok () ↔
      (∀ name value, (name,value) ∈ options →
        (s.engine.options.coerce? name value).isSome ∧ s.engine.rejectedOption ≠ some name) ∧
      (options ≠ [] → s.engine.rejected ≠ some .setOption)) ∧
    ((s.setOptions options).outcome ≠ .ok () →
      (∃ cause, (s.setOptions options).outcome = .failed cause) ∧
      (s.setOptions options).session.engine.options = s.engine.options) ∧
    ((s.setOptions options).outcome = .ok () →
      (∀ before name value after, options = before ++ (name,value) :: after →
        (∀ later ∈ after, later.1 ≠ name) →
        (s.setOptions options).session.engine.options.get? name =
          s.engine.options.coerce? name value) ∧
      ∀ name, (∀ given ∈ options, given.1 ≠ name) →
        (s.setOptions options).session.engine.options.get? name = s.engine.options.get? name) ∧
    (∀ allowed records t, Run allowed s records t → ∀ name,
      t.engine.options.kind? name = s.engine.options.kind? name) ∧
    ∀ engine config name, (create engine config : Answer Scripted Unit).session.engine.options.kind?
      name = engine.options.kind? name := by
  refine ⟨?_,?_,?_,fun allowed records t hrun name => run_kinds hrun name,create_kinds⟩
  · rw [← optionsRefused_iff]
    rcases setOptions_cases s options with ⟨⟨cause,hfailed⟩,hrefused,-⟩ | ⟨hok,htaken,-⟩
    · simp [hfailed, hrefused]
    · simp [hok, htaken]
  · intro hnot
    rcases setOptions_cases s options with ⟨hfailed,-,hsame⟩ | ⟨hok,-⟩
    · exact ⟨hfailed,hsame⟩
    · exact absurd hok hnot
  · intro hok
    rcases setOptions_cases s options with ⟨⟨cause,hfailed⟩,-⟩ | ⟨-,-,taken,htakes,hset⟩
    · rw [hfailed] at hok
      cases hok
    · rw [hset]
      refine ⟨fun before name value after hoptions hafter => ?_,fun name hname => ?_⟩
      · subst hoptions
        exact OptionTable.get?_insertAll_last htakes hafter
      · exact OptionTable.get?_insertAll_of_not_taken htakes hname

/-- The later of two values counts, unless an option after them is refused. -/
theorem setOptions_all_or_nothing_threads :
    let s : Session Scripted :=
      ⟨{ Scripted.fresh with rejectedOption := some "presolve" },.notSet,0,0,Option.none⟩
    let twice := [("threads",.int 1),("threads",.int 2)]
    (s.setOptions twice).session.engine.options.get? "threads" = some (.int 2) ∧
      (s.setOptions (twice ++ [("presolve",.text "off")])).session.engine.options =
        s.engine.options := by
  intro s twice
  obtain ⟨hiff,-,htaken,-⟩ := setOptions_all_or_nothing s twice
  obtain ⟨-,hrefused,-⟩ := setOptions_all_or_nothing s (twice ++ [("presolve",.text "off")])
  have hsuitable : ∀ given ∈ twice, (s.engine.options.coerce? given.1 given.2).isSome ∧
      s.engine.rejectedOption ≠ some given.1 := by
    decide
  have hok : (s.setOptions twice).outcome = .ok () :=
    hiff.mpr ⟨fun name value hgiven => hsuitable (name,value) hgiven,nofun⟩
  exact ⟨(htaken hok).1 [("threads",.int 1)] "threads" (.int 2) [] rfl (by simp),
    (hrefused nofun).2⟩

end Session
end SolverSession
