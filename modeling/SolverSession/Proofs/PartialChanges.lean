import SolverSession.Engine.Native
import SolverSession.Proofs.Calls
import SolverSession.Proofs.StackedMatrix

/-!
# Changes that stop half way

Each primitive call of a library does its whole change or none of it. An engine call is made of
several: the names follow the model, and the kinds follow the columns. Where a later one is refused
the earlier ones stay, so a load that fails may leave the model it was given, and columns that were
refused may be there all the same. What is remembered follows the library after a load only.
-/
namespace SolverSession

variable {ν κ : Type}

/-- The call makes the change, or reports an error and makes none. -/
def Whole (held : ν → κ) (primitive : ν → CallStatus × ν) (change : κ → κ) : Prop :=
  ∀ l, held (primitive l).2 = if (primitive l).1 = .error then held l else change (held l)

/-- The model inside a library, with what the calls that change it make of it. -/
structure Library.Changes (ν κ : Type) [Library ν] where
  held : ν → κ
  passed : FlatModel Float → κ
  named : Nat → String → κ → κ
  withRows : RowBatch Float → κ → κ
  withCols : ColumnBatch Float → κ → κ
  marked : Nat → Nat → κ → κ
  dims : κ → Nat × Nat
  pass_taken : ∀ m l, (Library.passModel m l).1 ≠ .error →
    held (Library.passModel m l).2 = passed m
  name_whole : ∀ k name, Whole held (Library.passColName k name) (named k name)
  rows_whole : ∀ b, Whole held (Library.addRows b) (withRows b)
  cols_whole : ∀ b, Whole held (Library.addCols b) (withCols b)
  mark_whole : ∀ k code, Whole held (Library.changeColIntegrality k code) (marked k code)
  dims_held : ∀ l, dims (held l) = (Library.numCols l,Library.numRows l)
  dims_passed : ∀ m, dims (passed m) = (m.numCols,m.numRows)
  dims_named : ∀ k name x, dims (named k name x) = dims x
  dims_withRows : ∀ b x, dims (withRows b x) = ((dims x).1,(dims x).2+b.size)
  dims_withCols : ∀ b x, dims (withCols b x) = ((dims x).1+b.size,(dims x).2)
  dims_marked : ∀ k code x, dims (marked k code x) = dims x

/-- A model that is not taken may clear the one that is there. -/
structure Library.Contents (ν κ : Type) [Library ν] extends Library.Changes ν κ where
  empty : κ
  pass_refused : ∀ m l, (Library.passModel m l).1 = .error →
    held (Library.passModel m l).2 = held l ∨ held (Library.passModel m l).2 = empty

namespace Native

namespace Stage

/-- The step makes the change, or stops and makes none. It does nothing once a step has stopped. -/
structure Step (held : ν → κ) (step : Stage ν → Stage ν) (change : κ → κ) : Prop where
  stopped : ∀ s, s.stopped ≠ none → step s = s
  going : ∀ s, s.stopped = none → held (step s).library =
    if (step s).stopped = none then change (held s.library) else held s.library

variable {held : ν → κ} {change : κ → κ}

theorem call_of_stopped {s : Stage ν} (h : s.stopped ≠ none) (name : String)
    (primitive : ν → CallStatus × ν) : s.call name primitive = s := by
  obtain ⟨message,hmessage⟩ := Option.ne_none_iff_exists'.mp h
  simp only [call, hmessage]

theorem call_library {s : Stage ν} (h : s.stopped = none) (name : String)
    (primitive : ν → CallStatus × ν) :
    (s.call name primitive).library = (primitive s.library).2 ∧
      ((s.call name primitive).stopped = none ↔ (primitive s.library).1 ≠ .error) := by
  simp only [call, h]
  rcases primitive s.library with ⟨status,l⟩
  cases status <;> simp

theorem call_step {primitive : ν → CallStatus × ν} (h : Whole held primitive change)
    (name : String) : Step held (call name primitive) change := by
  refine ⟨fun s hs => call_of_stopped hs name primitive,fun s hs => ?_⟩
  obtain ⟨hlibrary,hgoes⟩ := call_library hs name primitive
  rw [hlibrary, h]
  by_cases herror : (primitive s.library).1 = .error
  · rw [if_pos herror, if_neg fun hnone => hgoes.mp hnone herror]
  · rw [if_neg herror, if_pos (hgoes.mpr herror)]

theorem require_library (message : Option String) (s : Stage ν) :
    (s.require message).library = s.library := by
  unfold require
  split <;> rfl

theorem require_of_stopped {s : Stage ν} (h : s.stopped ≠ none) (message : Option String) :
    s.require message = s := by
  obtain ⟨first,hfirst⟩ := Option.ne_none_iff_exists'.mp h
  simp only [require, hfirst]

theorem require_stopped {s : Stage ν} (h : s.stopped = none) (message : Option String) :
    (s.require message).stopped = message := by
  simp only [require, h]

/-- A check in front of a step leaves it a step. Two changes one after the other are none. -/
theorem Step.require {step : Stage ν → Stage ν} (h : Step held step change)
    (message : Option String) : Step held (fun s => step (s.require message)) change := by
  refine ⟨fun s hs => ?_,fun s hs => ?_⟩
  · rw [require_of_stopped hs, h.stopped s hs]
  · rw [← require_library message s]
    cases message with
    | none => exact h.going _ (require_stopped hs _)
    | some text =>
      have htext : (s.require (some text)).stopped ≠ none := by
        rw [require_stopped hs]
        exact Option.some_ne_none text
      rw [h.stopped _ htext, if_neg htext]

/-- Steps one after the other: all changes are made, or those before the first that stops. -/
theorem foldl_steps {β : Type} {step : β → Stage ν → Stage ν} {change : β → κ → κ}
    (h : ∀ x, Step held (step x) (change x)) (xs : List β) {s : Stage ν} (hs : s.stopped = none) :
    ((xs.foldl (fun s x => step x s) s).stopped = none ∧
      held (xs.foldl (fun s x => step x s) s).library =
        xs.foldl (fun m x => change x m) (held s.library)) ∨
    ((xs.foldl (fun s x => step x s) s).stopped ≠ none ∧ ∃ done x rest,
      xs = done ++ x :: rest ∧ (∃ t : Stage ν, t.stopped = none ∧ (step x t).stopped ≠ none) ∧
      held (xs.foldl (fun s x => step x s) s).library =
        done.foldl (fun m x => change x m) (held s.library)) := by
  induction xs generalizing s with
  | nil => exact .inl ⟨hs,rfl⟩
  | cons x xs ih =>
    have hgoing := (h x).going s hs
    simp only [List.foldl_cons]
    by_cases hnext : (step x s).stopped = none
    · rw [if_pos hnext] at hgoing
      rcases ih hnext with ⟨hnone,hall⟩ | ⟨hsome,done,y,rest,rfl,hrefused,hsofar⟩
      · exact .inl ⟨hnone,hgoing ▸ hall⟩
      · exact .inr ⟨hsome,x :: done,y,rest,rfl,hrefused,by rw [List.foldl_cons, ← hgoing, hsofar]⟩
    · have hrest : xs.foldl (fun s x => step x s) (step x s) = step x s := by
        refine List.foldl_fixed' (fun y => (h y).stopped _ hnext) xs
      rw [hrest]
      rw [if_neg hnext] at hgoing
      exact .inr ⟨hnext,[],x,xs,rfl,⟨s,hs,hnext⟩,hgoing⟩

theorem reply_outcome (s : Stage ν) :
    (s.stopped = none → s.reply.outcome = .ok ()) ∧
      (s.stopped ≠ none → ∃ message, s.reply.outcome = .failed message) := by
  unfold reply
  cases s.stopped with
  | none => exact ⟨fun _ => rfl,fun h => absurd rfl h⟩
  | some message => exact ⟨nofun,fun _ => ⟨message,rfl⟩⟩

theorem reply_not_crashed (s : Stage ν) : s.reply.outcome ≠ .crashed := by
  intro hcrashed
  by_cases hs : s.stopped = none
  · rw [(reply_outcome s).1 hs] at hcrashed
    cases hcrashed
  · obtain ⟨message,hfailed⟩ := (reply_outcome s).2 hs
    rw [hfailed] at hcrashed
    cases hcrashed

end Stage

variable [Library ν]

def passName (name : String × Nat) (s : Stage ν) : Stage ν :=
  ((s.require (zeroIn? "column name" name.1)).require (tooLarge? [name.2])).call
    "Highs_passColName" (Library.passColName name.2 name.1)

theorem passNames_eq_foldl (k : Nat) (names : List String) (s : Stage ν) :
    passNames k names s = (names.zipIdx k).foldl (fun s name => passName name s) s := by
  induction names generalizing k s with
  | nil => rfl
  | cons name names ih => exact ih (k+1) _

def markKind (mark : Nat × Nat) (s : Stage ν) : Stage ν :=
  if mark.1 = 0 then s
  else s.call "Highs_changeColIntegrality" (Library.changeColIntegrality mark.2 mark.1)

theorem markIntegrality_eq_foldl (k : Nat) (codes : List Nat) (s : Stage ν) :
    markIntegrality k codes s = (codes.zipIdx k).foldl (fun s mark => markKind mark s) s := by
  induction codes generalizing k s with
  | nil => rfl
  | cons code codes ih => exact ih (k+1) _

end Native

namespace Library.Changes

variable [Library ν] (lib : Library.Changes ν κ)

def nameAll (names : List (String × Nat)) (x : κ) : κ :=
  names.foldl (fun x name => lib.named name.2 name.1 x) x

def mark (mark : Nat × Nat) (x : κ) : κ := if mark.1 = 0 then x else lib.marked mark.2 mark.1 x

def markAll (marks : List (Nat × Nat)) (x : κ) : κ := marks.foldl (fun x m => lib.mark m x) x

/-- The whole model is there, named up to a name that was refused: it holds a zero character, or the
library does not take it. -/
def PartlyNamed (m : FlatModel Float) (x : κ) : Prop :=
  ∃ done name rest, (m.names.getD []).zipIdx = done ++ name :: rest ∧
    ('\x00' ∈ name.1.toList ∨ Native.integerLimit ≤ name.2 ∨
      ∃ l, (Library.passColName name.2 name.1 l : CallStatus × ν).1 = .error) ∧
    x = lib.nameAll done (lib.passed m)

/-- All columns are there, marked up to a mark that the library did not take. -/
def PartlyMarked (first : Nat) (b : ColumnBatch Float) (before x : κ) : Prop :=
  ∃ done mark rest, b.integrality.zipIdx first = done ++ mark :: rest ∧ mark.1 ≠ 0 ∧
    (∃ l, (Library.changeColIntegrality mark.2 mark.1 l : CallStatus × ν).1 = .error) ∧
    x = lib.markAll done (lib.withCols b before)

theorem dims_nameAll (names : List (String × Nat)) (x : κ) :
    lib.dims (lib.nameAll names x) = lib.dims x := by
  induction names generalizing x with
  | nil => rfl
  | cons name names ih => exact (ih _).trans (lib.dims_named _ _ _)

theorem dims_markAll (marks : List (Nat × Nat)) (x : κ) :
    lib.dims (lib.markAll marks x) = lib.dims x := by
  induction marks generalizing x with
  | nil => rfl
  | cons m marks ih =>
    have hmark : lib.dims (lib.mark m x) = lib.dims x := by
      unfold mark
      split
      · rfl
      · exact lib.dims_marked _ _ _
    exact (ih _).trans hmark

open Native Stage

theorem passName_step (name : String × Nat) :
    Step lib.held (passName name) (lib.named name.2 name.1) :=
  ((call_step (lib.name_whole name.2 name.1) "Highs_passColName").require _).require _

theorem passName_refused {name : String × Nat} {s : Stage ν} (hs : s.stopped = none)
    (h : (passName name s).stopped ≠ none) :
    '\x00' ∈ name.1.toList ∨ integerLimit ≤ name.2 ∨
      ∃ l, (Library.passColName name.2 name.1 l : CallStatus × ν).1 = .error := by
  by_contra hcontra
  simp only [not_or, not_exists, Nat.not_le] at hcontra
  obtain ⟨hzero,hsmall,htaken⟩ := hcontra
  have hnoZero : zeroIn? "column name" name.1 = none := if_neg hzero
  have hnotLarge : tooLarge? [name.2] = none := by
    simpa [tooLarge?] using hsmall
  have hcleared : ((s.require (zeroIn? "column name" name.1)).require
      (tooLarge? [name.2])).stopped = none := by
    rw [hnoZero, hnotLarge, require_stopped (require_stopped hs _)]
  exact h ((call_library hcleared _ _).2.mpr (htaken _))

theorem markKind_step (m : Nat × Nat) : Step lib.held (markKind m) (lib.mark m) := by
  unfold markKind mark
  by_cases hcode : m.1 = 0
  · simp only [hcode, if_true]
    exact ⟨fun _ _ => rfl,fun s hs => by rw [if_pos hs]⟩
  · simp only [hcode, if_false]
    exact call_step (lib.mark_whole m.2 m.1) _

theorem markKind_refused {m : Nat × Nat} {s : Stage ν} (hs : s.stopped = none)
    (h : (markKind m s).stopped ≠ none) :
    m.1 ≠ 0 ∧ ∃ l, (Library.changeColIntegrality m.2 m.1 l : CallStatus × ν).1 = .error := by
  unfold markKind at h
  split at h
  · exact absurd hs h
  · refine ⟨‹_›,s.library,?_⟩
    by_contra htaken
    exact h ((call_library hs _ _).2.mpr htaken)

theorem passModel_held (m : FlatModel Float) (e : Native ν) :
    ((Native.passModel m e).outcome = .ok () ∧
      lib.held (Native.passModel m e).engine.library =
        lib.nameAll (m.names.getD []).zipIdx (lib.passed m)) ∨
    ((∃ message, (Native.passModel m e).outcome = .failed message) ∧
      (lib.held (Native.passModel m e).engine.library = lib.held e.library ∨
        ((Library.passModel m e.library).1 = .error ∧ (Native.passModel m e).engine.library =
          (Library.passModel m e.library).2) ∨
        lib.PartlyNamed m (lib.held (Native.passModel m e).engine.library))) := by
  unfold Native.passModel
  dsimp only
  -- The stage before the model is passed has checked the numbers and has not touched the library.
  generalize hchecked : ((start e.library).require _).require _ = s
  have hlibrary : s.library = e.library := by
    rw [← hchecked, require_library, require_library]
    rfl
  rw [passNames_eq_foldl]
  have hstays : ∀ t : Stage ν, t.stopped ≠ none →
      (m.names.getD []).zipIdx.foldl (fun s name => passName name s) t = t := by
    intro t ht
    exact List.foldl_fixed' (fun name => (lib.passName_step name).stopped t ht) _
  by_cases hs : s.stopped = none
  · obtain ⟨hpassed,hgoes⟩ := call_library hs "Highs_passModel" (Library.passModel m)
    rw [hlibrary] at hpassed hgoes
    by_cases herror : (Library.passModel m e.library).1 = .error
    · have hstopped := fun hnone => hgoes.mp hnone herror
      rw [hstays _ hstopped]
      refine .inr ⟨(reply_outcome _).2 hstopped,?_⟩
      exact .inr (.inl ⟨herror,hpassed⟩)
    · have hheld := (congrArg lib.held hpassed).trans (lib.pass_taken m e.library herror)
      rcases foldl_steps lib.passName_step (m.names.getD []).zipIdx (hgoes.mpr herror) with
        ⟨hnone,hall⟩ | ⟨hsome,done,name,rest,hnames,⟨t,ht,hrefused⟩,hsofar⟩
      · exact .inl ⟨(reply_outcome _).1 hnone,hall.trans (by rw [hheld]; rfl)⟩
      · refine .inr ⟨(reply_outcome _).2 hsome,.inr (.inr ?_)⟩
        exact ⟨done,name,rest,hnames,passName_refused ht hrefused,
          hsofar.trans (by rw [hheld]; rfl)⟩
  · rw [call_of_stopped hs, hstays s hs]
    exact .inr ⟨(reply_outcome s).2 hs,.inl (congrArg lib.held hlibrary)⟩

theorem addRows_held (b : RowBatch Float) (e : Native ν) :
    ((Native.addRows b e).outcome = .ok () ∧
      lib.held (Native.addRows b e).engine.library = lib.withRows b (lib.held e.library)) ∨
    ((∃ message, (Native.addRows b e).outcome = .failed message) ∧
      lib.held (Native.addRows b e).engine.library = lib.held e.library) := by
  have hstep := (call_step (lib.rows_whole b) "Highs_addRows").require
    (tooLarge? (b.matrix.offsets ++ b.matrix.indices ++ [b.size,b.matrix.numNonzeros]))
  have hgoing := hstep.going (start e.library) rfl
  split at hgoing
  · exact .inl ⟨(reply_outcome _).1 ‹_›,hgoing⟩
  · exact .inr ⟨(reply_outcome _).2 ‹_›,hgoing⟩

theorem addCols_held (b : ColumnBatch Float) (e : Native ν) :
    ((Native.addCols b e).outcome = .ok () ∧
      lib.held (Native.addCols b e).engine.library =
        lib.markAll (b.integrality.zipIdx (Library.numCols e.library))
          (lib.withCols b (lib.held e.library))) ∨
    ((∃ message, (Native.addCols b e).outcome = .failed message) ∧
      (lib.held (Native.addCols b e).engine.library = lib.held e.library ∨
        lib.PartlyMarked (Library.numCols e.library) b (lib.held e.library)
          (lib.held (Native.addCols b e).engine.library))) := by
  unfold Native.addCols
  dsimp only
  rw [markIntegrality_eq_foldl]
  have hstep := (call_step (lib.cols_whole b) "Highs_addCols").require
    (tooLarge? (Library.numCols e.library :: b.matrix.offsets ++ b.matrix.indices ++
      [b.size,b.matrix.numNonzeros]))
  have hgoing := hstep.going (start e.library) rfl
  generalize ((start e.library).require _).call "Highs_addCols" _ = s at hgoing ⊢
  by_cases hs : s.stopped = none
  · rw [if_pos hs] at hgoing
    rcases foldl_steps lib.markKind_step (b.integrality.zipIdx (Library.numCols e.library)) hs with
      ⟨hnone,hall⟩ | ⟨hsome,done,mark,rest,hmarks,⟨t,ht,hrefused⟩,hsofar⟩
    · exact .inl ⟨(reply_outcome _).1 hnone,hall.trans (by rw [hgoing]; rfl)⟩
    · obtain ⟨hkind,hlibrary⟩ := markKind_refused ht hrefused
      refine .inr ⟨(reply_outcome _).2 hsome,.inr ?_⟩
      exact ⟨done,mark,rest,hmarks,hkind,hlibrary,hsofar.trans (by rw [hgoing]; rfl)⟩
  · rw [if_neg hs] at hgoing
    have hstays : (b.integrality.zipIdx (Library.numCols e.library)).foldl
        (fun s mark => markKind mark s) s = s :=
      List.foldl_fixed' (fun m => (lib.markKind_step m).stopped s hs) _
    rw [hstays]
    exact .inr ⟨(reply_outcome s).2 hs,.inl hgoing⟩

theorem counts {l : ν} {x : κ} {numCols numRows : Nat} (hheld : lib.held l = x)
    (hdims : lib.dims x = (numCols,numRows)) :
    numCols = Library.numCols l ∧ numRows = Library.numRows l := by
  rw [← hheld, lib.dims_held, Prod.mk.injEq] at hdims
  exact ⟨hdims.1.symm,hdims.2.symm⟩

end Library.Changes

/-- What passing a model leaves behind, where a refusal leaves what was there or nothing. -/
theorem Library.Contents.passModel_held [Library ν] (lib : Library.Contents ν κ)
    (m : FlatModel Float) (e : Native ν) :
    ((Native.passModel m e).outcome = .ok () ∧
      lib.held (Native.passModel m e).engine.library =
        lib.nameAll (m.names.getD []).zipIdx (lib.passed m)) ∨
    ((∃ message, (Native.passModel m e).outcome = .failed message) ∧
      (lib.held (Native.passModel m e).engine.library = lib.held e.library ∨
        lib.held (Native.passModel m e).engine.library = lib.empty ∨
        lib.PartlyNamed m (lib.held (Native.passModel m e).engine.library))) := by
  refine lib.toChanges.passModel_held m e |>.imp_right fun ⟨hfailed,hheld⟩ => ⟨hfailed,?_⟩
  rcases hheld with hsame | ⟨herror,hpassed⟩ | hpartly
  · exact .inl hsame
  · rw [hpassed]
    exact (lib.pass_refused m e.library herror).imp_right .inl
  · exact .inr (.inr hpartly)

namespace Session

/-- The dimensions that are remembered are those of the engine. -/
structure Counted {σ : Type} [Engine σ] (s : Session σ) : Prop where
  numCols : s.numCols = Engine.numCols s.engine
  numRows : s.numRows = Engine.numRows s.engine

theorem Counted.refresh {σ : Type} [Engine σ] {s : Session σ} (h : s.Counted) :
    s.refresh.1.Counted := by
  obtain ⟨hcols,hrows⟩ := refresh_dims s
  constructor
  · rw [hcols, refresh_engine, h.numCols]
  · rw [hrows, refresh_engine, h.numRows]

variable [Library ν] (lib : Library.Contents ν κ)

theorem load_counted (lib : Library.Changes ν κ) {s : Session (Native ν)} (hs : s.Counted)
    (model : Model Float) : (s.load model).session.Counted := by
  unfold load
  cases model.flatten with
  | error fault => exact hs
  | ok flat =>
    dsimp only [Engine.passModel]
    rcases lib.passModel_held flat s.engine with ⟨hok,hheld⟩ | ⟨⟨message,hfailed⟩,-⟩
    · obtain ⟨hcols,hrows⟩ :=
        lib.counts hheld ((lib.dims_nameAll _ _).trans (lib.dims_passed flat))
      rw [calling_ok hok]
      exact ⟨hcols,hrows⟩
    · rw [calling_failed hfailed]
      exact ⟨rfl,rfl⟩

theorem load_native (s : Session (Native ν)) (model : Model Float) (cause : Failure)
    (h : (s.load model).outcome = .failed cause) :
    lib.held (s.load model).session.engine.library = lib.held s.engine.library ∨
    lib.held (s.load model).session.engine.library = lib.empty ∨
    ∃ flat, model.flatten = .ok flat ∧
      lib.PartlyNamed flat (lib.held (s.load model).session.engine.library) := by
  unfold load at h ⊢
  cases hflat : model.flatten with
  | error fault => exact .inl rfl
  | ok flat =>
    rw [hflat] at h
    dsimp only [Engine.passModel] at h ⊢
    rcases lib.passModel_held flat s.engine with ⟨hok,-⟩ | ⟨⟨message,hfailed⟩,hheld⟩
    · rw [calling_ok hok] at h
      cases h
    · rw [calling_failed hfailed]
      exact hheld.imp_right fun h => h.imp_right fun hpartly => ⟨flat,rfl,hpartly⟩

theorem addConstraints_native (lib : Library.Changes ν κ) (s : Session (Native ν))
    (rows : List (Constraint Float)) :
    (s.Counted → (s.addConstraints rows).session.Counted) ∧
      ∀ cause, (s.addConstraints rows).outcome = .failed cause →
        lib.held (s.addConstraints rows).session.engine.library = lib.held s.engine.library := by
  unfold addConstraints
  cases RowBatch.ofConstraints rows s.numCols with
  | error fault => exact ⟨id,fun _ _ => rfl⟩
  | ok batch =>
    dsimp only [Engine.addRows]
    split
    · exact ⟨id,fun _ _ => rfl⟩
    · rcases lib.addRows_held batch s.engine with ⟨hok,hheld⟩ | ⟨⟨message,hfailed⟩,hheld⟩
      · obtain ⟨hcols,hrows⟩ := lib.counts hheld
          ((lib.dims_withRows _ _).trans (by rw [lib.dims_held]))
        rw [calling_ok hok]
        refine ⟨fun hs => .refresh ⟨?_,?_⟩,fun _ h => by cases h⟩
        · exact hs.numCols.trans hcols
        · exact (congrArg (·+batch.size) hs.numRows).trans hrows
      · obtain ⟨hcols,hrows⟩ := lib.counts hheld (lib.dims_held _)
        rw [calling_failed hfailed]
        exact ⟨fun hs => ⟨hs.numCols.trans hcols,hs.numRows.trans hrows⟩,fun _ _ => hheld⟩

theorem addVariables_native (lib : Library.Changes ν κ) (s : Session (Native ν))
    (columns : List (Column Float)) :
    (s.Counted → (s.addVariables columns).outcome = .ok () →
      (s.addVariables columns).session.Counted) ∧
    ∀ cause, (s.addVariables columns).outcome = .failed cause →
      ((s.Counted → (s.addVariables columns).session.Counted) ∧
        lib.held (s.addVariables columns).session.engine.library = lib.held s.engine.library) ∨
      ∃ batch, ColumnBatch.ofColumns columns s.numRows = .ok batch ∧
        lib.PartlyMarked (Engine.numCols s.engine) batch (lib.held s.engine.library)
          (lib.held (s.addVariables columns).session.engine.library) ∧
        (s.addVariables columns).session.numCols = s.numCols ∧
        Engine.numCols (s.addVariables columns).session.engine =
          Engine.numCols s.engine+batch.size := by
  unfold addVariables
  cases hbatch : ColumnBatch.ofColumns columns s.numRows with
  | error fault => exact ⟨nofun,fun _ _ => .inl ⟨id,rfl⟩⟩
  | ok batch =>
    dsimp only [Engine.addCols]
    split
    · exact ⟨fun hs _ => hs,fun _ h => by cases h⟩
    · rcases lib.addCols_held batch s.engine with
        ⟨hok,hheld⟩ | ⟨⟨message,hfailed⟩,hsame | hpartly⟩
      · obtain ⟨hcols,hrows⟩ := lib.counts hheld ((lib.dims_markAll _ _).trans
          ((lib.dims_withCols _ _).trans (by rw [lib.dims_held])))
        rw [calling_ok hok]
        refine ⟨fun hs _ => .refresh ⟨?_,?_⟩,fun _ h => by cases h⟩
        · exact (congrArg (·+batch.size) hs.numCols).trans hcols
        · exact hs.numRows.trans hrows
      · obtain ⟨hcols,hrows⟩ := lib.counts hsame (lib.dims_held _)
        rw [calling_failed hfailed]
        refine ⟨nofun,fun _ _ => .inl ⟨fun hs => ⟨?_,?_⟩,hsame⟩⟩
        · exact hs.numCols.trans hcols
        · exact hs.numRows.trans hrows
      · obtain ⟨done,mark,rest,-,-,-,hheld⟩ := id hpartly
        obtain ⟨hcols,-⟩ := lib.counts hheld ((lib.dims_markAll _ _).trans
          ((lib.dims_withCols _ _).trans (by rw [lib.dims_held])))
        rw [calling_failed hfailed]
        exact ⟨nofun,fun _ _ => .inr ⟨batch,rfl,hpartly,rfl,hcols.symm⟩⟩

theorem addVariables_native_not_crashed (s : Session (Native ν)) (columns : List (Column Float)) :
    (s.addVariables columns).outcome ≠ .crashed := by
  unfold addVariables
  split
  · exact nofun
  · split
    · exact nofun
    · exact calling_not_crashed (Native.Stage.reply_not_crashed _) (fun _ _ => nofun)
        (fun _ => nofun)

/-- After a failed load the library holds what it held, or nothing, or, where a name was refused,
the whole model that failed; what is remembered follows it in each case. Rows that fail are not
there. Columns that fail are not there, or, where a mark was refused, they are all there and the
session does not know of them. -/
theorem failed_changes_native (s : Session (Native ν)) :
    (∀ model, (s.Counted → (s.load model).session.Counted) ∧
      ∀ cause, (s.load model).outcome = .failed cause →
        lib.held (s.load model).session.engine.library = lib.held s.engine.library ∨
        lib.held (s.load model).session.engine.library = lib.empty ∨
        ∃ flat, model.flatten = .ok flat ∧
          lib.PartlyNamed flat (lib.held (s.load model).session.engine.library)) ∧
    (∀ rows, (s.Counted → (s.addConstraints rows).session.Counted) ∧
      ∀ cause, (s.addConstraints rows).outcome = .failed cause →
        lib.held (s.addConstraints rows).session.engine.library = lib.held s.engine.library) ∧
    ∀ columns, (s.Counted → (s.addVariables columns).outcome = .ok () →
        (s.addVariables columns).session.Counted) ∧
      ∀ cause, (s.addVariables columns).outcome = .failed cause →
        ((s.Counted → (s.addVariables columns).session.Counted) ∧
          lib.held (s.addVariables columns).session.engine.library = lib.held s.engine.library) ∨
        ∃ batch, ColumnBatch.ofColumns columns s.numRows = .ok batch ∧
          lib.PartlyMarked (Engine.numCols s.engine) batch (lib.held s.engine.library)
            (lib.held (s.addVariables columns).session.engine.library) ∧
          (s.addVariables columns).session.numCols = s.numCols ∧
          Engine.numCols (s.addVariables columns).session.engine =
            Engine.numCols s.engine+batch.size :=
  ⟨fun model => ⟨fun hs => load_counted lib.toChanges hs model,load_native lib s model⟩,
    addConstraints_native lib.toChanges s,addVariables_native lib.toChanges s⟩

end Session

/-- A library that writes down what it is given. It takes every model and every name but the empty
one, and no column that is not continuous. -/
structure Ledger where
  model : Option (FlatModel Float)
  names : List (Nat × String)
  rows : List (RowBatch Float)
  cols : List (ColumnBatch Float)
  numCols : Nat
  numRows : Nat

namespace Ledger

def empty : Ledger := ⟨none,[],[],[],0,0⟩

def ofModel (m : FlatModel Float) : Ledger := ⟨some m,[],[],[],m.numCols,m.numRows⟩

def addName (k : Nat) (name : String) (l : Ledger) : Ledger :=
  { l with names := (k,name) :: l.names }

def addRows (b : RowBatch Float) (l : Ledger) : Ledger :=
  { l with rows := b :: l.rows, numRows := l.numRows+b.size }

def addCols (b : ColumnBatch Float) (l : Ledger) : Ledger :=
  { l with cols := b :: l.cols, numCols := l.numCols+b.size }

instance : Library Ledger where
  passModel := fun m _ => (.ok,ofModel m)
  passColName := fun k name l => if name = "" then (.error,l) else (.ok,l.addName k name)
  readModel := fun _ l => (.error,l)
  writeModel := fun _ l => (.ok,l)
  writeSolution := fun _ _ l => (.ok,l)
  addRows := fun b l => (.ok,l.addRows b)
  addCols := fun b l => (.ok,l.addCols b)
  changeColIntegrality := fun _ _ l => (.error,l)
  run := fun l => (.ok,l)
  setSolution := fun _ l => (.error,l)
  setOption := fun _ _ l => (.error,l)
  clearSolver := fun l => (.ok,l)
  modelStatus := fun _ => 0
  info := fun _ => none
  point := fun _ => none
  optionType := fun _ _ => none
  optionValue := fun _ _ => none
  numCols := numCols
  numRows := numRows
  version := fun _ => "ledger"

def contents : Library.Contents Ledger Ledger where
  held := id
  empty := empty
  passed := ofModel
  named := addName
  withRows := addRows
  withCols := addCols
  marked := fun _ _ l => l
  dims := fun l => (l.numCols,l.numRows)
  pass_refused := fun _ _ h => nomatch h
  pass_taken := fun _ _ _ => rfl
  name_whole := by
    intro k name l
    dsimp only [Library.passColName]
    split <;> rfl
  rows_whole := fun _ _ => rfl
  cols_whole := fun _ _ => rfl
  mark_whole := fun _ _ _ => rfl
  dims_held := fun _ => rfl
  dims_passed := fun _ => rfl
  dims_named := fun _ _ _ => rfl
  dims_withRows := fun _ _ => rfl
  dims_withCols := fun _ _ => rfl
  dims_marked := fun _ _ _ => rfl

def session : Session (Native Ledger) := ⟨⟨empty⟩,.notSet,0,0,none⟩

def namedModel : Model Float := ⟨none,[⟨some "a\x00",.continuous,0,1⟩],[]⟩

def integerColumn : Column Float := ⟨.free .integer,0,.empty⟩

end Ledger

/-- A load refused for a name and a column refused for its kind, with the counts of the session and
of the library after them. -/
theorem Session.failed_changes_native_ledger :
    (Ledger.session.load Ledger.namedModel).session.Counted ∧
    ∃ batch, ColumnBatch.ofColumns [Ledger.integerColumn] 0 = .ok batch ∧
      Engine.numCols (Ledger.session.addVariables [Ledger.integerColumn]).session.engine =
        0+batch.size := by
  obtain ⟨hload,-,hcolumns⟩ := Session.failed_changes_native Ledger.contents Ledger.session
  refine ⟨(hload Ledger.namedModel).1 ⟨rfl,rfl⟩,?_⟩
  rcases (hcolumns [Ledger.integerColumn]).2 _ rfl with ⟨hcounted,-⟩ | ⟨batch,hbatch,-,-,hcols⟩
  · exact absurd (hcounted ⟨rfl,rfl⟩).numCols (by decide)
  · exact ⟨batch,hbatch,hcols⟩

/-- A load that fails for a name leaves the model it was given, and a column that is refused for its
kind stays without the session knowing of it. -/
theorem Session.refused_changes_stay :
    (∃ cause flat, (Ledger.session.load Ledger.namedModel).outcome = .failed cause ∧
      Ledger.namedModel.flatten = .ok flat ∧
      (Ledger.session.load Ledger.namedModel).session.engine.library = Ledger.ofModel flat ∧
      Ledger.ofModel flat ≠ Ledger.session.engine.library ∧ Ledger.ofModel flat ≠ Ledger.empty) ∧
    ∃ cause, (Ledger.session.addVariables [Ledger.integerColumn]).outcome = .failed cause ∧
      (Ledger.session.addVariables [Ledger.integerColumn]).session.numCols = 0 ∧
      Engine.numCols (Ledger.session.addVariables [Ledger.integerColumn]).session.engine = 1 := by
  refine ⟨⟨_,_,rfl,rfl,rfl,fun h => ?_,fun h => ?_⟩,_,rfl,rfl,rfl⟩
  · cases congrArg Ledger.numCols h
  · cases congrArg Ledger.numCols h

end SolverSession
