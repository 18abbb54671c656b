import Mathlib
import SolverSession.Proofs.JsonRecords
import SolverSession.Proofs.JsonStandard
import SolverSession.Wire

/-!
# Models travel as JSON

A model that is written and read again comes back, except that a bound that is not finite comes back
as the infinity of its side; a model with any other number that is not finite is refused. This is so
for every lawful codec that reads finite doubles back.
-/
namespace SolverSession

/-- A lower bound as it comes back: what is no number, or infinity, is minus infinity. -/
def restoredLower (x : Float) : Float :=
  if x.isNaN = true ∨ x = unboundedAbove then unboundedBelow else x

/-- An upper bound as it comes back: what is no number, or minus infinity, is infinity. -/
def restoredUpper (x : Float) : Float :=
  if x.isNaN = true ∨ x = unboundedBelow then unboundedAbove else x

/-- Nothing but the infinity `other` of the other side and what is no number is replaced. -/
theorem restored_eq {side other : Float} (hother : other.isFinite = false)
    (hall : ∀ x : Float, x.isFinite = true ∨ x.isNaN = true ∨ x = other ∨ x = side) (x : Float) :
    (if x.isNaN = true ∨ x = other then side else x) =
      if x.isFinite = true then x else side := by
  by_cases hfinite : x.isFinite = true
  · have hkept : ¬(x.isNaN = true ∨ x = other) := by
      rintro (hnan | rfl)
      · rw [not_isNaN_of_isFinite hfinite] at hnan
        cases hnan
      · rw [hother] at hfinite
        cases hfinite
    rw [if_neg hkept, if_pos hfinite]
  · rw [if_neg hfinite]
    rcases hall x with h | h | h | h
    · exact absurd h hfinite
    · exact if_pos (.inl h)
    · exact if_pos (.inr h)
    · rw [h, ite_self]

theorem restoredLower_eq (x : Float) :
    restoredLower x = if x.isFinite = true then x else unboundedBelow :=
  restored_eq (by decide) isFinite_or x

theorem restoredUpper_eq (x : Float) :
    restoredUpper x = if x.isFinite = true then x else unboundedAbove := by
  refine restored_eq (by decide) (fun y => ?_) x
  rcases isFinite_or y with h | h | h | h
  · exact .inl h
  · exact .inr (.inl h)
  · exact .inr (.inr (.inr h))
  · exact .inr (.inr (.inl h))

open Json

/-! ## What is asked of a model, and what becomes of it -/

/-- The indices are words. -/
def SparseVec.Portable (v : SparseVec Float) : Prop := ∀ i ∈ v.indices, i < wordCount

def Constraint.Portable (c : Constraint Float) : Prop := c.weights.Portable

def Column.Portable (c : Column Float) : Prop := c.weights.Portable

structure Objective.Portable (o : Objective Float) : Prop where
  weights : o.weights.Portable
  hessian : ∀ column ∈ o.hessian, column.Portable

structure Model.Portable (m : Model Float) : Prop where
  objective : ∀ o ∈ m.objective, o.Portable
  constraints : ∀ c ∈ m.constraints, c.Portable

def SparseVec.finite (v : SparseVec Float) : Bool := v.values.all Float.isFinite

def Column.finite (c : Column Float) : Bool := c.cost.isFinite && c.weights.finite

def Objective.finite (o : Objective Float) : Bool :=
  o.weights.finite && o.offset.isFinite && o.hessian.all SparseVec.finite

/-- Every number other than a bound is finite. -/
def Model.finite (m : Model Float) : Bool :=
  m.objective.all Objective.finite && m.constraints.all (·.weights.finite)

/-- The bounds are finite or the infinity of their side. -/
structure NaturalEnds (lower upper : Float) : Prop where
  lower : lower.isFinite = true ∨ lower = unboundedBelow
  upper : upper.isFinite = true ∨ upper = unboundedAbove

structure Model.NaturalBounds (m : Model Float) : Prop where
  vars : ∀ x ∈ m.vars, NaturalEnds x.lower x.upper
  constraints : ∀ c ∈ m.constraints, NaturalEnds c.lower c.upper

def Variable.restored (x : Variable Float) : Variable Float :=
  { x with lower := restoredLower x.lower, upper := restoredUpper x.upper }

def Constraint.restored (c : Constraint Float) : Constraint Float :=
  { c with lower := restoredLower c.lower, upper := restoredUpper c.upper }

def Column.restored (c : Column Float) : Column Float := { c with var := c.var.restored }

def Model.restored (m : Model Float) : Model Float :=
  { m with vars := m.vars.map Variable.restored
           constraints := m.constraints.map Constraint.restored }

theorem NaturalEnds.restored {lower upper : Float} (h : NaturalEnds lower upper) :
    restoredLower lower = lower ∧ restoredUpper upper = upper := by
  obtain ⟨hlower,hupper⟩ := h
  constructor
  · rw [restoredLower_eq]
    rcases hlower with hx | rfl
    · rw [if_pos hx]
    · decide
  · rw [restoredUpper_eq]
    rcases hupper with hx | rfl
    · rw [if_pos hx]
    · decide

theorem Variable.restored_of_natural {x : Variable Float} (h : NaturalEnds x.lower x.upper) :
    x.restored = x := by
  rw [restored, h.restored.1, h.restored.2]

theorem Constraint.restored_of_natural {c : Constraint Float}
    (h : NaturalEnds c.lower c.upper) : c.restored = c := by
  rw [restored, h.restored.1, h.restored.2]

theorem Column.restored_of_natural {c : Column Float}
    (h : NaturalEnds c.var.lower c.var.upper) : c.restored = c := by
  rw [restored, Variable.restored_of_natural h]

theorem Model.restored_of_natural {m : Model Float} (h : m.NaturalBounds) : m.restored = m := by
  have hvars : m.vars.map Variable.restored = m.vars := by
    conv_rhs => rw [← List.map_id m.vars]
    exact List.map_congr_left fun x hx => Variable.restored_of_natural (h.vars x hx)
  have hconstraints : m.constraints.map Constraint.restored = m.constraints := by
    conv_rhs => rw [← List.map_id m.constraints]
    exact List.map_congr_left fun c hc => Constraint.restored_of_natural (h.constraints c hc)
  rw [restored, hvars, hconstraints]

/-! ## Reading what was encoded -/

namespace Wire

variable {lib : Codec}

theorem Vector.decode_empty (hlib : lib.Decodes) :
    Vector.decode lib (Vector.encode lib .empty) = some .empty := by
  unfold Vector.decode Vector.encode
  refine hlib.record?_bind (by simp [field]) (by simp [field]) fun r hr => ?_
  have hindices : lib.list? lib.index? (ofList (fun n : Nat => lib.ofInt n) []) = some [] :=
    hlib.list?_array _ []
  have hvalues : lib.list? lib.float? (ofFloats lib []) = some [] := hlib.list?_array _ []
  rw [Record.required_of_given (hr "indices"), Record.required_of_given (hr "values"),
    SparseVec.empty, hindices, hvalues]
  rfl

theorem Kind.decode_encode (hlib : lib.Decodes) (k : VariableKind) :
    Kind.decode lib (Kind.encode k) = some k := by
  rw [Kind.decode, Kind.encode, ofString, hlib.unit?_text]
  cases k <;> rfl

theorem bound?_null (hlib : lib.Decodes) (side : Float) : bound? lib side .null = some side := by
  rw [bound?, hlib.option?_null]
  rfl

variable (hlib : lib.Lawful) (hexact : lib.Exact)
include hlib hexact

theorem bound?_ofBound (side x : Float) :
    bound? lib side (ofBound lib x) = some (if x.isFinite = true then x else side) := by
  by_cases hx : x.isFinite = true
  · rw [ofBound, if_pos hx, if_pos hx, bound?,
      hlib.option?_value _ (hlib.ofFloat_ne_null hx), hexact x hx]
    rfl
  · rw [ofBound, if_neg hx, if_neg hx, bound?_null hlib.toDecodes]

theorem lower?_ofBound (x : Float) :
    bound? lib unboundedBelow (ofBound lib x) = some (restoredLower x) := by
  rw [bound?_ofBound hlib hexact, restoredLower_eq]

theorem upper?_ofBound (x : Float) :
    bound? lib unboundedAbove (ofBound lib x) = some (restoredUpper x) := by
  rw [bound?_ofBound hlib hexact, restoredUpper_eq]

theorem Vector.decode_encode {v : SparseVec Float} (h : v.Portable) :
    Vector.decode lib (Vector.encode lib v) = if v.finite = true then some v else none := by
  have hindices : lib.list? lib.index? (ofList (fun n : Nat => lib.ofInt n) v.indices) =
      some (v.indices.map id) := hlib.list?_ofList_total id fun n hn => hlib.index?_ofInt (h n hn)
  have hvalues : lib.list? lib.float? (ofFloats lib v.values) =
      if v.values.all Float.isFinite = true then some v.values else none :=
    hlib.list?_ofList_same fun x _ => hlib.float?_ofFloat hexact x
  unfold Vector.decode Vector.encode
  refine hlib.record?_bind (by simp [field]) (by simp [field]) fun r hr => ?_
  rw [Record.required_of_given (hr "indices"), Record.required_of_given (hr "values"), hindices,
    hvalues, List.map_id, SparseVec.finite]
  cases v.values.all Float.isFinite <;> rfl

theorem Variable.decode_encode (x : SolverSession.Variable Float) :
    Variable.decode lib (Variable.encode lib x) = some x.restored := by
  unfold Variable.decode Variable.encode
  refine hlib.record?_bind (by simp [field]) (by simp [field]) fun r hr => ?_
  have hname : r.optional "name" (lib.option? lib.string?) none = some x.name := by
    have hgiven : r "name" = x.name.map ofString := hr "name"
    cases hx : x.name with
    | none => exact Record.optional_of_absent (by rw [hgiven, hx]; rfl) none
    | some s =>
      have hs : r "name" = some (ofString s) := by rw [hgiven, hx, Option.map_some]
      have hpresent : ofString s ≠ .null := nofun
      rw [Record.optional_of_given hs, hlib.option?_value _ hpresent,
        hlib.string?_ofString, Option.map_some]
  rw [hname, Record.optional_of_given (hr "type"), Record.optional_of_given (hr "lower_bound"),
    Record.optional_of_given (hr "upper_bound"), Kind.decode_encode hlib.toDecodes,
    lower?_ofBound hlib hexact, upper?_ofBound hlib hexact]
  rfl

theorem Constraint.decode_encode {c : SolverSession.Constraint Float} (h : c.Portable) :
    Constraint.decode lib (Constraint.encode lib c) =
      if c.weights.finite = true then some c.restored else none := by
  unfold Constraint.decode Constraint.encode
  refine hlib.record?_bind (by simp [field]) (by simp [field]) fun r hr => ?_
  rw [Record.required_of_given (hr "weights"), Record.optional_of_given (hr "lower_bound"),
    Record.optional_of_given (hr "upper_bound"), Vector.decode_encode hlib hexact h,
    lower?_ofBound hlib hexact, upper?_ofBound hlib hexact]
  cases c.weights.finite <;> rfl

theorem Column.decode_encode {c : SolverSession.Column Float} (h : c.Portable) :
    Column.decode lib (Column.encode lib c) =
      if c.finite = true then some c.restored else none := by
  unfold Column.decode Column.encode
  refine hlib.record?_bind (by simp [field]) (by simp [field]) fun r hr => ?_
  rw [Record.required_of_given (hr "variable"), Record.optional_of_given (hr "cost"),
    Record.optional_of_given (hr "weights"), Variable.decode_encode hlib hexact,
    hlib.float?_ofFloat hexact, Vector.decode_encode hlib hexact h, Column.finite]
  cases c.cost.isFinite <;> cases c.weights.finite <;> rfl

theorem Objective.decode_encode {o : SolverSession.Objective Float} (h : o.Portable) :
    Objective.decode lib (Objective.encode lib o) =
      if o.finite = true then some o else none := by
  unfold Objective.decode Objective.encode
  refine hlib.record?_bind (by simp [field]) (by simp [field]) fun r hr => ?_
  have hhessian : r.optional "hessian" (lib.list? (Vector.decode lib)) [] =
      if o.hessian.all SparseVec.finite = true then some o.hessian else none := by
    -- Without columns the field is not written, and absent it stands for no columns.
    cases hnil : o.hessian with
    | nil => exact Record.optional_of_absent (by rw [hr, hnil]; rfl) []
    | cons column rest =>
      have hlist := hlib.list?_ofList_same fun column hcolumn =>
        Vector.decode_encode hlib hexact (h.hessian column hcolumn)
      rw [hnil] at hlist
      exact (Record.optional_of_given (by rw [hr, hnil]; rfl) []).trans hlist
  rw [Record.optional_of_given (hr "is_maximization"), Record.optional_of_given (hr "weights"),
    Record.optional_of_given (hr "offset"), hhessian, hlib.bool?_bool,
    Vector.decode_encode hlib hexact h.weights, hlib.float?_ofFloat hexact, Objective.finite]
  cases o.weights.finite <;> cases o.offset.isFinite <;>
    cases o.hessian.all SparseVec.finite <;> rfl

theorem Model.decode_encode {m : SolverSession.Model Float} (h : m.Portable) :
    Model.decode lib (Model.encode lib m) =
      if m.finite = true then some m.restored else none := by
  unfold Model.decode Model.encode
  refine hlib.record?_bind (by simp [field]) (by simp [field]) fun r hr => ?_
  have hobjective : r.optional "objective" (lib.option? (Objective.decode lib)) none =
      if m.objective.all Objective.finite = true then some m.objective else none :=
    hlib.optional_of_map (hr "objective") (fun _ => ofMembers_ne_null _)
      fun o ho => Objective.decode_encode hlib hexact (h.objective o ho)
  have hvars : lib.list? (Variable.decode lib) (ofList (Variable.encode lib) m.vars) =
      some (m.vars.map SolverSession.Variable.restored) :=
    hlib.list?_ofList_total _ fun x _ => Variable.decode_encode hlib hexact x
  have hconstraints := hlib.list?_ofList _ fun c hc =>
    Constraint.decode_encode hlib hexact (h.constraints c hc)
  rw [hobjective, Record.optional_of_given (hr "variables"),
    Record.optional_of_given (hr "constraints"), hvars, hconstraints, Model.finite]
  cases m.objective.all Objective.finite <;>
    cases m.constraints.all (·.weights.finite) <;> rfl

omit hlib hexact

/-! ## Writing and reading -/

theorem Vector.encode_written (depth : Nat) {v : SparseVec Float} (h : v.Portable) :
    lib.Written (depth+2) (Vector.encode lib v) := by
  refine ofMembers_written ?_
  simp only [List.forall_mem_cons, field, Option.mem_some_iff, forall_eq']
  refine ⟨ofList_written fun n hn => .int ?_ ?_,ofList_written fun x _ => .float x,nofun⟩
  · exact (by decide : (-0x8000000000000000 : Int) ≤ 0).trans (Int.natCast_nonneg n)
  · exact Int.ofNat_lt.mpr (h n hn)

theorem ofBound_written (depth : Nat) (x : Float) : lib.Written depth (ofBound lib x) := by
  unfold ofBound
  split
  · exact .float x
  · exact .null

theorem Variable.encode_written (depth : Nat) (x : SolverSession.Variable Float) :
    lib.Written (depth+1) (Variable.encode lib x) := by
  refine ofMembers_written ?_
  simp only [List.forall_mem_cons, field, Option.mem_some_iff, forall_eq']
  refine ⟨?_,.text _,ofBound_written depth _,ofBound_written depth _,nofun⟩
  intro v hv
  obtain ⟨s,-,rfl⟩ := Option.map_eq_some_iff.mp hv
  exact .text s

theorem Constraint.encode_written (depth : Nat) {c : SolverSession.Constraint Float}
    (h : c.Portable) : lib.Written (depth+3) (Constraint.encode lib c) := by
  refine ofMembers_written ?_
  simp only [List.forall_mem_cons, field, Option.mem_some_iff, forall_eq']
  exact ⟨Vector.encode_written depth h,ofBound_written _ _,ofBound_written _ _,nofun⟩

theorem Column.encode_written (depth : Nat) {c : SolverSession.Column Float} (h : c.Portable) :
    lib.Written (depth+3) (Column.encode lib c) := by
  refine ofMembers_written ?_
  simp only [List.forall_mem_cons, field, Option.mem_some_iff, forall_eq']
  exact ⟨Variable.encode_written _ _,.float _,Vector.encode_written depth h,nofun⟩

theorem Objective.encode_written (depth : Nat) {o : SolverSession.Objective Float}
    (h : o.Portable) : lib.Written (depth+4) (Objective.encode lib o) := by
  refine ofMembers_written ?_
  simp only [List.forall_mem_cons, field, Option.mem_some_iff, forall_eq']
  refine ⟨.bool _,Vector.encode_written _ h.weights,.float _,?_,nofun⟩
  intro v hv
  split at hv
  · cases hv
  · obtain rfl := Option.some.inj hv
    exact ofList_written fun column hcolumn =>
      Vector.encode_written depth (h.hessian column hcolumn)

theorem Model.encode_written (depth : Nat) {m : SolverSession.Model Float} (h : m.Portable) :
    lib.Written (depth+5) (Model.encode lib m) := by
  refine ofMembers_written ?_
  simp only [List.forall_mem_cons, field, Option.mem_some_iff, forall_eq']
  refine ⟨?_,ofList_written fun x _ => Variable.encode_written _ x,
    ofList_written fun c hc => Constraint.encode_written depth (h.constraints c hc),nofun⟩
  intro v hv
  obtain ⟨o,ho,rfl⟩ := Option.map_eq_some_iff.mp hv
  exact Objective.encode_written depth (h.objective o ho)

variable {β : Type}

/-- Written as text, and the text read again. -/
def transmit (lib : Codec) (encode : β → Value) (decode : Decoder β) (x : β) : Option β :=
  lib.ofText? decode (lib.toText encode x)

theorem transmit_eq (hlib : lib.Lawful) {encode : β → Value} {x : β}
    (h : lib.Written 127 (encode x)) (decode : Decoder β) :
    transmit lib encode decode x = decode (encode x) := by
  rw [transmit, Codec.ofText?, Codec.toText, hlib.read?_write h, Option.bind_some]

/-- What is written is refused when it is read, or comes back with its bounds restored; with natural
bounds it comes back as it was. -/
structure RoundTrip (lib : Codec) (encode : β → Value) (decode : Decoder β) (finite : Bool)
    (natural : Prop) (restored x : β) : Prop where
  refused : finite = false → transmit lib encode decode x = none
  accepted : finite = true → transmit lib encode decode x = some restored
  unchanged : finite = true → natural → transmit lib encode decode x = some x

theorem roundTrip_of_decode (hlib : lib.Lawful) {encode : β → Value} {decode : Decoder β}
    {finite : Bool} {natural : Prop} {restored x : β} (hencode : lib.Written 127 (encode x))
    (hdecode : decode (encode x) = if finite = true then some restored else none)
    (hnatural : natural → restored = x) :
    RoundTrip lib encode decode finite natural restored x := by
  have htransmit := (transmit_eq hlib hencode decode).trans hdecode
  exact {
    refused := fun h => by rw [htransmit, h]; rfl
    accepted := fun h => by rw [htransmit, if_pos h]
    unchanged := fun h hbounds => by rw [htransmit, if_pos h, hnatural hbounds] }

/-- Models and their parts travel as text. Weights, offset, Hessian and costs have to be finite. A
bound that is not comes back as the infinity of its side, and everything else as it was. -/
theorem json_round_trip (hlib : lib.Lawful) (hexact : lib.Exact) :
    (∀ m : SolverSession.Model Float, m.Portable →
      RoundTrip lib (Model.encode lib) (Model.decode lib) m.finite m.NaturalBounds m.restored m) ∧
    (∀ o : SolverSession.Objective Float, o.Portable →
      RoundTrip lib (Objective.encode lib) (Objective.decode lib) o.finite True o o) ∧
    (∀ x : SolverSession.Variable Float,
      RoundTrip lib (Variable.encode lib) (Variable.decode lib) true (NaturalEnds x.lower x.upper)
        x.restored x) ∧
    (∀ c : SolverSession.Constraint Float, c.Portable →
      RoundTrip lib (Constraint.encode lib) (Constraint.decode lib) c.weights.finite
        (NaturalEnds c.lower c.upper) c.restored c) ∧
    ∀ c : SolverSession.Column Float, c.Portable →
      RoundTrip lib (Column.encode lib) (Column.decode lib) c.finite
        (NaturalEnds c.var.lower c.var.upper) c.restored c := by
  refine ⟨?_,?_,?_,?_,?_⟩
  · intro m h
    exact roundTrip_of_decode hlib (Model.encode_written 122 h)
      (Model.decode_encode hlib hexact h) Model.restored_of_natural
  · intro o h
    exact roundTrip_of_decode hlib (Objective.encode_written 123 h)
      (Objective.decode_encode hlib hexact h) fun _ => rfl
  · intro x
    exact roundTrip_of_decode hlib (Variable.encode_written 126 x)
      (Variable.decode_encode hlib hexact x) Variable.restored_of_natural
  · intro c h
    exact roundTrip_of_decode hlib (Constraint.encode_written 124 h)
      (Constraint.decode_encode hlib hexact h) Constraint.restored_of_natural
  · intro c h
    exact roundTrip_of_decode hlib (Column.encode_written 124 h)
      (Column.decode_encode hlib hexact h) Column.restored_of_natural

/-- A name with a quote and a line break, and minus infinity as an upper bound. -/
theorem json_round_trip_quoted_name :
    let x : SolverSession.Variable Float := ⟨some "\"é\n",.integer,0.5,unboundedBelow⟩
    let m : SolverSession.Model Float :=
      ⟨some ⟨true,⟨[0],[3]⟩,0,[]⟩,[x],[⟨⟨[0],[1]⟩,2,unboundedAbove⟩]⟩
    exact.Lawful ∧ exact.Exact ∧ m.Portable ∧ m.finite = true ∧
      transmit exact (Model.encode exact) (Model.decode exact) m =
        some { m with vars := [{ x with upper := unboundedAbove }] } := by
  intro x m
  have hportable : m.Portable := {
    objective := by
      rintro o ⟨⟩
      exact ⟨List.forall_mem_singleton.mpr (by decide),nofun⟩
    constraints := by
      rw [List.forall_mem_singleton]
      exact List.forall_mem_singleton.mpr (by decide) }
  have hfinite : m.finite = true := by decide +kernel
  have hrestored : m.restored = { m with vars := [{ x with upper := unboundedAbove }] } := by
    decide +kernel
  have htrip := (json_round_trip exact_lawful exact_exact).1 m hportable
  exact ⟨exact_lawful,exact_exact,hportable,hfinite,
    (htrip.accepted hfinite).trans (congrArg some hrestored)⟩

end Wire
end SolverSession
