import SolverSession.Proofs.JsonModels

/-!
# Starts, solutions, diagnostics and options travel as JSON

What is not a model has no bounds, so nothing is restored: a value comes back as it was if all its
numbers are finite, and is refused otherwise. An option value carries its kind in the shape of its
text alone, which is kept whatever becomes of its digits.
-/
namespace SolverSession

open Json

/-! ## What is asked of the values -/

structure PointValues.Portable (v : PointValues) : Prop where
  vars : v.vars.Portable
  constraints : v.constraints.Portable

structure Solution.Portable (s : Solution) : Prop where
  primal : s.primal.Portable
  dual : ∀ values ∈ s.dual, values.Portable

def Diagnostics.floats (i : Diagnostics) : List Float :=
  [i.objectiveValue,i.mipDualBound,i.mipGap,i.maxPrimalInfeasibility,i.sumPrimalInfeasibilities,
   i.maxDualInfeasibility,i.sumDualInfeasibilities]

def PointValues.finite (v : PointValues) : Bool := v.vars.finite && v.constraints.finite

def Solution.finite (s : Solution) : Bool := s.primal.finite && s.dual.all PointValues.finite

def WarmStart.finite (s : WarmStart) : Bool :=
  [StartField.primalCols,.primalRows,.dualCols,.dualRows].all fun field =>
    (s.get field).all fun values => values.all Float.isFinite

def Diagnostics.finite (i : Diagnostics) : Bool := i.floats.all Float.isFinite

def OptionValue.finite : OptionValue → Bool
  | .double x => x.isFinite
  | _ => true

namespace Wire

variable {lib : Codec}

/-! ## Reading what was encoded -/

section

variable (hlib : lib.Lawful) (hexact : lib.Exact)
include hlib hexact

theorem Values.decode_encode {v : PointValues} (h : v.Portable) :
    Values.decode lib (Values.encode lib v) = if v.finite = true then some v else none := by
  unfold Values.decode Values.encode
  refine hlib.record?_bind (by simp [field]) (by simp [field]) fun r hr => ?_
  rw [Record.required_of_given (hr "variables"), Record.required_of_given (hr "constraints"),
    Vector.decode_encode hlib hexact h.vars, Vector.decode_encode hlib hexact h.constraints,
    PointValues.finite]
  cases v.vars.finite <;> cases v.constraints.finite <;> rfl

theorem Solution.decode_encode {s : SolverSession.Solution} (h : s.Portable) :
    Solution.decode lib (Solution.encode lib s) = if s.finite = true then some s else none := by
  unfold Solution.decode Solution.encode
  refine hlib.record?_bind (by simp [field]) (by simp [field]) fun r hr => ?_
  have hdual : r.optional "dual" (lib.option? (Values.decode lib)) none =
      if s.dual.all PointValues.finite = true then some s.dual else none :=
    hlib.optional_of_map (hr "dual") (fun _ => ofMembers_ne_null _)
      fun values hvalues => Values.decode_encode hlib hexact (h.dual values hvalues)
  rw [Record.required_of_given (hr "is_value_valid"),
    Record.required_of_given (hr "is_dual_valid"), Record.required_of_given (hr "primal"), hdual,
    hlib.bool?_bool, hlib.bool?_bool, Values.decode_encode hlib hexact h.primal,
    SolverSession.Solution.finite]
  cases s.primal.finite <;> cases s.dual.all PointValues.finite <;> rfl

theorem Start.decode_encode (s : WarmStart) :
    Start.decode lib (Start.encode lib s) = if s.finite = true then some s else none := by
  unfold Start.decode Start.encode
  refine hlib.record?_bind (by simp) (by simp) fun r hr => ?_
  have hlist : ∀ name field, r name = (s.get field).map (ofFloats lib) →
      r.optional name (lib.option? (lib.list? lib.float?)) none =
        if (s.get field).all (·.all Float.isFinite) = true then some (s.get field) else none := by
    intro name field hgiven
    have hnull : ∀ values : List Float, ofFloats lib values ≠ .null := fun _ => by nofun
    exact hlib.optional_of_map hgiven hnull fun values _ =>
      hlib.list?_ofList_same fun x _ => hlib.float?_ofFloat hexact x
  simp only [hlist "primal_columns" .primalCols (hr "primal_columns"),
    hlist "primal_rows" .primalRows (hr "primal_rows"),
    hlist "dual_columns" .dualCols (hr "dual_columns"),
    hlist "dual_rows" .dualRows (hr "dual_rows"), Option.bind_eq_bind, ite_bind, ite_ite_none,
    WarmStart.finite, List.all_cons, List.all_nil, Bool.and_true]
  rfl

theorem Diagnostics.decode_encode (i : SolverSession.Diagnostics) :
    Diagnostics.decode lib (Diagnostics.encode lib i) =
      if i.finite = true then some i else none := by
  unfold Diagnostics.decode Diagnostics.encode
  refine hlib.record?_bind (by simp [field, names]) (by simp [field]) fun r hr => ?_
  have hcount : ∀ name n, r name = some (ofInt32 lib n) → r.required name lib.int32? = some n :=
    fun name n hgiven => (Record.required_of_given hgiven).trans (hlib.int32?_ofInt n)
  have hnumber : ∀ name x, r name = some (lib.ofFloat x) →
      r.required name lib.float? = if x.isFinite = true then some x else none :=
    fun name x hgiven => (Record.required_of_given hgiven).trans (hlib.float?_ofFloat hexact x)
  have hvalid : r.required "valid" lib.bool? = some i.valid :=
    (Record.required_of_given (hr "valid")).trans (hlib.bool?_bool _)
  have hnodes : r.required "mip_node_count" lib.int64? = some i.mipNodeCount :=
    (Record.required_of_given (hr "mip_node_count")).trans (hlib.int64?_ofInt _)
  simp only [hvalid, hnodes, hcount _ _ (hr "basis_validity"),
    hcount _ _ (hr "primal_solution_status"), hcount _ _ (hr "dual_solution_status"),
    hcount _ _ (hr "simplex_iteration_count"), hcount _ _ (hr "ipm_iteration_count"),
    hcount _ _ (hr "crossover_iteration_count"), hcount _ _ (hr "qp_iteration_count"),
    hcount _ _ (hr "num_primal_infeasibilities"), hcount _ _ (hr "num_dual_infeasibilities"),
    hnumber _ _ (hr "objective_function_value"), hnumber _ _ (hr "mip_dual_bound"),
    hnumber _ _ (hr "mip_gap"), hnumber _ _ (hr "max_primal_infeasibility"),
    hnumber _ _ (hr "sum_primal_infeasibilities"), hnumber _ _ (hr "max_dual_infeasibility"),
    hnumber _ _ (hr "sum_dual_infeasibilities")]
  -- Each number that is not finite refuses the whole; their conditions become one.
  simp only [Option.bind_eq_bind, Option.bind_some, ite_bind, ite_ite_none, Diagnostics.finite,
    Diagnostics.floats, List.all_cons, List.all_nil, Bool.and_true]
  rfl

end

section

variable (hlib : lib.Lawful)
include hlib

theorem Status.decode_encode (s : ModelStatus) :
    Status.decode lib (Status.encode lib s) = some s := by
  cases s with
  | unrecognized code =>
    rw [Status.encode, Status.decode, alternative, hlib.data?_member]
    exact congrArg (Option.map _) (hlib.int32?_ofInt code)
  | _ =>
    simp only [Status.encode, Status.decode, ofString, hlib.data?_text, hlib.unit?_text]
    rfl

theorem PointStatus.decode_encode (s : SolverSession.PointStatus) :
    PointStatus.decode lib (PointStatus.encode s) = some s := by
  rw [PointStatus.encode, PointStatus.decode, ofString, hlib.unit?_text]
  cases s <;> rfl

theorem SolveOptions.decode_encode (o : SolverSession.SolveOptions) :
    SolveOptions.decode lib (SolveOptions.encode o) = some o := by
  unfold SolveOptions.decode SolveOptions.encode
  refine hlib.record?_bind (by simp [field]) (by simp [field]) fun r hr => ?_
  rw [Record.optional_of_given (hr "allow_non_optimal"), hlib.bool?_bool]
  rfl

theorem OptionValue.decode_eq (v : Value) : OptionValue.decode lib v =
    ((lib.bool? v).map .bool).or (((lib.int64? v).map .int).or
      (((lib.float? v).map .double).or ((lib.string? v).map .text))) := by
  rw [OptionValue.decode, hlib.untagged?_cons, hlib.untagged?_cons, hlib.untagged?_cons,
    hlib.untagged?_cons, hlib.untagged?_nil, Option.or_none]

/-- What is no truth value, no whole number and no text can only be a double. -/
theorem OptionValue.decode_of_double {v : Value} (hbool : ∀ b, v ≠ .bool b)
    (htext : ∀ s, v ≠ .text (some s)) (hint : ∀ n : Numeral, v = .number n → ¬n.IsWhole) :
    OptionValue.decode lib v = (lib.float? v).map .double := by
  have hnoBool : lib.bool? v = none := Option.eq_none_iff_forall_ne_some.mpr fun b hb =>
    hbool b (hlib.bool?_eq_some_iff.mp hb)
  have hnoText : lib.string? v = none := Option.eq_none_iff_forall_ne_some.mpr fun s hs =>
    htext s (hlib.string?_eq_some_iff.mp hs)
  have hnoInt : lib.int64? v = none := by
    rw [Codec.int64?, Option.map_eq_none_iff, Option.eq_none_iff_forall_ne_some]
    intro k hk
    obtain ⟨n,hn,hwhole⟩ := hlib.int?_number hk
    exact hint n hn hwhole
  rw [OptionValue.decode_eq hlib, hnoBool, hnoInt, hnoText]
  exact Option.or_none

theorem OptionValue.decode_double (x : Float) :
    OptionValue.decode lib (lib.ofFloat x) = (lib.float? (lib.ofFloat x)).map .double := by
  by_cases hx : x.isFinite = true
  · obtain ⟨n,hn,hmarked⟩ := hlib.ofFloat_finite hx
    rw [hn]
    refine OptionValue.decode_of_double hlib (fun _ => nofun) (fun _ => nofun) ?_
    rintro m ⟨⟩
    exact hmarked
  · rw [hlib.ofFloat_other (Bool.eq_false_iff.mpr hx)]
    exact OptionValue.decode_of_double hlib (fun _ => nofun) (fun _ => nofun) (fun _ => nofun)

theorem OptionValue.decode_bool (b : Bool) :
    OptionValue.decode lib (.bool b) = some (.bool b) := by
  rw [OptionValue.decode_eq hlib, hlib.bool?_bool]
  rfl

theorem OptionValue.decode_int (n : Int64) :
    OptionValue.decode lib (lib.ofInt n.toInt) = some (.int n) := by
  have hnoBool : lib.bool? (lib.ofInt n.toInt) = none := by
    have hint : lib.int? (-0x8000000000000000) 0x8000000000000000 (lib.ofInt n.toInt) =
        some n.toInt := hlib.int?_ofInt (by decide) (by decide) n.le_toInt n.toInt_lt
    obtain ⟨m,hm,-⟩ := hlib.int?_number hint
    rw [hm, Option.eq_none_iff_forall_ne_some]
    intro b hb
    cases hlib.bool?_eq_some_iff.mp hb
  rw [OptionValue.decode_eq hlib, hnoBool, hlib.int64?_ofInt]
  rfl

theorem OptionValue.decode_text (s : String) :
    OptionValue.decode lib (ofString s) = some (.text s) := by
  have hnoBool : lib.bool? (ofString s) = none := Option.eq_none_iff_forall_ne_some.mpr
    fun b hb => by cases hlib.bool?_eq_some_iff.mp hb
  have hnoInt : lib.int64? (ofString s) = none := by
    rw [Codec.int64?, Option.map_eq_none_iff, Option.eq_none_iff_forall_ne_some]
    intro k hk
    obtain ⟨n,hn,-⟩ := hlib.int?_number hk
    cases hn
  have hnoFloat : lib.float? (ofString s) = none := Option.eq_none_iff_forall_ne_some.mpr
    fun x hx => by
      obtain ⟨n,hn⟩ := hlib.float?_number hx
      cases hn
  rw [OptionValue.decode_eq hlib, hnoBool, hnoInt, hnoFloat, hlib.string?_ofString]
  rfl

theorem OptionValue.decode_encode (hexact : lib.Exact) (v : SolverSession.OptionValue) :
    OptionValue.decode lib (OptionValue.encode lib v) =
      if v.finite = true then some v else none := by
  cases v with
  | bool b => exact OptionValue.decode_bool hlib b
  | int n => exact OptionValue.decode_int hlib n
  | text s => exact OptionValue.decode_text hlib s
  | double x =>
    rw [OptionValue.encode, OptionValue.decode_double hlib, hlib.float?_ofFloat hexact,
      SolverSession.OptionValue.finite]
    cases x.isFinite <;> rfl

/-- Also a double that is not read back exactly stays a double. -/
theorem OptionValue.decode_encode_kind {v w : SolverSession.OptionValue}
    (h : OptionValue.decode lib (OptionValue.encode lib v) = some w) : w.kind = v.kind := by
  cases v with
  | bool b =>
    obtain rfl := Option.some.inj ((OptionValue.decode_bool hlib b).symm.trans h)
    rfl
  | int n =>
    obtain rfl := Option.some.inj ((OptionValue.decode_int hlib n).symm.trans h)
    rfl
  | text s =>
    obtain rfl := Option.some.inj ((OptionValue.decode_text hlib s).symm.trans h)
    rfl
  | double x =>
    rw [OptionValue.encode, OptionValue.decode_double hlib] at h
    obtain ⟨y,-,rfl⟩ := Option.map_eq_some_iff.mp h
    rfl

end

/-! ## Writing and reading -/

theorem Values.encode_written (depth : Nat) {v : PointValues} (h : v.Portable) :
    lib.Written (depth+3) (Values.encode lib v) := by
  refine ofMembers_written ?_
  simp only [List.forall_mem_cons, field, Option.mem_some_iff, forall_eq']
  exact ⟨Vector.encode_written depth h.vars,Vector.encode_written depth h.constraints,
    List.forall_mem_nil _⟩

theorem Solution.encode_written (depth : Nat) {s : SolverSession.Solution} (h : s.Portable) :
    lib.Written (depth+4) (Solution.encode lib s) := by
  refine ofMembers_written ?_
  simp only [List.forall_mem_cons, field, Option.mem_some_iff, forall_eq']
  refine ⟨.bool _,.bool _,Values.encode_written depth h.primal,?_,List.forall_mem_nil _⟩
  intro v hv
  obtain ⟨values,hvalues,rfl⟩ := Option.map_eq_some_iff.mp hv
  exact Values.encode_written depth (h.dual values hvalues)

theorem Start.encode_written (depth : Nat) (s : WarmStart) :
    lib.Written (depth+2) (Start.encode lib s) := by
  have hlist : ∀ xs : Option (List Float), ∀ v ∈ xs.map (ofFloats lib),
      lib.Written (depth+1) v := by
    intro xs v hv
    obtain ⟨values,-,rfl⟩ := Option.map_eq_some_iff.mp hv
    exact ofList_written fun x _ => .float x
  refine ofMembers_written ?_
  simp only [List.forall_mem_cons]
  exact ⟨hlist _,hlist _,hlist _,hlist _,List.forall_mem_nil _⟩

theorem int32_written (depth : Nat) (n : Int32) : lib.Written depth (lib.ofInt n.toInt) :=
  .int ((by decide : (-0x8000000000000000 : Int) ≤ -0x80000000).trans n.le_toInt)
    (n.toInt_lt.trans (by decide))

theorem int64_written (depth : Nat) (n : Int64) : lib.Written depth (lib.ofInt n.toInt) :=
  .int n.le_toInt (n.toInt_lt.trans (by decide))

theorem Diagnostics.encode_written (depth : Nat) (i : SolverSession.Diagnostics) :
    lib.Written (depth+1) (Diagnostics.encode lib i) := by
  refine ofMembers_written ?_
  simp only [List.forall_mem_cons, field, Option.mem_some_iff, forall_eq', ofInt32,
    int32_written, int64_written, Codec.Written.float, Codec.Written.bool, true_and]
  exact List.forall_mem_nil _

theorem Status.encode_written (depth : Nat) (s : ModelStatus) :
    lib.Written (depth+1) (Status.encode lib s) := by
  cases s with
  | unrecognized code =>
    refine .object (List.forall_mem_singleton.mpr (Option.some_ne_none _)) ?_
    exact List.forall_mem_singleton.mpr (int32_written depth code)
  | _ => exact .text _

theorem OptionValue.encode_written (depth : Nat) (v : SolverSession.OptionValue) :
    lib.Written depth (OptionValue.encode lib v) := by
  cases v with
  | bool b => exact .bool b
  | int n => exact int64_written depth n
  | double x => exact .float x
  | text s => exact .text s

theorem SolveOptions.encode_written (depth : Nat) (o : SolverSession.SolveOptions) :
    lib.Written (depth+1) (SolveOptions.encode o) := by
  refine ofMembers_written ?_
  simp only [List.forall_mem_cons, field, Option.mem_some_iff, forall_eq']
  exact ⟨.bool _,List.forall_mem_nil _⟩

variable {β : Type}

/-- What is written is read again as it was if its numbers are finite, and refused otherwise. -/
def Returns (lib : Codec) (encode : β → Value) (decode : Decoder β) (finite : Bool) (x : β) : Prop :=
  transmit lib encode decode x = if finite = true then some x else none

theorem returns_of_decode (hlib : lib.Lawful) {encode : β → Value} {decode : Decoder β}
    {finite : Bool} {x : β} (hencode : lib.Written 127 (encode x))
    (hdecode : decode (encode x) = if finite = true then some x else none) :
    Returns lib encode decode finite x := (transmit_eq hlib hencode decode).trans hdecode

/-- What travels beside models comes back as it was, or is refused for a number that is not finite;
statuses and solve options have no such numbers. An option value that comes back has its kind. -/
theorem json_exact (hlib : lib.Lawful) (hexact : lib.Exact) :
    (∀ v : SparseVec Float, v.Portable →
      Returns lib (Vector.encode lib) (Vector.decode lib) v.finite v) ∧
    (∀ s : WarmStart, Returns lib (Start.encode lib) (Start.decode lib) s.finite s) ∧
    (∀ v : PointValues, v.Portable →
      Returns lib (Values.encode lib) (Values.decode lib) v.finite v) ∧
    (∀ s : SolverSession.Solution, s.Portable →
      Returns lib (Solution.encode lib) (Solution.decode lib) s.finite s) ∧
    (∀ i : SolverSession.Diagnostics,
      Returns lib (Diagnostics.encode lib) (Diagnostics.decode lib) i.finite i) ∧
    (∀ v : SolverSession.OptionValue,
      Returns lib (OptionValue.encode lib) (OptionValue.decode lib) v.finite v) ∧
    (∀ v w : SolverSession.OptionValue,
      transmit lib (OptionValue.encode lib) (OptionValue.decode lib) v = some w →
        w.kind = v.kind) ∧
    (∀ s : ModelStatus, Returns lib (Status.encode lib) (Status.decode lib) true s) ∧
    (∀ s : SolverSession.PointStatus,
      Returns lib PointStatus.encode (PointStatus.decode lib) true s) ∧
    ∀ o : SolverSession.SolveOptions,
      Returns lib SolveOptions.encode (SolveOptions.decode lib) true o := by
  refine ⟨?_,?_,?_,?_,?_,?_,?_,?_,?_,?_⟩
  · exact fun v h =>
      returns_of_decode hlib (Vector.encode_written 125 h) (Vector.decode_encode hlib hexact h)
  · exact fun s =>
      returns_of_decode hlib (Start.encode_written 125 s) (Start.decode_encode hlib hexact s)
  · exact fun v h =>
      returns_of_decode hlib (Values.encode_written 124 h) (Values.decode_encode hlib hexact h)
  · exact fun s h =>
      returns_of_decode hlib (Solution.encode_written 123 h) (Solution.decode_encode hlib hexact h)
  · exact fun i => returns_of_decode hlib (Diagnostics.encode_written 126 i)
      (Diagnostics.decode_encode hlib hexact i)
  · exact fun v => returns_of_decode hlib (OptionValue.encode_written 127 v)
      (OptionValue.decode_encode hlib hexact v)
  · intro v w h
    rw [transmit_eq hlib (OptionValue.encode_written 127 v)] at h
    exact OptionValue.decode_encode_kind hlib h
  · exact fun s => returns_of_decode hlib (Status.encode_written 126 s) (Status.decode_encode hlib s)
  · exact fun s => returns_of_decode hlib (.text _) (PointStatus.decode_encode hlib s)
  · exact fun o => returns_of_decode hlib (SolveOptions.encode_written 126 o)
      (SolveOptions.decode_encode hlib o)

/-- A list that is there and empty, a dual part that is no number, a whole double, a text that looks
like a number, and a code of the table that is kept as a code. -/
theorem json_exact_empty_list :
    let start : WarmStart := ⟨some [],none,some [0.5],none⟩
    let solution : SolverSession.Solution :=
      ⟨true,true,⟨⟨[0],[1]⟩,.empty⟩,some ⟨.empty,⟨[2],[Float.ofBits 0x7ff8000000000000]⟩⟩⟩
    let option := transmit exact (OptionValue.encode exact) (OptionValue.decode exact)
    exact.Lawful ∧ exact.Exact ∧
    transmit exact (Start.encode exact) (Start.decode exact) start = some start ∧
    transmit exact (Solution.encode exact) (Solution.decode exact) solution = none ∧
    option (.double 1) = some (.double 1) ∧ option (.double 1e300) = some (.double 1e300) ∧
    option (.text "3") = some (.text "3") ∧
    transmit exact (Status.encode exact) (Status.decode exact) (.unrecognized 7) =
      some (.unrecognized 7) := by
  intro start solution option
  obtain ⟨-,hstart,-,hsolution,-,hoption,-,hstatus,-⟩ := json_exact exact_lawful exact_exact
  have hempty : SparseVec.empty.Portable := List.forall_mem_nil _
  have hportable : solution.Portable := {
    primal := ⟨List.forall_mem_singleton.mpr (by decide),hempty⟩
    dual := by
      rintro values ⟨⟩
      exact ⟨hempty,List.forall_mem_singleton.mpr (by decide)⟩ }
  exact ⟨exact_lawful,exact_exact,(hstart start).trans (if_pos (by decide +kernel)),
    (hsolution solution hportable).trans (if_neg (by decide +kernel)),
    (hoption (.double 1)).trans (if_pos (by decide +kernel)),
    (hoption (.double 1e300)).trans (if_pos (by decide +kernel)),hoption (.text "3"),hstatus _⟩

end Wire
end SolverSession
