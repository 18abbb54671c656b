import SolverSession.Proofs.SplitModels

/-!
# Column names

The columns of a flat model are called by the names that were given and, where there is none, after
their positions. Names from positions never repeat each other. So as long as no name is given twice
there is one way for two columns to share a name: one of them has none of its own, and the other was
given the name that this position makes.
-/
namespace SolverSession

variable {α : Type}

theorem positionName_injective : Function.Injective fun position : Nat => s!"c{position}" :=
  Function.LeftInverse.injective (g := fun name => Nat.ofDigitChars 10 name.toList.tail 0)
    fun position => by
      have hletter : (toString "c").toList = ['c'] := rfl
      simp [hletter]

namespace Model

def givenNames (vars : List (Variable α)) : List String := vars.filterMap (·.name)

/-- The positions of the variables without a name, the first variable being at `k`. -/
def unnamedFrom (k : Nat) (vars : List (Variable α)) : List Nat :=
  ((vars.zipIdx k).filter (·.1.name.isNone)).map (·.2)

theorem unnamedFrom_nodup (k : Nat) (vars : List (Variable α)) : (unnamedFrom k vars).Nodup := by
  have hpositions : ((vars.zipIdx k).map (·.2)).Nodup := by
    rw [List.zipIdx_map_snd]
    exact List.nodup_range'
  exact hpositions.sublist (List.filter_sublist.map _)

theorem mem_unnamedFrom_zero {j : Nat} {vars : List (Variable α)} :
    j ∈ unnamedFrom 0 vars ↔ ∃ v, vars[j]? = some v ∧ v.name = none := by
  simp only [unnamedFrom, List.mem_map, List.mem_filter, List.mem_zipIdx_iff_getElem?,
    Option.isNone_iff_eq_none]
  constructor
  · rintro ⟨⟨v,_⟩,⟨hv,hname⟩,rfl⟩
    exact ⟨v,hv,hname⟩
  · rintro ⟨v,hv,hname⟩
    exact ⟨(v,j),⟨hv,hname⟩,rfl⟩

/-- In some order, the names are the given ones and those the other positions make. -/
theorem names_perm (k : Nat) (vars : List (Variable α)) :
    ((vars.zipIdx k).map fun (v,position) => v.nameAt position).Perm
      (givenNames vars ++ (unnamedFrom k vars).map fun position => s!"c{position}") := by
  induction vars generalizing k with
  | nil => exact .nil
  | cons v rest ih =>
    cases hname : v.name with
    | some name =>
      simpa [Variable.nameAt, givenNames, unnamedFrom, hname] using ih (k+1)
    | none =>
      have hmiddle := ((ih (k+1)).cons s!"c{k}").trans List.perm_middle.symm
      simpa [Variable.nameAt, givenNames, unnamedFrom, hname] using hmiddle

theorem names_nodup_iff {vars : List (Variable α)} :
    (vars.zipIdx.map fun (v,position) => v.nameAt position).Nodup ↔
      (givenNames vars).Nodup ∧ ∀ (j : Nat) (v : Variable α), vars[j]? = some v → v.name = none →
        s!"c{j}" ∉ givenNames vars := by
  have hmade : ((unnamedFrom 0 vars).map fun position => s!"c{position}").Nodup :=
    (unnamedFrom_nodup 0 vars).map positionName_injective
  rw [(names_perm 0 vars).nodup_iff, List.nodup_append]
  constructor
  · rintro ⟨hgiven,-,hapart⟩
    refine ⟨hgiven,fun j v hv hname hmem => ?_⟩
    have hj := mem_unnamedFrom_zero.mpr ⟨v,hv,hname⟩
    exact hapart _ hmem _ (List.mem_map_of_mem hj) rfl
  · rintro ⟨hgiven,hapart⟩
    refine ⟨hgiven,hmade,?_⟩
    rintro name hmem _ hposition rfl
    obtain ⟨j,hj,rfl⟩ := List.mem_map.mp hposition
    obtain ⟨v,hv,hname⟩ := mem_unnamedFrom_zero.mp hj
    exact hapart j v hv hname hmem

theorem flatten_names [Zero α] {m : Model α} {flat : FlatModel α} (h : m.flatten = .ok flat) :
    flat.names = m.columnNames := by
  obtain ⟨_,_,_,_,_,-,-,rfl⟩ := flatten_eq_ok_iff.mp h
  rfl

/-- A flat model with a named variable has a name for every column. If the given names are pairwise
distinct then so are the names of the columns, unless a variable was given the very name that an
unnamed column gets from its position. -/
theorem columnNames_distinct [Zero α] {m : Model α} {flat : FlatModel α}
    (h : m.flatten = .ok flat) (hnamed : ∃ v ∈ m.vars, v.name ≠ none)
    (hgiven : (m.vars.filterMap (·.name)).Nodup) :
    ∃ names, flat.names = some names ∧ names.length = m.vars.length ∧
      (names.Nodup ↔ ∀ (j : Nat) (v : Variable α), m.vars[j]? = some v → v.name = none →
        ∀ w ∈ m.vars, w.name ≠ some s!"c{j}") := by
  have hsome : m.vars.any (·.name.isSome) = true := by
    simpa [Option.isSome_iff_ne_none] using hnamed
  refine ⟨_,(flatten_names h).trans (if_pos hsome),by simp,?_⟩
  rw [names_nodup_iff]
  simp only [givenNames, hgiven, true_and, List.mem_filterMap, not_exists, not_and, ne_eq]

/-- A variable was given the name of the first position, where the variable has another name. -/
theorem columnNames_distinct_other_position :
    let m : Model Float := ⟨none,[{ Variable.free .continuous with name := some "x" },
      .free .integer,{ Variable.free .continuous with name := some "c0" }],[]⟩
    ∃ flat, m.flatten = .ok flat ∧ flat.names = some ["x","c1","c0"] ∧
      ["x","c1","c0"].Nodup := by
  intro m
  obtain ⟨names,hnames,-,hdistinct⟩ := columnNames_distinct (m := m) rfl
    ⟨_,List.mem_cons_self,nofun⟩ (by decide)
  obtain rfl : ["x","c1","c0"] = names := Option.some.inj hnames
  refine ⟨_,rfl,rfl,hdistinct.mpr fun j v hv hname => ?_⟩
  have hj : j ∈ [1] := mem_unnamedFrom_zero.mpr ⟨v,hv,hname⟩
  obtain rfl : j = 1 := List.mem_singleton.mp hj
  decide

/-- A variable is given the name of the first position, and the variable there has none. -/
theorem columnNames_clash :
    let m : Model Float := ⟨none,[.free .continuous,
      { Variable.free .continuous with name := some "c0" }],[]⟩
    (m.vars.filterMap (·.name)).Nodup ∧ (∃ v ∈ m.vars, v.name ≠ none) ∧
      ∃ flat names, m.flatten = .ok flat ∧ flat.names = some names ∧ ¬names.Nodup := by
  intro m
  exact ⟨by decide,⟨_,List.mem_cons_of_mem _ List.mem_cons_self,nofun⟩,_,_,rfl,rfl,by decide⟩

end Model
end SolverSession
