import Mathlib
import SolverSession.Proofs.JsonModels

/-!
# The spellings of a record

An object may list its members in any order, hold members that are not fields, and leave out a
field at its default; it may also be the array of its fields. None of this changes what is decoded.
A field that has no default may not be left out, and no field may be given twice.
-/
namespace SolverSession.Json

variable {β : Type} {lib : Codec} {names : List String}
  {members others before after : List (Text × Value)} {name : String} {v : Value} {r : Record}

/-! ## The members of an object, edited -/

namespace Codec.Decodes

variable (hlib : lib.Decodes)
include hlib

theorem field_eq_some_iff (h : lib.record? names (.object members) = some r) (hname : name ∈ names) :
    r name = some v ↔ (some name,v) ∈ members :=
  (hlib.record?_eq_some_iff h).trans (and_iff_right hname)

theorem field_eq_none_iff (h : lib.record? names (.object members) = some r) (hname : name ∈ names) :
    r name = none ↔ ∀ v, (some name,v) ∉ members := by
  rw [Option.eq_none_iff_forall_ne_some]
  exact forall_congr' fun v => not_congr (hlib.field_eq_some_iff h hname)

theorem record?_repeated (hname : name ∈ names) (hmem : (some name,v) ∈ before ++ after)
    (w : Value) : lib.record? names (.object (before ++ (some name,w) :: after)) = none := by
  rw [Option.eq_none_iff_forall_ne_some]
  intro r hr
  -- Moved to the end, the member is seen not to be the only one of its name.
  have hend : (before ++ (some name,w) :: after).Perm ((before ++ after) ++ [(some name,w)]) :=
    List.perm_middle.trans (List.perm_append_singleton _ _).symm
  have hnew := ((collectible_concat_of_mem hname).mp ((hlib.collectible hr).perm hend)).1
  exact hnew (List.mem_map.mpr ⟨_,mem_named.mpr ⟨hname,hmem⟩,rfl⟩)

theorem record?_extended (hname : name ∉ names) (before after : List (Text × Value)) (v : Value) :
    lib.record? names (.object (before ++ (some name,v) :: after)) =
      lib.record? names (.object (before ++ after)) := by
  have hend : (before ++ (some name,v) :: after).Perm ((before ++ after) ++ [(some name,v)]) :=
    List.perm_middle.trans (List.perm_append_singleton _ _).symm
  have hcollectible : Collectible names (before ++ (some name,v) :: after) ↔
      Collectible names (before ++ after) :=
    (Iff.intro (·.perm hend) (·.perm hend.symm)).trans (collectible_concat_of_not_mem hname)
  have hcollected : Record.collected names (before ++ (some name,v) :: after) =
      Record.collected names (before ++ after) := by
    funext key
    rw [Record.collected, Record.collected, ← List.singleton_append, named_append, named_append,
      named_append, named_singleton_of_not_mem hname, List.nil_append]
  ext r
  rw [hlib.record?_object_eq_some_iff, hlib.record?_object_eq_some_iff, hcollectible, hcollected]

end Codec.Decodes

/-! ## Fields and their defaults -/

/-- A field as its record declares it, with what it stands for where it is left out; a field without
a default is required. -/
structure Field where
  Carrier : Type
  name : String
  decode : Decoder Carrier
  default : Option Carrier

namespace Field

def required (name : String) (decode : Decoder β) : Field := ⟨β,name,decode,none⟩

def optional (name : String) (decode : Decoder β) (default : β) : Field :=
  ⟨β,name,decode,some default⟩

/-- What the field is, given the value of its member if there is one. -/
def value (f : Field) : Option Value → Option f.Carrier
  | some v => f.decode v
  | none => f.default

def read (f : Field) (r : Record) : Option f.Carrier := f.value (r f.name)

/-- The value is decoded to the field's default. -/
def AtDefault (f : Field) (v : Value) : Prop := ∃ d, f.default = some d ∧ f.decode v = some d

theorem AtDefault.value_eq {f : Field} (h : f.AtDefault v) : f.value (some v) = f.value none := by
  obtain ⟨d,hd,hdecode⟩ := h
  rw [value, hdecode, value, hd]

end Field

/-- What is made of a record depends on nothing but its fields, and each of them has to be
something. -/
structure Reads (fields : List Field) (assemble : Record → Option β) : Prop where
  congr : ∀ r s, (∀ f ∈ fields, f.read r = f.read s) → assemble r = assemble s
  complete : ∀ r, ∀ f ∈ fields, f.read r = none → assemble r = none

theorem Reads.pure (x : β) : Reads [] fun _ => some x where
  congr _ _ _ := rfl
  complete := nofun

theorem Reads.bind {f : Field} {rest : List Field} {next : f.Carrier → Record → Option β}
    (h : ∀ x, Reads rest (next x)) : Reads (f :: rest) fun r => f.read r >>= fun x => next x r where
  congr r s hsame := by
    obtain ⟨hf,hrest⟩ := List.forall_mem_cons.mp hsame
    rw [hf]
    exact Option.bind_congr fun x _ => (h x).congr r s hrest
  complete r := by
    refine List.forall_mem_cons.mpr ⟨fun hf => ?_,fun g hg hnone => ?_⟩
    · rw [hf]
      rfl
    · exact Option.bind_eq_none_iff.mpr fun x _ => (h x).complete r g hg hnone

/-- A decoder that reads these fields of a record. Every default can be written out. -/
structure Describes (lib : Codec) (fields : List Field) (decode : Decoder β) : Prop where
  distinct : (fields.map Field.name).Nodup
  spelled : ∀ f ∈ fields, f.default ≠ none → ∃ v, f.AtDefault v
  reads : ∃ assemble : Record → Option β, Reads fields assemble ∧
    ∀ v, decode v = (lib.record? (fields.map Field.name) v).bind assemble

/-! ## Writing an object differently -/

/-- What stands for the field in an array: the value of its member, or a value that is decoded to
its default if there is no such member. -/
def Fills (members : List (Text × Value)) (f : Field) (item : Value) : Prop :=
  (some f.name,item) ∈ members ∨ (∀ v, (some f.name,v) ∉ members) ∧ f.AtDefault item

/-- Other ways to write the object of these members. -/
inductive Respelled (fields : List Field) (members : List (Text × Value)) : Value → Prop
  | permuted (others : List (Text × Value)) (h : members.Perm others) :
      Respelled fields members (.object others)
  | extended (before after : List (Text × Value)) (name : String) (v : Value)
      (h : members = before ++ after) (hname : name ∉ fields.map Field.name) :
      Respelled fields members (.object (before ++ (some name,v) :: after))
  | shortened (before after : List (Text × Value)) (f : Field) (v : Value)
      (h : members = before ++ (some f.name,v) :: after) (hf : f ∈ fields) (hv : f.AtDefault v) :
      Respelled fields members (.object (before ++ after))
  | listed (items : List Value) (h : List.Forall₂ (Fills members) fields items) :
      Respelled fields members (.array items)

/-- Ways to spoil the object of these members. -/
inductive Spoiled (fields : List Field) (members : List (Text × Value)) : Value → Prop
  | incomplete (before after : List (Text × Value)) (f : Field) (v : Value)
      (h : members = before ++ (some f.name,v) :: after) (hf : f ∈ fields)
      (hrequired : f.default = none) : Spoiled fields members (.object (before ++ after))
  | repeated (before after : List (Text × Value)) (name : String) (v w : Value)
      (h : members = before ++ after) (hname : name ∈ fields.map Field.name)
      (hmember : (some name,v) ∈ members) :
      Spoiled fields members (.object (before ++ (some name,w) :: after))

variable {fields : List Field} {f : Field} {decode : Decoder β} {x : β} {items : List Value}

theorem mem_names (hf : f ∈ fields) : f.name ∈ fields.map Field.name := List.mem_map.mpr ⟨f,hf,rfl⟩

namespace Describes

variable (h : Describes lib fields decode)
include h

theorem decode_congr {v w : Value} {s : Record}
    (hv : lib.record? (fields.map Field.name) v = some r)
    (hw : lib.record? (fields.map Field.name) w = some s)
    (hsame : ∀ f ∈ fields, f.read r = f.read s) : decode v = decode w := by
  obtain ⟨assemble,hreads,hdecode⟩ := h.reads
  rw [hdecode, hdecode, hv, hw]
  exact hreads.congr r s hsame

theorem decode_eq_none (hv : lib.record? (fields.map Field.name) v = some r) (hf : f ∈ fields)
    (hnone : f.read r = none) : decode v = none := by
  obtain ⟨assemble,hreads,hdecode⟩ := h.reads
  rw [hdecode, hv]
  exact hreads.complete r f hf hnone

theorem decode_of_record? {w : Value}
    (hsame : lib.record? (fields.map Field.name) v = lib.record? (fields.map Field.name) w) :
    decode v = decode w := by
  obtain ⟨assemble,-,hdecode⟩ := h.reads
  rw [hdecode, hdecode, hsame]

theorem decode_refused (hv : lib.record? (fields.map Field.name) v = none) : decode v = none := by
  obtain ⟨assemble,-,hdecode⟩ := h.reads
  rw [hdecode, hv]
  rfl

theorem exists_record? (hx : decode v = some x) :
    ∃ r, lib.record? (fields.map Field.name) v = some r := by
  cases hr : lib.record? (fields.map Field.name) v with
  | some r => exact ⟨r,rfl⟩
  | none =>
    rw [h.decode_refused hr] at hx
    cases hx

variable (hlib : lib.Decodes)
include hlib

theorem decode_permuted (hx : decode (.object members) = some x) (hperm : members.Perm others) :
    decode (.object others) = some x := by
  obtain ⟨r,hr⟩ := h.exists_record? hx
  obtain ⟨s,hs⟩ := hlib.exists_record? ((hlib.collectible hr).perm hperm)
  rw [← hx]
  refine (h.decode_congr hr hs fun f hf => congrArg f.value ?_).symm
  ext v
  rw [hlib.field_eq_some_iff hr (mem_names hf), hlib.field_eq_some_iff hs (mem_names hf),
    hperm.mem_iff]

/-- Without one of its members an object is still collected, and the other fields are the same. -/
theorem exists_shortened (hf : f ∈ fields) (hr : lib.record? (fields.map Field.name)
      (.object (before ++ (some f.name,v) :: after)) = some r) :
    ∃ s, lib.record? (fields.map Field.name) (.object (before ++ after)) = some s ∧
      f.read r = f.value (some v) ∧ f.read s = f.value none ∧
      ∀ g ∈ fields, g ≠ f → g.read r = g.read s := by
  have hname := mem_names hf
  have hsub : (before ++ after).Sublist (before ++ (some f.name,v) :: after) :=
    List.Sublist.append_left (List.sublist_cons_self _ _) before
  obtain ⟨s,hs⟩ := hlib.exists_record? ((hlib.collectible hr).sublist hsub)
  refine ⟨s,hs,congrArg f.value ?_,congrArg f.value ?_,fun g hg hne => congrArg g.value ?_⟩
  · rw [hlib.field_eq_some_iff hr hname]
    exact List.mem_append_right _ List.mem_cons_self
  · rw [hlib.field_eq_none_iff hs hname]
    intro w hw
    rw [hlib.record?_repeated hname hw] at hr
    cases hr
  · have hother : g.name ≠ f.name := fun heq => hne (List.inj_on_of_nodup_map h.distinct hg hf heq)
    ext w
    rw [hlib.field_eq_some_iff hr (mem_names hg), hlib.field_eq_some_iff hs (mem_names hg)]
    simp [hother]

theorem decode_shortened (hf : f ∈ fields) (hv : f.AtDefault v)
    (hx : decode (.object (before ++ (some f.name,v) :: after)) = some x) :
    decode (.object (before ++ after)) = some x := by
  obtain ⟨r,hr⟩ := h.exists_record? hx
  obtain ⟨s,hs,hgiven,habsent,hothers⟩ := h.exists_shortened hlib hf hr
  rw [← hx]
  refine (h.decode_congr hr hs fun g hg => ?_).symm
  by_cases heq : g = f
  · rw [heq, hgiven, habsent, hv.value_eq]
  · exact hothers g hg heq

theorem decode_incomplete (hf : f ∈ fields) (hrequired : f.default = none)
    (hx : decode (.object (before ++ (some f.name,v) :: after)) = some x) :
    decode (.object (before ++ after)) = none := by
  obtain ⟨r,hr⟩ := h.exists_record? hx
  obtain ⟨s,hs,-,habsent,-⟩ := h.exists_shortened hlib hf hr
  exact h.decode_eq_none hs hf (habsent.trans hrequired)

end Describes

theorem exists_forall₂ {R : Field → Value → Prop} (h : ∀ f ∈ fields, ∃ item, R f item) :
    ∃ items, List.Forall₂ R fields items := by
  induction fields with
  | nil => exact ⟨[],.nil⟩
  | cons f rest ih =>
    obtain ⟨⟨item,hitem⟩,hrest⟩ := List.forall_mem_cons.mp h
    obtain ⟨items,hitems⟩ := ih hrest
    exact ⟨item :: items,.cons hitem hitems⟩

theorem exists_mem_zip {R : Field → Value → Prop} (hitems : List.Forall₂ R fields items)
    (hf : f ∈ fields) : ∃ item, (f.name,item) ∈ (fields.map Field.name).zip items ∧ R f item := by
  induction hitems with
  | nil => cases hf
  | @cons g item rest items hitem _ ih =>
    rw [List.map_cons, List.zip_cons_cons]
    rcases List.mem_cons.mp hf with rfl | hrest
    · exact ⟨item,List.mem_cons_self,hitem⟩
    · obtain ⟨item,hmem,hR⟩ := ih hrest
      exact ⟨item,List.mem_cons_of_mem _ hmem,hR⟩

namespace Describes

variable (h : Describes lib fields decode) (hlib : lib.Decodes)
include h hlib

theorem decode_listed (hx : decode (.object members) = some x)
    (hitems : List.Forall₂ (Fills members) fields items) : decode (.array items) = some x := by
  obtain ⟨r,hr⟩ := h.exists_record? hx
  have hlength : items.length = (fields.map Field.name).length := by
    rw [List.length_map, hitems.length_eq]
  have hs := hlib.record?_array hlength
  have hnodup : (((fields.map Field.name).zip items).map (·.1)).Nodup := by
    rw [List.map_fst_zip hlength.ge]
    exact h.distinct
  rw [← hx]
  -- In the array every field has a value; where it stands in for an absent member it is the default.
  refine (h.decode_congr hr hs fun f hf => ?_).symm
  obtain ⟨item,hmem,hfills⟩ := exists_mem_zip hitems hf
  have hitem : f.read (fun name => ((fields.map Field.name).zip items).lookup name) =
      f.value (some item) := congrArg f.value ((lookup_eq_some_iff_mem hnodup).mpr hmem)
  rw [hitem, Field.read]
  rcases hfills with hmember | ⟨habsent,hdefault⟩
  · rw [(hlib.field_eq_some_iff hr (mem_names hf)).mpr hmember]
  · rw [(hlib.field_eq_none_iff hr (mem_names hf)).mpr habsent, hdefault.value_eq]

theorem exists_listed (hx : decode (.object members) = some x) :
    ∃ items, List.Forall₂ (Fills members) fields items := by
  obtain ⟨r,hr⟩ := h.exists_record? hx
  refine exists_forall₂ fun f hf => ?_
  cases hgiven : r f.name with
  | some v => exact ⟨v,.inl ((hlib.field_eq_some_iff hr (mem_names hf)).mp hgiven)⟩
  | none =>
    have habsent := (hlib.field_eq_none_iff hr (mem_names hf)).mp hgiven
    by_cases hdefault : f.default = none
    · have hnone : f.read r = none := by rw [Field.read, hgiven, Field.value, hdefault]
      rw [h.decode_eq_none hr hf hnone] at hx
      cases hx
    · obtain ⟨v,hv⟩ := h.spelled f hf hdefault
      exact ⟨v,.inr ⟨habsent,hv⟩⟩

theorem decode_respelled (hx : decode (.object members) = some x)
    (hv : Respelled fields members v) : decode v = some x := by
  cases hv with
  | permuted others hperm => exact h.decode_permuted hlib hx hperm
  | extended before after name v heq hname =>
    subst heq
    rw [← hx]
    exact h.decode_of_record? (hlib.record?_extended hname before after v)
  | shortened before after f v heq hf hdefault =>
    subst heq
    exact h.decode_shortened hlib hf hdefault hx
  | listed items hitems => exact h.decode_listed hlib hx hitems

theorem decode_spoiled (hx : decode (.object members) = some x) (hv : Spoiled fields members v) :
    decode v = none := by
  cases hv with
  | incomplete before after f v heq hf hrequired =>
    subst heq
    exact h.decode_incomplete hlib hf hrequired hx
  | repeated before after name v w heq hname hmember =>
    subst heq
    exact h.decode_refused (hlib.record?_repeated hname hmember w)

end Describes
end SolverSession.Json

namespace SolverSession.Wire

open Json

/-! ## The fields of the records -/

variable (lib : Codec)

/-- A bound, which stands for the infinity of its side where it is left out. -/
def boundField (name : String) (side : Float) : Field := .optional name (bound? lib side) side

theorem atDefault_bound (hlib : lib.Decodes) (name : String) (side : Float) :
    (boundField lib name side).AtDefault .null := ⟨side,rfl,bound?_null hlib side⟩

namespace Objective

def fields : List Field :=
  [.optional "is_maximization" lib.bool? false,.optional "weights" (Vector.decode lib) .empty,
   .optional "offset" lib.float? 0,.optional "hessian" (lib.list? (Vector.decode lib)) []]

theorem describes (hlib : lib.Decodes) : Describes lib (fields lib) (decode lib) where
  distinct := by simp [fields, Field.optional]
  spelled := by
    simp only [fields, List.forall_mem_cons]
    exact ⟨fun _ => ⟨.bool false,_,rfl,hlib.bool?_bool false⟩,
      fun _ => ⟨_,_,rfl,Vector.decode_empty hlib⟩,fun _ => ⟨_,_,rfl,hlib.float?_zero⟩,
      fun _ => ⟨_,_,rfl,hlib.list?_array _ []⟩,List.forall_mem_nil _⟩
  reads := ⟨_,.bind fun maximize => .bind fun weights => .bind fun offset => .bind fun hessian =>
    .pure ⟨maximize,weights,offset,hessian⟩,fun _ => rfl⟩

end Objective

namespace Variable

def fields : List Field :=
  [.optional "name" (lib.option? lib.string?) none,.optional "type" (Kind.decode lib) .continuous,
   boundField lib "lower_bound" unboundedBelow,boundField lib "upper_bound" unboundedAbove]

theorem describes (hlib : lib.Decodes) : Describes lib (fields lib) (decode lib) where
  distinct := by simp [fields, boundField, Field.optional]
  spelled := by
    simp only [fields, List.forall_mem_cons]
    exact ⟨fun _ => ⟨_,_,rfl,hlib.option?_null _⟩,
      fun _ => ⟨_,_,rfl,Kind.decode_encode hlib .continuous⟩,
      fun _ => ⟨_,atDefault_bound lib hlib _ _⟩,fun _ => ⟨_,atDefault_bound lib hlib _ _⟩,
      List.forall_mem_nil _⟩
  reads := ⟨_,.bind fun name => .bind fun kind => .bind fun lower => .bind fun upper =>
    .pure ⟨name,kind,lower,upper⟩,fun _ => rfl⟩

end Variable

namespace Constraint

def fields : List Field :=
  [.required "weights" (Vector.decode lib),boundField lib "lower_bound" unboundedBelow,
   boundField lib "upper_bound" unboundedAbove]

theorem describes (hlib : lib.Decodes) : Describes lib (fields lib) (decode lib) where
  distinct := by simp [fields, boundField, Field.optional, Field.required]
  spelled := by
    simp only [fields, List.forall_mem_cons]
    exact ⟨fun h => absurd rfl h,fun _ => ⟨_,atDefault_bound lib hlib _ _⟩,
      fun _ => ⟨_,atDefault_bound lib hlib _ _⟩,List.forall_mem_nil _⟩
  reads := ⟨_,.bind fun weights => .bind fun lower => .bind fun upper =>
    .pure ⟨weights,lower,upper⟩,fun _ => rfl⟩

end Constraint

namespace Column

def fields : List Field :=
  [.required "variable" (Variable.decode lib),.optional "cost" lib.float? 0,
   .optional "weights" (Vector.decode lib) .empty]

theorem describes (hlib : lib.Decodes) : Describes lib (fields lib) (decode lib) where
  distinct := by simp [fields, Field.optional, Field.required]
  spelled := by
    simp only [fields, List.forall_mem_cons]
    exact ⟨fun h => absurd rfl h,fun _ => ⟨_,_,rfl,hlib.float?_zero⟩,
      fun _ => ⟨_,_,rfl,Vector.decode_empty hlib⟩,List.forall_mem_nil _⟩
  reads := ⟨_,.bind fun var => .bind fun cost => .bind fun weights => .pure ⟨var,cost,weights⟩,
    fun _ => rfl⟩

end Column

namespace Model

def fields : List Field :=
  [.optional "objective" (lib.option? (Objective.decode lib)) none,
   .optional "variables" (lib.list? (Variable.decode lib)) [],
   .optional "constraints" (lib.list? (Constraint.decode lib)) []]

theorem describes (hlib : lib.Decodes) : Describes lib (fields lib) (decode lib) where
  distinct := by simp [fields, Field.optional]
  spelled := by
    simp only [fields, List.forall_mem_cons]
    exact ⟨fun _ => ⟨_,_,rfl,hlib.option?_null _⟩,fun _ => ⟨_,_,rfl,hlib.list?_array _ []⟩,
      fun _ => ⟨_,_,rfl,hlib.list?_array _ []⟩,List.forall_mem_nil _⟩
  reads := ⟨_,.bind fun objective => .bind fun vars => .bind fun constraints =>
    .pure ⟨objective,vars,constraints⟩,fun _ => rfl⟩

end Model

namespace Start

def listed (name : String) : Field := .optional name (lib.option? (lib.list? lib.float?)) none

def fields : List Field :=
  [listed lib "primal_columns",listed lib "primal_rows",listed lib "dual_columns",
   listed lib "dual_rows"]

theorem describes (hlib : lib.Decodes) : Describes lib (fields lib) (decode lib) where
  distinct := by simp [fields, listed, Field.optional]
  spelled := by
    have hlisted : ∀ name, ∃ v, (listed lib name).AtDefault v := fun _ =>
      ⟨_,_,rfl,hlib.option?_null _⟩
    simp only [fields, List.forall_mem_cons]
    exact ⟨fun _ => hlisted _,fun _ => hlisted _,fun _ => hlisted _,fun _ => hlisted _,
      List.forall_mem_nil _⟩
  reads := ⟨_,.bind fun primalCols => .bind fun primalRows => .bind fun dualCols =>
    .bind fun dualRows => .pure ⟨primalCols,primalRows,dualCols,dualRows⟩,fun _ => rfl⟩

end Start

namespace Solution

def fields : List Field :=
  [.required "is_value_valid" lib.bool?,.required "is_dual_valid" lib.bool?,
   .required "primal" (Values.decode lib),.optional "dual" (lib.option? (Values.decode lib)) none]

theorem describes (hlib : lib.Decodes) : Describes lib (fields lib) (decode lib) where
  distinct := by simp [fields, Field.optional, Field.required]
  spelled := by
    simp only [fields, List.forall_mem_cons]
    exact ⟨fun h => absurd rfl h,fun h => absurd rfl h,fun h => absurd rfl h,
      fun _ => ⟨_,_,rfl,hlib.option?_null _⟩,List.forall_mem_nil _⟩
  reads := ⟨_,.bind fun valueValid => .bind fun dualValid => .bind fun primal => .bind fun dual =>
    .pure ⟨valueValid,dualValid,primal,dual⟩,fun _ => rfl⟩

end Solution

/-- The types of which every part is a field with a name. -/
inductive RecordType where
  | model
  | objective
  | var
  | constraint
  | column
  | start
  | solution

namespace RecordType

def Carrier : RecordType → Type
  | model => SolverSession.Model Float
  | objective => SolverSession.Objective Float
  | var => SolverSession.Variable Float
  | constraint => SolverSession.Constraint Float
  | column => SolverSession.Column Float
  | start => WarmStart
  | solution => SolverSession.Solution

def decode : (t : RecordType) → Decoder t.Carrier
  | model => Model.decode lib
  | objective => Objective.decode lib
  | var => Variable.decode lib
  | constraint => Constraint.decode lib
  | column => Column.decode lib
  | start => Start.decode lib
  | solution => Solution.decode lib

def fields : RecordType → List Field
  | model => Model.fields lib
  | objective => Objective.fields lib
  | var => Variable.fields lib
  | constraint => Constraint.fields lib
  | column => Column.fields lib
  | start => Start.fields lib
  | solution => Solution.fields lib

def receive (t : RecordType) (text : String) : Option t.Carrier := lib.ofText? (t.decode lib) text

theorem describes (hlib : lib.Decodes) :
    (t : RecordType) → Describes lib (t.fields lib) (t.decode lib)
  | model => Model.describes lib hlib
  | objective => Objective.describes lib hlib
  | var => Variable.describes lib hlib
  | constraint => Constraint.describes lib hlib
  | column => Column.describes lib hlib
  | start => Start.describes lib hlib
  | solution => Solution.describes lib hlib

end RecordType

/-- However an object is written, it is decoded to the same; one way is an array of all its fields.
Spoiled it is refused. -/
theorem record_spellings (hlib : lib.Decodes) (t : RecordType) {text : String}
    {members : List (Text × Value)} {x : t.Carrier}
    (hread : lib.read? text = some (.object members)) (hx : t.receive lib text = some x) :
    (∀ other v, lib.read? other = some v → Respelled (t.fields lib) members v →
      t.receive lib other = some x) ∧
    (∀ other v, lib.read? other = some v → Spoiled (t.fields lib) members v →
      t.receive lib other = none) ∧
    ∃ items, List.Forall₂ (Fills members) (t.fields lib) items := by
  have hdescribes := t.describes lib hlib
  have hdecode : t.decode lib (.object members) = some x := by
    rw [← hx, RecordType.receive, Codec.ofText?, hread, Option.bind_some]
  refine ⟨fun other v hother hv => ?_,fun other v hother hv => ?_,
    hdescribes.exists_listed hlib hdecode⟩
  · rw [RecordType.receive, Codec.ofText?, hother, Option.bind_some]
    exact hdescribes.decode_respelled hlib hdecode hv
  · rw [RecordType.receive, Codec.ofText?, hother, Option.bind_some]
    exact hdescribes.decode_spoiled hlib hdecode hv

/-- A constraint with an upper bound, with its members in another order, without the bound and as an
array; it is refused without weights, and with other weights after the first. -/
theorem record_spellings_constraint :
    let weights := Vector.encode standard .empty
    let x : SolverSession.Constraint Float := ⟨.empty,unboundedBelow,unboundedAbove⟩
    let receive := fun v : Value => RecordType.constraint.receive standard (standard.write v)
    standard.Decodes ∧
    receive (.object [(some "upper_bound",.null),(some "weights",weights)]) = some x ∧
    receive (.object [(some "weights",weights),(some "upper_bound",.null)]) = some x ∧
    receive (.object [(some "weights",weights)]) = some x ∧
    receive (.array [weights,.null,.null]) = some x ∧
    receive (.object [(some "upper_bound",.null)]) = none ∧
    receive (.object [(some "upper_bound",.null),(some "weights",weights),
      (some "weights",.null)]) = none := by
  intro weights x receive
  have hweights : weights.WellFormed := by
    refine .object (List.forall_mem_cons.mpr ⟨.array (List.forall_mem_nil _),?_⟩)
    exact List.forall_mem_singleton.mpr (.array (List.forall_mem_nil _))
  have hread : ∀ members : List (Text × Value), (∀ e ∈ members, e.2 = .null ∨ e.2 = weights) →
      standard.read? (standard.write (.object members)) = some (.object members) := by
    intro members h
    refine Value.read?_write (.object fun e he => ?_)
    rcases h e he with heq | heq <;> rw [heq]
    · exact .null
    · exact hweights
  have hobject := hread [(some "upper_bound",.null),(some "weights",weights)] (by simp)
  have harray : standard.read? (standard.write (.array [weights,.null,.null])) =
      some (.array [weights,.null,.null]) :=
    Value.read?_write (.array (by simp [hweights, Value.WellFormed.null]))
  have hx : receive (.object [(some "upper_bound",.null),(some "weights",weights)]) = some x := by
    simp only [receive, RecordType.receive, Codec.ofText?, hobject, Option.bind_some]
    rfl
  have hdecodes := standard_lawful.toDecodes
  obtain ⟨hsame,hrefused,-⟩ := record_spellings standard hdecodes .constraint hobject hx
  refine ⟨hdecodes,hx,hsame _ _ (hread _ (by simp)) (.permuted _ (.swap _ _ _)),
    hsame _ _ (hread _ (by simp)) ?_,hsame _ _ harray (.listed _ ?_),
    hrefused _ _ (hread _ (by simp)) ?_,hrefused _ _ (hread _ (by simp)) ?_⟩
  · exact .shortened [] [(some "weights",weights)]
      (boundField standard "upper_bound" unboundedAbove) .null rfl
      (List.mem_cons_of_mem _ (List.mem_cons_of_mem _ List.mem_cons_self))
      (atDefault_bound standard hdecodes _ _)
  · refine .cons (.inl ?_) (.cons (.inr ⟨?_,atDefault_bound standard hdecodes _ _⟩)
      (.cons (.inl ?_) .nil))
    all_goals simp [boundField, Field.required, Field.optional]
  · exact .incomplete [(some "upper_bound",.null)] []
      (.required "weights" (Vector.decode standard)) weights rfl List.mem_cons_self rfl
  · exact .repeated [(some "upper_bound",.null),(some "weights",weights)] [] "weights" weights .null
      rfl (by decide) (by simp)

end SolverSession.Wire
