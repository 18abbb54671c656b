import SolverSession.Proofs.JsonLexing
import SolverSession.Json.Parser

/-!
# Values are read as they are written

A value with well-formed numerals is written as legible tokens, and the machine that takes these
tokens arrives at the value again.
-/
namespace SolverSession.Json

/-- Every numeral in the value is well formed. -/
inductive Value.WellFormed : Value → Prop where
  | null : WellFormed .null
  | bool (b : Bool) : WellFormed (.bool b)
  | number {n : Numeral} : n.WellFormed → WellFormed (.number n)
  | text (s : Text) : WellFormed (.text s)
  | array {items : List Value} : (∀ v ∈ items, WellFormed v) → WellFormed (.array items)
  | object {members : List (Text × Value)} : (∀ e ∈ members, WellFormed e.2) →
      WellFormed (.object members)

/-! ## Tokens of a value -/

/-- The tokens are legible, also behind a number. -/
structure Follows (rest : List Token) : Prop where
  ends : Ends (render rest)
  legible : Legible rest

theorem ends_cons {c : Char} {cs : List Char}
    (hc : Numeral.isDigit c = false ∧ c ≠ '.' ∧ c ≠ 'e' ∧ c ≠ 'E') : Ends (c :: cs) := by
  intro d hd
  obtain rfl := Option.some.inj hd
  exact hc

theorem follows_nil : Follows [] := ⟨nofun,trivial⟩

theorem follows_comma {rest : List Token} (h : Legible rest) : Follows (.comma :: rest) :=
  ⟨ends_cons (by decide),trivial,h⟩

theorem follows_endArray {rest : List Token} (h : Legible rest) : Follows (.endArray :: rest) :=
  ⟨ends_cons (by decide),trivial,h⟩

theorem follows_endObject {rest : List Token} (h : Legible rest) : Follows (.endObject :: rest) :=
  ⟨ends_cons (by decide),trivial,h⟩

/-- In front of tokens that may follow it, the value is written legibly. -/
def Value.Emits (v : Value) : Prop := ∀ {rest}, Follows rest → Legible (v.emit rest)

theorem emitMoreItems_follows {items : List Value} (hitems : ∀ v ∈ items, v.Emits)
    {rest : List Token} (hrest : Follows rest) : Follows (emitMoreItems items rest) := by
  induction items with
  | nil => exact hrest
  | cons v vs ih =>
    obtain ⟨hv,hvs⟩ := List.forall_mem_cons.mp hitems
    exact follows_comma (hv (ih hvs))

theorem emitItems_legible {items : List Value} (hitems : ∀ v ∈ items, v.Emits)
    {rest : List Token} (hrest : Follows rest) : Legible (emitItems items rest) := by
  cases items with
  | nil => exact hrest.legible
  | cons v vs =>
    obtain ⟨hv,hvs⟩ := List.forall_mem_cons.mp hitems
    exact hv (emitMoreItems_follows hvs hrest)

theorem emitMoreMembers_follows {members : List (Text × Value)}
    (hmembers : ∀ e ∈ members, e.2.Emits) {rest : List Token} (hrest : Follows rest) :
    Follows (emitMoreMembers members rest) := by
  induction members with
  | nil => exact hrest
  | cons e es ih =>
    obtain ⟨he,hes⟩ := List.forall_mem_cons.mp hmembers
    exact follows_comma ⟨trivial,trivial,he (ih hes)⟩

theorem emitMembers_legible {members : List (Text × Value)}
    (hmembers : ∀ e ∈ members, e.2.Emits) {rest : List Token} (hrest : Follows rest) :
    Legible (emitMembers members rest) := by
  cases members with
  | nil => exact hrest.legible
  | cons e es =>
    obtain ⟨he,hes⟩ := List.forall_mem_cons.mp hmembers
    exact ⟨trivial,trivial,he (emitMoreMembers_follows hes hrest)⟩

theorem Value.WellFormed.emits {v : Value} (h : v.WellFormed) : v.Emits := by
  induction h with
  | number hn => exact fun hrest => ⟨⟨hn,hrest.ends⟩,hrest.legible⟩
  | array _ ih =>
    exact fun hrest => ⟨trivial,emitItems_legible ih (follows_endArray hrest.legible)⟩
  | object _ ih =>
    exact fun hrest => ⟨trivial,emitMembers_legible ih (follows_endObject hrest.legible)⟩
  | _ => exact fun hrest => ⟨trivial,hrest.legible⟩

/-! ## The machine -/

namespace Machine

theorem run_cons (m : Machine) (t : Token) (ts : List Token) :
    m.run (t :: ts) = (m.step t).bind (·.run ts) := by
  rw [run]
  cases m.step t <;> rfl

/-- The machine goes on with the rest after a value is complete. -/
def resume (v : Value) (stack : List Frame) (rest : List Token) : Option Machine :=
  (complete v stack).bind (·.run rest)

/-- A value may start. -/
def Open (a : Awaiting) : Prop := a = .value ∨ a = .itemOrEnd

theorem run_begin {a : Awaiting} (ha : Open a) (stack : List Frame) {t : Token}
    (ht : t ≠ .endArray) (rest : List Token) :
    run ⟨stack,a⟩ (t :: rest) = (begin? stack t).bind (·.run rest) := by
  rw [run_cons]
  rcases ha with rfl | rfl
  · rfl
  · rw [step, if_neg ht]

/-- Where a value may start, the tokens of `v` complete `v`. -/
def Takes (v : Value) : Prop :=
  ∀ {a} (_ : Open a) (stack : List Frame) (rest : List Token),
    run ⟨stack,a⟩ (v.emit rest) = resume v stack rest

theorem run_emitMoreItems {items : List Value} (hitems : ∀ v ∈ items, Takes v)
    (done : List Value) (stack : List Frame) (rest : List Token) :
    run ⟨.array done :: stack,.separator⟩ (emitMoreItems items (.endArray :: rest)) =
      resume (.array (done.reverse ++ items)) stack rest := by
  -- The frame collects the items in reverse.
  induction items generalizing done with
  | nil =>
    rw [List.append_nil]
    exact run_cons _ _ _
  | cons v vs ih =>
    obtain ⟨hv,hvs⟩ := List.forall_mem_cons.mp hitems
    have hrest := ih hvs (v :: done)
    rw [List.reverse_cons, List.append_assoc, List.singleton_append] at hrest
    rw [emitMoreItems, run_cons, ← hrest]
    exact hv (.inl rfl) (.array done :: stack) _

theorem run_emitItems {items : List Value} (hitems : ∀ v ∈ items, Takes v)
    (stack : List Frame) (rest : List Token) :
    run ⟨.array [] :: stack,.itemOrEnd⟩ (emitItems items (.endArray :: rest)) =
      resume (.array items) stack rest := by
  cases items with
  | nil => exact run_cons _ _ _
  | cons v vs =>
    obtain ⟨hv,hvs⟩ := List.forall_mem_cons.mp hitems
    exact (hv (.inr rfl) (.array [] :: stack) _).trans (run_emitMoreItems hvs [v] stack rest)

theorem run_emitMoreMembers {members : List (Text × Value)} (hmembers : ∀ e ∈ members, Takes e.2)
    (done : List (Text × Value)) (stack : List Frame) (rest : List Token) :
    run ⟨.object done :: stack,.separator⟩ (emitMoreMembers members (.endObject :: rest)) =
      resume (.object (done.reverse ++ members)) stack rest := by
  induction members generalizing done with
  | nil =>
    rw [List.append_nil]
    exact run_cons _ _ _
  | cons e es ih =>
    obtain ⟨name,v⟩ := e
    obtain ⟨hv,hes⟩ := List.forall_mem_cons.mp hmembers
    have hrest := ih hes ((name,v) :: done)
    rw [List.reverse_cons, List.append_assoc, List.singleton_append] at hrest
    rw [emitMoreMembers, run_cons, ← hrest]
    exact hv (.inl rfl) (.member done name :: stack) _

theorem run_emitMembers {members : List (Text × Value)} (hmembers : ∀ e ∈ members, Takes e.2)
    (stack : List Frame) (rest : List Token) :
    run ⟨.object [] :: stack,.memberOrEnd⟩ (emitMembers members (.endObject :: rest)) =
      resume (.object members) stack rest := by
  cases members with
  | nil => exact run_cons _ _ _
  | cons e es =>
    obtain ⟨name,v⟩ := e
    obtain ⟨hv,hes⟩ := List.forall_mem_cons.mp hmembers
    exact (hv (.inl rfl) (.member [] name :: stack) _).trans
      (run_emitMoreMembers hes [(name,v)] stack rest)

theorem takes {v : Value} (h : v.WellFormed) : Takes v := by
  induction h with
  | array _ ih =>
    intro a ha stack rest
    exact (run_begin ha stack (by nofun) _).trans (run_emitItems ih stack rest)
  | object _ ih =>
    intro a ha stack rest
    exact (run_begin ha stack (by nofun) _).trans (run_emitMembers ih stack rest)
  | _ =>
    intro a ha stack rest
    exact run_begin ha stack (by nofun) rest

end Machine

theorem Value.read?_write {v : Value} (h : v.WellFormed) : Value.read? v.write = some v := by
  have htokens : tokenize v.write.toList = some (v.emit []) := by
    rw [write, String.toList_ofList]
    exact tokenize_render (h.emits follows_nil)
  have hrun : Machine.start.run (v.emit []) = some ⟨[],.nothing v⟩ :=
    Machine.takes h (.inl rfl) [] []
  rw [read?, htokens]
  simp only [Option.bind_eq_bind, Option.bind_some, hrun, Machine.value?]

end SolverSession.Json
