import SolverSession.Failure
import SolverSession.Proofs.Digits
import SolverSession.Proofs.SparseVec

/-!
# Faults of a row

A row is refused for one fault. Different lengths come before everything else, an index out of range
comes before one that repeats, and of several such indices the first in storage order is named. The
words in which a fault is reported tell it apart from every other fault.
-/
namespace SolverSession

variable {α : Type}

/-! ## The first repeat -/

theorem exists_split_cons {i k : Nat} {rest : List Nat} {p : List Nat → Prop} :
    (∃ before after, k :: rest = before ++ i :: after ∧ p before) ↔
      k = i ∧ p [] ∨ ∃ before after, rest = before ++ i :: after ∧ p (k :: before) := by
  constructor
  · rintro ⟨before,after,hsplit,hp⟩
    cases before with
    | nil => exact .inl ⟨(List.cons.inj hsplit).1,hp⟩
    | cons j before =>
      obtain ⟨rfl,rfl⟩ := List.cons.inj hsplit
      exact .inr ⟨before,after,rfl,hp⟩
  · rintro (⟨rfl,hp⟩ | ⟨before,after,rfl,hp⟩)
    · exact ⟨[],rest,rfl,hp⟩
    · exact ⟨k :: before,after,rfl,hp⟩

/-- The search stops behind indices that are new and differ from each other, at one that is not
new. -/
theorem firstRepeat_eq_some_iff {seen indices : List Nat} {i : Nat} :
    firstRepeat seen indices = some i ↔ ∃ before after, indices = before ++ i :: after ∧
      (i ∈ before ∨ i ∈ seen) ∧ before.Nodup ∧ ∀ j ∈ before, j ∉ seen := by
  induction indices generalizing seen with
  | nil => simp [firstRepeat]
  | cons k rest ih =>
    rw [exists_split_cons]
    by_cases hk : k ∈ seen
    · simp only [firstRepeat, if_pos hk, Option.some.injEq]
      grind
    · -- `k` is passed: it has been seen from here on, and it stands in front of what follows.
      have hpassed : ¬(k = i ∧ (i ∈ [] ∨ i ∈ seen) ∧
          ([] : List Nat).Nodup ∧ ∀ j ∈ [], j ∉ seen) := by
        rintro ⟨rfl,hagain,-⟩
        exact hk (hagain.resolve_left List.not_mem_nil)
      rw [firstRepeat, if_neg hk, ih, or_iff_right hpassed]
      refine exists₂_congr fun before after => and_congr_right fun _ => ?_
      grind

/-! ## The fault a row is refused for -/

namespace SparseVec

/-- What a row is refused for, called `what`, and the reason in words. -/
inductive RefusedFor (v : SparseVec α) (bound : Nat) (what : String) :
    RowFault → String → Prop where
  | ragged (lengths : v.indices.length ≠ v.values.length) :
    RefusedFor v bound what (.ragged v.indices.length v.values.length)
      s!"{what} has {v.indices.length} indices but {v.values.length} values"
  /-- All indices before it are in range. -/
  | outOfRange {before after : List Nat} {i : Nat} (parallel : v.indices.length = v.values.length)
      (split : v.indices = before ++ i :: after) (earlier : ∀ j ∈ before, j < bound)
      (large : bound ≤ i) :
    RefusedFor v bound what (.outOfRange i bound)
      s!"{what} references index {i} but only {bound} are defined"
  /-- It is one of the indices before it, and these do not repeat each other. -/
  | repeated {before after : List Nat} {i : Nat} (parallel : v.indices.length = v.values.length)
      (below : ∀ j ∈ v.indices, j < bound) (split : v.indices = before ++ i :: after)
      (earlier : before.Nodup) (again : i ∈ before) :
    RefusedFor v bound what (.repeated i) s!"{what} repeats index {i}"

variable {v : SparseVec α} {bound : Nat} {what : String} {fault : RowFault}

theorem find?_eq_some_iff_split {indices : List Nat} {i : Nat} :
    indices.find? (bound ≤ ·) = some i ↔
      ∃ before after, indices = before ++ i :: after ∧ (∀ j ∈ before, j < bound) ∧ bound ≤ i := by
  simp only [List.find?_eq_some_iff_append, decide_eq_true_eq, Bool.not_eq_true',
    decide_eq_false_iff_not, Nat.not_le]
  constructor
  · rintro ⟨hlarge,before,after,hsplit,hbefore⟩
    exact ⟨before,after,hsplit,hbefore,hlarge⟩
  · rintro ⟨before,after,hsplit,hbefore,hlarge⟩
    exact ⟨hlarge,before,after,hsplit,hbefore⟩

theorem refusedFor_of_fault? (h : v.fault? bound = some fault) :
    v.RefusedFor bound what fault (fault.message what) := by
  unfold fault? at h
  split at h
  case isTrue hlengths =>
    obtain rfl := Option.some.inj h
    exact .ragged hlengths
  case isFalse hlengths =>
    have hparallel : v.indices.length = v.values.length := not_not.mp hlengths
    split at h
    case h_1 i hfind =>
      obtain rfl := Option.some.inj h
      obtain ⟨before,after,hsplit,hearlier,hlarge⟩ := find?_eq_some_iff_split.mp hfind
      exact .outOfRange hparallel hsplit hearlier hlarge
    case h_2 hfind =>
      have hbelow : ∀ j ∈ v.indices, j < bound := by simpa using hfind
      obtain ⟨i,hrepeat,rfl⟩ := Option.map_eq_some_iff.mp h
      obtain ⟨before,after,hsplit,hagain,hearlier,-⟩ := firstRepeat_eq_some_iff.mp hrepeat
      exact .repeated hparallel hbelow hsplit hearlier (hagain.resolve_right List.not_mem_nil)

theorem RefusedFor.fault?_eq {reason : String} (h : v.RefusedFor bound what fault reason) :
    v.fault? bound = some fault ∧ fault.message what = reason := by
  cases h with
  | ragged hlengths => exact ⟨by rw [fault?, if_pos hlengths],rfl⟩
  | outOfRange hparallel hsplit hearlier hlarge =>
    have hfind := find?_eq_some_iff_split.mpr ⟨_,_,hsplit,hearlier,hlarge⟩
    exact ⟨by rw [fault?, if_neg (not_not.mpr hparallel), hfind],rfl⟩
  | @repeated before after i hparallel hbelow hsplit hearlier hagain =>
    have hfind : v.indices.find? (bound ≤ ·) = none := by simpa using hbelow
    have hrepeat : firstRepeat [] v.indices = some i := firstRepeat_eq_some_iff.mpr
      ⟨before,after,hsplit,.inl hagain,hearlier,fun _ _ => List.not_mem_nil⟩
    exact ⟨by rw [fault?, if_neg (not_not.mpr hparallel), hfind, hrepeat]; rfl,rfl⟩

end SparseVec

/-! ## The words -/

theorem number_inj {before : String} {m n : Nat}
    (h : before ++ toString m = before ++ toString n) : m = n := by
  have hnil : Numeral.NoDigit [] := by simp [Numeral.NoDigit]
  have htexts := congrArg String.toList ((String.append_right_inj before).mp h)
  rw [Nat.toString_eq_repr, Nat.toString_eq_repr, Nat.toList_repr, Nat.toList_repr] at htexts
  exact (Numeral.toDigits_append_inj hnil hnil (congrArg (· ++ []) htexts)).1

theorem noDigit_of_blank {cs : List Char} (h : cs.head? = some ' ') : Numeral.NoDigit cs := by
  intro c hc
  obtain rfl : ' ' = c := Option.some.inj (h.symm.trans hc)
  rfl

/-- Two numbers can be told from a text if the words behind each of them start with a blank. -/
theorem numbers_inj (before : String) {between after : String} {m n k l : Nat}
    (hbetween : between.toList.head? = some ' ') (hafter : after.toList.head? = some ' ')
    (h : before ++ toString m ++ between ++ toString n ++ after =
      before ++ toString k ++ between ++ toString l ++ after) : m = k ∧ n = l := by
  have htail : ∀ cs, Numeral.NoDigit (between.toList ++ cs) := by
    intro cs
    apply noDigit_of_blank
    rw [List.head?_append, hbetween]
    rfl
  have hend := noDigit_of_blank hafter
  have htexts := congrArg String.toList h
  simp only [String.toList_append, Nat.toString_eq_repr, Nat.toList_repr, List.append_assoc,
    List.append_cancel_left_eq] at htexts
  obtain ⟨rfl,hrest⟩ := Numeral.toDigits_append_inj (htail _) (htail _) htexts
  obtain ⟨rfl,-⟩ := Numeral.toDigits_append_inj hend hend (List.append_cancel_left hrest)
  exact ⟨rfl,rfl⟩

namespace RowFault

/-- What a message says between the name of the row and the first number. The three differ from each
other in the character that is `letter`. -/
def keyword : RowFault → String
  | .ragged .. => " has "
  | .outOfRange .. => " references index "
  | .repeated .. => " repeats index "

def letter : RowFault → Char
  | .ragged .. => 's'
  | .outOfRange .. => 'f'
  | .repeated .. => 'p'

theorem keyword_letter (fault : RowFault) : fault.keyword.toList[3]? = some fault.letter := by
  cases fault <;> simp only [keyword, letter] <;> decide

theorem message_keyword (what : String) (fault : RowFault) :
    ∃ rest, fault.message what = what ++ (fault.keyword ++ rest) := by
  have htext : ∀ s : String, toString s = s := fun _ => rfl
  cases fault <;> simp only [message, keyword, htext, String.append_assoc] <;> exact ⟨_,rfl⟩

theorem message_letter (what : String) (fault : RowFault) :
    (fault.message what).toList[what.toList.length+3]? = some fault.letter := by
  obtain ⟨rest,hrest⟩ := message_keyword what fault
  have hletter := keyword_letter fault
  have hlong : 3 < fault.keyword.toList.length := (List.getElem?_eq_some_iff.mp hletter).1
  rw [hrest, String.toList_append, String.toList_append,
    List.getElem?_append_right (Nat.le_add_right _ _), Nat.add_sub_cancel_left,
    List.getElem?_append_left hlong, hletter]

theorem message_injective (what : String) : Function.Injective (message what) := by
  intro fault other h
  have hletter : fault.letter = other.letter :=
    Option.some.inj (by rw [← message_letter what, h, message_letter])
  cases fault with
  | ragged m n =>
    cases other with
    | ragged k l =>
      obtain ⟨rfl,rfl⟩ := numbers_inj (what ++ " has ") rfl rfl h
      rfl
    | outOfRange => exact absurd (show 's' = 'f' from hletter) (by decide)
    | repeated => exact absurd (show 's' = 'p' from hletter) (by decide)
  | outOfRange i bound =>
    cases other with
    | ragged => exact absurd (show 'f' = 's' from hletter) (by decide)
    | outOfRange k l =>
      obtain ⟨rfl,rfl⟩ := numbers_inj (what ++ " references index ") rfl rfl h
      rfl
    | repeated => exact absurd (show 'f' = 'p' from hletter) (by decide)
  | repeated i =>
    cases other with
    | ragged => exact absurd (show 'p' = 's' from hletter) (by decide)
    | outOfRange => exact absurd (show 'p' = 'f' from hletter) (by decide)
    | repeated k => exact congrArg repeated (number_inj h)

end RowFault

namespace SparseVec

/-- A row passes its check if it has as many values as indices, all of them in range and different.
Otherwise it is invalid for one fault, which is found exactly if the row is refused for it, and the
reason in words tells this fault from every other one. -/
theorem first_fault_reported (v : SparseVec α) (bound : Nat) (what : String) :
    (v.fault? bound = none ↔ v.indices.length = v.values.length ∧
      (∀ i ∈ v.indices, i < bound) ∧ v.indices.Nodup) ∧
    (∀ fault reason, v.fault? bound = some fault ∧
        (Failure.invalidModel (.line what fault)).message = "invalid model: " ++ reason ↔
      v.RefusedFor bound what fault reason) ∧
    Function.Injective fun fault => (Failure.invalidModel (.line what fault)).message := by
  refine ⟨fault?_eq_none_iff,fun fault reason => ?_,fun fault other h => ?_⟩
  · constructor
    · rintro ⟨hfault,hmessage⟩
      obtain rfl : fault.message what = reason := (String.append_right_inj _).mp hmessage
      exact refusedFor_of_fault? hfault
    · intro hrefused
      obtain ⟨hfault,rfl⟩ := hrefused.fault?_eq
      exact ⟨hfault,rfl⟩
  · exact RowFault.message_injective what ((String.append_right_inj _).mp h)

/-- An index out of range is named before one that repeats, also where it stands behind it. -/
theorem first_fault_reported_two_faults :
    let v : SparseVec Float := ⟨[1,1,9],[2,3,5]⟩
    v.fault? 4 = some (.outOfRange 9 4) ∧
      (Failure.invalidModel (.line "row 2" (.outOfRange 9 4))).message =
        "invalid model: " ++ "row 2 references index 9 but only 4 are defined" := by
  intro v
  obtain ⟨-,hreported,-⟩ := first_fault_reported v 4 "row 2"
  have hsplit : v.indices = [1,1] ++ 9 :: [] := rfl
  exact (hreported _ _).mpr (.outOfRange rfl hsplit (by decide) (by decide))

end SparseVec
end SolverSession
