import Mathlib.Data.List.TakeDrop
import Mathlib.Data.List.TakeWhile
import SolverSession.Numeral

/-!
# Digits

The digits of a number are read as that number, and digits in front of a text that does not go on
with one are taken off it.
-/
namespace SolverSession

theorem span_append {p : Char → Bool} {cs rest : List Char} (hcs : ∀ c ∈ cs, p c = true)
    (hrest : ∀ c ∈ rest.head?, p c = false) : (cs ++ rest).span p = (cs,rest) := by
  rw [List.span_eq_takeWhile_dropWhile, List.takeWhile_append_of_pos hcs,
    List.dropWhile_append_of_pos hcs]
  cases rest with
  | nil => simp
  | cons c rest =>
    have hc : p c = false := hrest c rfl
    simp [hc]

namespace Numeral

/-! ## The digits of a number -/

theorem digitsOf_lt {n d : Nat} (h : d ∈ digitsOf n) : d < 10 := by
  obtain ⟨c,hc,rfl⟩ := List.mem_map.mp h
  have hdigit := Nat.isDigit_of_mem_toDigits (by decide) (by decide) hc
  simp only [Char.isDigit, Bool.and_eq_true, decide_eq_true_eq] at hdigit
  have hle : c.toNat ≤ 57 := hdigit.2
  omega

theorem ofDigits_digitsOf (n : Nat) : ofDigits 0 (digitsOf n) = n := by
  have hback : Nat.ofDigitChars 10 (Nat.toDigits 10 n) 0 = n := Nat.ofDigitChars_ten_toDigits
  rw [Nat.ofDigitChars_eq_foldl] at hback
  rw [ofDigits, digitsOf, List.foldl_map]
  exact hback

theorem digitsOf_cons (n : Nat) : ∃ d ds, digitsOf n = d :: ds := by
  apply List.exists_cons_of_ne_nil
  simp [digitsOf]

theorem isDigit_of_mem_toDigits {n : Nat} {c : Char} (h : c ∈ Nat.toDigits 10 n) :
    isDigit c = true := Nat.isDigit_of_mem_toDigits (by decide) (by decide) h

theorem toDigits_cons (n : Nat) :
    ∃ c cs, Nat.toDigits 10 n = c :: cs ∧ isDigit c = true := by
  obtain ⟨c,cs,h⟩ := List.exists_cons_of_ne_nil (l := Nat.toDigits 10 n) Nat.toDigits_ne_nil
  exact ⟨c,cs,h,isDigit_of_mem_toDigits (by rw [h]; exact List.mem_cons_self)⟩

theorem toDigits_head {n : Nat} (hn : n ≠ 0) :
    ∃ c cs, Nat.toDigits 10 n = c :: cs ∧ c ≠ '0' := by
  induction n using Nat.strongRecOn with
  | ind n ih =>
    by_cases hlt : n < 10
    · refine ⟨n.digitChar,[],Nat.toDigits_of_lt_base hlt,?_⟩
      rw [ne_eq, Nat.digitChar_eq_zero]
      exact hn
    · -- The last digit goes to the end and leaves the first one alone.
      obtain ⟨c,cs,hdigits,hc⟩ := ih (n/10) (by omega) (by omega)
      refine ⟨c,cs ++ [(n%10).digitChar],?_,hc⟩
      rw [Nat.toDigits_of_base_le (by decide) (by omega), hdigits, List.cons_append]

theorem isDigit_digitChar {d : Nat} (hd : d < 10) : isDigit d.digitChar = true := by
  have hdigit : d.digitChar.isDigit = decide (d < 10) := Nat.isDigit_digitChar
  rw [decide_eq_true hd] at hdigit
  exact hdigit

theorem digitChar_toNat_sub {c : Char} (hc : isDigit c = true) :
    c.toNat-48 < 10 ∧ Nat.digitChar (c.toNat-48) = c := by
  simp only [isDigit, Bool.and_eq_true, decide_eq_true_eq] at hc
  have hlow : 48 ≤ c.toNat := hc.1
  have hhigh : c.toNat ≤ 57 := hc.2
  have hlt : c.toNat-48 < 10 := by omega
  refine ⟨hlt,Char.toNat_inj.mp ?_⟩
  rw [Nat.toNat_digitChar_of_lt_ten hlt]
  omega

/-! ## Digits in front of a text -/

/-- The text does not start with a digit. -/
def NoDigit (rest : List Char) : Prop := ∀ c ∈ rest.head?, isDigit c = false

theorem takeDigits_append {cs rest : List Char} (hcs : ∀ c ∈ cs, isDigit c = true)
    (hrest : NoDigit rest) : takeDigits (cs ++ rest) = (cs.map fun c => c.toNat-48,rest) := by
  rw [takeDigits, span_append hcs hrest]

theorem takeDigits_toDigits (n : Nat) {rest : List Char} (hrest : NoDigit rest) :
    takeDigits (Nat.toDigits 10 n ++ rest) = (digitsOf n,rest) :=
  takeDigits_append (fun _ => isDigit_of_mem_toDigits) hrest

theorem takeDigits_digitText {digits : List Nat} (hdigits : ∀ d ∈ digits, d < 10)
    {rest : List Char} (hrest : NoDigit rest) :
    takeDigits (digitText digits ++ rest) = (digits,rest) := by
  have hall : ∀ c ∈ digitText digits, isDigit c = true := by
    intro c hc
    obtain ⟨d,hd,rfl⟩ := List.mem_map.mp hc
    exact isDigit_digitChar (hdigits d hd)
  have hvalues : (digitText digits).map (fun c => c.toNat-48) = digits := by
    have hvalue : ∀ d ∈ digits, d.digitChar.toNat-48 = d := fun d hd =>
      Nat.toNat_digitChar_sub_48_of_lt_ten (hdigits d hd)
    rw [digitText, List.map_map]
    exact (List.map_congr_left hvalue).trans (List.map_id' digits)
  rw [takeDigits_append hall hrest, hvalues]

theorem takeDigits_eq_iff {cs rest : List Char} {digits : List Nat} :
    takeDigits cs = (digits,rest) ↔
      cs = digitText digits ++ rest ∧ (∀ d ∈ digits, d < 10) ∧ NoDigit rest := by
  constructor
  · intro h
    rw [takeDigits, List.span_eq_takeWhile_dropWhile] at h
    obtain ⟨hdigits,rfl⟩ := Prod.mk.inj h
    have hall : ∀ c ∈ cs.takeWhile isDigit, isDigit c = true := fun c hc =>
      List.mem_takeWhile_imp hc
    have htext : digitText digits = cs.takeWhile isDigit := by
      rw [← hdigits, digitText, List.map_map]
      exact (List.map_congr_left fun c hc => (digitChar_toNat_sub (hall c hc)).2).trans
        (List.map_id' _)
    refine ⟨?_,fun d hd => ?_,fun c hc => ?_⟩
    · rw [htext, List.takeWhile_append_dropWhile]
    · rw [← hdigits] at hd
      obtain ⟨c,hc,rfl⟩ := List.mem_map.mp hd
      exact (digitChar_toNat_sub (hall c hc)).1
    · have hhead := List.head?_dropWhile_not isDigit cs
      rw [hc] at hhead
      simpa using hhead
  · rintro ⟨rfl,hdigits,hrest⟩
    exact takeDigits_digitText hdigits hrest

/-- A number ends where no digit follows. -/
theorem toDigits_append_inj {m n : Nat} {cs ds : List Char} (hcs : NoDigit cs)
    (hds : NoDigit ds) (h : Nat.toDigits 10 m ++ cs = Nat.toDigits 10 n ++ ds) :
    m = n ∧ cs = ds := by
  have htake := takeDigits_toDigits m hcs
  rw [h, takeDigits_toDigits n hds] at htake
  obtain ⟨hdigits,hrest⟩ := Prod.mk.inj htake
  refine ⟨?_,hrest.symm⟩
  rw [← ofDigits_digitsOf m, ← hdigits, ofDigits_digitsOf]

end Numeral
end SolverSession
