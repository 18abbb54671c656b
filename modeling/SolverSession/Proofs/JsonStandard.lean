import SolverSession.Json.Standard
import SolverSession.Proofs.Doubles
import SolverSession.Proofs.JsonLaws
import SolverSession.Proofs.JsonReading

/-!
# Codecs that run are lawful

Every codec that takes the members of an object one by one is lawful, if it spells doubles with a
point or an exponent. The standard codec rounds when it reads a double and so does not read every
one back; a codec that spells those doubles by their bits does.
-/
namespace SolverSession

namespace Numeral

/-- A decimal in this layout has a point or an exponent. -/
theorem ofDecimal_not_isWhole {layout : Layout} (hlayout : layout.pointZero = true)
    (negative : Bool) (d : Decimal) : ¬(ofDecimal layout negative d).IsWhole := by
  have hnonempty : digitsOf d.digits ≠ [] := by
    obtain ⟨k,ks,hdigits⟩ := digitsOf_cons d.digits
    rw [hdigits]
    exact List.cons_ne_nil k ks
  unfold ofDecimal
  extract_lets digits point last
  rintro ⟨hfraction,hexponent⟩
  split at hfraction
  · split at hfraction
    · exact List.append_ne_nil_of_right_ne_nil _ hnonempty hfraction
    · split at hfraction
      · simp [last, hlayout] at hfraction
      · rw [List.drop_eq_nil_iff] at hfraction
        omega
  · rw [if_neg ‹_›] at hexponent
    cases hexponent

theorem ofFloat_not_isWhole {layout : Layout} (hlayout : layout.pointZero = true) (x : Float) :
    ¬(ofFloat layout x).IsWhole := by
  unfold ofFloat
  by_cases hx : x == 0
  · rw [if_pos hx]
    simp [IsWhole, hlayout]
  · rw [if_neg hx]
    exact ofDecimal_not_isWhole hlayout _ _

theorem IsWhole.of_toInt? {n : Numeral} {k : Int} (h : n.toInt? = some k) : n.IsWhole := by
  obtain ⟨hplain,-⟩ := Option.ite_none_left_eq_some.mp h
  rw [not_or, not_not, Option.not_isSome_iff_eq_none] at hplain
  exact hplain

end Numeral

namespace Json

variable {spell : Float → Numeral} {double? : Numeral → Option Float}

theorem codec_decodes (hzero : double? (.ofInt 0) = some 0) : (codec spell double?).Decodes where
  bool?_eq_some_iff {v b} := by cases v <;> simp [codec]
  string?_eq_some_iff {v s} := by cases v <;> simp [codec]
  float?_number {v x} h := by
    cases v with
    | number n => exact ⟨n,rfl⟩
    | _ => cases h
  float?_zero := hzero
  int?_number {low high k v} h := by
    cases v with
    | number n => exact ⟨n,rfl,.of_toInt? (Option.filter_eq_some_iff.mp h).1⟩
    | _ => cases h
  list?_array _ _ := rfl
  option?_null _ := rfl
  option?_value decode v hv := by
    cases v with
    | null => exact absurd rfl hv
    | _ => rfl
  record?_nil _ := rfl
  record?_unspelled names members v := by
    change (members ++ [(none,v)]).foldlM (accept names) Record.nothing = none
    rw [List.foldlM_append]
    cases members.foldlM (accept names) Record.nothing <;> rfl
  record?_other {names name} members v hname := by
    change (members ++ [(some name,v)]).foldlM (accept names) Record.nothing =
      members.foldlM (accept names) Record.nothing
    rw [List.foldlM_append]
    cases members.foldlM (accept names) Record.nothing <;> simp [accept, hname]
  record?_field {names name} members v hname := by
    change (members ++ [(some name,v)]).foldlM (accept names) Record.nothing =
      (members.foldlM (accept names) Record.nothing).bind fun r =>
        if (r name).isSome then none else some (r.give name v)
    rw [List.foldlM_append]
    cases members.foldlM (accept names) Record.nothing <;> simp [accept, hname]
  record?_array h := if_pos h.le
  unit?_text _ := rfl
  data?_text _ _ := rfl
  data?_member _ _ := if_pos rfl
  untagged?_nil _ := rfl
  untagged?_cons decode rest v := by
    change (decode :: rest).findSome? (fun decode => decode v) = _
    rw [List.findSome?_cons]
    cases decode v <;> rfl

/-- What such a codec is given to write it can write. -/
theorem wellFormed_of_written (hspell : ∀ x : Float, (spell x).WellFormed) {depth : Nat} {v : Value}
    (h : (codec spell double?).Written depth v) : v.WellFormed := by
  induction h with
  | null => exact .null
  | bool b => exact .bool b
  | float x =>
    change Value.WellFormed (if x.isFinite then _ else _)
    split
    · exact .number (hspell x)
    · exact .null
  | int => exact .number (Numeral.ofInt_wellFormed _)
  | text s => exact .text s
  | array _ ih => exact .array ih
  | object _ _ ih => exact .object ih

theorem codec_lawful (hspell : ∀ x : Float, (spell x).WellFormed ∧ ¬(spell x).IsWhole)
    (hzero : double? (.ofInt 0) = some 0) : (codec spell double?).Lawful where
  toDecodes := codec_decodes hzero
  int?_ofInt {low high n} _ _ hlow hhigh := by
    change (Numeral.ofInt n).toInt?.filter (fun k => low ≤ k ∧ k < high) = some n
    simp [Numeral.toInt?_ofInt, hlow, hhigh]
  ofFloat_finite {x} hx := ⟨spell x,if_pos hx,(hspell x).2⟩
  ofFloat_other {x} hx := if_neg (by simp [hx])
  read?_write h := Value.read?_write (wellFormed_of_written (fun x => (hspell x).1) h)

theorem standard_lawful : standard.Lawful :=
  codec_lawful (fun x => ⟨Numeral.ofFloat_wellFormed _ x,Numeral.ofFloat_not_isWhole rfl x⟩)
    (by decide +kernel)

example : ¬standard.Exact := fun h => by
  have hback := h 21.702170000000002 (by decide +kernel)
  revert hback
  decide +kernel

/-! ## Doubles by their bits -/

/-- The bits of a double, with an exponent that no double has. -/
def bitsOf (x : Float) : Numeral := ⟨false,x.toBits.toNat,[],some 1000⟩

/-- The shortest digits of a double if they are read back as it, its bits otherwise. -/
def spellExactly (x : Float) : Numeral :=
  let n := Numeral.ofFloat floatLayout x
  if n.exponent ≠ some 1000 ∧ floatOf? n = some x then n else bitsOf x

def exactly? (n : Numeral) : Option Float :=
  if n.exponent = some 1000 then some (Float.ofBits (UInt64.ofNat n.whole)) else floatOf? n

def exact : Codec := codec spellExactly exactly?

theorem exact_lawful : exact.Lawful := by
  refine codec_lawful (fun x => ?_) (by decide +kernel)
  unfold spellExactly
  extract_lets n
  split
  · exact ⟨Numeral.ofFloat_wellFormed _ x,Numeral.ofFloat_not_isWhole rfl x⟩
  · exact ⟨nofun,fun h => nomatch h.2⟩

theorem exact_exact : exact.Exact := by
  intro x hx
  have hspelled : exactly? (spellExactly x) = some x := by
    unfold spellExactly
    extract_lets n
    split
    case isTrue h => rw [exactly?, if_neg h.1, h.2]
    case isFalse =>
      have hbits : Float.ofBits (UInt64.ofNat x.toBits.toNat) = x := by
        rw [UInt64.ofNat_toNat, ofBits_toBits]
      exact congrArg some hbits
  change exact.float? (if x.isFinite then .number (spellExactly x) else .null) = some x
  rw [if_pos hx]
  exact hspelled

end Json
end SolverSession
