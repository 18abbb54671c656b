import SolverSession.Environment
import SolverSession.Proofs.Digits

/-!
# Numbers as texts

The texts that are read as integers and as doubles, told by their parts: a sign, digits, a point, an
exponent, or one of three words. A text is read exactly if it has such parts, and as the number they
stand for.
-/
namespace SolverSession

open Numeral (NoDigit digitText isDigit ofDigits takeDigits)

namespace Environment

/-! ## Signs -/

/-- A sign as it is written, and whether it is a minus. -/
inductive Sign : List Char → Bool → Prop where
  | none : Sign [] false
  | plus : Sign ['+'] false
  | minus : Sign ['-'] true

/-- The text does not start with a sign. -/
def Unsigned (cs : List Char) : Prop := ∀ c ∈ cs.head?, c ≠ '+' ∧ c ≠ '-'

theorem takeSign_append {sign cs : List Char} {negative : Bool} (h : Sign sign negative)
    (hcs : Unsigned cs) : takeSign (sign ++ cs) = (negative,cs) := by
  cases h with
  | plus => rfl
  | minus => rfl
  | none =>
    cases cs with
    | nil => rfl
    | cons c rest =>
      obtain ⟨hplus,hminus⟩ := hcs c rfl
      rw [List.nil_append, takeSign]
      · exact fun _ heq => hminus (List.cons.inj heq).1
      · exact fun _ heq => hplus (List.cons.inj heq).1

theorem exists_sign (cs : List Char) :
    ∃ sign, Sign sign (takeSign cs).1 ∧ cs = sign ++ (takeSign cs).2 := by
  unfold takeSign
  split
  · exact ⟨_,.minus,rfl⟩
  · exact ⟨_,.plus,rfl⟩
  · exact ⟨_,.none,rfl⟩

theorem unsigned_digitText {digits : List Nat} (hne : digits ≠ []) (hdigits : ∀ d ∈ digits, d < 10)
    (rest : List Char) : Unsigned (digitText digits ++ rest) := by
  cases digits with
  | nil => exact absurd rfl hne
  | cons d ds =>
    intro c hc
    obtain rfl : d.digitChar = c := Option.some.inj hc
    have hdigit := Numeral.isDigit_digitChar (hdigits d List.mem_cons_self)
    constructor <;> rintro heq <;> rw [heq] at hdigit <;> cases hdigit

/-- A sign, if there is one, and at least one digit, for an integer of any size. -/
def IntegerText (text : List Char) (n : Int) : Prop :=
  ∃ sign negative digits, Sign sign negative ∧ digits ≠ [] ∧ (∀ d ∈ digits, d < 10) ∧
    text = sign ++ digitText digits ∧
    n = if negative then -(ofDigits 0 digits : Int) else ofDigits 0 digits

theorem takeDigits_nil (digits : List Nat) (hdigits : ∀ d ∈ digits, d < 10) :
    takeDigits (digitText digits) = (digits,[]) := by
  rw [Numeral.takeDigits_eq_iff]
  exact ⟨(List.append_nil _).symm,hdigits,nofun⟩

/-- The sign and the digits as both readers of integers take them off. -/
theorem integerText_iff {text : List Char} {n : Int} : IntegerText text n ↔
    ∃ negative cs d ds, takeSign text = (negative,cs) ∧ takeDigits cs = (d :: ds,[]) ∧
      n = if negative then -(ofDigits 0 (d :: ds) : Int) else ofDigits 0 (d :: ds) := by
  constructor
  · rintro ⟨sign,negative,digits,hsign,hne,hdigits,rfl,hvalue⟩
    obtain ⟨d,ds,rfl⟩ := List.exists_cons_of_ne_nil hne
    have hunsigned := unsigned_digitText hne hdigits []
    rw [List.append_nil] at hunsigned
    exact ⟨negative,_,d,ds,takeSign_append hsign hunsigned,takeDigits_nil _ hdigits,hvalue⟩
  · rintro ⟨negative,cs,d,ds,hsign,htake,hvalue⟩
    obtain ⟨sign,hwritten,htext⟩ := exists_sign text
    obtain ⟨hcs,hdigits,-⟩ := Numeral.takeDigits_eq_iff.mp htake
    rw [hsign] at hwritten htext
    rw [List.append_nil] at hcs
    exact ⟨sign,negative,d :: ds,hwritten,List.cons_ne_nil _ _,hdigits,hcs ▸ htext,hvalue⟩

theorem readInt?_eq_some_iff {cs : List Char} {n : Int64} :
    readInt? cs = some n ↔ IntegerText cs n.toInt := by
  rw [integerText_iff]
  constructor
  · intro h
    rcases hsign : takeSign cs with ⟨negative,body⟩
    simp only [readInt?, hsign] at h
    split at h
    case h_2 => cases h
    case h_1 d ds htake =>
      obtain ⟨⟨hlow,hhigh⟩,hn⟩ := Option.ite_none_right_eq_some.mp h
      refine ⟨negative,body,d,ds,rfl,htake,?_⟩
      rw [← Option.some.inj hn]
      exact Int64.toInt_ofInt_of_le (by omega) (by omega)
  · rintro ⟨negative,body,d,ds,hsign,htake,hvalue⟩
    have hlow := n.le_toInt
    have hhigh := n.toInt_lt
    simp only [readInt?, hsign, htake]
    rw [← hvalue, if_pos (by omega), Int64.ofInt_toInt]

/-! ## Doubles -/

/-- No exponent, which is 0, or a mark and an integer. -/
inductive ExponentText : List Char → Int → Prop where
  | none : ExponentText [] 0
  | marked {mark : Char} {text : List Char} {e : Int} (hmark : mark = 'e' ∨ mark = 'E')
      (h : IntegerText text e) : ExponentText (mark :: text) e

/-- Digits, perhaps with a point in front of, among or behind them, and an exponent. -/
inductive DecimalText : List Char → Decimal → Prop where
  | mk {whole fraction : List Nat} {point exponent : List Char} {e : Int}
      (hwhole : ∀ d ∈ whole, d < 10) (hfraction : ∀ d ∈ fraction, d < 10)
      (hsome : whole ≠ [] ∨ fraction ≠ []) (hpoint : point = ['.'] ∨ point = [] ∧ fraction = [])
      (hexponent : ExponentText exponent e) :
      DecimalText (digitText whole ++ (point ++ (digitText fraction ++ exponent)))
        ⟨ofDigits 0 (whole ++ fraction),e-fraction.length⟩

theorem readExponent?_eq_some_iff {cs : List Char} {e : Int} :
    readExponent? cs = some e ↔ ExponentText cs e := by
  constructor
  · intro h
    cases cs with
    | nil =>
      obtain rfl := Option.some.inj h
      exact .none
    | cons c rest =>
      rcases hsign : takeSign rest with ⟨negative,body⟩
      simp only [readExponent?, hsign] at h
      split at h
      case isFalse => cases h
      case isTrue hmark =>
        split at h
        case h_2 => cases h
        case h_1 d ds htake =>
          refine .marked hmark (integerText_iff.mpr ⟨negative,body,d,ds,hsign,htake,?_⟩)
          exact (Option.some.inj h).symm
  · intro h
    cases h with
    | none => rfl
    | marked hmark h =>
      obtain ⟨negative,body,d,ds,hsign,htake,rfl⟩ := integerText_iff.mp h
      simp only [readExponent?, hmark, if_true, hsign, htake]

theorem ExponentText.head {cs : List Char} {e : Int} (h : ExponentText cs e) :
    ∀ c ∈ cs.head?, isDigit c = false ∧ c ≠ '.' := by
  cases h with
  | none => exact nofun
  | marked hmark =>
    intro c hc
    obtain rfl := Option.some.inj hc
    rcases hmark with rfl | rfl <;> decide

theorem ExponentText.noDigit {cs : List Char} {e : Int} (h : ExponentText cs e) : NoDigit cs :=
  fun c hc => (h.head c hc).1

def takeFraction : List Char → List Nat × List Char
  | '.' :: cs => takeDigits cs
  | cs => ([],cs)

theorem readSize?_eq (cs : List Char) : readSize? cs =
    let whole := (takeDigits cs).1
    let (fraction,behind) := takeFraction (takeDigits cs).2
    if whole.isEmpty && fraction.isEmpty then none
    else (readExponent? behind).bind fun e =>
      some ⟨ofDigits 0 (whole ++ fraction),e-fraction.length⟩ := by
  by_cases hempty : ((takeDigits cs).1.isEmpty && (takeFraction (takeDigits cs).2).1.isEmpty) = true
  · exact (if_pos hempty).trans (if_pos hempty).symm
  · exact (if_neg hempty).trans (if_neg hempty).symm

theorem takeFraction_of_not_point {cs : List Char} (h : ∀ c ∈ cs.head?, c ≠ '.') :
    takeFraction cs = ([],cs) := by
  cases cs with
  | nil => rfl
  | cons c rest =>
    rw [takeFraction]
    exact fun _ heq => h c rfl (List.cons.inj heq).1

theorem takeFraction_cases (cs : List Char) :
    ∃ point fraction behind, takeFraction cs = (fraction,behind) ∧
      cs = point ++ (digitText fraction ++ behind) ∧ (∀ d ∈ fraction, d < 10) ∧
      (point = ['.'] ∨ point = [] ∧ fraction = []) := by
  unfold takeFraction
  split
  case h_1 rest =>
    rcases htake : takeDigits rest with ⟨fraction,behind⟩
    obtain ⟨rfl,hfraction,-⟩ := Numeral.takeDigits_eq_iff.mp htake
    exact ⟨['.'],fraction,behind,rfl,rfl,hfraction,.inl rfl⟩
  case h_2 => exact ⟨[],[],cs,rfl,rfl,nofun,.inr ⟨rfl,rfl⟩⟩

theorem readSize?_eq_some_iff {cs : List Char} {d : Decimal} :
    readSize? cs = some d ↔ DecimalText cs d := by
  rw [readSize?_eq]
  constructor
  · intro h
    rcases hwhole : takeDigits cs with ⟨whole,rest⟩
    obtain ⟨hcs,hdigits,-⟩ := Numeral.takeDigits_eq_iff.mp hwhole
    obtain ⟨point,fraction,behind,htake,hrest,hfraction,hpoint⟩ := takeFraction_cases rest
    simp only [hwhole, htake] at h
    split at h
    case isTrue => cases h
    case isFalse hsome =>
      obtain ⟨e,he,hd⟩ := Option.bind_eq_some_iff.mp h
      rw [← Option.some.inj hd, hcs, hrest]
      refine .mk hdigits hfraction ?_ hpoint (readExponent?_eq_some_iff.mp he)
      simpa [or_iff_not_imp_left] using hsome
  · rintro @⟨whole,fraction,point,exponent,e,hwhole,hfraction,hsome,hpoint,hexponent⟩
    have hbehind : NoDigit (point ++ (digitText fraction ++ exponent)) ∧
        takeFraction (point ++ (digitText fraction ++ exponent)) = (fraction,exponent) := by
      rcases hpoint with rfl | ⟨rfl,rfl⟩
      · constructor
        · intro c hc
          obtain rfl := Option.some.inj hc
          rfl
        · exact Numeral.takeDigits_eq_iff.mpr ⟨rfl,hfraction,hexponent.noDigit⟩
      · exact ⟨hexponent.noDigit,takeFraction_of_not_point fun c hc => (hexponent.head c hc).2⟩
    have htake := Numeral.takeDigits_eq_iff.mpr ⟨rfl,hwhole,hbehind.1⟩
    have hnonempty : ¬(whole.isEmpty && fraction.isEmpty) = true := by
      simpa [or_iff_not_imp_left] using hsome
    simp only [htake, hbehind.2]
    rw [if_neg hnonempty, readExponent?_eq_some_iff.mpr hexponent, Option.bind_some]

/-- A decimal, or a word in large or small letters. -/
inductive MagnitudeText : List Char → Float → Prop where
  | decimal {text : List Char} {d : Decimal} (h : DecimalText text d) : MagnitudeText text d.toFloat
  | infinity {text : List Char}
      (h : text.map lower = "inf".toList ∨ text.map lower = "infinity".toList) :
      MagnitudeText text (Float.ofBits 0x7ff0000000000000)
  | notNumber {text : List Char} (h : text.map lower = "nan".toList) :
      MagnitudeText text (Float.ofBits 0x7ff8000000000000)

def DoubleText (text : List Char) (x : Float) : Prop :=
  ∃ sign negative body size, Sign sign negative ∧ text = sign ++ body ∧ MagnitudeText body size ∧
    x = if negative then size.neg else size

theorem DecimalText.exists_head {text : List Char} {d : Decimal} (h : DecimalText text d) :
    ∃ c rest, text = c :: rest ∧ (isDigit c = true ∨ c = '.') := by
  obtain @⟨whole,fraction,point,exponent,e,hwhole,-,hsome,hpoint,-⟩ := h
  cases whole with
  | cons d ds => exact ⟨_,_,rfl,.inl (Numeral.isDigit_digitChar (hwhole d List.mem_cons_self))⟩
  | nil =>
    rcases hpoint with rfl | ⟨-,rfl⟩
    · exact ⟨_,_,rfl,.inr rfl⟩
    · exact absurd hsome (by simp)

theorem lower_eq_self {c : Char} (h : isDigit c = true ∨ c = '.') : lower c = c := by
  have hbelow : ¬('A' ≤ c ∧ c ≤ 'Z') := by
    rintro ⟨hlow,-⟩
    have hlow : 65 ≤ c.toNat := hlow
    rcases h with h | rfl
    · simp only [isDigit, Bool.and_eq_true, decide_eq_true_eq] at h
      have hhigh : c.toNat ≤ 57 := h.2
      omega
    · exact absurd hlow (by decide)
  exact if_neg hbelow

theorem DecimalText.not_word {text : List Char} {d : Decimal} (h : DecimalText text d) {c : Char}
    {cs : List Char} (hword : text.map lower = c :: cs) : isDigit c = true ∨ c = '.' := by
  obtain ⟨first,rest,rfl,hfirst⟩ := h.exists_head
  rw [List.map_cons, lower_eq_self hfirst] at hword
  exact (List.cons.inj hword).1 ▸ hfirst

theorem unsigned_of_word {text cs : List Char} {c : Char} (hword : text.map lower = c :: cs)
    (hc : c ≠ '+' ∧ c ≠ '-') : Unsigned text := by
  intro first hfirst
  have hhead := congrArg List.head? hword
  rw [List.head?_map, hfirst] at hhead
  obtain rfl : lower first = c := Option.some.inj hhead
  constructor <;> rintro rfl
  · exact hc.1 rfl
  · exact hc.2 rfl

theorem MagnitudeText.unsigned {text : List Char} {x : Float} (h : MagnitudeText text x) :
    Unsigned text := by
  cases h with
  | infinity h =>
    rcases h with h | h
    · exact unsigned_of_word (show text.map lower = 'i' :: "nf".toList from h) (by decide)
    · exact unsigned_of_word (show text.map lower = 'i' :: "nfinity".toList from h) (by decide)
  | notNumber h =>
    exact unsigned_of_word (show text.map lower = 'n' :: "an".toList from h) (by decide)
  | decimal h =>
    obtain ⟨c,rest,rfl,hc⟩ := h.exists_head
    have hlower : (c :: rest).map lower = c :: rest.map lower := by
      rw [List.map_cons, lower_eq_self hc]
    refine unsigned_of_word hlower ?_
    constructor <;> rintro rfl
    · exact absurd hc (by decide)
    · exact absurd hc (by decide)

def magnitude? (cs : List Char) : Option Float :=
  let word := cs.map lower
  if word = "inf".toList ∨ word = "infinity".toList then some (Float.ofBits 0x7ff0000000000000)
  else if word = "nan".toList then some (Float.ofBits 0x7ff8000000000000)
  else (readSize? cs).map Decimal.toFloat

theorem readDouble?_eq (cs : List Char) : readDouble? cs =
    if (takeSign cs).1 then (magnitude? (takeSign cs).2).map Float.neg
    else magnitude? (takeSign cs).2 := rfl

theorem magnitude?_eq_some_iff {cs : List Char} {x : Float} :
    magnitude? cs = some x ↔ MagnitudeText cs x := by
  constructor
  · intro h
    simp only [magnitude?] at h
    split at h
    case isTrue hword =>
      obtain rfl := Option.some.inj h
      exact .infinity hword
    case isFalse =>
      split at h
      case isTrue hword =>
        obtain rfl := Option.some.inj h
        exact .notNumber hword
      case isFalse =>
        obtain ⟨d,hd,rfl⟩ := Option.map_eq_some_iff.mp h
        exact .decimal (readSize?_eq_some_iff.mp hd)
  · intro h
    cases h with
    | infinity hword => exact if_pos hword
    | notNumber hword =>
      have hother : ¬(cs.map lower = "inf".toList ∨ cs.map lower = "infinity".toList) := by
        rw [hword]
        decide
      exact (if_neg hother).trans (if_pos hword)
    | @decimal d hd =>
      have hinf : ¬(cs.map lower = "inf".toList ∨ cs.map lower = "infinity".toList) := by
        rintro (hword | hword)
        · exact absurd (hd.not_word (show _ = 'i' :: "nf".toList from hword)) (by decide)
        · exact absurd (hd.not_word (show _ = 'i' :: "nfinity".toList from hword)) (by decide)
      have hnan : ¬cs.map lower = "nan".toList := fun hword =>
        absurd (hd.not_word (show _ = 'n' :: "an".toList from hword)) (by decide)
      refine (if_neg hinf).trans ((if_neg hnan).trans ?_)
      rw [readSize?_eq_some_iff.mpr hd, Option.map_some]

/-- Read are the texts of this form, as the double nearest to what they say. -/
theorem readDouble?_eq_some_iff {cs : List Char} {x : Float} :
    readDouble? cs = some x ↔ DoubleText cs x := by
  rw [readDouble?_eq]
  constructor
  · intro h
    obtain ⟨sign,hsign,hcs⟩ := exists_sign cs
    have hsigned : ∃ size, magnitude? (takeSign cs).2 = some size ∧
        x = if (takeSign cs).1 then size.neg else size := by
      split at h
      case isTrue hnegative =>
        obtain ⟨size,hsize,rfl⟩ := Option.map_eq_some_iff.mp h
        exact ⟨size,hsize,(if_pos hnegative).symm⟩
      case isFalse hpositive => exact ⟨x,h,(if_neg hpositive).symm⟩
    obtain ⟨size,hsize,hx⟩ := hsigned
    exact ⟨sign,_,_,size,hsign,hcs,magnitude?_eq_some_iff.mp hsize,hx⟩
  · rintro ⟨sign,negative,body,size,hsign,rfl,hbody,rfl⟩
    rw [takeSign_append hsign hbody.unsigned, magnitude?_eq_some_iff.mpr hbody]
    cases negative <;> rfl

end Environment
end SolverSession
