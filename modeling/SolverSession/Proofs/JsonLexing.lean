import Mathlib.Tactic.ByContra
import SolverSession.Json.Lexer
import SolverSession.Proofs.Digits

/-!
# Tokens are read as they are written

Spelling a list of tokens and cutting the text into tokens again gives the list, if what stands
behind a number cannot be taken for a part of it. Numerals, texts and whole token lists are treated
in this order, always with some text behind them.
-/
namespace SolverSession

namespace Numeral

/-- The digits after the point are digits. -/
def WellFormed (n : Numeral) : Prop := ∀ d ∈ n.fraction, d < 10

theorem ofInt_wellFormed (n : Int) : (ofInt n).WellFormed := nofun

theorem toInt?_ofInt (n : Int) : (ofInt n).toInt? = some n := by
  have hplain : ¬((ofInt n).fraction ≠ [] ∨ (ofInt n).exponent.isSome) := by simp [ofInt]
  rw [toInt?, if_neg hplain]
  by_cases hn : n < 0
  · have hwhole : (ofInt n).whole ≠ 0 := by
      change n.natAbs ≠ 0
      omega
    have habs : -((ofInt n).whole : Int) = n := by
      change -(n.natAbs : Int) = n
      omega
    have hsign : (ofInt n).negative = true := decide_eq_true hn
    rw [if_pos hsign, if_neg hwhole, habs]
  · have habs : ((ofInt n).whole : Int) = n := by
      change (n.natAbs : Int) = n
      omega
    have hsign : ¬(ofInt n).negative = true := fun h => hn (of_decide_eq_true h)
    rw [if_neg hsign, habs]

theorem ofDecimal_wellFormed (layout : Layout) (negative : Bool) (d : Decimal) :
    (ofDecimal layout negative d).WellFormed := by
  have hdigits : ∀ k ∈ digitsOf d.digits, k < 10 := fun _ => digitsOf_lt
  unfold ofDecimal
  extract_lets digits point last
  split
  · split
    · intro k hk
      rcases List.mem_append.mp hk with hk | hk
      · rw [List.eq_of_mem_replicate hk]
        decide
      · exact hdigits k hk
    · split
      · intro k hk
        cases hpoint : layout.pointZero <;> simp_all [last]
      · exact fun k hk => hdigits k (List.mem_of_mem_drop hk)
  · exact fun k hk => hdigits k (List.mem_of_mem_tail hk)

theorem ofFloat_wellFormed (layout : Layout) (x : Float) : (ofFloat layout x).WellFormed := by
  unfold ofFloat
  by_cases hx : x == 0
  · rw [if_pos hx]
    intro k hk
    cases hpoint : layout.pointZero <;> simp_all
  · rw [if_neg hx]
    exact ofDecimal_wellFormed _ _ _

end Numeral

namespace Json

open Numeral (NoDigit digitsOf_cons isDigit isDigit_of_mem_toDigits takeDigits takeDigits_digitText
  takeDigits_toDigits toDigits_cons toDigits_head)

/-! ## Numerals -/

/-- The text does not start with anything that could belong to a number in front of it. -/
def Ends (rest : List Char) : Prop :=
  ∀ c ∈ rest.head?, isDigit c = false ∧ c ≠ '.' ∧ c ≠ 'e' ∧ c ≠ 'E'

theorem Ends.noDigit {rest : List Char} (h : Ends rest) : NoDigit rest := fun c hc => (h c hc).1

theorem scanWhole_of_head {c : Char} {cs : List Char} (hc : c ≠ '0') :
    scanWhole (c :: cs) = match takeDigits (c :: cs) with
      | ([],_) => none
      | (ds,rest) => some (Numeral.ofDigits 0 ds,rest) := by
  unfold scanWhole
  split
  case h_1 rest heq => exact absurd (List.cons.inj heq).1 hc
  case h_2 => rfl

theorem scanWhole_toDigits (n : Nat) {rest : List Char} (hrest : NoDigit rest) :
    scanWhole (Nat.toDigits 10 n ++ rest) = some (n,rest) := by
  by_cases hn : n = 0
  · subst hn
    rfl
  · obtain ⟨c,cs,hdigits,hc⟩ := toDigits_head hn
    have htake := takeDigits_toDigits n hrest
    obtain ⟨d,ds,hds⟩ := digitsOf_cons n
    rw [hdigits, List.cons_append] at htake ⊢
    rw [scanWhole_of_head hc, htake]
    simp only [hds]
    rw [← hds, Numeral.ofDigits_digitsOf]

def fractionText (fraction : List Nat) : List Char :=
  if fraction = [] then [] else '.' :: Numeral.digitText fraction

def exponentText : Option Int → List Char
  | none => []
  | some e => 'e' :: (if e < 0 then ['-'] else ['+']) ++ Nat.toDigits 10 e.natAbs

theorem text_eq (n : Numeral) : n.text true =
    (if n.negative then ['-'] else []) ++
      (Nat.toDigits 10 n.whole ++ (fractionText n.fraction ++ exponentText n.exponent)) := by
  rw [Numeral.text, List.append_assoc, List.append_assoc]
  rfl

theorem scanFraction_text {fraction : List Nat} (hfraction : ∀ d ∈ fraction, d < 10)
    {rest : List Char} (hrest : NoDigit rest) (hpoint : ∀ c ∈ rest.head?, c ≠ '.') :
    scanFraction (fractionText fraction ++ rest) = some (fraction,rest) := by
  cases fraction with
  | nil =>
    change scanFraction rest = some ([],rest)
    unfold scanFraction
    split
    case h_1 cs => exact absurd rfl (hpoint '.' rfl)
    case h_2 => rfl
  | cons d ds =>
    have htake := takeDigits_digitText hfraction hrest
    rw [fractionText, if_neg (by simp), List.cons_append, scanFraction, htake]

theorem scanExponentDigits_toDigits (negative : Bool) (n : Nat) {rest : List Char}
    (hrest : NoDigit rest) : scanExponentDigits negative (Nat.toDigits 10 n ++ rest) =
      some (some (if negative then -(n : Int) else n),rest) := by
  obtain ⟨d,ds,hds⟩ := digitsOf_cons n
  rw [scanExponentDigits, takeDigits_toDigits n hrest]
  simp only [hds]
  rw [← hds, Numeral.ofDigits_digitsOf]

theorem scanExponent_text (e : Option Int) {rest : List Char} (hrest : Ends rest) :
    scanExponent (exponentText e ++ rest) = some (e,rest) := by
  cases e with
  | none =>
    change scanExponent rest = some (none,rest)
    cases rest with
    | nil => rfl
    | cons c cs =>
      obtain ⟨-,-,he,hE⟩ := hrest c rfl
      simp [scanExponent, he, hE]
  | some e =>
    by_cases he : e < 0
    · have habs : -(e.natAbs : Int) = e := by omega
      have hdigits := scanExponentDigits_toDigits true e.natAbs hrest.noDigit
      rw [if_pos rfl, habs] at hdigits
      rw [exponentText, if_pos he]
      exact hdigits
    · have habs : (e.natAbs : Int) = e := by omega
      have hdigits := scanExponentDigits_toDigits false e.natAbs hrest.noDigit
      rw [if_neg Bool.false_ne_true, habs] at hdigits
      rw [exponentText, if_neg he]
      exact hdigits

theorem scanUnsigned_text {n : Numeral} (hn : n.WellFormed) {rest : List Char}
    (hrest : Ends rest) : scanUnsigned n.negative (Nat.toDigits 10 n.whole ++
      (fractionText n.fraction ++ (exponentText n.exponent ++ rest))) = some (n,rest) := by
  have hexponent : ∀ c ∈ (exponentText n.exponent ++ rest).head?, isDigit c = false ∧ c ≠ '.' := by
    intro c hc
    cases he : n.exponent with
    | none =>
      rw [he] at hc
      exact ⟨(hrest c hc).1,(hrest c hc).2.1⟩
    | some e =>
      obtain rfl : 'e' = c := by simpa [he, exponentText] using hc
      decide
  have hfraction : NoDigit (fractionText n.fraction ++ (exponentText n.exponent ++ rest)) := by
    intro c hc
    by_cases hnil : n.fraction = []
    · rw [fractionText, if_pos hnil] at hc
      exact (hexponent c hc).1
    · obtain rfl : '.' = c := by simpa [fractionText, hnil] using hc
      decide
  simp only [scanUnsigned, scanWhole_toDigits n.whole hfraction,
    scanFraction_text hn (fun c hc => (hexponent c hc).1) (fun c hc => (hexponent c hc).2),
    scanExponent_text n.exponent hrest, Option.bind_eq_bind, Option.bind_some]
  rfl

/-! ## Texts -/

theorem hexValue?_hexDigit {n : Nat} (hn : n < 16) : hexValue? (hexDigit n) = some n := by
  revert n
  decide

theorem unit?_control {n : Nat} (hn : n < 32) :
    unit? '0' '0' (hexDigit (n/16)) (hexDigit (n%16)) = some n := by
  have hzero : hexValue? '0' = some 0 := by decide
  have hsum : n/16*16+n%16 = n := Nat.div_add_mod' n 16
  simp [unit?, hzero, hexValue?_hexDigit (show n/16 < 16 by omega),
    hexValue?_hexDigit (show n%16 < 16 by omega), hsum]

theorem Scan.unit_toNat (s : Scan) {c : Char} (hc : c.toNat < 32) : s.unit c.toNat = s.char c := by
  have hhigh : ¬(0xd800 ≤ c.toNat ∧ c.toNat < 0xdc00) := by omega
  have hlow : ¬(0xdc00 ≤ c.toNat ∧ c.toNat < 0xe000) := by omega
  rw [Scan.unit, if_neg hhigh, if_neg hlow, Char.ofNat_toNat]

theorem scanText_unit (s : Scan) {a b c d : Char} {u : Nat} (h : unit? a b c d = some u)
    (rest : List Char) :
    scanText s ('\\' :: 'u' :: a :: b :: c :: d :: rest) = scanText (s.unit u) rest := by
  rw [scanText, h]

theorem scanText_plain (s : Scan) {c : Char} {rest : List Char} (hquote : c ≠ '"')
    (hbackslash : c ≠ '\\') (hcontrol : ¬c.toNat < 32) :
    scanText s (c :: rest) = scanText (s.char c) rest := by
  rw [scanText.eq_def]
  split
  case h_4 heq =>
    obtain ⟨rfl,rfl⟩ := List.cons.inj heq
    exact if_neg hcontrol
  all_goals simp_all

/-- An escape is read as the character it stands for. -/
theorem scanText_escape (s : Scan) (c : Char) (rest : List Char) :
    scanText s (escape c ++ rest) = scanText (s.char c) rest := by
  unfold escape
  -- The characters that have a letter of their own.
  iterate 7
    split
    case isTrue h => subst h; rfl
  split
  case isTrue hcontrol =>
    rw [← s.unit_toNat hcontrol]
    exact scanText_unit s (unit?_control hcontrol) rest
  case isFalse hquote hbackslash _ _ _ _ _ hcontrol =>
    exact scanText_plain s hquote hbackslash hcontrol

theorem scanText_escapes (s : Scan) (cs rest : List Char) :
    scanText s (cs.flatMap escape ++ '"' :: rest) = some ((cs.foldl Scan.char s).finish,rest) := by
  induction cs generalizing s with
  | nil => rfl
  | cons c cs ih => rw [List.flatMap_cons, List.append_assoc, scanText_escape, ih, List.foldl_cons]

theorem Scan.foldl_char (cs chars : List Char) :
    cs.foldl Scan.char ⟨chars,none,true⟩ = ⟨cs.reverse ++ chars,none,true⟩ := by
  induction cs generalizing chars with
  | nil => rfl
  | cons c cs ih =>
    rw [List.foldl_cons, List.reverse_cons, List.append_assoc]
    exact ih (c :: chars)

theorem scanText_quote (t : Text) (rest : List Char) :
    ∃ cs, quote t = '"' :: cs ∧ scanText .start (cs ++ rest) = some (t,rest) := by
  cases t with
  | none => exact ⟨_,rfl,rfl⟩
  | some s =>
    refine ⟨_,rfl,?_⟩
    have hfinish : (s.toList.foldl Scan.char .start).finish = some s := by
      rw [Scan.start, Scan.foldl_char, Scan.finish]
      simp
    have hescapes := scanText_escapes .start s.toList rest
    rw [hfinish] at hescapes
    simpa using hescapes

/-! ## Tokens -/

theorem scanToken_digit {c : Char} {cs : List Char} (hc : isDigit c = true) :
    scanToken (c :: cs) = (scanUnsigned false (c :: cs)).map fun (n,rest) => (.number n,rest) := by
  -- Every other token starts with a character that is no digit.
  unfold scanToken
  split
  case h_12 => rfl
  all_goals
    rename_i heq
    obtain ⟨rfl,-⟩ := List.cons.inj heq
    exact absurd hc (by decide)

theorem scanToken_number {n : Numeral} (hn : n.WellFormed) {rest : List Char}
    (hrest : Ends rest) : scanToken (n.text true ++ rest) = some (.number n,rest) := by
  have hscan := scanUnsigned_text hn hrest
  cases hsign : n.negative with
  | true =>
    rw [hsign] at hscan
    rw [text_eq, hsign, if_pos rfl]
    simp only [List.append_assoc, List.cons_append, List.nil_append] at hscan ⊢
    rw [scanToken, hscan, Option.map_some]
  | false =>
    obtain ⟨c,cs,hdigits,hc⟩ := toDigits_cons n.whole
    rw [hsign, hdigits] at hscan
    rw [text_eq, hsign, if_neg Bool.false_ne_true, hdigits]
    simp only [List.append_assoc, List.cons_append, List.nil_append] at hscan ⊢
    rw [scanToken_digit hc, hscan, Option.map_some]

/-- The token can be read back from its text in front of `rest`. -/
def Token.Legible (rest : List Char) : Token → Prop
  | .number n => n.WellFormed ∧ Ends rest
  | _ => True

theorem scanToken_spell {t : Token} {rest : List Char} (h : t.Legible rest) :
    scanToken (t.spell ++ rest) = some (t,rest) := by
  cases t with
  | number n => exact scanToken_number h.1 h.2
  | text s =>
    obtain ⟨cs,hquote,hscan⟩ := scanText_quote s rest
    rw [Token.spell, hquote, List.cons_append, scanToken, hscan, Option.map_some]
  | bool b => cases b <;> rfl
  | _ => rfl

theorem Token.spell_cons (t : Token) : ∃ c cs, t.spell = c :: cs ∧ isSpace c = false := by
  cases t with
  | number n =>
    rw [Token.spell, text_eq]
    cases n.negative with
    | true => exact ⟨'-',_,rfl,rfl⟩
    | false =>
      obtain ⟨c,cs,hdigits,hc⟩ := toDigits_cons n.whole
      refine ⟨c,_,congrArg (· ++ _) hdigits,?_⟩
      by_contra hspace
      simp only [isSpace, Bool.or_eq_true, decide_eq_true_eq, Bool.not_eq_false] at hspace
      rcases hspace with ((rfl | rfl) | rfl) | rfl <;> exact absurd hc (by decide)
  | text s =>
    obtain ⟨cs,hquote,-⟩ := scanText_quote s []
    exact ⟨'"',cs,hquote,rfl⟩
  | bool b => cases b <;> exact ⟨_,_,rfl,rfl⟩
  | _ => exact ⟨_,_,rfl,rfl⟩

/-- Each of the tokens can be read back in front of the others. -/
def Legible : List Token → Prop
  | [] => True
  | t :: ts => t.Legible (render ts) ∧ Legible ts

theorem scanTokens_render {ts : List Token} (h : Legible ts) {fuel : Nat}
    (hfuel : (render ts).length ≤ fuel) (done : List Token) :
    scanTokens fuel done (render ts) = some (done.reverse ++ ts) := by
  induction ts generalizing fuel done with
  | nil =>
    rw [List.append_nil]
    cases fuel <;> rfl
  | cons t ts ih =>
    obtain ⟨c,cs,hspell,hspace⟩ := t.spell_cons
    have hscan := scanToken_spell h.1
    have hrender : render (t :: ts) = c :: (cs ++ render ts) := by
      rw [render, List.flatMap_cons, hspell]
      rfl
    rw [hspell, List.cons_append] at hscan
    rw [hrender] at hfuel ⊢
    -- A token takes one unit of fuel and at least one character.
    cases fuel with
    | zero => simp at hfuel
    | succ fuel =>
      have hle : (render ts).length ≤ fuel := by
        simp only [List.length_cons, List.length_append] at hfuel
        omega
      have hrest := ih h.2 hle (t :: done)
      rw [List.reverse_cons, List.append_assoc, List.singleton_append] at hrest
      simp only [scanTokens, hspace, Bool.false_eq_true, if_false, hscan, hrest]

theorem tokenize_render {ts : List Token} (h : Legible ts) : tokenize (render ts) = some ts :=
  scanTokens_render h (Nat.le_refl _) []

end Json
end SolverSession
