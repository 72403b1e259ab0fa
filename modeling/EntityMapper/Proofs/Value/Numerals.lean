import EntityMapper.Number.Layout
import Mathlib.Data.Nat.Digits.Defs

/-!
# The characters of numbers

Whatever its layout, a number is written with letters, digits, points and signs, and is never
written as nothing. So blanks, quotes and parentheses cannot come from a number.
-/

namespace EntityMapper

/-- A character that numbers are written with. -/
def isNumeralChar (c : Char) : Bool :=
  c.isAlphanum || c ∈ ['.', '-', '+']

/-- Some characters that numbers are written with. -/
structure IsNumeral (chars : List Char) : Prop where
  nonempty : chars ≠ []
  chars : chars.all isNumeralChar = true

variable {xs ys : List Char}

theorem IsNumeral.append (h : IsNumeral xs) (hys : ys.all isNumeralChar = true) :
    IsNumeral (xs ++ ys) :=
  ⟨List.append_ne_nil_of_left_ne_nil h.nonempty ys, by rw [List.all_append, h.chars, hys]; rfl⟩

theorem IsNumeral.cons {c : Char} (hc : isNumeralChar c = true) (h : IsNumeral xs) :
    IsNumeral (c :: xs) :=
  ⟨List.cons_ne_nil c xs, by rw [List.all_cons, hc, h.chars]; rfl⟩

theorem all_of_subset (h : xs ⊆ ys) (hys : ys.all isNumeralChar = true) :
    xs.all isNumeralChar = true :=
  List.all_eq_true.2 fun c hc => List.all_eq_true.1 hys c (h hc)

theorem isNumeral_toDigits (n : Nat) : IsNumeral (Nat.toDigits 10 n) := by
  refine ⟨Nat.toDigits_ne_nil, List.all_eq_true.2 fun c hc => ?_⟩
  have hdigit : c.isDigit = true := Nat.isDigit_of_mem_toDigits (by decide) (by decide) hc
  simp [isNumeralChar, Char.isAlphanum, hdigit]

theorem isNumeral_toString (n : Int) : IsNumeral (toString n).toList := by
  rw [Int.toString_eq_repr]
  cases n with
  | ofNat m => simpa [Int.repr] using isNumeral_toDigits m
  | negSucc m =>
    have hsigned : IsNumeral ('-' :: Nat.toDigits 10 (m + 1)) :=
      (isNumeral_toDigits (m + 1)).cons (by decide)
    simpa [Int.repr] using hsigned

theorem all_replicate_zero (n : Nat) : (List.replicate n '0').all isNumeralChar = true :=
  List.all_eq_true.2 fun c hc => by rw [List.eq_of_mem_replicate hc]; decide

namespace FloatLayout

variable (l : FloatLayout) {digits : List Char}

theorem isNumeral_positionalText (h : IsNumeral digits) (point : Int) :
    IsNumeral (l.positionalText digits point) := by
  have hwhole : IsNumeral (if point ≤ 0 then ['0']
      else digits.take point.toNat ++ List.replicate (point.toNat - digits.length) '0') := by
    split
    · exact ⟨by decide, by decide⟩
    · next hpoint =>
      refine IsNumeral.append ⟨?_, all_of_subset (List.take_subset _ _) h.chars⟩
        (all_replicate_zero _)
      have hpos : point.toNat ≠ 0 := by omega
      simp [h.nonempty, hpos]
  have hfraction : (if point ≤ 0 then List.replicate (-point).toNat '0' ++ digits
      else digits.drop point.toNat).all isNumeralChar = true := by
    split
    · rw [List.all_append, all_replicate_zero, h.chars]
      rfl
    · exact all_of_subset (List.drop_subset _ _) h.chars
  unfold positionalText
  dsimp only
  split
  · split
    · exact hwhole.append (by decide)
    · exact hwhole
  · exact hwhole.append (by rw [List.all_cons, hfraction]; decide)

theorem isNumeral_exponentText (h : IsNumeral digits) (leading : Int) :
    IsNumeral (l.exponentText digits leading) := by
  have hmark : IsNumeral (if 0 ≤ leading && l.signsExponent then "e+" else "e").toList := by
    split <;> exact ⟨by decide, by decide⟩
  have hexponent := hmark.append (isNumeral_toString leading).chars
  have hhead : IsNumeral (digits.take 1) :=
    ⟨by simp [h.nonempty], all_of_subset (List.take_subset _ _) h.chars⟩
  unfold exponentText
  dsimp only
  rw [String.toList_append]
  refine (hhead.append ?_).append hexponent.chars
  split
  · rfl
  · rw [List.all_cons, all_of_subset (List.drop_subset _ _) h.chars]
    decide

theorem isNumeral_magnitudeText (d : Decimal) : IsNumeral (l.magnitudeText d) := by
  have hdigits := isNumeral_toDigits d.digits
  unfold magnitudeText
  dsimp only
  split
  · exact l.isNumeral_positionalText hdigits _
  · split
    · exact l.isNumeral_positionalText hdigits _
    · exact l.isNumeral_exponentText hdigits _

/-- The text of a number in any layout. -/
theorem isNumeral_write (f : FloatFormat) (x : Bool × Magnitude) :
    IsNumeral (l.write f x).toList := by
  unfold write
  split
  · exact ⟨by decide, by decide⟩
  · split <;> exact ⟨by decide, by decide⟩
  · next negative m e =>
    have htext : IsNumeral (if m = 0 then l.positionalText ['0'] 1
        else l.magnitudeText (shortestDecimal f l.tie m e)) := by
      split
      · exact l.isNumeral_positionalText ⟨by decide, by decide⟩ 1
      · exact l.isNumeral_magnitudeText _
    dsimp only
    rw [String.toList_ofList]
    split
    · exact htext.cons (by decide)
    · exact htext

end FloatLayout

end EntityMapper
