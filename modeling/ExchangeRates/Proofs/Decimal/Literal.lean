import ExchangeRates.Decimal.Literal
import Mathlib.Data.List.TakeWhile

namespace ExchangeRates.Decimal

/-- A sign, or none. -/
inductive IsSign : List Char → Prop
  | none : IsSign []
  | plus : IsSign ['+']
  | minus : IsSign ['-']

def AllDigits (cs : List Char) : Prop := ∀ c ∈ cs, c.isDigit = true

/-- A power of ten, or none. -/
inductive IsExponent : List Char → Prop
  | none : IsExponent []
  | power {mark : Char} {sign digits : List Char} (hmark : mark = 'e' ∨ mark = 'E')
    (hsign : IsSign sign) (hdigits : AllDigits digits) (hsome : digits ≠ []) :
    IsExponent (mark :: (sign ++ digits))

/-- A number without its sign. -/
inductive IsMagnitude : List Char → Prop
  | word {cs : List Char}
    (hword : String.ofList (cs.map Char.toLower) ∈ ["inf", "infinity", "nan"]) : IsMagnitude cs
  | whole {digits exponent : List Char} (hdigits : AllDigits digits) (hsome : digits ≠ [])
    (hexponent : IsExponent exponent) : IsMagnitude (digits ++ exponent)
  | point {digits fraction exponent : List Char} (hdigits : AllDigits digits)
    (hfraction : AllDigits fraction) (hsome : digits ≠ [] ∨ fraction ≠ [])
    (hexponent : IsExponent exponent) : IsMagnitude (digits ++ '.' :: (fraction ++ exponent))

/-- A number with or without a sign. -/
inductive IsLiteral : List Char → Prop
  | signed {sign magnitude : List Char} (hsign : IsSign sign) (hmagnitude : IsMagnitude magnitude) :
    IsLiteral (sign ++ magnitude)

/-- A text does not begin with a sign. -/
def Unsigned (cs : List Char) : Prop := ∀ c rest, cs = c :: rest → c ≠ '-' ∧ c ≠ '+'

/-- A text does not begin with a digit. -/
def NoDigitFirst (cs : List Char) : Prop := ∀ c rest, cs = c :: rest → c.isDigit = false

theorem isSign_takeSign (cs : List Char) :
    ∃ sign, IsSign sign ∧ cs = sign ++ (takeSign cs).2 := by
  unfold takeSign
  split
  · exact ⟨_, .minus, rfl⟩
  · exact ⟨_, .plus, rfl⟩
  · exact ⟨_, .none, rfl⟩

theorem takeSign_append {sign cs : List Char} (hsign : IsSign sign) (hcs : Unsigned cs) :
    (takeSign (sign ++ cs)).2 = cs := by
  cases hsign with
  | none =>
    unfold takeSign
    split
    · next heq => exact absurd rfl (hcs _ _ heq).1
    · next heq => exact absurd rfl (hcs _ _ heq).2
    · rfl
  | plus => rfl
  | minus => rfl

theorem AllDigits.unsigned {cs rest : List Char} (h : AllDigits cs) (hsome : cs ≠ []) :
    Unsigned (cs ++ rest) := by
  intro c tail heq
  obtain ⟨first, others, rfl⟩ := List.exists_cons_of_ne_nil hsome
  obtain rfl : first = c := (List.cons.inj heq).1
  have hdigit := h first List.mem_cons_self
  constructor <;> rintro rfl <;> exact absurd hdigit (by decide)

theorem span_digits {digits rest : List Char} (hdigits : AllDigits digits)
    (hrest : NoDigitFirst rest) :
    (digits ++ rest).takeWhile Char.isDigit = digits ∧
      (digits ++ rest).dropWhile Char.isDigit = rest := by
  rw [List.takeWhile_append_of_pos hdigits, List.dropWhile_append_of_pos hdigits]
  cases rest with
  | nil => simp
  | cons c rest => simp [hrest c rest rfl]

theorem allDigits_takeWhile (cs : List Char) : AllDigits (cs.takeWhile Char.isDigit) :=
  fun _ hc => List.mem_takeWhile_imp hc

theorem isSome_readExponent_iff {cs : List Char} :
    (readExponent cs).isSome = true ↔ IsExponent cs := by
  constructor
  · intro h
    cases cs with
    | nil => exact .none
    | cons c rest =>
      obtain ⟨sign, hsign, hrest⟩ := isSign_takeSign rest
      simp only [readExponent] at h
      split at h
      · next hmark =>
        split at h
        · cases h
        · next hdigits =>
          rw [not_or] at hdigits
          rw [hrest]
          exact .power hmark hsign (by simpa [AllDigits] using hdigits.2) hdigits.1
      · cases h
  · rintro (_ | ⟨hmark, hsign, hdigits, hsome⟩)
    · rfl
    · have hunsigned : Unsigned (_ ++ []) := hdigits.unsigned hsome
      rw [List.append_nil] at hunsigned
      simp only [readExponent, if_pos hmark, takeSign_append hsign hunsigned]
      rw [if_neg (by simpa [hsome, AllDigits] using hdigits)]
      rfl

theorem IsExponent.noDigitFirst {cs : List Char} (h : IsExponent cs) : NoDigitFirst cs := by
  rintro c rest rfl
  cases h with
  | power hmark _ _ _ => rcases hmark with rfl | rfl <;> decide

theorem isMagnitude_of_readScaled {cs : List Char} (h : (readScaled cs).isSome = true) :
    IsMagnitude cs := by
  have hdigits := allDigits_takeWhile cs
  rw [← List.takeWhile_append_dropWhile (p := Char.isDigit) (l := cs)]
  unfold readScaled at h
  generalize cs.takeWhile Char.isDigit = digits at *
  generalize cs.dropWhile Char.isDigit = rest at *
  dsimp only at h
  split at h
  · next after =>
    split at h
    · cases h
    · next hsome =>
      rw [Option.isSome_map, isSome_readExponent_iff] at h
      rw [← List.takeWhile_append_dropWhile (p := Char.isDigit) (l := after)]
      exact .point hdigits (allDigits_takeWhile after) (not_and_or.mp hsome) h
  · split at h
    · cases h
    · next hsome =>
      rw [Option.isSome_map, isSome_readExponent_iff] at h
      exact .whole hdigits (by simpa using hsome) h

theorem isSome_readScaled_whole {digits exponent : List Char} (hdigits : AllDigits digits)
    (hsome : digits ≠ []) (hexponent : IsExponent exponent) :
    (readScaled (digits ++ exponent)).isSome = true := by
  obtain ⟨htake, hdrop⟩ := span_digits hdigits hexponent.noDigitFirst
  simp only [readScaled, htake, hdrop]
  cases hexponent with
  | none => simp [hsome, readExponent]
  | power hmark hsign hmore hmoreSome =>
    have hread := isSome_readExponent_iff.mpr (.power hmark hsign hmore hmoreSome)
    rcases hmark with rfl | rfl <;> simp [hsome, hread]

theorem isSome_readScaled_point {digits fraction exponent : List Char}
    (hdigits : AllDigits digits) (hfraction : AllDigits fraction)
    (hsome : digits ≠ [] ∨ fraction ≠ []) (hexponent : IsExponent exponent) :
    (readScaled (digits ++ '.' :: (fraction ++ exponent))).isSome = true := by
  have hpoint : NoDigitFirst ('.' :: (fraction ++ exponent)) := by
    rintro c rest ⟨rfl, -⟩
    decide
  obtain ⟨htake, hdrop⟩ := span_digits hdigits hpoint
  obtain ⟨htake', hdrop'⟩ := span_digits hfraction hexponent.noDigitFirst
  simp only [readScaled, htake, hdrop, htake', hdrop']
  rw [if_neg (not_and_or.mpr hsome), Option.isSome_map]
  exact isSome_readExponent_iff.mpr hexponent

theorem IsMagnitude.unsigned {cs : List Char} (h : IsMagnitude cs) : Unsigned cs := by
  cases h with
  | word hword =>
    rintro c rest rfl
    have hletters (word : String) (h : String.ofList ((c :: rest).map Char.toLower) = word) :
        c.toLower :: rest.map Char.toLower = word.toList := by
      rw [← h, String.toList_ofList, List.map_cons]
    have hletter : c.toLower = 'i' ∨ c.toLower = 'n' := by
      simp only [List.mem_cons, List.not_mem_nil, or_false] at hword
      rcases hword with hword | hword | hword
      · exact .inl (List.cons.inj (hletters _ hword)).1
      · exact .inl (List.cons.inj (hletters _ hword)).1
      · exact .inr (List.cons.inj (hletters _ hword)).1
    constructor <;> rintro rfl <;> exact absurd hletter (by decide)
  | whole hdigits hsome _ => exact hdigits.unsigned hsome
  | @point digits _ _ hdigits _ _ _ =>
    cases digits with
    | nil =>
      rintro c rest ⟨rfl, -⟩
      decide
    | cons c digits => exact hdigits.unsigned (List.cons_ne_nil c digits)

theorem isSome_readMagnitude_iff {cs : List Char} :
    (readMagnitude cs).isSome = true ↔ IsMagnitude cs := by
  have hcases : (readMagnitude cs).isSome = true ↔
      String.ofList (cs.map Char.toLower) ∈ ["inf", "infinity", "nan"] ∨
        (readScaled cs).isSome = true := by
    simp only [readMagnitude, List.mem_cons, List.not_mem_nil, or_false, ← or_assoc]
    split
    · next hword => simp [hword]
    · next hword =>
      split
      · next hnan => simp [hnan]
      · next hnan => simp [hword, hnan]
  rw [hcases]
  constructor
  · rintro (hword | hscaled)
    · exact .word hword
    · exact isMagnitude_of_readScaled hscaled
  · rintro (hword | ⟨hdigits, hsome, hexponent⟩ | ⟨hdigits, hfraction, hsome, hexponent⟩)
    · exact .inl hword
    · exact .inr (isSome_readScaled_whole hdigits hsome hexponent)
    · exact .inr (isSome_readScaled_point hdigits hfraction hsome hexponent)

/-- Exactly the numbers of the grammar read as floats. -/
theorem isSome_readFloat_iff {text : String} :
    (readFloat text).isSome = true ↔ IsLiteral text.toList := by
  rw [readFloat, Option.isSome_map]
  generalize text.toList = cs
  have hread : (read cs).isSome = (readMagnitude (takeSign cs).2).isSome := by
    simp only [read, Option.isSome_map]
  rw [hread, isSome_readMagnitude_iff]
  constructor
  · intro h
    obtain ⟨sign, hsign, hcs⟩ := isSign_takeSign cs
    rw [hcs]
    exact .signed hsign h
  · rintro ⟨hsign, hmagnitude⟩
    rw [takeSign_append hsign hmagnitude.unsigned]
    exact hmagnitude

end ExchangeRates.Decimal
