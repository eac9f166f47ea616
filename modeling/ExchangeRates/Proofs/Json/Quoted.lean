import ExchangeRates.Json.Reader
import ExchangeRates.Json.Writer

namespace ExchangeRates.Json

open Token

section

variable {c : Char} {units : List Nat} {rest after : List Char}

theorem readUnits_shortEscape {escape : Char} (hescape : shortEscape escape = some c)
    (h : readUnits rest = some (units, after)) :
    readUnits ('\\' :: escape :: rest) = some (c.toNat :: units, after) := by
  have hu : escape ≠ 'u' := by
    rintro rfl
    cases hescape
  rw [readUnits, hescape, h]
  · rfl
  · exact fun _ _ _ _ _ heq => absurd heq hu

/-- The two last hexadecimal digits of a control character stand for its code point. -/
theorem exists_hexUnit : ∀ n < 0x20, ∃ high low,
    (if n < 0x10 then ['0'] else []) ++ Nat.toDigits 16 n = [high, low] ∧
      hexUnit '0' '0' high low = some n := by
  intro n hn
  refine ⟨Nat.digitChar (n / 16), Nat.digitChar (n % 16), ?_⟩
  revert n
  decide

theorem readUnits_control {pad : String} (hc : c.toNat < 0x20)
    (hpad : pad.toList = if c.toNat < 0x10 then ['0'] else [])
    (h : readUnits rest = some (units, after)) :
    readUnits (("\\u00" ++ pad ++ String.ofList (Nat.toDigits 16 c.toNat)).toList ++ rest) =
      some (c.toNat :: units, after) := by
  obtain ⟨high, low, hdigits, hunit⟩ := exists_hexUnit c.toNat hc
  have htext : ("\\u00" ++ pad ++ String.ofList (Nat.toDigits 16 c.toNat)).toList =
      ['\\', 'u', '0', '0', high, low] := by
    rw [String.toList_append, String.toList_append, hpad, List.append_assoc,
      String.toList_ofList (l := Nat.toDigits 16 c.toNat), hdigits]
    rfl
  rw [htext]
  simp only [List.cons_append, List.nil_append]
  rw [readUnits, hunit, h]
  rfl

theorem readUnits_plain (hquote : c ≠ '"') (hbackslash : c ≠ '\\') (hc : ¬ c.toNat < 0x20)
    (h : readUnits rest = some (units, after)) :
    readUnits (c :: rest) = some (c.toNat :: units, after) := by
  rw [readUnits, if_neg hc, h]
  · rfl
  · exact hquote
  · exact fun _ _ _ _ _ heq => absurd heq hbackslash
  · exact fun _ _ heq => absurd heq hbackslash

/-- A character is read back from the way it stands in a text. -/
theorem readUnits_escapeChar (c : Char) (h : readUnits rest = some (units, after)) :
    readUnits ((escapeChar c).toList ++ rest) = some (c.toNat :: units, after) := by
  unfold escapeChar
  by_cases hquote : c = '"'
  · rw [if_pos hquote]
    exact readUnits_shortEscape (by rw [hquote]; rfl) h
  rw [if_neg hquote]
  by_cases hbackslash : c = '\\'
  · rw [if_pos hbackslash]
    exact readUnits_shortEscape (by rw [hbackslash]; rfl) h
  rw [if_neg hbackslash]
  by_cases hline : c = '\n'
  · rw [if_pos hline]
    exact readUnits_shortEscape (by rw [hline]; rfl) h
  rw [if_neg hline]
  by_cases hreturn : c = '\r'
  · rw [if_pos hreturn]
    exact readUnits_shortEscape (by rw [hreturn]; rfl) h
  rw [if_neg hreturn]
  by_cases htab : c = '\t'
  · rw [if_pos htab]
    exact readUnits_shortEscape (by rw [htab]; rfl) h
  rw [if_neg htab]
  by_cases hback : c = '\x08'
  · rw [if_pos hback]
    exact readUnits_shortEscape (by rw [hback]; rfl) h
  rw [if_neg hback]
  by_cases hpage : c = '\x0c'
  · rw [if_pos hpage]
    exact readUnits_shortEscape (by rw [hpage]; rfl) h
  rw [if_neg hpage]
  by_cases hcontrol : c.toNat < 0x20
  · rw [if_pos hcontrol]
    by_cases hpad : c.toNat < 0x10
    · exact readUnits_control hcontrol (by rw [if_pos hpad, if_pos hpad]; rfl) h
    · exact readUnits_control hcontrol (by rw [if_neg hpad, if_neg hpad]; rfl) h
  rw [if_neg hcontrol, Char.toString_eq_singleton, String.toList_singleton]
  exact readUnits_plain hquote hbackslash hcontrol h

/-- Reading ends at the closing quote. -/
theorem readUnits_join (cs after : List Char) :
    readUnits ((String.join (cs.map escapeChar)).toList ++ '"' :: after) =
      some (cs.map Char.toNat, after) := by
  induction cs with
  | nil => simp [readUnits, String.join]
  | cons c cs ih =>
    rw [List.map_cons, String.join_cons, String.toList_append, List.append_assoc, List.map_cons]
    exact readUnits_escapeChar c ih

end

theorem not_surrogate (c : Char) : isHigh c.toNat = false ∧ isLow c.toNat = false := by
  have hvalid : c.toNat < 0xd800 ∨ 0xdfff < c.toNat ∧ c.toNat < 0x110000 := c.valid
  simp only [isHigh, isLow, Bool.and_eq_false_iff, decide_eq_false_iff_not]
  omega

theorem joinSurrogates_map_toNat (cs : List Char) :
    joinSurrogates (cs.map Char.toNat) = some cs := by
  induction cs with
  | nil => rfl
  | cons c cs ih =>
    obtain ⟨hhigh, hlow⟩ := not_surrogate c
    cases cs with
    | nil => simp [joinSurrogates, hhigh, hlow, Char.ofNat_toNat]
    | cons d cs =>
      rw [List.map_cons, List.map_cons, joinSurrogates, hhigh, hlow, ← List.map_cons, ih]
      simp [Char.ofNat_toNat]

/-- A text literal is read up to its closing quote. -/
theorem readText_join (text : String) (after : List Char) :
    readText ((String.join (text.toList.map escapeChar)).toList ++ '"' :: after) =
      some (.text (some text), after) := by
  rw [readText, readUnits_join, Option.map_some]
  dsimp only
  rw [joinSurrogates_map_toNat, Option.map_some, String.ofList_toList]

/-- A text is read back from its JSON. -/
theorem ofText?_compactText_text (text : String) :
    ofText? (compactText (.text text)) = some (.text text) := by
  have hquoted : (quoted text).toList =
      '"' :: ((String.join (text.toList.map escapeChar)).toList ++ ['"']) := by
    simp [quoted]
  have hread : readToken '"' ((String.join (text.toList.map escapeChar)).toList ++ ['"']) =
      some (.text (some text), []) := readText_join text []
  have hblank : ¬ isBlank '"' = true := by decide
  have htokens : Token.ofText (quoted text) = some [.text (some text)] := by
    rw [Token.ofText, ← String.length_toList, hquoted, List.length_cons, readAll, if_neg hblank,
      hread]
    simp [readAll]
  change (Token.ofText (quoted text)).bind _ = _
  rw [htokens]
  rfl

end ExchangeRates.Json
