import ExchangeRates.Config.RateSource

namespace ExchangeRates

/-- Two texts are equal when the case of ASCII letters is ignored. -/
def EqIgnoringCase (a b : String) : Prop := a.toList.map Char.toLower = b.toList.map Char.toLower

instance (a b : String) : Decidable (EqIgnoringCase a b) := inferInstanceAs (Decidable (_ = _))

theorem EqIgnoringCase.symm {a b : String} (h : EqIgnoringCase a b) : EqIgnoringCase b a :=
  Eq.symm h

theorem EqIgnoringCase.trans {a b c : String} (hab : EqIgnoringCase a b)
    (hbc : EqIgnoringCase b c) : EqIgnoringCase a c :=
  Eq.trans hab hbc

namespace RateSource

variable {source : RateSource} {a b : String}

theorem sameName_iff : sameName a b = true ↔ EqIgnoringCase a b := beq_iff_eq

theorem isFrom_iff : source.isFrom a = true ↔ EqIgnoringCase source.feed a := sameName_iff
end RateSource

namespace Text

/-- Trimming drops all white space at both ends. -/
theorem trim_surrounded {before after : List Char} (hbefore : ∀ c ∈ before, isWhite c = true)
    (hafter : ∀ c ∈ after, isWhite c = true) (cs : List Char) :
    trim (before ++ cs ++ after) = trim cs := by
  have hback : ∀ c ∈ after.reverse, isWhite c = true := by simpa using hafter
  unfold trim
  rw [List.append_assoc, List.dropWhile_append_of_pos hbefore, List.dropWhile_append]
  split
  · next hempty =>
    have hnone : (after ++ []).dropWhile isWhite = [] := List.dropWhile_append_of_pos hafter
    rw [List.isEmpty_iff.mp hempty, ← List.append_nil after, hnone]
  · rw [List.reverse_append, List.dropWhile_append_of_pos hback]

/-- An ASCII letter and its counterpart have the same uppercase, and are no white space. -/
theorem codes_letters : ∀ i : Fin 26,
    Uppercase.codes (i + 97) = Uppercase.codes (i + 65) ∧
      isWhiteCode (i + 97) = isWhiteCode (i + 65) := by
  decide

theorem toNat_toLower (c : Char) : c.toLower.toNat = c.toNat ∨
    ∃ i : Fin 26, c.toNat = i + 65 ∧ c.toLower.toNat = i + 97 := by
  unfold Char.toLower
  split
  · next h =>
    have hleast : 65 ≤ c.val.toNat := UInt32.le_iff_toNat_le.mp h.1
    have hgreatest : c.val.toNat ≤ 90 := UInt32.le_iff_toNat_le.mp h.2
    refine .inr ⟨⟨c.val.toNat - 65, by omega⟩, (Nat.sub_add_cancel hleast).symm, ?_⟩
    have hsum : (c.val + ('a'.val - 'A'.val)).toNat = (c.val.toNat + 32) % 4294967296 :=
      UInt32.toNat_add ..
    change (c.val + ('a'.val - 'A'.val)).toNat = c.val.toNat - 65 + 97
    omega
  · exact .inl rfl

theorem upperChar_toLower (c : Char) : upperChar c.toLower = upperChar c := by
  unfold upperChar
  obtain hsame | ⟨i, hupper, hlower⟩ := toNat_toLower c
  · rw [hsame]
  · rw [hupper, hlower, (codes_letters i).1]

theorem isWhite_toLower (c : Char) : isWhite c.toLower = isWhite c := by
  unfold isWhite
  obtain hsame | ⟨i, hupper, hlower⟩ := toNat_toLower c
  · rw [hsame]
  · rw [hupper, hlower, (codes_letters i).2]

theorem uppercase_map_toLower (cs : List Char) :
    uppercase (cs.map Char.toLower) = uppercase cs := by
  simp only [uppercase, List.flatMap_map, upperChar_toLower]

theorem trim_map_toLower (cs : List Char) :
    trim (cs.map Char.toLower) = (trim cs).map Char.toLower := by
  have hwhite : isWhite ∘ Char.toLower = isWhite := funext isWhite_toLower
  simp only [trim, List.dropWhile_map, ← List.map_reverse, hwhite]

end Text

namespace Symbol

/-- White space around a spelling makes no difference. -/
theorem ofText_surrounded {before after : String}
    (hbefore : ∀ c ∈ before.toList, Text.isWhite c = true)
    (hafter : ∀ c ∈ after.toList, Text.isWhite c = true) (spelling : String) :
    ofText (before ++ spelling ++ after) = ofText spelling := by
  apply ext_text
  simp only [ofText, normalForm, String.toList_append, Text.trim_surrounded hbefore hafter]

/-- The case of ASCII letters makes no difference. -/
theorem ofText_eq_of_eqIgnoringCase {a b : String} (h : EqIgnoringCase a b) :
    ofText a = ofText b := by
  unfold EqIgnoringCase at h
  apply ext_text
  simp only [ofText, normalForm]
  rw [← Text.uppercase_map_toLower, ← Text.trim_map_toLower, h, Text.trim_map_toLower,
    Text.uppercase_map_toLower]

/-- A spelling differs from another in the case of ASCII letters, and in white space around it. -/
def Respells (other spelling : String) : Prop :=
  ∃ before middle after, other = before ++ middle ++ after ∧
    (∀ c ∈ before.toList, Text.isWhite c = true) ∧
    (∀ c ∈ after.toList, Text.isWhite c = true) ∧ EqIgnoringCase middle spelling

theorem Respells.ofText_eq {other spelling : String} (h : Respells other spelling) :
    ofText other = ofText spelling := by
  obtain ⟨before, middle, after, rfl, hbefore, hafter, hsame⟩ := h
  rw [ofText_surrounded hbefore hafter, ofText_eq_of_eqIgnoringCase hsame]

end Symbol

end ExchangeRates
