namespace ExchangeRates.Text

/-- The blocks of code points with the Unicode property `White_Space`, as first and last point. -/
def whiteBlocks : List (Nat × Nat) :=
  [(0x09, 0x0d), (0x20, 0x20), (0x85, 0x85), (0xa0, 0xa0), (0x1680, 0x1680), (0x2000, 0x200a),
    (0x2028, 0x2029), (0x202f, 0x202f), (0x205f, 0x205f), (0x3000, 0x3000)]

/-- Whether a code point is white space. -/
def isWhiteCode (n : Nat) : Bool :=
  whiteBlocks.any fun block => block.1 ≤ n && n ≤ block.2

/-- Whether a character is white space. -/
def isWhite (c : Char) : Bool :=
  isWhiteCode c.toNat

/-- Drops white space at both ends. -/
def trim (cs : List Char) : List Char :=
  ((cs.dropWhile isWhite).reverse.dropWhile isWhite).reverse

/-- A text that neither begins nor ends with white space. -/
def Trimmed (cs : List Char) : Prop :=
  (∀ c ∈ cs.head?, isWhite c = false) ∧ ∀ c ∈ cs.getLast?, isWhite c = false

theorem head?_dropWhile_isWhite (cs : List Char) :
    ∀ c ∈ (cs.dropWhile isWhite).head?, isWhite c = false := by
  intro c hc
  have h := List.head?_dropWhile_not isWhite cs
  rw [Option.mem_def.mp hc] at h
  simpa using h

theorem trimmed_trim (cs : List Char) : Trimmed (trim cs) := by
  unfold trim
  constructor
  · intro c hc
    have hsuffix := List.dropWhile_suffix isWhite (l := (cs.dropWhile isWhite).reverse)
    have hinit := List.reverse_suffix.mp
      (by simpa using hsuffix :
        (((cs.dropWhile isWhite).reverse.dropWhile isWhite).reverse).reverse <:+
          (cs.dropWhile isWhite).reverse)
    obtain ⟨rest, hrest⟩ := hinit
    cases hcut : ((cs.dropWhile isWhite).reverse.dropWhile isWhite).reverse with
    | nil => rw [hcut] at hc; simp at hc
    | cons d ds =>
      rw [hcut] at hc hrest
      refine head?_dropWhile_isWhite cs c ?_
      rw [← hrest]
      simpa using hc
  · intro c hc
    rw [List.getLast?_reverse] at hc
    exact head?_dropWhile_isWhite _ c hc

theorem trim_eq_self {cs : List Char} (h : Trimmed cs) : trim cs = cs := by
  unfold trim
  have hfront : cs.dropWhile isWhite = cs := by
    cases cs with
    | nil => rfl
    | cons c rest => exact List.dropWhile_cons_of_neg (by simpa using h.1 c (by simp))
  have hback : cs.reverse.dropWhile isWhite = cs.reverse := by
    cases hrev : cs.reverse with
    | nil => rfl
    | cons c rest =>
      refine List.dropWhile_cons_of_neg ?_
      have hlast : c ∈ cs.getLast? := by
        rw [← List.head?_reverse, hrev]
        simp
      simpa using h.2 c hlast
  rw [hfront, hback, List.reverse_reverse]

end ExchangeRates.Text
