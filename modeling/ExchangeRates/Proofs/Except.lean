namespace ExchangeRates

variable {α β δ ε : Type} {x : Except ε α} {f : α → Except ε β} {b : β} {error : ε}

theorem pure_eq_ok_iff {a c : α} : (pure a : Except ε α) = .ok c ↔ a = c :=
  ⟨Except.ok.inj, congrArg Except.ok⟩

theorem pure_ne_error {a : α} : (pure a : Except ε α) ≠ .error error := nofun

/-- Two steps succeed exactly if the first does and the second does with its result. -/
theorem bind_eq_ok_iff : (x >>= f) = .ok b ↔ ∃ a, x = .ok a ∧ f a = .ok b := by
  cases x <;> simp [bind, Except.bind]

theorem exists_bind_eq_ok_iff :
    (∃ b, (x >>= f) = .ok b) ↔ ∃ a, x = .ok a ∧ ∃ b, f a = .ok b := by
  simp only [bind_eq_ok_iff]
  exact ⟨fun ⟨b, a, hx, hb⟩ => ⟨a, hx, b, hb⟩, fun ⟨a, hx, b, hb⟩ => ⟨b, a, hx, hb⟩⟩

/-- Two steps fail exactly if the first does, or the second does with its result. -/
theorem bind_eq_error_iff :
    (x >>= f) = .error error ↔ x = .error error ∨ ∃ a, x = .ok a ∧ f a = .error error := by
  cases x <;> simp [bind, Except.bind]

theorem mapError_eq_ok_iff {g : ε → δ} {a : α} : x.mapError g = .ok a ↔ x = .ok a := by
  cases x with
  | error cause => exact iff_of_false (by rintro ⟨⟩) (by rintro ⟨⟩)
  | ok b => constructor <;> exact fun h => congrArg Except.ok (Except.ok.inj h)

theorem mapError_eq_error_iff {g : ε → δ} {other : δ} :
    x.mapError g = .error other ↔ ∃ cause, x = .error cause ∧ other = g cause := by
  cases x with
  | error cause =>
    constructor
    · intro h
      exact ⟨cause, rfl, (Except.error.inj h).symm⟩
    · rintro ⟨_, ⟨⟩, rfl⟩
      rfl
  | ok a => exact iff_of_false (by rintro ⟨⟩) (by rintro ⟨_, ⟨⟩, -⟩)

/-- Reading a whole list succeeds exactly if reading each of its entries does. -/
theorem exists_mapM_eq_ok_iff {l : List α} :
    (∃ r, l.mapM f = .ok r) ↔ ∀ a ∈ l, ∃ b, f a = .ok b := by
  induction l with
  | nil => simp [pure_eq_ok_iff]
  | cons a l ih =>
    rw [List.forall_mem_cons, ← ih, List.mapM_cons, exists_bind_eq_ok_iff]
    simp only [exists_bind_eq_ok_iff, pure_eq_ok_iff, exists_eq', and_true, exists_and_right]

theorem mapM_eq_ok_iff {l : List α} {r : List β} :
    l.mapM f = .ok r ↔ l.map f = r.map .ok := by
  induction l generalizing r with
  | nil =>
    simp only [List.mapM_nil, pure_eq_ok_iff, List.map_nil, List.nil_eq, List.map_eq_nil_iff]
  | cons a l ih =>
    rw [List.mapM_cons, bind_eq_ok_iff]
    simp only [bind_eq_ok_iff, ih, pure_eq_ok_iff, List.map_cons]
    constructor
    · rintro ⟨b, hb, rest, hrest, rfl⟩
      rw [hb, hrest, List.map_cons]
    · intro h
      obtain ⟨b, rest, rfl, hb, hrest⟩ := List.map_eq_cons_iff.mp h.symm
      exact ⟨b, hb.symm, rest, hrest.symm, rfl⟩

/-- The first element of a list that is not like those before it is the head, or it is found behind
a head that is like them. -/
theorem exists_first_cons {P Q : α → Prop} {a : α} {l : List α} :
    (∃ before x after, a :: l = before ++ x :: after ∧ (∀ y ∈ before, P y) ∧ Q x) ↔
      Q a ∨ P a ∧ ∃ before x after, l = before ++ x :: after ∧ (∀ y ∈ before, P y) ∧ Q x := by
  constructor
  · rintro ⟨before, x, after, heq, hbefore, hx⟩
    cases before with
    | nil =>
      obtain ⟨rfl, -⟩ := List.cons.inj heq
      exact .inl hx
    | cons first before =>
      obtain ⟨rfl, rfl⟩ := List.cons.inj heq
      obtain ⟨ha, hbefore⟩ := List.forall_mem_cons.mp hbefore
      exact .inr ⟨ha, before, x, after, rfl, hbefore, hx⟩
  · rintro (ha | ⟨ha, before, x, after, rfl, hbefore, hx⟩)
    · exact ⟨[], a, l, rfl, by simp, ha⟩
    · exact ⟨a :: before, x, after, rfl, List.forall_mem_cons.mpr ⟨ha, hbefore⟩, hx⟩

/-- Reading a whole list ends with the error of the first element that cannot be read. -/
theorem mapM_eq_error_iff {l : List α} :
    l.mapM f = .error error ↔
      ∃ before a after, l = before ++ a :: after ∧ (∀ x ∈ before, ∃ b, f x = .ok b) ∧
        f a = .error error := by
  induction l with
  | nil => simp [pure_ne_error]
  | cons a l ih =>
    rw [exists_first_cons, ← ih, List.mapM_cons, bind_eq_error_iff]
    simp only [bind_eq_error_iff, pure_ne_error, and_false, exists_false, or_false,
      exists_and_right]

end ExchangeRates
