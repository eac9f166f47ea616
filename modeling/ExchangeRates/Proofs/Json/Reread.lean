import ExchangeRates.Json.Fields
import ExchangeRates.Proofs.Table

namespace ExchangeRates.Json

variable {α κ : Type} {read : Json → Option α} {write : α → Json} {writable : α → Bool}

/-- A value is read back from its JSON if it is writable, and nothing is read from it otherwise. -/
def Rereads (read : Json → Option α) (write : α → Json) (writable : α → Bool) : Prop :=
  ∀ a, read (write a) = if writable a then some a else none

/-- All values that are read have a property. -/
def Yields (read : Json → Option α) (p : α → Prop) : Prop := ∀ j a, read j = some a → p a

theorem Rereads.eq_some (h : Rereads read write writable) {a : α} (ha : writable a) :
    read (write a) = some a :=
  (h a).trans (if_pos ha)

/-- Of the floats exactly the finite ones are read back as they were written. -/
theorem rereads_float : Rereads toFloat? ofFloat Float.isFinite := by
  intro x
  unfold ofFloat
  split
  · next hx => exact if_pos hx
  · rfl

theorem yields_float : Yields toFloat? fun x => x.isFinite := by
  intro j x h
  unfold toFloat? at h
  split at h
  · split at h
    · next hx => exact Option.some.inj h ▸ hx
    · cases h
  · dsimp only at h
    split at h
    · next hx => exact Option.some.inj h ▸ hx
    · cases h
  · cases h

theorem rereads_nat : Rereads toNat? ofNat fun _ => true := by
  intro n
  change (if (0 : Int) ≤ n then some (n : Int).toNat else none) = some n
  rw [if_pos (Int.natCast_nonneg n), Int.toNat_natCast]

theorem rereads_text : Rereads toText? text fun _ => true := fun _ => rfl

theorem Rereads.option (h : Rereads read write writable) (hnull : ∀ a, write a ≠ null) :
    Rereads (toOption? read) (ofOption write) fun o => o.all writable := by
  rintro (_ | a)
  · rfl
  · have hread : toOption? read (write a) = (read (write a)).map some := by
      unfold toOption?
      split
      · next heq => exact absurd heq (hnull a)
      · rfl
    change toOption? read (write a) = if writable a then some (some a) else none
    rw [hread, h a]
    split <;> rfl

/-- Reading one by one what has been written one by one. -/
theorem mapM_map {β : Type} {f : β → Option α} {g : α → β} {p : α → Bool}
    (h : ∀ a, f (g a) = if p a then some a else none) (l : List α) :
    (l.map g).mapM f = if l.all p then some l else none := by
  induction l with
  | nil => rfl
  | cons a l ih =>
    rw [List.map_cons, List.mapM_cons, h a, ih, List.all_cons]
    cases p a <;> cases l.all p <;> rfl

theorem Rereads.list (h : Rereads read write writable) :
    Rereads (toList? read) (fun l => array (l.map write)) fun l => l.all writable :=
  fun l => mapM_map h l

theorem rereads_texts : Rereads toTexts? ofTexts fun _ => true := by
  intro texts
  rw [toTexts?, ofTexts, rereads_text.list texts]
  simp

/-- A map is written key by key; the names of the keys stand for them. -/
theorem Rereads.table [DecidableEq κ] {key : String → κ} {name : κ → String}
    (h : Rereads read write writable) (hkey : ∀ k, key (name k) = k) :
    Rereads (toTable? key read) (ofTable name write) fun t : Table κ α =>
      t.entries.all fun e => writable e.2 := by
  intro t
  have hentry : ∀ e : κ × α, (read (write e.2)).map (fun value => (key (name e.1), value)) =
      if writable e.2 then some e else none := by
    intro e
    rw [h e.2, hkey]
    split <;> rfl
  rw [ofTable, toTable?, mapM_map hentry]
  split
  · exact congrArg some (Table.ofList_entries t)
  · rfl

theorem Yields.required {p : α → Prop} (h : Yields read p) {field : Option Json} {a : α}
    (hread : required read field = some a) : p a := by
  cases field with
  | none => cases hread
  | some value => exact h value a hread

theorem Yields.optional {p : α → Prop} (h : Yields read p) {fallback : α} (hfallback : p fallback)
    {field : Option Json} {a : α} (hread : optional fallback read field = some a) : p a := by
  cases field with
  | none => exact Option.some.inj hread ▸ hfallback
  | some value => exact h value a hread

theorem mem_of_mapM {β : Type} {f : β → Option α} {l : List β} {as : List α}
    (h : l.mapM f = some as) : ∀ a ∈ as, ∃ b ∈ l, f b = some a := by
  induction l generalizing as with
  | nil =>
    obtain rfl : [] = as := Option.some.inj h
    simp
  | cons b l ih =>
    rw [List.mapM_cons] at h
    obtain ⟨first, hfirst, h⟩ := Option.bind_eq_some_iff.mp h
    obtain ⟨rest, hrest, h⟩ := Option.bind_eq_some_iff.mp h
    obtain rfl : first :: rest = as := Option.some.inj h
    intro a ha
    rcases List.mem_cons.mp ha with rfl | ha
    · exact ⟨b, List.mem_cons_self, hfirst⟩
    · obtain ⟨b, hb, hread⟩ := ih hrest a ha
      exact ⟨b, List.mem_cons_of_mem _ hb, hread⟩

theorem Yields.list {p : α → Prop} (h : Yields read p) :
    Yields (toList? read) fun l => ∀ a ∈ l, p a := by
  intro j l hl a ha
  unfold toList? at hl
  split at hl
  · obtain ⟨b, -, hb⟩ := mem_of_mapM hl a ha
    exact h b a hb
  · cases hl

theorem Yields.table [DecidableEq κ] {key : String → κ} {p : α → Prop} (h : Yields read p) :
    Yields (toTable? key read) fun t : Table κ α => ∀ e ∈ t.entries, p e.2 := by
  intro j t ht e he
  unfold toTable? at ht
  split at ht
  · obtain ⟨entries, hentries, ht⟩ := Option.bind_eq_some_iff.mp ht
    obtain rfl : Table.ofList entries = t := Option.some.inj ht
    have hlisted : e ∈ entries := Table.mem_of_get?_ofList (Table.mem_entries_iff.mp he)
    obtain ⟨m, -, hm⟩ := mem_of_mapM hentries e hlisted
    obtain ⟨value, hvalue, rfl⟩ := Option.map_eq_some_iff.mp hm
    exact h m.2 value hvalue
  · cases ht

end ExchangeRates.Json
