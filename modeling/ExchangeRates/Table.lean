namespace ExchangeRates

/-- A finite map from `κ` to `ν`. A key has one entry; the order of the entries is the order in
which the map is enumerated. -/
structure Table (κ ν : Type) where
  entries : List (κ × ν)
  nodup : (entries.map Prod.fst).Nodup

namespace Table

variable {κ ν μ : Type}

/-- The map without entries. -/
def empty : Table κ ν := ⟨[], List.nodup_nil⟩

instance : Inhabited (Table κ ν) := ⟨empty⟩

/-- The keys, in the order of enumeration. -/
def keys (t : Table κ ν) : List κ := t.entries.map Prod.fst

/-- The number of entries. -/
def size (t : Table κ ν) : Nat := t.entries.length

/-- Whether the map has no entry. -/
def isEmpty (t : Table κ ν) : Bool := t.entries.isEmpty

/-- The same keys with other values. -/
def map (f : κ → ν → μ) (t : Table κ ν) : Table κ μ where
  entries := t.entries.map fun e => (e.1, f e.1 e.2)
  nodup := by simpa [List.map_map, Function.comp_def] using t.nodup

/-- The same keys with other values, which may depend on the place of an entry. -/
def mapIdx (f : Nat → κ → ν → μ) (t : Table κ ν) : Table κ μ where
  entries := t.entries.mapIdx fun i e => (e.1, f i e.1 e.2)
  nodup := by
    have hkeys : (t.entries.mapIdx fun i e => (e.1, f i e.1 e.2)).map Prod.fst =
        t.entries.map Prod.fst := by
      apply List.ext_getElem <;> simp
    exact hkeys ▸ t.nodup

/-- The entries that satisfy a predicate. -/
def filter (p : κ → ν → Bool) (t : Table κ ν) : Table κ ν where
  entries := t.entries.filter fun e => p e.1 e.2
  nodup := t.nodup.sublist (List.filter_sublist.map Prod.fst)

variable [DecidableEq κ]

/-- The value of the first entry of a key. -/
def lookup (k : κ) : List (κ × ν) → Option ν
  | [] => none
  | e :: rest => if e.1 = k then some e.2 else lookup k rest

/-- Gives a key's entry a new value, or adds an entry at the end. -/
def upsert (k : κ) (v : ν) : List (κ × ν) → List (κ × ν)
  | [] => [(k, v)]
  | e :: rest => if e.1 = k then (k, v) :: rest else e :: upsert k v rest

theorem mem_map_fst_upsert {k x : κ} {v : ν} {l : List (κ × ν)} :
    x ∈ (upsert k v l).map Prod.fst ↔ x = k ∨ x ∈ l.map Prod.fst := by
  induction l with
  | nil => simp [upsert]
  | cons e rest ih =>
    unfold upsert
    split
    · next he => subst he; simp
    · simp only [List.map_cons, List.mem_cons, ih]
      exact or_left_comm

theorem nodup_upsert {k : κ} {v : ν} {l : List (κ × ν)} (h : (l.map Prod.fst).Nodup) :
    ((upsert k v l).map Prod.fst).Nodup := by
  induction l with
  | nil => simp [upsert]
  | cons e rest ih =>
    rw [List.map_cons, List.nodup_cons] at h
    unfold upsert
    split
    · next he => subst he; exact List.nodup_cons.mpr h
    · next he =>
      refine List.nodup_cons.mpr ⟨?_, ih h.2⟩
      rw [mem_map_fst_upsert]
      exact not_or.mpr ⟨he, h.1⟩

theorem lookup_upsert (k x : κ) (v : ν) (l : List (κ × ν)) :
    lookup x (upsert k v l) = if k = x then some v else lookup x l := by
  induction l with
  | nil => simp [upsert, lookup]
  | cons e rest ih =>
    unfold upsert
    split
    · next he => subst he; by_cases hx : e.1 = x <;> simp [lookup, hx]
    · next he =>
      by_cases hx : e.1 = x
      · have hkx : k ≠ x := fun h => he (hx.trans h.symm)
        simp [lookup, hx, hkx]
      · simp [lookup, hx, ih]

theorem lookup_eq_none_iff {k : κ} {l : List (κ × ν)} :
    lookup k l = none ↔ k ∉ l.map Prod.fst := by
  induction l with
  | nil => simp [lookup]
  | cons e rest ih =>
    unfold lookup
    split
    · next he => simp [he]
    · next he => simp [ih, Ne.symm he]

theorem mem_of_lookup {k : κ} {v : ν} {l : List (κ × ν)} (h : lookup k l = some v) :
    (k, v) ∈ l := by
  induction l with
  | nil => simp [lookup] at h
  | cons e rest ih =>
    unfold lookup at h
    split at h
    · next he =>
      obtain rfl := Option.some.inj h
      simp [← he]
    · exact List.mem_cons_of_mem _ (ih h)

theorem lookup_of_mem {k : κ} {v : ν} {l : List (κ × ν)} (hl : (l.map Prod.fst).Nodup)
    (h : (k, v) ∈ l) : lookup k l = some v := by
  induction l with
  | nil => simp at h
  | cons e rest ih =>
    rw [List.map_cons, List.nodup_cons] at hl
    unfold lookup
    rcases List.mem_cons.mp h with rfl | h
    · simp
    · have hne : e.1 ≠ k := fun he => hl.1 (he ▸ List.mem_map.mpr ⟨(k, v), h, rfl⟩)
      rw [if_neg hne]
      exact ih hl.2 h

/-- The value of a key. -/
def get? (t : Table κ ν) (k : κ) : Option ν := lookup k t.entries

/-- Whether a key has an entry. -/
def contains (t : Table κ ν) (k : κ) : Bool := (t.get? k).isSome

/-- Gives a key a value, in the place of its earlier entry if it has one. -/
def insert (t : Table κ ν) (k : κ) (v : ν) : Table κ ν where
  entries := upsert k v t.entries
  nodup := nodup_upsert t.nodup

/-- Inserts entries in order: of two with one key the later wins. -/
def insertAll (t : Table κ ν) (l : List (κ × ν)) : Table κ ν :=
  l.foldl (fun acc e => acc.insert e.1 e.2) t

/-- The map of a list of entries, in which the last entry of a key counts. -/
def ofList (l : List (κ × ν)) : Table κ ν := empty.insertAll l

/-- The first map with the entries of the second put over it. -/
def override (t u : Table κ ν) : Table κ ν := t.insertAll u.entries

@[simp] theorem get?_empty (k : κ) : (empty : Table κ ν).get? k = none := rfl

@[simp] theorem get?_insert (t : Table κ ν) (k x : κ) (v : ν) :
    (t.insert k v).get? x = if k = x then some v else t.get? x :=
  lookup_upsert k x v t.entries

theorem mem_entries_iff {t : Table κ ν} {k : κ} {v : ν} :
    (k, v) ∈ t.entries ↔ t.get? k = some v :=
  ⟨lookup_of_mem t.nodup, mem_of_lookup⟩

theorem mem_keys_iff {t : Table κ ν} {k : κ} : k ∈ t.keys ↔ (t.get? k).isSome := by
  rw [← Option.ne_none_iff_isSome, Ne, get?, lookup_eq_none_iff, Classical.not_not]
  rfl

theorem get?_map (f : κ → ν → μ) (t : Table κ ν) (k : κ) :
    (t.map f).get? k = (t.get? k).map (f k) := by
  show lookup k (t.entries.map _) = (lookup k t.entries).map _
  induction t.entries with
  | nil => rfl
  | cons e rest ih =>
    simp only [List.map_cons, lookup]
    split
    · next he => subst he; rfl
    · exact ih

theorem get?_filter (p : κ → ν → Bool) (t : Table κ ν) (k : κ) :
    (t.filter p).get? k = (t.get? k).filter (p k) := by
  obtain ⟨l, hl⟩ := t
  show lookup k (l.filter _) = (lookup k l).filter _
  induction l with
  | nil => rfl
  | cons e rest ih =>
    rw [List.map_cons, List.nodup_cons] at hl
    by_cases hk : e.1 = k
    · subst hk
      cases hp : p e.1 e.2 with
      | true => simp [hp, lookup, Option.filter]
      | false =>
        have hnone : lookup e.1 (rest.filter fun e => p e.1 e.2) = none := by
          rw [lookup_eq_none_iff]
          exact fun h => hl.1 ((List.filter_sublist.map Prod.fst).subset h)
        simp [hp, lookup, hnone, Option.filter]
    · cases hp : p e.1 e.2 <;> simp [hp, lookup, hk, ih hl.2]

/-- A lookup after several insertions sees the last that is for its key. -/
theorem get?_insertAll (t : Table κ ν) (l : List (κ × ν)) (k : κ) :
    (t.insertAll l).get? k =
      ((l.reverse.find? fun e => e.1 == k).map Prod.snd).or (t.get? k) := by
  unfold insertAll
  induction l generalizing t with
  | nil => simp
  | cons e rest ih =>
    rw [List.foldl_cons, ih, get?_insert, List.reverse_cons, List.find?_append]
    by_cases hk : e.1 = k <;> cases rest.reverse.find? (fun e => e.1 == k) <;> simp [hk]

theorem get?_ofList (l : List (κ × ν)) (k : κ) :
    (ofList l).get? k = (l.reverse.find? fun e => e.1 == k).map Prod.snd := by
  rw [ofList, get?_insertAll, get?_empty, Option.or_none]

/-- Where the second map has a value it wins. -/
theorem get?_override (t u : Table κ ν) (k : κ) :
    (t.override u).get? k = (u.get? k).or (t.get? k) := by
  rw [override, get?_insertAll]
  congr 1
  cases hu : u.get? k with
  | none =>
    rw [Option.map_eq_none_iff, List.find?_eq_none]
    intro e he
    have hkeys : k ∉ u.entries.map Prod.fst := lookup_eq_none_iff.mp hu
    simp only [beq_iff_eq]
    exact fun hk => hkeys (List.mem_map.mpr ⟨e, by simpa using he, hk⟩)
  | some v =>
    have hmem := mem_entries_iff.mpr hu
    cases hfind : u.entries.reverse.find? (fun e => e.1 == k) with
    | none =>
      rw [List.find?_eq_none] at hfind
      exact absurd (by simp) (hfind (k, v) (by simpa using hmem))
    | some e =>
      have he := List.mem_of_find?_eq_some hfind
      have hk : e.1 = k := by simpa using List.find?_some hfind
      have hv : u.get? k = some e.2 := mem_entries_iff.mp (by rw [← hk]; simpa using he)
      rw [Option.map_some, ← hv, hu]

end Table

end ExchangeRates
