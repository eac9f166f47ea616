import ExchangeRates.Table
import Mathlib.Data.List.Nodup

namespace ExchangeRates.Table

variable {κ ν μ : Type}

theorem ext_entries {t u : Table κ ν} (h : t.entries = u.entries) : t = u := by
  cases t
  cases u
  simp_all

/-- The same map, enumerated in another order. -/
def reorder (t : Table κ ν) (l : List (κ × ν)) (h : t.entries.Perm l) : Table κ ν where
  entries := l
  nodup := (h.map Prod.fst).nodup_iff.mp t.nodup

theorem size_mapIdx (f : Nat → κ → ν → μ) (t : Table κ ν) : (t.mapIdx f).size = t.size :=
  List.length_mapIdx

theorem keys_mapIdx (f : Nat → κ → ν → μ) (t : Table κ ν) : (t.mapIdx f).keys = t.keys := by
  apply List.ext_getElem <;> simp [keys, mapIdx]

theorem mapIdx_mapIdx {ρ : Type} (f : Nat → κ → ν → μ) (g : Nat → κ → μ → ρ) (t : Table κ ν) :
    (t.mapIdx f).mapIdx g = t.mapIdx fun i k v => g i k (f i k v) :=
  ext_entries List.mapIdx_mapIdx

theorem mapIdx_self (t : Table κ ν) : (t.mapIdx fun _ _ v => v) = t := by
  apply ext_entries
  apply List.ext_getElem
  · exact List.length_mapIdx
  · intro i _ _
    exact List.getElem_mapIdx ..

variable [DecidableEq κ]

theorem exists_place_iff {t : Table κ ν} {k : κ} {v : ν} :
    (∃ i : Nat, t.entries[i]? = some (k, v)) ↔ t.get? k = some v := by
  rw [← mem_entries_iff, List.mem_iff_getElem?]

theorem get?_mapIdx {f : Nat → κ → ν → μ} {t : Table κ ν} {i : Nat} {k : κ} {v : ν}
    (h : t.entries[i]? = some (k, v)) : (t.mapIdx f).get? k = some (f i k v) := by
  rw [← exists_place_iff]
  refine ⟨i, ?_⟩
  rw [mapIdx, List.getElem?_mapIdx, h]
  rfl

theorem get?_mapIdx_eq_none_iff {f : Nat → κ → ν → μ} {t : Table κ ν} {k : κ} :
    (t.mapIdx f).get? k = none ↔ t.get? k = none := by
  rw [get?, get?, lookup_eq_none_iff, lookup_eq_none_iff, ← keys, ← keys, keys_mapIdx]

theorem upsert_of_not_mem {k : κ} {v : ν} {l : List (κ × ν)} (h : k ∉ l.map Prod.fst) :
    upsert k v l = l ++ [(k, v)] := by
  induction l with
  | nil => rfl
  | cons e l ih =>
    rw [List.map_cons, List.mem_cons, not_or] at h
    rw [upsert, if_neg (Ne.symm h.1), ih h.2, List.cons_append]

/-- Entries of new keys are added at the end. -/
theorem entries_insertAll {t : Table κ ν} {l : List (κ × ν)}
    (h : ((t.entries ++ l).map Prod.fst).Nodup) : (t.insertAll l).entries = t.entries ++ l := by
  induction l generalizing t with
  | nil => simp [insertAll]
  | cons e l ih =>
    have hnew : e.1 ∉ t.entries.map Prod.fst := by
      rw [List.map_append, List.map_cons] at h
      exact fun hmem => (List.nodup_append.mp h).2.2 _ hmem _ List.mem_cons_self rfl
    have hentries : (t.insert e.1 e.2).entries = t.entries ++ [e] := upsert_of_not_mem hnew
    change ((t.insert e.1 e.2).insertAll l).entries = _
    rw [ih, hentries, List.append_assoc, List.singleton_append]
    rwa [hentries, List.append_assoc, List.singleton_append]

theorem entries_ofList {l : List (κ × ν)} (h : (l.map Prod.fst).Nodup) :
    (ofList l).entries = l :=
  entries_insertAll h

/-- A list of entries gives a key the value of the last entry that has it. -/
theorem get?_ofList_eq_some_iff {l : List (κ × ν)} {k : κ} {v : ν} :
    (ofList l).get? k = some v ↔
      ∃ before after, l = before ++ (k, v) :: after ∧ ∀ e ∈ after, e.1 ≠ k := by
  rw [get?_ofList, Option.map_eq_some_iff]
  constructor
  · rintro ⟨e, hfind, rfl⟩
    obtain ⟨hk, after, before, heq, hafter⟩ := List.find?_eq_some_iff_append.mp hfind
    obtain rfl : e.1 = k := by simpa using hk
    refine ⟨before.reverse, after.reverse, by simpa using congrArg List.reverse heq, ?_⟩
    simpa using hafter
  · rintro ⟨before, after, rfl, hafter⟩
    refine ⟨(k, v), List.find?_eq_some_iff_append.mpr ?_, rfl⟩
    exact ⟨by simp, after.reverse, before.reverse, by simp, by simpa using hafter⟩

theorem isSome_get?_ofList_iff {l : List (κ × ν)} {k : κ} :
    ((ofList l).get? k).isSome ↔ ∃ e ∈ l, e.1 = k := by
  simp [get?_ofList]

theorem mem_of_get?_ofList {l : List (κ × ν)} {k : κ} {v : ν} (h : (ofList l).get? k = some v) :
    (k, v) ∈ l := by
  obtain ⟨before, after, rfl, -⟩ := get?_ofList_eq_some_iff.mp h
  exact List.mem_append_right before List.mem_cons_self

theorem ofList_entries (t : Table κ ν) : ofList t.entries = t :=
  ext_entries (entries_ofList t.nodup)

/-- A map is known by its lookups, whatever the order of its entries is. -/
theorem get?_eq_of_perm {t u : Table κ ν} (h : t.entries.Perm u.entries) : t.get? = u.get? := by
  funext k
  ext v
  rw [← mem_entries_iff, ← mem_entries_iff, h.mem_iff]

theorem perm_of_get?_eq {t u : Table κ ν} (h : t.get? = u.get?) : t.entries.Perm u.entries := by
  refine (List.perm_ext_iff_of_nodup (List.Nodup.of_map _ t.nodup)
    (List.Nodup.of_map _ u.nodup)).mpr ?_
  rintro ⟨k, v⟩
  rw [mem_entries_iff, mem_entries_iff, h]

/-- Any entry may be the first. -/
theorem exists_perm_cons {t : Table κ ν} {k : κ} {v : ν} (h : t.get? k = some v) :
    ∃ l, t.entries.Perm ((k, v) :: l) := by
  obtain ⟨before, after, hentries⟩ := List.append_of_mem (mem_entries_iff.mpr h)
  refine ⟨before ++ after, ?_⟩
  rw [hentries]
  exact List.perm_middle

/-- Any entry may be the first, and the second if there are two. -/
theorem exists_perm_cons_cons {t : Table κ ν} {k : κ} {v : ν} (h : t.get? k = some v)
    (hsize : 2 ≤ t.size) :
    ∃ e l, t.entries.Perm ((k, v) :: e :: l) ∧ t.entries.Perm (e :: (k, v) :: l) := by
  obtain ⟨l, hperm⟩ := exists_perm_cons h
  have hlength : t.size = l.length + 1 := hperm.length_eq
  cases l with
  | nil =>
    rw [List.length_nil] at hlength
    omega
  | cons e l => exact ⟨e, l, hperm, hperm.trans (.swap _ _ _)⟩

end ExchangeRates.Table
