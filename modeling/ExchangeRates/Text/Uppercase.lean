import ExchangeRates.Text.WhiteSpace
import ExchangeRates.Text.Uppercase.Runs

namespace ExchangeRates.Text

namespace Uppercase

/-- Whether a run holds the code point `n`. -/
def Run.holds (run : Run) (n : Nat) : Bool :=
  Nat.ble run.first n && Nat.ble n run.last && Nat.beq ((n - run.first) % run.step) 0

/-- The code points of the uppercase of the code point `n`. -/
def codes (n : Nat) : List Nat :=
  match expansions.lookup n with
  | some sequence => sequence
  | none =>
    match runs.find? (·.holds n) with
    | some run => [run.target + (n - run.first)]
    | none => [n]

/-- A code point that is its own uppercase. -/
def isFixed (n : Nat) : Bool :=
  (expansions.all fun entry => !Nat.beq n entry.1) && runs.all fun run => !run.holds n

/-- The last of the uppercase letters of a run. -/
def Run.targetLast (run : Run) : Nat :=
  run.target + (run.last - run.first)

/-- The uppercase letters of a run. -/
def Run.targets (run : Run) : List Nat :=
  (List.range ((run.last - run.first) / run.step + 1)).map fun k => run.target + k * run.step

/-- Whether a predicate that fails outside `low` to `high` fails at all uppercase letters of a
run: these are tried one by one only if the two intervals overlap. -/
def Run.misses (run : Run) (low high : Nat) (p : Nat → Bool) : Bool :=
  Nat.blt run.targetLast low || Nat.blt high run.target || run.targets.all fun n => !p n

theorem codes_of_isFixed {n : Nat} (h : isFixed n = true) : codes n = [n] := by
  simp only [isFixed, Bool.and_eq_true, List.all_eq_true, Bool.not_eq_true'] at h
  have hlookup : expansions.lookup n = none := by
    rw [List.lookup_eq_none_iff]
    intro entry hentry
    have hne := h.1 entry hentry
    exact bne_iff_ne.mpr (Nat.ne_of_beq_eq_false hne)
  have hfind : runs.find? (·.holds n) = none := by
    rw [List.find?_eq_none]
    intro run hrun
    simp [h.2 run hrun]
  simp [codes, hlookup, hfind]

theorem Run.mem_targets {run : Run} {n : Nat} (h : run.holds n = true) :
    run.target + (n - run.first) ∈ run.targets := by
  simp only [Run.holds, Bool.and_eq_true, Nat.ble_eq, Nat.beq_eq] at h
  obtain ⟨⟨hfirst, hlast⟩, hstep⟩ := h
  refine List.mem_map.mpr ⟨(n - run.first) / run.step, ?_, ?_⟩
  · rw [List.mem_range]
    exact Nat.lt_succ_of_le (Nat.div_le_div_right (by omega))
  · rw [Nat.div_mul_cancel (Nat.dvd_of_mod_eq_zero hstep)]

theorem Run.not_of_misses {run : Run} {low high n : Nat} {p : Nat → Bool}
    (hp : ∀ m, p m = true → low ≤ m ∧ m ≤ high) (h : run.misses low high p = true)
    (hn : run.holds n = true) : p (run.target + (n - run.first)) = false := by
  cases hpn : p (run.target + (n - run.first)) with
  | false => rfl
  | true =>
    obtain ⟨hlow, hhigh⟩ := hp _ hpn
    have hmem := Run.mem_targets hn
    simp only [Run.holds, Bool.and_eq_true, Nat.ble_eq] at hn
    simp only [Run.misses, Bool.or_eq_true, Nat.blt_eq, Run.targetLast, List.all_eq_true,
      Bool.not_eq_true'] at h
    rcases h with (h | h) | h
    · omega
    · omega
    · rw [h _ hmem] at hpn
      exact hpn.symm

set_option maxRecDepth 10000 in
/-- No uppercase letter of a run lies in a run. -/
theorem runs_miss_runs :
    (runs.all fun run => runs.all fun other =>
      run.misses other.first other.last other.holds) = true := by
  decide +kernel

set_option maxRecDepth 10000 in
/-- No uppercase letter of a run expands. -/
theorem runs_miss_expansions :
    (runs.all fun run => expansions.all fun entry =>
      run.misses entry.1 entry.1 (Nat.beq · entry.1)) = true := by
  decide +kernel

set_option maxRecDepth 10000 in
/-- No uppercase letter of a run is white space. -/
theorem runs_miss_white :
    (runs.all fun run => whiteBlocks.all fun block =>
      run.misses block.1 block.2 fun n => Nat.ble block.1 n && Nat.ble n block.2) = true := by
  decide +kernel

set_option maxRecDepth 10000 in
/-- The uppercase letters of a run are characters. -/
theorem runs_valid :
    (runs.all fun run => Nat.blt run.targetLast 0xd800 ||
      Nat.blt 0xdfff run.target && Nat.blt run.targetLast 0x110000) = true := by
  decide +kernel

set_option maxRecDepth 10000 in
/-- The letters of an expansion are fixed characters, none is white space, and there is one at
least. -/
theorem expansions_sound :
    (expansions.all fun entry => !entry.2.isEmpty &&
      entry.2.all fun n => isFixed n && !isWhiteCode n && decide n.isValidChar) = true := by
  decide +kernel

/-- The code points of an uppercase are uppercase. -/
theorem codes_of_mem_codes {n m : Nat} (h : m ∈ codes n) : codes m = [m] := by
  unfold codes at h
  split at h
  · next sequence hlookup =>
    obtain ⟨pre, post, hsplit, -⟩ := List.lookup_eq_some_iff.mp hlookup
    have hentry : (n, sequence) ∈ expansions := by rw [hsplit]; simp
    have hsound := List.all_eq_true.mp expansions_sound _ hentry
    simp only [Bool.and_eq_true, List.all_eq_true] at hsound
    exact codes_of_isFixed (hsound.2 m h).1.1
  · next hlookup =>
    split at h
    · next run hfind =>
      rw [List.mem_singleton] at h
      subst h
      have hrun := List.mem_of_find?_eq_some hfind
      have hholds := List.find?_some hfind
      refine codes_of_isFixed ?_
      simp only [isFixed, Bool.and_eq_true, List.all_eq_true, Bool.not_eq_true']
      constructor
      · intro entry hentry
        have hmiss := List.all_eq_true.mp (List.all_eq_true.mp runs_miss_expansions run hrun)
          entry hentry
        refine Run.not_of_misses (p := (Nat.beq · entry.1)) ?_ hmiss hholds
        intro k hk
        have := Nat.eq_of_beq_eq_true hk
        omega
      · intro other hother
        have hmiss := List.all_eq_true.mp (List.all_eq_true.mp runs_miss_runs run hrun)
          other hother
        refine Run.not_of_misses ?_ hmiss hholds
        intro k hk
        simp only [Run.holds, Bool.and_eq_true, Nat.ble_eq] at hk
        exact hk.1
    · next hfind =>
      rw [List.mem_singleton] at h
      subst h
      simp [codes, hlookup, hfind]

/-- Every code point has an uppercase. -/
theorem codes_ne_nil (n : Nat) : codes n ≠ [] := by
  unfold codes
  split
  · next sequence hlookup =>
    obtain ⟨pre, post, hsplit, -⟩ := List.lookup_eq_some_iff.mp hlookup
    have hentry : (n, sequence) ∈ expansions := by rw [hsplit]; simp
    have hsound := List.all_eq_true.mp expansions_sound _ hentry
    simp only [Bool.and_eq_true, Bool.not_eq_true', List.isEmpty_eq_false_iff] at hsound
    exact hsound.1
  · split <;> simp

/-- No white space comes out of a code point that is none. -/
theorem isWhiteCode_of_mem_codes {n m : Nat} (h : m ∈ codes n) (hn : isWhiteCode n = false) :
    isWhiteCode m = false := by
  unfold codes at h
  split at h
  · next sequence hlookup =>
    obtain ⟨pre, post, hsplit, -⟩ := List.lookup_eq_some_iff.mp hlookup
    have hentry : (n, sequence) ∈ expansions := by rw [hsplit]; simp
    have hsound := List.all_eq_true.mp expansions_sound _ hentry
    simp only [Bool.and_eq_true, List.all_eq_true, Bool.not_eq_true'] at hsound
    exact (hsound.2 m h).1.2
  · split at h
    · next run hfind =>
      rw [List.mem_singleton] at h
      subst h
      have hrun := List.mem_of_find?_eq_some hfind
      have hholds := List.find?_some hfind
      simp only [isWhiteCode, List.any_eq_false]
      intro block hblock
      have hmiss := List.all_eq_true.mp (List.all_eq_true.mp runs_miss_white run hrun) block hblock
      have hfalse := Run.not_of_misses (by
        intro k hk
        simpa only [Bool.and_eq_true, Nat.ble_eq] using hk) hmiss hholds
      simp only [Bool.and_eq_true, decide_eq_true_eq]
      intro hin
      rw [Nat.ble_eq_true_of_le hin.1, Nat.ble_eq_true_of_le hin.2] at hfalse
      exact Bool.noConfusion hfalse
    · rw [List.mem_singleton] at h
      rw [h]
      exact hn

/-- The uppercase of a character consists of characters. -/
theorem isValidChar_of_mem_codes {n m : Nat} (h : m ∈ codes n) (hn : n.isValidChar) :
    m.isValidChar := by
  unfold codes at h
  split at h
  · next sequence hlookup =>
    obtain ⟨pre, post, hsplit, -⟩ := List.lookup_eq_some_iff.mp hlookup
    have hentry : (n, sequence) ∈ expansions := by rw [hsplit]; simp
    have hsound := List.all_eq_true.mp expansions_sound _ hentry
    simp only [Bool.and_eq_true, List.all_eq_true, decide_eq_true_eq] at hsound
    exact (hsound.2 m h).2
  · split at h
    · next run hfind =>
      rw [List.mem_singleton] at h
      subst h
      have hrun := List.mem_of_find?_eq_some hfind
      have hholds := List.find?_some hfind
      have hvalid := List.all_eq_true.mp runs_valid run hrun
      simp only [Run.holds, Bool.and_eq_true, Nat.ble_eq] at hholds
      simp only [Bool.or_eq_true, Bool.and_eq_true, Nat.blt_eq, Run.targetLast] at hvalid
      unfold Nat.isValidChar
      omega
    · rw [List.mem_singleton] at h
      rw [h]
      exact hn

end Uppercase

/-- The uppercase of a character. -/
def upperChar (c : Char) : List Char :=
  (Uppercase.codes c.toNat).map Char.ofNat

/-- The uppercase of a text. -/
def uppercase (cs : List Char) : List Char :=
  cs.flatMap upperChar

theorem toNat_ofNat {n : Nat} (h : n.isValidChar) : (Char.ofNat n).toNat = n := by
  rw [Char.ofNat, dif_pos h]
  show (BitVec.ofNatLT n _).toNat = n
  simp

theorem toNat_of_mem_upperChar {c d : Char} (h : d ∈ upperChar c) :
    d.toNat ∈ Uppercase.codes c.toNat ∧ d = Char.ofNat d.toNat := by
  obtain ⟨m, hm, rfl⟩ := List.mem_map.mp h
  have hvalid := Uppercase.isValidChar_of_mem_codes hm c.valid
  rw [toNat_ofNat hvalid]
  exact ⟨hm, rfl⟩

/-- The letters of an uppercase are their own uppercase. -/
theorem upperChar_of_mem_upperChar {c d : Char} (h : d ∈ upperChar c) : upperChar d = [d] := by
  obtain ⟨hmem, heq⟩ := toNat_of_mem_upperChar h
  rw [upperChar, Uppercase.codes_of_mem_codes hmem, List.map_singleton, ← heq]

theorem upperChar_ne_nil (c : Char) : upperChar c ≠ [] := by
  simpa [upperChar] using Uppercase.codes_ne_nil c.toNat

theorem isWhite_of_mem_upperChar {c d : Char} (h : d ∈ upperChar c) (hc : isWhite c = false) :
    isWhite d = false :=
  Uppercase.isWhiteCode_of_mem_codes (toNat_of_mem_upperChar h).1 hc

theorem upperChar_of_mem_uppercase {cs : List Char} {d : Char} (h : d ∈ uppercase cs) :
    upperChar d = [d] := by
  obtain ⟨c, -, hdc⟩ := List.mem_flatMap.mp h
  exact upperChar_of_mem_upperChar hdc

/-- A text of letters that are their own uppercase is its own uppercase. -/
theorem uppercase_eq_self {cs : List Char} (h : ∀ c ∈ cs, upperChar c = [c]) :
    uppercase cs = cs := by
  induction cs with
  | nil => rfl
  | cons c rest ih =>
    rw [uppercase, List.flatMap_cons, h c (by simp)]
    exact congrArg (c :: ·) (ih fun d hd => h d (by simp [hd]))

theorem uppercase_uppercase (cs : List Char) : uppercase (uppercase cs) = uppercase cs :=
  uppercase_eq_self fun _ => upperChar_of_mem_uppercase

theorem uppercase_append (cs ds : List Char) :
    uppercase (cs ++ ds) = uppercase cs ++ uppercase ds :=
  List.flatMap_append

theorem trimmed_uppercase {cs : List Char} (h : Trimmed cs) : Trimmed (uppercase cs) := by
  constructor
  · intro d hd
    cases cs with
    | nil => simp [uppercase] at hd
    | cons c rest =>
      cases hupper : upperChar c with
      | nil => exact absurd hupper (upperChar_ne_nil c)
      | cons e es =>
        rw [uppercase, List.flatMap_cons, hupper] at hd
        have hde : d ∈ upperChar c := by
          rw [hupper]
          simp_all
        exact isWhite_of_mem_upperChar hde (h.1 c (by simp))
  · intro d hd
    rcases List.eq_nil_or_concat cs with rfl | ⟨front, c, rfl⟩
    · simp [uppercase] at hd
    · rw [List.concat_eq_append] at hd h
      rw [uppercase_append, List.getLast?_append] at hd
      have hsingle : uppercase [c] = upperChar c := by simp [uppercase]
      cases hlast : (upperChar c).getLast? with
      | none => exact absurd (List.getLast?_eq_none_iff.mp hlast) (upperChar_ne_nil c)
      | some e =>
        rw [hsingle, hlast] at hd
        have hde : d ∈ upperChar c := by
          have hed : e = d := by simpa using hd
          rw [← hed]
          exact List.mem_of_getLast? hlast
        exact isWhite_of_mem_upperChar hde (h.2 c (by simp))

end ExchangeRates.Text
