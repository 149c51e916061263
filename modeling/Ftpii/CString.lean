import Mathlib.Data.List.Infix
import Mathlib.Data.List.TakeWhile
set_option autoImplicit false

/-!
C strings in a character array: where a NUL-terminated text is stored, how it is
cut in place, and how it is searched. Case is folded in the C locale.
-/

namespace CString

/-- The text read from position p up to the first NUL. -/
def cstr (mem : List Char) (p : Nat) : List Char := (mem.drop p).takeWhile (· ≠ '\x00')

/-- Overwrite the array from p with s. -/
def store (mem : List Char) (p : Nat) (s : List Char) : List Char :=
  mem.take p ++ s ++ mem.drop (p + s.length)

/-- The array holds s at p with its NUL behind it. -/
def Holds (mem : List Char) (p : Nat) (s : List Char) : Prop :=
  '\x00' ∉ s ∧ ∃ rest, mem.drop p = s ++ '\x00' :: rest

theorem Holds.cstr {mem s : List Char} {p : Nat} (h : Holds mem p s) : cstr mem p = s := by
  obtain ⟨hs, rest, hr⟩ := h
  have ha : ∀ c ∈ s, (decide (c ≠ '\x00')) = true := by
    intro c hc
    have hn : c ≠ '\x00' := fun he => hs (he ▸ hc)
    simpa using hn
  rw [CString.cstr, hr, List.takeWhile_append_of_pos ha]
  simp

theorem Holds.length_lt {mem s : List Char} {p : Nat} (h : Holds mem p s) :
    p + s.length < mem.length := by
  obtain ⟨_, rest, hr⟩ := h
  have hl := congrArg List.length hr
  simp at hl
  omega

theorem drop_set_of_le {mem : List Char} {i p : Nat} (c : Char) (h : p ≤ i) :
    (mem.set i c).drop p = (mem.drop p).set (i - p) c := by
  rw [List.drop_set]
  simp [Nat.not_lt.mpr h]

theorem Holds.cut_left {mem l t : List Char} {c : Char} {p : Nat}
    (h : Holds mem p (l ++ c :: t)) : Holds (mem.set (p + l.length) '\x00') p l := by
  obtain ⟨hs, rest, hr⟩ := h
  refine ⟨fun hl => hs (by simp [hl]), t ++ '\x00' :: rest, ?_⟩
  rw [drop_set_of_le _ (by omega), hr]
  simp

theorem Holds.cut {buf t : List Char} {k : Nat} (h : Holds buf 0 t) (hk : k ≤ t.length) :
    Holds (buf.set k '\x00') 0 (t.take k) := by
  rcases Nat.lt_or_eq_of_le hk with hlt | rfl
  · have hcut := Holds.cut_left (l := t.take k) (t := t.drop (k + 1)) (c := t[k])
      (by simpa using h)
    simpa [hlt.le] using hcut
  · obtain ⟨hs, rest, hr⟩ := h
    rw [List.drop_zero] at hr
    exact ⟨by simpa using hs, rest, by simp [hr]⟩

theorem holds_put {buf t : List Char} {k : Nat} {c : Char} (htake : buf.take k = t) (hn : '\x00' ∉ t)
    (hc : c ≠ '\x00') (hk : k + 1 < buf.length) :
    Holds ((buf.set k c).set (k + 1) '\x00') 0 (t ++ [c]) := by
  obtain ⟨x, y, rest, rfl⟩ : ∃ x y rest, buf = t ++ x :: y :: rest :=
    ⟨buf[k], buf[k + 1], buf.drop (k + 2), by rw [← htake]; simp⟩
  have hlen : t.length = k := by
    rw [← htake, List.length_take]
    omega
  refine ⟨by simp [hn, hc.symm], rest, ?_⟩
  simp [← hlen]

theorem Holds.cut_right {mem l m t : List Char} {p : Nat} (hm : m ≠ [])
    (h : Holds mem p (l ++ m ++ t)) :
    Holds (mem.set (p + l.length) '\x00') (p + l.length + m.length) t := by
  obtain ⟨hs, rest, hr⟩ := h
  have hpos := List.length_pos_of_ne_nil hm
  refine ⟨fun ht => hs (by simp [ht]), rest, ?_⟩
  rw [List.drop_set_of_lt (by omega)]
  have hd := congrArg (List.drop (l ++ m).length) hr
  rw [List.drop_drop, List.append_assoc (l ++ m), List.drop_left] at hd
  rw [← hd]
  congr 1
  simp
  omega

theorem holds_store {mem s t : List Char} {p : Nat} (hs : mem.take p = s)
    (hp : p ≤ mem.length) (hn : '\x00' ∉ s ++ t) :
    Holds (store (store mem p t) (p + t.length) ['\x00']) 0 (s ++ t) := by
  refine ⟨hn, mem.drop (p + t.length + 1), ?_⟩
  have hl : s.length = p := by rw [← hs]; simp [hp]
  have ht : (store mem p t).take (p + t.length) = s ++ t := by
    simp only [store, hs]
    rw [List.take_append_of_le_length (by simp [hl])]
    rw [List.take_of_length_le (by simp [hl])]
  have hd : (store mem p t).drop (p + t.length + 1) = mem.drop (p + t.length + 1) := by
    simp only [store, hs]
    rw [List.drop_append]
    have h0 : (s ++ t).drop (p + t.length + 1) = [] := by simp [hl]
    rw [h0, List.nil_append, List.drop_drop]
    congr 1
    simp [hl]
  rw [List.drop_zero, store, ht]
  simp [hd]

/-- What is read where a text was written with a NUL behind it: all of it, unless it has a NUL. -/
theorem cstr_store_length {mem t : List Char} {p : Nat} (hp : p ≤ mem.length) :
    (cstr (store (store mem p t) (p + t.length) ['\x00']) p).length = t.length ↔ '\x00' ∉ t := by
  have hl : (mem.take p).length = p := by simp [hp]
  have htake : (store mem p t).take (p + t.length) = mem.take p ++ t := by
    rw [store, List.take_append_of_le_length (by simp [hl]), List.take_of_length_le (by simp [hl])]
  have hdrop : (store (store mem p t) (p + t.length) ['\x00']).drop p =
      t ++ '\x00' :: (store mem p t).drop (p + t.length + 1) := by
    rw [store, htake, List.append_assoc, List.append_assoc, List.drop_append,
      List.drop_of_length_le (by omega)]
    simp [hl]
  have hself : (t.takeWhile (· ≠ '\x00')).length = t.length ↔ '\x00' ∉ t := by
    constructor
    · intro h hm
      have he := (List.takeWhile_prefix (l := t) (· ≠ '\x00')).eq_of_length h
      simpa using List.takeWhile_eq_self_iff.mp he _ hm
    · intro hn
      rw [List.takeWhile_eq_self_iff.mpr]
      intro c hc
      have hne : c ≠ '\x00' := fun he => hn (he ▸ hc)
      simpa using hne
  rw [cstr, hdrop, List.takeWhile_append]
  split
  · rename_i he
    simp [hself.mp he]
  · rename_i he
    simp only [he, false_iff]
    exact fun hn => he (hself.mpr hn)

@[simp] theorem length_store {mem s : List Char} {p : Nat} (h : p + s.length ≤ mem.length) :
    (store mem p s).length = mem.length := by
  simp [store]
  omega

@[simp] theorem take_store {mem s : List Char} : (store mem 0 s).take s.length = s := by
  simp [store]

/-- The position of the first occurrence of a text. -/
def strstr (needle : List Char) : List Char → Option Nat
  | [] => if needle = [] then some 0 else none
  | c :: cs => if needle <+: c :: cs then some 0 else (strstr needle cs).map (· + 1)

theorem strstr_some {needle hay : List Char} {i : Nat} (h : strstr needle hay = some i) :
    hay = hay.take i ++ needle ++ hay.drop (i + needle.length) ∧ i + needle.length ≤ hay.length := by
  induction hay generalizing i with
  | nil =>
    simp only [strstr] at h
    split at h
    · rename_i hn
      cases h
      simp [hn]
    · contradiction
  | cons c cs ih =>
    simp only [strstr] at h
    split at h
    · rename_i hp
      cases h
      obtain ⟨t, ht⟩ := hp
      rw [← ht]
      simp
    · simp only [Option.map_eq_some_iff] at h
      obtain ⟨j, hj, rfl⟩ := h
      obtain ⟨he, hl⟩ := ih hj
      refine ⟨?_, by simp; omega⟩
      have hadd : j + 1 + needle.length = (j + needle.length) + 1 := by omega
      rw [hadd]
      simp only [List.take_succ_cons, List.drop_succ_cons, List.cons_append]
      exact congrArg (c :: ·) he

theorem strstr_none {needle hay : List Char} : strstr needle hay = none ↔ ¬ needle <:+: hay := by
  induction hay with
  | nil => simp [strstr]
  | cons c cs ih =>
    simp only [strstr]
    split
    · rename_i hp
      simpa using hp.isInfix
    · rename_i hp
      simp [ih, List.infix_cons_iff, hp]

def strrchr (c : Char) : List Char → Option Nat
  | [] => none
  | x :: xs =>
    match strrchr c xs with
    | some i => some (i + 1)
    | none => if x = c then some 0 else none

theorem strrchr_of_not_mem {c : Char} {s : List Char} (h : c ∉ s) : strrchr c s = none := by
  induction s with
  | nil => rfl
  | cons x xs ih =>
    have hx : x ≠ c := fun he => h (by simp [he])
    have ht : c ∉ xs := fun hm => h (List.mem_cons_of_mem _ hm)
    simp [strrchr, ih ht, hx]

theorem strrchr_append {c : Char} (s : List Char) {t : List Char} (h : c ∉ t) :
    strrchr c (s ++ c :: t) = some s.length := by
  induction s with
  | nil => simp [strrchr, strrchr_of_not_mem h]
  | cons x xs ih => simp [strrchr, ih]

/-- Case folding of the C locale. -/
def fold (s : List Char) : List Char := s.map Char.toLower

@[simp] theorem fold_append (s t : List Char) : fold (s ++ t) = fold s ++ fold t := by simp [fold]

@[simp] theorem fold_cons (c : Char) (s : List Char) : fold (c :: s) = c.toLower :: fold s := rfl

@[simp] theorem fold_nil : fold [] = [] := rfl

@[simp] theorem length_fold (s : List Char) : (fold s).length = s.length := by simp [fold]

/-- `strcasecmp` reports equality. -/
def caseEq (s t : List Char) : Bool := fold s == fold t

@[simp] theorem caseEq_iff {s t : List Char} : caseEq s t = true ↔ fold s = fold t := by
  simp [caseEq]

end CString
