import Mathlib.Algebra.Ring.Int.Defs
import Mathlib.Algebra.Ring.Nat
import Mathlib.Data.List.TakeWhile
set_option autoImplicit false

/-! The integer conversions of printf and scanf, as the C standard describes them. -/

namespace Scanf

/-- %u of a natural number. -/
def decimal (n : Nat) : List Char := Nat.toDigits 10 n

def isSpace (c : Char) : Bool :=
  c = ' ' || c = '\t' || c = '\n' || c = '\x0b' || c = '\x0c' || c = '\r'

def digitVal (base : Nat) (c : Char) : Option Nat :=
  let v :=
    if '0' ≤ c ∧ c ≤ '9' then c.toNat - '0'.toNat
    else if 'a' ≤ c ∧ c ≤ 'z' then c.toNat - 'a'.toNat + 10
    else if 'A' ≤ c ∧ c ≤ 'Z' then c.toNat - 'A'.toNat + 10
    else base
  if v < base then some v else none

/-- The longest run of digits, as its values, and what follows. -/
def takeDigits (base : Nat) : List Char → List Nat × List Char
  | [] => ([], [])
  | c :: cs =>
    match digitVal base c with
    | none => ([], c :: cs)
    | some v => (v :: (takeDigits base cs).1, (takeDigits base cs).2)

def digitsValue (base : Nat) (vs : List Nat) : Nat := vs.foldl (fun n v => n * base + v) 0

def takeSign : List Char → Bool × List Char
  | '-' :: cs => (true, cs)
  | '+' :: cs => (false, cs)
  | cs => (false, cs)

/-- The digits of %i: hexadecimal after 0x, octal after 0, decimal otherwise. -/
def scanUnsigned (s : List Char) : Option (Nat × List Char) :=
  let scan (base : Nat) (s : List Char) :=
    match takeDigits base s with
    | ([], _) => none
    | (vs, rest) => some (digitsValue base vs, rest)
  match s with
  | '0' :: 'x' :: cs => scan 16 cs
  | '0' :: 'X' :: cs => scan 16 cs
  | '0' :: cs => scan 8 ('0' :: cs)
  | cs => scan 10 cs

def maxLongLong : Int := 2 ^ 63 - 1
def minLongLong : Int := -2 ^ 63

/-- sscanf(s, "%lli"): saturating, text behind the number ignored. -/
def scanLli (s : List Char) : Option Int :=
  let (negative, digits) := takeSign (s.dropWhile isSpace)
  match scanUnsigned digits with
  | none => none
  | some (n, _) =>
    some (if negative then max minLongLong (-(n : Int)) else min maxLongLong (n : Int))

/-- One %3u conversion: at most three characters, the sign among them. -/
def scanU3 (s : List Char) : Option (Nat × List Char) :=
  let s := s.dropWhile isSpace
  let (negative, digits) := takeSign s
  let width := 3 - (s.length - digits.length)
  match takeDigits 10 (digits.take width) with
  | ([], _) => none
  | (vs, _) =>
    let n := digitsValue 10 vs
    some (if negative then (2 ^ 32 - n) % 2 ^ 32 else n, digits.drop vs.length)

/-- sscanf with k further "%3u" conversions, each after a comma. -/
def scanU3List : Nat → List Char → Option (List Nat)
  | 0, s => (scanU3 s).map fun r => [r.1]
  | k + 1, s =>
    match scanU3 s with
    | some (n, ',' :: rest) => (scanU3List k rest).map (n :: ·)
    | _ => none

/-! ## Reading back -/

theorem digitVal_of_isDigit {c : Char} (h : c.isDigit) : digitVal 10 c = some (c.toNat - '0'.toNat) := by
  simp only [Char.isDigit, Bool.and_eq_true, decide_eq_true_eq] at h
  have hlo : '0' ≤ c := h.1
  have hhi : c ≤ '9' := h.2
  have hle : c.toNat ≤ 57 := hhi
  have hz : '0'.toNat = 48 := rfl
  have hlt : c.toNat - '0'.toNat < 10 := by omega
  simp only [digitVal, hlo, hhi, and_self, if_true, if_pos hlt]

theorem takeDigits_append {ds t : List Char} (h : ∀ c ∈ ds, c.isDigit)
    (ht : takeDigits 10 t = ([], t)) :
    takeDigits 10 (ds ++ t) = (ds.map fun c => c.toNat - '0'.toNat, t) := by
  induction ds with
  | nil => exact ht
  | cons d ds ih =>
    have hd := digitVal_of_isDigit (h d (by simp))
    have hds := ih fun c hc => h c (by simp [hc])
    simp only [List.cons_append, takeDigits, hd, hds, List.map_cons]

theorem digitsValue_map (ds : List Char) :
    digitsValue 10 (ds.map fun c => c.toNat - '0'.toNat) = Nat.ofDigitChars 10 ds 0 := by
  simp only [digitsValue, Nat.ofDigitChars_eq_foldl, List.foldl_map, Nat.mul_comm]

/-- The number is at its end, or a comma follows. -/
def NumberEnds (t : List Char) : Prop := t = [] ∨ ∃ u, t = ',' :: u

theorem NumberEnds.take {t : List Char} (h : NumberEnds t) (n : Nat) :
    takeDigits 10 (t.take n) = ([], t.take n) := by
  rcases h with rfl | ⟨u, rfl⟩
  · simp [takeDigits]
  · cases n with
    | zero => rfl
    | succ n => simp [takeDigits, digitVal]

theorem takeSign_of_isDigit {d : Char} (h : d.isDigit) (cs : List Char) :
    takeSign (d :: cs) = (false, d :: cs) := by
  unfold takeSign
  split
  · rename_i he
    obtain ⟨rfl, -⟩ := by simpa using he
    contradiction
  · rename_i he
    obtain ⟨rfl, -⟩ := by simpa using he
    contradiction
  · rfl

theorem isSpace_of_isDigit {d : Char} (h : d.isDigit) : isSpace d = false := by
  rw [Bool.eq_false_iff]
  intro hs
  simp only [isSpace, Bool.or_eq_true, decide_eq_true_eq] at hs
  rcases hs with ((((rfl | rfl) | rfl) | rfl) | rfl) | rfl <;> contradiction

/-- What %u printed with at most three digits, %3u reads back. -/
theorem scanU3_decimal {n : Nat} (hn : n < 1000) {t : List Char} (ht : NumberEnds t) :
    scanU3 (decimal n ++ t) = some (n, t) := by
  have hdigits : ∀ c ∈ decimal n, c.isDigit := fun c hc =>
    Nat.isDigit_of_mem_toDigits (by decide) (by decide) hc
  have hlen : (decimal n).length ≤ 3 :=
    (Nat.length_toDigits_le_iff (by decide) (by decide)).mpr hn
  have hvalue : digitsValue 10 ((decimal n).map fun c => c.toNat - '0'.toNat) = n := by
    rw [digitsValue_map, decimal, Nat.ofDigitChars_ten_toDigits]
  obtain ⟨d, ds, he⟩ : ∃ d ds, decimal n = d :: ds :=
    List.exists_cons_of_ne_nil Nat.toDigits_ne_nil
  have hd : d.isDigit := hdigits d (by simp [he])
  have hdrop : (decimal n ++ t).dropWhile isSpace = decimal n ++ t := by
    simp [he, isSpace_of_isDigit hd]
  have hsign : takeSign (decimal n ++ t) = (false, decimal n ++ t) := by
    rw [he]
    exact takeSign_of_isDigit hd _
  have htake : takeDigits 10 ((decimal n ++ t).take 3) =
      ((decimal n).map fun c => c.toNat - '0'.toNat, t.take (3 - (decimal n).length)) := by
    rw [List.take_append, List.take_of_length_le hlen]
    exact takeDigits_append hdigits (ht.take _)
  simp only [scanU3, hdrop, hsign, Nat.sub_self, Nat.sub_zero, htake]
  rw [he] at hvalue ⊢
  simpa using hvalue

end Scanf
