import Ftpii.Buffers
set_option autoImplicit false

/-!
REST and decimal numerals. Its conversion reads the integer constants of C, so that a leading zero
makes the rest octal, and stops behind the first one.
-/

namespace Ftpii
open StateProgram Prog Scanf

/-! ## Digits in two bases -/

theorem digitsValue_concat (base : Nat) (vs : List Nat) (v : Nat) :
    digitsValue base (vs ++ [v]) = digitsValue base vs * base + v := by simp [digitsValue]

theorem le_digitsValue {base v : Nat} (hb : 0 < base) {vs : List Nat} (h : v ∈ vs) :
    v ≤ digitsValue base vs := by
  induction vs using List.reverseRecOn with
  | nil => simp at h
  | append_singleton vs u ih =>
    rw [digitsValue_concat]
    rcases List.mem_append.mp h with hv | hv
    · exact (ih hv).trans ((Nat.le_mul_of_pos_right _ hb).trans (Nat.le_add_right _ _))
    · obtain rfl := List.mem_singleton.mp hv
      exact Nat.le_add_left _ _

/-- Read as octal up to the first digit that is not, a numeral keeps its value exactly up to 7. -/
theorem octal_eq_iff (vs : List Nat) :
    digitsValue 8 (vs.takeWhile (· < 8)) ≤ digitsValue 10 vs ∧
      (digitsValue 8 (vs.takeWhile (· < 8)) = digitsValue 10 vs ↔ digitsValue 10 vs ≤ 7) := by
  induction vs using List.reverseRecOn with
  | nil => simp [digitsValue]
  | append_singleton vs v ih =>
    obtain ⟨hle, hiff⟩ := ih
    rw [digitsValue_concat]
    by_cases hall : ∀ u ∈ vs ++ [v], u < 8
    · have hvs : ∀ u ∈ vs, u < 8 := fun u hu => hall u (by simp [hu])
      have hv : v < 8 := hall v (by simp)
      have htake : ∀ us : List Nat, (∀ u ∈ us, u < 8) → us.takeWhile (· < 8) = us := fun us hus =>
        List.takeWhile_eq_self_iff.mpr (by simpa using hus)
      rw [htake _ hvs] at hle hiff
      rw [htake _ hall, digitsValue_concat]
      omega
    · have hbig : 8 ≤ digitsValue 10 vs * 10 + v := by
        simp only [not_forall, not_lt] at hall
        obtain ⟨u, hu, h8⟩ := hall
        have hmem : u ≤ digitsValue 10 (vs ++ [v]) := le_digitsValue (by decide) hu
        rw [digitsValue_concat] at hmem
        omega
      have hsame : (vs ++ [v]).takeWhile (· < 8) = vs.takeWhile (· < 8) := by
        rw [List.takeWhile_append]
        split
        · rename_i hlen
          have hvs : vs.takeWhile (· < 8) = vs :=
            (List.takeWhile_prefix _).eq_of_length hlen
          have hv : ¬ v < 8 := by
            intro hv
            refine hall fun u hu => ?_
            rcases List.mem_append.mp hu with hu | hu
            · simpa using List.takeWhile_eq_self_iff.mp hvs u hu
            · exact List.mem_singleton.mp hu ▸ hv
          simp [hvs, hv]
        · rfl
      rw [hsame]
      omega

/-! ## Numerals -/

def Numeral (s : Str) : Prop := s ≠ [] ∧ ∀ c ∈ s, c.isDigit

instance (s : Str) : Decidable (Numeral s) :=
  @instDecidableAnd _ _ inferInstance (List.decidableBAll (fun c => c.isDigit) s)

def numeralValue (s : Str) : Nat := Nat.ofDigitChars 10 s 0

def digitValues (s : Str) : List Nat := s.map fun c => c.toNat - '0'.toNat

theorem takeDigits_octal {s : Str} (h : ∀ c ∈ s, c.isDigit) :
    (takeDigits 8 s).1 = (digitValues s).takeWhile (· < 8) := by
  induction s with
  | nil => rfl
  | cons c s ih =>
    have hc : c.isDigit := h c (by simp)
    have hs := ih fun d hd => h d (by simp [hd])
    simp only [Char.isDigit, Bool.and_eq_true, decide_eq_true_eq] at hc
    have hlo : '0' ≤ c := hc.1
    have hhi : c ≤ '9' := hc.2
    have hval : digitVal 8 c = if c.toNat - '0'.toNat < 8 then some (c.toNat - '0'.toNat) else none := by
      simp only [digitVal, hlo, hhi, and_self, if_true]
    have hvalues : digitValues (c :: s) = (c.toNat - '0'.toNat) :: digitValues s := rfl
    rw [hvalues]
    by_cases hlt : c.toNat - '0'.toNat < 8
    · simp only [takeDigits, hval.trans (if_pos hlt), hs]
      rw [List.takeWhile_cons_of_pos (by simpa using hlt)]
    · simp only [takeDigits, hval.trans (if_neg hlt)]
      rw [List.takeWhile_cons_of_neg (by simpa using hlt)]

/-! ## Integer constants -/

/-- The base of an integer constant of C, and the text its digits are read from. -/
def integerDigits : Str → Nat × Str
  | '0' :: 'x' :: cs => (16, cs)
  | '0' :: 'X' :: cs => (16, cs)
  | '0' :: cs => (8, '0' :: cs)
  | cs => (10, cs)

def IsDigitOf (base : Nat) (c : Char) : Bool := (digitVal base c).isSome

def StartsInteger (s : Str) : Bool := (integerDigits s).2.head?.any (IsDigitOf (integerDigits s).1)

def StartsNonzero (s : Str) : Bool :=
  ((integerDigits s).2.dropWhile (· = '0')).head?.any (IsDigitOf (integerDigits s).1)

theorem integerDigits_base (s : Str) : 0 < (integerDigits s).1 := by
  unfold integerDigits
  split <;> exact Nat.zero_lt_succ _

theorem digitVal_zero {base : Nat} (hb : 0 < base) : digitVal base '0' = some 0 := by
  simp [digitVal, hb]

theorem eq_of_digitVal_zero {base : Nat} {c : Char} (h : digitVal base c = some 0) : c = '0' := by
  simp only [digitVal, Option.ite_none_right_eq_some] at h
  obtain ⟨hlt, he⟩ := h
  have hzero := Option.some.inj he
  split at hzero
  · rename_i hc
    have hlo : '0'.toNat ≤ c.toNat := hc.1
    exact Char.ext (UInt32.toNat_inj.mp (by
      have hnat : c.toNat = '0'.toNat := by omega
      exact hnat))
  · split at hzero
    · omega
    · split at hzero
      · omega
      · omega

theorem takeDigits_nil_iff {base : Nat} {s : Str} :
    (takeDigits base s).1 = [] ↔ ¬ s.head?.any (IsDigitOf base) = true := by
  cases s with
  | nil => simp [takeDigits]
  | cons c s => cases hv : digitVal base c <;> simp [takeDigits, IsDigitOf, hv]

theorem digitsValue_zero_iff {base : Nat} (hb : 0 < base) {vs : List Nat} :
    digitsValue base vs = 0 ↔ ∀ v ∈ vs, v = 0 := by
  constructor
  · intro h v hv
    have hle := le_digitsValue hb hv
    omega
  · intro h
    induction vs using List.reverseRecOn with
    | nil => rfl
    | append_singleton vs v ih =>
      rw [digitsValue_concat, ih fun u hu => h u (by simp [hu]), h v (by simp)]
      simp

theorem takeDigits_zero_iff {base : Nat} (hb : 0 < base) (s : Str) :
    digitsValue base (takeDigits base s).1 = 0 ↔
      ¬ (s.dropWhile (· = '0')).head?.any (IsDigitOf base) = true := by
  rw [digitsValue_zero_iff hb]
  induction s with
  | nil => simp [takeDigits]
  | cons c s ih =>
    by_cases hc : c = '0'
    · subst hc
      simpa [takeDigits, digitVal_zero hb] using ih
    · cases hv : digitVal base c with
      | none => simp [takeDigits, hv, hc, IsDigitOf]
      | some v =>
        have hne : v ≠ 0 := fun he => hc (eq_of_digitVal_zero (he ▸ hv))
        simp [takeDigits, hv, hc, IsDigitOf, hne]

def integerValue (s : Str) : Nat :=
  digitsValue (integerDigits s).1 (takeDigits (integerDigits s).1 (integerDigits s).2).1

theorem scanUnsigned_value (s : Str) :
    (scanUnsigned s).map Prod.fst = if StartsInteger s then some (integerValue s) else none := by
  have hscan : ∀ base t (o : Option (Nat × Str)), integerDigits s = (base, t) →
      (o = if (takeDigits base t).1 = [] then none
        else some (digitsValue base (takeDigits base t).1, (takeDigits base t).2)) →
      o.map Prod.fst = if StartsInteger s then some (integerValue s) else none := by
    intro base t o hd ho
    have hnil := @takeDigits_nil_iff base t
    simp only [StartsInteger, integerValue, hd]
    rw [ho]
    by_cases hempty : (takeDigits base t).1 = []
    · rw [if_pos hempty, if_neg (hnil.mp hempty)]
      rfl
    · rw [if_neg hempty, if_pos (not_not.mp (hnil.not.mp hempty))]
      rfl
  unfold scanUnsigned
  split
  · refine hscan _ _ _ rfl ?_
    simp only
    generalize takeDigits 16 _ = d
    rcases d with ⟨_ | _, _⟩ <;> rfl
  · refine hscan _ _ _ rfl ?_
    simp only
    generalize takeDigits 16 _ = d
    rcases d with ⟨_ | _, _⟩ <;> rfl
  · rename_i cs hx hX
    have hd : integerDigits ('0' :: cs) = (8, '0' :: cs) := by
      unfold integerDigits
      split
      · rename_i he
        exact (hx _ (List.cons.inj he).2).elim
      · rename_i he
        exact (hX _ (List.cons.inj he).2).elim
      · rename_i he
        rw [he]
      · rename_i h0
        exact absurd rfl (h0 cs)
    refine hscan _ _ _ hd ?_
    simp only
    generalize takeDigits _ _ = d
    rcases d with ⟨_ | _, _⟩ <;> rfl
  · rename_i hx hX h0
    have hd : integerDigits s = (10, s) := by
      unfold integerDigits
      split
      · exact absurd rfl (hx _)
      · exact absurd rfl (hX _)
      · exact absurd rfl (h0 _)
      · rfl
    refine hscan _ _ _ hd ?_
    simp only
    generalize takeDigits _ _ = d
    rcases d with ⟨_ | _, _⟩ <;> rfl

theorem integerValue_zero_iff (s : Str) : integerValue s = 0 ↔ ¬ StartsNonzero s = true :=
  takeDigits_zero_iff (integerDigits_base s) _

/-! ## What REST accepts -/

/-- The sign of an argument, and what follows it. -/
def signed (s : Str) : Bool × Str := takeSign (s.dropWhile isSpace)

theorem scanLli_value (s : Str) :
    scanLli s = if StartsInteger (signed s).2
      then some (if (signed s).1 then max minLongLong (-(integerValue (signed s).2 : Int))
        else min maxLongLong (integerValue (signed s).2 : Int))
      else none := by
  have hvalue := scanUnsigned_value (signed s).2
  have hrun : scanLli s = ((scanUnsigned (signed s).2).map Prod.fst).map fun n : Nat =>
      if (signed s).1 then max minLongLong (-(n : Int)) else min maxLongLong (n : Int) := by
    simp only [scanLli, signed]
    cases scanUnsigned (takeSign (s.dropWhile isSpace)).2 <;> rfl
  rw [hrun, hvalue]
  by_cases hstart : StartsInteger (signed s).2 = true <;> simp only [hstart] <;> rfl

/-- REST accepts what begins with an integer constant that is not negative. -/
theorem scanLli_accepts_iff (s : Str) :
    (∃ k, scanLli s = some k ∧ 0 ≤ k) ↔
      StartsInteger (signed s).2 = true ∧ ¬ ((signed s).1 = true ∧ StartsNonzero (signed s).2 = true) := by
  have hzero := integerValue_zero_iff (signed s).2
  rw [scanLli_value]
  by_cases hstart : StartsInteger (signed s).2 = true
  · simp only [hstart, if_true, Option.some.injEq, exists_eq_left', true_and]
    cases (signed s).1 with
    | true =>
      simp only [if_true, true_and, minLongLong]
      rw [← hzero]
      omega
    | false =>
      simp only [Bool.false_eq_true, if_false, false_and, not_false_eq_true, iff_true, maxLongLong]
      omega
  · simp [hstart]

/-! ### Numerals -/

theorem Numeral.signed {s : Str} (h : Numeral s) : signed s = (false, s) := by
  obtain ⟨c, cs, rfl⟩ := List.exists_cons_of_ne_nil h.1
  have hc : c.isDigit := h.2 c (by simp)
  rw [Ftpii.signed, List.dropWhile_cons_of_neg (by simp [isSpace_of_isDigit hc]), takeSign_of_isDigit hc]

theorem Numeral.integerDigits {s : Str} (h : Numeral s) :
    integerDigits s = (if s.head? = some '0' then 8 else 10, s) := by
  have hx : ∀ c ∈ s, c ≠ 'x' ∧ c ≠ 'X' := by
    intro c hc
    have hdigit := h.2 c hc
    exact ⟨by rintro rfl; contradiction, by rintro rfl; contradiction⟩
  unfold Ftpii.integerDigits
  split
  · exact absurd rfl (hx 'x' (by simp)).1
  · exact absurd rfl (hx 'X' (by simp)).2
  · simp
  · rename_i h0
    have hhead : s.head? ≠ some '0' := by
      cases s with
      | nil => simp
      | cons c cs =>
        intro he
        obtain rfl : c = '0' := by simpa using he
        exact h0 cs rfl
    rw [if_neg hhead]

theorem Numeral.startsInteger {s : Str} (h : Numeral s) : StartsInteger s = true := by
  obtain ⟨c, cs, rfl⟩ := List.exists_cons_of_ne_nil h.1
  have hc : c.isDigit := h.2 c (by simp)
  rw [StartsInteger, h.integerDigits]
  by_cases h0 : c = '0'
  · subst h0
    simp [IsDigitOf, digitVal_zero]
  · simp [h0, IsDigitOf, digitVal_of_isDigit hc]

theorem Numeral.integerValue {s : Str} (h : Numeral s) :
    integerValue s = if s.head? = some '0' then digitsValue 8 ((digitValues s).takeWhile (· < 8))
      else numeralValue s := by
  rw [Ftpii.integerValue, h.integerDigits]
  split
  · rw [takeDigits_octal h.2]
  · have hall := takeDigits_append (t := []) h.2 rfl
    rw [List.append_nil] at hall
    rw [hall, digitsValue_map]
    rfl

theorem Numeral.integerValue_le {s : Str} (h : Numeral s) :
    Ftpii.integerValue s ≤ numeralValue s := by
  have hvalue : digitsValue 10 (digitValues s) = numeralValue s := digitsValue_map s
  rw [h.integerValue]
  split
  · rw [← hvalue]
    exact (octal_eq_iff (digitValues s)).1
  · exact le_refl _

theorem Numeral.integerValue_iff {s : Str} (h : Numeral s) :
    Ftpii.integerValue s = numeralValue s ↔ s.head? ≠ some '0' ∨ numeralValue s ≤ 7 := by
  have hoctal := (octal_eq_iff (digitValues s)).2
  have hvalue : digitsValue 10 (digitValues s) = numeralValue s := digitsValue_map s
  rw [h.integerValue]
  split
  · rename_i h0
    rw [hvalue] at hoctal
    simp [h0, hoctal]
  · rename_i h0
    simp [h0]

/-! ## REST -/

/-- REST took a numeral of 63 bits for its value, and refused everything else. -/
def RestExact (arg : Str) (s t : Session) : Prop :=
  (∀ n < 2 ^ 63, Numeral arg → numeralValue arg = n → t.client.restartMarker = n) ∧
    (¬ (Numeral arg ∧ numeralValue arg < 2 ^ 63) →
      t.Replied 501 "Syntax error in parameters.".toList ∧
        t.client.restartMarker = s.client.restartMarker)

/-- A numeral of 63 bits, without a leading zero unless it is at most 7; or, when it is no numeral,
a text that does not begin with an integer constant, or begins with a negative one. -/
def RestReads (arg : Str) : Prop :=
  if Numeral arg then numeralValue arg < 2 ^ 63 ∧ (arg.head? ≠ some '0' ∨ numeralValue arg ≤ 7)
  else ¬ StartsInteger (signed arg).2 = true ∨
    (signed arg).1 = true ∧ StartsNonzero (signed arg).2 = true

theorem ftpRest_refuses {arg : Str} (h : ¬ ∃ k, scanLli arg = some k ∧ 0 ≤ k) (s : Session) :
    ftpRest arg s = syntaxError s := by
  unfold ftpRest
  cases hk : scanLli arg with
  | none => rfl
  | some k =>
    have hneg : k < 0 := by
      by_contra hpos
      exact h ⟨k, hk, not_lt.mp hpos⟩
    simp only [if_pos hneg]

/-- REST reads decimal offsets exactly where its argument is as `RestReads` says. -/
theorem rest_decimal_iff (arg : Str) (s : Session) :
    RestExact arg s (ftpRest arg s).2 ↔ RestReads arg := by
  have haccepts := scanLli_accepts_iff arg
  by_cases hk : ∃ k, scanLli arg = some k ∧ 0 ≤ k
  · obtain ⟨k, hscan, hpos⟩ := hk
    have hrun := ftpRest_formats hscan hpos s
    have hmarker : (ftpRest arg s).2.client.restartMarker = k := by
      rw [hrun]
      rfl
    have hreply : (ftpRest arg s).2.Replied 350 (Sprintf.rest arg k).text := by
      rw [hrun]
      exact writeReply_replied 350 _ _
    have hno : ¬ (ftpRest arg s).2.Replied 501 "Syntax error in parameters.".toList := fun h =>
      absurd (hreply.unique h).1 (by decide)
    by_cases hn : Numeral arg
    · have hvalue := scanLli_value arg
      have hkept := hn.integerValue_iff
      rw [hn.signed, hscan, hn.startsInteger] at hvalue
      simp only [if_true, Bool.false_eq_true, if_false, Option.some.injEq, maxLongLong] at hvalue
      rw [RestReads, if_pos hn, ← hkept]
      constructor
      · rintro ⟨htaken, hrefused⟩
        have hlt : numeralValue arg < 2 ^ 63 := by
          by_contra hlarge
          exact hno (hrefused fun h => hlarge h.2).1
        have heq := htaken _ hlt hn rfl
        rw [hmarker] at heq
        have hsame : (integerValue arg : Int) = numeralValue arg := by
          have hle := hn.integerValue_le
          omega
        exact ⟨hlt, by exact_mod_cast hsame⟩
      · rintro ⟨hlt, heq⟩
        refine ⟨fun n _ _ he => ?_, fun h => absurd ⟨hn, hlt⟩ h⟩
        rw [hmarker]
        omega
    · rw [RestReads, if_neg hn]
      obtain ⟨hstart, hsign⟩ := haccepts.mp ⟨k, hscan, hpos⟩
      constructor
      · rintro ⟨-, hrefused⟩
        exact absurd (hrefused fun h => hn h.1).1 hno
      · rintro (h | h)
        · exact absurd hstart h
        · exact absurd h hsign
  · rw [ftpRest_refuses hk]
    have hreply : (syntaxError s).2.Replied 501 "Syntax error in parameters.".toList :=
      writeReply_replied 501 _ s
    have hstart : ¬ (StartsInteger (signed arg).2 = true ∧
        ¬ ((signed arg).1 = true ∧ StartsNonzero (signed arg).2 = true)) := haccepts.not.mp hk
    have hn : ¬ Numeral arg := by
      intro hn
      rw [hn.signed] at hstart
      exact hstart ⟨hn.startsInteger, by simp⟩
    rw [RestReads, if_neg hn]
    refine iff_of_true ⟨fun n _ h => absurd h hn, fun _ => ⟨hreply, rfl⟩⟩ ?_
    tauto

/-- REST 010 moves to 8. -/
theorem rest_octal :
    let s : Session := ⟨newClient directoryWorld 3 {}, directoryWorld⟩
    (ftpRest "010".toList s).2.client.restartMarker = 8 ∧
      ¬ RestExact "010".toList s (ftpRest "010".toList s).2 := by
  intro s
  have hmarker : (ftpRest "010".toList s).2.client.restartMarker = 8 := by
    have hscan : scanLli "010".toList = some 8 := by decide +kernel
    rw [ftpRest_formats hscan (by omega)]
    rfl
  refine ⟨hmarker, fun h => ?_⟩
  have hnumeral : Numeral "010".toList ∧ numeralValue "010".toList = 10 := by decide +kernel
  have hten := h.1 10 (by decide) hnumeral.1 hnumeral.2
  rw [hmarker] at hten
  exact absurd hten (by decide)

end Ftpii
