import Mathlib.Data.BitVec
import Mathlib.Data.List.Basic
import Mathlib.Tactic.Ring
set_option autoImplicit false

/-!
Flat memories with addresses of w bits: ranges, copies between ranges, and copies made one after
the other that might as well be made all at once.
-/

namespace AddressSpace

variable {w : Nat} {β : Type}

abbrev Memory (w : Nat) (β : Type) : Type := BitVec w → β

/-- The address a lies among the n from p on. -/
def Within (a p : BitVec w) (n : Nat) : Prop := (a - p).toNat < n

instance (a p : BitVec w) (n : Nat) : Decidable (Within a p n) :=
  inferInstanceAs (Decidable ((a - p).toNat < n))

def Apart (p : BitVec w) (n : Nat) (q : BitVec w) (m : Nat) : Prop :=
  ∀ a, Within a p n → ¬ Within a q m

theorem Apart.symm {p q : BitVec w} {n m : Nat} (h : Apart p n q m) : Apart q m p n :=
  fun a ha hb => h a hb ha

theorem apart_of_le {p q : BitVec w} {n m : Nat} (h : p.toNat + n ≤ q.toNat)
    (hm : q.toNat + m ≤ 2 ^ w) : Apart p n q m := by
  intro a hp hq
  have ha := a.isLt
  simp only [Within, BitVec.toNat_sub] at hp hq
  have hpl := p.isLt
  have hql := q.isLt
  rcases Nat.lt_or_ge a.toNat p.toNat with hlt | hge
  · rw [Nat.mod_eq_of_lt (by omega)] at hp
    omega
  · have hmod : (2 ^ w - p.toNat + a.toNat) % 2 ^ w = a.toNat - p.toNat := by
      rw [Nat.mod_eq_sub_mod (by omega), Nat.mod_eq_of_lt (by omega)]
      omega
    rw [hmod] at hp
    rw [Nat.mod_eq_of_lt (by omega)] at hq
    omega

theorem within_shift {a p q : BitVec w} {n : Nat} : Within (q + (a - p)) q n ↔ Within a p n := by
  have hsub : q + (a - p) - q = a - p := by ring
  rw [Within, Within, hsub]

/-! ## Copies -/

/-- n bytes from src to dst, as if through a buffer of their own. -/
def memmove (mem : Memory w β) (dst src : BitVec w) (n : Nat) : Memory w β :=
  fun a => if Within a dst n then mem (src + (a - dst)) else mem a

theorem memmove_within {mem : Memory w β} {dst src a : BitVec w} {n : Nat} (h : Within a dst n) :
    memmove mem dst src n a = mem (src + (a - dst)) := if_pos h

theorem memmove_outside {mem : Memory w β} {dst src a : BitVec w} {n : Nat}
    (h : ¬ Within a dst n) : memmove mem dst src n a = mem a := if_neg h

structure Copy (w : Nat) where
  dst : BitVec w
  src : BitVec w
  n : Nat

def Copy.run (mem : Memory w β) (c : Copy w) : Memory w β := memmove mem c.dst c.src c.n

def Copy.Writes (c : Copy w) (a : BitVec w) : Prop := Within a c.dst c.n

instance (c : Copy w) (a : BitVec w) : Decidable (c.Writes a) :=
  inferInstanceAs (Decidable (Within a c.dst c.n))

/-- All copies at once: each address has the byte of the first one that writes it. -/
def written (cs : List (Copy w)) (mem : Memory w β) : Memory w β := fun a =>
  match cs.find? fun c => c.Writes a with
  | some c => mem (c.src + (a - c.dst))
  | none => mem a

@[simp] theorem written_nil (mem : Memory w β) : written [] mem = mem := rfl

theorem written_outside {cs : List (Copy w)} {mem : Memory w β} {a : BitVec w}
    (h : ∀ c ∈ cs, ¬ c.Writes a) : written cs mem a = mem a := by
  have hnone : cs.find? (fun c => c.Writes a) = none := by simpa using h
  simp only [written, hnone]

/-- Nothing that is written where c writes. -/
def Copy.ApartFrom (c d : Copy w) : Prop := Apart c.dst c.n d.dst d.n

theorem written_within {cs : List (Copy w)} {mem : Memory w β} {a : BitVec w} {c : Copy w}
    (hpair : cs.Pairwise Copy.ApartFrom) (hc : c ∈ cs) (ha : c.Writes a) :
    written cs mem a = mem (c.src + (a - c.dst)) := by
  have hfind : cs.find? (fun c => c.Writes a) = some c := by
    induction cs with
    | nil => simp at hc
    | cons d cs ih =>
      obtain ⟨hd, hcs⟩ := List.pairwise_cons.mp hpair
      rcases List.mem_cons.mp hc with rfl | hc
      · simp [ha]
      · have hnot : ¬ d.Writes a := fun hw => hd c hc a hw ha
        rw [List.find?_cons_of_neg (by simpa using hnot)]
        exact ih hcs hc
  simp only [written, hfind]

/-- One more copy, away from the earlier ones and not of anything they wrote. -/
theorem run_written {cs : List (Copy w)} {mem : Memory w β} {c : Copy w}
    (hdst : ∀ d ∈ cs, d.ApartFrom c) (hsrc : ∀ d ∈ cs, Apart d.dst d.n c.src c.n) :
    c.run (written cs mem) = written (cs ++ [c]) mem := by
  funext a
  by_cases ha : c.Writes a
  · have hbefore : ∀ d ∈ cs, ¬ d.Writes a := fun d hd hw => hdst d hd a hw ha
    have hsource : ∀ d ∈ cs, ¬ d.Writes (c.src + (a - c.dst)) := fun d hd hw =>
      hsrc d hd _ hw (within_shift.mpr ha)
    have hfind : (cs ++ [c]).find? (fun c => c.Writes a) = some c := by
      rw [List.find?_append, List.find?_eq_none.mpr (by simpa using hbefore)]
      simp [ha]
    rw [Copy.run, memmove_within ha, written_outside hsource]
    simp only [written, hfind]
  · rw [Copy.run, memmove_outside ha]
    have hfind : (cs ++ [c]).find? (fun c => c.Writes a) = cs.find? fun c => c.Writes a := by
      rw [List.find?_append]
      simp [ha]
    simp only [written, hfind]

/-! ## Big-endian words -/

def word (mem : Memory w (BitVec 8)) (a : BitVec w) : BitVec 32 :=
  mem a ++ mem (a + 1#w) ++ mem (a + 2#w) ++ mem (a + 3#w)

theorem word_congr {mem mem' : Memory w (BitVec 8)} {p a : BitVec w} {n k : Nat}
    (h : ∀ a, Within a p n → mem' a = mem a) (ha : a = p + BitVec.ofNat w k) (hk : k + 4 ≤ n)
    (hn : n ≤ 2 ^ w) : word mem' a = word mem a := by
  have hin : ∀ i < 4, Within (a + BitVec.ofNat w i) p n := by
    intro i hi
    have hsub : a + BitVec.ofNat w i - p = BitVec.ofNat w (k + i) := by
      rw [ha, BitVec.ofNat_add]
      ring
    rw [Within, hsub, BitVec.toNat_ofNat, Nat.mod_eq_of_lt (by omega)]
    omega
  have h0 := h _ (hin 0 (by decide))
  have h1 := h _ (hin 1 (by decide))
  have h2 := h _ (hin 2 (by decide))
  have h3 := h _ (hin 3 (by decide))
  rw [BitVec.add_zero] at h0
  simp only [word, h0, h1, h2, h3]

/-! ## Words stored -/

theorem add_sub_offset (p : BitVec w) (k : BitVec w) : p + k - p = k := by ring

theorem within_offset {p : BitVec w} {k n : Nat} (hk : k < n) (hn : n ≤ 2 ^ w) :
    Within (p + BitVec.ofNat w k) p n := by
  rw [Within, add_sub_offset, BitVec.toNat_ofNat, Nat.mod_eq_of_lt (by omega)]
  exact hk

theorem within_iff {a p : BitVec w} {n : Nat} (hn : n ≤ 2 ^ w) :
    Within a p n ↔ ∃ k < n, a = p + BitVec.ofNat w k := by
  constructor
  · intro h
    refine ⟨(a - p).toNat, h, ?_⟩
    rw [BitVec.ofNat_toNat, BitVec.setWidth_eq]
    ring
  · rintro ⟨k, hk, rfl⟩
    exact within_offset hk hn

def storeWord (mem : Memory w (BitVec 8)) (p : BitVec w) (v : BitVec 32) : Memory w (BitVec 8) :=
  fun a => if Within a p 4 then v.extractLsb' (8 * (3 - (a - p).toNat)) 8 else mem a

theorem storeWord_outside {mem : Memory w (BitVec 8)} {p a : BitVec w} {v : BitVec 32}
    (h : ¬ Within a p 4) : storeWord mem p v a = mem a := if_neg h

theorem storeWord_offset (mem : Memory w (BitVec 8)) (p : BitVec w) (v : BitVec 32) {k : Nat}
    (hk : k < 4) (hw : 4 ≤ 2 ^ w) :
    storeWord mem p v (p + BitVec.ofNat w k) = v.extractLsb' (8 * (3 - k)) 8 := by
  have hin : Within (p + BitVec.ofNat w k) p 4 := within_offset hk hw
  rw [storeWord, if_pos hin, add_sub_offset, BitVec.toNat_ofNat, Nat.mod_eq_of_lt (by omega)]

theorem append_bytes (v : BitVec 32) :
    v.extractLsb' 24 8 ++ v.extractLsb' 16 8 ++ v.extractLsb' 8 8 ++ v.extractLsb' 0 8 = v := by
  ext i hi
  simp only [BitVec.getElem_append, BitVec.getElem_extractLsb']
  grind

theorem word_storeWord {mem : Memory w (BitVec 8)} {p : BitVec w} {v : BitVec 32}
    (hw : 4 ≤ 2 ^ w) : word (storeWord mem p v) p = v := by
  have h0 := storeWord_offset mem p v (show 0 < 4 by decide) hw
  have h1 := storeWord_offset mem p v (show 1 < 4 by decide) hw
  have h2 := storeWord_offset mem p v (show 2 < 4 by decide) hw
  have h3 := storeWord_offset mem p v (show 3 < 4 by decide) hw
  rw [BitVec.add_zero] at h0
  simp only [word, h0, h1, h2, h3]
  exact append_bytes v

theorem word_copy {mem mem' : Memory w (BitVec 8)} {p q : BitVec w} {n k : Nat}
    (h : ∀ a, Within a q n → mem' a = mem (p + (a - q))) (hk : k + 4 ≤ n) (hn : n ≤ 2 ^ w) :
    word mem' (q + BitVec.ofNat w k) = word mem (p + BitVec.ofNat w k) := by
  have hbyte : ∀ i < 4, mem' (q + BitVec.ofNat w k + BitVec.ofNat w i) =
      mem (p + BitVec.ofNat w k + BitVec.ofNat w i) := by
    intro i hi
    rw [BitVec.add_assoc, BitVec.add_assoc, ← BitVec.ofNat_add, h _ (within_offset (by omega) hn),
      add_sub_offset]
  have h0 := hbyte 0 (by decide)
  have h1 := hbyte 1 (by decide)
  have h2 := hbyte 2 (by decide)
  have h3 := hbyte 3 (by decide)
  rw [BitVec.add_zero, BitVec.add_zero] at h0
  simp only [word, h0, h1, h2, h3]

/-! ## Records -/

def storeFields (p : BitVec w) (fields : List (Nat × BitVec 32)) (mem : Memory w (BitVec 8)) :
    Memory w (BitVec 8) :=
  fields.foldl (fun mem f => storeWord mem (p + BitVec.ofNat w f.1) f.2) mem

def FieldsApart (f g : Nat × BitVec 32) : Prop := f.1 + 4 ≤ g.1 ∨ g.1 + 4 ≤ f.1

section Records

variable {mem : Memory w (BitVec 8)} {p : BitVec w} {n : Nat} {fields : List (Nat × BitVec 32)}

theorem within_field {a : BitVec w} {k : Nat} (hk : k + 4 ≤ n) (hn : n ≤ 2 ^ w)
    (h : Within a (p + BitVec.ofNat w k) 4) : Within a p n := by
  obtain ⟨i, hi, rfl⟩ := (within_iff (by omega)).mp h
  rw [BitVec.add_assoc, ← BitVec.ofNat_add]
  exact within_offset (by omega) hn

theorem apart_fields {j k : Nat} (hj : j + 4 ≤ n) (hk : k + 4 ≤ n) (hn : n ≤ 2 ^ w)
    (h : j + 4 ≤ k ∨ k + 4 ≤ j) : Apart (p + BitVec.ofNat w j) 4 (p + BitVec.ofNat w k) 4 := by
  intro a ha hb
  obtain ⟨i, hi, rfl⟩ := (within_iff (by omega)).mp ha
  obtain ⟨l, hl, he⟩ := (within_iff (by omega)).mp hb
  have hsame : BitVec.ofNat w (j + i) = BitVec.ofNat w (k + l) := by
    have hcancel := congrArg (fun a => a - p) he
    simp only [BitVec.add_assoc, ← BitVec.ofNat_add, add_sub_offset] at hcancel
    exact hcancel
  have hnat := congrArg BitVec.toNat hsame
  rw [BitVec.toNat_ofNat, BitVec.toNat_ofNat, Nat.mod_eq_of_lt (by omega),
    Nat.mod_eq_of_lt (by omega)] at hnat
  omega

theorem storeFields_outside (hn : n ≤ 2 ^ w) (hf : ∀ f ∈ fields, f.1 + 4 ≤ n) {a : BitVec w}
    (ha : ¬ Within a p n) : storeFields p fields mem a = mem a := by
  induction fields generalizing mem with
  | nil => rfl
  | cons f fields ih =>
    have hout : ¬ Within a (p + BitVec.ofNat w f.1) 4 := fun h =>
      ha (within_field (hf f (by simp)) hn h)
    have hrest := @ih (storeWord mem (p + BitVec.ofNat w f.1) f.2) fun g hg => hf g (by simp [hg])
    exact hrest.trans (storeWord_outside hout)

theorem word_storeFields_apart (hn : n ≤ 2 ^ w) (hf : ∀ f ∈ fields, f.1 + 4 ≤ n)
    {f : Nat × BitVec 32} (hk : f.1 + 4 ≤ n) (hapart : ∀ g ∈ fields, FieldsApart f g) :
    word (storeFields p fields mem) (p + BitVec.ofNat w f.1) =
      word mem (p + BitVec.ofNat w f.1) := by
  induction fields generalizing mem with
  | nil => rfl
  | cons g fields ih =>
    have hkept : word (storeWord mem (p + BitVec.ofNat w g.1) g.2) (p + BitVec.ofNat w f.1) =
        word mem (p + BitVec.ofNat w f.1) := by
      refine word_congr (p := p + BitVec.ofNat w f.1) (n := 4) (k := 0) (fun a ha => ?_)
        (by simp) (by decide) (by omega)
      exact storeWord_outside (apart_fields hk (hf g (by simp)) hn (hapart g (by simp)) a ha)
    have hrest := @ih (storeWord mem (p + BitVec.ofNat w g.1) g.2) (fun h hh => hf h (by simp [hh]))
      fun h hh => hapart h (by simp [hh])
    exact hrest.trans hkept

theorem word_storeFields (hn : n ≤ 2 ^ w) (hf : ∀ f ∈ fields, f.1 + 4 ≤ n)
    (hapart : fields.Pairwise FieldsApart) {f : Nat × BitVec 32} (h : f ∈ fields) :
    word (storeFields p fields mem) (p + BitVec.ofNat w f.1) = f.2 := by
  induction fields generalizing mem with
  | nil => simp at h
  | cons g fields ih =>
    obtain ⟨hg, hrest⟩ := List.pairwise_cons.mp hapart
    have hin : ∀ h ∈ fields, h.1 + 4 ≤ n := fun h hh => hf h (by simp [hh])
    rcases List.mem_cons.mp h with rfl | h
    · have hk := hf f (by simp)
      have hkept : word (storeFields p fields (storeWord mem (p + BitVec.ofNat w f.1) f.2))
          (p + BitVec.ofNat w f.1) =
          word (storeWord mem (p + BitVec.ofNat w f.1) f.2) (p + BitVec.ofNat w f.1) :=
        word_storeFields_apart hn hin hk hg
      exact hkept.trans (word_storeWord (by omega))
    · exact ih hin hrest h

end Records

end AddressSpace
