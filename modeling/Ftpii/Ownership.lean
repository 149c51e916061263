import Mathlib.Data.Set.Card
import Mathlib.Data.Set.Insert
import Mathlib.Logic.Function.Basic
set_option autoImplicit false

/-!
Resources and their holders: whatever is open is held, each thing by one holder. A
holder that opens or closes something needs to know of the others only what they
have between them.
-/

namespace Ownership

variable {ι ρ : Type}

/-- What is open is what somebody holds, and nothing is held twice. -/
structure Owned (opened : Set ρ) (holds : ι → Set ρ) : Prop where
  held : ∀ r, r ∈ opened ↔ ∃ i, r ∈ holds i
  once : ∀ r i j, r ∈ holds i → r ∈ holds j → i = j

def others (holds : ι → Set ρ) (i : ι) : Set ρ := {r | ∃ j, j ≠ i ∧ r ∈ holds j}

/-- The same for one holder: what is open is its own or in the rest, and nothing is both. -/
structure Share (rest opened mine : Set ρ) : Prop where
  held : ∀ r, r ∈ opened ↔ r ∈ mine ∨ r ∈ rest
  apart : ∀ r ∈ mine, r ∉ rest

theorem Owned.share {opened : Set ρ} {holds : ι → Set ρ} (h : Owned opened holds) (i : ι) :
    Share (others holds i) opened (holds i) where
  held r := by
    rw [h.held]
    constructor
    · intro ⟨j, hj⟩
      by_cases he : j = i
      · exact .inl (he ▸ hj)
      · exact .inr ⟨j, he, hj⟩
    · intro hr
      cases hr with
      | inl hi => exact ⟨i, hi⟩
      | inr ho =>
        obtain ⟨j, -, hj⟩ := ho
        exact ⟨j, hj⟩
  apart r hi ho := by
    obtain ⟨j, hne, hj⟩ := ho
    exact hne (h.once r j i hj hi)

/-- One holder's share may change as long as it remains one. -/
theorem Owned.update [DecidableEq ι] {opened opened' mine : Set ρ} {holds : ι → Set ρ}
    (h : Owned opened holds) {i : ι} (hs : Share (others holds i) opened' mine) :
    Owned opened' (Function.update holds i mine) where
  held r := by
    rw [hs.held]
    constructor
    · intro hr
      cases hr with
      | inl hm => exact ⟨i, by simpa using hm⟩
      | inr ho =>
        obtain ⟨j, hne, hj⟩ := ho
        exact ⟨j, by simpa [hne] using hj⟩
    · intro ⟨j, hj⟩
      by_cases he : j = i
      · subst he
        exact .inl (by simpa using hj)
      · exact .inr ⟨j, he, by simpa [he] using hj⟩
  once r j k hj hk := by
    have hother : ∀ l, l ≠ i → r ∈ Function.update holds i mine l → r ∈ others holds i :=
      fun l hl hr => ⟨l, hl, by simpa [hl] using hr⟩
    by_cases hji : j = i <;> by_cases hki : k = i
    · rw [hji, hki]
    · subst hji
      exact absurd (hother k hki hk) (hs.apart r (by simpa using hj))
    · subst hki
      exact absurd (hother j hji hj) (hs.apart r (by simpa using hk))
    · exact h.once r j k (by simpa [hji] using hj) (by simpa [hki] using hk)

theorem Share.insert {rest opened mine : Set ρ} (h : Share rest opened mine) {r : ρ}
    (hr : r ∉ opened) : Share rest (insert r opened) (insert r mine) where
  held x := by
    rw [Set.mem_insert_iff, Set.mem_insert_iff, h.held, or_assoc]
  apart x hx ho := by
    cases hx with
    | inl he => exact hr ((h.held r).mpr (.inr (he ▸ ho)))
    | inr hm => exact h.apart x hm ho

theorem Share.erase {rest opened mine : Set ρ} (h : Share rest opened mine) {r : ρ}
    (hr : r ∈ mine) : Share rest (opened \ {r}) (mine \ {r}) where
  held x := by
    simp only [Set.mem_sdiff, Set.mem_singleton_iff, h.held]
    constructor
    · intro ⟨ho, hne⟩
      exact ho.imp_left fun hm => ⟨hm, hne⟩
    · intro ho
      cases ho with
      | inl hm => exact ⟨.inl hm.1, hm.2⟩
      | inr hrest => exact ⟨.inr hrest, fun he => h.apart r hr (he ▸ hrest)⟩
  apart x hx := h.apart x hx.1

/-- What so many holders have, each at most so much. -/
theorem encard_le_of_held {things : Set ρ} {holds : ι → Set ρ} {t : Finset ι} {n : ℕ∞}
    (held : ∀ r ∈ things, ∃ i ∈ t, r ∈ holds i) (each : ∀ i ∈ t, (holds i).encard ≤ n) :
    things.encard ≤ t.card * n := by
  classical
  induction t using Finset.induction_on generalizing things with
  | empty =>
    have hnone : things = ∅ := Set.eq_empty_of_forall_notMem fun r hr => by
      obtain ⟨i, hi, -⟩ := held r hr
      simp at hi
    simp [hnone]
  | insert i t hi ih =>
    have hsub : things ⊆ holds i ∪ things \ holds i := by
      intro r hr
      by_cases hri : r ∈ holds i
      · exact .inl hri
      · exact .inr ⟨hr, hri⟩
    have hone : (holds i).encard ≤ n := each i (Finset.mem_insert_self i t)
    have hrest : (things \ holds i).encard ≤ t.card * n := by
      refine ih (fun r hr => ?_) fun j hj => each j (Finset.mem_insert_of_mem hj)
      obtain ⟨j, hj, hrj⟩ := held r hr.1
      have hne : j ≠ i := by
        rintro rfl
        exact hr.2 hrj
      exact ⟨j, Finset.mem_of_mem_insert_of_ne hj hne, hrj⟩
    calc things.encard ≤ (holds i ∪ things \ holds i).encard := Set.encard_le_encard hsub
      _ ≤ (holds i).encard + (things \ holds i).encard := Set.encard_union_le _ _
      _ ≤ n + t.card * n := add_le_add hone hrest
      _ = (insert i t).card * n := by
        rw [Finset.card_insert_of_notMem hi, Nat.cast_add, Nat.cast_one, add_mul, one_mul, add_comm]

end Ownership
