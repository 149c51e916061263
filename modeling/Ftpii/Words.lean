import Mathlib.Data.List.DropRight
import Mathlib.Data.List.TakeWhile
set_option autoImplicit false

/-!
Texts as words between separators: trimming the ends of a text, and cutting it into its first
words and the text that follows them.
-/

namespace Words

variable {α : Type} [DecidableEq α]

def trimStart (sep : α) (s : List α) : List α := s.dropWhile (· = sep)

def trimEnd (sep : α) (s : List α) : List α := s.rdropWhile (· = sep)

/-- The text without the separators around it. -/
def trim (sep : α) (s : List α) : List α := trimEnd sep (trimStart sep s)

/-- The first word of a text that begins with it, and what follows. -/
def word (sep : α) (s : List α) : List α := s.takeWhile (· ≠ sep)

def afterWord (sep : α) (s : List α) : List α := s.dropWhile (· ≠ sep)

/-- The first m words, and the trimmed text behind them if there is any. -/
def tokens (sep : α) : Nat → List α → List (List α)
  | 0, s => if trim sep s = [] then [] else [trim sep s]
  | m + 1, s =>
    if trimStart sep s = [] then []
    else word sep (trimStart sep s) :: tokens sep m (afterWord sep (trimStart sep s))

variable {sep : α}

@[simp] theorem trimStart_nil : trimStart sep [] = [] := rfl

@[simp] theorem trimEnd_nil : trimEnd sep [] = [] := rfl

@[simp] theorem trim_nil : trim sep [] = [] := rfl

@[simp] theorem trimStart_sep (s : List α) : trimStart sep (sep :: s) = trimStart sep s := by
  simp [trimStart]

@[simp] theorem trim_sep (s : List α) : trim sep (sep :: s) = trim sep s := by simp [trim]

theorem trimStart_of_ne {c : α} (h : c ≠ sep) (s : List α) : trimStart sep (c :: s) = c :: s := by
  simp [trimStart, h]

theorem trimEnd_concat_sep (s : List α) : trimEnd sep (s ++ [sep]) = trimEnd sep s := by
  simp [trimEnd]

theorem trimEnd_concat {c : α} (h : c ≠ sep) (s : List α) : trimEnd sep (s ++ [c]) = s ++ [c] := by
  simp [trimEnd, h]

theorem trimEnd_append {c : α} (h : c ≠ sep) (s t : List α) :
    trimEnd sep (s ++ c :: t) = s ++ c :: trimEnd sep t := by
  induction t using List.reverseRecOn with
  | nil => simp [trimEnd_concat h]
  | append_singleton t d ih =>
    have hcons : s ++ c :: (t ++ [d]) = (s ++ c :: t) ++ [d] := by simp
    rw [hcons]
    by_cases hd : d = sep
    · rw [hd, trimEnd_concat_sep, trimEnd_concat_sep, ih]
    · rw [trimEnd_concat hd, trimEnd_concat hd, hcons]

theorem trimEnd_cons {c : α} (h : c ≠ sep) (t : List α) :
    trimEnd sep (c :: t) = c :: trimEnd sep t := trimEnd_append h [] t

@[simp] theorem trimStart_trimStart (s : List α) :
    trimStart sep (trimStart sep s) = trimStart sep s := List.dropWhile_idempotent _ s

@[simp] theorem trim_trimStart (s : List α) : trim sep (trimStart sep s) = trim sep s := by
  simp [trim]

theorem trim_concat_sep (s : List α) : trim sep (s ++ [sep]) = trim sep s := by
  induction s with
  | nil => simp
  | cons c s ih =>
    by_cases hc : c = sep
    · subst hc
      simpa using ih
    · rw [List.cons_append, trim, trim, trimStart_of_ne hc, trimStart_of_ne hc, ← List.cons_append,
        trimEnd_concat_sep]

@[simp] theorem trim_trimEnd (s : List α) : trim sep (trimEnd sep s) = trim sep s := by
  induction s using List.reverseRecOn with
  | nil => rfl
  | append_singleton s d ih =>
    by_cases hd : d = sep
    · rw [hd, trimEnd_concat_sep, trim_concat_sep, ih]
    · rw [trimEnd_concat hd]

@[simp] theorem trim_trim (s : List α) : trim sep (trim sep s) = trim sep s := by
  calc trim sep (trim sep s) = trim sep (trimEnd sep (trimStart sep s)) := rfl
    _ = trim sep s := by rw [trim_trimEnd, trim_trimStart]

/-- Nothing is trimmed off a text exactly when it neither begins nor ends with a separator. -/
theorem trim_eq_self_iff {s : List α} :
    trim sep s = s ↔ s.head? ≠ some sep ∧ s.getLast? ≠ some sep := by
  cases s with
  | nil => simp
  | cons c t =>
    by_cases hc : c = sep
    · subst hc
      have hshort : (trim c t).length ≤ t.length :=
        (List.rdropWhile_prefix _ _).length_le.trans (List.dropWhile_suffix _).length_le
      have hne : trim c t ≠ c :: t := by
        intro h
        have hlen := congrArg List.length h
        simp only [List.length_cons] at hlen
        omega
      simp [hne]
    · rw [trim, trimStart_of_ne hc, trimEnd, List.rdropWhile_eq_self_iff]
      simp [hc, List.getLast?_eq_some_getLast]

/-! ## Words -/

theorem trimStart_word {u : List α} (hu : sep ∉ u) (hne : u ≠ []) (t : List α) :
    trimStart sep (u ++ t) = u ++ t := by
  cases u with
  | nil => contradiction
  | cons c u =>
    have hc : c ≠ sep := fun he => hu (by simp [he])
    exact trimStart_of_ne hc (u ++ t)

theorem trimEnd_word {u : List α} (hu : sep ∉ u) (t : List α) :
    trimEnd sep (u ++ t) = u ++ trimEnd sep t := by
  induction u with
  | nil => rfl
  | cons c u ih =>
    have hc : c ≠ sep := fun he => hu (by simp [he])
    rw [List.cons_append, trimEnd_cons hc, ih fun hm => hu (List.mem_cons_of_mem c hm)]
    rfl

/-- A word ends where the text does or a separator follows. -/
def WordEnds (sep : α) (t : List α) : Prop := t = [] ∨ ∃ v, t = sep :: v

theorem word_append {u t : List α} (hu : sep ∉ u) (ht : WordEnds sep t) :
    word sep (u ++ t) = u ∧ afterWord sep (u ++ t) = t := by
  induction u with
  | nil =>
    rcases ht with rfl | ⟨v, rfl⟩
    · exact ⟨rfl, rfl⟩
    · simp [word, afterWord]
  | cons c u ih =>
    have hc : c ≠ sep := fun he => hu (by simp [he])
    have hrest := ih fun hm => hu (List.mem_cons_of_mem c hm)
    simpa [word, afterWord, hc] using hrest

theorem WordEnds.trimEnd {t : List α} (h : WordEnds sep t) : WordEnds sep (trimEnd sep t) := by
  rcases h with rfl | ⟨v, rfl⟩
  · exact .inl rfl
  · have hpre := List.rdropWhile_prefix (fun c => decide (c = sep)) (sep :: v)
    rcases List.prefix_cons_iff.mp hpre with hnil | ⟨w, hw, -⟩
    · exact .inl hnil
    · exact .inr ⟨w, hw⟩

theorem tokens_word {m : Nat} {u t : List α} (hu : sep ∉ u) (hne : u ≠ []) (ht : WordEnds sep t) :
    tokens sep (m + 1) (u ++ t) = u :: tokens sep m t := by
  have happ : u ++ t ≠ [] := by simp [hne]
  simp only [tokens, trimStart_word hu hne, if_neg happ, word_append hu ht]

@[simp] theorem tokens_trimStart (m : Nat) (s : List α) :
    tokens sep m (trimStart sep s) = tokens sep m s := by
  cases m <;> simp [tokens]

theorem trimStart_head {c : α} {s t : List α} (h : trimStart sep s = c :: t) : c ≠ sep := by
  have hhead := List.head?_dropWhile_not (fun x => decide (x = sep)) s
  simp only [trimStart] at h
  simpa [h] using hhead

@[simp] theorem tokens_sep (m : Nat) (s : List α) : tokens sep m (sep :: s) = tokens sep m s := by
  cases m <;> simp [tokens]

theorem exists_word {c : α} (hc : c ≠ sep) (t : List α) :
    ∃ u v, t = u ++ v ∧ sep ∉ c :: u ∧ WordEnds sep v := by
  refine ⟨word sep t, afterWord sep t, (List.takeWhile_append_dropWhile ..).symm, ?_, ?_⟩
  · intro hm
    rcases List.mem_cons.mp hm with rfl | hm
    · exact hc rfl
    · simpa using List.mem_takeWhile_imp hm
  · induction t with
    | nil => exact .inl rfl
    | cons d t ih =>
      by_cases hd : d = sep
      · exact .inr ⟨t, by simp [afterWord, hd]⟩
      · have hrest : afterWord sep (d :: t) = afterWord sep t := by simp [afterWord, hd]
        rw [hrest]
        exact ih

theorem tokens_zero {c : α} (hc : c ≠ sep) (t : List α) :
    tokens sep 0 (c :: t) = [trimEnd sep (c :: t)] := by
  have hne : trimEnd sep (c :: t) ≠ [] := by simp [trimEnd_cons hc]
  simp only [tokens, trim, trimStart_of_ne hc, if_neg hne]

theorem tokens_zero_head (s : List α) : (tokens sep 0 s).getD 0 [] = trim sep s := by
  by_cases hs : trim sep s = [] <;> simp [tokens, hs]

/-! ## All words of a text -/

def words (sep : α) (s : List α) : List (List α) := (s.splitOn sep).filter (· ≠ [])

@[simp] theorem words_nil : words sep [] = [] := rfl

@[simp] theorem words_sep (s : List α) : words sep (sep :: s) = words sep s := by
  simp [words, List.splitOn_cons_eq_if_modifyHead]

@[simp] theorem words_trimStart (s : List α) : words sep (trimStart sep s) = words sep s := by
  induction s with
  | nil => rfl
  | cons c s ih =>
    by_cases hc : c = sep
    · subst hc
      simpa using ih
    · rw [trimStart_of_ne hc]

theorem words_word {u t : List α} (hu : sep ∉ u) (hne : u ≠ []) (ht : WordEnds sep t) :
    words sep (u ++ t) = u :: words sep t := by
  rcases ht with rfl | ⟨v, rfl⟩
  · simp [words, List.splitOn_eq_singleton hu, hne]
  · rw [words_sep, words, words, List.splitOn_append_cons_self_of_not_mem hu]
    simp [hne]

theorem words_append_sep (s t : List α) :
    words sep (s ++ sep :: t) = words sep s ++ words sep t := by
  rw [words, List.splitOn_append_cons_self, List.filter_append]
  rfl

theorem words_eq_nil_iff {s : List α} : words sep s = [] ↔ ∀ c ∈ s, c = sep := by
  induction s with
  | nil => simp
  | cons c s ih =>
    by_cases hc : c = sep
    · subst hc
      simp [ih]
    · obtain ⟨u, v, rfl, hu, hv⟩ := exists_word hc s
      rw [← List.cons_append, words_word hu (by simp) hv]
      simp [hc]

theorem trimStart_eq_nil_iff {s : List α} : trimStart sep s = [] ↔ words sep s = [] := by
  rw [words_eq_nil_iff]
  simp [trimStart]

/-- t is the text from the start of word number m to the end of the last word. -/
structure FromWord (sep : α) (m : Nat) (s t : List α) : Prop where
  parts : ∃ before after, s = before ++ t ++ after ∧ words sep before = (words sep s).take m ∧
    (before = [] ∨ before.getLast? = some sep) ∧ ∀ c ∈ after, c = sep
  rest : words sep t = (words sep s).drop m
  head : t.head? ≠ some sep
  last : t.getLast? ≠ some sep

theorem words_append_seps {s after : List α} (h : ∀ c ∈ after, c = sep) :
    words sep (s ++ after) = words sep s := by
  cases after with
  | nil => simp
  | cons c after =>
    have hc : c = sep := h c (by simp)
    have hafter : words sep after = [] := words_eq_nil_iff.mpr fun d hd => h d (by simp [hd])
    rw [hc, words_append_sep, hafter, List.append_nil]

theorem FromWord.behind_sep {m : Nat} {s t : List α} (h : FromWord sep m s t) :
    FromWord sep m (sep :: s) t := by
  obtain ⟨before, after, hs, hwords, hend, hafter⟩ := h.parts
  refine ⟨⟨sep :: before, after, by simp [hs], by simpa using hwords, .inr ?_, hafter⟩,
    by simpa using h.rest, h.head, h.last⟩
  rcases hend with rfl | hend
  · rfl
  · simp [List.getLast?_cons, hend]

theorem FromWord.of_trimStart {m : Nat} {s t : List α} (h : FromWord sep m (trimStart sep s) t) :
    FromWord sep m s t := by
  induction s with
  | nil => exact h
  | cons c s ih =>
    by_cases hc : c = sep
    · subst hc
      rw [trimStart_sep] at h
      exact (ih h).behind_sep
    · rwa [trimStart_of_ne hc] at h

theorem fromWord_zero {c : α} (hc : c ≠ sep) (s : List α) :
    FromWord sep 0 (c :: s) (trimEnd sep (c :: s)) := by
  have hparts : trimEnd sep (c :: s) ++ (c :: s).rtakeWhile (· = sep) = c :: s :=
    List.rdropWhile_append_rtakeWhile ..
  have hafter : ∀ d ∈ (c :: s).rtakeWhile (· = sep), d = sep := fun d hd => by
    simpa using List.mem_rtakeWhile_imp hd
  refine ⟨⟨[], _, hparts.symm, by simp, .inl rfl, hafter⟩, ?_, ?_, ?_⟩
  · rw [← words_append_seps hafter, hparts]
    rfl
  · simpa [trimEnd_cons hc] using hc
  · have htrim : trim sep (c :: s) = trimEnd sep (c :: s) := by rw [trim, trimStart_of_ne hc]
    rw [← htrim]
    exact (trim_eq_self_iff.mp (trim_trim (c :: s))).2

theorem FromWord.word {m : Nat} {u v t : List α} (h : FromWord sep m v t) (hu : sep ∉ u)
    (hne : u ≠ []) (hv : WordEnds sep v) (ht : t ≠ []) : FromWord sep (m + 1) (u ++ v) t := by
  obtain ⟨before, after, hs, hwords, hend, hafter⟩ := h.parts
  have hbefore : ∃ w, before = sep :: w := by
    rcases hv with rfl | ⟨v, rfl⟩
    · simp [ht] at hs
    · cases before with
      | nil =>
        obtain ⟨d, t, rfl⟩ := List.exists_cons_of_ne_nil ht
        have hd : sep = d := by simpa using congrArg List.head? hs
        exact absurd (by simp [hd]) h.head
      | cons d w =>
        have hd : sep = d := by simpa using congrArg List.head? hs
        exact ⟨w, by rw [hd]⟩
  have hends : WordEnds sep before := .inr hbefore
  obtain ⟨w, rfl⟩ := hbefore
  refine ⟨⟨u ++ sep :: w, after, by simp [hs], ?_, .inr ?_, hafter⟩, ?_, h.head, h.last⟩
  · rw [words_word hu hne hends, words_word hu hne hv, hwords]
    rfl
  · rw [List.getLast?_append]
    simpa using hend
  · rw [words_word hu hne hv]
    exact h.rest

/-- A text of few words is cut into all of them. -/
theorem tokens_eq_words {m : Nat} {s : List α} (h : (words sep s).length ≤ m) :
    tokens sep m s = words sep s := by
  induction m generalizing s with
  | zero =>
    have hnil : words sep s = [] := by simpa using h
    simp [tokens, trim, trimStart_eq_nil_iff.mpr hnil, hnil]
  | succ m ih =>
    rw [← tokens_trimStart, ← words_trimStart]
    rw [← words_trimStart] at h
    cases hs : trimStart sep s with
    | nil => simp [tokens]
    | cons c t =>
      obtain ⟨u, v, rfl, hu, hv⟩ := exists_word (trimStart_head hs) t
      rw [hs, ← List.cons_append, words_word hu (by simp) hv] at h
      rw [← List.cons_append, tokens_word hu (by simp) hv, words_word hu (by simp) hv,
        ih (by simpa using h)]

/-- Otherwise it is cut into its first words and the text from the next one on. -/
theorem tokens_eq_take {m : Nat} {s : List α} (h : m < (words sep s).length) :
    ∃ t, FromWord sep m s t ∧ tokens sep m s = (words sep s).take m ++ [t] := by
  induction m generalizing s with
  | zero =>
    cases hs : trimStart sep s with
    | nil => simp [trimStart_eq_nil_iff.mp hs] at h
    | cons c t =>
      have hc := trimStart_head hs
      refine ⟨_, .of_trimStart (hs ▸ fromWord_zero hc t), ?_⟩
      rw [← tokens_trimStart, hs, tokens_zero hc]
      rfl
  | succ m ih =>
    cases hs : trimStart sep s with
    | nil => simp [trimStart_eq_nil_iff.mp hs] at h
    | cons c t =>
      obtain ⟨u, v, rfl, hu, hv⟩ := exists_word (trimStart_head hs) t
      rw [← words_trimStart, hs, ← List.cons_append, words_word hu (by simp) hv] at h
      obtain ⟨t, hfrom, htokens⟩ := ih (by simpa using h : m < (words sep v).length)
      have ht : t ≠ [] := by
        rintro rfl
        have hrest := congrArg List.length hfrom.rest
        simp only [words_nil, List.length_nil, List.length_drop] at hrest
        simp only [List.length_cons] at h
        omega
      refine ⟨t, .of_trimStart (hs ▸ hfrom.word hu (by simp) hv ht), ?_⟩
      rw [← tokens_trimStart, ← words_trimStart, hs, ← List.cons_append,
        tokens_word hu (by simp) hv, words_word hu (by simp) hv, htokens]
      rfl

end Words
