import Ftpii.Commands
import Ftpii.Words
import Mathlib.Data.List.GetD
set_option autoImplicit false

/-!
split of ftp.c cuts a text into its first words and the trimmed text behind them. The scan is
between words, in a word that is not the last result, or in the last result.
-/

namespace Ftpii
open Words

/-- The results so far. -/
structure Split.Stored (p : Split) (rs : List Str) : Prop where
  count : p.numResults = rs.length
  stored : ∀ i < rs.length, p.result i = rs.getD i []

structure Split.Between (p : Split) (rs : List Str) : Prop extends Stored p rs where
  out : p.inWord = false
  trim : p.trimPos = 0

/-- The last result is being written. -/
structure Split.Writing (p : Split) (rs : List Str) (u : Str) : Prop extends
    Stored p (rs ++ [u]) where
  inside : p.inWord = true
  pos : p.resultPos = u.length

structure Split.InWord (p : Split) (rs : List Str) (u : Str) : Prop extends Writing p rs u where
  trim : p.trimPos = 0

/-- In the last result separators are kept, and trim_pos tells where its trailing ones begin. -/
structure Split.InLast (sep : Char) (p : Split) (rs : List Str) (t : Str) : Prop extends
    Writing p rs t where
  text : trimEnd sep t ≠ []
  trim : p.trimPos = if trimEnd sep t = t then 0 else (trimEnd sep t).length

theorem Split.Stored.opened {p : Split} {rs : List Str} (h : p.Stored rs) (c : Char) :
    ({ p with inWord := true, numResults := p.numResults + 1, resultPos := 0 } : Split).put c
      |>.Writing rs [c] where
  count := by simp [Split.put, h.count]
  stored i hi := by
    simp only [List.length_append, List.length_singleton] at hi
    simp only [Split.put, Nat.add_sub_cancel, List.take_zero, List.nil_append, h.count]
    by_cases hlast : i = rs.length
    · simp [hlast]
    · rw [Function.update_of_ne hlast, h.stored i (by omega), List.getD_append _ _ _ _ (by omega)]
  inside := rfl
  pos := rfl

theorem Split.Writing.more {p : Split} {rs : List Str} {u : Str} (h : p.Writing rs u) (c : Char) :
    (p.put c).Writing rs (u ++ [c]) where
  count := by simp [Split.put, h.count]
  stored i hi := by
    have hcount := h.count
    simp only [List.length_append, List.length_singleton] at hi hcount
    have hu := h.stored rs.length (by simp)
    simp only [Split.put, hcount, Nat.add_sub_cancel, h.pos]
    by_cases hlast : i = rs.length
    · rw [hlast, Function.update_self, hu]
      simp
    · rw [Function.update_of_ne hlast, h.stored i (by simp; omega),
        List.getD_append _ _ _ _ (by omega), List.getD_append _ _ _ _ (by omega)]
  inside := h.inside
  pos := by simp [Split.put, h.pos]

section Steps

variable {sep c : Char} {maxsplit : Nat} {p : Split} {rs : List Str} {u t : Str}

theorem Split.Between.skip (h : p.Between rs) (hm : rs.length ≤ maxsplit) :
    (p.step sep maxsplit sep).Between rs := by
  rw [Split.step, if_pos rfl, if_pos (by rw [h.count]; exact hm)]
  exact { h with out := rfl }

theorem Split.Between.opens (h : p.Between rs) (hm : rs.length ≤ maxsplit) (hc : c ≠ sep) :
    (p.step sep maxsplit c).InWord rs [c] := by
  have hcount : p.numResults ≤ maxsplit := by rw [h.count]; exact hm
  simp only [Split.step, if_neg hc, h.trim, ne_eq, not_true_eq_false, if_false, Split.enter, h.out,
    Bool.false_eq_true, if_pos hcount]
  exact { h.toStored.opened c with trim := rfl }

theorem Split.InWord.more (h : p.InWord rs u) (hc : c ≠ sep) :
    (p.step sep maxsplit c).InWord rs (u ++ [c]) := by
  simp only [Split.step, if_neg hc, h.trim, ne_eq, not_true_eq_false, if_false, Split.enter,
    h.inside, if_true]
  exact { h.toWriting.more c with trim := h.trim }

theorem Split.InWord.closes (h : p.InWord rs u) (hm : rs.length < maxsplit) :
    (p.step sep maxsplit sep).Between (rs ++ [u]) := by
  have hcount : p.numResults ≤ maxsplit := by
    rw [h.count, List.length_append, List.length_singleton]
    exact hm
  rw [Split.step, if_pos rfl, if_pos hcount]
  exact { h.toStored with out := rfl, trim := h.trim }

theorem Split.InLast.write (h : p.InLast sep rs t) {k : Nat} (hlast : trimEnd sep (t ++ [c]) ≠ [])
    (hk : k = if trimEnd sep (t ++ [c]) = t ++ [c] then 0 else (trimEnd sep (t ++ [c])).length) :
    (({ p with trimPos := k } : Split).enter maxsplit).put c |>.InLast sep rs (t ++ [c]) := by
  have hwriting : ({ p with trimPos := k } : Split).Writing rs t :=
    { count := h.count, stored := h.stored, inside := h.inside, pos := h.pos }
  rw [Split.enter, if_pos h.inside]
  exact { hwriting.more c with text := hlast, trim := hk }

theorem Split.InLast.more (h : p.InLast sep rs t) (hm : rs.length = maxsplit) (c : Char) :
    (p.step sep maxsplit c).InLast sep rs (t ++ [c]) := by
  have hcount : ¬ p.numResults ≤ maxsplit := by
    rw [h.count, List.length_append, List.length_singleton]
    omega
  have hpos : (trimEnd sep t).length ≠ 0 := by simpa using h.text
  by_cases hc : c = sep
  · subst hc
    have hkept : trimEnd c t ≠ t ++ [c] := by
      intro he
      have hle := (List.rdropWhile_prefix (fun x => decide (x = c)) t).length_le
      have hlen := congrArg List.length he
      simp only [trimEnd, List.length_append, List.length_singleton] at hle hlen
      omega
    rw [Split.step, if_pos rfl, if_neg hcount]
    by_cases ht : trimEnd c t = t
    · rw [if_pos (by rw [h.trim, if_pos ht])]
      refine h.write (by rw [trimEnd_concat_sep]; exact h.text) ?_
      rw [trimEnd_concat_sep, if_neg hkept, ht]
      exact h.pos
    · have htrim : p.trimPos = (trimEnd c t).length := by rw [h.trim, if_neg ht]
      rw [if_neg (by rw [htrim]; exact hpos)]
      refine h.write (k := p.trimPos) (by rw [trimEnd_concat_sep]; exact h.text) ?_
      rw [trimEnd_concat_sep, if_neg hkept, htrim]
  · have hzero : (if p.trimPos ≠ 0 then { p with trimPos := 0 } else p) =
        ({ p with trimPos := 0 } : Split) := by
      split
      · rfl
      · rename_i hz
        rw [not_not] at hz
        rw [← hz]
    rw [Split.step, if_neg hc, hzero]
    exact h.write (by rw [trimEnd_concat hc]; simp) (by rw [trimEnd_concat hc, if_pos rfl])

theorem Split.InWord.last (h : p.InWord rs [c]) (hc : c ≠ sep) : p.InLast sep rs [c] :=
  have hself : trimEnd sep [c] = [c] := trimEnd_concat hc []
  { h.toWriting with text := by simp [hself], trim := by rw [h.trim, if_pos hself] }

theorem Split.InWord.run (h : p.InWord rs u) (s : Str) (hs : sep ∉ s) :
    (s.foldl (step sep maxsplit) p).InWord rs (u ++ s) := by
  induction s generalizing p u with
  | nil => simpa using h
  | cons c s ih =>
    have hc : c ≠ sep := fun he => hs (by simp [he])
    have hmore : (p.step sep maxsplit c).InWord rs (u ++ [c]) := h.more hc
    simpa using ih hmore fun hm => hs (List.mem_cons_of_mem c hm)

theorem Split.InLast.run (h : p.InLast sep rs t) (hm : rs.length = maxsplit) (s : Str) :
    (s.foldl (step sep maxsplit) p).InLast sep rs (t ++ s) := by
  induction s generalizing p t with
  | nil => simpa using h
  | cons c s ih => simpa using ih (h.more hm c)

theorem Split.Between.run (h : p.Between rs) (hm : rs.length ≤ maxsplit) (s : Str) :
    ∃ q : Split, q.Between rs ∧
      s.foldl (step sep maxsplit) p = (trimStart sep s).foldl (step sep maxsplit) q := by
  induction s generalizing p with
  | nil => exact ⟨p, h, rfl⟩
  | cons c s ih =>
    by_cases hc : c = sep
    · subst hc
      simpa using ih (h.skip hm)
    · exact ⟨p, h, by rw [trimStart_of_ne hc]⟩

end Steps

/-! ## The results -/

def results (rs : List Str) : Nat × (Nat → Str) := (rs.length, fun i => rs.getD i [])

theorem Split.Stored.finish {p : Split} {rs : List Str} (h : p.Stored rs) (ht : p.trimPos = 0) :
    p.finish = results rs := by
  have hresult : (fun i => if rs.length ≤ i then [] else p.result i) = fun i => rs.getD i [] := by
    funext i
    split
    · rename_i hi
      exact (List.getD_eq_default _ _ hi).symm
    · rename_i hi
      exact h.stored i (not_le.mp hi)
  simp only [Split.finish, ht, ne_eq, not_true_eq_false, if_false, h.count, hresult]
  rfl

theorem Split.InLast.finish {sep : Char} {p : Split} {rs : List Str} {t : Str}
    (h : p.InLast sep rs t) : p.finish = results (rs ++ [trimEnd sep t]) := by
  by_cases ht : trimEnd sep t = t
  · rw [ht]
    exact h.toStored.finish (by rw [h.trim, if_pos ht])
  · have htrim : p.trimPos = (trimEnd sep t).length := by rw [h.trim, if_neg ht]
    have hne : p.trimPos ≠ 0 := by rw [htrim]; simpa using h.text
    have hcount : p.numResults = rs.length + 1 := by simpa using h.count
    have hlast : p.result rs.length = t := by simpa using h.stored rs.length (by simp)
    let cut : Split := { p with
      trimPos := 0
      result := Function.update p.result rs.length (t.take p.trimPos) }
    have hcut : cut.Stored (rs ++ [trimEnd sep t]) :=
      { count := by simpa using h.count
        stored := fun i hi => by
          simp only [List.length_append, List.length_singleton] at hi
          by_cases he : i = rs.length
          · subst he
            have htake : t.take (trimEnd sep t).length = trimEnd sep t :=
              (List.prefix_iff_eq_take.mp (List.rdropWhile_prefix _ t)).symm
            simp [cut, htrim, htake]
          · have hold := h.stored i (by simp; omega)
            rw [List.getD_append _ _ _ _ (by omega)] at hold ⊢
            simpa only [cut, Function.update_of_ne he] using hold }
    have hrun : p.finish = cut.finish := by
      simp only [Split.finish, cut, if_pos hne, hcount, Nat.add_sub_cancel, hlast, ne_eq,
        not_true_eq_false, if_false]
    rw [hrun]
    exact hcut.finish rfl

/-- From between two words the rest of the text is cut like a text of its own. -/
theorem Split.Between.finish {sep : Char} {maxsplit m : Nat} {p : Split} {rs : List Str}
    (h : p.Between rs) (hm : rs.length + m = maxsplit) (s : Str) :
    (s.foldl (step sep maxsplit) p).finish = results (rs ++ tokens sep m s) := by
  induction m generalizing p rs s with
  | zero =>
    have hle : rs.length ≤ maxsplit := by omega
    obtain ⟨q, hq, he⟩ : ∃ q : Split, q.Between rs ∧
      s.foldl (step sep maxsplit) p = (trimStart sep s).foldl (step sep maxsplit) q := h.run hle s
    rw [he, ← tokens_trimStart]
    cases hs : trimStart sep s with
    | nil => simpa [tokens] using hq.toStored.finish hq.trim
    | cons c t =>
      have hc := trimStart_head hs
      have hopen : (q.step sep maxsplit c).InWord rs [c] := hq.opens (by omega) hc
      have hlast := (hopen.last hc).run (by omega : rs.length = maxsplit) t
      rw [List.foldl_cons, hlast.finish, tokens_zero hc]
      rfl
  | succ m ih =>
    have hle : rs.length ≤ maxsplit := by omega
    obtain ⟨q, hq, he⟩ : ∃ q : Split, q.Between rs ∧
      s.foldl (step sep maxsplit) p = (trimStart sep s).foldl (step sep maxsplit) q := h.run hle s
    rw [he, ← tokens_trimStart]
    cases hs : trimStart sep s with
    | nil => simpa [tokens] using hq.toStored.finish hq.trim
    | cons c t =>
      have hc := trimStart_head hs
      obtain ⟨u, v, rfl, hu, hv⟩ := exists_word hc t
      have hopen : (q.step sep maxsplit c).InWord rs [c] := hq.opens (by omega) hc
      have hword : (u.foldl (step sep maxsplit) (q.step sep maxsplit c)).InWord rs (c :: u) :=
        hopen.run u fun hm => hu (List.mem_cons_of_mem c hm)
      rw [List.foldl_cons, List.foldl_append, ← List.cons_append, tokens_word hu (by simp) hv]
      rcases hv with rfl | ⟨v, rfl⟩
      · have hfinish := hword.toStored.finish hword.trim
        cases m <;> simpa [tokens] using hfinish
      · have hclosed : ((u.foldl (step sep maxsplit) (q.step sep maxsplit c)).step sep maxsplit
            sep).Between (rs ++ [c :: u]) := hword.closes (by omega)
        have hcount : (rs ++ [c :: u]).length + m = maxsplit := by
          simp only [List.length_append, List.length_singleton]
          omega
        simpa using ih hclosed hcount v

/-- split cuts a text into its first maxsplit words and the trimmed text behind them. -/
theorem split_eq (s : Str) (sep : Char) (maxsplit : Nat) :
    split s sep maxsplit = results (tokens sep maxsplit s) := by
  have hstart : ({} : Split).Between [] := ⟨⟨rfl, by simp⟩, rfl, rfl⟩
  exact hstart.finish (by simp) s

/-- A line that begins with a word is cut behind it, and its argument trimmed. -/
theorem splitCommand_word {u t : Str} (hu : ' ' ∉ u) (hne : u ≠ []) (ht : WordEnds ' ' t) :
    splitCommand (u ++ t) = (u, trim ' ' t) := by
  have hargs := tokens_word (m := 0) hu hne ht
  have hrest : (tokens ' ' 0 t).getD 0 [] = trim ' ' t := tokens_zero_head t
  simp only [splitCommand, split_eq, results, hargs, List.getD_cons_zero, List.getD_cons_succ,
    hrest]

end Ftpii
