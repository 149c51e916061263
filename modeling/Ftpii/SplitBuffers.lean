import Ftpii.CString
import Ftpii.Tokenizer
set_option autoImplicit false

/-!
split of ftp.c over the caller's buffers. Every character is written with a NUL behind it, the last
result is cut where its trailing separators begin, and the unused buffers are emptied. No write
leaves buffers of strlen(s) + 1 bytes, and what they hold in the end is what split returns.
-/

namespace Ftpii
open CString Words

/-- result[i][j] = c, which fails outside the caller's buffers. -/
def writeResult (result : List Str) (i j : Nat) (c : Char) : Option (List Str) :=
  match result[i]? with
  | none => none
  | some buf => if j < buf.length then some (result.set i (buf.set j c)) else none

/-- The scan over the buffers. num_results wraps like a u32, the positions count characters of s. -/
structure SplitInto where
  numResults : Nat := 0
  resultPos : Nat := 0
  trimPos : Nat := 0
  inWord : Bool := false
  result : List Str

namespace SplitInto

def current (p : SplitInto) : Nat := (p.numResults + (2 ^ 32 - 1)) % 2 ^ 32

def put (p : SplitInto) (c : Char) : Option SplitInto := do
  let result ← writeResult p.result p.current p.resultPos c
  let result ← writeResult result p.current (p.resultPos + 1) '\x00'
  pure { p with resultPos := p.resultPos + 1, result := result }

def enter (p : SplitInto) (maxsplit : Nat) : SplitInto :=
  if p.inWord then p
  else if p.numResults ≤ maxsplit then
    { p with inWord := true, numResults := (p.numResults + 1) % 2 ^ 32, resultPos := 0 }
  else { p with inWord := true }

def step (sep : Char) (maxsplit : Nat) (p : SplitInto) (c : Char) : Option SplitInto :=
  if c = sep then
    if p.numResults ≤ maxsplit then some { p with inWord := false }
    else
      let p := if p.trimPos = 0 then { p with trimPos := p.resultPos } else p
      (p.enter maxsplit).put c
  else
    let p := if p.trimPos ≠ 0 then { p with trimPos := 0 } else p
    (p.enter maxsplit).put c

/-- Empty the results from number i on. With maxsplit at its largest i never passes it. -/
def clear (maxsplit : Nat) : Nat → Nat → List Str → Option (List Str)
  | 0, _, _ => none
  | fuel + 1, i, result =>
    if i ≤ maxsplit then do
      let result ← writeResult result i 0 '\x00'
      clear maxsplit fuel ((i + 1) % 2 ^ 32) result
    else some result

def cutLast (p : SplitInto) : Option (List Str) :=
  if p.trimPos ≠ 0 then writeResult p.result p.current p.trimPos '\x00' else some p.result

def finish (maxsplit fuel : Nat) (p : SplitInto) : Option (Nat × List Str) := do
  let result ← p.cutLast
  let result ← clear maxsplit fuel p.numResults result
  pure (p.numResults, result)

end SplitInto

def splitInto (fuel : Nat) (s : Str) (sep : Char) (maxsplit : Nat) (result : List Str) :
    Option (Nat × List Str) := do
  let p ← s.foldlM (SplitInto.step sep maxsplit) { result := result }
  p.finish maxsplit fuel

/-! ## Writing to a result -/

structure Roomy (maxsplit n : Nat) (result : List Str) : Prop where
  count : maxsplit < result.length
  size : ∀ i ≤ maxsplit, n < (result.getD i []).length

theorem getD_set_self {result : List Str} {i : Nat} (hi : i < result.length) (buf : Str) :
    (result.set i buf).getD i [] = buf := by simp [hi]

theorem getD_set_of_ne {result : List Str} {i j : Nat} (h : i ≠ j) (buf : Str) :
    (result.set i buf).getD j [] = result.getD j [] := by simp [h]

section Writing

variable {maxsplit n i j : Nat} {result : List Str}

theorem writeResult_eq (h : Roomy maxsplit n result) (hi : i ≤ maxsplit) (hj : j ≤ n) (c : Char) :
    writeResult result i j c = some (result.set i ((result.getD i []).set j c)) := by
  have hcount := h.count
  have hlen : i < result.length := by omega
  have hbuf : result[i]? = some (result.getD i []) := by simp [hlen]
  have hsize : j < (result.getD i []).length := by
    have hroom := h.size i hi
    omega
  simp only [writeResult, hbuf, if_pos hsize]

theorem Roomy.set (h : Roomy maxsplit n result) (hi : i ≤ maxsplit) {buf : Str}
    (hbuf : n < buf.length) : Roomy maxsplit n (result.set i buf) where
  count := by simpa using h.count
  size k hk := by
    have hcount := h.count
    by_cases he : i = k
    · subst he
      rw [getD_set_self (by omega)]
      exact hbuf
    · rw [getD_set_of_ne he]
      exact h.size k hk

end Writing

/-! ## The scan step by step -/

namespace SplitInto

/-- The counters are those of p, and the buffers have room. -/
structure Counts (maxsplit n k : Nat) (m : SplitInto) (p : Split) : Prop where
  numResults : m.numResults = p.numResults
  resultPos : m.resultPos = p.resultPos
  trimPos : m.trimPos = p.trimPos
  inWord : m.inWord = p.inWord
  room : Roomy maxsplit n m.result
  count : p.numResults ≤ maxsplit + 1
  seen : p.resultPos ≤ k
  trimmed : p.trimPos ≤ p.resultPos

/-- After k characters the buffers hold the results of p. -/
structure Shows (maxsplit n k : Nat) (m : SplitInto) (p : Split) : Prop extends
    Counts maxsplit n k m p where
  started : p.numResults = 0 → p.inWord = false ∧ p.resultPos = 0
  pos : p.resultPos = (p.result (p.numResults - 1)).length
  held : ∀ i < p.numResults, Holds (m.result.getD i []) 0 (p.result i)

/-- A character of the current result is to be written. -/
structure Ready (maxsplit n k : Nat) (m : SplitInto) (p : Split) : Prop extends
    Counts maxsplit n k m p where
  opened : 0 < p.numResults
  length : p.resultPos ≤ (p.result (p.numResults - 1)).length
  clean : '\x00' ∉ (p.result (p.numResults - 1)).take p.resultPos
  text : (m.result.getD (p.numResults - 1) []).take p.resultPos =
    (p.result (p.numResults - 1)).take p.resultPos
  held : ∀ i < p.numResults - 1, Holds (m.result.getD i []) 0 (p.result i)

variable {maxsplit n k : Nat} {m : SplitInto} {p : Split} {sep c : Char}

theorem Counts.current_eq (h : Counts maxsplit n k m p) (hmax : maxsplit < 2 ^ 32 - 1)
    (hp : 0 < p.numResults) : m.current = p.numResults - 1 := by
  have hcount := h.count
  rw [current, h.numResults]
  omega

theorem Shows.trim (h : Shows maxsplit n k m p) {i j : Nat} (he : i = j) (hj : j ≤ p.resultPos) :
    Shows maxsplit n k { m with trimPos := i } { p with trimPos := j } :=
  { h with trimPos := he, trimmed := hj }

theorem Shows.ready (h : Shows maxsplit n k m p) (hp : 0 < p.numResults) :
    Ready maxsplit n k m p := by
  have hlast := h.held (p.numResults - 1) (by omega)
  have hclean := hlast.1
  refine { h.toCounts with
    opened := hp, length := h.pos.le, clean := ?_, text := ?_, held := fun i hi => h.held i ?_ }
  · exact fun hm => hclean (List.mem_of_mem_take hm)
  · obtain ⟨rest, hr⟩ := hlast.2
    rw [List.drop_zero] at hr
    rw [hr, h.pos]
    simp
  · omega

/-- The next result is opened only while there is nothing to trim. -/
theorem Shows.enter (h : Shows maxsplit n k m p) (hmax : maxsplit < 2 ^ 32 - 1)
    (htrim : p.numResults ≤ maxsplit → p.trimPos = 0) :
    Ready maxsplit n k (m.enter maxsplit) (p.enter maxsplit) := by
  rw [SplitInto.enter, Split.enter, h.inWord, h.numResults]
  by_cases hin : p.inWord = true
  · rw [if_pos hin, if_pos hin]
    refine h.ready (Nat.pos_of_ne_zero fun hz => ?_)
    simp [(h.started hz).1] at hin
  · rw [if_neg hin, if_neg hin]
    by_cases hcount : p.numResults ≤ maxsplit
    · rw [if_pos hcount, if_pos hcount]
      have hnum : (p.numResults + 1) % 2 ^ 32 = p.numResults + 1 := Nat.mod_eq_of_lt (by omega)
      exact
        { numResults := hnum
          resultPos := rfl
          trimPos := h.trimPos
          inWord := rfl
          room := h.room
          count := by simpa using hcount
          seen := Nat.zero_le k
          trimmed := by simp [htrim hcount]
          opened := by simp
          length := by simp
          clean := by simp
          text := by simp
          held := h.held }
    · rw [if_neg hcount, if_neg hcount]
      have hready := h.ready (by omega)
      exact { hready with inWord := rfl, numResults := rfl }

theorem Ready.put (h : Ready maxsplit n k m p) (hmax : maxsplit < 2 ^ 32 - 1) (hk : k < n)
    (hc : c ≠ '\x00') : ∃ m', m.put c = some m' ∧ Shows maxsplit n (k + 1) m' (p.put c) := by
  have hopened := h.opened
  have hcount := h.count
  have hseen := h.seen
  have hcur := h.current_eq hmax hopened
  have hi : p.numResults - 1 ≤ maxsplit := by omega
  have hlen : p.numResults - 1 < m.result.length := hi.trans_lt h.room.count
  let buf := m.result.getD (p.numResults - 1) []
  have hsize : n < buf.length := h.room.size _ hi
  let buf' := (buf.set p.resultPos c).set (p.resultPos + 1) '\x00'
  have hsize' : n < (buf.set p.resultPos c).length := by simpa using hsize
  have hwrite : m.put c = some { m with
      resultPos := m.resultPos + 1, result := m.result.set (p.numResults - 1) buf' } := by
    rw [SplitInto.put, hcur, h.resultPos, writeResult_eq h.room hi (by omega)]
    simp only [Option.bind_eq_bind, Option.bind_some, Option.pure_def]
    rw [writeResult_eq (h.room.set hi hsize') hi (by omega), getD_set_self hlen, List.set_set]
    rfl
  refine ⟨_, hwrite, ?_⟩
  have hheld : Holds buf' 0 ((p.result (p.numResults - 1)).take p.resultPos ++ [c]) :=
    holds_put h.text h.clean hc (by omega)
  refine
    { numResults := h.numResults
      resultPos := by simp [Split.put, h.resultPos]
      trimPos := h.trimPos
      inWord := h.inWord
      room := h.room.set hi (by simpa [buf'] using hsize')
      count := hcount
      seen := Nat.succ_le_succ hseen
      trimmed := Nat.le_succ_of_le h.trimmed
      started := fun hz => absurd hz hopened.ne'
      pos := by simpa [Split.put] using h.length
      held := fun i hlt => ?_ }
  by_cases he : p.numResults - 1 = i
  · subst he
    simpa [Split.put, hlen] using hheld
  · have hlt : i < p.numResults := hlt
    have hold := h.held i (by omega)
    simp only [Split.put, Function.update_of_ne (Ne.symm he), getD_set_of_ne he]
    exact hold

/-- A character is skipped, or written behind the mark that a separator leaves or another one
takes away. -/
theorem Shows.step (h : Shows maxsplit n k m p) (hmax : maxsplit < 2 ^ 32 - 1) (hk : k < n)
    (hc : c ≠ '\x00') :
    ∃ m', m.step sep maxsplit c = some m' ∧
      Shows maxsplit n (k + 1) m' (p.step sep maxsplit c) := by
  by_cases hsep : c = sep
  · by_cases hcount : p.numResults ≤ maxsplit
    · refine ⟨{ m with inWord := false }, ?_, ?_⟩
      · rw [SplitInto.step, if_pos hsep, if_pos (h.numResults ▸ hcount)]
      · rw [Split.step, if_pos hsep, if_pos hcount]
        exact { h with inWord := rfl, seen := Nat.le_succ_of_le h.seen,
                       started := fun hz => ⟨rfl, (h.started hz).2⟩ }
    · rw [SplitInto.step, Split.step, if_pos hsep, if_pos hsep, if_neg hcount,
        if_neg (h.numResults ▸ hcount), h.trimPos]
      by_cases ht : p.trimPos = 0
      · rw [if_pos ht, if_pos ht]
        exact ((h.trim h.resultPos le_rfl).enter hmax fun hle => absurd hle hcount).put hmax hk hc
      · rw [if_neg ht, if_neg ht]
        exact (h.enter hmax fun hle => absurd hle hcount).put hmax hk hc
  · rw [SplitInto.step, Split.step, if_neg hsep, if_neg hsep, h.trimPos]
    by_cases ht : p.trimPos ≠ 0
    · rw [if_pos ht, if_pos ht]
      exact ((h.trim rfl (Nat.zero_le _)).enter hmax fun _ => rfl).put hmax hk hc
    · rw [if_neg ht, if_neg ht]
      exact (h.enter hmax fun _ => not_not.mp ht).put hmax hk hc

theorem Shows.run (h : Shows maxsplit n k m p) (hmax : maxsplit < 2 ^ 32 - 1) {s : Str}
    (hs : '\x00' ∉ s) (hk : k + s.length ≤ n) :
    ∃ m', s.foldlM (SplitInto.step sep maxsplit) m = some m' ∧
      Shows maxsplit n (k + s.length) m' (s.foldl (Split.step sep maxsplit) p) := by
  induction s generalizing k m p with
  | nil => exact ⟨m, rfl, h⟩
  | cons c s ih =>
    rw [List.length_cons] at hk
    have hc : c ≠ '\x00' := fun he => hs (by simp [he])
    obtain ⟨m₁, hstep, hshows⟩ : ∃ m₁, m.step sep maxsplit c = some m₁ ∧
      Shows maxsplit n (k + 1) m₁ (p.step sep maxsplit c) := h.step hmax (by omega) hc
    obtain ⟨m', hrun, hend⟩ := ih hshows (fun hm => hs (List.mem_cons_of_mem c hm)) (by omega)
    refine ⟨m', by simp [hstep, hrun], ?_⟩
    rwa [List.length_cons, Nat.add_comm s.length 1, ← Nat.add_assoc]

theorem clear_eq {fuel i : Nat} {result : List Str} (h : Roomy maxsplit n result)
    (hmax : maxsplit < 2 ^ 32 - 1) (hi : i ≤ maxsplit + 1) (hfuel : maxsplit + 1 < i + fuel) :
    ∃ stored, clear maxsplit fuel i result = some stored ∧
      (∀ j < i, stored.getD j [] = result.getD j []) ∧
      ∀ j, i ≤ j → j ≤ maxsplit → Holds (stored.getD j []) 0 [] := by
  induction fuel generalizing i result with
  | zero => omega
  | succ fuel ih =>
    by_cases hle : i ≤ maxsplit
    · let buf := (result.getD i []).set 0 '\x00'
      have hlen : i < result.length := hle.trans_lt h.count
      have hsize : n < buf.length := by simpa [buf] using h.size i hle
      have hnext : (i + 1) % 2 ^ 32 = i + 1 := Nat.mod_eq_of_lt (by omega)
      obtain ⟨stored, hclear, hsame, hempty⟩ := ih (h.set hle hsize) (by omega : i + 1 ≤ maxsplit + 1)
        (by omega)
      refine ⟨stored, ?_, fun j hj => ?_, fun j hj hjm => ?_⟩
      · rw [clear, if_pos hle, writeResult_eq h hle (Nat.zero_le n), hnext]
        exact hclear
      · rw [hsame j (by omega), getD_set_of_ne (by omega)]
      · rcases Nat.lt_or_eq_of_le hj with hlt | rfl
        · exact hempty j hlt hjm
        · rw [hsame i (Nat.lt_succ_self i), getD_set_self hlen]
          obtain ⟨c, rest, hc⟩ : ∃ c rest, result.getD i [] = c :: rest :=
            List.exists_cons_of_length_pos (Nat.zero_lt_of_lt (h.size i hle))
          refine ⟨by simp, rest, ?_⟩
          simp only [List.drop_zero, buf, hc]
          rfl
    · refine ⟨result, by rw [clear, if_neg hle], fun _ _ => rfl, fun j hj hjm => ?_⟩
      omega

theorem Shows.cutLast (h : Shows maxsplit n k m p) (hmax : maxsplit < 2 ^ 32 - 1) (hk : k ≤ n) :
    ∃ result, m.cutLast = some result ∧ Roomy maxsplit n result ∧
      ∀ i < p.numResults, Holds (result.getD i []) 0 (p.finish.2 i) := by
  have hcount := h.count
  have hseen := h.seen
  have htrimmed := h.trimmed
  rw [SplitInto.cutLast, h.trimPos]
  by_cases ht : p.trimPos ≠ 0
  · have hopened : 0 < p.numResults := by
      refine Nat.pos_of_ne_zero fun hz => ?_
      have hpos := (h.started hz).2
      omega
    have hi : p.numResults - 1 ≤ maxsplit := by omega
    have hlen : p.numResults - 1 < m.result.length := hi.trans_lt h.room.count
    let buf := (m.result.getD (p.numResults - 1) []).set p.trimPos '\x00'
    have hbuf : n < buf.length := by simpa [buf] using h.room.size _ hi
    have hlast : Holds buf 0 ((p.result (p.numResults - 1)).take p.trimPos) :=
      (h.held (p.numResults - 1) (by omega)).cut (h.trimmed.trans h.pos.le)
    refine ⟨m.result.set (p.numResults - 1) buf, ?_, h.room.set hi hbuf, fun i hlt => ?_⟩
    · rw [if_pos ht, h.current_eq hmax hopened, writeResult_eq h.room hi (by omega)]
    · have hresult : p.finish.2 i = Function.update p.result (p.numResults - 1)
          ((p.result (p.numResults - 1)).take p.trimPos) i := by
        simp [Split.finish, ht, Nat.not_le.mpr hlt]
      rw [hresult]
      by_cases he : p.numResults - 1 = i
      · subst he
        rw [getD_set_self hlen, Function.update_self]
        exact hlast
      · rw [getD_set_of_ne he, Function.update_of_ne (Ne.symm he)]
        exact h.held i hlt
  · refine ⟨m.result, by rw [if_neg ht], h.room, fun i hlt => ?_⟩
    have hresult : p.finish.2 i = p.result i := by simp [Split.finish, ht, Nat.not_le.mpr hlt]
    rw [hresult]
    exact h.held i hlt

theorem Shows.finish {fuel : Nat} (h : Shows maxsplit n k m p) (hmax : maxsplit < 2 ^ 32 - 1)
    (hk : k ≤ n) (hfuel : maxsplit + 2 ≤ fuel) :
    ∃ stored, m.finish maxsplit fuel = some (p.finish.1, stored) ∧
      ∀ i ≤ maxsplit, Holds (stored.getD i []) 0 (p.finish.2 i) := by
  obtain ⟨result, hwrite, hroom, hheld⟩ := h.cutLast hmax hk
  obtain ⟨stored, hclear, hsame, hempty⟩ := clear_eq (i := p.numResults) hroom hmax h.count
    (by omega : maxsplit + 1 < p.numResults + fuel)
  refine ⟨stored, ?_, fun i hi => ?_⟩
  · rw [SplitInto.finish, hwrite]
    simp only [Option.bind_eq_bind, Option.bind_some, h.numResults, hclear]
    rfl
  · by_cases hlt : i < p.numResults
    · rw [hsame i hlt]
      exact hheld i hlt
    · have hunused : p.finish.2 i = [] := if_pos (by omega)
      rw [hunused]
      exact hempty i (by omega) hi

end SplitInto

/-- The buffers hold the results of split. -/
theorem splitInto_eq {fuel maxsplit : Nat} {s : Str} {result : List Str} (sep : Char)
    (hs : '\x00' ∉ s) (hmax : maxsplit < 2 ^ 32 - 1) (hroom : Roomy maxsplit s.length result)
    (hfuel : maxsplit + 2 ≤ fuel) :
    ∃ stored, splitInto fuel s sep maxsplit result = some ((split s sep maxsplit).1, stored) ∧
      ∀ i ≤ maxsplit, Holds (stored.getD i []) 0 ((split s sep maxsplit).2 i) := by
  have hstart : SplitInto.Shows maxsplit s.length 0 { result := result } {} :=
    { numResults := rfl, resultPos := rfl, trimPos := rfl, inWord := rfl, room := hroom
      count := Nat.zero_le _, seen := le_rfl, trimmed := le_rfl, started := fun _ => ⟨rfl, rfl⟩
      pos := rfl, held := fun i hi => absurd hi (Nat.not_lt_zero i) }
  obtain ⟨m, hrun, hshows⟩ : ∃ m, s.foldlM (SplitInto.step sep maxsplit) { result := result } =
      some m ∧ SplitInto.Shows maxsplit s.length (0 + s.length) m
        (s.foldl (Split.step sep maxsplit) {}) := hstart.run hmax hs (by omega)
  obtain ⟨stored, hfinish, hheld⟩ := hshows.finish hmax (by omega) hfuel
  exact ⟨stored, by rw [splitInto, hrun]; exact hfinish, hheld⟩

/-- split stores the first maxsplit words and the text from the next one to the end of the last,
empties the results it does not use, and stays within strlen(s) + 1 bytes of every buffer. -/
theorem splitInto_words {fuel maxsplit : Nat} {s : Str} {result : List Str} (sep : Char)
    (hs : '\x00' ∉ s) (hmax : maxsplit < 2 ^ 32 - 1) (hcount : maxsplit < result.length)
    (hsize : ∀ buf ∈ result, s.length + 1 ≤ buf.length) (hfuel : maxsplit + 2 ≤ fuel) :
    ∃ stored, splitInto fuel s sep maxsplit result =
        some (min (maxsplit + 1) (words sep s).length, stored) ∧
      (∀ i < maxsplit, cstr (stored.getD i []) 0 = (words sep s).getD i []) ∧
      (maxsplit < (words sep s).length →
        FromWord sep maxsplit s (cstr (stored.getD maxsplit []) 0)) ∧
      ∀ i ≤ maxsplit, (words sep s).length ≤ i → cstr (stored.getD i []) 0 = [] := by
  have hroom : Roomy maxsplit s.length result :=
    { count := hcount
      size := fun i hi => by
        have hlen : i < result.length := by omega
        rw [List.getD_eq_getElem _ _ hlen]
        exact hsize _ (List.getElem_mem hlen) }
  obtain ⟨stored, hrun, hheld⟩ := splitInto_eq sep hs hmax hroom hfuel
  have hcstr : ∀ i ≤ maxsplit, cstr (stored.getD i []) 0 = (tokens sep maxsplit s).getD i [] := by
    intro i hi
    rw [(hheld i hi).cstr, split_eq]
    rfl
  have hstored : (split s sep maxsplit).1 = (tokens sep maxsplit s).length := by
    rw [split_eq]
    rfl
  rw [hstored] at hrun
  rcases Nat.lt_or_ge maxsplit (words sep s).length with hmany | hfew
  · obtain ⟨t, hfrom, htokens⟩ := tokens_eq_take hmany
    have htake : ((words sep s).take maxsplit).length = maxsplit := by simp [hmany.le]
    refine ⟨stored, ?_, fun i hi => ?_, fun _ => ?_, fun i hi hle => ?_⟩
    · rw [hrun, htokens, List.length_append, htake, List.length_singleton, Nat.min_eq_left hmany]
    · rw [hcstr i hi.le, htokens, List.getD_append _ _ _ _ (by omega)]
      simp [hi]
    · rw [hcstr maxsplit le_rfl, htokens, List.getD_append_right _ _ _ _ htake.le, htake,
        Nat.sub_self]
      exact hfrom
    · omega
  · have htokens := tokens_eq_words hfew
    refine ⟨stored, ?_, fun i hi => ?_, fun hmany => ?_, fun i hi hle => ?_⟩
    · rw [hrun, htokens, Nat.min_eq_right (Nat.le_succ_of_le hfew)]
    · rw [hcstr i hi.le, htokens]
    · omega
    · rw [hcstr i hi, htokens, List.getD_eq_default _ _ hle]

/-- The second result of " a b  c " keeps what is between its words. -/
theorem splitInto_words_inner : splitInto 3 " a b  c ".toList ' ' 1
      [List.replicate 9 '.', List.replicate 9 '.'] =
    some (2, ["a\x00.......".toList, "b  c\x00\x00...".toList]) ∧
      words ' ' " a b  c ".toList = ["a".toList, "b".toList, "c".toList] ∧
      ∃ stored, splitInto 3 " a b  c ".toList ' ' 1
          [List.replicate 9 '.', List.replicate 9 '.'] =
        some (min 2 (words ' ' " a b  c ".toList).length, stored) ∧
      FromWord ' ' 1 " a b  c ".toList (cstr (stored.getD 1 []) 0) := by
  have hsize : ∀ buf ∈ [List.replicate 9 '.', List.replicate 9 '.'],
      " a b  c ".toList.length + 1 ≤ buf.length := by decide
  have hfuel : 1 + 2 ≤ 3 := le_rfl
  obtain ⟨stored, hrun, -, hlast, -⟩ :=
    splitInto_words ' ' (by decide) (by decide) (by decide) hsize hfuel
  exact ⟨by decide +kernel, by decide, stored, hrun, hlast (by decide)⟩

end Ftpii
