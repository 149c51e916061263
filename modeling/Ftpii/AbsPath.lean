import Ftpii.Components
import Ftpii.VirtualPath
set_option autoImplicit false

/-!
The automaton of virtual_abspath refines component resolution: on a rooted path
its output is the resolved components, rendered.
-/

namespace Ftpii
open StateProgram CString Components

/-- The automaton's state after the piece seg of a component. -/
def pathState (seg : Str) : PathState :=
  if seg = [] then .slash
  else if seg = ['.'] then .dot
  else if seg = ['.', '.'] then .dotdot
  else .start

def Norm.behind (cs : List Str) (seg : Str) : Norm where
  normalisedPath := renderDir cs ++ seg
  currDir := weight cs
  state := pathState seg

theorem take_renderDir (cs : List Str) (seg : Str) :
    (renderDir cs ++ seg).take (weight cs + 1) = renderDir cs :=
  List.take_left' (length_renderDir cs)

theorem take_weight (cs : List Str) (c seg : Str) :
    (renderDir (cs ++ [c]) ++ seg).take (weight (cs ++ [c])) = renderDir cs ++ c := by
  rw [renderDir_append, List.append_assoc, List.take_left']
  simp [length_renderDir]
  omega

theorem renderDir_concat (cs : List Str) : ∃ s, renderDir cs = s ++ ['/'] ∧ s.length = weight cs := by
  have hl := length_renderDir cs
  cases cs using List.reverseRecOn with
  | nil => exact ⟨[], rfl, rfl⟩
  | append_singleton cs c =>
    refine ⟨renderDir cs ++ c, renderDir_append cs c, ?_⟩
    rw [renderDir_append, List.length_append] at hl
    simpa using hl

theorem strrchr_renderDir (cs : List Str) {c : Str} (hc : '/' ∉ c) :
    strrchr '/' (renderDir cs ++ c) = some (weight cs) := by
  obtain ⟨s, hs, hl⟩ := renderDir_concat cs
  rw [hs, List.append_assoc, List.singleton_append, strrchr_append s hc, hl]

theorem Norm.switch_up {cs : List Str} {seg : Str} {token : Option Char}
    (hcs : ∀ c ∈ cs, '/' ∉ c) (ht : token = some '/' ∨ token = none)
    (hseg : seg = ['.', '.']) :
    (Norm.behind cs seg).switch token = Norm.behind cs.dropLast [] := by
  subst hseg
  cases cs using List.reverseRecOn with
  | nil => simp [Norm.switch, Norm.behind, pathState, ht, renderDir, strrchr]
  | append_singleton cs c =>
    have hc := hcs c (by simp)
    have hw := take_weight cs c ['.', '.']
    have hp := strrchr_renderDir cs hc
    have ht' := take_renderDir cs c
    simp only [Norm.switch, Norm.behind, pathState, ht, hw, hp, ht', List.dropLast_concat]
    simp

theorem Norm.step_char (cs : List Str) {seg : Str} {c : Char} (hc : c ≠ '/') :
    (Norm.behind cs seg).step (some c) = Norm.behind cs (seg ++ [c]) := by
  by_cases h0 : seg = []
  · subst h0
    by_cases hd : c = '.'
    · simp [Norm.step, Norm.switch, Norm.behind, pathState, hd]
    · simp [Norm.step, Norm.switch, Norm.behind, pathState, hd, hc]
  · by_cases h1 : seg = ['.']
    · subst h1
      by_cases hd : c = '.'
      · simp [Norm.step, Norm.switch, Norm.behind, pathState, hd]
      · simp [Norm.step, Norm.switch, Norm.behind, pathState, hd, hc]
    · by_cases h2 : seg = ['.', '.']
      · subst h2
        simp [Norm.step, Norm.switch, Norm.behind, pathState, hc]
      · have h3 : seg ++ [c] ≠ ['.'] := fun h =>
          h0 (List.append_inj_left' (show seg ++ [c] = [] ++ ['.'] from h) rfl)
        have h4 : seg ++ [c] ≠ ['.', '.'] := fun h => h1 (List.append_inj_left' h rfl)
        simp [Norm.step, Norm.switch, Norm.behind, pathState, h0, h1, h2, h3, h4, hc]

theorem Norm.step_slash {cs : List Str} (hcs : ∀ c ∈ cs, '/' ∉ c) (seg : Str) :
    (Norm.behind cs seg).step (some '/') = Norm.behind (push cs seg) [] := by
  by_cases h0 : seg = []
  · simp [Norm.step, Norm.switch, Norm.behind, pathState, push, h0]
  · by_cases h1 : seg = ['.']
    · have ht := take_renderDir cs ['.']
      simp [Norm.step, Norm.switch, Norm.behind, pathState, push, h1, ht]
    · by_cases h2 : seg = ['.', '.']
      · have hs := Norm.switch_up hcs (.inl rfl) h2
        rw [Norm.step, hs]
        simp [push, h2, Norm.behind, pathState]
      · have hr := renderDir_append cs seg
        have hl := length_renderDir cs
        simp [Norm.step, Norm.switch, Norm.behind, pathState, push, h0, h1, h2, hr, hl]
        omega

theorem dropSlashes_of_ne {s : Str} (h : s.head? ≠ some '/') : dropSlashes s = s := by
  cases s with
  | nil => rfl
  | cons c cs =>
    have hc : c ≠ '/' := by simpa using h
    simp [dropSlashes, hc]

theorem stripSlashes_of_ne {s : Str} (h : s.getLast? ≠ some '/') : stripSlashes s = s := by
  rw [stripSlashes, dropSlashes_of_ne (by simpa using h), List.reverse_reverse]

theorem stripSlashes_concat {s : Str} (h : s ≠ []) (hs : s.getLast? ≠ some '/') :
    stripSlashes (s ++ ['/']) = s := by
  have hr : s.reverse ≠ [] := by simpa using h
  have hd := dropSlashes_of_ne (s := s.reverse) (by simpa using hs)
  have hstep : dropSlashes ('/' :: s.reverse) = dropSlashes s.reverse := by
    cases hc : s.reverse with
    | nil => contradiction
    | cons c cs => simp [dropSlashes]
  rw [stripSlashes, List.reverse_append, List.reverse_singleton, List.singleton_append, hstep, hd,
    List.reverse_reverse]

theorem getLast?_of_ordinary (s : Str) {c : Str} (h : Ordinary c) :
    (s ++ c).getLast? ≠ some '/' := by
  rw [List.getLast?_append_of_ne_nil _ h.ne_nil]
  exact fun hl => h.no_slash (List.mem_of_getLast? hl)

theorem renderPath_append (cs : List Str) (c : Str) : renderPath (cs ++ [c]) = renderDir cs ++ c := by
  have he := renderDir_eq (List.append_ne_nil_of_right_ne_nil cs (List.cons_ne_nil c []))
  rw [renderDir_append] at he
  exact (List.append_cancel_right he).symm

theorem stripSlashes_renderDir {cs : List Str} (h : ∀ c ∈ cs, Ordinary c) :
    stripSlashes (renderDir cs) = renderPath cs := by
  cases cs using List.reverseRecOn with
  | nil => rfl
  | append_singleton cs c =>
    have hc := getLast?_of_ordinary (renderDir cs) (h c (by simp))
    have hne : renderDir cs ++ c ≠ [] := by simp [renderDir]
    rw [renderDir_append, stripSlashes_concat hne hc, renderPath_append]

theorem push_ordinary_mem {cs : List Str} {seg : Str} (hcs : ∀ c ∈ cs, Ordinary c)
    (hs : '/' ∉ seg) : ∀ c ∈ push cs seg, Ordinary c := by
  intro c hc
  have hr : resolve cs seg = push cs seg := by simp [resolve, splitSlash_of_no_slash hs]
  rcases mem_resolve (hr ▸ hc) with hk | hk
  · exact hcs c hk
  · exact hk.1

theorem Norm.step_end {cs : List Str} {seg : Str} (hcs : ∀ c ∈ cs, Ordinary c)
    (hs : '/' ∉ seg) :
    stripSlashes ((Norm.behind cs seg).step none).normalisedPath = renderPath (push cs seg) := by
  have hdir := stripSlashes_renderDir hcs
  by_cases h0 : seg = []
  · simp [Norm.step, Norm.switch, Norm.behind, pathState, push, h0, hdir]
  · by_cases h1 : seg = ['.']
    · have ht := take_renderDir cs ['.']
      simp [Norm.step, Norm.switch, Norm.behind, pathState, push, h1, ht, hdir]
    · by_cases h2 : seg = ['.', '.']
      · have hu := Norm.switch_up (fun c hc => (hcs c hc).no_slash) (.inr rfl) h2
        have hd : stripSlashes (renderDir cs.dropLast) = renderPath cs.dropLast :=
          stripSlashes_renderDir fun c hc => hcs c (List.dropLast_subset _ hc)
        rw [Norm.step, hu]
        simp [push, h2, Norm.behind, hd]
      · have ho : Ordinary seg := ⟨h0, h1, h2, hs⟩
        have hl := stripSlashes_of_ne (getLast?_of_ordinary (renderDir cs) ho)
        have hr := renderPath_append cs seg
        simp [Norm.step, Norm.switch, Norm.behind, pathState, push, h0, h1, h2, hl, hr]

theorem Norm.run (t : Str) {cs : List Str} {seg : Str} (hcs : ∀ c ∈ cs, Ordinary c)
    (hs : '/' ∉ seg) :
    stripSlashes ((t.foldl (fun n c => n.step (some c)) (Norm.behind cs seg)).step
      none).normalisedPath = renderPath (resolve cs (seg ++ t)) := by
  induction t generalizing cs seg with
  | nil =>
    rw [List.append_nil, resolve, splitSlash_of_no_slash hs]
    exact Norm.step_end hcs hs
  | cons c t ih =>
    by_cases hc : c = '/'
    · subst hc
      have hstep := Norm.step_slash (fun c h => (hcs c h).no_slash) seg
      have hi := ih (push_ordinary_mem hcs hs) (List.not_mem_nil : '/' ∉ ([] : Str))
      have hr : resolve cs seg = push cs seg := by simp [resolve, splitSlash_of_no_slash hs]
      rw [List.foldl_cons, hstep, hi, resolve_append_slash, hr, List.nil_append]
    · have hs' : '/' ∉ seg ++ [c] := by simp [hs, Ne.symm hc]
      have hi := ih hcs hs'
      rw [List.foldl_cons, Norm.step_char cs hc, hi, List.append_assoc, List.singleton_append]

/-- Normalisation of a rooted path is resolution of its components. -/
theorem normalise_eq (t : Str) : normalise ('/' :: t) = renderPath (resolve [] t) := by
  have hr := Norm.run t (List.forall_mem_nil Ordinary) (List.not_mem_nil : '/' ∉ ([] : Str))
  simpa [normalise, Norm.step, Norm.switch, Norm.behind, pathState, renderDir] using hr

/-! ## What the output buffer holds -/

/-- The texts in the output buffer while a token is handled: before it, cut back to the remembered
slash, behind the switch and behind the strncat. -/
def Norm.texts (n : Norm) (token : Option Char) : List Str :=
  [n.normalisedPath, n.normalisedPath.take n.currDir, (n.switch token).normalisedPath,
    (n.step token).normalisedPath]

def pathTokens (path : Str) : List (Option Char) := path.map some ++ [none]

theorem normalise_tokens (path : Str) :
    normalise path = stripSlashes ((pathTokens path).foldl Norm.step {}).normalisedPath := by
  simp [normalise, pathTokens, List.foldl_map]

theorem Norm.length_switch (n : Norm) (token : Option Char) :
    (n.switch token).normalisedPath.length ≤ (n.step token).normalisedPath.length := by
  cases token with
  | none => simp [Norm.step]
  | some c =>
    simp only [Norm.step]
    split <;> simp

theorem length_behind (cs : List Str) (seg : Str) :
    (Norm.behind cs seg).normalisedPath.length = weight cs + 1 + seg.length := by
  simp [Norm.behind, length_renderDir]

theorem Norm.length_step {cs : List Str} {seg : Str} (hcs : ∀ c ∈ cs, '/' ∉ c) (hs : '/' ∉ seg)
    (token : Option Char) :
    ((Norm.behind cs seg).step token).normalisedPath.length ≤
      weight cs + 1 + seg.length + token.toList.length := by
  cases token with
  | none =>
    have hkept : ∀ cut : Str, cut <+: (Norm.behind cs seg).normalisedPath →
        cut.length ≤ weight cs + 1 + seg.length := fun cut hcut => by
      rw [← length_behind]
      exact hcut.length_le
    by_cases h2 : seg = ['.', '.']
    · have hdrop := weight_dropLast cs
      rw [Norm.step, Norm.switch_up hcs (.inr rfl) h2, length_behind]
      simp only [List.length_nil]
      omega
    · refine hkept _ ?_
      by_cases h0 : seg = []
      · simp [Norm.step, Norm.switch, Norm.behind, pathState, h0]
      · by_cases h1 : seg = ['.']
        · simp only [Norm.step, Norm.switch, Norm.behind, pathState, h1]
          simpa using List.take_prefix (weight cs + 1) (renderDir cs ++ ['.'])
        · simp [Norm.step, Norm.switch, Norm.behind, pathState, h0, h1, h2]
  | some c =>
    by_cases hc : c = '/'
    · subst hc
      have hpush := (weight_push cs seg hs).1
      rw [Norm.step_slash hcs, length_behind]
      simp only [List.length_nil, Option.toList_some, List.length_singleton]
      omega
    · rw [Norm.step_char cs hc, length_behind]
      simp only [List.length_append, Option.toList_some, List.length_singleton]
      omega

theorem Norm.reached (t : Str) : ∃ cs seg, (∀ c ∈ cs, Ordinary c) ∧ '/' ∉ seg ∧
    weight cs + seg.length ≤ t.length ∧
    (('/' :: t).map some).foldl Norm.step {} = Norm.behind cs seg := by
  induction t using List.reverseRecOn with
  | nil => exact ⟨[], [], by simp, by simp, le_rfl, rfl⟩
  | append_singleton t c ih =>
    obtain ⟨cs, seg, hcs, hs, hlen, hrun⟩ := ih
    have hstep : (('/' :: (t ++ [c])).map some).foldl Norm.step {} =
        (Norm.behind cs seg).step (some c) := by
      rw [← hrun]
      simp
    by_cases hc : c = '/'
    · subst hc
      have hpush := (weight_push cs seg hs).1
      refine ⟨push cs seg, [], push_ordinary_mem hcs hs, by simp, ?_, ?_⟩
      · simp only [List.length_nil, List.length_append, List.length_singleton]
        omega
      · rw [hstep, Norm.step_slash fun c h => (hcs c h).no_slash]
    · refine ⟨cs, seg ++ [c], hcs, by simp [hs, Ne.symm hc], ?_, ?_⟩
      · simp only [List.length_append, List.length_singleton]
        omega
      · rw [hstep, Norm.step_char cs hc]

theorem pathTokens_split {path : Str} {seen rest : List (Option Char)} {token : Option Char}
    (h : pathTokens path = seen ++ token :: rest) :
    ∃ t u, path = t ++ u ∧ seen = t.map some ∧ token = u.head? := by
  induction path generalizing seen with
  | nil =>
    cases seen with
    | nil => exact ⟨[], [], rfl, rfl, by simpa [pathTokens] using (congrArg List.head? h).symm⟩
    | cons d seen => simp [pathTokens] at h
  | cons c path ih =>
    cases seen with
    | nil =>
      exact ⟨[], c :: path, rfl, rfl, by simpa [pathTokens] using (congrArg List.head? h).symm⟩
    | cons d seen =>
      obtain ⟨rfl, htail⟩ : some c = d ∧ pathTokens path = seen ++ token :: rest := by
        simpa [pathTokens] using h
      obtain ⟨t, u, rfl, rfl, htoken⟩ := ih htail
      exact ⟨c :: t, u, rfl, rfl, htoken⟩

/-- Normalising a rooted path never holds more than its characters. -/
theorem length_texts {path : Str} (hroot : path.head? = some '/') {seen rest : List (Option Char)}
    {token : Option Char} (h : pathTokens path = seen ++ token :: rest) :
    ∀ b ∈ (seen.foldl Norm.step {}).texts token, b.length ≤ path.length := by
  obtain ⟨t, u, rfl, rfl, rfl⟩ := pathTokens_split h
  cases t with
  | nil =>
    obtain ⟨v, rfl⟩ : ∃ v, u = '/' :: v := List.head?_eq_some_iff.mp hroot
    simp [Norm.texts, Norm.step, Norm.switch]
  | cons c t =>
    obtain rfl : c = '/' := by simpa using hroot
    obtain ⟨cs, seg, hcs, hs, hbound, hrun⟩ := Norm.reached t
    have hstep := Norm.length_step (fun c h => (hcs c h).no_slash) hs u.head?
    have hswitch := Norm.length_switch (Norm.behind cs seg) u.head?
    have hnow := length_behind cs seg
    have hcut : ((Norm.behind cs seg).normalisedPath.take (Norm.behind cs seg).currDir).length ≤
        (Norm.behind cs seg).normalisedPath.length := List.length_take_le' _ _
    have hnext : u.head?.toList.length ≤ u.length := by cases u <;> simp
    rw [hrun]
    simp only [Norm.texts, List.forall_mem_cons, List.not_mem_nil, false_implies, implies_true,
      and_true, List.length_append, List.length_cons]
    omega

end Ftpii
