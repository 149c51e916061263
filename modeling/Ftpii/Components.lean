import Mathlib.Algebra.BigOperators.Group.List.Basic
import Mathlib.Algebra.Ring.Nat
import Mathlib.Data.List.Basic
set_option autoImplicit false

/-!
Slash-separated paths as lists of components: splitting at '/', resolving the
empty, "." and ".." components against what was kept before, and rendering.
-/

namespace Components

/-- The pieces between the slashes, empty ones included. -/
def splitSlash : List Char → List (List Char)
  | [] => [[]]
  | c :: cs =>
    if c = '/' then [] :: splitSlash cs
    else match splitSlash cs with
      | [] => [[c]]
      | p :: ps => (c :: p) :: ps

/-- A component a resolved path may hold. -/
structure Ordinary (c : List Char) : Prop where
  ne_nil : c ≠ []
  ne_dot : c ≠ ['.']
  ne_dotdot : c ≠ ['.', '.']
  no_slash : '/' ∉ c

def push (kept : List (List Char)) (c : List Char) : List (List Char) :=
  if c = [] ∨ c = ['.'] then kept
  else if c = ['.', '.'] then kept.dropLast
  else kept ++ [c]

def resolve (kept : List (List Char)) (s : List Char) : List (List Char) :=
  (splitSlash s).foldl push kept

/-- "/" or "/c1/.../cn/". -/
def renderDir (cs : List (List Char)) : List Char := '/' :: cs.flatMap (· ++ ['/'])

/-- "c1/.../cn". -/
def joinSlash : List (List Char) → List Char
  | [] => []
  | [c] => c
  | c :: cs => c ++ '/' :: joinSlash cs

/-- "/" or "/c1/.../cn". -/
def renderPath (cs : List (List Char)) : List Char := '/' :: joinSlash cs

theorem splitSlash_ne_nil (s : List Char) : splitSlash s ≠ [] := by
  cases s with
  | nil => simp [splitSlash]
  | cons c cs =>
    simp only [splitSlash]
    split
    · simp
    · split <;> simp

@[simp] theorem splitSlash_slash (s : List Char) : splitSlash ('/' :: s) = [] :: splitSlash s := by
  simp [splitSlash]

theorem splitSlash_append_slash (s t : List Char) :
    splitSlash (s ++ '/' :: t) = splitSlash s ++ splitSlash t := by
  induction s with
  | nil => simp [splitSlash]
  | cons c cs ih =>
    simp only [List.cons_append, splitSlash]
    split
    · simp [ih]
    · rw [ih]
      cases hs : splitSlash cs with
      | nil => exact absurd hs (splitSlash_ne_nil cs)
      | cons p ps => simp

theorem splitSlash_of_no_slash {s : List Char} (h : '/' ∉ s) : splitSlash s = [s] := by
  induction s with
  | nil => rfl
  | cons c cs ih =>
    have hc : c ≠ '/' := fun he => h (by simp [he])
    have ht : '/' ∉ cs := fun hm => h (List.mem_cons_of_mem _ hm)
    simp [splitSlash, hc, ih ht]

theorem no_slash_of_mem_splitSlash {s c : List Char} (h : c ∈ splitSlash s) : '/' ∉ c := by
  induction s generalizing c with
  | nil => simp [splitSlash] at h; simp [h]
  | cons d ds ih =>
    by_cases hd : d = '/'
    · subst hd
      simp only [splitSlash_slash, List.mem_cons] at h
      rcases h with rfl | h
      · simp
      · exact ih h
    · cases hs : splitSlash ds with
      | nil => exact absurd hs (splitSlash_ne_nil ds)
      | cons p ps =>
        simp only [splitSlash, hd, if_false, hs, List.mem_cons] at h
        rcases h with rfl | h
        · have hp := ih (c := p) (by simp [hs])
          simp [Ne.symm hd, hp]
        · exact ih (by simp [hs, h])

theorem mem_of_mem_splitSlash {s c : List Char} {x : Char} (h : c ∈ splitSlash s) (hx : x ∈ c) :
    x ∈ s := by
  induction s generalizing c with
  | nil => simp [splitSlash] at h; simp [h] at hx
  | cons d ds ih =>
    by_cases hd : d = '/'
    · subst hd
      simp only [splitSlash_slash, List.mem_cons] at h
      rcases h with rfl | h
      · simp at hx
      · exact List.mem_cons_of_mem _ (ih h hx)
    · cases hs : splitSlash ds with
      | nil => exact absurd hs (splitSlash_ne_nil ds)
      | cons p ps =>
        simp only [splitSlash, hd, if_false, hs, List.mem_cons] at h
        rcases h with rfl | h
        · rcases List.mem_cons.mp hx with rfl | hx
          · simp
          · exact List.mem_cons_of_mem _ (ih (c := p) (by simp [hs]) hx)
        · exact List.mem_cons_of_mem _ (ih (by simp [hs, h]) hx)

theorem push_ordinary (kept : List (List Char)) {c : List Char} (h : Ordinary c) :
    push kept c = kept ++ [c] := by
  simp [push, h.ne_nil, h.ne_dot, h.ne_dotdot]

theorem foldl_push_ordinary (kept : List (List Char)) {cs : List (List Char)}
    (h : ∀ c ∈ cs, Ordinary c) : cs.foldl push kept = kept ++ cs := by
  induction cs generalizing kept with
  | nil => simp
  | cons c cs ih =>
    have hc := push_ordinary kept (h c (by simp))
    have ht := ih (kept ++ [c]) (fun d hd => h d (by simp [hd]))
    simp [hc, ht]

theorem push_append (kept : List (List Char)) {acc : List (List Char)} {c : List Char}
    (h : c ≠ ['.', '.']) : push (kept ++ acc) c = kept ++ push acc c := by
  rw [push, push, if_neg h, if_neg h]
  split
  · rfl
  · rw [List.append_assoc]

/-- Without ".." nothing kept before is removed. -/
theorem foldl_push_append (kept acc : List (List Char)) {ps : List (List Char)}
    (h : ['.', '.'] ∉ ps) : ps.foldl push (kept ++ acc) = kept ++ ps.foldl push acc := by
  induction ps generalizing acc with
  | nil => rfl
  | cons c ps ih =>
    have hc : c ≠ ['.', '.'] := fun he => h (by simp [he])
    have hps : ['.', '.'] ∉ ps := fun hm => h (List.mem_cons_of_mem c hm)
    rw [List.foldl_cons, List.foldl_cons, push_append kept hc, ih (push acc c) hps]

theorem resolve_append (kept : List (List Char)) {s : List Char}
    (h : ['.', '.'] ∉ splitSlash s) : resolve kept s = kept ++ resolve [] s := by
  simpa [resolve] using foldl_push_append kept [] h

theorem resolve_append_slash (kept : List (List Char)) (s t : List Char) :
    resolve kept (s ++ '/' :: t) = resolve (resolve kept s) t := by
  simp [resolve, splitSlash_append_slash]

@[simp] theorem resolve_slash (kept : List (List Char)) (s : List Char) :
    resolve kept ('/' :: s) = resolve kept s := by
  simp [resolve, push]

@[simp] theorem resolve_nil (kept : List (List Char)) : resolve kept [] = kept := by
  simp [resolve, splitSlash, push]

theorem resolve_ordinary (kept : List (List Char)) {c : List Char} (h : Ordinary c) :
    resolve kept c = kept ++ [c] := by
  simp [resolve, splitSlash_of_no_slash h.no_slash, push_ordinary kept h]

theorem mem_resolve {kept : List (List Char)} {s c : List Char} (h : c ∈ resolve kept s) :
    c ∈ kept ∨ (Ordinary c ∧ ∀ x ∈ c, x ∈ s) := by
  have key : ∀ (ps kept : List (List Char)), (∀ p ∈ ps, '/' ∉ p ∧ ∀ x ∈ p, x ∈ s) →
      c ∈ ps.foldl push kept → c ∈ kept ∨ (Ordinary c ∧ ∀ x ∈ c, x ∈ s) := by
    intro ps
    induction ps with
    | nil => intro kept _ hc; exact .inl hc
    | cons p ps ih =>
      intro kept hps hc
      have ht := ih (push kept p) (fun q hq => hps q (by simp [hq])) hc
      rcases ht with hp | hp
      · simp only [push] at hp
        split at hp
        · exact .inl hp
        · rename_i h1
          split at hp
          · exact .inl (List.dropLast_subset _ hp)
          · rename_i h2
            rcases List.mem_append.mp hp with hk | hk
            · exact .inl hk
            · have he : c = p := by simpa using hk
              subst he
              have hs := hps c (by simp)
              exact .inr ⟨⟨fun h => h1 (.inl h), fun h => h1 (.inr h), h2, hs.1⟩, hs.2⟩
      · exact .inr hp
  exact key (splitSlash s) kept
    (fun p hp => ⟨no_slash_of_mem_splitSlash hp, fun x hx => mem_of_mem_splitSlash hp hx⟩) h

theorem renderDir_append (cs : List (List Char)) (c : List Char) :
    renderDir (cs ++ [c]) = renderDir cs ++ c ++ ['/'] := by
  simp [renderDir]

theorem renderDir_cons (c : List Char) (cs : List (List Char)) :
    renderDir (c :: cs) = '/' :: c ++ renderDir cs := by
  simp [renderDir]

theorem renderPath_cons_cons (c d : List Char) (cs : List (List Char)) :
    renderPath (c :: d :: cs) = '/' :: c ++ renderPath (d :: cs) := rfl

theorem renderDir_eq {cs : List (List Char)} (h : cs ≠ []) :
    renderDir cs = renderPath cs ++ ['/'] := by
  induction cs with
  | nil => contradiction
  | cons c cs ih =>
    cases cs with
    | nil => simp [renderDir, renderPath, joinSlash]
    | cons d ds => rw [renderDir_cons, ih (by simp), renderPath_cons_cons, List.append_assoc]

/-- Resolving a rendered directory gives its components back. -/
theorem resolve_renderDir (kept : List (List Char)) {cs : List (List Char)}
    (h : ∀ c ∈ cs, Ordinary c) (s : List Char) :
    resolve kept (renderDir cs ++ s) = resolve (kept ++ cs) s := by
  induction cs generalizing kept with
  | nil => simp [renderDir]
  | cons c cs ih =>
    have hc := h c (by simp)
    have ht := ih (kept ++ [c]) (fun d hd => h d (by simp [hd]))
    have hr : renderDir (c :: cs) ++ s = '/' :: (c ++ (renderDir cs ++ s)) := by
      simp [renderDir_cons]
    have hd : renderDir cs ++ s = '/' :: (cs.flatMap (· ++ ['/']) ++ s) := rfl
    rw [hr, resolve_slash, hd, resolve_append_slash, resolve_ordinary kept hc]
    rw [← resolve_slash, ← hd, ht]
    simp

/-- The characters a list of components takes with one slash each. -/
def weight (cs : List (List Char)) : Nat := (cs.map (·.length + 1)).sum

@[simp] theorem weight_nil : weight [] = 0 := rfl

@[simp] theorem weight_cons (c : List Char) (cs : List (List Char)) :
    weight (c :: cs) = c.length + 1 + weight cs := by simp [weight]

@[simp] theorem weight_append (cs ds : List (List Char)) :
    weight (cs ++ ds) = weight cs + weight ds := by simp [weight]

theorem weight_splitSlash (s : List Char) : weight (splitSlash s) = s.length + 1 := by
  induction s with
  | nil => rfl
  | cons c cs ih =>
    by_cases hc : c = '/'
    · subst hc
      simp [ih]
      omega
    · cases hs : splitSlash cs with
      | nil => exact absurd hs (splitSlash_ne_nil cs)
      | cons p ps =>
        rw [hs] at ih
        simp only [weight_cons] at ih
        simp only [splitSlash, hc, if_false, hs, weight_cons, List.length_cons]
        omega

theorem length_renderPath {cs : List (List Char)} (h : cs ≠ []) :
    (renderPath cs).length = weight cs := by
  induction cs with
  | nil => contradiction
  | cons c cs ih =>
    cases cs with
    | nil => simp [renderPath, joinSlash]
    | cons d ds =>
      have hd := ih (by simp)
      rw [renderPath_cons_cons, List.length_append, hd]
      simp

theorem length_renderDir (cs : List (List Char)) : (renderDir cs).length = weight cs + 1 := by
  induction cs with
  | nil => rfl
  | cons c cs ih =>
    rw [renderDir_cons, List.length_append, ih]
    simp
    omega

theorem weight_dropLast (cs : List (List Char)) : weight cs.dropLast ≤ weight cs := by
  induction cs with
  | nil => simp
  | cons c cs ih =>
    cases cs with
    | nil => simp
    | cons d ds =>
      simp only [List.dropLast_cons_of_ne_nil (List.cons_ne_nil d ds), weight_cons] at *
      omega

theorem weight_push (kept : List (List Char)) (c : List Char) (hc : '/' ∉ c) :
    weight (push kept c) ≤ weight kept + c.length + 1 ∧
      (weight (push kept c) = weight kept + c.length + 1 → Ordinary c) := by
  have hd := weight_dropLast kept
  unfold push
  split
  · constructor <;> omega
  · rename_i h1
    split
    · constructor <;> omega
    · rename_i h2
      refine ⟨by simp; omega, fun _ => ⟨fun h => h1 (.inl h), fun h => h1 (.inr h), h2, hc⟩⟩

/-- Resolution never lengthens, and keeps the length only of ordinary components. -/
theorem weight_foldl_push (ps kept : List (List Char)) (hs : ∀ p ∈ ps, '/' ∉ p) :
    weight (ps.foldl push kept) ≤ weight kept + weight ps ∧
      (weight (ps.foldl push kept) = weight kept + weight ps → ∀ p ∈ ps, Ordinary p) := by
  induction ps generalizing kept with
  | nil => simp
  | cons p ps ih =>
    have hp := weight_push kept p (hs p (by simp))
    have ht := ih (push kept p) (fun q hq => hs q (by simp [hq]))
    simp only [List.foldl_cons, weight_cons]
    refine ⟨by omega, fun he q hq => ?_⟩
    rcases List.mem_cons.mp hq with rfl | hq
    · exact hp.2 (by omega)
    · exact ht.2 (by omega) q hq

theorem joinSlash_splitSlash (s : List Char) : joinSlash (splitSlash s) = s := by
  induction s with
  | nil => rfl
  | cons c cs ih =>
    cases hs : splitSlash cs with
    | nil => exact absurd hs (splitSlash_ne_nil cs)
    | cons p ps =>
      rw [hs] at ih
      by_cases hc : c = '/'
      · subst hc
        simp [hs, joinSlash, ih]
      · simp only [splitSlash, hc, if_false, hs]
        cases ps with
        | nil => simpa [joinSlash] using ih
        | cons q qs => simpa [joinSlash] using ih

theorem splitSlash_joinSlash {cs : List (List Char)} (hne : cs ≠ []) (h : ∀ c ∈ cs, '/' ∉ c) :
    splitSlash (joinSlash cs) = cs := by
  induction cs with
  | nil => contradiction
  | cons c cs ih =>
    have hc := splitSlash_of_no_slash (h c (by simp))
    cases cs with
    | nil => simpa [joinSlash] using hc
    | cons d ds =>
      have hd := ih (by simp) fun e he => h e (by simp [he])
      simp [joinSlash, splitSlash_append_slash, hc, hd]

theorem length_renderPath_resolve (t : List Char) :
    (renderPath (resolve [] t)).length ≤ t.length + 1 ∧
      ((renderPath (resolve [] t)).length = t.length + 1 →
        renderPath (resolve [] t) = '/' :: t) := by
  have hw := weight_foldl_push (splitSlash t) [] (fun p hp => no_slash_of_mem_splitSlash hp)
  rw [weight_splitSlash] at hw
  by_cases he : resolve [] t = []
  · rw [he]
    refine ⟨by simp [renderPath, joinSlash], fun hl => ?_⟩
    have ht : t = [] := by
      have : t.length = 0 := by simpa [renderPath, joinSlash] using hl
      simpa using this
    simp [ht, renderPath, joinSlash]
  · rw [length_renderPath he]
    refine ⟨by simpa [resolve] using hw.1, fun hl => ?_⟩
    have ho := hw.2 (by simpa [resolve] using hl)
    have hf := foldl_push_ordinary [] ho
    have hr : resolve [] t = splitSlash t := by simpa [resolve] using hf
    rw [hr, renderPath, joinSlash_splitSlash]

end Components
