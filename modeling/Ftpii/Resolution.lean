import Ftpii.Parties
import Ftpii.PathBounds
set_option autoImplicit false

/-!
What to_real_path returns for every directory and path, memory aside, and how a change of
directory composes with it.
-/

namespace Ftpii
open StateProgram Prog CString Components

/-! ## The exact result -/

def Joins (cwd path : Str) : Prop :=
  path.head? = some '/' ∨ cwd.length + path.length + 1 ≤ MAXPATHLEN

/-- What to_real_path returns when memory suffices, which takes no more than three allocations. -/
def ResolvesTo (cwd path : Str) (real : Option Str) : Prop :=
  ∃ n ≤ 3, ∀ w : World,
    (toRealPath cwd path w).1 = if w.answers.Allocated n then real else none

/-- The real path below a partition, if it fits. -/
def below (p : Partition) (ds : List Str) : Option Str :=
  if (p.prefix_ ++ joinSlash ds).length + 1 ≤ MAXPATHLEN then some (p.prefix_ ++ joinSlash ds)
  else none

theorem resolvesTo_none {cwd path : Str} (h : ∀ w, (toRealPath cwd path w).1 = none) :
    ResolvesTo cwd path none := ⟨0, by omega, fun w => by simp [h w]⟩

theorem toRealPath_colon {cwd path : Str} (h : ':' ∈ path) (w : World) :
    (toRealPath cwd path w).1 = none := by
  simp [toRealPath, h]

theorem virtualAbspath_long {cwd path : Str} (h : ¬ Joins cwd path) (w : World) :
    virtualAbspath cwd path w = (none, w) := by
  have habs : path.head? ≠ some '/' := fun he => h (.inl he)
  have hlong : MAXPATHLEN < cwd.length + path.length + 1 := by
    by_contra hle
    exact h (.inr (by omega))
  rw [virtualAbspath, if_neg habs, if_pos hlong]
  rfl

theorem toRealPath_long {cwd path : Str} (h : ¬ Joins cwd path) (w : World) :
    (toRealPath cwd path w).1 = none := by
  simp only [toRealPath, bind_run, ite_run, virtualAbspath_long h, pure_run]
  split <;> rfl

theorem toRealPath_joins {cwd path real : Str} {w : World}
    (h : (toRealPath cwd path w).1 = some real) : Joins cwd path := by
  by_contra hj
  rw [toRealPath_long hj] at h
  contradiction

def joined (cwd path : Str) : Str := if path.head? = some '/' then path else cwd ++ path

def joinAllocations (path : Str) : Nat := if path.head? = some '/' then 1 else 2

theorem joinAllocations_le (path : Str) : joinAllocations path ≤ 2 := by
  rw [joinAllocations]
  split <;> omega

theorem virtualAbspath_run {cwd path : Str} (hj : Joins cwd path) (w : World) :
    (virtualAbspath cwd path w).1 =
        (if w.answers.Allocated (joinAllocations path) then some (normalise (joined cwd path))
          else none) ∧
      (w.answers.Allocated (joinAllocations path) →
        (virtualAbspath cwd path w).2.answers = w.answers.allocate (joinAllocations path)) := by
  by_cases habs : path.head? = some '/'
  · obtain ⟨hn, ha⟩ := normaliseAlloc_run path w
    rw [virtualAbspath, if_pos habs, hn, joined, if_pos habs, joinAllocations, if_pos habs]
    exact ⟨rfl, fun _ => ha⟩
  · rw [joined, if_neg habs, joinAllocations, if_neg habs]
    exact virtualAbspath_relative habs (hj.resolve_left habs) w

theorem normalise_rooted {path : Str} (h : path.head? = some '/') :
    normalise path = renderPath (resolve [] path) := by
  obtain ⟨t, rfl⟩ : ∃ t, path = '/' :: t := List.head?_eq_some_iff.mp h
  rw [normalise_eq, resolve_slash]

theorem normalise_joined {cs : List Str} (hcs : ∀ c ∈ cs, Ordinary c) (path : Str) :
    normalise (joined (renderDir cs) path) = renderPath (resolveIn cs path) := by
  by_cases habs : path.head? = some '/'
  · rw [joined, if_pos habs, resolveIn, if_pos habs, normalise_rooted habs]
  · rw [joined, if_neg habs, resolveIn, if_neg habs, normalise_append hcs]

theorem virtualAbspath_joins {cs : List Str} (hcs : ∀ c ∈ cs, Ordinary c) {path : Str}
    (hj : Joins (renderDir cs) path) : ∃ n ≤ 2, ∀ w : World,
      (virtualAbspath (renderDir cs) path w).1 =
          (if w.answers.Allocated n then some (renderPath (resolveIn cs path)) else none) ∧
        (w.answers.Allocated n →
          (virtualAbspath (renderDir cs) path w).2.answers = w.answers.allocate n) := by
  rw [← normalise_joined hcs]
  exact ⟨_, joinAllocations_le path, virtualAbspath_run hj⟩

theorem getLast?_renderPath {cs : List Str} (hcs : ∀ c ∈ cs, Ordinary c) :
    renderPath cs = ['/'] ∨ (renderPath cs).getLast? ≠ some '/' := by
  cases cs using List.reverseRecOn with
  | nil => exact .inl rfl
  | append_singleton cs c =>
    rw [renderPath_append]
    exact .inr (getLast?_of_ordinary (renderDir cs) (hcs c (by simp)))

/-- virtual_abspath returns '/' and the components that are left of the joined path, with no slash
behind them. That is what the automaton makes of the tokens of the path, and at none of them does its
output buffer hold more characters than the path has. -/
theorem virtualAbspath_exact {cwd path : Str} (hcwd : cwd.head? = some '/') (hj : Joins cwd path) :
    (∃ n ≤ 2, ∀ w : World, (virtualAbspath cwd path w).1 =
      if w.answers.Allocated n then some (renderPath (resolve [] (joined cwd path))) else none) ∧
    (renderPath (resolve [] (joined cwd path)) = ['/'] ∨
      (renderPath (resolve [] (joined cwd path))).getLast? ≠ some '/') ∧
    renderPath (resolve [] (joined cwd path)) =
      stripSlashes ((pathTokens (joined cwd path)).foldl Norm.step {}).normalisedPath ∧
    ∀ seen token rest, pathTokens (joined cwd path) = seen ++ token :: rest →
      ∀ b ∈ (seen.foldl Norm.step {}).texts token, b.length ≤ (joined cwd path).length := by
  have hroot : (joined cwd path).head? = some '/' := by
    by_cases habs : path.head? = some '/'
    · rw [joined, if_pos habs, habs]
    · rw [joined, if_neg habs, List.head?_append, hcwd]
      rfl
  have hordinary : ∀ c ∈ resolve [] (joined cwd path), Ordinary c := fun c hc =>
    ((mem_resolve hc).resolve_left List.not_mem_nil).1
  refine ⟨⟨_, joinAllocations_le path, fun w => ?_⟩, getLast?_renderPath hordinary, ?_,
    fun seen token rest h => ?_⟩
  · rw [(virtualAbspath_run hj w).1, normalise_rooted hroot]
  · rw [← normalise_rooted hroot, normalise_tokens]
  · exact length_texts hroot h

/-- Names with dots are kept, and what climbs over the root stays there. -/
theorem virtualAbspath_exact_dots :
    renderPath (resolve [] (joined "/sd/".toList "../../..a//.../x/./../".toList)) =
      "/..a/...".toList ∧
    ∃ n ≤ 2, ∀ w : World, (virtualAbspath "/sd/".toList "../../..a//.../x/./../".toList w).1 =
      if w.answers.Allocated n then some (renderPath (resolve []
        (joined "/sd/".toList "../../..a//.../x/./../".toList))) else none :=
  ⟨by decide +kernel, (virtualAbspath_exact (by decide) (.inr (by decide))).1⟩

theorem renderPath_ne_root {c : Str} (hc : Ordinary c) (ds : List Str) :
    renderPath (c :: ds) ≠ ['/'] := by
  have hl := length_renderPath (List.cons_ne_nil c ds)
  have hpos := List.length_pos_of_ne_nil hc.ne_nil
  intro he
  rw [he, weight_cons] at hl
  simp at hl
  omega

theorem findPartition_none {c : Str} (ds : List Str) (hc : '/' ∉ c)
    (h : ∀ p : Partition, ¬ p.Names c) : findPartition (renderPath (c :: ds)) = none := by
  cases hf : findPartition (renderPath (c :: ds)) with
  | none => rfl
  | some p => exact absurd (names_of_matchesAlias hc (List.find?_some hf)) (h p)

theorem toRealPath_root {cwd path : Str} (hcolon : ':' ∉ path) (hj : Joins cwd path)
    (hroot : normalise (joined cwd path) = ['/']) (w : World) :
    (toRealPath cwd path w).1 =
        (if w.answers.Allocated (joinAllocations path) then some [] else none) ∧
      (w.answers.Allocated (joinAllocations path) →
        (toRealPath cwd path w).2.answers = w.answers.allocate (joinAllocations path)) := by
  obtain ⟨hv, hva⟩ := virtualAbspath_run hj (setErrno ENOENT w).2
  have hans : (setErrno ENOENT w).2.answers = w.answers := rfl
  rw [hroot, hans] at hv
  rw [hans] at hva
  rw [toRealPath, bind_run, if_neg hcolon, bind_run, hv]
  by_cases ha : w.answers.Allocated (joinAllocations path)
  · simpa [ha] using hva ha
  · simp [ha]

section Exact

variable {cs : List Str} (hcs : ∀ c ∈ cs, Ordinary c) {path : Str} (hcolon : ':' ∉ path)
  (hj : Joins (renderDir cs) path)

include hcs hcolon hj

theorem resolves_root (hr : resolveIn cs path = []) : ResolvesTo (renderDir cs) path (some []) := by
  have hroot : normalise (joined (renderDir cs) path) = ['/'] := by
    rw [normalise_joined hcs, hr]
    rfl
  have hn := joinAllocations_le path
  exact ⟨joinAllocations path, by omega, fun w => (toRealPath_root hcolon hj hroot w).1⟩

variable {c : Str} {ds : List Str} (hr : resolveIn cs path = c :: ds)

include hr

theorem resolves_below {p : Partition} (hp : p.Names c) :
    ResolvesTo (renderDir cs) path (below p ds) := by
  have hc : Ordinary c := resolveIn_ordinary hcs path c (by simp [hr])
  have hroot := renderPath_ne_root hc ds
  have hfind := findPartition_of_names ds hc.no_slash hp
  have hrest := restOf_eq ds hp
  obtain ⟨n, hn, hrun⟩ := virtualAbspath_joins hcs hj
  rw [hr] at hrun
  by_cases hlen : (p.prefix_ ++ joinSlash ds).length + 1 ≤ MAXPATHLEN
  · have hnot : ¬ MAXPATHLEN < p.prefix_.length + (joinSlash ds).length + 1 := by
      rw [List.length_append] at hlen
      omega
    refine ⟨n + 1, by omega, fun w => ?_⟩
    obtain ⟨hv, hva⟩ := hrun (setErrno ENOENT w).2
    have hans : (setErrno ENOENT w).2.answers = w.answers := rfl
    rw [hans] at hv hva
    have hadd := w.answers.allocated_add n 1
    rw [toRealPath, bind_run, if_neg hcolon, bind_run, hv, below, if_pos hlen]
    by_cases ha : w.answers.Allocated n
    · obtain ⟨hok, -⟩ := malloc_run (virtualAbspath (renderDir cs) path (setErrno ENOENT w).2).2
      rw [hva ha] at hok
      simp only [if_pos ha, ite_run, hroot, if_false, hfind, hrest, hnot, bind_run, pure_run, hok]
      simp [hadd, ha]
    · simp [hadd, ha]
  · have htoo : MAXPATHLEN < p.prefix_.length + (joinSlash ds).length + 1 := by
      rw [List.length_append] at hlen
      omega
    rw [below, if_neg hlen]
    refine resolvesTo_none fun w => ?_
    obtain ⟨hv, -⟩ := hrun (setErrno ENOENT w).2
    rw [toRealPath, bind_run, if_neg hcolon, bind_run, hv]
    split
    · simp [hroot, hfind, hrest, htoo]
    · simp

theorem resolves_nowhere (hno : ∀ p : Partition, ¬ p.Names c) :
    ResolvesTo (renderDir cs) path none ∧
      ∃ n ≤ 2, ∀ w : World, w.answers.Allocated n →
        (toRealPath (renderDir cs) path w).2.errno = ENODEV := by
  have hc : Ordinary c := resolveIn_ordinary hcs path c (by simp [hr])
  have hroot := renderPath_ne_root hc ds
  have hfind := findPartition_none ds hc.no_slash hno
  obtain ⟨n, hn, hrun⟩ := virtualAbspath_joins hcs hj
  rw [hr] at hrun
  refine ⟨resolvesTo_none fun w => ?_, n, hn, fun w ha => ?_⟩
  · obtain ⟨hv, -⟩ := hrun (setErrno ENOENT w).2
    rw [toRealPath, bind_run, if_neg hcolon, bind_run, hv]
    split
    · simp [hroot, hfind]
    · simp
  · obtain ⟨hv, -⟩ := hrun (setErrno ENOENT w).2
    have hans : (setErrno ENOENT w).2.answers = w.answers := rfl
    rw [hans, if_pos ha] at hv
    rw [toRealPath, bind_run, if_neg hcolon, bind_run, hv]
    simp [hroot, hfind, setErrno]

end Exact

def Partition.named (c : Str) : Option Partition :=
  VIRTUAL_PARTITIONS.find? fun p => caseEq p.alias_ ('/' :: c)

theorem Partition.named_eq_some {p : Partition} {c : Str} : Partition.named c = some p ↔ p.Names c := by
  have hfound : ∀ {q : Partition}, Partition.named c = some q → q.Names c := by
    intro q h
    unfold Partition.named at h
    simpa [Partition.Names] using List.find?_some h
  constructor
  · exact hfound
  · intro h
    cases hf : Partition.named c with
    | none =>
      have hn := List.find?_eq_none.mp hf p p.mem_virtualPartitions
      exact absurd h hn
    | some q => rw [(hfound hf).unique h]

def realPath : List Str → Option Str
  | [] => some []
  | c :: ds => (Partition.named c).bind fun p => below p ds

/-- Every colon-free path that joins is resolved by its components alone. -/
theorem resolvesTo_realPath {cs : List Str} (hcs : ∀ c ∈ cs, Ordinary c) {path : Str}
    (hcolon : ':' ∉ path) (hj : Joins (renderDir cs) path) :
    ResolvesTo (renderDir cs) path (realPath (resolveIn cs path)) := by
  cases hr : resolveIn cs path with
  | nil => exact resolves_root hcs hcolon hj hr
  | cons c ds =>
    cases hn : Partition.named c with
    | none =>
      have hno : ∀ p : Partition, ¬ p.Names c := fun p hp => by
        simp [Partition.named_eq_some.mpr hp] at hn
      simpa [realPath, hn] using (resolves_nowhere hcs hcolon hj hr hno).1
    | some p =>
      have hp := Partition.named_eq_some.mp hn
      simpa [realPath, hn] using resolves_below hcs hcolon hj hr hp

theorem toRealPath_of_absolute {path : Str} (h : path.head? = some '/') (cwd cwd' : Str) :
    toRealPath cwd path = toRealPath cwd' path := by
  have hv : virtualAbspath cwd path = virtualAbspath cwd' path := by
    rw [virtualAbspath, virtualAbspath, if_pos h, if_pos h]
  rw [toRealPath, toRealPath, hv]

/-! ## Equal real paths -/

/-- The same components, the first one up to its case. -/
def SameButCase : List Str → List Str → Prop
  | [], [] => True
  | c :: cs, d :: ds => caseEq c d = true ∧ cs = ds
  | _, _ => False

theorem joinSlash_injective {cs ds : List Str} (hc : ∀ c ∈ cs, Ordinary c)
    (hd : ∀ d ∈ ds, Ordinary d) (h : joinSlash cs = joinSlash ds) : cs = ds := by
  have hempty : ∀ {es : List Str}, (∀ e ∈ es, Ordinary e) → joinSlash es = [] → es = [] := by
    intro es he hj
    cases es with
    | nil => rfl
    | cons e es =>
      have hne := (he e (by simp)).ne_nil
      cases es <;> simp_all [joinSlash]
  by_cases hcs : cs = []
  · subst hcs
    exact (hempty hd h.symm).symm
  by_cases hds : ds = []
  · subst hds
    exact hempty hc h
  · have hsplit := congrArg splitSlash h
    rwa [splitSlash_joinSlash hcs fun c hm => (hc c hm).no_slash,
      splitSlash_joinSlash hds fun d hm => (hd d hm).no_slash] at hsplit

theorem Partition.Names.caseEq {p : Partition} {c d : Str} (hc : p.Names c) :
    p.Names d ↔ CString.caseEq c d = true := by
  have hf := caseEq_iff.mp hc
  rw [Partition.Names, caseEq_iff, caseEq_iff, hf]
  simp

/-- Two paths that resolve have the same real path exactly if they agree up to the case of their
first component. -/
theorem realPath_eq_iff {cs ds : List Str} (hc : ∀ c ∈ cs, Ordinary c) (hd : ∀ d ∈ ds, Ordinary d)
    {real real' : Str} (hr : realPath cs = some real) (hr' : realPath ds = some real') :
    real = real' ↔ SameButCase cs ds := by
  have hcons : ∀ {c : Str} {es : List Str} {r : Str}, realPath (c :: es) = some r →
      ∃ p : Partition, p.Names c ∧ r = p.prefix_ ++ joinSlash es := by
    intro c es r h
    simp only [realPath, Option.bind_eq_some_iff, below] at h
    obtain ⟨p, hp, hb⟩ := h
    split at hb
    · exact ⟨p, Partition.named_eq_some.mp hp, (Option.some.inj hb).symm⟩
    · contradiction
  have hne : ∀ (p : Partition) (es : List Str), p.prefix_ ++ joinSlash es ≠ [] := by
    intro p es
    simp [p.prefix_eq]
  cases cs with
  | nil =>
    obtain rfl : [] = real := Option.some.inj hr
    cases ds with
    | nil =>
      obtain rfl : [] = real' := Option.some.inj hr'
      simp [SameButCase]
    | cons d ds =>
      obtain ⟨p, -, rfl⟩ := hcons hr'
      simpa [SameButCase] using (hne p ds).symm
  | cons c cs =>
    obtain ⟨p, hp, rfl⟩ := hcons hr
    cases ds with
    | nil =>
      obtain rfl : [] = real' := Option.some.inj hr'
      simpa [SameButCase] using hne p cs
    | cons d ds =>
      obtain ⟨q, hq, rfl⟩ := hcons hr'
      rw [SameButCase]
      constructor
      · intro he
        obtain rfl := prefix_append_injective he
        refine ⟨hp.caseEq.mp hq, ?_⟩
        exact joinSlash_injective (fun e he => hc e (by simp [he])) (fun e he => hd e (by simp [he]))
          (List.append_cancel_left he)
      · rintro ⟨hcase, rfl⟩
        rw [hq.unique (hp.caseEq.mpr hcase)]

/-- The result of to_real_path from the components of the normalised path: "" for none, the path
below the partition of that name (there is at most one) if it fits, otherwise NULL with ENODEV; and
two results are the same exactly if the components agree up to the case of the first. -/
theorem real_path_exact :
    (∀ cs path, (∀ c ∈ cs, Ordinary c) → ':' ∉ path → Joins (renderDir cs) path →
      (resolveIn cs path = [] → ResolvesTo (renderDir cs) path (some [])) ∧
      ∀ c ds, resolveIn cs path = c :: ds →
        (∀ p : Partition, p.Names c →
          (∀ q : Partition, q.Names c → q = p) ∧
            ResolvesTo (renderDir cs) path (if (p.prefix_ ++ joinSlash ds).length + 1 ≤ MAXPATHLEN
              then some (p.prefix_ ++ joinSlash ds) else none)) ∧
        ((∀ p : Partition, ¬ p.Names c) → ResolvesTo (renderDir cs) path none ∧
          ∃ n ≤ 2, ∀ w : World, w.answers.Allocated n →
            (toRealPath (renderDir cs) path w).2.errno = ENODEV)) ∧
    ∀ cs path w real cs' path' w' real', (∀ c ∈ cs, Ordinary c) → (∀ c ∈ cs', Ordinary c) →
      (toRealPath (renderDir cs) path w).1 = some real →
      (toRealPath (renderDir cs') path' w').1 = some real' →
      (real = real' ↔ SameButCase (resolveIn cs path) (resolveIn cs' path')) := by
  refine ⟨fun cs path hcs hcolon hj => ⟨resolves_root hcs hcolon hj, fun c ds hr => ⟨fun p hp => ?_,
    resolves_nowhere hcs hcolon hj hr⟩⟩, ?_⟩
  · exact ⟨fun q hq => hq.unique hp, resolves_below hcs hcolon hj hr hp⟩
  · intro cs path w real cs' path' w' real' hcs hcs' hr hr'
    have hreal : ∀ {cs : List Str} {path real : Str} {w : World}, (∀ c ∈ cs, Ordinary c) →
        (toRealPath (renderDir cs) path w).1 = some real →
        realPath (resolveIn cs path) = some real := by
      intro cs path real w hcs hr
      obtain ⟨hcolon, hcases⟩ := toRealPath_some hcs hr
      obtain ⟨n, -, hrun⟩ := resolvesTo_realPath hcs hcolon (toRealPath_joins hr)
      rw [hrun w] at hr
      split at hr
      · exact hr
      · contradiction
    exact realPath_eq_iff (resolveIn_ordinary hcs path) (resolveIn_ordinary hcs' path')
      (hreal hcs hr) (hreal hcs' hr')

theorem real_path_exact_sd :
    ResolvesTo (renderDir []) "/SD/./f".toList (some "sd:/f".toList) ∧
      (toRealPath (renderDir ["sd".toList]) "f".toList connectedWorld).1 = some "sd:/f".toList ∧
      SameButCase (resolveIn [] "/SD/./f".toList) (resolveIn ["sd".toList] "f".toList) := by
  have hsd : ∀ c ∈ ["sd".toList], Ordinary c := by
    simp only [List.forall_mem_cons, List.not_mem_nil, false_implies, implies_true, and_true]
    exact ⟨by decide, by decide, by decide, by decide⟩
  have hr : resolveIn [] "/SD/./f".toList = ["SD".toList, "f".toList] := by decide +kernel
  have hnames : Partition.sd.Names "SD".toList := by decide +kernel
  have hreal : (toRealPath (renderDir ["sd".toList]) "f".toList connectedWorld).1 =
      some "sd:/f".toList := by decide +kernel
  have hreal' : (toRealPath (renderDir []) "/SD/./f".toList connectedWorld).1 =
      some "sd:/f".toList := by decide +kernel
  have hexact := (real_path_exact.1 [] "/SD/./f".toList (by simp) (by decide) (.inl rfl)).2 _ _ hr
  have hsame := real_path_exact.2 _ _ _ _ _ _ _ _ (by simp) hsd hreal' hreal
  exact ⟨(hexact.1 .sd hnames).2, hreal, hsame.mp rfl⟩

end Ftpii
