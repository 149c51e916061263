import Ftpii.Confinement
set_option autoImplicit false

/-!
How long the working directory grows: the exact condition under which vrt_chdir
leaves more than its buffer holds.
-/

namespace Ftpii
open StateProgram Prog CString Components

/-! ## Allocation -/

def Answers.Allocated (a : Answers) (n : Nat) : Prop := false ∉ a.mallocs.take n

instance (a : Answers) (n : Nat) : Decidable (a.Allocated n) :=
  inferInstanceAs (Decidable (false ∉ a.mallocs.take n))

def Answers.allocate (a : Answers) (n : Nat) : Answers := { a with mallocs := a.mallocs.drop n }

theorem Answers.allocated_add (a : Answers) (m n : Nat) :
    a.Allocated (m + n) ↔ a.Allocated m ∧ (a.allocate m).Allocated n := by
  simp [Allocated, allocate, List.take_add]

@[simp] theorem Answers.allocate_allocate (a : Answers) (m n : Nat) :
    (a.allocate m).allocate n = a.allocate (m + n) := by
  simp [allocate, List.drop_drop]

theorem malloc_run (w : World) :
    (malloc w).1 = decide (w.answers.Allocated 1) ∧ (malloc w).2.answers = w.answers.allocate 1 := by
  unfold malloc
  split
  · rename_i h
    refine ⟨by simp [Answers.Allocated, h], ?_⟩
    rw [Answers.allocate, h, List.drop_nil, ← h]
  · rename_i b bs h
    cases b <;> simp [Answers.Allocated, Answers.allocate, h]

theorem normaliseAlloc_run (path : Str) (w : World) :
    (normaliseAlloc path w).1 = (if w.answers.Allocated 1 then some (normalise path) else none) ∧
      (normaliseAlloc path w).2.answers = w.answers.allocate 1 := by
  obtain ⟨hok, ha⟩ := malloc_run w
  simp [normaliseAlloc, hok, ha]

theorem virtualAbspath_relative {cwd path : Str} (hrel : path.head? ≠ some '/')
    (hfits : cwd.length + path.length + 1 ≤ MAXPATHLEN) (w : World) :
    (virtualAbspath cwd path w).1 =
        (if w.answers.Allocated 2 then some (normalise (cwd ++ path)) else none) ∧
      (w.answers.Allocated 2 →
        (virtualAbspath cwd path w).2.answers = w.answers.allocate 2) := by
  obtain ⟨hok, ha⟩ := malloc_run w
  obtain ⟨hn, hna⟩ := normaliseAlloc_run (cwd ++ path) (malloc w).2
  have hadd := w.answers.allocated_add 1 1
  have hnot : ¬ MAXPATHLEN < cwd.length + path.length + 1 := by omega
  rw [virtualAbspath, if_neg hrel, if_neg hnot]
  simp only [bind_run, ite_run, pure_run, hok, decide_eq_true_eq]
  by_cases h1 : w.answers.Allocated 1
  · rw [if_pos h1, hn, hna, ha]
    simp [hadd, h1]
  · simp [hadd, h1]

def Answers.Directory (a : Answers) : Prop :=
  (a.files.head?.any fun f => decide (0 ≤ f.code) && f.isDir) = true

instance (a : Answers) : Decidable a.Directory :=
  inferInstanceAs (Decidable ((a.files.head?.any fun f => decide (0 ≤ f.code) && f.isDir) = true))

@[simp] theorem Answers.directory_allocate (a : Answers) (n : Nat) :
    (a.allocate n).Directory ↔ a.Directory := Iff.rfl

/-! ## Lookups in a directory below a partition -/

theorem Partition.mem_virtualPartitions (p : Partition) : p ∈ VIRTUAL_PARTITIONS := by
  cases p <;> decide

theorem Partition.Names.unique {p q : Partition} {c : Str} (hp : p.Names c) (hq : q.Names c) :
    p = q := by
  have hfold (r : Partition) : fold r.alias_ = r.alias_ := by cases r <;> decide +kernel
  have he := (caseEq_iff.mp hp).trans (caseEq_iff.mp hq).symm
  rw [hfold, hfold, p.alias_eq, q.alias_eq] at he
  exact mountPoint_injective (List.cons.inj he).2

theorem findPartition_of_names {p : Partition} {c : Str} (ds : List Str) (hc : '/' ∉ c)
    (h : p.Names c) : findPartition (renderPath (c :: ds)) = some p := by
  cases hf : findPartition (renderPath (c :: ds)) with
  | none =>
    have hn := List.find?_eq_none.mp hf p p.mem_virtualPartitions
    exact absurd (matchesAlias_of_names ds h) hn
  | some q =>
    have hq := names_of_matchesAlias hc (List.find?_some hf)
    rw [hq.unique h]

section Relative

variable {cs ds : List Str} {path c : Str} {p : Partition} (hcs : ∀ c ∈ cs, Ordinary c)
  (hcolon : ':' ∉ path) (hrel : path.head? ≠ some '/')
  (hfits : (renderDir cs).length + path.length + 1 ≤ MAXPATHLEN)
  (hr : resolve cs path = c :: ds) (hp : p.Names c)
  (hlen : (p.prefix_ ++ joinSlash ds).length + 1 ≤ MAXPATHLEN)

include hcs hcolon hrel hfits hr hp hlen

theorem toRealPath_relative (w : World) :
    (toRealPath (renderDir cs) path w).1 =
        (if w.answers.Allocated 3 then some (p.prefix_ ++ joinSlash ds) else none) ∧
      (w.answers.Allocated 3 →
        (toRealPath (renderDir cs) path w).2.answers = w.answers.allocate 3) := by
  have ho : Ordinary c := by
    have hm := mem_resolve (hr ▸ List.mem_cons_self : c ∈ resolve cs path)
    exact hm.elim (hcs c) (·.1)
  have hroot : renderPath (c :: ds) ≠ ['/'] := by
    have hl := length_renderPath (List.cons_ne_nil c ds)
    have hpos := List.length_pos_of_ne_nil ho.ne_nil
    intro he
    rw [he, weight_cons] at hl
    simp at hl
    omega
  have hfind := findPartition_of_names ds ho.no_slash hp
  have hrest := restOf_eq ds hp
  obtain ⟨hv, hva⟩ := virtualAbspath_relative hrel hfits (setErrno ENOENT w).2
  have hans : (setErrno ENOENT w).2.answers = w.answers := rfl
  rw [hans, normalise_append hcs] at hv
  rw [hans] at hva
  have hadd := w.answers.allocated_add 2 1
  have hnot : ¬ MAXPATHLEN < p.prefix_.length + (joinSlash ds).length + 1 := by
    rw [List.length_append] at hlen
    omega
  rw [toRealPath, bind_run, if_neg hcolon, bind_run]
  by_cases h2 : w.answers.Allocated 2
  · rw [hv, if_pos h2, hr]
    obtain ⟨hok, ha⟩ := malloc_run (virtualAbspath (renderDir cs) path (setErrno ENOENT w).2).2
    rw [hva h2] at hok ha
    simp only [ite_run, hroot, if_false, hfind, hrest, hnot, bind_run, pure_run, hok, ha]
    simp [hadd, h2]
  · rw [hv, if_neg h2]
    simp [hadd, h2]

omit hcs hcolon hrel hfits hr hp hlen in
theorem stat_directory (path : Str) (w : World) :
    ((stat path w).1.1 = 0 ∧ (stat path w).1.2.isDir = true ↔ w.answers.Directory) ∧
      (stat path w).2.answers.mallocs = w.answers.mallocs := by
  simp only [stat, popFile, bind_run, Answers.Directory]
  cases w.answers.files with
  | nil => simp [setErrno]
  | cons f fs =>
    by_cases hf : f.code < 0
    · simp [hf, setErrno]
    · simp [hf]
      omega

theorem vrtStat_relative (w : World) :
    ((vrtStat (renderDir cs) path w).1.1 = 0 ∧ (vrtStat (renderDir cs) path w).1.2.isDir = true ↔
        w.answers.Allocated 6 ∧ w.answers.Directory) ∧
      (w.answers.Allocated 6 →
        (vrtStat (renderDir cs) path w).2.answers.mallocs = (w.answers.allocate 6).mallocs) := by
  have hreal := toRealPath_relative hcs hcolon hrel hfits hr hp hlen
  have hne : p.prefix_ ++ joinSlash ds ≠ [] := by simp [p.prefix_eq]
  have hadd := w.answers.allocated_add 3 3
  obtain ⟨hv, hva⟩ := hreal w
  by_cases h3 : w.answers.Allocated 3
  · have hans := hva h3
    obtain ⟨hv', hva'⟩ := hreal (toRealPath (renderDir cs) path w).2
    rw [hans] at hv' hva'
    simp only [vrtStat, withVirtualPath, bind_run, hv, if_pos h3, hne, if_false, hv']
    by_cases h3' : (w.answers.allocate 3).Allocated 3
    · have hans' := hva' h3'
      obtain ⟨hd, hm⟩ := stat_directory (p.prefix_ ++ joinSlash ds)
        (toRealPath (renderDir cs) path (toRealPath (renderDir cs) path w).2).2
      simp only [if_pos h3', hne, if_false]
      refine ⟨?_, fun _ => ?_⟩
      · rw [hd, hans']
        simp [hadd, h3, h3']
      · rw [hm, hans', Answers.allocate_allocate]
    · simp [hadd, h3, h3']
  · simp [vrtStat, hv, hadd, h3]

theorem vrtChdir_relative (hc : ∀ d ∈ c :: ds, Ordinary d) (w : World) :
    (vrtChdir (renderDir cs) path w).1 =
      if w.answers.Allocated 8 ∧ w.answers.Directory then (0, renderDir (c :: ds))
      else (-1, renderDir cs) := by
  obtain ⟨hs, hm⟩ := vrtStat_relative hcs hcolon hrel hfits hr hp hlen w
  obtain ⟨hv, -⟩ := virtualAbspath_relative hrel hfits (vrtStat (renderDir cs) path w).2
  rw [normalise_append hcs] at hv
  have hadd := w.answers.allocated_add 6 2
  have hb := chdirBuffer hc
  simp only [vrtChdir, bind_run, ite_run, pure_run]
  by_cases hz : (vrtStat (renderDir cs) path w).1.1 = 0
  · by_cases hd : (vrtStat (renderDir cs) path w).1.2.isDir = true
    · obtain ⟨h6, hdir⟩ := hs.mp ⟨hz, hd⟩
      have hmem : (vrtStat (renderDir cs) path w).2.answers.Allocated 2 ↔
          (w.answers.allocate 6).Allocated 2 := by
        simp [Answers.Allocated, hm h6]
      rw [hr] at hv
      by_cases h2 : (w.answers.allocate 6).Allocated 2
      · rw [if_pos (hmem.mpr h2)] at hv
        simp [hz, hd, hv, hadd, h6, hdir, h2, hb]
      · rw [if_neg (hmem.not.mpr h2)] at hv
        simp [hz, hd, hv, hadd, h2]
    · have hno : ¬ (w.answers.Allocated 6 ∧ w.answers.Directory) := fun h => hd (hs.mpr h).2
      have hno' : ¬ (w.answers.Allocated 8 ∧ w.answers.Directory) :=
        fun h => hno ⟨(hadd.mp h.1).1, h.2⟩
      simp [hz, hd, hno']
  · have hno : ¬ (w.answers.Allocated 8 ∧ w.answers.Directory) :=
      fun h => hz (hs.mpr ⟨(hadd.mp h.1).1, h.2⟩).1
    simp [hz, hno]

end Relative

/-! ## The buffer -/

/-- The longest line the framer admits. -/
def MAX_LINE : Nat := FTP_BUFFER_SIZE - 1 - CRLF.length

/-- A relative path that needs no normalisation, fills the join to its bound, and names a
directory that the lookups find. -/
structure Overflows (cwd path : Str) (a : Answers) : Prop where
  full : cwd.length + path.length + 1 = MAXPATHLEN
  ordinary : ∀ c ∈ splitSlash path, Ordinary c
  no_colon : ':' ∉ path
  found : ∃ p, matchesAlias (cwd ++ path) p = true
  memory : a.Allocated 8
  directory : a.Directory

theorem relative_of_ordinary {path : Str} (h : ∀ c ∈ splitSlash path, Ordinary c) :
    path.head? ≠ some '/' := by
  cases path with
  | nil => simp
  | cons c t =>
    intro he
    obtain rfl : c = '/' := by simpa using he
    exact (h [] (by simp)).ne_nil rfl

theorem resolve_of_ordinary (cs : List Str) {path : Str} (h : ∀ c ∈ splitSlash path, Ordinary c) :
    resolve cs path = cs ++ splitSlash path := foldl_push_ordinary cs h

theorem renderPath_join {cs : List Str} {path : Str} (hcs : ∀ c ∈ cs, Ordinary c)
    (h : ∀ c ∈ splitSlash path, Ordinary c) :
    renderPath (cs ++ splitSlash path) = renderDir cs ++ path := by
  have hne : cs ++ splitSlash path ≠ [] := by simp [splitSlash_ne_nil]
  have hr := resolve_renderDir [] hcs path
  have hd : renderDir cs ++ path = '/' :: (cs.flatMap (· ++ ['/']) ++ path) := rfl
  rw [hd, resolve_slash, List.nil_append, resolve_of_ordinary cs h] at hr
  have hn := (length_renderPath_resolve (cs.flatMap (· ++ ['/']) ++ path)).2
  rw [hr, length_renderPath hne, weight_append, weight_splitSlash] at hn
  rw [hn, hd]
  have hl := congrArg List.length hd
  rw [List.length_append, length_renderDir] at hl
  simp only [List.length_cons] at hl
  omega

theorem length_realPath {c d : Str} {ds : List Str} {p : Partition} (h : p.Names c) :
    (p.prefix_ ++ joinSlash (d :: ds)).length = (renderPath (c :: d :: ds)).length := by
  have hl := h.length_eq
  rw [renderPath_cons, List.length_append, List.length_append, p.length_prefix]
  simp [pathTail]
  omega

theorem Overflows.length {cs : List Str} (hcs : ∀ c ∈ cs, Ordinary c) {path : Str} {w : World}
    (h : Overflows (renderDir cs) path w.answers) :
    (vrtChdir (renderDir cs) path w).1.2.length = MAXPATHLEN := by
  have hrel := relative_of_ordinary h.ordinary
  have hjoin := renderPath_join hcs h.ordinary
  have hres := resolve_of_ordinary cs h.ordinary
  have hlen := congrArg List.length hjoin
  rw [List.length_append] at hlen
  have hfull := h.full
  obtain ⟨p, hp⟩ := h.found
  rw [← hjoin] at hp
  cases hr : cs ++ splitSlash path with
  | nil => simp [splitSlash_ne_nil] at hr
  | cons c ds =>
    rw [hr] at hres hp hlen
    have hc : ∀ d ∈ c :: ds, Ordinary d := by
      intro d hd
      rw [← hr] at hd
      exact (List.mem_append.mp hd).elim (hcs d) (h.ordinary d)
    have hn := names_of_matchesAlias (hc c (by simp)).no_slash hp
    have hreal : (p.prefix_ ++ joinSlash ds).length + 1 ≤ MAXPATHLEN := by
      cases ds with
      | nil =>
        have ha := p.length_alias_le
        simp only [List.length_append, p.length_prefix, joinSlash, List.length_nil, MAXPATHLEN]
        omega
      | cons d ds =>
        rw [length_realPath hn]
        omega
    have hrun := vrtChdir_relative hcs h.no_colon hrel (by omega) hres hn hreal hc w
    have hw := length_renderPath (List.cons_ne_nil c ds)
    rw [hrun, if_pos ⟨h.memory, h.directory⟩]
    simp only [length_renderDir]
    omega

theorem length_renderDir_resolve (cs : List Str) (path : Str) :
    (renderDir (resolve cs path)).length ≤ (renderDir cs).length + path.length + 1 ∧
      ((renderDir (resolve cs path)).length = (renderDir cs).length + path.length + 1 →
        ∀ c ∈ splitSlash path, Ordinary c) := by
  have hs : ∀ c ∈ splitSlash path, '/' ∉ c := fun c hc => no_slash_of_mem_splitSlash hc
  obtain ⟨hle, heq⟩ := weight_foldl_push (splitSlash path) cs hs
  rw [weight_splitSlash] at hle heq
  rw [length_renderDir, length_renderDir]
  exact ⟨by rw [resolve]; omega, fun h => heq (by rw [resolve] at h; omega)⟩

/-- A directory change that outgrows the buffer is one that overflows. -/
theorem overflows_of_long {cs : List Str} (hb : Below cs)
    (hfit : (renderDir cs).length + 1 ≤ MAXPATHLEN) {path : Str} (hpath : path.length ≤ MAX_LINE)
    {w : World} (hlong : MAXPATHLEN < (vrtChdir (renderDir cs) path w).1.2.length + 1) :
    Overflows (renderDir cs) path w.answers := by
  rcases vrtChdir_cases hb path w with he | ⟨he, ⟨real, hreal⟩, hfits⟩
  · rw [he] at hlong
    exact absurd hfit (by simpa using hlong)
  rw [he] at hlong
  have hmax : MAX_LINE + 3 = MAXPATHLEN := rfl
  by_cases habs : path.head? = some '/'
  · have hr : resolveIn cs path = resolve [] path := by simp [resolveIn, habs]
    have hle := (length_renderDir_resolve [] path).1
    have hnil : (renderDir []).length = 1 := rfl
    rw [hr] at hlong
    simp only at hlong
    omega
  · have hr : resolveIn cs path = resolve cs path := by simp [resolveIn, habs]
    obtain ⟨hle, heq⟩ := length_renderDir_resolve cs path
    have hjoined := hfits.resolve_left habs
    rw [hr] at hlong he
    simp only at hlong
    have hordinary := heq (by omega)
    have hrendered := renderPath_join hb.ordinary hordinary
    have hres := resolve_of_ordinary cs hordinary
    obtain ⟨hcolon, ⟨hnil, -⟩ | ⟨c, ds, p, hcons, hn, hpath', hlen⟩⟩ :=
      toRealPath_some hb.ordinary hreal
    · rw [← hr, hnil] at hlong
      simp [renderDir, MAXPATHLEN] at hlong
    · have hc : ∀ d ∈ c :: ds, Ordinary d := hcons ▸ resolveIn_ordinary hb.ordinary path
      rw [hr] at hcons
      have hrun := vrtChdir_relative hb.ordinary hcolon habs hjoined hcons hn (hpath' ▸ hlen) hc w
      have hfound : w.answers.Allocated 8 ∧ w.answers.Directory := by
        by_contra hno
        rw [hrun, if_neg hno] at he
        exact absurd (congrArg Prod.fst he) (by simp)
      refine ⟨by omega, hordinary, hcolon, ⟨p, ?_⟩, hfound.1, hfound.2⟩
      rw [← hrendered, ← hres, hcons]
      exact matchesAlias_of_names ds hn

/-- A directory change keeps to the buffer exactly when it does not overflow. -/
theorem vrtChdir_fits_iff {cwd : Str} (hc : Confined cwd) (hfit : cwd.length + 1 ≤ MAXPATHLEN)
    {path : Str} (hpath : path.length ≤ MAX_LINE) (w : World) :
    (vrtChdir cwd path w).1.2.length + 1 ≤ MAXPATHLEN ↔ ¬ Overflows cwd path w.answers := by
  obtain ⟨cs, hb, rfl⟩ := hc
  refine ⟨fun hle ho => ?_, fun hno => ?_⟩
  · have hl := ho.length hb.ordinary
    omega
  · by_contra hlong
    exact hno (overflows_of_long hb hfit hpath (by omega))

/-- The command fits a line, and its change of directory does not overflow. -/
def DirCommand.guard (s : Session) (i : World × DirCommand) : Prop :=
  match i.2 with
  | .cwd path => path.length ≤ MAX_LINE ∧ ¬ Overflows s.client.cwd path i.1.answers
  | _ => True

theorem not_overflows_dotdot (cwd : Str) (a : Answers) : ¬ Overflows cwd "..".toList a := by
  intro h
  exact (h.ordinary "..".toList (by decide)).ne_dotdot rfl

theorem root_fits : (['/'] : Str).length + 1 ≤ MAXPATHLEN := by decide

def Fits (c : Client) : Prop := Confined c.cwd ∧ c.cwd.length + 1 ≤ MAXPATHLEN

theorem fits_frame : Frame fun c c' : Client => Fits c → Fits c' where
  refl _ h := h
  trans h h' hc := h' (h hc)

theorem changeDirectory_fits {path msg : Str} (hpath : path.length ≤ MAX_LINE) {s : Session}
    (hno : ¬ Overflows s.client.cwd path s.world.answers) (h : Fits s.client) :
    Fits (changeDirectory path msg s).2.client := by
  have hr := OnClient.replies fits_frame
  have hd : Fits { s.client with cwd := (vrtChdir s.client.cwd path s.world).1.2 } :=
    ⟨vrtChdir_confined h.1 path s.world, (vrtChdir_fits_iff h.1 h.2 hpath s.world).mpr hno⟩
  simp only [changeDirectory, bind_run, ite_run]
  split
  · exact writeReply_keeps hr _ _ _ hd
  · exact replyErrno_keeps hr _ hd

theorem DirCommand.step_fits {s : Session} {i : World × DirCommand} (h : Fits s.client)
    (hg : DirCommand.guard s i) : Fits (DirCommand.step s i).client := by
  obtain ⟨w, c⟩ := i
  cases c with
  | cwd path => exact changeDirectory_fits hg.1 hg.2 h
  | cdup rest => exact changeDirectory_fits (by decide) (not_overflows_dotdot _ _) h
  | rein rest =>
    exact ftpRein_keeps (OnClient.sockets fits_frame) (fun _ _ h => h)
      (OnClient.replies fits_frame) (fun _ _ => ⟨confined_root, root_fits⟩) rest ⟨s.client, w⟩ h

/-- While no command overflows the directory fits, and every directory change from there, on it
or on a copy of it, fits exactly when it does not overflow. -/
theorem session_fits {s : Session}
    (h : Reach (fun s => s.client.cwd = ['/']) DirCommand.step DirCommand.guard s) :
    s.client.cwd.length + 1 ≤ MAXPATHLEN ∧
      ∀ (path : Str) (w : World), path.length ≤ MAX_LINE →
        ((vrtChdir s.client.cwd path w).1.2.length + 1 ≤ MAXPATHLEN ↔
          ¬ Overflows s.client.cwd path w.answers) := by
  have hf : Fits s.client := by
    refine h.invariant (I := fun s => Fits s.client) (fun s hs => ?_) fun s i hs hg =>
      DirCommand.step_fits hs hg
    rw [Fits, hs]
    exact ⟨confined_root, root_fits⟩
  exact ⟨hf.2, fun path w hpath => vrtChdir_fits_iff hf.1 hf.2 hpath w⟩

def directoryWorld : World :=
  { World.boot (fun _ => none) (fun _ => true) (fun _ => []) with answers := { files := [{}] } }

def rooted : Session := ⟨newClient directoryWorld 3 {}, directoryWorld⟩

/-- Two directories down, the next change upward fits and so does the way there. -/
theorem session_fits_down :
    let s := DirCommand.step (DirCommand.step rooted (directoryWorld, .cwd "/sd".toList))
      (directoryWorld, .cwd "sub".toList)
    s.client.cwd = "/sd/sub/".toList ∧ s.client.cwd.length + 1 ≤ MAXPATHLEN ∧
      (vrtChdir s.client.cwd "../up".toList directoryWorld).1.2 = "/sd/up/".toList ∧
      (vrtChdir s.client.cwd "../up".toList directoryWorld).1.2.length + 1 ≤ MAXPATHLEN := by
  have hshort : ∀ {cwd path cwd' : Str}, cwd = cwd' → cwd'.length + path.length + 1 ≠ MAXPATHLEN →
      ¬ Overflows cwd path directoryWorld.answers := fun he hne h => hne (he ▸ h.full)
  obtain ⟨hroot, hsd, hsub, hup⟩ : rooted.client.cwd = ['/'] ∧
      (DirCommand.step rooted (directoryWorld, .cwd "/sd".toList)).client.cwd = "/sd/".toList ∧
      (DirCommand.step (DirCommand.step rooted (directoryWorld, .cwd "/sd".toList))
        (directoryWorld, .cwd "sub".toList)).client.cwd = "/sd/sub/".toList ∧
      (vrtChdir "/sd/sub/".toList "../up".toList directoryWorld).1.2 = "/sd/up/".toList := by
    decide +kernel
  have h0 : Reach (fun s => s.client.cwd = ['/']) DirCommand.step DirCommand.guard rooted :=
    .init hroot
  have hg : DirCommand.guard rooted (directoryWorld, .cwd "/sd".toList) :=
    ⟨by decide, hshort hroot (by decide)⟩
  have hg' : DirCommand.guard (DirCommand.step rooted (directoryWorld, .cwd "/sd".toList))
      (directoryWorld, .cwd "sub".toList) := ⟨by decide, hshort hsd (by decide)⟩
  have h2 := (h0.step _ hg).step _ hg'
  generalize DirCommand.step (DirCommand.step rooted (directoryWorld, .cwd "/sd".toList))
    (directoryWorld, .cwd "sub".toList) = s at hsub h2 ⊢
  obtain ⟨hfits, hchange⟩ := session_fits h2
  have hnext := (hchange "../up".toList directoryWorld (by decide)).mpr (hshort hsub (by decide))
  exact ⟨hsub, hfits, hsub.symm ▸ hup, hnext⟩

theorem changeDirectory_cwd (path msg : Str) (s : Session) :
    (changeDirectory path msg s).2.client.cwd = (vrtChdir s.client.cwd path s.world).1.2 := by
  have hF : Frame fun c c' : Client => c'.cwd = c.cwd := ⟨fun _ => rfl, fun h h' => h'.trans h⟩
  have hr := OnClient.replies hF
  simp only [changeDirectory, bind_run, ite_run]
  split
  · exact writeReply_keeps hr _ _ _
  · exact replyErrno_keeps hr _

theorem DirCommand.step_cwd (s : Session) (w : World) (path : Str) :
    (DirCommand.step s (w, .cwd path)).client.cwd = (vrtChdir s.client.cwd path w).1.2 :=
  changeDirectory_cwd path _ ⟨s.client, w⟩

theorem ordinary_replicate {n : Nat} (h : 0 < n) : Ordinary (List.replicate n 'b') where
  ne_nil he := by simp at he; omega
  ne_dot he := absurd (List.eq_of_mem_replicate (he ▸ List.mem_cons_self)) (by decide)
  ne_dotdot he := absurd (List.eq_of_mem_replicate (he ▸ List.mem_cons_self)) (by decide)
  no_slash he := absurd (List.eq_of_mem_replicate he) (by decide)

theorem overflows_replicate {cwd : Str} {n : Nat} {p : Partition} {a : Answers} (hn : 0 < n)
    (hfull : cwd.length + n + 1 = MAXPATHLEN)
    (hp : matchesAlias (cwd ++ List.replicate n 'b') p = true) (hm : a.Allocated 8)
    (hd : a.Directory) : Overflows cwd (List.replicate n 'b') a where
  full := by rwa [List.length_replicate]
  ordinary c hc := by
    have ho := ordinary_replicate hn
    rw [splitSlash_of_no_slash ho.no_slash, List.mem_singleton] at hc
    exact hc ▸ ho
  no_colon hc := absurd (List.eq_of_mem_replicate hc) (by decide)
  found := ⟨p, hp⟩
  memory := hm
  directory := hd

set_option maxRecDepth 100000 in
/-- Two directory changes of admitted length leave 1024 characters. -/
theorem cwd_outgrows_buffer :
    let s := DirCommand.step ⟨newClient directoryWorld 3 {}, directoryWorld⟩
      (directoryWorld, .cwd "/sd/aa".toList)
    let s' := DirCommand.step s (directoryWorld, .cwd (List.replicate 1016 'b'))
    (List.replicate 1016 'b').length ≤ MAX_LINE ∧ MAXPATHLEN < s'.client.cwd.length + 1 := by
  intro s s'
  have hs : s.client.cwd = renderDir ["sd".toList, "aa".toList] := by decide +kernel
  have hord : ∀ c ∈ ["sd".toList, "aa".toList], Ordinary c := by
    simp only [List.forall_mem_cons, List.not_mem_nil, false_implies, implies_true, and_true]
    exact ⟨⟨by decide, by decide, by decide, by decide⟩, ⟨by decide, by decide, by decide, by decide⟩⟩
  have hover : Overflows (renderDir ["sd".toList, "aa".toList]) (List.replicate 1016 'b')
      directoryWorld.answers :=
    overflows_replicate (p := .sd) (by decide) (by decide) (by decide +kernel) (by decide) (by decide)
  have hcwd := DirCommand.step_cwd s directoryWorld (List.replicate 1016 'b')
  have hlong := hover.length hord
  rw [← hs, ← hcwd] at hlong
  refine ⟨?_, ?_⟩
  · rw [List.length_replicate]
    decide
  · rw [hlong]
    exact Nat.lt_succ_self _

end Ftpii
