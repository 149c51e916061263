import Ftpii.AbsPath
import Ftpii.Footprint
set_option autoImplicit false

/-!
Virtual paths stay below the partitions: what to_real_path returns, and the
working directory over any sequence of directory changes.
-/

namespace Ftpii
open StateProgram Prog CString Components

/-! ## Aliases -/

theorem toLower_eq_slash {c : Char} : c.toLower = '/' ↔ c = '/' := by
  unfold Char.toLower
  split
  · rename_i h
    have hlow : 65 ≤ c.val.toNat := UInt32.le_iff_toNat_le.mp h.1
    have hup : c.val.toNat ≤ 90 := UInt32.le_iff_toNat_le.mp h.2
    constructor
    · intro he
      have hv := congrArg (fun d : Char => d.val.toNat) he
      simp only [UInt32.toNat_add] at hv
      have h32 : ('a'.val - 'A'.val).toNat = 32 := rfl
      have h47 : ('/'.val).toNat = 47 := rfl
      omega
    · rintro rfl
      exact absurd h (by decide)
  · rfl

theorem slash_mem_fold {s : Str} : '/' ∈ fold s ↔ '/' ∈ s := by
  simp [fold, List.mem_map, toLower_eq_slash]

theorem Partition.alias_eq (p : Partition) : p.alias_ = '/' :: p.mountPoint := by cases p <;> rfl

theorem Partition.prefix_eq (p : Partition) : p.prefix_ = p.mountPoint ++ [':', '/'] := by
  cases p <;> decide +kernel

theorem Partition.mountPoint_plain (p : Partition) : '/' ∉ p.mountPoint ∧ ':' ∉ p.mountPoint := by
  cases p <;> decide +kernel

theorem Partition.mountPoint_injective {p q : Partition} (h : p.mountPoint = q.mountPoint) : p = q := by
  revert h
  cases p <;> cases q <;> decide +kernel

theorem Partition.length_alias_le (p : Partition) : p.alias_.length ≤ 8 := by
  cases p <;> decide +kernel

theorem Partition.length_prefix (p : Partition) : p.prefix_.length = p.alias_.length + 1 := by
  rw [p.prefix_eq, p.alias_eq]
  simp

/-- The components are those of a path whose first one names the partition. -/
def Partition.Names (p : Partition) (c : Str) : Prop := caseEq p.alias_ ('/' :: c) = true

instance (p : Partition) (c : Str) : Decidable (p.Names c) :=
  inferInstanceAs (Decidable (caseEq p.alias_ ('/' :: c) = true))

theorem Partition.Names.length_eq {p : Partition} {c : Str} (h : p.Names c) :
    p.alias_.length = c.length + 1 := by
  simpa using congrArg List.length (caseEq_iff.mp h)

def pathTail (cs : List Str) : Str := if cs = [] then [] else '/' :: joinSlash cs

theorem renderPath_cons (c : Str) (cs : List Str) : renderPath (c :: cs) = '/' :: c ++ pathTail cs := by
  cases cs <;> simp [renderPath, joinSlash, pathTail]

theorem matchesAlias_of_names {p : Partition} {c : Str} (cs : List Str) (h : p.Names c) :
    matchesAlias (renderPath (c :: cs)) p = true := by
  have hl := h.length_eq
  have hf := caseEq_iff.mp h
  rw [renderPath_cons, matchesAlias, Bool.or_eq_true, Bool.and_eq_true]
  cases cs with
  | nil => exact .inl (by simpa [pathTail] using hf)
  | cons d ds =>
    have ht : ('/' :: c ++ pathTail (d :: ds)).take p.alias_.length = '/' :: c :=
      List.take_left' (by simp [hl])
    refine .inr ⟨by rw [ht]; exact h, ?_⟩
    have hg : ('/' :: c ++ pathTail (d :: ds))[p.alias_.length]? = some '/' := by
      rw [List.getElem?_append_right (by simp [hl])]
      simp [hl, pathTail]
    exact beq_iff_eq.mpr hg

theorem names_of_matchesAlias {p : Partition} {c : Str} {cs : List Str} (hc : '/' ∉ c)
    (h : matchesAlias (renderPath (c :: cs)) p = true) : p.Names c := by
  have hm : '/' ∉ fold p.mountPoint := slash_mem_fold.not.mpr p.mountPoint_plain.1
  rw [renderPath_cons, matchesAlias, Bool.or_eq_true, Bool.and_eq_true] at h
  have htail {u : Str} (hu : fold p.alias_ = fold ('/' :: c ++ u)) : '/' ∉ u := by
    intro hmem
    rw [p.alias_eq] at hu
    simp only [fold_cons, List.cons_append, fold_append, List.cons.injEq, true_and] at hu
    exact hm (hu ▸ List.mem_append_right _ (slash_mem_fold.mpr hmem))
  rcases h with h | ⟨hf, hg⟩
  · have hn : pathTail cs = [] := by
      by_contra hne
      have hcs : cs ≠ [] := fun he => hne (by simp [he, pathTail])
      exact htail (caseEq_iff.mp h) (by simp [pathTail, hcs])
    rw [hn, List.append_nil] at h
    exact h
  · have hg' : ('/' :: c ++ pathTail cs)[p.alias_.length]? = some '/' := by simpa using hg
    have hlen : c.length + 1 ≤ p.alias_.length := by
      by_contra hlt
      have hpos : 0 < p.alias_.length := by rw [p.alias_eq]; simp
      rw [List.getElem?_append_left (by simp; omega)] at hg'
      obtain ⟨n, hn⟩ := Nat.exists_eq_succ_of_ne_zero hpos.ne'
      rw [hn, List.getElem?_cons_succ] at hg'
      exact hc (List.mem_of_getElem? hg')
    obtain ⟨k, hk⟩ := Nat.exists_eq_add_of_le hlen
    have ht : ('/' :: c ++ pathTail cs).take p.alias_.length = '/' :: c ++ (pathTail cs).take k := by
      rw [List.take_append, hk, List.take_of_length_le (by simp)]
      simp
    rw [ht] at hf
    have hno := htail (caseEq_iff.mp hf)
    have hcs : cs ≠ [] := by
      rintro rfl
      have hlt := (List.getElem?_eq_some_iff.mp hg').1
      simp [pathTail] at hlt
      omega
    have hk0 : k = 0 := by
      by_contra hk0
      obtain ⟨j, rfl⟩ := Nat.exists_eq_succ_of_ne_zero hk0
      exact hno (by simp [pathTail, hcs])
    rw [hk0, List.take_zero, List.append_nil] at hf
    exact hf

theorem restOf_eq {p : Partition} {c : Str} (cs : List Str) (h : p.Names c) :
    restOf (renderPath (c :: cs)) p = joinSlash cs := by
  have hd : (renderPath (c :: cs)).drop p.alias_.length = pathTail cs := by
    rw [renderPath_cons]
    exact List.drop_left' (by simp [h.length_eq])
  rw [restOf, hd]
  cases cs <;> simp [pathTail, joinSlash]

/-! ## Real paths -/

/-- A component free of what could lead out of a partition. -/
structure Plain (c : Str) : Prop extends Ordinary c where
  no_colon : ':' ∉ c

/-- The components of a directory at or below the virtual root. -/
structure Below (cs : List Str) : Prop where
  plain : ∀ c ∈ cs, Plain c
  named : ∀ c ds, cs = c :: ds → ∃ p : Partition, p.Names c

def resolveIn (cs : List Str) (path : Str) : List Str :=
  resolve (if path.head? = some '/' then [] else cs) path

theorem Below.ordinary {cs : List Str} (h : Below cs) : ∀ c ∈ cs, Ordinary c :=
  fun c hc => (h.plain c hc).toOrdinary

theorem resolveIn_ordinary {cs : List Str} (h : ∀ c ∈ cs, Ordinary c) (path : Str) :
    ∀ c ∈ resolveIn cs path, Ordinary c := by
  intro c hc
  rcases mem_resolve hc with hk | hk
  · split at hk
    · simp at hk
    · exact h c hk
  · exact hk.1

theorem resolveIn_plain {cs : List Str} {path : Str} (h : ∀ c ∈ cs, Plain c) (hp : ':' ∉ path) :
    ∀ c ∈ resolveIn cs path, Plain c := by
  intro c hc
  rcases mem_resolve hc with hk | ⟨ho, hx⟩
  · split at hk
    · simp at hk
    · exact h c hk
  · exact ⟨ho, fun hm => hp (hx _ hm)⟩

theorem normaliseAlloc_some {path a : Str} {w : World} (h : (normaliseAlloc path w).1 = some a) :
    a = normalise path := by
  simp only [normaliseAlloc, bind_run, pure_run] at h
  split at h
  · exact (Option.some.inj h).symm
  · contradiction

theorem normalise_append {cs : List Str} (h : ∀ c ∈ cs, Ordinary c) (path : Str) :
    normalise (renderDir cs ++ path) = renderPath (resolve cs path) := by
  have hr := resolve_renderDir [] h path
  have hd : renderDir cs ++ path = '/' :: (cs.flatMap (· ++ ['/']) ++ path) := rfl
  rw [hd, resolve_slash] at hr
  rw [hd, normalise_eq, hr, List.nil_append]

theorem virtualAbspath_some {cs : List Str} {path a : Str} {w : World} (hcs : ∀ c ∈ cs, Ordinary c)
    (h : (virtualAbspath (renderDir cs) path w).1 = some a) :
    a = renderPath (resolveIn cs path) ∧
      (path.head? = some '/' ∨ (renderDir cs).length + path.length + 1 ≤ MAXPATHLEN) := by
  simp only [virtualAbspath, ite_run, resolveIn] at h ⊢
  split at h
  · rename_i hp
    refine ⟨?_, .inl hp⟩
    rw [normaliseAlloc_some h, if_pos hp]
    cases path with
    | nil => simp at hp
    | cons c t =>
      obtain rfl : c = '/' := by simpa using hp
      rw [normalise_eq, resolve_slash]
  · rename_i hp
    split at h
    · contradiction
    · rename_i hl
      simp only [bind_run, ite_run, pure_run] at h
      split at h
      · rw [normaliseAlloc_some h, normalise_append hcs, if_neg hp]
        exact ⟨rfl, .inr (by omega)⟩
      · contradiction

theorem toRealPath_some {cs : List Str} {path real : Str} {w : World}
    (hcs : ∀ c ∈ cs, Ordinary c) (h : (toRealPath (renderDir cs) path w).1 = some real) :
    ':' ∉ path ∧
      (resolveIn cs path = [] ∧ real = [] ∨
        ∃ c ds p, resolveIn cs path = c :: ds ∧ Partition.Names p c ∧
          real = p.prefix_ ++ joinSlash ds ∧ real.length + 1 ≤ MAXPATHLEN) := by
  simp only [toRealPath, bind_run, ite_run, pure_run] at h
  split at h
  · contradiction
  rename_i hcolon
  refine ⟨hcolon, ?_⟩
  cases ha : (virtualAbspath (renderDir cs) path (setErrno ENOENT w).2).1 with
  | none => simp [ha] at h
  | some a =>
    obtain ⟨hae, -⟩ := virtualAbspath_some hcs ha
    simp only [ha, ite_run, pure_run] at h
    split at h
    · rename_i hroot
      refine .inl ⟨?_, (Option.some.inj h).symm⟩
      rw [hae] at hroot
      by_contra hne
      have hl := length_renderPath hne
      obtain ⟨c, ds, hr⟩ := List.exists_cons_of_ne_nil hne
      have hc : Ordinary c := resolveIn_ordinary hcs path c (by simp [hr])
      have hpos := List.length_pos_of_ne_nil hc.ne_nil
      rw [hroot, hr, weight_cons] at hl
      simp at hl
      omega
    · rename_i hroot
      cases hf : findPartition a with
      | none => simp [hf] at h
      | some p =>
        have hm := List.find?_some hf
        cases hr : resolveIn cs path with
        | nil => exact absurd (by rw [hae, hr]; rfl) hroot
        | cons c ds =>
          rw [hae, hr] at hm
          have hno : '/' ∉ c := (resolveIn_ordinary hcs path c (by simp [hr])).no_slash
          have hn := names_of_matchesAlias hno hm
          refine .inr ⟨c, ds, p, rfl, hn, ?_⟩
          have hrest : restOf a p = joinSlash ds := by rw [hae, hr, restOf_eq ds hn]
          simp only [hf, hrest, ite_run, bind_run, pure_run] at h
          split at h
          · contradiction
          · rename_i hlen
            simp only at h
            split at h
            · have he := (Option.some.inj h).symm
              refine ⟨he, ?_⟩
              rw [he, List.length_append]
              omega
            · contradiction

/-- A real path inside exactly one partition, or the marker of the virtual root. -/
def Inside (real : Str) : Prop :=
  real = [] ∨ ∃! p : Partition, ∃ ds, real = p.prefix_ ++ joinSlash ds ∧ ∀ d ∈ ds, Plain d

theorem prefix_append_injective {p q : Partition} {s t : Str}
    (h : p.prefix_ ++ s = q.prefix_ ++ t) : p = q := by
  have hcut (r : Partition) (u : Str) :
      (r.prefix_ ++ u).takeWhile (fun c => decide (c ≠ ':')) = r.mountPoint := by
    have hn : ∀ c ∈ r.mountPoint, (decide (c ≠ ':')) = true := by
      intro c hc
      have hne : c ≠ ':' := fun he => r.mountPoint_plain.2 (he ▸ hc)
      simpa using hne
    rw [r.prefix_eq, List.append_assoc, List.takeWhile_append_of_pos hn]
    simp
  have hp := hcut p s
  rw [h, hcut q t] at hp
  exact (Partition.mountPoint_injective hp).symm

theorem inside_of_resolve {cs ds : List Str} {path c : Str} {p : Partition}
    (h : ∀ c ∈ cs, Plain c) (hp : ':' ∉ path) (hr : resolveIn cs path = c :: ds) :
    Inside (p.prefix_ ++ joinSlash ds) := by
  refine .inr ⟨p, ⟨ds, rfl, fun d hd => resolveIn_plain h hp d (by simp [hr, hd])⟩, ?_⟩
  rintro q ⟨es, he, -⟩
  exact (prefix_append_injective he).symm

/-- No path argument leads outside a partition's root. -/
theorem toRealPath_inside {cs : List Str} (h : Below cs) {path real : Str} {w : World}
    (hs : (toRealPath (renderDir cs) path w).1 = some real) : Inside real := by
  obtain ⟨hcolon, ⟨-, hr⟩ | ⟨c, ds, p, hr, -, he, -⟩⟩ := toRealPath_some h.ordinary hs
  · exact .inl hr
  · exact he ▸ inside_of_resolve h.plain hcolon hr

/-! ## The working directory -/

theorem vrtStat_zero {cwd path : Str} {w : World} (h : (vrtStat cwd path w).1.1 = 0) :
    ∃ real, (toRealPath cwd path w).1 = some real := by
  cases hr : (toRealPath cwd path w).1 with
  | none => simp [vrtStat, hr] at h
  | some real => exact ⟨real, rfl⟩

theorem below_resolveIn {cs : List Str} (h : Below cs) {path real : Str} {w : World}
    (hs : (toRealPath (renderDir cs) path w).1 = some real) : Below (resolveIn cs path) := by
  obtain ⟨hcolon, hr⟩ := toRealPath_some h.ordinary hs
  refine ⟨resolveIn_plain h.plain hcolon, fun c ds he => ?_⟩
  rcases hr with ⟨hn, -⟩ | ⟨d, es, p, hd, hp, -⟩
  · rw [hn] at he
    contradiction
  · rw [hd] at he
    obtain ⟨rfl, -⟩ := List.cons.inj he
    exact ⟨p, hp⟩

theorem chdirBuffer {cs : List Str} (h : ∀ c ∈ cs, Ordinary c) :
    (if (renderPath cs).length ≤ 1 then renderPath cs else renderPath cs ++ ['/']) =
      renderDir cs := by
  cases cs with
  | nil => rfl
  | cons c cs =>
    have hl := length_renderPath (List.cons_ne_nil c cs)
    have hpos := List.length_pos_of_ne_nil (h c (by simp)).ne_nil
    rw [weight_cons] at hl
    rw [if_neg (by omega), renderDir_eq (by simp)]

/-- A directory change fails and leaves the buffer, or succeeds and resolves the path. -/
theorem vrtChdir_cases {cs : List Str} (h : Below cs) (path : Str) (w : World) :
    (vrtChdir (renderDir cs) path w).1 = (-1, renderDir cs) ∨
      (vrtChdir (renderDir cs) path w).1 = (0, renderDir (resolveIn cs path)) ∧
        (∃ real, (toRealPath (renderDir cs) path w).1 = some real) ∧
        (path.head? = some '/' ∨ (renderDir cs).length + path.length + 1 ≤ MAXPATHLEN) := by
  simp only [vrtChdir, bind_run, ite_run, pure_run]
  split
  · exact .inl rfl
  · rename_i hz
    obtain ⟨real, hr⟩ := vrtStat_zero (by simpa using hz)
    split
    · exact .inl rfl
    · cases ha : (virtualAbspath (renderDir cs) path (vrtStat (renderDir cs) path w).2).1 with
      | none => exact .inl rfl
      | some a =>
        obtain ⟨hae, hfits⟩ := virtualAbspath_some h.ordinary ha
        have hb := below_resolveIn h hr
        refine .inr ⟨?_, ⟨real, hr⟩, hfits⟩
        simp only [hae, pure_run, chdirBuffer hb.ordinary]

/-- "/" or the rendering of components below a partition. -/
def Confined (cwd : Str) : Prop := ∃ cs, Below cs ∧ cwd = renderDir cs

theorem confined_root : Confined ['/'] := ⟨[], ⟨by simp, by simp⟩, rfl⟩

theorem vrtChdir_confined {cwd : Str} (h : Confined cwd) (path : Str) (w : World) :
    Confined (vrtChdir cwd path w).1.2 := by
  obtain ⟨cs, hb, rfl⟩ := h
  rcases vrtChdir_cases hb path w with he | ⟨he, ⟨real, hr⟩, -⟩
  · exact ⟨cs, hb, by rw [he]⟩
  · exact ⟨_, below_resolveIn hb hr, by rw [he]⟩

/-! ## Confinement over sessions -/

def KeepsConfined (c c' : Client) : Prop := Confined c.cwd → Confined c'.cwd

theorem keepsConfined_frame : Frame KeepsConfined where
  refl _ h := h
  trans h h' hc := h' (h hc)

theorem changeDirectory_confined (path msg : Str) :
    Keeps (OnClient KeepsConfined) (changeDirectory path msg) := by
  have hr := OnClient.replies keepsConfined_frame
  intro s hc
  have hd := vrtChdir_confined hc path s.world
  simp only [changeDirectory, bind_run, ite_run]
  split
  · exact writeReply_keeps hr _ _ _ hd
  · exact replyErrno_keeps hr _ hd

theorem ftpRein_confined (rest : Str) : Keeps (OnClient KeepsConfined) (ftpRein rest) :=
  ftpRein_keeps (OnClient.sockets keepsConfined_frame) (fun _ _ h => h)
    (OnClient.replies keepsConfined_frame) (fun _ _ => confined_root) rest

inductive DirCommand where
  | cwd (path : Str)
  | cdup (rest : Str)
  | rein (rest : Str)

def DirCommand.run : DirCommand → Ses Int
  | .cwd path => ftpCwd path
  | .cdup rest => ftpCdup rest
  | .rein rest => ftpRein rest

def DirCommand.step (s : Session) (i : World × DirCommand) : Session :=
  (i.2.run ⟨s.client, i.1⟩).2

theorem DirCommand.step_confined (s : Session) (i : World × DirCommand) :
    OnClient KeepsConfined s (DirCommand.step s i) := by
  intro h
  obtain ⟨w, c⟩ := i
  cases c with
  | cwd path => exact changeDirectory_confined path _ ⟨s.client, w⟩ h
  | cdup rest => exact changeDirectory_confined _ _ ⟨s.client, w⟩ h
  | rein rest => exact ftpRein_confined rest ⟨s.client, w⟩ h

/-- After any directory commands the directory is confined, and so is every path looked up in it. -/
theorem session_confined (w : World) (peer : Int) (address : SockAddr)
    (commands : List (World × DirCommand)) :
    let cwd := (commands.foldl DirCommand.step ⟨newClient w peer address, w⟩).client.cwd
    Confined cwd ∧ ∀ path w real, (toRealPath cwd path w).1 = some real → Inside real := by
  intro cwd
  have hc : Confined cwd := by
    have hstart : Reach (fun s : Session => Confined s.client.cwd) DirCommand.step
        (fun _ _ => True) ⟨newClient w peer address, w⟩ := .init confined_root
    exact (hstart.foldl commands).invariant (fun _ h => h)
      fun s i h _ => DirCommand.step_confined s i h
  refine ⟨hc, fun path w real hs => ?_⟩
  obtain ⟨cs, hb, he⟩ := hc
  rw [he] at hs
  exact toRealPath_inside hb hs

end Ftpii
