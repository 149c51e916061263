import Ftpii.Resolution
set_option autoImplicit false

/-!
The listing of the virtual root and the resolution of the names it yields: one entry for each
mounted partition, in table order, and each name resolves to that partition's prefix.
-/

namespace Ftpii
open StateProgram Prog CString Components

/-! ## Walking a table -/

theorem drop_zipIdx {α : Type} (l : List α) (n k : Nat) :
    (l.zipIdx k).drop n = (l.drop n).zipIdx (k + n) := by
  induction n generalizing l k with
  | zero => rfl
  | succ n ih =>
    cases l with
    | nil => rfl
    | cons x l => rw [List.zipIdx_cons, List.drop_succ_cons, List.drop_succ_cons, ih, Nat.add_assoc,
        Nat.add_comm 1 n]

theorem find_zipIdx_some {α : Type} {p : α → Bool} (l : List α) {x : α} {k i : Nat}
    (h : ((l.zipIdx.drop k).find? fun e => p e.1) = some (x, i)) :
    (l.drop k).filter p = x :: (l.drop (i + 1)).filter p := by
  rw [drop_zipIdx, Nat.zero_add] at h
  generalize hxs : l.drop k = xs at h
  induction xs generalizing k with
  | nil => simp at h
  | cons y ys ih =>
    have htail : l.drop (k + 1) = ys := by rw [← List.tail_drop, hxs, List.tail_cons]
    rw [List.zipIdx_cons, List.find?_cons] at h
    by_cases hy : p y
    · obtain ⟨rfl, rfl⟩ : y = x ∧ k = i := by simpa [hy] using h
      rw [List.filter_cons_of_pos hy, htail]
    · rw [List.filter_cons_of_neg hy]
      exact ih htail (by simpa [hy] using h)

theorem find_zipIdx_none {α : Type} {p : α → Bool} (l : List α) {k : Nat}
    (h : ((l.zipIdx.drop k).find? fun e => p e.1) = none) : (l.drop k).filter p = [] := by
  rw [drop_zipIdx, List.find?_eq_none] at h
  rw [List.filter_eq_nil_iff]
  intro x hx
  rw [← List.zipIdx_map_fst (0 + k) (l.drop k), List.mem_map] at hx
  obtain ⟨e, he, rfl⟩ := hx
  exact h e he

def mountedFrom (mounted : Partition → Bool) (n : Nat) : List Partition :=
  (VIRTUAL_PARTITIONS.drop n).filter mounted

theorem nextMounted_some {d : Devices} {n i : Nat} {p : Partition}
    (h : nextMounted d n = some (i, p)) :
    mountedFrom d.mounted n = p :: mountedFrom d.mounted (i + 1) := by
  rw [nextMounted, Option.map_eq_some_iff] at h
  obtain ⟨⟨q, j⟩, hq, he⟩ := h
  obtain ⟨rfl, rfl⟩ : j = i ∧ q = p := by simpa using he
  exact find_zipIdx_some VIRTUAL_PARTITIONS hq

theorem nextMounted_none {d : Devices} {n : Nat} (h : nextMounted d n = none) :
    mountedFrom d.mounted n = [] := by
  rw [nextMounted, Option.map_eq_none_iff] at h
  exact find_zipIdx_none VIRTUAL_PARTITIONS h

/-! ## The listing -/

def rootEntry (p : Partition) : Int × Str × Stat := (0, p.mountPoint, { isDir := true, size := 0 })

/-- The iterator stands before the partitions ps, whatever else it holds. -/
def Before (mounted : Partition → Bool) (iter : Nat) (ps : List Partition) (w : World) : Prop :=
  ∃ st n, w.streams iter = some st ∧ st.target = .root n ∧ mountedFrom mounted n = ps

theorem before_next {mounted : Partition → Bool} {iter : Nat} {ps : List Partition} {w : World}
    (h : Before mounted iter ps w) (hm : w.devices.mounted = mounted) :
    (vrtDirnext iter w).1 = (ps.head?.map rootEntry).getD (-1, [], {}) ∧
      Before mounted iter ps.tail (vrtDirnext iter w).2 := by
  obtain ⟨st, n, hst, htarget, rfl⟩ := h
  subst hm
  cases hn : nextMounted w.devices n with
  | some e =>
    obtain ⟨i, p⟩ := e
    have hrun : vrtDirnext iter w =
        (rootEntry p, w.setStream iter { st with target := .root (i + 1) }) := by
      simp [vrtDirnext, hst, htarget, hn, rootEntry, p.alias_eq]
    rw [hrun, nextMounted_some hn]
    exact ⟨rfl, { st with target := .root (i + 1) }, i + 1, by simp [World.setStream], rfl, rfl⟩
  | none =>
    have hrun : vrtDirnext iter w = ((-1, [], {}),
        w.setStream iter { st with target := .root (max n VIRTUAL_PARTITIONS.length) }) := by
      simp [vrtDirnext, hst, htarget, hn]
    rw [hrun, nextMounted_none hn]
    let last := max n VIRTUAL_PARTITIONS.length
    refine ⟨rfl, { st with target := .root last }, last, by simp [World.setStream, last], rfl, ?_⟩
    rw [mountedFrom, List.drop_of_length_le (le_max_right _ _)]
    rfl

/-- Calls of vrt_dirnext one after the other. Between them the program may do what it likes as long
as the iterator and the set of mounted partitions are left alone. -/
inductive Lists (mounted : Partition → Bool) (iter : Nat) (w : World) :
    List (Int × Str × Stat) → World → Prop where
  | opened : Lists mounted iter w [] w
  | next {rs : List (Int × Str × Stat)} {v v' : World} : Lists mounted iter w rs v →
      v'.streams iter = v.streams iter → v'.devices.mounted = mounted →
      Lists mounted iter w (rs ++ [(vrtDirnext iter v').1]) (vrtDirnext iter v').2

theorem Lists.before {mounted : Partition → Bool} {iter : Nat} {w w' : World}
    {rs : List (Int × Str × Stat)} (h : Lists mounted iter w rs w') {ps : List Partition}
    (hw : Before mounted iter ps w) :
    Before mounted iter (ps.drop rs.length) w' ∧
      ∀ (k : Nat) r, rs[k]? = some r → r = ((ps[k]?).map rootEntry).getD (-1, [], {}) := by
  induction h with
  | opened => exact ⟨hw, by simp⟩
  | @next rs v v' _ hsame hmounted ih =>
    obtain ⟨hbefore, hresults⟩ := ih
    have hv' : Before mounted iter (ps.drop rs.length) v' := by
      obtain ⟨st, n, hst, hrest⟩ := hbefore
      exact ⟨st, n, hsame.trans hst, hrest⟩
    obtain ⟨hr, hnext⟩ := before_next hv' hmounted
    refine ⟨?_, fun k r hk => ?_⟩
    · rw [List.tail_drop] at hnext
      simpa using hnext
    · rcases Nat.lt_trichotomy k rs.length with hlt | rfl | hgt
      · exact hresults k r (by rwa [List.getElem?_append_left hlt] at hk)
      · rw [List.getElem?_append_right le_rfl, Nat.sub_self, List.getElem?_cons_zero,
          Option.some.injEq] at hk
        rw [← hk, hr, List.head?_drop]
      · rw [List.getElem?_eq_none (by simp; omega)] at hk
        contradiction

theorem vrtDiropen_root {cwd path : Str} (hcolon : ':' ∉ path) (hj : Joins cwd path)
    (hroot : normalise (joined cwd path) = ['/']) : ∃ n ≤ 3, ∀ w : World,
      if w.answers.Allocated n then ∃ iter, (vrtDiropen cwd path w).1 = some iter ∧
        ∀ mounted, Before mounted iter (VIRTUAL_PARTITIONS.filter mounted)
          (vrtDiropen cwd path w).2
      else (vrtDiropen cwd path w).1 = none := by
  have hle := joinAllocations_le path
  refine ⟨joinAllocations path + 1, by omega, fun w => ?_⟩
  obtain ⟨hreal, ha⟩ := toRealPath_root hcolon hj hroot w
  have hadd := w.answers.allocated_add (joinAllocations path) 1
  by_cases h1 : w.answers.Allocated (joinAllocations path)
  · obtain ⟨hok, -⟩ := malloc_run (toRealPath cwd path w).2
    rw [ha h1] at hok
    rw [if_pos h1] at hreal
    by_cases h2 : (w.answers.allocate (joinAllocations path)).Allocated 1
    · let v := (malloc (toRealPath cwd path w).2).2
      have hopen : vrtDiropen cwd path w = (some v.nextStream, { v with
          nextStream := v.nextStream + 1 }.setStream v.nextStream { target := .root 0 }) := by
        simp [vrtDiropen, hreal, hok, h2, openStream, v]
      rw [if_pos (hadd.mpr ⟨h1, h2⟩), hopen]
      exact ⟨_, rfl, fun mounted => ⟨{ target := .root 0 }, 0, by simp [World.setStream], rfl, rfl⟩⟩
    · rw [if_neg fun h => h2 (hadd.mp h).2]
      simp [vrtDiropen, hreal, hok, h2]
  · rw [if_neg h1] at hreal
    rw [if_neg fun h => h1 (hadd.mp h).1]
    simp [vrtDiropen, hreal]

/-! ## The names and their real paths -/

theorem names_mountPoint (p : Partition) : p.Names p.mountPoint := by
  rw [Partition.Names, ← p.alias_eq, caseEq_iff]

/-- A name of the listing, with a path behind it, resolves to its own partition. -/
theorem resolves_name (cwd : Str) (p : Partition) {rest : Str} (hcolon : ':' ∉ rest)
    (hdots : ['.', '.'] ∉ splitSlash rest) :
    ResolvesTo cwd ('/' :: p.mountPoint ++ '/' :: rest) (below p (resolve [] rest)) := by
  have hplain := p.mountPoint_plain
  have hname : Ordinary p.mountPoint := by
    cases p <;> exact ⟨by decide, by decide, by decide, by decide⟩
  have hpath : ':' ∉ '/' :: p.mountPoint ++ '/' :: rest := by simp [hplain.2, hcolon]
  have habs : ('/' :: p.mountPoint ++ '/' :: rest).head? = some '/' := rfl
  have hr : resolveIn [] ('/' :: p.mountPoint ++ '/' :: rest) = p.mountPoint :: resolve [] rest := by
    rw [resolveIn, if_pos habs, List.cons_append, resolve_slash, resolve_append_slash,
      resolve_ordinary [] hname, resolve_append _ hdots]
    rfl
  have hnamed : Partition.named p.mountPoint = some p :=
    Partition.named_eq_some.mpr (names_mountPoint p)
  obtain ⟨n, hn, hrun⟩ := resolvesTo_realPath (List.forall_mem_nil Ordinary) hpath (.inl habs)
  refine ⟨n, hn, fun w => ?_⟩
  rw [toRealPath_of_absolute habs cwd (renderDir []), hrun w, hr, realPath, hnamed]
  rfl

theorem virtualPartitions_nodup : VIRTUAL_PARTITIONS.Nodup := by decide

/-- The listing of the virtual root yields the mounted partitions once each in table order and then
its end for ever, never an unmounted one, and a path behind a name it yields leads into that
partition. -/
theorem root_listing (mounted : Partition → Bool) :
    (∀ cwd path, Joins cwd path → normalise (joined cwd path) = ['/'] →
      ∃ n ≤ 3, ∀ w : World,
        if ':' ∉ path ∧ w.answers.Allocated n then ∃ iter, (vrtDiropen cwd path w).1 = some iter ∧
          ∀ rs w', Lists mounted iter (vrtDiropen cwd path w).2 rs w' →
            ∀ (k : Nat) r, rs[k]? = some r →
              r = (((VIRTUAL_PARTITIONS.filter mounted)[k]?).map rootEntry).getD (-1, [], {}) ∧
              ∀ p, mounted p = false → r.2.1 = p.mountPoint → r.1 = -1
        else (vrtDiropen cwd path w).1 = none) ∧
    ((VIRTUAL_PARTITIONS.filter mounted).map Partition.mountPoint).Nodup ∧
    (∀ p, p ∈ VIRTUAL_PARTITIONS.filter mounted ↔ mounted p = true) ∧
    ∀ cwd, ∀ p ∈ VIRTUAL_PARTITIONS.filter mounted, ∀ rest, ':' ∉ rest →
      ['.', '.'] ∉ splitSlash rest →
      (p.prefix_ ++ joinSlash (resolve [] rest)).length + 1 ≤ MAXPATHLEN →
      ResolvesTo cwd ('/' :: p.mountPoint ++ '/' :: rest)
        (some (p.prefix_ ++ joinSlash (resolve [] rest))) := by
  refine ⟨fun cwd path hj hroot => ?_, ?_, fun p => ?_, fun cwd p _ rest hcolon hdots hfits => ?_⟩
  · by_cases hcolon : ':' ∈ path
    · refine ⟨0, by omega, fun w => ?_⟩
      rw [if_neg fun h => h.1 hcolon]
      simp [vrtDiropen, toRealPath_colon hcolon]
    obtain ⟨n, hn, hrun⟩ := vrtDiropen_root hcolon hj hroot
    refine ⟨n, hn, fun w => ?_⟩
    have hw := hrun w
    split at hw
    · rename_i ha
      obtain ⟨iter, hiter, hbefore⟩ := hw
      rw [if_pos ⟨hcolon, ha⟩]
      refine ⟨iter, hiter, fun rs w' hl k r hk => ?_⟩
      have hr := (hl.before (hbefore mounted)).2 k r hk
      refine ⟨hr, fun p hp hname => ?_⟩
      cases hq : (VIRTUAL_PARTITIONS.filter mounted)[k]? with
      | none =>
        rw [hr, hq]
        rfl
      | some q =>
        rw [hq] at hr
        obtain rfl : r = rootEntry q := hr
        have hm : mounted q = true := (List.mem_filter.mp (List.mem_of_getElem? hq)).2
        obtain rfl : q = p := Partition.mountPoint_injective hname
        rw [hp] at hm
        contradiction
    · rename_i ha
      rwa [if_neg fun h => ha h.2]
  · exact (virtualPartitions_nodup.filter _).map fun _ _ h => Partition.mountPoint_injective h
  · simp [List.mem_filter, p.mem_virtualPartitions]
  · have hbelow := resolves_name cwd p hcolon hdots
    rwa [below, if_pos hfits] at hbelow

/-- Two mounted partitions, listed from a directory below the root. -/
theorem root_listing_two :
    let mounted := fun p => decide (p = Partition.usb ∨ p = Partition.sd)
    let w := World.boot (fun _ => none) mounted (fun _ => [])
    ∃ iter, (vrtDiropen "/sd/a/".toList "../../.".toList w).1 = some iter ∧
      ∀ rs w', Lists mounted iter (vrtDiropen "/sd/a/".toList "../../.".toList w).2 rs w' →
        (∀ r, rs[0]? = some r → r = (0, "sd".toList, { isDir := true, size := 0 })) ∧
        (∀ r, rs[1]? = some r → r = (0, "usb".toList, { isDir := true, size := 0 })) ∧
        ∀ k r, rs[k + 2]? = some r → r.1 = -1 := by
  intro mounted w
  obtain ⟨n, -, hrun⟩ := (root_listing mounted).1 "/sd/a/".toList "../../.".toList
    (.inr (by decide)) (by decide +kernel)
  have hw := hrun w
  have ha : w.answers.Allocated n := by simp [Answers.Allocated, w, World.boot]
  rw [if_pos ⟨by decide, ha⟩] at hw
  obtain ⟨iter, hiter, hlist⟩ := hw
  refine ⟨iter, hiter, fun rs w' hl => ⟨fun r hr => ?_, fun r hr => ?_, fun k r hr => ?_⟩⟩
  · exact (hlist rs w' hl 0 r hr).1
  · exact (hlist rs w' hl 1 r hr).1
  · have hfilter : VIRTUAL_PARTITIONS.filter mounted = [.sd, .usb] := by decide
    have hend := (hlist rs w' hl (k + 2) r hr).1
    rw [hfilter] at hend
    rw [hend]
    rfl

end Ftpii
